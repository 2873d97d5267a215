import CommonLibrary.Foundation.Run
import CommonLibrary.Net.BufferList

/-!
# The send queue of a socket

`send_buf_waiting_` collects what `Socket::send` appends; `flush_data` packs it into
a `BufferList`, moves that to `send_buf_sending_` and sends from there.  The effects
on the rest of the socket (withdrawing the write interest, the flushed callback, the
error path) stand at the ends of these functions, so here they are reported in
`FlushEnd` and carried out by the socket.
-/

namespace CommonLibrary.Net

open Foundation Utils

variable {β : Type}

/-- How `on_writeable` or `flush_data` ended. -/
inductive FlushEnd where
  /-- the poller is closed -/
  | closed
  /-- both queues were empty: `stop_writeable_event` only -/
  | stopped
  /-- everything is sent: `stop_writeable_event`, then `on_flushed` -/
  | flushed
  /-- the kernel takes no more for now -/
  | blocked
  /-- a hard send error: `on_error` -/
  | failed
  deriving DecidableEq

structure SendQueue (β : Type) where
  sendBufSending : List (BufferList β) := []
  sendBufWaiting : List (Buffer β) := []
  sending : Bool := true

structure FlushResult (β : Type) where
  queue : SendQueue β
  calls : List (Sent β)
  env : SendEnv
  how : FlushEnd

/-- What the sending loop of `flush_data` leaves of `send_buf_sending_tmp`. -/
structure PumpResult (β : Type) where
  tmp : List (BufferList β)
  calls : List (Sent β)
  env : SendEnv
  failed : Bool

namespace SendQueue

/-- The loop `while (!send_buf_sending_tmp.empty())` of `flush_data`. -/
def pump (udp : Bool) : List (BufferList β) → SendEnv → PumpResult β
  | [], env => ⟨[], [], env, false⟩
  | pkt :: tmp, env =>
      let res := pkt.send udp env
      if res.ret > 0 then
        if res.list.empty then
          let rest := pump udp tmp res.env
          { rest with calls := res.calls ++ rest.calls }
        else ⟨res.list :: tmp, res.calls, res.env, false⟩
      else
        ⟨res.list :: tmp, res.calls, res.env,
          uvTranslatePosixError res.env.errno ≠ EAGAIN⟩

/-- `send_buf_sending_tmp` when the loop is entered. -/
def toSend (q : SendQueue β) : List (BufferList β) :=
  if q.sendBufSending.isEmpty then [BufferList.ofList q.sendBufWaiting]
  else q.sendBufSending

/-- `send_buf_waiting_` when the loop is entered: a new `BufferList` swaps it out. -/
def stillWaiting (q : SendQueue β) : List (Buffer β) :=
  if q.sendBufSending.isEmpty then [] else q.sendBufWaiting

/-- `flush_data`, calling itself at most `fuel` times. -/
def flushData (isClose udp : Bool) : Nat → SendQueue β → SendEnv → Option (FlushResult β)
  | 0, _, _ => none
  | fuel + 1, q, env =>
      if isClose then some ⟨q, [], env, .closed⟩
      else if q.sendBufSending.isEmpty && q.sendBufWaiting.isEmpty then
        some ⟨{ q with sending := false }, [], env, .flushed⟩
      else
        let res := pump udp q.toSend env
        if res.failed then
          -- `send_buf_sending_tmp` dies with what is left in it
          some ⟨{ q with sendBufSending := [], sendBufWaiting := q.stillWaiting },
            res.calls, res.env, .failed⟩
        else if !res.tmp.isEmpty then
          some ⟨{ q with sendBufSending := res.tmp, sendBufWaiting := q.stillWaiting },
            res.calls, res.env, .blocked⟩
        else
          (flushData isClose udp fuel
            { q with sendBufSending := [], sendBufWaiting := q.stillWaiting }
            res.env).map fun r => { r with calls := res.calls ++ r.calls }

/-- The poller task of `Socket::send`; the flag tells whether it calls
`start_writeable_event`. -/
def append (q : SendQueue β) (buf : Buffer β) : SendQueue β × Bool :=
  ({ q with sendBufWaiting := q.sendBufWaiting ++ [buf], sending := true }, !q.sending)

/-! ## `flush_data` returns -/

theorem flushData_idle (isClose udp : Bool) (fuel : Nat) {q : SendQueue β}
    (hs : q.sendBufSending = []) (hw : q.sendBufWaiting = []) (env : SendEnv) :
    (flushData isClose udp (fuel + 1) q env).isSome := by
  simp only [flushData, hs, hw]
  cases isClose <;> simp

theorem flushData_waiting (isClose udp : Bool) (fuel : Nat) {q : SendQueue β}
    (hs : q.sendBufSending = []) (env : SendEnv) :
    (flushData isClose udp (fuel + 2) q env).isSome := by
  rw [flushData]
  split
  · rfl
  split
  · rfl
  dsimp only
  split
  · rfl
  split
  · rfl
  · rw [Option.isSome_map]
    exact flushData_idle isClose udp fuel rfl (by simp [stillWaiting, hs]) _

/-- The recursion of `flush_data` is at most three calls deep: one empties
`send_buf_sending_`, one `send_buf_waiting_`, and the last finds both empty. -/
theorem flushData_isSome (isClose udp : Bool) (fuel : Nat) (q : SendQueue β)
    (env : SendEnv) : (flushData isClose udp (fuel + 3) q env).isSome := by
  rw [flushData]
  split
  · rfl
  split
  · rfl
  dsimp only
  split
  · rfl
  split
  · rfl
  · rw [Option.isSome_map]
    exact flushData_waiting isClose udp fuel rfl _

theorem flushData_mono {isClose udp : Bool} {fuel : Nat} {q : SendQueue β} {env : SendEnv}
    {r : FlushResult β} (h : flushData isClose udp fuel q env = some r) :
    flushData isClose udp (fuel + 1) q env = some r := by
  induction fuel generalizing q env r with
  | zero => simp [flushData] at h
  | succ fuel ih =>
      rw [flushData] at h ⊢
      by_cases hclose : isClose = true
      · rwa [if_pos hclose] at h ⊢
      rw [if_neg hclose] at h ⊢
      by_cases hidle : (q.sendBufSending.isEmpty && q.sendBufWaiting.isEmpty) = true
      · rwa [if_pos hidle] at h ⊢
      rw [if_neg hidle] at h ⊢
      dsimp only at h ⊢
      by_cases hfailed : (pump udp q.toSend env).failed = true
      · rwa [if_pos hfailed] at h ⊢
      rw [if_neg hfailed] at h ⊢
      by_cases hblocked : (!(pump udp q.toSend env).tmp.isEmpty) = true
      · rwa [if_pos hblocked] at h ⊢
      rw [if_neg hblocked] at h ⊢
      obtain ⟨r', hr', rfl⟩ := Option.map_eq_some_iff.1 h
      rw [ih hr', Option.map_some]

/-- `flush_data`. -/
def flush (q : SendQueue β) (isClose udp : Bool) (env : SendEnv) : FlushResult β :=
  (flushData isClose udp 3 q env).get (flushData_isSome isClose udp 0 q env)

theorem flushData_eq_flush (q : SendQueue β) (isClose udp : Bool) (env : SendEnv)
    {fuel : Nat} (hfuel : 3 ≤ fuel) :
    flushData isClose udp fuel q env = some (q.flush isClose udp env) := by
  induction fuel, hfuel using Nat.le_induction with
  | base => exact (Option.some_get _).symm
  | succ fuel _ ih => exact flushData_mono ih

theorem flush_of_isClose (q : SendQueue β) (udp : Bool) (env : SendEnv) :
    q.flush true udp env = ⟨q, [], env, .closed⟩ := by
  have h := flushData_eq_flush q true udp env (le_refl 3)
  simpa [flushData] using h.symm

def onWriteable (q : SendQueue β) (isClose udp : Bool) (env : SendEnv) : FlushResult β :=
  if q.sendBufSending.isEmpty && q.sendBufWaiting.isEmpty then
    ⟨{ q with sending := false }, [], env, .stopped⟩
  else q.flush isClose udp env

/-- What `flush_data` does to `sending_`, for each way it ends. -/
structure EndSpec (q : SendQueue β) (r : FlushResult β) : Prop where
  drained : r.how = .stopped ∨ r.how = .flushed →
    r.queue.sendBufSending = [] ∧ r.queue.sendBufWaiting = []
  kept : r.how ≠ .stopped → r.how ≠ .flushed → r.queue.sending = q.sending

theorem flushData_end (isClose udp : Bool) (fuel : Nat) {q : SendQueue β} {env : SendEnv}
    {r : FlushResult β} (hr : flushData isClose udp fuel q env = some r) : EndSpec q r := by
  induction fuel generalizing q env r with
  | zero => simp [flushData] at hr
  | succ fuel ih =>
      rw [flushData] at hr
      split at hr
      · cases hr
        exact ⟨fun h => by simp at h, fun _ _ => rfl⟩
      split at hr
      · next hidle =>
        rw [Bool.and_eq_true, List.isEmpty_iff, List.isEmpty_iff] at hidle
        cases hr
        exact ⟨fun _ => hidle, fun _ hne => absurd rfl hne⟩
      dsimp only at hr
      split at hr
      · cases hr
        exact ⟨fun h => by simp at h, fun _ _ => rfl⟩
      split at hr
      · cases hr
        exact ⟨fun h => by simp at h, fun _ _ => rfl⟩
      · obtain ⟨r', hr', rfl⟩ := Option.map_eq_some_iff.1 hr
        have hspec := ih hr'
        exact ⟨hspec.drained, hspec.kept⟩

theorem onWriteable_end (q : SendQueue β) (isClose udp : Bool) (env : SendEnv) :
    EndSpec q (q.onWriteable isClose udp env) := by
  unfold onWriteable
  split
  · next hidle =>
    rw [Bool.and_eq_true, List.isEmpty_iff, List.isEmpty_iff] at hidle
    exact ⟨fun _ => hidle, fun hne _ => absurd rfl hne⟩
  · exact flushData_end isClose udp 3 (flushData_eq_flush q isClose udp env le_rfl)

theorem onWriteable_idle {q : SendQueue β} (hs : q.sendBufSending = [])
    (hw : q.sendBufWaiting = []) (isClose udp : Bool) (env : SendEnv) :
    (q.onWriteable isClose udp env).how = .stopped := by
  unfold onWriteable
  rw [hs, hw]
  rfl

/-! ## What a flush does to the queued bytes -/

/-- The unsent bytes of both queues, in the order they will be sent. -/
def unsent (q : SendQueue β) : List β :=
  q.sendBufSending.flatMap BufferList.rest ++ q.sendBufWaiting.flatMap Buffer.data

structure Inv (q : SendQueue β) : Prop where
  sending : ∀ bl ∈ q.sendBufSending, bl.Inv
  waiting : ∀ b ∈ q.sendBufWaiting, b.data ≠ []

/-- The bytes waiting fit the `int` counter of the `BufferList` made of them. -/
def Small (q : SendQueue β) : Prop :=
  (q.sendBufWaiting.flatMap Buffer.data).length < 2 ^ 31

theorem init_inv : ({} : SendQueue β).Inv := ⟨by simp, by simp⟩

theorem append_inv {q : SendQueue β} (h : q.Inv) {buf : Buffer β} (hne : buf.data ≠ []) :
    (q.append buf).1.Inv where
  sending := h.sending
  waiting := by
    intro b hb
    rcases List.mem_append.1 hb with hb | hb
    · exact h.waiting b hb
    · rw [List.mem_singleton.1 hb]; exact hne

theorem unsent_append (q : SendQueue β) (buf : Buffer β) :
    (q.append buf).1.unsent = q.unsent ++ buf.data := by
  simp [append, unsent]

theorem pump_spec (udp : Bool) {tmp : List (BufferList β)} (h : ∀ bl ∈ tmp, bl.Inv)
    (env : SendEnv) :
    (∀ bl ∈ (pump udp tmp env).tmp, bl.Inv) ∧
      (pump udp tmp env).calls.flatMap Sent.accepted ++
        (pump udp tmp env).tmp.flatMap BufferList.rest =
          tmp.flatMap BufferList.rest := by
  induction tmp generalizing env with
  | nil => simp [pump]
  | cons pkt tmp ih =>
      have hpkt := h pkt (by simp)
      have htmp : ∀ bl ∈ tmp, bl.Inv := fun bl hbl => h bl (by simp [hbl])
      obtain ⟨hinv, hrest⟩ := BufferList.send_spec hpkt udp env
      have hkept : (∀ bl ∈ (pkt.send udp env).list :: tmp, bl.Inv) ∧
          (pkt.send udp env).calls.flatMap Sent.accepted ++
            ((pkt.send udp env).list :: tmp).flatMap BufferList.rest =
              (pkt :: tmp).flatMap BufferList.rest := by
        refine ⟨List.forall_mem_cons.2 ⟨hinv, htmp⟩, ?_⟩
        rw [List.flatMap_cons, ← List.append_assoc, hrest, List.flatMap_cons]
      rw [pump]
      dsimp only
      split
      · split
        · next hempty =>
          obtain ⟨hinv', hrest'⟩ := ih htmp (pkt.send udp env).env
          refine ⟨hinv', ?_⟩
          rw [List.flatMap_append, List.append_assoc, hrest', List.flatMap_cons, ← hrest,
            BufferList.rest_eq_nil_of_empty hempty, List.append_nil]
        · exact hkept
      · exact hkept

theorem toSend_inv {q : SendQueue β} (h : q.Inv) (hsmall : q.Small) :
    ∀ bl ∈ q.toSend, bl.Inv := by
  intro bl hbl
  unfold toSend at hbl
  split at hbl
  · rw [List.mem_singleton.1 hbl]
    exact BufferList.ofList_inv h.waiting hsmall
  · exact h.sending bl hbl

theorem toSend_rest (q : SendQueue β) :
    q.toSend.flatMap BufferList.rest ++ q.stillWaiting.flatMap Buffer.data =
      q.unsent := by
  unfold toSend stillWaiting unsent
  split
  · next h =>
    rw [List.isEmpty_iff.1 h]
    simp [BufferList.rest_ofList]
  · rfl

theorem stillWaiting_subset (q : SendQueue β) :
    ∀ b ∈ q.stillWaiting, b ∈ q.sendBufWaiting := by
  unfold stillWaiting
  split <;> simp

theorem stillWaiting_small {q : SendQueue β} (h : q.Small) :
    (q.stillWaiting.flatMap Buffer.data).length < 2 ^ 31 := by
  unfold stillWaiting
  split
  · simp
  · exact h

/-- What `flush_data` leaves behind, for each way it ends. -/
structure FlushSpec (q : SendQueue β) (r : FlushResult β) : Prop where
  inv : r.queue.Inv
  conserved : r.how ≠ .failed → r.calls.flatMap Sent.accepted ++ r.queue.unsent = q.unsent
  sent_prefix : r.calls.flatMap Sent.accepted <+: q.unsent

theorem flushData_spec (isClose udp : Bool) (fuel : Nat) {q : SendQueue β} (h : q.Inv)
    (hsmall : q.Small) (env : SendEnv) {r : FlushResult β}
    (hr : flushData isClose udp fuel q env = some r) : FlushSpec q r := by
  induction fuel generalizing q env r with
  | zero => simp [flushData] at hr
  | succ fuel ih =>
      obtain ⟨hinv, hrest⟩ := pump_spec udp (toSend_inv h hsmall) env
      have hwait : ∀ b ∈ q.stillWaiting, b.data ≠ [] :=
        fun b hb => h.waiting b (stillWaiting_subset q b hb)
      have hsplit : (pump udp q.toSend env).calls.flatMap Sent.accepted ++
          ((pump udp q.toSend env).tmp.flatMap BufferList.rest ++
            q.stillWaiting.flatMap Buffer.data) = q.unsent := by
        rw [← List.append_assoc, hrest, toSend_rest]
      rw [flushData] at hr
      split at hr
      · -- the poller is closed
        cases hr
        exact ⟨h, fun _ => by simp, by simp⟩
      split at hr
      · -- nothing is queued
        cases hr
        exact ⟨⟨h.sending, h.waiting⟩, fun _ => by simp [unsent], by simp⟩
      dsimp only at hr
      split at hr
      · cases hr
        exact ⟨⟨by simp, hwait⟩, fun hne => absurd rfl hne, ⟨_, hsplit⟩⟩
      split at hr
      · cases hr
        exact ⟨⟨hinv, hwait⟩, fun _ => hsplit, ⟨_, hsplit⟩⟩
      · -- everything in `send_buf_sending_tmp` is sent: once more
        next hdone =>
        have hnil : (pump udp q.toSend env).tmp = [] := by simpa using hdone
        obtain ⟨r', hr', rfl⟩ := Option.map_eq_some_iff.1 hr
        have hspec := ih (q := { q with
            sendBufSending := [], sendBufWaiting := q.stillWaiting })
          ⟨by simp, hwait⟩ (stillWaiting_small hsmall) _ hr'
        have hunsent : ({ q with sendBufSending := [], sendBufWaiting := q.stillWaiting } :
            SendQueue β).unsent = q.stillWaiting.flatMap Buffer.data := by simp [unsent]
        rw [hnil, List.flatMap_nil, List.nil_append] at hsplit
        have hcons := hspec.conserved
        have hpre := hspec.sent_prefix
        rw [hunsent] at hcons hpre
        refine ⟨hspec.inv, fun hne => ?_, ?_⟩
        · rw [List.flatMap_append, List.append_assoc, hcons hne, hsplit]
        · rw [List.flatMap_append, ← hsplit]
          exact (List.prefix_append_right_inj _).2 hpre

theorem flush_spec (isClose udp : Bool) {q : SendQueue β} (h : q.Inv) (hsmall : q.Small)
    (env : SendEnv) : FlushSpec q (q.flush isClose udp env) :=
  flushData_spec isClose udp 3 h hsmall env (flushData_eq_flush q isClose udp env le_rfl)

theorem onWriteable_spec (isClose udp : Bool) {q : SendQueue β} (h : q.Inv)
    (hsmall : q.Small) (env : SendEnv) : FlushSpec q (q.onWriteable isClose udp env) := by
  unfold onWriteable
  split
  · exact ⟨⟨h.sending, h.waiting⟩, fun _ => by simp [unsent], by simp⟩
  · exact flush_spec isClose udp h hsmall env

end SendQueue

/-! ## Runs on one `SocketFD` -/

/-- The send queue of a socket with the history of one connection. -/
structure SendSide (β : Type) where
  queue : SendQueue β := {}
  /-- the bytes `sendmsg` took over so far -/
  accepted : List β := []
  /-- the buffers appended so far -/
  appended : List (Buffer β) := []
  /-- a hard send error happened -/
  failed : Bool := false

inductive SendAction (β : Type) where
  /-- the poller task of `Socket::send` runs -/
  | append (buf : Buffer β)
  /-- `on_writeable` is called -/
  | writeable (isClose : Bool) (env : SendEnv)

namespace SendSide

def step (udp : Bool) (st : SendSide β) : SendAction β → Option (SendSide β)
  | .append buf => some { st with
      queue := (st.queue.append buf).1
      appended := st.appended ++ [buf] }
  | .writeable isClose env =>
      let r := st.queue.onWriteable isClose udp env
      some { st with
        queue := r.queue
        accepted := st.accepted ++ r.calls.flatMap Sent.accepted
        failed := st.failed || r.how = .failed }

/-- `Socket::send` appends no empty buffer, and no `BufferList` gets 2 GiB or more. -/
def Admissible (st : SendSide β) : SendAction β → Prop
  | .append buf => buf.data ≠ []
  | .writeable _ _ => st.queue.Small

structure Inv (st : SendSide β) : Prop where
  queue : st.queue.Inv
  conserved : st.failed = false →
    st.accepted ++ st.queue.unsent = st.appended.flatMap Buffer.data

theorem step_inv {udp : Bool} {st st' : SendSide β} {a : SendAction β} (h : st.Inv)
    (hadm : st.Admissible a) (hstep : st.step udp a = some st') : st'.Inv := by
  cases a with
  | append buf =>
      cases hstep
      refine ⟨SendQueue.append_inv h.queue hadm, fun hok => ?_⟩
      simp only [SendQueue.unsent_append, List.flatMap_append, ← List.append_assoc,
        h.conserved hok]
      simp
  | writeable isClose env =>
      cases hstep
      have hspec := SendQueue.onWriteable_spec isClose udp h.queue hadm env
      refine ⟨hspec.inv, fun hok => ?_⟩
      simp only [Bool.or_eq_false_iff, decide_eq_false_iff_not] at hok
      rw [List.append_assoc, hspec.conserved hok.2, h.conserved hok.1]

theorem run_inv {udp : Bool} {acts : List (SendAction β)} {st : SendSide β}
    (hrun : Run (step udp) Admissible {} acts st) : st.Inv :=
  hrun.invariant (fun _ _ _ => step_inv) ⟨SendQueue.init_inv, fun _ => rfl⟩

/-- In every state of a run without a hard send error the accepted bytes followed by
the queued ones are the appended ones; `flush_data` returns, and it does nothing
once the poller is closed. -/
theorem queue_conserved {acts : List (SendAction β)} {st : SendSide β}
    (hrun : Run (step false) Admissible {} acts st) (hok : st.failed = false) :
    st.accepted ++ (st.queue.sendBufSending.flatMap BufferList.rest ++
        st.queue.sendBufWaiting.flatMap Buffer.data) =
      st.appended.flatMap Buffer.data ∧
    (∀ isClose env fuel, 3 ≤ fuel →
      SendQueue.flushData isClose false fuel st.queue env =
        some (st.queue.flush isClose false env)) ∧
    (∀ env, st.queue.flush true false env = ⟨st.queue, [], env, .closed⟩) :=
  ⟨(run_inv hrun).conserved hok,
    fun isClose env _ hfuel => SendQueue.flushData_eq_flush st.queue isClose false env hfuel,
    SendQueue.flush_of_isClose st.queue false⟩

/-- Two sends, of which a partial `sendmsg` behind an interrupted one takes 3 bytes. -/
theorem queue_conserved_partial :
    ∃ st : SendSide UInt8,
      Run (step false) Admissible {}
        [.append (.raw [1, 2]), .append (.raw [3, 4]), .writeable false ⟨[.err 4, .ok 3], 0⟩] st ∧
      st.accepted = [1, 2, 3] ∧ st.queue.sendBufWaiting = [] ∧
      st.accepted ++ (st.queue.sendBufSending.flatMap BufferList.rest ++
        st.queue.sendBufWaiting.flatMap Buffer.data) = [1, 2, 3, 4] := by
  have hrun : Run (step false) Admissible ({} : SendSide UInt8)
      [.append (.raw [1, 2]), .append (.raw [3, 4]), .writeable false ⟨[.err 4, .ok 3], 0⟩] _ :=
    .cons (by simp [Admissible, Buffer.data]) rfl (.cons (by simp [Admissible, Buffer.data]) rfl
      (.cons (by simp [Admissible, SendQueue.Small, Buffer.data, SendQueue.append]) rfl (.nil _)))
  exact ⟨_, hrun, by decide, rfl, (queue_conserved hrun (by decide)).1⟩

end SendSide

end CommonLibrary.Net
