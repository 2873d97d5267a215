import CommonLibrary.Net.SendProgress
import CommonLibrary.Net.Socket

/-!
# A connection between two sockets

One direction of a TCP connection: the calls of `Socket::send` and their poller tasks, which
`AsyncFirst` puts before those that wait, the send queue, the kernel's two buffers and the loop of
`on_read` at the other end.  `socket_flags_`, which `sendmsg` gets, is never set.  Both descriptors
are registered edge-triggered.  So the kernel reports room for writing once when the registration
is made or modified and there is room, and once when room comes back after a refused `sendmsg`; it
reports data when data arrives.  It may report either without need.
-/

namespace CommonLibrary.Net

open Foundation Utils

variable {β : Type}

/-- The sizes of the send buffer and of the receive buffer, and what of the bytes that `sendmsg`
takes over with some flags goes into the stream: without flags, all of them. -/
structure StreamKernel (β : Type) where
  snd : Nat
  rcv : Nat
  snd_pos : 0 < snd
  rcv_pos : 0 < rcv
  stream : Int → List β → List β
  stream_zero : ∀ bytes, stream 0 bytes = bytes

structure TcpStream (β : Type) where
  /-- `socket_flags_` -/
  socketFlags : Int
  /-- the tasks of `Socket::send` in `task_list_` -/
  posted : List (Buffer β) := []
  /-- those that `on_pipe_event` has still to run -/
  draining : List (Buffer β) := []
  queue : SendQueue β := {}
  /-- the sender's poller has a report of room before it -/
  writeEdge : Bool := true
  /-- the kernel will report when there is room -/
  noSpace : Bool := false
  /-- `emit_error` has closed the sending socket -/
  failed : Bool := false
  /-- taken over by `sendmsg`, and not yet with the receiver -/
  sndBuf : List β := []
  rcvBuf : List β := []
  /-- the receiver's poller has a report of data before it -/
  readEdge : Bool := false
  /-- the receiver is in the loop of `on_read` -/
  reading : Bool := false
  /-- what `read_cb_` was called with -/
  delivered : List (List β) := []
  /-- history: the calls of `Socket::send` -/
  given : List (Buffer β) := []
  /-- history: the calls that there were between two drains of the task list -/
  batches : List (List (Buffer β)) := []
  /-- history: what the tasks have appended to `send_buf_waiting_` -/
  appended : List (Buffer β) := []

inductive StreamAction (β : Type) where
  /-- `Socket::send` is called -/
  | send (buf : Buffer β)
  /-- `on_pipe_event` swaps the task list out -/
  | drain
  /-- the next poller task of `Socket::send` runs -/
  | append
  /-- `on_writeable` is called -/
  | writeable (spurious : Bool) (env : SendEnv)
  /-- room has come back -/
  | wake
  /-- `k` bytes arrive -/
  | transmit (k : Nat)
  /-- `on_read` is called -/
  | readable (spurious : Bool)
  /-- `recvfrom` returns `k` bytes, which `read_cb_` gets -/
  | recv (k : Nat)
  /-- `recvfrom` says `EAGAIN`, and `on_read` returns -/
  | recvAgain

namespace StreamAction

/-- A report that there was no need for, or one of room that is there no more. -/
def extra : StreamAction β → Bool
  | writeable spurious env => spurious || !SendEnv.takes env.answers
  | readable spurious => spurious
  | _ => false

/-- Nobody has to ask for it. -/
def Due : StreamAction β → Prop
  | send _ => False
  | writeable spurious _ => spurious = false
  | readable spurious => spurious = false
  | _ => True

end StreamAction

namespace TcpStream

/-- `buffer->Capacity() - 1` of a `read_buf_` for TCP. -/
def capacity : Nat := 128 * 1024 - 1

/-- What goes into the stream of the bytes that the calls of `sendmsg` have taken over. -/
def streamed (K : StreamKernel β) (st : TcpStream β) (calls : List (Sent β)) : List β :=
  calls.flatMap fun c => K.stream st.socketFlags c.accepted

def step (K : StreamKernel β) (st : TcpStream β) : StreamAction β → Option (TcpStream β)
  | .send buf =>
      if st.failed = false then
        if buf.data.isEmpty then some st
        else some { st with posted := buf :: st.posted, given := st.given ++ [buf] }
      else none
  | .drain =>
      if st.draining = [] ∧ st.posted ≠ [] then
        some { st with
          posted := []
          draining := st.posted
          batches := st.batches ++ [st.posted.reverse] }
      else none
  | .append =>
      match st.draining with
      | [] => none
      | buf :: draining =>
          -- the `SocketFD` is gone
          if st.failed then some { st with draining := draining }
          else
            let r := st.queue.append buf
            -- `epoll_ctl` looks whether there is room
            let room : Bool := st.sndBuf.length < K.snd
            some { st with
              draining := draining
              queue := r.1
              appended := st.appended ++ [buf]
              writeEdge := st.writeEdge || (r.2 && room)
              noSpace := st.noSpace || (r.2 && !room) }
  | .writeable spurious env =>
      if st.failed = false ∧ (if spurious then st.queue.sending else st.writeEdge) then
        let r := st.queue.onWriteable false false env
        some { st with
          queue := r.queue
          writeEdge := false
          noSpace := st.noSpace || r.calls.any fun c => c.ret = -1
          failed := r.how = .failed
          sndBuf := st.sndBuf ++ st.streamed K r.calls }
      else none
  | .wake =>
      if st.noSpace ∧ st.sndBuf.length < K.snd then
        some { st with noSpace := false, writeEdge := st.writeEdge || st.queue.sending }
      else none
  | .transmit k =>
      if 0 < k ∧ k ≤ st.sndBuf.length ∧ st.rcvBuf.length + k ≤ K.rcv then
        some { st with
          sndBuf := st.sndBuf.drop k
          rcvBuf := st.rcvBuf ++ st.sndBuf.take k
          readEdge := true }
      else none
  | .readable spurious =>
      if st.reading = false ∧ (spurious ∨ st.readEdge) then
        some { st with reading := true, readEdge := false }
      else none
  | .recv k =>
      if st.reading ∧ 0 < k ∧ k ≤ capacity ∧ k ≤ st.rcvBuf.length then
        some { st with
          rcvBuf := st.rcvBuf.drop k
          delivered := st.delivered ++ [st.rcvBuf.take k] }
      else none
  | .recvAgain =>
      if st.reading ∧ st.rcvBuf = [] then some { st with reading := false } else none

/-- No `BufferList` gets 2 GiB or more. -/
def Admissible (st : TcpStream β) : StreamAction β → Prop
  | .writeable _ _ => st.queue.Small
  | _ => True

/-- Nothing is sent anew, and the connection does not break. -/
def Quiet (st : TcpStream β) : StreamAction β → Prop
  | .send _ => False
  | .writeable _ env => st.queue.Small ∧ env.Clean
  | _ => True

def queued (st : TcpStream β) : List β := st.appended.flatMap Buffer.data

/-- The calls of `Socket::send` in the order in which their tasks are run: of those between two
drains, the last one first. -/
def inTurn (st : TcpStream β) : List (Buffer β) := st.batches.flatMap List.reverse

def received (st : TcpStream β) : List β := st.delivered.flatten

def accepted (st : TcpStream β) : List β := st.received ++ st.rcvBuf ++ st.sndBuf

variable {K : StreamKernel β} {st st' : TcpStream β} {a : StreamAction β}

/-! ## What every step keeps -/

/-- Where the calls of `Socket::send` are. -/
structure Posted (st : TcpStream β) : Prop where
  flags : st.socketFlags = 0
  nonempty : ∀ buf ∈ st.posted ++ st.draining, buf.data ≠ []
  given : st.batches.flatten ++ st.posted.reverse = st.given
  turn : st.appended <+: st.inTurn
  drained : st.failed = false → st.appended ++ st.draining = st.inTurn

structure Inv (st : TcpStream β) : Prop extends Posted st where
  queue : st.queue.Inv
  left : st.queue.Left
  in_order : st.accepted <+: st.queued
  conserved : st.failed = false → st.accepted ++ st.queue.unsent = st.queued
  /-- as long as the sender wants to write, a report of room is there or to come -/
  armed : st.failed = false → st.queue.sending = true → st.writeEdge = true ∨ st.noSpace = true
  idle : st.failed = false → st.queue.sending = false → st.queue.unsent = []
  signalled : st.rcvBuf ≠ [] → st.readEdge = true ∨ st.reading = true
  chunks : ∀ c ∈ st.delivered, c ≠ [] ∧ c.length ≤ capacity

theorem streamed_eq (h : st.Posted) (calls : List (Sent β)) :
    st.streamed K calls = calls.flatMap Sent.accepted := by
  unfold streamed
  rw [h.flags]
  exact List.flatMap_congr fun c _ => K.stream_zero c.accepted

theorem init_inv : ({ socketFlags := 0 } : TcpStream β).Inv where
  flags := rfl
  nonempty := fun _ h => (List.not_mem_nil h).elim
  given := rfl
  turn := List.prefix_refl _
  drained := fun _ => rfl
  queue := SendQueue.init_inv
  left := fun _ hbl => (List.not_mem_nil hbl).elim
  in_order := List.prefix_refl _
  conserved := fun _ => rfl
  armed := fun _ _ => .inl rfl
  idle := fun _ h => nomatch h
  signalled := fun h => absurd rfl h
  chunks := fun _ hc => (List.not_mem_nil hc).elim

theorem Inv.of_same (h : st.Inv) (hposted : st'.Posted) (hqueue : st'.queue = st.queue)
    (hfailed : st'.failed = st.failed) (hsent : st'.appended = st.appended)
    (haccepted : st'.accepted = st.accepted)
    (harmed : st'.queue.sending = true → st.writeEdge = true ∨ st.noSpace = true →
      st'.writeEdge = true ∨ st'.noSpace = true)
    (hsignalled : st'.rcvBuf ≠ [] → st'.readEdge = true ∨ st'.reading = true)
    (hchunks : ∀ c ∈ st'.delivered, c ≠ [] ∧ c.length ≤ capacity) : st'.Inv where
  toPosted := hposted
  queue := hqueue ▸ h.queue
  left := hqueue ▸ h.left
  in_order := by
    rw [haccepted, queued, hsent]
    exact h.in_order
  conserved hok := by
    rw [haccepted, hqueue, queued, hsent]
    exact h.conserved (hfailed ▸ hok)
  armed hok hsending := harmed hsending (h.armed (hfailed ▸ hok) (hqueue ▸ hsending))
  idle hok hsending := by
    rw [hqueue] at hsending ⊢
    exact h.idle (hfailed ▸ hok) hsending
  signalled := hsignalled
  chunks := hchunks

theorem Posted.of_same (h : st.Posted) (hflags : st'.socketFlags = st.socketFlags)
    (hposted : st'.posted = st.posted) (hdraining : st'.draining = st.draining)
    (hgiven : st'.given = st.given) (hbatches : st'.batches = st.batches)
    (happended : st'.appended = st.appended) (hfailed : st'.failed = false → st.failed = false) :
    st'.Posted where
  flags := hflags.trans h.flags
  nonempty := by
    rw [hposted, hdraining]
    exact h.nonempty
  given := by
    rw [hbatches, hposted, hgiven]
    exact h.given
  turn := by
    rw [happended, inTurn, hbatches]
    exact h.turn
  drained hok := by
    rw [happended, hdraining, inTurn, hbatches]
    exact h.drained (hfailed hok)

theorem send_inv {buf : Buffer β} (h : st.Inv) (hstep : st.step K (.send buf) = some st') :
    st'.Inv := by
  obtain ⟨hok, heq⟩ := Option.ite_none_right_eq_some.1 hstep
  split at heq
  · cases heq
    exact h
  · next hne =>
    cases heq
    refine h.of_same ⟨h.flags, ?_, ?_, h.turn, h.drained⟩ rfl rfl rfl rfl (fun _ => id) h.signalled
      h.chunks
    · intro buf' hbuf
      rcases List.mem_cons.1 hbuf with rfl | hbuf
      · exact fun hnil => hne (List.isEmpty_iff.2 hnil)
      · exact h.nonempty buf' hbuf
    · have hgiven := h.given
      simp only [List.reverse_cons, ← List.append_assoc, hgiven]

theorem drain_inv (h : st.Inv) (hstep : st.step K .drain = some st') : st'.Inv := by
  obtain ⟨⟨hnone, -⟩, heq⟩ := Option.ite_none_right_eq_some.1 hstep
  cases heq
  have hturn : (st.batches ++ [st.posted.reverse]).flatMap List.reverse =
      st.inTurn ++ st.posted := by
    rw [List.flatMap_append, List.flatMap_singleton, List.reverse_reverse, inTurn]
  refine h.of_same ⟨h.flags, ?_, ?_, ?_, fun hok => ?_⟩ rfl rfl rfl rfl (fun _ => id) h.signalled
    h.chunks
  · intro buf hbuf
    exact h.nonempty buf (List.mem_append_left _ hbuf)
  · have hgiven := h.given
    simpa using hgiven
  · have hlonger : st.inTurn <+: st.inTurn ++ st.posted := List.prefix_append _ _
    rw [← hturn] at hlonger
    exact h.turn.trans hlonger
  · have hdrained := h.drained hok
    rw [hnone, List.append_nil] at hdrained
    exact (congrArg (· ++ _) hdrained).trans hturn.symm

theorem append_inv (h : st.Inv) (hstep : st.step K .append = some st') : st'.Inv := by
  unfold step at hstep
  dsimp only at hstep
  split at hstep
  · cases hstep
  · next buf draining hdraining =>
    have hnonempty : ∀ buf' ∈ st.posted ++ draining, buf'.data ≠ [] := fun buf' hbuf => by
      refine h.nonempty buf' ?_
      rw [hdraining]
      exact (List.mem_append.1 hbuf).elim (List.mem_append_left _)
        fun hin => List.mem_append_right _ (List.mem_cons_of_mem _ hin)
    have hne : buf.data ≠ [] := h.nonempty buf (by
      rw [hdraining]
      exact List.mem_append_right _ List.mem_cons_self)
    split at hstep
    · next hfailed =>
      cases hstep
      refine h.of_same ⟨h.flags, hnonempty, h.given, h.turn, fun hok => ?_⟩ rfl rfl rfl rfl
        (fun _ => id) h.signalled h.chunks
      rw [show st.failed = false from hok] at hfailed
      cases hfailed
    · next hgood =>
      have hok : st.failed = false := Bool.eq_false_iff.2 hgood
      cases hstep
      have hqueued : (st.appended ++ [buf]).flatMap Buffer.data = st.queued ++ buf.data := by
        rw [List.flatMap_append, List.flatMap_singleton, queued]
      have hturn : st.appended ++ [buf] ++ draining = st.inTurn := by
        rw [List.append_assoc, List.singleton_append, ← hdraining]
        exact h.drained hok
      refine ⟨⟨h.flags, hnonempty, h.given, hturn ▸ List.prefix_append _ _, fun _ => hturn⟩,
        SendQueue.append_inv h.queue hne, h.left, ?_, fun _ => ?_, fun _ _ => ?_,
        fun _ hsending => (by cases hsending), h.signalled, h.chunks⟩
      · have hlonger : st.queued <+: st.queued ++ buf.data := List.prefix_append _ _
        rw [← hqueued] at hlonger
        exact h.in_order.trans hlonger
      · have hconserved := h.conserved hok
        simp only [accepted, received] at hconserved
        simp only [accepted, received, queued, SendQueue.unsent_append, hqueued,
          ← List.append_assoc, hconserved]
      · cases hsending : st.queue.sending with
        | true =>
            exact (h.armed hok hsending).imp (fun hedge => by rw [hedge, Bool.true_or])
              fun hspace => by rw [hspace, Bool.true_or]
        | false =>
            -- `start_writeable_event` is called
            simp only [SendQueue.append, hsending, Bool.not_false, Bool.true_and]
            cases decide (st.sndBuf.length < K.snd)
            · exact .inr (Bool.or_true _)
            · exact .inl (Bool.or_true _)

theorem writeable_inv {spurious : Bool} {env : SendEnv} (h : st.Inv) (hsmall : st.queue.Small)
    (hstep : st.step K (.writeable spurious env) = some st') : st'.Inv := by
  obtain ⟨⟨hok, -⟩, heq⟩ := Option.ite_none_right_eq_some.1 hstep
  cases heq
  have hspec := SendQueue.onWriteable_spec false false h.queue hsmall env
  have hend := SendQueue.onWriteable_end st.queue false false env
  have hends := SendQueue.onWriteable_ends false h.queue hsmall h.left env
  have hconserved := h.conserved hok
  have haccepted : st.received ++ st.rcvBuf ++ (st.sndBuf ++
      st.streamed K (st.queue.onWriteable false false env).calls) =
      st.accepted ++ (st.queue.onWriteable false false env).calls.flatMap Sent.accepted := by
    rw [streamed_eq h.toPosted]
    exact (List.append_assoc _ _ _).symm
  have hfirst : st.received ++ st.rcvBuf ++ (st.sndBuf ++
      st.streamed K (st.queue.onWriteable false false env).calls) <+: st.queued := by
    rw [haccepted, ← hconserved]
    exact (List.prefix_append_right_inj _).2 hspec.sent_prefix
  have hfailed : ∀ {how : FlushEnd}, decide (how = .failed) = false → how ≠ .failed :=
    fun hno => of_decide_eq_false hno
  refine ⟨h.toPosted.of_same rfl rfl rfl rfl rfl rfl fun _ => hok, hspec.inv, hends.left, hfirst,
    fun hgood => ?_,
    fun hgood hsending => ?_, fun hgood hsending => ?_, h.signalled, h.chunks⟩
  · refine (congrArg (· ++ _) haccepted).trans ?_
    rw [List.append_assoc, hspec.conserved (hfailed hgood), hconserved]
    rfl
  · -- it ended with something left, so a call was refused
    have hnot : ¬ ((st.queue.onWriteable false false env).how = .stopped ∨
        (st.queue.onWriteable false false env).how = .flushed) := by
      intro hdone
      rw [hends.stopped hdone] at hsending
      cases hsending
    have hblocked : (st.queue.onWriteable false false env).how = .blocked := by
      rcases hends.how with hdone | hdone | hblocked | hbad
      · exact absurd (.inl hdone) hnot
      · exact absurd (.inr hdone) hnot
      · exact hblocked
      · exact absurd hbad (hfailed hgood)
    obtain ⟨c, hc, hret⟩ := hends.refused hblocked
    refine .inr (Bool.or_eq_true_iff.2 (.inr (List.any_eq_true.2 ⟨c, hc, ?_⟩)))
    exact decide_eq_true hret
  · by_cases hdone : (st.queue.onWriteable false false env).how = .stopped ∨
        (st.queue.onWriteable false false env).how = .flushed
    · exact (SendQueue.unsent_eq_nil hspec.inv hends.left).2 (hend.drained hdone)
    · rw [not_or] at hdone
      have hkept := hend.kept hdone.1 hdone.2
      have hnil := h.idle hok (hkept ▸ hsending)
      have hconserved' := hspec.conserved (hfailed hgood)
      rw [hnil, List.append_eq_nil_iff] at hconserved'
      exact hconserved'.2

theorem step_inv (h : st.Inv) (hadm : st.Admissible a) (hstep : st.step K a = some st') :
    st'.Inv := by
  cases a with
  | send buf => exact send_inv h hstep
  | drain => exact drain_inv h hstep
  | append => exact append_inv h hstep
  | writeable spurious env => exact writeable_inv h hadm hstep
  | wake =>
      obtain ⟨-, heq⟩ := Option.ite_none_right_eq_some.1 hstep
      cases heq
      refine h.of_same (h.toPosted.of_same rfl rfl rfl rfl rfl rfl id) rfl rfl rfl rfl
        (fun hsending _ => .inl ?_) h.signalled h.chunks
      rw [Bool.or_eq_true]
      exact .inr hsending
  | transmit k =>
      obtain ⟨-, heq⟩ := Option.ite_none_right_eq_some.1 hstep
      cases heq
      refine h.of_same (h.toPosted.of_same rfl rfl rfl rfl rfl rfl id) rfl rfl rfl ?_
        (fun _ => id) (fun _ => .inl rfl) h.chunks
      simp only [accepted, received, List.append_assoc, List.take_append_drop]
  | readable spurious =>
      obtain ⟨-, heq⟩ := Option.ite_none_right_eq_some.1 hstep
      cases heq
      exact h.of_same (h.toPosted.of_same rfl rfl rfl rfl rfl rfl id) rfl rfl rfl rfl
        (fun _ => id) (fun _ => .inr rfl) h.chunks
  | recv k =>
      obtain ⟨⟨hreading, hpos, hcap, hle⟩, heq⟩ := Option.ite_none_right_eq_some.1 hstep
      cases heq
      refine h.of_same (h.toPosted.of_same rfl rfl rfl rfl rfl rfl id) rfl rfl rfl ?_
        (fun _ => id) (fun _ => .inr hreading) ?_
      · simp only [accepted, received, List.flatten_append, List.flatten_singleton,
          List.append_assoc]
        rw [← List.append_assoc (st.rcvBuf.take k), List.take_append_drop]
      · intro c hc
        rcases List.mem_append.1 hc with hc | hc
        · exact h.chunks c hc
        · rw [List.mem_singleton.1 hc, ← List.length_pos_iff, List.length_take]
          omega
  | recvAgain =>
      obtain ⟨⟨-, hempty⟩, heq⟩ := Option.ite_none_right_eq_some.1 hstep
      cases heq
      exact h.of_same (h.toPosted.of_same rfl rfl rfl rfl rfl rfl id) rfl rfl rfl rfl
        (fun _ => id) (fun hne => absurd hempty hne) h.chunks

theorem run_inv {acts : List (StreamAction β)} 
    (hrun : Run (step K) Admissible { socketFlags := 0 } acts st) : st.Inv :=
  hrun.invariant (fun _ _ _ => step_inv) init_inv

/-! ## Without new data -/

/-- What is left to do for buffers that wait to be appended, and `k` more for each. -/
def work (k : Nat) : List (Buffer β) → Nat
  | [] => 0
  | buf :: bufs => 7 * buf.data.length + k + work k bufs

theorem work_succ (k : Nat) (bufs : List (Buffer β)) :
    work (k + 1) bufs = work k bufs + bufs.length := by
  induction bufs with
  | nil => rfl
  | cons buf bufs ih =>
      rw [work, work, ih, List.length_cons]
      omega

/-- What is left to do: a byte is appended, sent, arrives and is read, and each of that may bring a
report with it. -/
def stepsLeft (st : TcpStream β) : Nat :=
  work 5 st.posted + work 4 st.draining +
    (7 * st.queue.unsent.length + 5 * st.sndBuf.length + 2 * st.rcvBuf.length +
      2 * st.readEdge.toNat + st.reading.toNat + 2 * st.writeEdge.toNat + 3 * st.noSpace.toNat)

theorem Quiet.admissible (h : st.Quiet a) : st.Admissible a := by
  cases a with
  | send buf => exact h.elim
  | writeable spurious env => exact h.1
  | drain | append | wake | transmit | readable | recv | recvAgain => trivial

/-- A report of room that the kernel stands by is spent on bytes, or there are none. -/
theorem writeable_descends {spurious : Bool} {env : SendEnv} (h : st.Inv)
    (hquiet : st.Quiet (.writeable spurious env))
    (hstep : st.step K (.writeable spurious env) = some st') :
    st'.failed = false ∧ st'.given = st.given ∧
      st'.stepsLeft + 1 ≤ st.stepsLeft +
        if (.writeable spurious env : StreamAction β).extra then 4 else 0 := by
  obtain ⟨⟨hok, hreport⟩, heq⟩ := Option.ite_none_right_eq_some.1 hstep
  cases heq
  have hspec := SendQueue.onWriteable_spec false false h.queue hquiet.1 env
  have hends := SendQueue.onWriteable_ends false h.queue hquiet.1 h.left env
  have hgood := hends.clean hquiet.2
  have hlen := congrArg List.length (hspec.conserved hgood)
  rw [List.length_append] at hlen
  refine ⟨decide_eq_false hgood, rfl, ?_⟩
  simp only [stepsLeft, streamed_eq h.toPosted, List.length_append, Bool.toNat_false]
  have hspace : ∀ b : Bool, (st.noSpace || b).toNat ≤ 1 := fun b => Bool.toNat_le _
  have hrefuse := hspace ((st.queue.onWriteable false false env).calls.any fun c => c.ret = -1)
  by_cases hextra : (.writeable spurious env : StreamAction β).extra = true
  · rw [if_pos hextra]
    omega
  · rw [if_neg hextra]
    rw [StreamAction.extra, Bool.not_eq_true, Bool.or_eq_false_iff, Bool.not_eq_false'] at hextra
    rw [hextra.1, if_neg Bool.false_ne_true] at hreport
    rw [hreport, Bool.toNat_true]
    by_cases hnone : st.queue.unsent = []
    · -- `stop_writeable_event` only
      obtain ⟨hsending, hwaiting⟩ := (SendQueue.unsent_eq_nil h.queue h.left).1 hnone
      have hidle : st.queue.onWriteable false false env =
          ⟨{ st.queue with sending := false }, [], env, .stopped⟩ := by
        have hboth : (st.queue.sendBufSending.isEmpty &&
            st.queue.sendBufWaiting.isEmpty) = true := by
          rw [hsending, hwaiting]
          rfl
        rw [SendQueue.onWriteable, if_pos hboth]
      rw [hidle] at hlen ⊢
      simp only [List.any_nil, Bool.or_false, List.flatMap_nil, List.length_nil] at hlen ⊢
      omega
    · have htaken := List.length_pos_iff.2
        (SendQueue.onWriteable_takes false h.queue hquiet.1 h.left hnone hextra.2)
      omega

theorem drain_descends (hstep : st.step K .drain = some st') :
    st'.failed = st.failed ∧ st'.given = st.given ∧ st'.stepsLeft + 1 ≤ st.stepsLeft := by
  obtain ⟨⟨hnone, hsome⟩, heq⟩ := Option.ite_none_right_eq_some.1 hstep
  cases heq
  refine ⟨rfl, rfl, ?_⟩
  have hpos := List.length_pos_iff.2 hsome
  simp only [stepsLeft, hnone, work, work_succ 4]
  omega

theorem append_descends (hok : st.failed = false) (hstep : st.step K .append = some st') :
    st'.failed = false ∧ st'.given = st.given ∧ st'.stepsLeft + 1 ≤ st.stepsLeft := by
  unfold step at hstep
  dsimp only at hstep
  split at hstep
  · cases hstep
  · next buf draining hdraining =>
    rw [if_neg (Bool.eq_false_iff.1 hok)] at hstep
    cases hstep
    refine ⟨hok, rfl, ?_⟩
    have hroom : ∀ r room edge space : Bool,
        2 * (edge || r && room).toNat + 3 * (space || r && !room).toNat ≤
          2 * edge.toNat + 3 * space.toNat + 3 := by decide
    have hreports := hroom (st.queue.append buf).2 (st.sndBuf.length < K.snd) st.writeEdge
      st.noSpace
    simp only [stepsLeft, hdraining, work, SendQueue.unsent_append, List.length_append]
    omega

theorem quiet_descends (h : st.Inv) (hok : st.failed = false) (hquiet : st.Quiet a)
    (hstep : st.step K a = some st') :
    st'.failed = false ∧ st'.given = st.given ∧
      st'.stepsLeft + 1 ≤ st.stepsLeft + if a.extra then 4 else 0 := by
  cases a with
  | send buf => exact hquiet.elim
  | drain =>
      obtain ⟨hsame, hgiven, hless⟩ := drain_descends hstep
      exact ⟨hsame.trans hok, hgiven, hless⟩
  | append => exact append_descends hok hstep
  | writeable spurious env => exact writeable_descends h hquiet hstep
  | wake =>
      obtain ⟨⟨hspace, -⟩, heq⟩ := Option.ite_none_right_eq_some.1 hstep
      cases heq
      refine ⟨hok, rfl, ?_⟩
      have hedge := Bool.toNat_le (st.writeEdge || st.queue.sending)
      simp only [stepsLeft, hspace, Bool.toNat_true, Bool.toNat_false]
      omega
  | transmit k =>
      obtain ⟨⟨hpos, hle, -⟩, heq⟩ := Option.ite_none_right_eq_some.1 hstep
      cases heq
      refine ⟨hok, rfl, ?_⟩
      simp only [stepsLeft, List.length_append, List.length_drop, List.length_take,
        Bool.toNat_true]
      omega
  | readable spurious =>
      obtain ⟨⟨hreading, hreport⟩, heq⟩ := Option.ite_none_right_eq_some.1 hstep
      cases heq
      refine ⟨hok, rfl, ?_⟩
      simp only [stepsLeft, hreading, Bool.toNat_true, Bool.toNat_false]
      cases spurious with
      | true =>
          rw [if_pos (show (StreamAction.readable true : StreamAction β).extra = true from rfl)]
          omega
      | false =>
          rw [hreport.resolve_left Bool.false_ne_true, Bool.toNat_true]
          omega
  | recv k =>
      obtain ⟨⟨-, hpos, -, hle⟩, heq⟩ := Option.ite_none_right_eq_some.1 hstep
      cases heq
      refine ⟨hok, rfl, ?_⟩
      simp only [stepsLeft, List.length_drop]
      omega
  | recvAgain =>
      obtain ⟨⟨hreading, -⟩, heq⟩ := Option.ite_none_right_eq_some.1 hstep
      cases heq
      refine ⟨hok, rfl, ?_⟩
      simp only [stepsLeft, hreading, Bool.toNat_true, Bool.toNat_false]
      omega

/-- Neither the kernel nor one of the sockets has anything to do. -/
def Settled (K : StreamKernel β) (st : TcpStream β) : Prop :=
  ∀ a : StreamAction β, a.Due → st.step K a = none

/-- Full buffers hold nobody up for good: the reader empties its own, which makes room for what
the sender's holds, and so on to the queue. -/
theorem Settled.all_received (hsettled : st.Settled K) (h : st.Inv) (hok : st.failed = false) :
    st.received = st.inTurn.flatMap Buffer.data ∧ st.batches.flatten = st.given ∧
      st.queue.sending = false ∧ st.reading = false := by
  have hno : ∀ {c : Prop} [Decidable c] {t : TcpStream β},
      (if c then some t else none) = none → ¬ c := fun hnone hc => by
    rw [if_pos hc] at hnone
    cases hnone
  have hreading : st.reading = false := by
    have hagain := hno (hsettled .recvAgain trivial)
    have hrecv := hno (hsettled (.recv 1) trivial)
    rw [← Bool.not_eq_true]
    intro hreading
    cases hrcv : st.rcvBuf with
    | nil => exact hagain ⟨hreading, hrcv⟩
    | cons b bs =>
        refine hrecv ⟨hreading, Nat.one_pos, by decide, ?_⟩
        rw [hrcv]
        exact Nat.le_add_left 1 _
  have hreport := hno (hsettled (.readable false) rfl)
  have hread : st.rcvBuf = [] := by
    refine Classical.byContradiction fun hne => ?_
    rcases h.signalled hne with hedge | hin
    · exact hreport ⟨hreading, .inr hedge⟩
    · rw [hreading] at hin
      cases hin
  have hsnd : st.sndBuf = [] := by
    have harrive := hno (hsettled (.transmit 1) trivial)
    refine Classical.byContradiction fun hne => harrive ⟨Nat.one_pos, ?_, ?_⟩
    · exact List.length_pos_iff.2 hne
    · rw [hread]
      exact K.rcv_pos
  have hidle : st.queue.sending = false := by
    have hwake := hno (hsettled .wake trivial)
    have hwrite := hno (hsettled (.writeable false {}) rfl)
    rw [← Bool.not_eq_true]
    intro hsending
    rcases h.armed hok hsending with hedge | hspace
    · exact hwrite ⟨hok, hedge⟩
    · refine hwake ⟨hspace, ?_⟩
      rw [hsnd]
      exact K.snd_pos
  have hdraining : st.draining = [] := by
    have hnone := hsettled .append trivial
    unfold step at hnone
    dsimp only at hnone
    split at hnone
    · assumption
    · split at hnone <;> cases hnone
  have hposted : st.posted = [] := by
    have hnone := hno (hsettled .drain trivial)
    exact Classical.byContradiction fun hsome => hnone ⟨hdraining, hsome⟩
  refine ⟨?_, ?_, hidle, hreading⟩
  · have hconserved := h.conserved hok
    have hdrained := h.drained hok
    rw [accepted, hread, hsnd, h.idle hok hidle, List.append_nil, List.append_nil,
      List.append_nil] at hconserved
    rw [hdraining, List.append_nil] at hdrained
    rw [hconserved, queued, hdrained]
  · have hgiven := h.given
    rwa [hposted, List.reverse_nil, List.append_nil] at hgiven

/-! ## The stream -/

variable {acts more : List (StreamAction β)}

theorem Posted.inTurn_eq (h : st.Posted) (halone : ∀ batch ∈ st.batches, batch.length ≤ 1) :
    st.inTurn ++ st.posted.reverse = st.given := by
  have hone : ∀ batch ∈ st.batches, batch.reverse = batch := by
    intro batch hbatch
    have hlength := halone batch hbatch
    match batch with
    | [] => rfl
    | [buf] => rfl
    | _ :: _ :: _ => exact absurd hlength (by simp)
  rw [inTurn, List.flatMap_congr hone, List.flatMap_id']
  exact h.given

/-- In every run the reader has got the first of the bytes that the tasks of `Socket::send` have
appended, in pieces that fit its buffer, and if no two calls fell between two drains, the first of
the bytes given to `Socket::send`; as long as there is no hard send error, the rest is on the
way. -/
theorem received_in_order {flags : Int} (hflags : flags = 0)
    (hrun : Run (step K) Admissible { socketFlags := flags } acts st) :
    st.received <+: st.queued ∧ st.appended <+: st.inTurn ∧
      ((∀ batch ∈ st.batches, batch.length ≤ 1) →
        st.received <+: st.given.flatMap Buffer.data) ∧
      (∀ c ∈ st.delivered, c ≠ [] ∧ c.length ≤ capacity) ∧
      (st.failed = false →
        st.received ++ st.rcvBuf ++ st.sndBuf ++ st.queue.unsent ++
          st.draining.flatMap Buffer.data = st.inTurn.flatMap Buffer.data) := by
  subst hflags
  have h := run_inv hrun
  have hfirst : st.received <+: st.queued := by
    refine List.IsPrefix.trans ?_ h.in_order
    rw [accepted, List.append_assoc]
    exact List.prefix_append _ _
  refine ⟨hfirst, h.turn, fun halone => hfirst.trans ?_, h.chunks, fun hok => ?_⟩
  · have hturn := h.toPosted.inTurn_eq halone
    have hprefix : st.appended <+: st.given :=
      hturn ▸ h.turn.trans (List.prefix_append _ _)
    obtain ⟨rest, hrest⟩ := hprefix
    rw [queued, ← hrest, List.flatMap_append]
    exact List.prefix_append _ _
  · have hconserved := h.conserved hok
    have hdrained := h.drained hok
    rw [accepted] at hconserved
    rw [hconserved, queued, ← hdrained, List.flatMap_append]

/-- A kernel that lets nothing through with flags. -/
def smallKernel : StreamKernel UInt8 where
  snd := 2
  rcv := 4
  snd_pos := by decide
  rcv_pos := by decide
  stream := fun flags bytes => if flags = 0 then bytes else []
  stream_zero := fun _ => rfl

/-- Three bytes, of which the kernel has taken two and the reader has got one. -/
theorem received_in_order_partial :
    ∃ st : TcpStream UInt8,
      Run (step smallKernel) Admissible { socketFlags := 0 }
        [.send (.raw [1, 2, 3]), .drain, .append, .writeable false ⟨[.ok 2], 0⟩, .transmit 2,
          .readable false, .recv 1] st ∧
      st.received = [1] ∧ st.received <+: st.given.flatMap Buffer.data ∧
      st.received ++ st.rcvBuf ++ st.sndBuf ++ st.queue.unsent ++
        st.draining.flatMap Buffer.data = [1, 2, 3] := by
  have hrun : Run (step smallKernel) Admissible ({ socketFlags := 0 } : TcpStream UInt8)
      [.send (.raw [1, 2, 3]), .drain, .append, .writeable false ⟨[.ok 2], 0⟩, .transmit 2,
        .readable false, .recv 1] _ :=
    .cons trivial rfl (.cons trivial rfl (.cons trivial rfl (.cons (by decide : 3 < 2 ^ 31) rfl
      (.cons trivial rfl (.cons trivial rfl (.cons trivial rfl (.nil _)))))))
  obtain ⟨-, -, hfirst, -, hrest⟩ := received_in_order rfl hrun
  refine ⟨_, hrun, rfl, hfirst fun batch hbatch => ?_, hrest rfl⟩
  rw [List.mem_singleton.1 hbatch]
  exact Nat.le_refl 1

/-- When nobody sends anything more, a bounded number of steps is left, but for needless
reports, and where nothing more can happen the reader has got all bytes, in the order in which the
tasks were run. -/
theorem sent_is_received {flags : Int} (hflags : flags = 0)
    (hrun : Run (step K) Admissible { socketFlags := flags } acts st) (hok : st.failed = false)
    (hquiet : Run (step K) Quiet st more st') :
    more.length ≤ st.stepsLeft + 4 * more.countP StreamAction.extra ∧
      (st'.Settled K →
        st'.received = st'.inTurn.flatMap Buffer.data ∧ st'.batches.flatten = st.given ∧
        ((∀ batch ∈ st'.batches, batch.length ≤ 1) →
          st'.received = st.given.flatMap Buffer.data) ∧
        st'.queue.sending = false ∧ st'.reading = false) := by
  subst hflags
  have hstart : st.Inv ∧ st.failed = false ∧ st.given = st.given := ⟨run_inv hrun, hok, rfl⟩
  have hkeep : ∀ (s : TcpStream β) a t, (s.Inv ∧ s.failed = false ∧ s.given = st.given) →
      s.Quiet a → s.step K a = some t →
        (t.Inv ∧ t.failed = false ∧ t.given = st.given) ∧
          t.stepsLeft + 1 ≤ s.stepsLeft + if a.extra then 4 else 0 := by
    rintro s a t ⟨hinv, hgood, hsame⟩ hq hstep
    obtain ⟨hgood', hsame', hless⟩ := quiet_descends hinv hgood hq hstep
    exact ⟨⟨step_inv hinv hq.admissible hstep, hgood', hsame'.trans hsame⟩, hless⟩
  have hbound := hquiet.length_le hkeep hstart
  obtain ⟨hinv, hgood, hsame⟩ := hquiet.invariant (fun s a t hs hq hstep =>
    (hkeep s a t hs hq hstep).1) hstart
  refine ⟨by omega, fun hsettled => ?_⟩
  obtain ⟨hall, hbatches, hidle, hreading⟩ := hsettled.all_received hinv hgood
  refine ⟨hall, hbatches.trans hsame, fun halone => ?_, hidle, hreading⟩
  have hturn := hinv.toPosted.inTurn_eq halone
  have hgiven := hinv.given
  rw [hbatches, List.append_right_eq_self, List.reverse_eq_nil_iff] at hgiven
  rw [hgiven, List.reverse_nil, List.append_nil] at hturn
  rw [hall, hturn, hsame]

/-- Three bytes are appended. -/
def oneSend : TcpStream UInt8 where
  socketFlags := 0
  queue := { sendBufWaiting := [.raw [1, 2, 3]] }
  given := [.raw [1, 2, 3]]
  batches := [[.raw [1, 2, 3]]]
  appended := [.raw [1, 2, 3]]

/-- The bytes are sent, arrive and are read. -/
theorem sent_is_received_once :
    ∃ st : TcpStream UInt8,
      Run (step smallKernel) Quiet oneSend
        [.writeable false ⟨[.ok 3], 0⟩, .transmit 3, .readable false, .recv 3, .recvAgain] st ∧
      st.received = [1, 2, 3] := by
  have hrun : Run (step smallKernel) Admissible ({ socketFlags := 0 } : TcpStream UInt8)
      [.send (.raw [1, 2, 3]), .drain, .append] oneSend :=
    .cons trivial rfl (.cons trivial rfl (.cons trivial rfl (.nil _)))
  have hclean : SendEnv.Clean ⟨[.ok 3], 0⟩ := fun a ha => by
    rw [List.mem_singleton.1 ha]
    trivial
  obtain ⟨st', hquiet, hposted, hwrite, hspace, hsnd, hread, hbatches⟩ : ∃ st' : TcpStream UInt8,
      Run (step smallKernel) Quiet oneSend
        [.writeable false ⟨[.ok 3], 0⟩, .transmit 3, .readable false, .recv 3, .recvAgain] st' ∧
      (st'.posted = [] ∧ st'.draining = []) ∧ st'.writeEdge = false ∧ st'.noSpace = false ∧
      st'.sndBuf = [] ∧ (st'.readEdge = false ∧ st'.reading = false) ∧
      st'.batches = [[.raw [1, 2, 3]]] :=
    ⟨_, .cons ⟨(by decide : 3 < 2 ^ 31), hclean⟩ rfl (.cons trivial rfl (.cons trivial rfl
      (.cons trivial rfl (.cons trivial rfl (.nil _))))), ⟨rfl, rfl⟩, rfl, rfl, rfl, ⟨rfl, rfl⟩,
      rfl⟩
  obtain ⟨-, hsettled⟩ := sent_is_received rfl hrun rfl hquiet
  obtain ⟨-, -, hall, -⟩ := hsettled fun a ha => by
    cases a with
    | send buf => exact ha.elim
    | writeable spurious env =>
        obtain rfl : spurious = false := ha
        simp [step, hwrite]
    | readable spurious =>
        obtain rfl : spurious = false := ha
        simp [step, hread.1]
    | drain => simp [step, hposted.1]
    | append => simp [step, hposted.2]
    | wake => simp [step, hspace]
    | transmit k =>
        simp only [step, hsnd, List.length_nil]
        exact if_neg fun ⟨hpos, hle, _⟩ => absurd hpos (Nat.not_lt.2 hle)
    | recv k => simp [step, hread.2]
    | recvAgain => simp [step, hread.2]
  refine ⟨st', hquiet, hall fun batch hbatch => ?_⟩
  rw [hbatches] at hbatch
  rw [List.mem_singleton.1 hbatch]
  exact Nat.le_refl 1

/-! ## The loop of `on_read` -/

theorem onRead_pieces {i : SockId} {s : SfdId} {w : World} {pieces : List (List UInt8)}
    (hpieces : ∀ c ∈ pieces, c ≠ [] ∧ c.length ≤ capacity) :
    (World.onRead i s false capacity w (pieces.map fun c => .data c {})).how = .drained ∧
      (World.onRead i s false capacity w (pieces.map fun c => .data c {})).delivered =
        pieces := by
  induction pieces generalizing w with
  | nil => exact ⟨rfl, rfl⟩
  | cons c pieces ih =>
      obtain ⟨hne, hle⟩ := hpieces c List.mem_cons_self
      have hrest := fun b hb => hpieces b (List.mem_cons_of_mem _ hb)
      have htake : c.take capacity = c := List.take_of_length_le hle
      obtain ⟨hhow, hdelivered⟩ := ih (w := (w.log (.read i s c)).execOps []) hrest
      rw [List.map_cons, World.onRead, htake, if_neg hne]
      exact ⟨hhow, congrArg (c :: ·) hdelivered⟩

/-- What a run delivers is what `on_read` delivers for the answers that `recvfrom` gives in it. -/
theorem received_by_onRead {K : StreamKernel UInt8} {st : TcpStream UInt8}
    {acts : List (StreamAction UInt8)}
    (hrun : Run (step K) Admissible { socketFlags := 0 } acts st) (i : SockId)
    (s : SfdId) (w : World) :
    (World.onRead i s false capacity w (st.delivered.map fun c => .data c {})).delivered =
      st.delivered :=
  (onRead_pieces (run_inv hrun).chunks).2

end TcpStream

end CommonLibrary.Net
