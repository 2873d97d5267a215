import CommonLibrary.Net.BufferStream
import CommonLibrary.Net.WriteInterest

/-!
# The flushed callback

`on_flushed` is called at one place: by a `flush_data` that was entered with something
queued and has found both queues empty.  What is queued is never empty, so between two
calls `sendmsg` has taken something over.
-/

namespace CommonLibrary.Net

open Foundation Poller

variable {β : Type}

namespace BufferList

theorem rest_ne_nil {bl : BufferList β} (h : bl.Inv) (hne : bl.empty = false) : bl.rest ≠ [] := by
  have hlt : bl.iovecOff < bl.iovec.length :=
    Nat.lt_of_le_of_ne h.off_le (by simpa [empty] using hne)
  intro hnil
  have hv := h.wf bl.iovec[bl.iovecOff] (List.mem_drop_iff_getElem.2 ⟨0, by omega, rfl⟩)
  have hbytes := Iovec.length_bytes hv.inside
  have hempty : bl.iovec[bl.iovecOff].bytes = [] :=
    List.flatMap_eq_nil_iff.1 hnil _ (List.mem_drop_iff_getElem.2 ⟨0, by omega, rfl⟩)
  rw [hempty] at hbytes
  exact absurd hv.pos (by simp [← hbytes])

theorem send_rest_of_failed {bl : BufferList β} (h : bl.Inv) (udp : Bool) (env : SendEnv)
    (hret : ¬ (bl.send udp env).ret > 0) : (bl.send udp env).list.rest = bl.rest := by
  have hnone : (bl.send udp env).calls.flatMap Sent.accepted = [] := by
    by_contra hsome
    have hpos := List.length_pos_iff.2 hsome
    rw [send_ret h env, if_neg hsome] at hret
    omega
  have hrest := (send_spec h udp env).2
  rw [hnone, List.nil_append] at hrest
  exact hrest

end BufferList

namespace SendQueue

variable {q : SendQueue β}

def Empty (q : SendQueue β) : Prop := q.sendBufSending = [] ∧ q.sendBufWaiting = []

/-- What is queued for sending has bytes left. -/
structure Full (q : SendQueue β) : Prop where
  inv : q.Inv
  sending : ∀ bl ∈ q.sendBufSending, bl.rest ≠ []

theorem isEmpty_iff : (q.sendBufSending.isEmpty && q.sendBufWaiting.isEmpty) = true ↔ q.Empty := by
  rw [Bool.and_eq_true, List.isEmpty_iff, List.isEmpty_iff]
  exact Iff.rfl

theorem Full.unsent_ne (h : q.Full) (hne : ¬ q.Empty) : q.unsent ≠ [] := by
  intro hnil
  obtain ⟨hsending, hwaiting⟩ := List.append_eq_nil_iff.1 hnil
  refine hne ⟨?_, ?_⟩
  · refine List.eq_nil_iff_forall_not_mem.2 fun bl hbl => h.sending bl hbl ?_
    exact List.flatMap_eq_nil_iff.1 hsending bl hbl
  · refine List.eq_nil_iff_forall_not_mem.2 fun b hb => h.inv.waiting b hb ?_
    exact List.flatMap_eq_nil_iff.1 hwaiting b hb

theorem append_full (h : q.Full) {buf : Buffer β} (hne : buf.data ≠ []) :
    (q.append buf).1.Full :=
  ⟨append_inv h.inv hne, h.sending⟩

theorem pump_rest (udp : Bool) {tmp : List (BufferList β)}
    (h : ∀ bl ∈ tmp, bl.Inv ∧ bl.rest ≠ []) (env : SendEnv) :
    ∀ bl ∈ (pump udp tmp env).tmp, bl.rest ≠ [] := by
  induction tmp generalizing env with
  | nil => simp [pump]
  | cons pkt tmp ih =>
      obtain ⟨hpkt, hne⟩ := h pkt List.mem_cons_self
      have htmp : ∀ bl ∈ tmp, bl.Inv ∧ bl.rest ≠ [] :=
        fun bl hbl => h bl (List.mem_cons_of_mem _ hbl)
      have hkept : (pkt.send udp env).list.rest ≠ [] →
          ∀ bl ∈ (pkt.send udp env).list :: tmp, bl.rest ≠ [] := by
        intro hhead
        exact List.forall_mem_cons.2 ⟨hhead, fun bl hbl => (htmp bl hbl).2⟩
      rw [pump]
      dsimp only
      split
      · split
        · exact ih htmp _
        · next hmore =>
          exact hkept (BufferList.rest_ne_nil (BufferList.send_spec hpkt udp env).1
            (Bool.eq_false_of_not_eq_true hmore))
      · next hret =>
        refine hkept ?_
        rw [BufferList.send_rest_of_failed hpkt udp env hret]
        exact hne

theorem toSend_rest_ne (h : q.Full) (hsmall : q.Small) (hne : ¬ q.Empty) :
    ∀ bl ∈ q.toSend, bl.Inv ∧ bl.rest ≠ [] := by
  intro bl hbl
  refine ⟨toSend_inv h.inv hsmall bl hbl, ?_⟩
  unfold toSend at hbl
  split at hbl
  · next hsending =>
    rw [List.mem_singleton.1 hbl, BufferList.rest_ofList]
    have hunsent := h.unsent_ne hne
    unfold unsent at hunsent
    rw [List.isEmpty_iff.1 hsending] at hunsent
    exact hunsent
  · exact h.sending bl hbl

/-- Unless `flush_data` calls `on_flushed` or `on_error`, it leaves something queued. -/
theorem flushData_leaves {isClose : Bool} (udp : Bool) (fuel : Nat) (h : q.Full)
    (hsmall : q.Small) {env : SendEnv} {r : FlushResult β}
    (hr : flushData isClose udp fuel q env = some r) :
    r.queue.Full ∧ (r.how ≠ .flushed → r.how ≠ .failed →
      isClose = true ∧ r.queue = q ∨ r.queue.sendBufSending ≠ []) := by
  induction fuel generalizing q env r with
  | zero => cases hr
  | succ fuel ih =>
      have hwait : ∀ b ∈ q.stillWaiting, b.data ≠ [] :=
        fun b hb => h.inv.waiting b (stillWaiting_subset q b hb)
      rw [flushData] at hr
      split at hr
      · next hclosed =>
        cases hr
        exact ⟨h, fun _ _ => .inl ⟨hclosed, rfl⟩⟩
      next hopen =>
      split at hr
      · cases hr
        exact ⟨⟨⟨h.inv.sending, h.inv.waiting⟩, h.sending⟩, fun hne => absurd rfl hne⟩
      next hidle =>
      have hsend := toSend_rest_ne h hsmall (fun hempty => hidle (isEmpty_iff.2 hempty))
      have hinv := (pump_spec udp (toSend_inv h.inv hsmall) env).1
      have hrest := pump_rest udp hsend env
      dsimp only at hr
      split at hr
      · cases hr
        exact ⟨⟨⟨by simp, hwait⟩, by simp⟩, fun _ hne => absurd rfl hne⟩
      split at hr
      · next hmore =>
        cases hr
        exact ⟨⟨⟨hinv, hwait⟩, hrest⟩, fun _ _ => .inr (by simpa using hmore)⟩
      · obtain ⟨r', hr', rfl⟩ := Option.map_eq_some_iff.1 hr
        obtain ⟨hfull, hmore⟩ := ih (q := { q with
            sendBufSending := [], sendBufWaiting := q.stillWaiting })
          ⟨⟨by simp, hwait⟩, by simp⟩ (stillWaiting_small hsmall) hr'
        exact ⟨hfull, fun hflushed hfailed =>
          .inr ((hmore hflushed hfailed).resolve_left fun hclosed => hopen hclosed.1)⟩

theorem onWriteable_flushed_iff (isClose udp : Bool) (h : q.Full) (hsmall : q.Small)
    (env : SendEnv) :
    (q.onWriteable isClose udp env).queue.Full ∧
      ((q.onWriteable isClose udp env).how = .flushed ↔
        ¬ q.Empty ∧ (q.onWriteable isClose udp env).queue.Empty ∧
          (q.onWriteable isClose udp env).how ≠ .failed) := by
  have hend := onWriteable_end q isClose udp env
  unfold onWriteable at hend ⊢
  split
  · next hidle =>
    exact ⟨⟨⟨h.inv.sending, h.inv.waiting⟩, h.sending⟩,
      iff_of_false (by simp) fun hno => hno.1 (isEmpty_iff.1 hidle)⟩
  · next hidle =>
    rw [if_neg hidle] at hend
    have hne : ¬ q.Empty := fun hempty => hidle (isEmpty_iff.2 hempty)
    obtain ⟨hfull, hmore⟩ := flushData_leaves udp 3 h hsmall
      (flushData_eq_flush q isClose udp env le_rfl)
    refine ⟨hfull, fun hflushed => ⟨hne, hend.drained (.inr hflushed), ?_⟩, ?_⟩
    · rw [hflushed]
      exact fun hno => by cases hno
    · rintro ⟨-, hempty, hfailed⟩
      by_contra hflushed
      rcases hmore hflushed hfailed with ⟨-, hsame⟩ | hsending
      · rw [hsame] at hempty
        exact hne hempty
      · exact hsending hempty.1

theorem flushData_stops {isClose udp : Bool} {fuel : Nat} {env : SendEnv} {r : FlushResult β}
    (hr : flushData isClose udp fuel q env = some r) :
    r.how ≠ .stopped ∧ (r.how = .flushed → r.queue.sending = false) := by
  induction fuel generalizing q env r with
  | zero => cases hr
  | succ fuel ih =>
      rw [flushData] at hr
      split at hr
      · cases hr
        simp
      split at hr
      · cases hr
        simp
      dsimp only at hr
      split at hr
      · cases hr
        simp
      split at hr
      · cases hr
        simp
      · obtain ⟨r', hr', rfl⟩ := Option.map_eq_some_iff.1 hr
        have hstops := ih hr'
        exact hstops

theorem onWriteable_sending (q : SendQueue β) (isClose udp : Bool) (env : SendEnv)
    (hhow : (q.onWriteable isClose udp env).how = .stopped ∨
      (q.onWriteable isClose udp env).how = .flushed) :
    (q.onWriteable isClose udp env).queue.sending = false := by
  unfold onWriteable at hhow ⊢
  split
  · rfl
  · next hidle =>
    rw [if_neg hidle] at hhow
    obtain ⟨hnot, hflushed⟩ := flushData_stops (flushData_eq_flush q isClose udp env le_rfl)
    exact hflushed (hhow.resolve_left hnot)

theorem onWriteable_sent (isClose udp : Bool) (h : q.Full) (hsmall : q.Small) (env : SendEnv)
    (hflushed : (q.onWriteable isClose udp env).how = .flushed) :
    (q.onWriteable isClose udp env).calls.flatMap Sent.accepted = q.unsent := by
  have hspec := onWriteable_spec isClose udp h.inv hsmall env
  obtain ⟨hsending, hwaiting⟩ := (onWriteable_end q isClose udp env).drained (.inr hflushed)
  have hcons := hspec.conserved (by rw [hflushed]; exact fun hno => by cases hno)
  unfold unsent at hcons
  rw [hsending, hwaiting] at hcons
  simpa [unsent] using hcons

end SendQueue

/-! ## Runs on one connection -/

/-- One connection from the time its queues are empty. -/
structure Connection (β : Type) where
  side : SendSide β := {}
  /-- the events that its descriptor is watched for -/
  interest : Nat
  /-- it is `sockfd_` -/
  isOpen : Bool := true
  /-- history: what `side` and `interest` were when `flushed_cb_` was called -/
  flushed : List (SendSide β × Nat) := []

inductive ConnectionAction (β : Type) where
  /-- the poller task of `Socket::send` runs -/
  | append (buf : Buffer β)
  /-- `on_writeable` is called; `closes`: if it calls `flushed_cb_`, that calls `Close` -/
  | writeable (isClose : Bool) (env : SendEnv) (closes : Bool)
  /-- `Close` is called elsewhere -/
  | close

namespace Connection

def startWriteableEvent : Nat := toEpoll (World.recvEvent ||| PE_ERROR ||| PE_WRITE)

def stopWriteableEvent : Nat := toEpoll (World.recvEvent ||| PE_ERROR)

theorem stopWriteableEvent_has : has stopWriteableEvent EPOLLOUT = false := by decide

/-- What `on_writeable` does besides sending; `side` is what the sending leaves. -/
def written (c : Connection β) (side : SendSide β) (how : FlushEnd) (closes : Bool) :
    Connection β :=
  match how with
  | .stopped => { c with side := side, interest := stopWriteableEvent }
  | .flushed => { c with
      side := side
      interest := stopWriteableEvent
      isOpen := !closes
      flushed := c.flushed ++ [(side, stopWriteableEvent)] }
  | .failed => { c with side := side, isOpen := false }
  | _ => { c with side := side }

theorem written_side (c : Connection β) (side : SendSide β) (how : FlushEnd) (closes : Bool) :
    (c.written side how closes).side = side := by
  cases how <;> rfl

theorem written_interest (c : Connection β) (side : SendSide β) (how : FlushEnd)
    (closes : Bool) : (c.written side how closes).interest =
      if how = .stopped ∨ how = .flushed then stopWriteableEvent else c.interest := by
  cases how <;> simp [written]

theorem written_flushed (c : Connection β) (side : SendSide β) (how : FlushEnd)
    (closes : Bool) : (c.written side how closes).flushed =
      c.flushed ++ if how = .flushed then [(side, stopWriteableEvent)] else [] := by
  cases how <;> simp [written]

/-- A `Send` of `flushed_cb_` is a later `append`. -/
def step (udp : Bool) (c : Connection β) : ConnectionAction β → Option (Connection β)
  | .append buf =>
      if c.isOpen then
        (c.side.step udp (.append buf)).map fun side => { c with
          side := side
          interest := if (c.side.queue.append buf).2 then startWriteableEvent else c.interest }
      else none
  | .writeable isClose env closes =>
      if c.isOpen then
        (c.side.step udp (.writeable isClose env)).map fun side =>
          c.written side (c.side.queue.onWriteable isClose udp env).how closes
      else none
  | .close => some { c with isOpen := false }

/-- `Socket::send` appends no empty buffer, and no `BufferList` gets 2 GiB or more. -/
def Admissible (c : Connection β) : ConnectionAction β → Prop
  | .append buf => c.side.Admissible (.append buf)
  | .writeable isClose env _ => c.side.Admissible (.writeable isClose env)
  | .close => True

/-- A connection of a socket whose queues are empty; `sending_` and the interest are as the last
connection and `attach_event` have left them. -/
def start (sending : Bool) (interest : Nat) : Connection β where
  side := { queue := { sending := sending } }
  interest := interest

/-- What `flushed_cb_` finds: everything appended is accepted, nothing is queued, and the write
interest is gone. -/
structure Told (p : SendSide β × Nat) : Prop where
  accepted : p.1.accepted = p.1.appended.flatMap Buffer.data
  empty : p.1.queue.Empty
  interest : has p.2 EPOLLOUT = false

/-- `sendmsg` has taken bytes over from `p` to `p'`. -/
def Later (p p' : SendSide β × Nat) : Prop :=
  ∃ bytes, bytes ≠ [] ∧ p'.1.accepted = p.1.accepted ++ bytes

structure Inv (c : Connection β) : Prop where
  side : c.side.Inv
  full : c.side.queue.Full
  ok : c.isOpen = true → c.side.failed = false
  told : ∀ p ∈ c.flushed, Told p
  earlier : ∀ p ∈ c.flushed, p.1.accepted <+: c.side.accepted
  increasing : c.flushed.Pairwise Later

theorem start_inv (sending : Bool) (interest : Nat) :
    (start sending interest : Connection β).Inv where
  side := ⟨⟨by simp [start], by simp [start]⟩, fun _ => rfl⟩
  full := ⟨⟨by simp [start], by simp [start]⟩, by simp [start]⟩
  ok := fun _ => rfl
  told := by simp [start]
  earlier := by simp [start]
  increasing := List.Pairwise.nil

variable {udp : Bool} {c c' : Connection β}

theorem Inv.of_same (h : c.Inv) {side : SendSide β} (hside : side.Inv) (hfull : side.queue.Full)
    (hgrow : c.side.accepted <+: side.accepted) {interest : Nat} {isOpen : Bool}
    (hok : isOpen = true → side.failed = false) : Inv ⟨side, interest, isOpen, c.flushed⟩ where
  side := hside
  full := hfull
  ok := hok
  told := h.told
  earlier := fun p hp => (h.earlier p hp).trans hgrow
  increasing := h.increasing

def Drained (c c' : Connection β) : Prop :=
  ¬ c.side.queue.Empty ∧ c'.side.queue.Empty ∧ c'.side.failed = false

theorem written_spec (h : c.Inv) (hopen : c.isOpen = true) {isClose : Bool} {env : SendEnv}
    (closes : Bool) (hsmall : c.side.queue.Small) {side : SendSide β}
    (hside : c.side.step udp (.writeable isClose env) = some side) :
    let c' := c.written side (c.side.queue.onWriteable isClose udp env).how closes
    c'.Inv ∧ (Drained c c' → c'.flushed = c.flushed ++ [(c'.side, c'.interest)]) ∧
      (¬ Drained c c' → c'.flushed = c.flushed) := by
  have hinv := SendSide.step_inv (a := .writeable isClose env) h.side hsmall hside
  obtain ⟨hfull, hiff⟩ := SendQueue.onWriteable_flushed_iff isClose udp h.full hsmall env
  have hsent := SendQueue.onWriteable_sent isClose udp h.full hsmall env
  have hok := h.ok hopen
  have hqueue : side.queue = (c.side.queue.onWriteable isClose udp env).queue := by
    cases hside
    rfl
  have haccepted : side.accepted = c.side.accepted ++
      (c.side.queue.onWriteable isClose udp env).calls.flatMap Sent.accepted := by
    cases hside
    rfl
  have hfailed :
      side.failed = decide ((c.side.queue.onWriteable isClose udp env).how = .failed) := by
    cases hside
    show (c.side.failed || _) = _
    rw [hok, Bool.false_or]
  rw [← hqueue] at hfull hiff
  generalize (c.side.queue.onWriteable isClose udp env).how = how at *
  have hgrow : c.side.accepted <+: side.accepted := ⟨_, haccepted.symm⟩
  have hdrained : ∀ interest isOpen flushed, how ≠ .flushed →
      ¬ Drained c ⟨side, interest, isOpen, flushed⟩ := by
    rintro interest isOpen flushed hne ⟨hsome, hempty, hno⟩
    refine hne (hiff.2 ⟨hsome, hempty, fun hhow => ?_⟩)
    rw [hhow] at hfailed
    rw [hfailed] at hno
    cases hno
  have hquiet : ∀ interest isOpen, how ≠ .flushed → (isOpen = true → side.failed = false) →
      Inv ⟨side, interest, isOpen, c.flushed⟩ ∧
        (Drained c ⟨side, interest, isOpen, c.flushed⟩ → c.flushed = c.flushed ++
          [(side, interest)]) ∧
        (¬ Drained c ⟨side, interest, isOpen, c.flushed⟩ → c.flushed = c.flushed) :=
    fun interest isOpen hne hok' => ⟨h.of_same hinv hfull hgrow hok',
      fun hyes => absurd hyes (hdrained _ _ _ hne), fun _ => rfl⟩
  cases how with
  | closed => exact hquiet _ _ (by simp) fun _ => hfailed
  | stopped => exact hquiet _ _ (by simp) fun _ => hfailed
  | blocked => exact hquiet _ _ (by simp) fun _ => hfailed
  | failed => exact hquiet _ _ (by simp) fun hno => by cases hno
  | flushed =>
      obtain ⟨hsome, hempty, -⟩ := hiff.1 rfl
      rw [hsent rfl] at haccepted
      have htold : Told (side, stopWriteableEvent) := by
        refine ⟨?_, hempty, stopWriteableEvent_has⟩
        have hall := hinv.conserved (hfailed.trans (by simp))
        unfold SendQueue.unsent at hall
        rw [hempty.1, hempty.2] at hall
        simpa using hall
      have hnew : ∀ p ∈ c.flushed, Later p (side, stopWriteableEvent) := by
        intro p hp
        obtain ⟨since, hsince⟩ := h.earlier p hp
        refine ⟨since ++ c.side.queue.unsent, fun hnil => ?_, ?_⟩
        · exact h.full.unsent_ne hsome (List.append_eq_nil_iff.1 hnil).2
        · rw [← List.append_assoc, hsince]
          exact haccepted
      refine ⟨⟨hinv, hfull, fun _ => hfailed, ?_, ?_, ?_⟩, fun _ => rfl, fun hno => ?_⟩
      · intro p hp
        rcases List.mem_append.1 hp with hold | hlast
        · exact h.told p hold
        · rw [List.mem_singleton.1 hlast]
          exact htold
      · intro p hp
        rcases List.mem_append.1 hp with hold | hlast
        · exact (h.earlier p hold).trans hgrow
        · rw [List.mem_singleton.1 hlast]
          exact List.prefix_refl _
      · refine List.pairwise_append.2 ⟨h.increasing, List.pairwise_singleton _ _, ?_⟩
        intro p hp p' hp'
        rw [List.mem_singleton.1 hp']
        exact hnew p hp
      · exact absurd ⟨hsome, hempty, hfailed⟩ hno

theorem step_spec {a : ConnectionAction β} (h : c.Inv) (hadm : c.Admissible a)
    (hstep : c.step udp a = some c') :
    c'.Inv ∧ (Drained c c' → c'.flushed = c.flushed ++ [(c'.side, c'.interest)]) ∧
      (¬ Drained c c' → c'.flushed = c.flushed) := by
  cases a with
  | append buf =>
      rw [step] at hstep
      split at hstep
      · cases hstep
        have happend : c.side.step udp (.append buf) = some _ := rfl
        have hside := SendSide.step_inv (a := .append buf) h.side hadm happend
        refine ⟨h.of_same hside (SendQueue.append_full h.full hadm) (List.prefix_refl _) h.ok,
          fun hyes => ?_, fun _ => rfl⟩
        have hnil := hyes.2.1.2
        exact absurd hnil (by simp [SendQueue.append])
      · cases hstep
  | writeable isClose env closes =>
      rw [step] at hstep
      split at hstep
      · next hopen =>
        obtain ⟨side, hside, rfl⟩ := Option.map_eq_some_iff.1 hstep
        exact written_spec h hopen closes hadm hside
      · cases hstep
  | close =>
      cases hstep
      exact ⟨h.of_same h.side h.full (List.prefix_refl _) (fun hno => by cases hno),
        fun hyes => absurd hyes.2.1 hyes.1, fun _ => rfl⟩

theorem run_inv {sending : Bool} {interest : Nat} {acts : List (ConnectionAction β)}
    (hrun : Run (step udp) Admissible (start sending interest) acts c) : c.Inv :=
  hrun.invariant (fun _ _ _ h hadm hstep => (step_spec h hadm hstep).1) (start_inv _ _)

/-- In every run on one connection, `flushed_cb_` is called when everything appended has been
accepted, nothing is queued and the write interest is gone; between two calls `sendmsg` has
accepted something; and a step calls it once if it empties the queues without an error, and
otherwise not. -/
theorem flushed_means_flushed {sending : Bool} {interest : Nat}
    {acts : List (ConnectionAction β)}
    (hrun : Run (step udp) Admissible (start sending interest) acts c) :
    (∀ p ∈ c.flushed, Told p) ∧ c.flushed.Pairwise Later ∧
      ∀ a c', c.Admissible a → c.step udp a = some c' →
        (Drained c c' → c'.flushed = c.flushed ++ [(c'.side, c'.interest)]) ∧
          (¬ Drained c c' → c'.flushed = c.flushed) :=
  have h := run_inv hrun
  ⟨h.told, h.increasing, fun _ _ hadm hstep => (step_spec h hadm hstep).2⟩

/-- Two bytes are sent at once. -/
theorem flushed_means_flushed_once :
    ∃ c : Connection UInt8,
      Run (step false) Admissible (start true startWriteableEvent)
        [.append (.raw [1, 2]), .writeable false ⟨[.ok 2], 0⟩ false] c ∧
      c.flushed.map (fun p => p.1.accepted) = [[1, 2]] ∧ ∀ p ∈ c.flushed, Told p := by
  have hrun : Run (step false) Admissible (start true startWriteableEvent : Connection UInt8)
      [.append (.raw [1, 2]), .writeable false ⟨[.ok 2], 0⟩ false] _ :=
    .cons (by simp [Admissible, SendSide.Admissible, Buffer.data]) rfl
      (.cons (by simp [Admissible, SendSide.Admissible, SendQueue.Small, Buffer.data, start,
        SendQueue.append]) rfl (.nil _))
  exact ⟨_, hrun, by decide, (flushed_means_flushed hrun).1⟩

/-! ## The connections of a socket -/

/-- The queue of `i` and the interest in the connection `s` are as `c` says. -/
structure Shows (w : World) (i : SockId) (s : SfdId) (c : Connection Byte) : Prop where
  queue : (w.sockets i).queue = c.side.queue
  interest : w.poller.epollSet (w.sfds s).fd = some c.interest

variable {w : World} {i : SockId} {s : SfdId} {c : Connection Byte}

theorem Shows.runAppend (h : Shows w i s c) (hopen : c.isOpen = true) (udp : Bool)
    (buf : Buffer Byte) :
    ∃ c', c.step udp (.append buf) = some c' ∧ Shows (w.runAppend i s buf) i s c' := by
  have hstep : c.step udp (.append buf) = some _ := if_pos hopen
  refine ⟨_, hstep, ?_, ?_⟩
  · rw [World.runAppend_sockets, Function.update_self, h.queue]
  · rw [World.runAppend_epollSet, (World.runAppend_same w i s buf).sfds, h.queue, h.interest]
    show _ = some (if (c.side.queue.append buf).2 then startWriteableEvent else c.interest)
    cases hsending : c.side.queue.sending <;> simp [SendQueue.append, hsending, startWriteableEvent]

theorem writeable_interest (w : World) (i : SockId) (s : SfdId) (env : SendEnv) {interest : Nat}
    (h : w.poller.epollSet (w.sfds s).fd = some interest) :
    (w.writeable i s env).1.poller.epollSet (w.sfds s).fd =
      some (if (w.writeable i s env).2.how = .stopped ∨ (w.writeable i s env).2.how = .flushed then
        stopWriteableEvent else interest) := by
  unfold World.writeable
  dsimp only
  split
  · simp only [World.stopWriteableEvent, World.setSocket, World.modify,
      EventPoller.epollSet_modifyEvent]
    rw [h]
    simp [stopWriteableEvent]
  · exact h

/-- `on_writeable` of the program is the step of the connection, and calls `flushed_cb_` when that
does. -/
theorem Shows.writeable (h : Shows w i s c) (hopen : c.isOpen = true) (env : SendEnv)
    (closes : Bool) :
    ∃ c', c.step ((w.sfds s).type = .udp) (.writeable w.poller.exitFlag env closes) = some c' ∧
      Shows (w.writeable i s env).1 i s c' ∧
      ((w.writeable i s env).2.how = .flushed ↔ c'.flushed ≠ c.flushed) := by
  have hr : (w.writeable i s env).2 =
      c.side.queue.onWriteable w.poller.exitFlag ((w.sfds s).type = .udp) env := by
    rw [← h.queue]
    rfl
  have hstep : c.step ((w.sfds s).type = .udp) (.writeable w.poller.exitFlag env closes) =
      some (c.written _ _ closes) := if_pos hopen
  have hsending := SendQueue.onWriteable_sending c.side.queue w.poller.exitFlag
    ((w.sfds s).type = .udp) env
  have hqueue : w.writtenQueue i s env =
      (c.side.queue.onWriteable w.poller.exitFlag ((w.sfds s).type = .udp) env).queue := by
    unfold World.writtenQueue
    dsimp only
    rw [hr]
    split
    · next hhow => rw [← hsending hhow]
    · rfl
  refine ⟨_, hstep, ⟨?_, ?_⟩, ?_⟩
  · rw [World.writeable_sockets, Function.update_self, hqueue, written_side]
  · rw [(World.writeable_same w i s env).sfds, writeable_interest w i s env h.interest,
      written_interest, hr]
  · rw [written_flushed, hr]
    split
    · next hhow => exact iff_of_true hhow (by simp)
    · next hhow => exact iff_of_false hhow (by simp)

end Connection

end CommonLibrary.Net
