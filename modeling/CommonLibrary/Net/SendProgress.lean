import CommonLibrary.Net.SendQueue

/-!
# What a flush gets done

As long as no `sendmsg` call fails for good, `flush_data` does not fail either; where it ends
with something left, the kernel has refused a call, and where the kernel takes something, there
is less left than before.
-/

namespace CommonLibrary.Net

open Utils

variable {β : Type} {udp : Bool}

namespace SendAnswer

/-- The answer says nothing about the connection but that the call should be made again. -/
def Clean : SendAnswer → Prop
  | err e => uvTranslatePosixError e = EINTR ∨ uvTranslatePosixError e = EAGAIN
  | ok _ => True

end SendAnswer

namespace SendEnv

/-- No hard error is among the answers. -/
def Clean (env : SendEnv) : Prop := ∀ a ∈ env.answers, a.Clean

/-- Behind interruptions, the first of the answers takes something. -/
def takes : List SendAnswer → Bool
  | [] => false
  | .err e :: answers => uvTranslatePosixError e = EINTR && takes answers
  | .ok n :: _ => 0 < n

end SendEnv

/-! ## One call of `sendmsg` -/

theorem sendmsg_clean (m : Msghdr β) {answers : List SendAnswer} (errno : Errno)
    (hclean : ∀ a ∈ answers, a.Clean) :
    (sendmsg m answers errno).2.Clean ∧
      ((sendmsg m answers errno).1 = -1 →
        uvTranslatePosixError (sendmsg m answers errno).2.errno = EAGAIN) := by
  induction answers generalizing errno with
  | nil => exact ⟨fun a ha => (List.not_mem_nil ha).elim, fun _ => rfl⟩
  | cons a answers ih =>
      have hrest : ∀ b ∈ answers, b.Clean := fun b hb => hclean b (List.mem_cons_of_mem _ hb)
      have ha := hclean a List.mem_cons_self
      cases a with
      | err e =>
          rw [sendmsg]
          split
          · exact ih e hrest
          · next hintr => exact ⟨hrest, fun _ => ha.resolve_left hintr⟩
      | ok n =>
          refine ⟨hrest, fun hret => ?_⟩
          simp only [sendmsg] at hret
          omega

theorem sendmsg_takes (m : Msghdr β) {answers : List SendAnswer} (errno : Errno)
    (htakes : SendEnv.takes answers) (hm : m.bytes ≠ []) :
    0 < (sendmsg m answers errno).1 := by
  induction answers generalizing errno with
  | nil => cases htakes
  | cons a answers ih =>
      cases a with
      | err e =>
          rw [SendEnv.takes, Bool.and_eq_true, decide_eq_true_eq] at htakes
          rw [sendmsg, if_pos htakes.1]
          exact ih e htakes.2
      | ok n =>
          have hn : 0 < n := of_decide_eq_true htakes
          have hlen := List.length_pos_iff.2 hm
          simp only [sendmsg]
          omega

namespace BufferList

/-! ## A list with something left -/

theorem msghdr_bytes_ne_nil (udp : Bool) {bl : BufferList β} (h : bl.Inv) (hrest : bl.rest ≠ []) :
    (bl.msghdr udp).bytes ≠ [] := by
  have hwf := h.wf
  simp only [Msghdr.bytes, msghdr]
  rw [rest] at hrest
  cases hiov : bl.iovec.drop bl.iovecOff with
  | nil =>
      rw [hiov] at hrest
      exact absurd rfl hrest
  | cons v vs =>
      rw [hiov] at hwf
      have hv := hwf v List.mem_cons_self
      have hpos := hv.pos
      rw [← Iovec.length_bytes hv.inside] at hpos
      have hmax : 0 < if udp then 1 else IOV_MAX := by cases udp <;> decide
      obtain ⟨k, hk⟩ := Nat.exists_eq_add_of_lt hmax
      rw [hk, Nat.zero_add, List.take_succ_cons, List.flatMap_cons]
      exact List.append_ne_nil_of_left_ne_nil (List.length_pos_iff.1 hpos) _

theorem empty_of_rest_eq_nil {bl : BufferList β} (h : bl.Inv) (hrest : bl.rest = []) :
    bl.empty = true := by
  have hoff := h.off_le
  have hwf := h.wf
  rw [rest] at hrest
  rw [empty, decide_eq_true_eq]
  cases hiov : bl.iovec.drop bl.iovecOff with
  | nil =>
      have hlen := List.drop_eq_nil_iff.1 hiov
      omega
  | cons v vs =>
      rw [hiov] at hwf hrest
      have hv := hwf v List.mem_cons_self
      have hpos := hv.pos
      rw [List.flatMap_cons, List.append_eq_nil_iff] at hrest
      rw [← Iovec.length_bytes hv.inside, hrest.1] at hpos
      cases hpos

theorem remainSize_eq_zero {bl : BufferList β} (h : bl.Inv) :
    bl.remainSize = 0 ↔ bl.rest = [] := by
  rw [h.remain, Int.natCast_eq_zero, List.length_eq_zero_iff]

/-! ## The loop of `send` -/

/-- The loop ends with nothing left or with a refused call; without a hard error that call has
said `EAGAIN`. -/
theorem sendLoop_ends (fuel : Nat) {bl : BufferList β} (h : bl.Inv) {env : SendEnv}
    (hfuel : env.answers.length < fuel) :
    ((sendLoop udp fuel bl env).1.rest = [] ∨
        ∃ c ∈ (sendLoop udp fuel bl env).2.1, c.ret = -1) ∧
      (env.Clean → (sendLoop udp fuel bl env).2.2.Clean ∧
        ((sendLoop udp fuel bl env).1.rest ≠ [] →
          uvTranslatePosixError (sendLoop udp fuel bl env).2.2.errno = EAGAIN)) := by
  induction fuel generalizing bl env with
  | zero => omega
  | succ fuel ih =>
      rw [sendLoop]
      split
      · next hzero =>
        have hnil := (remainSize_eq_zero h).1 hzero
        exact ⟨.inl hnil, fun hclean => ⟨hclean, fun hne => absurd hnil hne⟩⟩
      · dsimp only
        have hmsg : env.Clean → _ := sendmsg_clean (bl.msghdr udp) env.errno
        split
        · next hret =>
          exact ⟨.inr ⟨_, List.mem_cons_self, hret⟩,
            fun hclean => ⟨(hmsg hclean).1, fun _ => (hmsg hclean).2 hret⟩⟩
        · next hret =>
          have hinv := (sendL_spec h udp env).1
          have hlt := (sendmsg_answers (bl.msghdr udp) env.answers env.errno).2 hret
          have hless : (bl.sendL udp env).2.2.answers.length < fuel := by
            simp only [sendL]
            omega
          obtain ⟨hends, hclean'⟩ := ih hinv hless
          refine ⟨hends.imp_right ?_, fun hclean => hclean' (hmsg hclean).1⟩
          rintro ⟨c, hc, hret'⟩
          exact ⟨c, List.mem_cons_of_mem _ hc, hret'⟩

theorem send_ends (udp : Bool) {bl : BufferList β} (h : bl.Inv) (env : SendEnv) :
    ((bl.send udp env).list.rest = [] ∨ ∃ c ∈ (bl.send udp env).calls, c.ret = -1) ∧
      (env.Clean → (bl.send udp env).env.Clean ∧
        ((bl.send udp env).list.rest ≠ [] →
          uvTranslatePosixError (bl.send udp env).env.errno = EAGAIN)) :=
  sendLoop_ends _ h (Nat.lt_succ_self _)

theorem send_ret_pos (udp : Bool) {bl : BufferList β} (h : bl.Inv) (env : SendEnv) :
    0 < (bl.send udp env).ret ↔ (bl.send udp env).list.rest ≠ bl.rest := by
  obtain ⟨hinv, hrest⟩ := send_spec h udp env
  have hsmall := h.small
  have hlen := congrArg List.length hrest
  rw [List.length_append] at hlen
  have hsent : toInt32 (bl.remainSize - (bl.send udp env).list.remainSize) =
      ((bl.send udp env).calls.flatMap Sent.accepted).length := by
    rw [h.remain, hinv.remain, toInt32_of_lt] <;> omega
  have hret : (bl.send udp env).ret =
      if toInt32 (bl.remainSize - (bl.send udp env).list.remainSize) > 0 then
        toInt32 (bl.remainSize - (bl.send udp env).list.remainSize)
      else -1 := rfl
  rw [hret, hsent]
  constructor
  · intro hpos heq
    rw [heq] at hlen
    have hzero : ((bl.send udp env).calls.flatMap Sent.accepted).length = 0 := by omega
    rw [hzero] at hpos
    cases hpos
  · intro hne
    have hpos : 0 < ((bl.send udp env).calls.flatMap Sent.accepted).length := by
      apply List.length_pos_iff.2
      intro hnil
      rw [hnil, List.nil_append] at hrest
      exact hne hrest
    rw [if_pos] <;> omega

theorem send_takes (udp : Bool) {bl : BufferList β} (h : bl.Inv) (hrest : bl.rest ≠ [])
    {env : SendEnv} (htakes : SendEnv.takes env.answers) :
    (bl.send udp env).calls.flatMap Sent.accepted ≠ [] := by
  have hmsg := msghdr_bytes_ne_nil udp h hrest
  have hpos := sendmsg_takes (bl.msghdr udp) env.errno htakes hmsg
  have hfirst : (bl.sendL udp env).2.1.accepted ≠ [] := by
    apply List.length_pos_iff.1
    have hlen := List.length_pos_iff.2 hmsg
    simp only [sendL, Sent.accepted, List.length_take]
    omega
  have hret : ¬ (bl.sendL udp env).2.1.ret = -1 := by
    simp only [sendL]
    omega
  simp only [send]
  rw [sendLoop, if_neg (fun hzero => hrest ((remainSize_eq_zero h).1 hzero)), if_neg hret]
  exact List.append_ne_nil_of_left_ne_nil hfirst _

end BufferList

namespace SendQueue

/-- Nothing in `send_buf_sending_` is sent already. -/
def Left (q : SendQueue β) : Prop := ∀ bl ∈ q.sendBufSending, bl.rest ≠ []

theorem toSend_left {q : SendQueue β} (h : q.Inv) (hleft : q.Left)
    (hne : ¬ (q.sendBufSending.isEmpty && q.sendBufWaiting.isEmpty) = true) :
    ∀ bl ∈ q.toSend, bl.rest ≠ [] := by
  intro bl hbl
  unfold toSend at hbl
  split at hbl
  · next hempty =>
    rw [List.mem_singleton.1 hbl, BufferList.rest_ofList]
    cases hw : q.sendBufWaiting with
    | nil =>
        rw [hempty, hw] at hne
        exact absurd rfl hne
    | cons b bs =>
        have hb := h.waiting b (by rw [hw]; exact List.mem_cons_self)
        rw [List.flatMap_cons]
        exact List.append_ne_nil_of_left_ne_nil hb _
  · exact hleft bl hbl

theorem toSend_ne_nil (q : SendQueue β) : q.toSend ≠ [] := by
  unfold toSend
  split
  · exact List.cons_ne_nil _ _
  · next hne => simpa using hne

theorem unsent_eq_nil {q : SendQueue β} (h : q.Inv) (hleft : q.Left) :
    q.unsent = [] ↔ q.sendBufSending = [] ∧ q.sendBufWaiting = [] := by
  constructor
  · intro hnil
    obtain ⟨hsending, hwaiting⟩ := List.append_eq_nil_iff.1 hnil
    rw [List.flatMap_eq_nil_iff] at hsending hwaiting
    constructor
    · exact List.eq_nil_iff_forall_not_mem.2 fun bl hbl => hleft bl hbl (hsending bl hbl)
    · exact List.eq_nil_iff_forall_not_mem.2 fun b hb => h.waiting b hb (hwaiting b hb)
  · rintro ⟨hsending, hwaiting⟩
    rw [unsent, hsending, hwaiting]
    rfl

/-! ## `flush_data` -/

/-- What the loop leaves behind of lists that all have something left. -/
structure PumpEnds (env : SendEnv) (r : PumpResult β) : Prop where
  left : ∀ bl ∈ r.tmp, bl.rest ≠ []
  refused : r.tmp ≠ [] → r.failed = false → ∃ c ∈ r.calls, c.ret = -1
  clean : env.Clean → r.failed = false ∧ r.env.Clean

theorem pump_ends (udp : Bool) {tmp : List (BufferList β)} (h : ∀ bl ∈ tmp, bl.Inv)
    (hleft : ∀ bl ∈ tmp, bl.rest ≠ []) (env : SendEnv) : PumpEnds env (pump udp tmp env) := by
  induction tmp generalizing env with
  | nil => exact ⟨hleft, fun hne => absurd rfl hne, fun hclean => ⟨rfl, hclean⟩⟩
  | cons pkt tmp ih =>
      have hpkt := h pkt List.mem_cons_self
      have htmp : ∀ bl ∈ tmp, bl.Inv := fun bl hbl => h bl (List.mem_cons_of_mem _ hbl)
      have hleft' : ∀ bl ∈ tmp, bl.rest ≠ [] := fun bl hbl => hleft bl (List.mem_cons_of_mem _ hbl)
      have hinv := (BufferList.send_spec hpkt udp env).1
      have hret := BufferList.send_ret_pos udp hpkt env
      obtain ⟨hends, hclean⟩ := BufferList.send_ends udp hpkt env
      rw [pump]
      dsimp only
      split
      · split
        · obtain ⟨hleft'', hrefused, hclean'⟩ := ih htmp hleft' (pkt.send udp env).env
          refine ⟨hleft'', fun hne hok => ?_, fun henv => hclean' (hclean henv).1⟩
          obtain ⟨c, hc, hc'⟩ := hrefused hne hok
          exact ⟨c, List.mem_append_right _ hc, hc'⟩
        · next hsome =>
          have hne : (pkt.send udp env).list.rest ≠ [] :=
            fun hnil => hsome (BufferList.empty_of_rest_eq_nil hinv hnil)
          exact ⟨List.forall_mem_cons.2 ⟨hne, hleft'⟩, fun _ _ => hends.resolve_left hne,
            fun henv => ⟨rfl, (hclean henv).1⟩⟩
      · next hnone =>
        -- nothing was taken, so the first call was refused
        have hsame : (pkt.send udp env).list.rest = pkt.rest :=
          Classical.not_not.1 fun hne => hnone (hret.2 hne)
        have hne : (pkt.send udp env).list.rest ≠ [] := hsame ▸ hleft pkt List.mem_cons_self
        refine ⟨List.forall_mem_cons.2 ⟨hne, hleft'⟩, fun _ _ => hends.resolve_left hne,
          fun henv => ⟨?_, (hclean henv).1⟩⟩
        rw [(hclean henv).2 hne]
        rfl

/-- What `flush_data` leaves behind when the poller is open. -/
structure FlushEnds (env : SendEnv) (r : FlushResult β) : Prop where
  left : r.queue.Left
  how : r.how = .stopped ∨ r.how = .flushed ∨ r.how = .blocked ∨ r.how = .failed
  stopped : r.how = .stopped ∨ r.how = .flushed → r.queue.sending = false
  refused : r.how = .blocked → ∃ c ∈ r.calls, c.ret = -1
  clean : env.Clean → r.how ≠ .failed

theorem flushData_ends (fuel : Nat) {q : SendQueue β} (h : q.Inv) (hsmall : q.Small)
    (hleft : q.Left) {env : SendEnv} {r : FlushResult β}
    (hr : flushData false udp fuel q env = some r) : FlushEnds env r := by
  induction fuel generalizing q env r with
  | zero => cases hr
  | succ fuel ih =>
      rw [flushData, if_neg Bool.false_ne_true] at hr
      split at hr
      · cases hr
        exact ⟨hleft, .inr (.inl rfl), fun _ => rfl, by simp, by simp⟩
      next hne =>
      have hends := pump_ends udp (toSend_inv h hsmall) (toSend_left h hleft hne) env
      dsimp only at hr
      split at hr
      · next hfailed =>
        cases hr
        refine ⟨fun _ hbl => (List.not_mem_nil hbl).elim, .inr (.inr (.inr rfl)), by simp, by simp,
          fun henv => ?_⟩
        rw [(hends.clean henv).1] at hfailed
        cases hfailed
      next hok =>
      rw [Bool.not_eq_true] at hok
      split at hr
      · next hsome =>
        cases hr
        have htmp : (pump udp q.toSend env).tmp ≠ [] := by simpa using hsome
        exact ⟨hends.left, .inr (.inr (.inl rfl)), by simp, fun _ => hends.refused htmp hok,
          by simp⟩
      · obtain ⟨r', hr', rfl⟩ := Option.map_eq_some_iff.1 hr
        have hwait : ∀ b ∈ q.stillWaiting, b.data ≠ [] :=
          fun b hb => h.waiting b (stillWaiting_subset q b hb)
        obtain ⟨hleft', hhow, hstopped, hrefused, hclean⟩ :=
          ih (q := { q with sendBufSending := [], sendBufWaiting := q.stillWaiting })
            ⟨fun _ hbl => (List.not_mem_nil hbl).elim, hwait⟩ (stillWaiting_small hsmall)
            (fun _ hbl => (List.not_mem_nil hbl).elim) hr'
        refine ⟨hleft', hhow, hstopped, fun hblocked => ?_,
          fun henv => hclean (hends.clean henv).2⟩
        obtain ⟨c, hc, hret⟩ := hrefused hblocked
        exact ⟨c, List.mem_append_right _ hc, hret⟩

theorem onWriteable_ends (udp : Bool) {q : SendQueue β} (h : q.Inv) (hsmall : q.Small)
    (hleft : q.Left) (env : SendEnv) : FlushEnds env (q.onWriteable false udp env) := by
  unfold onWriteable
  split
  · exact ⟨hleft, .inl rfl, fun _ => rfl, by simp, by simp⟩
  · exact flushData_ends 3 h hsmall hleft (flushData_eq_flush q false udp env le_rfl)

theorem onWriteable_takes (udp : Bool) {q : SendQueue β} (h : q.Inv) (hsmall : q.Small)
    (hleft : q.Left) (hne : q.unsent ≠ []) {env : SendEnv} (htakes : SendEnv.takes env.answers) :
    (q.onWriteable false udp env).calls.flatMap Sent.accepted ≠ [] := by
  have hsome : ¬ (q.sendBufSending.isEmpty && q.sendBufWaiting.isEmpty) = true := by
    rw [Bool.and_eq_true, List.isEmpty_iff, List.isEmpty_iff, ← unsent_eq_nil h hleft]
    exact hne
  have hpump : (pump udp q.toSend env).calls.flatMap Sent.accepted ≠ [] := by
    have hinv := toSend_inv h hsmall
    have hleft' := toSend_left h hleft hsome
    cases htmp : q.toSend with
    | nil => exact absurd htmp (toSend_ne_nil q)
    | cons pkt tmp =>
        rw [htmp] at hinv hleft'
        have hfirst := BufferList.send_takes udp (hinv pkt List.mem_cons_self)
          (hleft' pkt List.mem_cons_self) htakes
        rw [pump]
        dsimp only
        split
        · split
          · rw [List.flatMap_append]
            exact List.append_ne_nil_of_left_ne_nil hfirst _
          · exact hfirst
        · exact hfirst
  have hflush := flushData_eq_flush q false udp env (le_refl 3)
  rw [flushData, if_neg Bool.false_ne_true, if_neg hsome] at hflush
  rw [onWriteable, if_neg hsome]
  dsimp only at hflush
  split at hflush
  · rw [← Option.some.inj hflush]
    exact hpump
  split at hflush
  · rw [← Option.some.inj hflush]
    exact hpump
  · obtain ⟨r', -, hr'⟩ := Option.map_eq_some_iff.1 hflush
    rw [← hr', List.flatMap_append]
    exact List.append_ne_nil_of_left_ne_nil hpump _

end SendQueue

end CommonLibrary.Net
