import CommonLibrary.Net.BufferList

/-!
# A `BufferList` over many calls of `send`

`reoffset` moves two cursors: `iovec_off_` by assignment and `pkt_list_` by pops.  They
stay together until everything has been sent, whatever the calls of `sendmsg` return.
-/

namespace CommonLibrary.Net

open Utils

variable {β : Type} {udp : Bool}

namespace BufferList

/-- Calls of `send` one after the other: what they leave of the list, and the calls of
`sendmsg` that they have made. -/
def sendAll (udp : Bool) : BufferList β → List SendEnv → BufferList β × List (Sent β)
  | bl, [] => (bl, [])
  | bl, env :: envs =>
      let res := bl.send udp env
      let rest := sendAll udp res.list envs
      (rest.1, res.calls ++ rest.2)

section Keeps

variable {I : List (Sent β) → BufferList β → Prop}
  (hstep : ∀ calls bl env, bl.remainSize ≠ 0 → I calls bl →
    I (calls ++ [(bl.sendL udp env).2.1]) (bl.sendL udp env).1)

include hstep

theorem sendLoop_keeps (fuel : Nat) {calls : List (Sent β)} {bl : BufferList β} (env : SendEnv)
    (h : I calls bl) :
    I (calls ++ (sendLoop udp fuel bl env).2.1) (sendLoop udp fuel bl env).1 := by
  induction fuel generalizing calls bl env with
  | zero => simpa [sendLoop] using h
  | succ fuel ih =>
      rw [sendLoop]
      by_cases hremain : bl.remainSize = 0
      · rw [if_pos hremain]
        simpa using h
      · rw [if_neg hremain]
        have hnext := hstep calls bl env hremain h
        dsimp only
        split
        · exact hnext
        · have hrest := ih (bl.sendL udp env).2.2 hnext
          rwa [List.append_assoc] at hrest

theorem sendAll_keeps (envs : List SendEnv) {calls : List (Sent β)} {bl : BufferList β}
    (h : I calls bl) : I (calls ++ (bl.sendAll udp envs).2) (bl.sendAll udp envs).1 := by
  induction envs generalizing calls bl with
  | nil => simpa [sendAll] using h
  | cons env envs ih =>
      have hsend := sendLoop_keeps hstep (env.answers.length + 1) env h
      have hrest := ih hsend
      rw [List.append_assoc] at hrest
      exact hrest

end Keeps

/-! ## The two cursors -/

/-- `iovec_` describes the buffers of the list, and `pkt_list_` holds those from
`iovec_off_` on as long as something is left. -/
structure InSync (list : List (Buffer β)) (bl : BufferList β) : Prop where
  blocks : bl.iovec.map Iovec.block = list.map Buffer.data
  pkts : bl.remainSize ≠ 0 → bl.pktList = list.drop bl.iovecOff

theorem ofList_inSync (list : List (Buffer β)) : (ofList list).InSync list where
  blocks := by
    simp only [ofList, List.map_map]
    rfl
  pkts := fun _ => rfl

theorem reoffsetScan_blocks (n o : Int) (i : Nat) (vs : List (Iovec β)) :
    (reoffsetScan n o i vs).1.map Iovec.block = vs.map Iovec.block := by
  induction vs generalizing o i with
  | nil => rfl
  | cons v vs ih =>
      unfold reoffsetScan
      dsimp only
      split
      · rw [List.map_cons, List.map_cons, ih]
      · rfl

theorem reoffsetScan_le {n o : Int} {i j : Nat} {vs : List (Iovec β)}
    (hscan : (reoffsetScan n o i vs).2 = some j) : i ≤ j := by
  induction vs generalizing o i with
  | nil => cases hscan
  | cons v vs ih =>
      unfold reoffsetScan at hscan
      dsimp only at hscan
      split at hscan
      · exact (Nat.le_succ i).trans (ih hscan)
      · have hj := Option.some.inj hscan
        split at hj <;> omega

theorem iovecOff_le_reoffset (bl : BufferList β) (n : Int) :
    bl.iovecOff ≤ (bl.reoffset n).iovecOff := by
  show bl.iovecOff ≤ (reoffsetScan n 0 bl.iovecOff (bl.iovec.drop bl.iovecOff)).2.getD bl.iovecOff
  cases hscan : (reoffsetScan n 0 bl.iovecOff (bl.iovec.drop bl.iovecOff)).2 with
  | none => exact le_refl _
  | some j => exact reoffsetScan_le hscan

theorem reoffset_inSync {list : List (Buffer β)} {bl : BufferList β} (h : bl.InSync list)
    (hremain : bl.remainSize ≠ 0) (n : Int) : (bl.reoffset n).InSync list := by
  constructor
  · rw [← h.blocks]
    simp only [reoffset, List.map_append, reoffsetScan_blocks]
    rw [← List.map_append, List.take_append_drop]
  · intro _
    have hle := iovecOff_le_reoffset bl n
    calc (bl.reoffset n).pktList
        = bl.pktList.drop ((bl.reoffset n).iovecOff - bl.iovecOff) := rfl
      _ = (list.drop bl.iovecOff).drop ((bl.reoffset n).iovecOff - bl.iovecOff) := by
          rw [h.pkts hremain]
      _ = list.drop (bl.reoffset n).iovecOff := by
          rw [List.drop_drop]
          congr 1
          omega

theorem sendL_inSync {list : List (Buffer β)} {bl : BufferList β} (h : bl.InSync list)
    (env : SendEnv) : (bl.sendL udp env).1.InSync list := by
  simp only [sendL]
  generalize (sendmsg (bl.msghdr udp) env.answers env.errno).1 = n
  by_cases hall : n ≥ bl.remainSize
  · rw [if_pos hall]
    exact ⟨h.blocks, fun hne => absurd rfl hne⟩
  · rw [if_neg hall]
    split
    · exact reoffset_inSync h (by omega) n
    · exact h

/-! ## What a call of `send` returns, and that it returns -/

theorem empty_iff {bl : BufferList β} (h : bl.Inv) : bl.empty = true ↔ bl.rest = [] := by
  refine ⟨rest_eq_nil_of_empty, fun hrest => ?_⟩
  have hlength := length_flatMap_bytes h.wf
  rw [show (bl.iovec.drop bl.iovecOff).flatMap Iovec.bytes = [] from hrest] at hlength
  have hnone : bl.iovec.drop bl.iovecOff = [] := by
    rcases hdrop : bl.iovec.drop bl.iovecOff with _ | ⟨v, vs⟩
    · rfl
    · have hpos := (h.wf v (by rw [hdrop]; exact List.mem_cons_self)).pos
      rw [hdrop, List.length_nil, List.map_cons, List.sum_cons] at hlength
      omega
  have hle := h.off_le
  rw [List.drop_eq_nil_iff] at hnone
  simp only [empty, decide_eq_true_eq]
  omega

theorem send_ret {bl : BufferList β} (h : bl.Inv) (env : SendEnv) :
    (bl.send udp env).ret =
      if (bl.send udp env).calls.flatMap Sent.accepted = [] then (-1 : Int)
      else ((bl.send udp env).calls.flatMap Sent.accepted).length := by
  obtain ⟨hinv, hrest⟩ := send_spec h udp env
  have hlength := congrArg List.length hrest
  rw [List.length_append] at hlength
  have hsmall := h.small
  have hsent : toInt32 (bl.remainSize - (bl.send udp env).list.remainSize) =
      ((bl.send udp env).calls.flatMap Sent.accepted).length := by
    rw [h.remain, hinv.remain, toInt32_of_lt] <;> omega
  have hret : (bl.send udp env).ret =
      if toInt32 (bl.remainSize - (bl.send udp env).list.remainSize) > 0 then
        toInt32 (bl.remainSize - (bl.send udp env).list.remainSize) else -1 := rfl
  rw [hret, hsent]
  by_cases hnone : (bl.send udp env).calls.flatMap Sent.accepted = []
  · rw [if_pos hnone, hnone]
    rfl
  · have hpos := List.length_pos_iff.2 hnone
    rw [if_neg hnone, if_pos (by omega)]

/-- The call returns when it has had these answers, however the kernel would go on. -/
def UsesUp (udp : Bool) (bl : BufferList β) (answers : List SendAnswer) : Prop :=
  ∀ more errno, (bl.send udp ⟨answers ++ more, errno⟩).env.answers = more

theorem usesUp_nil {bl : BufferList β} (hremain : bl.remainSize = 0) : UsesUp udp bl [] := by
  intro more errno
  simp only [send, sendLoop, if_pos hremain, List.nil_append]

theorem usesUp_interrupted {bl : BufferList β} {e : Errno} {answers : List SendAnswer}
    (heintr : uvTranslatePosixError e = EINTR) (h : UsesUp udp bl answers)
    (hremain : bl.remainSize ≠ 0) : UsesUp udp bl (.err e :: answers) := by
  intro more errno
  have hsendL : bl.sendL udp ⟨.err e :: (answers ++ more), errno⟩ =
      bl.sendL udp ⟨answers ++ more, e⟩ := by
    simp only [sendL, sendmsg, if_pos heintr]
  have hloop : ∀ fuel, sendLoop udp (fuel + 1) bl ⟨.err e :: (answers ++ more), errno⟩ =
      sendLoop udp (fuel + 1) bl ⟨answers ++ more, e⟩ := by
    intro fuel
    simp only [sendLoop, hsendL, if_neg hremain]
  have hfuel := sendLoop_fuel udp ((answers ++ more).length + 1) bl ⟨answers ++ more, e⟩
    (Nat.lt_succ_self _)
  calc (bl.send udp ⟨.err e :: answers ++ more, errno⟩).env.answers
      = (bl.send udp ⟨answers ++ more, e⟩).env.answers := by
        simp only [send, List.cons_append, List.length_cons, hloop, hfuel]
    _ = more := h more e

theorem usesUp_failed {bl : BufferList β} {e : Errno} (hne : uvTranslatePosixError e ≠ EINTR)
    (hremain : bl.remainSize ≠ 0) : UsesUp udp bl [.err e] := by
  intro more errno
  simp only [send, List.cons_append, List.nil_append, List.length_cons, sendLoop, if_neg hremain,
    sendL, sendmsg, if_neg hne, if_true]

theorem usesUp_sent {bl : BufferList β} {n : Nat} {answers : List SendAnswer}
    (hremain : bl.remainSize ≠ 0)
    (h : UsesUp udp (bl.sendL udp ⟨[.ok n], 0⟩).1 answers) :
    UsesUp udp bl (.ok n :: answers) := by
  intro more errno
  have hret : (bl.sendL udp ⟨.ok n :: (answers ++ more), errno⟩).2.1.ret ≠ -1 := by
    simp only [sendL, sendmsg]
    omega
  have hloop := h more errno
  simp only [send, List.cons_append, List.length_cons] at hloop ⊢
  rw [sendLoop, if_neg hremain]
  simp only [if_neg hret]
  exact hloop

theorem msghdr_bytes_pos {bl : BufferList β} (h : bl.Inv) (hremain : bl.remainSize ≠ 0) :
    0 < (bl.msghdr udp).bytes.length := by
  rcases hrest : bl.iovec.drop bl.iovecOff with _ | ⟨v, vs⟩
  · rw [h.remain, rest, hrest] at hremain
    exact absurd rfl hremain
  · have hv : v.WF := h.wf v (by rw [hrest]; exact List.mem_cons_self)
    have hlen := Iovec.length_bytes hv.inside
    have hpos := hv.pos
    obtain ⟨k, hk⟩ : ∃ k, (if udp then 1 else IOV_MAX) = k + 1 := by
      cases udp
      · exact ⟨1023, rfl⟩
      · exact ⟨0, rfl⟩
    rw [Msghdr.bytes, msghdr, hrest, hk, List.take_succ_cons, List.flatMap_cons, List.length_append]
    omega

theorem length_rest_sendL {bl : BufferList β} (h : bl.Inv) (hremain : bl.remainSize ≠ 0) {n : Nat}
    (hn : 1 ≤ n) : (bl.sendL udp ⟨[.ok n], 0⟩).1.rest.length < bl.rest.length := by
  have hspec := (sendL_spec h udp ⟨[.ok n], 0⟩).2.1
  have hlength := congrArg List.length hspec
  have hoffered : 0 < (bl.msghdr udp).bytes.length := msghdr_bytes_pos h hremain
  have haccepted : (bl.sendL udp ⟨[.ok n], 0⟩).2.1.accepted.length =
      min n (bl.msghdr udp).bytes.length := by
    simp only [sendL, sendmsg, Sent.accepted, List.length_take]
    omega
  rw [List.length_append, haccepted] at hlength
  omega

/-- If the kernel interrupts finitely often and takes something when it takes over
anything, a call of `send` returns. -/
theorem send_returns {bl : BufferList β} (h : bl.Inv) {answers : Nat → SendAnswer} {last : Nat}
    (htakes : ∀ i n, answers i = .ok n → 1 ≤ n)
    (heintr : ∀ i e, last ≤ i → answers i = .err e → uvTranslatePosixError e ≠ EINTR) :
    ∃ k, UsesUp udp bl ((List.range k).map answers) := by
  -- an answer is one of the interruptions to come, or it takes a byte, or it ends the call
  induction hm : last + bl.rest.length using Nat.strong_induction_on
    generalizing bl answers last with
  | _ m ih =>
    by_cases hremain : bl.remainSize = 0
    · exact ⟨0, usesUp_nil hremain⟩
    have hcons : ∀ k, (List.range (k + 1)).map answers =
        answers 0 :: (List.range k).map fun i => answers (i + 1) := by
      intro k
      rw [List.range_succ_eq_map, List.map_cons, List.map_map]
      rfl
    have hlater : ∀ i e, last - 1 ≤ i → answers (i + 1) = .err e →
        uvTranslatePosixError e ≠ EINTR := fun i e hi => heintr (i + 1) e (by omega)
    cases hfirst : answers 0 with
    | err e =>
        by_cases heq : uvTranslatePosixError e = EINTR
        · have hlast : 0 < last := by
            by_contra hzero
            exact heintr 0 e (by omega) hfirst heq
          obtain ⟨k, hk⟩ := ih (last - 1 + bl.rest.length) (by omega) h
            (fun i n => htakes (i + 1) n) hlater rfl
          refine ⟨k + 1, ?_⟩
          rw [hcons, hfirst]
          exact usesUp_interrupted heq hk hremain
        · refine ⟨1, ?_⟩
          rw [hcons, hfirst]
          exact usesUp_failed heq hremain
    | ok n =>
        have hless : (bl.sendL udp ⟨[.ok n], 0⟩).1.rest.length < bl.rest.length :=
          length_rest_sendL h hremain (htakes 0 n hfirst)
        obtain ⟨k, hk⟩ := ih (last - 1 + (bl.sendL udp ⟨[.ok n], 0⟩).1.rest.length) (by omega)
          (sendL_spec h udp _).1 (fun i n => htakes (i + 1) n) hlater rfl
        refine ⟨k + 1, ?_⟩
        rw [hcons, hfirst]
        exact usesUp_sent hremain hk

/-- The invariant: the bytes that `calls` have taken over and the rest are the buffers. -/
structure Tracks (list : List (Buffer β)) (calls : List (Sent β)) (bl : BufferList β) : Prop where
  inv : bl.Inv
  sync : bl.InSync list
  bytes : calls.flatMap Sent.accepted ++ bl.rest = list.flatMap Buffer.data

theorem sendL_tracks {list : List (Buffer β)} {calls : List (Sent β)} {bl : BufferList β}
    (h : Tracks list calls bl) (env : SendEnv) :
    Tracks list (calls ++ [(bl.sendL udp env).2.1]) (bl.sendL udp env).1 := by
  obtain ⟨hinv, hbytes, -⟩ := sendL_spec h.inv udp env
  refine ⟨hinv, sendL_inSync h.sync env, ?_⟩
  rw [List.flatMap_append, List.flatMap_singleton, List.append_assoc, hbytes, h.bytes]

/-- What holds of the list when `accepted` has been taken over. -/
structure StreamState (list : List (Buffer β)) (accepted : List β) (bl : BufferList β) : Prop where
  bytes : accepted ++ bl.rest = list.flatMap Buffer.data
  remain : bl.remainSize = bl.rest.length
  /-- the buffers of `iovec_[iovec_off_..]` -/
  pkts : bl.remainSize ≠ 0 → bl.pktList = list.drop bl.iovecOff ∧
    bl.pktList.map Buffer.data = (bl.iovec.drop bl.iovecOff).map Iovec.block
  empty : bl.empty = true ↔ accepted = list.flatMap Buffer.data

/-- After any calls of `send`, what has been taken over and the rest are the buffers, the
cursors are together, and the next call returns what it has sent. -/
theorem send_stream {list : List (Buffer β)} (hne : ∀ b ∈ list, b.data ≠ [])
    (hsmall : (list.flatMap Buffer.data).length < 2 ^ 31) (envs : List SendEnv) :
    StreamState list (((ofList list).sendAll false envs).2.flatMap Sent.accepted)
        ((ofList list).sendAll false envs).1 ∧
      (∀ env, (((ofList list).sendAll false envs).1.send false env).ret =
        if (((ofList list).sendAll false envs).1.send false env).calls.flatMap Sent.accepted = []
        then (-1 : Int)
        else ((((ofList list).sendAll false envs).1.send false env).calls.flatMap
          Sent.accepted).length) ∧
      ∀ (answers : Nat → SendAnswer) (last : Nat), (∀ i n, answers i = .ok n → 1 ≤ n) →
        (∀ i e, last ≤ i → answers i = .err e → uvTranslatePosixError e ≠ EINTR) →
        ∃ k, UsesUp false ((ofList list).sendAll false envs).1 ((List.range k).map answers) := by
  have hstart : Tracks list [] (ofList list) :=
    ⟨ofList_inv hne hsmall, ofList_inSync list, rest_ofList list⟩
  have hstep : ∀ calls bl env, bl.remainSize ≠ 0 → Tracks list calls bl →
      Tracks list (calls ++ [(bl.sendL false env).2.1]) (bl.sendL false env).1 :=
    fun _ _ env _ h => sendL_tracks h env
  have htracks := sendAll_keeps hstep envs hstart
  rw [List.nil_append] at htracks
  obtain ⟨hinv, hsync, hbytes⟩ := htracks
  refine ⟨⟨hbytes, hinv.remain, fun hremain => ?_, ?_⟩, fun env => send_ret hinv env,
    fun answers last htakes heintr => send_returns hinv htakes heintr⟩
  · have hpkts := hsync.pkts hremain
    refine ⟨hpkts, ?_⟩
    rw [hpkts, List.map_drop, ← hsync.blocks, List.map_drop]
  · rw [empty_iff hinv, ← hbytes]
    exact List.self_eq_append_right.symm

/-- Two buffers; the first call of `send` sends three bytes and then fails. -/
theorem send_stream_two :
    StreamState [Buffer.raw [1, 2], .raw [3, 4]] [1, 2, 3]
      ((ofList [Buffer.raw [1, 2], .raw [3, 4]]).sendAll false
        [⟨[.err EINTR, .ok 3, .err EAGAIN], 0⟩]).1 ∧
    ((ofList [Buffer.raw [1, 2], .raw [3, 4]]).send false
      ⟨[.err EINTR, .ok 3, .err EAGAIN], 0⟩).ret = 3 := by
  have hlist : ∀ b ∈ [Buffer.raw [1, 2], .raw [3, 4]], b.data ≠ [] := by decide
  refine ⟨(send_stream hlist (by decide) [⟨[.err EINTR, .ok 3, .err EAGAIN], 0⟩]).1, ?_⟩
  exact (send_stream hlist (by decide) []).2.1 ⟨[.err EINTR, .ok 3, .err EAGAIN], 0⟩

end BufferList

end CommonLibrary.Net
