import CommonLibrary.Net.BufferStream

/-!
# `remain_size_` as an `int`

`remain_size_` is the total of the buffers modulo `2 ^ 32`, read as a signed number.  Where
that is negative, the -1 of a `sendmsg` that has failed passes the test `n >= remain_size_`,
and `send_l` takes everything for sent.
-/

namespace CommonLibrary.Net

variable {β : Type} {udp : Bool}

def totalSize (list : List (Buffer β)) : Nat := (list.map Buffer.size).sum

theorem toInt32_eq_self_iff (n : Nat) : toInt32 n = n ↔ n < 2 ^ 31 := by
  constructor
  · intro heq
    have hlt : toInt32 n < 2 ^ 31 := Int.bmod_lt (by decide)
    omega
  · intro hlt
    apply toInt32_of_lt
    · omega
    · omega

namespace BufferList

def sendLs (bl : BufferList β) (sends : List (Bool × SendEnv)) : BufferList β :=
  sends.foldl (fun bl s => (bl.sendL s.1 s.2).1) bl

/-- `remain_size_` is right to begin with, and whenever `sendmsg` fails, `send_l` changes
nothing. -/
structure FailedSendKeeps (list : List (Buffer β)) : Prop where
  total : (ofList list).remainSize = totalSize list
  keeps : ∀ sends env udp, (((ofList list).sendLs sends).sendL udp env).2.1.ret = -1 →
    (((ofList list).sendLs sends).sendL udp env).1 = (ofList list).sendLs sends

theorem foldl_remain_eq (list : List (Buffer β)) (acc : Int) :
    list.foldl (fun remain b => toInt32 (remain + b.size)) (toInt32 acc) =
      toInt32 (acc + totalSize list) := by
  induction list generalizing acc with
  | nil => simp [totalSize]
  | cons b list ih =>
      have hwrap : toInt32 (toInt32 acc + b.size) = toInt32 (acc + b.size) :=
        Int.bmod_add_bmod
      rw [List.foldl_cons, hwrap, ih]
      congr 1
      simp only [totalSize, List.map_cons, List.sum_cons]
      omega

theorem remainSize_ofList (list : List (Buffer β)) :
    (ofList list).remainSize = toInt32 (totalSize list) := by
  have hfold := foldl_remain_eq list 0
  rw [Int.zero_add] at hfold
  exact hfold

theorem sendL_failed_iff {bl : BufferList β} {env : SendEnv}
    (hret : (bl.sendL udp env).2.1.ret = -1) :
    (bl.sendL udp env).1 = bl ↔ 0 ≤ bl.remainSize := by
  have hn : (sendmsg (bl.msghdr udp) env.answers env.errno).1 = -1 := hret
  simp only [sendL, hn]
  by_cases hneg : -1 ≥ bl.remainSize
  · rw [if_pos hneg]
    refine iff_of_false (fun heq => ?_) (by omega)
    have hremain := congrArg BufferList.remainSize heq
    dsimp only at hremain
    omega
  · rw [if_neg hneg, if_neg (by decide)]
    exact iff_of_true rfl (by omega)

/-- Where it is negative, everything is taken for sent. -/
theorem empty_of_failed {bl : BufferList β} {env : SendEnv}
    (hret : (bl.sendL udp env).2.1.ret = -1) (hneg : bl.remainSize < 0) :
    (bl.sendL udp env).1.empty = true := by
  have hn : (sendmsg (bl.msghdr udp) env.answers env.errno).1 = -1 := hret
  simp only [sendL, hn]
  rw [if_pos (by omega)]
  simp only [empty, decide_true]

theorem sendL_remain_range {bl : BufferList β} (hpos : 0 ≤ bl.remainSize)
    (hsmall : bl.remainSize < 2 ^ 31) (env : SendEnv) :
    0 ≤ (bl.sendL udp env).1.remainSize ∧ (bl.sendL udp env).1.remainSize < 2 ^ 31 := by
  simp only [sendL]
  generalize (sendmsg (bl.msghdr udp) env.answers env.errno).1 = n
  by_cases hall : n ≥ bl.remainSize
  · rw [if_pos hall]
    exact ⟨le_refl (0 : Int), by show (0 : Int) < 2 ^ 31; decide⟩
  · rw [if_neg hall]
    by_cases hsome : n > 0
    · rw [if_pos hsome]
      have hremain : (bl.reoffset n).remainSize = bl.remainSize - n :=
        toInt32_of_lt (by omega) (by omega)
      rw [hremain]
      omega
    · rw [if_neg hsome]
      exact ⟨hpos, hsmall⟩

theorem sendLs_remain_range {bl : BufferList β} (hpos : 0 ≤ bl.remainSize)
    (hsmall : bl.remainSize < 2 ^ 31) (sends : List (Bool × SendEnv)) :
    0 ≤ (bl.sendLs sends).remainSize := by
  induction sends generalizing bl with
  | nil => exact hpos
  | cons s sends ih =>
      have hrange : 0 ≤ (bl.sendL s.1 s.2).1.remainSize ∧
          (bl.sendL s.1 s.2).1.remainSize < 2 ^ 31 := sendL_remain_range hpos hsmall s.2
      exact ih hrange.1 hrange.2

/-- A failed `sendmsg` consumes nothing exactly if the total is below `2 ^ 31`. -/
theorem failedSendKeeps_iff (list : List (Buffer β)) :
    FailedSendKeeps list ↔ totalSize list < 2 ^ 31 := by
  have hremain := remainSize_ofList list
  constructor
  · intro h
    rw [← toInt32_eq_self_iff, ← hremain]
    exact h.total
  · intro hsmall
    have htotal : (ofList list).remainSize = totalSize list := by
      rw [hremain]
      exact (toInt32_eq_self_iff _).2 hsmall
    refine ⟨htotal, fun sends env udp hret => ?_⟩
    rw [sendL_failed_iff hret]
    apply sendLs_remain_range
    · omega
    · omega

def twoBuffers (k : Nat) : List (Buffer UInt8) :=
  [.raw (List.replicate k 0), .raw (List.replicate k 0)]

theorem totalSize_twoBuffers (k : Nat) : totalSize (twoBuffers k) = 2 * k := by
  simp only [totalSize, twoBuffers, Buffer.size, Buffer.data, List.map_cons, List.map_nil,
    List.length_replicate, List.sum_cons, List.sum_nil]
  omega

/-- With two buffers of 1 GiB queued, a `sendmsg` that fails with `EAGAIN` empties the list. -/
theorem not_failedSendKeeps_two_gib :
    (ofList (twoBuffers (2 ^ 30))).empty = false ∧
      ((ofList (twoBuffers (2 ^ 30))).sendL false ⟨[.err Utils.EAGAIN], 0⟩).2.1.ret = -1 ∧
      ((ofList (twoBuffers (2 ^ 30))).sendL false ⟨[.err Utils.EAGAIN], 0⟩).1.empty = true ∧
      ¬ FailedSendKeeps (twoBuffers (2 ^ 30)) := by
  have hret : ((ofList (twoBuffers (2 ^ 30))).sendL false ⟨[.err Utils.EAGAIN], 0⟩).2.1.ret = -1 :=
    rfl
  have htotal := totalSize_twoBuffers (2 ^ 30)
  refine ⟨rfl, hret, empty_of_failed hret ?_, ?_⟩
  · rw [remainSize_ofList, htotal]
    decide
  · rw [failedSendKeeps_iff, htotal]
    decide

end BufferList

end CommonLibrary.Net
