import CommonLibrary.Poller.EventPoller
import Mathlib.Data.List.Basic
import Mathlib.Tactic.Ring

/-!
# Buffers and `BufferList`

A `BufferList` takes over a list of buffers and sends them with scatter-gather
`sendmsg` calls.  Nothing here looks at the value of a byte, so the byte type is a
parameter.  `iov_base` is an offset into the bytes of the buffer it points to, and
`remain_size_` is a C `int`: every result stored in it goes through `toInt32`.
-/

namespace CommonLibrary.Net

open Utils

variable {β : Type}

/-- The bytes of a `sockaddr`, `addr_len` of them. -/
abbrev SockAddr := List UInt8

/-- What a `Buffer::Ptr` may point to in a send queue. -/
inductive Buffer (β : Type) where
  | raw (data : List β)
  | sock (data : List β) (addr : Option SockAddr)

namespace Buffer

def data : Buffer β → List β
  | raw data => data
  | sock data _ => data

def size (b : Buffer β) : Nat := b.data.length

end Buffer

def toInt32 (x : Int) : Int := Int.bmod x (2 ^ 32)

theorem toInt32_of_lt {x : Int} (h0 : 0 ≤ x) (h : x < 2 ^ 31) : toInt32 x = x := by
  unfold toInt32
  rw [Int.bmod_eq_of_le] <;> omega

def IOV_MAX : Nat := 1024

/-- `struct iovec`: `base` is `iov_base - buffer->Data()`. -/
structure Iovec (β : Type) where
  block : List β
  base : Nat
  len : Nat

namespace Iovec

def bytes (v : Iovec β) : List β := (v.block.drop v.base).take v.len

structure WF (v : Iovec β) : Prop where
  inside : v.base + v.len ≤ v.block.length
  pos : 0 < v.len

theorem length_bytes {v : Iovec β} (h : v.base + v.len ≤ v.block.length) :
    v.bytes.length = v.len := by
  simp only [bytes, List.length_take, List.length_drop]
  omega

end Iovec

/-- `msg_name` of a `msghdr`; `garbage` is what the cast of a buffer that is no
`BufferSock` yields. -/
inductive MsgName where
  | null
  | addr (a : Option SockAddr)
  | garbage

structure Msghdr (β : Type) where
  name : MsgName
  iov : List (Iovec β)

def Msghdr.bytes (m : Msghdr β) : List β := m.iov.flatMap Iovec.bytes

inductive SendAnswer where
  | err (e : Errno)
  | ok (n : Nat)
  deriving DecidableEq

/-- The answers the next `sendmsg` calls get and the thread's `errno`.  Behind the
listed answers the send buffer of the kernel is full. -/
structure SendEnv where
  answers : List SendAnswer := []
  errno : Errno := 0

/-- One `send_l`: the message it handed to `sendmsg` and what the call returned. -/
structure Sent (β : Type) where
  msg : Msghdr β
  ret : Int

namespace Sent

def accepted (s : Sent β) : List β := s.msg.bytes.take s.ret.toNat

end Sent

/-- `do { n = sendmsg(fd, &msg, flags); } while (n == -1 && EINTR == get_uv_error())`.
The kernel takes at most the bytes it is offered. -/
def sendmsg (m : Msghdr β) : List SendAnswer → Errno → Int × SendEnv
  | [], _ => (-1, ⟨[], EAGAIN⟩)
  | .err e :: answers, _ =>
      if uvTranslatePosixError e = EINTR then sendmsg m answers e
      else (-1, ⟨answers, e⟩)
  | .ok n :: answers, errno => (min n m.bytes.length, ⟨answers, errno⟩)

structure BufferList (β : Type) where
  iovec : List (Iovec β)
  iovecOff : Nat := 0
  remainSize : Int := 0
  pktList : List (Buffer β)

namespace BufferList

/-- The constructor; the caller's list is swapped into `pkt_list_`. -/
def ofList (list : List (Buffer β)) : BufferList β where
  iovec := list.map fun b => ⟨b.data, 0, b.size⟩
  remainSize := list.foldl (fun remain b => toInt32 (remain + b.size)) 0
  pktList := list

def empty (bl : BufferList β) : Bool := bl.iovecOff = bl.iovec.length

def count (bl : BufferList β) : Nat := bl.iovec.length - bl.iovecOff

/-- The search of `reoffset`, from index `i` with `offset` bytes passed: the rest of
`iovec_` with the hit rewritten in place, and the new `iovec_off_` if there is a hit. -/
def reoffsetScan (n : Int) : Int → Nat → List (Iovec β) → List (Iovec β) × Option Nat
  | _, _, [] => ([], none)
  | offset, i, v :: vs =>
      let offset := toInt32 (offset + v.len)
      if offset < n then
        (v :: (reoffsetScan n offset (i + 1) vs).1, (reoffsetScan n offset (i + 1) vs).2)
      else
        let remain := (offset - n).toNat
        ({ v with base := v.base + v.len - remain, len := remain } :: vs,
          some (if remain = 0 then i + 1 else i))

def reoffset (bl : BufferList β) (n : Int) : BufferList β :=
  let scan := reoffsetScan n 0 bl.iovecOff (bl.iovec.drop bl.iovecOff)
  let off := scan.2.getD bl.iovecOff
  { iovec := bl.iovec.take bl.iovecOff ++ scan.1
    iovecOff := off
    remainSize := toInt32 (bl.remainSize - n)
    pktList := bl.pktList.drop (off - bl.iovecOff) }

/-- The `msghdr` that `send_l` fills in. -/
def msghdr (bl : BufferList β) (udp : Bool) : Msghdr β where
  name :=
    if udp then
      match bl.pktList.head? with
      | some (.sock _ addr) => .addr addr
      | _ => .garbage
    else .null
  iov := (bl.iovec.drop bl.iovecOff).take (if udp then 1 else IOV_MAX)

def sendL (bl : BufferList β) (udp : Bool) (env : SendEnv) :
    BufferList β × Sent β × SendEnv :=
  let msg := bl.msghdr udp
  let res := sendmsg msg env.answers env.errno
  let n := res.1
  let bl :=
    if n ≥ bl.remainSize then { bl with iovecOff := bl.iovec.length, remainSize := 0 }
    else if n > 0 then bl.reoffset n
    else bl
  (bl, ⟨msg, n⟩, res.2)

/-- `while (remain_size_ && send_l(fd, flags, udp) != -1) {}`, at most `fuel` rounds. -/
def sendLoop (udp : Bool) : Nat → BufferList β → SendEnv →
    BufferList β × List (Sent β) × SendEnv
  | 0, bl, env => (bl, [], env)
  | fuel + 1, bl, env =>
      if bl.remainSize = 0 then (bl, [], env)
      else
        let res := bl.sendL udp env
        if res.2.1.ret = -1 then (res.1, [res.2.1], res.2.2)
        else
          let rest := sendLoop udp fuel res.1 res.2.2
          (rest.1, res.2.1 :: rest.2.1, rest.2.2)

/-- What `send` leaves behind: the list, its return value, the calls it made, and
the kernel's side. -/
structure SendResult (β : Type) where
  list : BufferList β
  ret : Int
  calls : List (Sent β)
  env : SendEnv

/-- Every round of the loop uses up an answer or ends it, see `sendLoop_fuel`. -/
def send (bl : BufferList β) (udp : Bool) (env : SendEnv) : SendResult β :=
  let res := sendLoop udp (env.answers.length + 1) bl env
  let sent := toInt32 (bl.remainSize - res.1.remainSize)
  { list := res.1
    ret := if sent > 0 then sent else -1
    calls := res.2.1
    env := res.2.2 }

/-! ## The unsent rest -/

def rest (bl : BufferList β) : List β := (bl.iovec.drop bl.iovecOff).flatMap Iovec.bytes

/-- `iovec_[iovec_off_..]` describes `remain_size_` bytes, and `remain_size_` has
not wrapped. -/
structure Inv (bl : BufferList β) : Prop where
  off_le : bl.iovecOff ≤ bl.iovec.length
  wf : ∀ v ∈ bl.iovec.drop bl.iovecOff, v.WF
  remain : bl.remainSize = bl.rest.length
  small : bl.rest.length < 2 ^ 31

theorem length_flatMap_bytes {vs : List (Iovec β)} (hwf : ∀ v ∈ vs, v.WF) :
    (vs.flatMap Iovec.bytes).length = (vs.map Iovec.len).sum := by
  induction vs with
  | nil => rfl
  | cons v vs ih =>
      have hv := Iovec.length_bytes (hwf v (by simp)).inside
      have hvs := ih fun u hu => hwf u (by simp [hu])
      simp [hv, hvs]

theorem foldl_remain (list : List (Buffer β)) (acc : Nat)
    (h : acc + (list.flatMap Buffer.data).length < 2 ^ 31) :
    list.foldl (fun remain b => toInt32 (remain + b.size)) (acc : Int) =
      (acc + (list.flatMap Buffer.data).length : Nat) := by
  induction list generalizing acc with
  | nil => simp
  | cons b list ih =>
      simp only [List.flatMap_cons, List.length_append] at h ⊢
      have hb : toInt32 ((acc : Int) + b.size) = ((acc + b.data.length : Nat) : Int) := by
        rw [Buffer.size, ← Nat.cast_add]
        exact toInt32_of_lt (by omega) (by omega)
      rw [List.foldl_cons, hb, ih _ (by omega), Nat.add_assoc]

theorem rest_ofList (list : List (Buffer β)) :
    (ofList list).rest = list.flatMap Buffer.data := by
  simp only [rest, ofList, List.drop_zero, List.flatMap_map]
  congr 1
  funext b
  simp [Iovec.bytes, Buffer.size]

theorem ofList_inv {list : List (Buffer β)} (hne : ∀ b ∈ list, b.data ≠ [])
    (hsmall : (list.flatMap Buffer.data).length < 2 ^ 31) : (ofList list).Inv where
  off_le := by simp [ofList]
  wf := by
    intro v hv
    simp only [ofList, List.drop_zero, List.mem_map] at hv
    obtain ⟨b, hb, rfl⟩ := hv
    exact ⟨by simp [Buffer.size], List.length_pos_iff.2 (hne b hb)⟩
  remain := by
    have h := foldl_remain list 0 (by omega)
    rw [rest_ofList]
    simpa only [ofList, Nat.cast_zero, Nat.zero_add] using h
  small := by rwa [rest_ofList]

theorem bytes_shrink (v : Iovec β) {k : Nat} (hk : k ≤ v.len) :
    Iovec.bytes { v with base := v.base + v.len - k, len := k } =
      v.bytes.drop (v.len - k) := by
  have hbase : v.base + v.len - k = v.base + (v.len - k) := by omega
  simp only [Iovec.bytes, hbase, List.drop_take, List.drop_drop]
  congr 1
  omega

/-- Dropping past the first `iovec` drops the surplus from the ones behind it. -/
theorem drop_flatMap_cons (v : Iovec β) (vs : List (Iovec β)) {k : Nat}
    (hlen : v.bytes.length = v.len) (hk : v.len ≤ k) :
    ((v :: vs).flatMap Iovec.bytes).drop k =
      (vs.flatMap Iovec.bytes).drop (k - v.len) := by
  rw [List.flatMap_cons, List.drop_append, hlen, List.drop_eq_nil_of_le (by omega),
    List.nil_append]

theorem reoffsetScan_spec (n o i : Nat) (vs : List (Iovec β)) (hwf : ∀ v ∈ vs, v.WF)
    (hlt : o < n) (hle : n ≤ o + (vs.flatMap Iovec.bytes).length)
    (hsmall : o + (vs.flatMap Iovec.bytes).length < 2 ^ 31) :
    ∃ j, (reoffsetScan n o i vs).2 = some j ∧ i ≤ j ∧ j ≤ i + vs.length ∧
      (reoffsetScan n o i vs).1.length = vs.length ∧
      (∀ v ∈ (reoffsetScan n o i vs).1.drop (j - i), v.WF) ∧
      ((reoffsetScan n o i vs).1.drop (j - i)).flatMap Iovec.bytes =
        (vs.flatMap Iovec.bytes).drop (n - o) := by
  induction vs generalizing o i with
  | nil => simp at hle; omega
  | cons v vs ih =>
      have hv := hwf v (by simp)
      have hlen := Iovec.length_bytes hv.inside
      have hwf' : ∀ u ∈ vs, u.WF := fun u hu => hwf u (by simp [hu])
      simp only [List.flatMap_cons, List.length_append, hlen] at hle hsmall
      have hoff : toInt32 ((o : Int) + v.len) = ((o + v.len : Nat) : Int) := by
        rw [toInt32_of_lt] <;> omega
      by_cases hpass : o + v.len < n
      · -- the whole buffer was taken over: go on behind it
        have hcond : ((o + v.len : Nat) : Int) < n := by omega
        obtain ⟨j, hj, hij, hjle, hlength, hrest, heq⟩ :=
          ih (o + v.len) (i + 1) hwf' hpass (by omega) (by omega)
        simp only [reoffsetScan, hoff, hcond, if_true]
        have hsub : j - i = j - (i + 1) + 1 := by omega
        refine ⟨j, hj, by omega, by simp only [List.length_cons]; omega,
          by rw [List.length_cons, hlength, List.length_cons], ?_, ?_⟩
        · rwa [hsub, List.drop_succ_cons]
        · rw [hsub, List.drop_succ_cons, heq, drop_flatMap_cons v vs hlen (by omega),
            Nat.sub_sub]
      · -- the last buffer that was touched: cut it in place
        have hcond : ¬ ((o + v.len : Nat) : Int) < n := by omega
        have hremain : (((o + v.len : Nat) : Int) - n).toNat = o + v.len - n := by omega
        simp only [reoffsetScan, hoff, hcond, if_false, hremain]
        have hcut := bytes_shrink v (k := o + v.len - n) (by omega)
        have hdrop : v.len - (o + v.len - n) = n - o := by omega
        by_cases hzero : o + v.len - n = 0
        · simp only [hzero, if_true]
          refine ⟨i + 1, rfl, by omega, by simp, by simp, ?_, ?_⟩
          · simpa using hwf'
          · have hno : n - o - v.len = 0 := by omega
            rw [Nat.add_sub_cancel_left, List.drop_succ_cons, List.drop_zero,
              drop_flatMap_cons v vs hlen (by omega), hno, List.drop_zero]
        · simp only [hzero, if_false]
          refine ⟨i, rfl, le_refl _, by omega, by simp, ?_, ?_⟩
          · rw [Nat.sub_self, List.drop_zero]
            intro u hu
            rcases List.mem_cons.1 hu with rfl | hu
            · have hin := hv.inside
              exact ⟨by simp only; omega, by simp only; omega⟩
            · exact hwf' u hu
          · rw [Nat.sub_self, List.drop_zero, List.flatMap_cons, List.flatMap_cons, hcut,
              hdrop, List.drop_append_of_le_length (by omega)]

theorem reoffset_spec {bl : BufferList β} (h : bl.Inv) {n : Nat} (hpos : 0 < n)
    (hle : n < bl.rest.length) :
    (bl.reoffset n).Inv ∧ (bl.reoffset n).rest = bl.rest.drop n := by
  obtain ⟨j, hj, hij, hjle, hlength, hwf, heq⟩ :=
    reoffsetScan_spec n 0 bl.iovecOff (bl.iovec.drop bl.iovecOff) h.wf hpos
      (by simpa [rest] using hle.le) (by simpa [rest] using h.small)
  simp only [Nat.cast_zero, Nat.sub_zero] at hj hlength hwf heq
  have htake : (bl.iovec.take bl.iovecOff).length = bl.iovecOff := by
    simpa using h.off_le
  have hoff : (bl.reoffset n).iovecOff = j := by simp [reoffset, hj]
  have hdrop : (bl.reoffset n).iovec.drop j =
      (reoffsetScan n 0 bl.iovecOff (bl.iovec.drop bl.iovecOff)).1.drop
        (j - bl.iovecOff) := by
    simp only [reoffset, List.drop_append, htake]
    rw [List.drop_eq_nil_of_le (by omega), List.nil_append]
  have hrest : (bl.reoffset n).rest = bl.rest.drop n := by
    rw [rest, hoff, hdrop, heq]; rfl
  refine ⟨⟨?_, ?_, ?_, ?_⟩, hrest⟩
  · rw [hoff]
    have := h.off_le
    simp only [reoffset, List.length_append, htake, hlength, List.length_drop] at hjle ⊢
    omega
  · rw [hoff, hdrop]; exact hwf
  · have hremain : (bl.reoffset n).remainSize = toInt32 (bl.remainSize - n) := rfl
    have hsmall := h.small
    rw [hremain, h.remain, hrest, toInt32_of_lt, List.length_drop] <;> omega
  · have hsmall := h.small
    rw [hrest, List.length_drop]; omega

/-! ## One `send_l`, and the loop around it -/

theorem sendmsg_le (m : Msghdr β) (answers : List SendAnswer) (errno : Errno) :
    (sendmsg m answers errno).1 ≤ m.bytes.length := by
  induction answers generalizing errno with
  | nil => simp only [sendmsg]; omega
  | cons a answers ih =>
      cases a with
      | err e => simp only [sendmsg]; split; exacts [ih e, by simp only; omega]
      | ok n => simp only [sendmsg]; omega

theorem sendmsg_answers (m : Msghdr β) (answers : List SendAnswer) (errno : Errno) :
    (sendmsg m answers errno).2.answers.length ≤ answers.length ∧
      ((sendmsg m answers errno).1 ≠ -1 →
        (sendmsg m answers errno).2.answers.length < answers.length) := by
  induction answers generalizing errno with
  | nil => simp [sendmsg]
  | cons a answers ih =>
      cases a with
      | err e =>
          simp only [sendmsg, List.length_cons]
          have := ih e
          split
          · exact ⟨by omega, fun hne => by have := this.2 hne; omega⟩
          · simp
      | ok n => simp [sendmsg]

theorem msghdr_bytes_prefix (bl : BufferList β) (udp : Bool) :
    (bl.msghdr udp).bytes <+: bl.rest := by
  refine ⟨((bl.iovec.drop bl.iovecOff).drop (if udp then 1 else IOV_MAX)).flatMap
    Iovec.bytes, ?_⟩
  simp only [Msghdr.bytes, msghdr, rest]
  rw [← List.flatMap_append, List.take_append_drop]

/-- `send_l` moves a prefix of the rest to the kernel and nothing else. -/
theorem sendL_spec {bl : BufferList β} (h : bl.Inv) (udp : Bool) (env : SendEnv) :
    (bl.sendL udp env).1.Inv ∧
      (bl.sendL udp env).2.1.accepted ++ (bl.sendL udp env).1.rest = bl.rest ∧
      ((bl.sendL udp env).2.1.ret = -1 → (bl.sendL udp env).1 = bl) := by
  obtain ⟨tl, htl⟩ := msghdr_bytes_prefix bl udp
  have hn := sendmsg_le (bl.msghdr udp) env.answers env.errno
  have hremain := h.remain
  have hpre : ∀ k, k ≤ (bl.msghdr udp).bytes.length →
      (bl.msghdr udp).bytes.take k = bl.rest.take k := by
    intro k hk
    rw [← htl, List.take_append_of_le_length hk]
  have hlen : (bl.msghdr udp).bytes.length ≤ bl.rest.length := by
    rw [← htl, List.length_append]; omega
  simp only [sendL, Sent.accepted]
  generalize (sendmsg (bl.msghdr udp) env.answers env.errno).1 = n at hn
  by_cases hall : n ≥ bl.remainSize
  · -- everything was offered and taken
    have hnat : n.toNat = bl.rest.length := by omega
    rw [if_pos hall]
    refine ⟨⟨le_refl _, by simp, by simp [rest], by simp [rest]⟩, ?_, ?_⟩
    · rw [hpre _ (by omega), hnat, List.take_length]
      simp [rest]
    · omega
  · rw [if_neg hall]
    by_cases hsome : n > 0
    · obtain ⟨k, rfl⟩ := Int.eq_ofNat_of_zero_le hsome.le
      have hk : 0 < k ∧ k < bl.rest.length := by omega
      obtain ⟨hinv, hrest⟩ := reoffset_spec h hk.1 hk.2
      rw [if_pos hsome]
      refine ⟨hinv, ?_, by omega⟩
      rw [hpre _ (by omega), Int.toNat_natCast, hrest, List.take_append_drop]
    · rw [if_neg hsome]
      have hzero : n.toNat = 0 := by omega
      exact ⟨h, by simp [hzero], fun _ => rfl⟩

/-- The bound on the rounds of `sendLoop` does not cut it short. -/
theorem sendLoop_fuel (udp : Bool) (fuel : Nat) (bl : BufferList β) (env : SendEnv)
    (hfuel : env.answers.length < fuel) :
    sendLoop udp (fuel + 1) bl env = sendLoop udp fuel bl env := by
  induction fuel generalizing bl env with
  | zero => omega
  | succ fuel ih =>
      rw [sendLoop, sendLoop]
      split
      · rfl
      · dsimp only
        split
        · rfl
        · next hret =>
          have hlt := (sendmsg_answers (bl.msghdr udp) env.answers env.errno).2 hret
          have henv : (bl.sendL udp env).2.2.answers.length < fuel := by
            simp only [sendL]; omega
          rw [ih _ _ henv]

theorem sendLoop_spec (udp : Bool) (fuel : Nat) {bl : BufferList β} (h : bl.Inv)
    (env : SendEnv) :
    (sendLoop udp fuel bl env).1.Inv ∧
      (sendLoop udp fuel bl env).2.1.flatMap Sent.accepted ++
        (sendLoop udp fuel bl env).1.rest = bl.rest := by
  induction fuel generalizing bl env with
  | zero => exact ⟨h, by simp [sendLoop]⟩
  | succ fuel ih =>
      rw [sendLoop]
      split
      · exact ⟨h, by simp⟩
      · obtain ⟨hinv, hrest, -⟩ := sendL_spec h udp env
        dsimp only
        split
        · exact ⟨hinv, by simpa using hrest⟩
        · obtain ⟨hinv', hrest'⟩ := ih hinv (bl.sendL udp env).2.2
          refine ⟨hinv', ?_⟩
          simp only [List.flatMap_cons, List.append_assoc]
          rw [hrest', hrest]

theorem send_spec {bl : BufferList β} (h : bl.Inv) (udp : Bool) (env : SendEnv) :
    (bl.send udp env).list.Inv ∧
      (bl.send udp env).calls.flatMap Sent.accepted ++ (bl.send udp env).list.rest =
        bl.rest :=
  sendLoop_spec udp _ h env

theorem rest_eq_nil_of_empty {bl : BufferList β} (h : bl.empty = true) :
    bl.rest = [] := by
  have hoff : bl.iovecOff = bl.iovec.length := by simpa [empty] using h
  simp [rest, hoff]

end BufferList

end CommonLibrary.Net
