import CommonLibrary.Net.BufferStream

/-!
# A `BufferList` over UDP

The payload of a datagram is taken from `iovec_[iovec_off_]` and its address from
`pkt_list_.front()`.  A kernel that takes a datagram takes it whole, so both cursors
advance by one packet.
-/

namespace CommonLibrary.Net

variable {β : Type}

/-- What a `BufferSock` wraps, and where it is to go. -/
structure Packet (β : Type) where
  data : List β
  addr : Option SockAddr

def Packet.toBuffer (p : Packet β) : Buffer β := .sock p.data p.addr

structure Datagram (β : Type) where
  name : MsgName
  data : List β

def Packet.toDatagram (p : Packet β) : Datagram β := ⟨.addr p.addr, p.data⟩

namespace Sent

def Whole (s : Sent β) : Prop := s.ret = -1 ∨ s.ret = s.msg.bytes.length

instance (s : Sent β) : Decidable s.Whole :=
  inferInstanceAs (Decidable (s.ret = -1 ∨ s.ret = s.msg.bytes.length))

def toDatagram (s : Sent β) : Datagram β := ⟨s.msg.name, s.accepted⟩

end Sent

/-- The datagrams that calls of `sendmsg` have handed over. -/
def handedOver (calls : List (Sent β)) : List (Datagram β) :=
  (calls.filter fun s => s.ret ≠ -1).map Sent.toDatagram

theorem handedOver_append (calls : List (Sent β)) (s : Sent β) :
    handedOver (calls ++ [s]) =
      if s.ret = -1 then handedOver calls else handedOver calls ++ [s.toDatagram] := by
  unfold handedOver
  rw [List.filter_append, List.map_append]
  by_cases hret : s.ret = -1
  · rw [if_pos hret, List.filter_singleton]
    simp [hret]
  · rw [if_neg hret, List.filter_singleton]
    simp [hret]

namespace BufferList

theorem reoffset_first {bl : BufferList β} {v : Iovec β} {vs : List (Iovec β)}
    (hdrop : bl.iovec.drop bl.iovecOff = v :: vs) (hlen : v.len < 2 ^ 31) :
    (bl.reoffset v.len).iovecOff = bl.iovecOff + 1 ∧
      (bl.reoffset v.len).iovec.drop (bl.iovecOff + 1) = vs := by
  have hoff : toInt32 (0 + (v.len : Int)) = v.len := by
    rw [toInt32_of_lt] <;> omega
  have hscan : reoffsetScan v.len 0 bl.iovecOff (v :: vs) =
      ({ v with base := v.base + v.len - 0, len := 0 } :: vs, some (bl.iovecOff + 1)) := by
    simp only [reoffsetScan, hoff, lt_irrefl, if_false, sub_self, Int.toNat_zero, if_true]
  have hlength := congrArg List.length hdrop
  rw [List.length_drop, List.length_cons] at hlength
  have htake : (bl.iovec.take bl.iovecOff).length = bl.iovecOff := by
    rw [List.length_take]
    omega
  constructor
  · simp only [reoffset, hdrop, hscan, Option.getD_some]
  · simp only [reoffset, hdrop, hscan]
    rw [List.drop_append, htake, List.drop_eq_nil_of_le (by omega), List.nil_append,
      Nat.add_sub_cancel_left, List.drop_succ_cons, List.drop_zero]

/-- The packets before `iovec_off_` have been handed over, and those behind it are as they
were. -/
structure HandsOver (pkts : List (Packet β)) (calls : List (Sent β)) (bl : BufferList β) :
    Prop where
  inv : bl.Inv
  sync : bl.InSync (pkts.map Packet.toBuffer)
  untouched : bl.iovec.drop bl.iovecOff =
    (pkts.drop bl.iovecOff).map fun p => ⟨p.data, 0, p.data.length⟩
  handed : handedOver calls = (pkts.take bl.iovecOff).map Packet.toDatagram
  single : ∀ s ∈ calls, s.msg.iov.length = 1

variable {pkts : List (Packet β)} {calls : List (Sent β)} {bl : BufferList β}

theorem HandsOver.length (h : HandsOver pkts calls bl) : bl.iovec.length = pkts.length := by
  have hlength := congrArg List.length h.sync.blocks
  simpa using hlength

theorem HandsOver.msghdr (h : HandsOver pkts calls bl) (hremain : bl.remainSize ≠ 0) :
    ∃ p rest, pkts.drop bl.iovecOff = p :: rest ∧
      bl.msghdr true = ⟨.addr p.addr, [⟨p.data, 0, p.data.length⟩]⟩ := by
  have huntouched := h.untouched
  rcases hdrop : pkts.drop bl.iovecOff with _ | ⟨p, rest⟩
  · rw [hdrop, List.map_nil] at huntouched
    rw [h.inv.remain, BufferList.rest, huntouched] at hremain
    exact absurd rfl hremain
  · have hpkts := h.sync.pkts hremain
    rw [← List.map_drop, hdrop] at hpkts
    rw [hdrop] at huntouched
    refine ⟨p, rest, rfl, ?_⟩
    simp only [BufferList.msghdr, hpkts, huntouched]
    rfl

theorem HandsOver.advance (h : HandsOver pkts calls bl) {p : Packet β}
    {rest : List (Packet β)} (hdrop : pkts.drop bl.iovecOff = p :: rest) {env : SendEnv}
    (hret : (bl.sendL true env).2.1.ret = p.data.length) :
    (bl.sendL true env).1.iovecOff = bl.iovecOff + 1 ∧
      (bl.sendL true env).1.iovec.drop (bl.iovecOff + 1) =
        rest.map fun p => ⟨p.data, 0, p.data.length⟩ := by
  have huntouched := h.untouched
  rw [hdrop, List.map_cons] at huntouched
  have hwf := h.inv.wf
  rw [huntouched] at hwf
  have hsum := length_flatMap_bytes hwf
  have hremain' := h.inv.remain
  have hsmall := h.inv.small
  rw [BufferList.rest, huntouched, hsum, List.map_cons, List.sum_cons] at hremain' hsmall
  dsimp only at hremain' hsmall
  have hlength := congrArg List.length huntouched
  rw [List.length_drop, List.length_cons, List.length_map] at hlength
  have hret' : (sendmsg (bl.msghdr true) env.answers env.errno).1 = p.data.length := hret
  simp only [sendL, hret']
  by_cases hlast : rest = []
  · -- the last packet: `reoffset` is not called
    subst hlast
    rw [if_pos (by rw [hremain']; simp)]
    rw [List.length_nil] at hlength
    constructor
    · show bl.iovec.length = bl.iovecOff + 1
      omega
    · show bl.iovec.drop (bl.iovecOff + 1) = []
      exact List.drop_eq_nil_of_le (by omega)
  · have hpos : 0 < ((rest.map fun p => (⟨p.data, 0, p.data.length⟩ : Iovec β)).map
        Iovec.len).sum := by
      obtain ⟨q, more, rfl⟩ := List.exists_cons_of_ne_nil hlast
      have hq := (hwf ⟨q.data, 0, q.data.length⟩ (by simp)).pos
      dsimp only at hq
      rw [List.map_cons, List.map_cons, List.sum_cons]
      dsimp only
      omega
    have hp := (hwf ⟨p.data, 0, p.data.length⟩ List.mem_cons_self).pos
    dsimp only at hp
    rw [if_neg (by omega), if_pos (by omega)]
    exact reoffset_first huntouched (by dsimp only; omega)

theorem sendL_handsOver (h : HandsOver pkts calls bl) (hremain : bl.remainSize ≠ 0)
    {env : SendEnv} (hwhole : (bl.sendL true env).2.1.Whole) :
    HandsOver pkts (calls ++ [(bl.sendL true env).2.1]) (bl.sendL true env).1 := by
  obtain ⟨p, rest, hdrop, hmsg⟩ := h.msghdr hremain
  have hmsg' : (bl.sendL true env).2.1.msg = ⟨.addr p.addr, [⟨p.data, 0, p.data.length⟩]⟩ := hmsg
  have hbytes : (bl.sendL true env).2.1.msg.bytes = p.data := by
    rw [hmsg']
    simp [Msghdr.bytes, Iovec.bytes]
  obtain ⟨hinv, -, hkeep⟩ := sendL_spec h.inv true env
  have hsync : (bl.sendL true env).1.InSync (pkts.map Packet.toBuffer) := sendL_inSync h.sync env
  have hsingle : ∀ s ∈ calls ++ [(bl.sendL true env).2.1], s.msg.iov.length = 1 := by
    intro s hs
    rcases List.mem_append.1 hs with hs | hs
    · exact h.single s hs
    · rw [List.mem_singleton.1 hs, hmsg']
      rfl
  by_cases hfailed : (bl.sendL true env).2.1.ret = -1
  · have hsame := hkeep hfailed
    refine ⟨hinv, hsync, ?_, ?_, hsingle⟩
    · rw [hsame]
      exact h.untouched
    · rw [handedOver_append, if_pos hfailed, hsame]
      exact h.handed
  · have hret : (bl.sendL true env).2.1.ret = p.data.length := by
      rw [← hbytes]
      exact hwhole.resolve_left hfailed
    obtain ⟨hoff, hrest⟩ := h.advance hdrop hret
    refine ⟨hinv, hsync, ?_, ?_, hsingle⟩
    · rw [hoff, hrest, ← List.drop_drop, hdrop, List.drop_succ_cons, List.drop_zero]
    · have hdatagram : (bl.sendL true env).2.1.toDatagram = p.toDatagram := by
        simp only [Sent.toDatagram, Sent.accepted, hbytes, hret, Int.toNat_natCast,
          List.take_length]
        rw [hmsg']
        rfl
      have hnext : pkts.take (bl.iovecOff + 1) = pkts.take bl.iovecOff ++ [p] := by
        rw [List.take_add, hdrop, List.take_succ_cons, List.take_zero]
      rw [handedOver_append, if_neg hfailed, hdatagram, h.handed, hoff, hnext, List.map_append,
        List.map_singleton]

theorem ofList_handsOver (hne : ∀ p ∈ pkts, p.data ≠ [])
    (hsmall : (pkts.flatMap Packet.data).length < 2 ^ 31) :
    HandsOver pkts [] (ofList (pkts.map Packet.toBuffer)) where
  inv := by
    apply ofList_inv
    · intro b hb
      obtain ⟨p, hp, rfl⟩ := List.mem_map.1 hb
      exact hne p hp
    · rw [List.flatMap_map]
      exact hsmall
  sync := ofList_inSync _
  untouched := by
    simp only [ofList, List.drop_zero, List.map_map]
    rfl
  handed := rfl
  single := fun s hs => by cases hs

/-- The datagrams handed over are the packets, in order, each in one call and with its own
address, and they are all of them when the list is empty. -/
theorem datagrams_in_order (hne : ∀ p ∈ pkts, p.data ≠ [])
    (hsmall : (pkts.flatMap Packet.data).length < 2 ^ 31) (envs : List SendEnv)
    (hwhole : ∀ s ∈ ((ofList (pkts.map Packet.toBuffer)).sendAll true envs).2, s.Whole) :
    handedOver ((ofList (pkts.map Packet.toBuffer)).sendAll true envs).2 =
        (pkts.take ((ofList (pkts.map Packet.toBuffer)).sendAll true envs).1.iovecOff).map
          Packet.toDatagram ∧
      (∀ s ∈ ((ofList (pkts.map Packet.toBuffer)).sendAll true envs).2, s.msg.iov.length = 1) ∧
      (((ofList (pkts.map Packet.toBuffer)).sendAll true envs).1.empty = true ↔
        handedOver ((ofList (pkts.map Packet.toBuffer)).sendAll true envs).2 =
          pkts.map Packet.toDatagram) := by
  have hstep : ∀ calls bl env, bl.remainSize ≠ 0 →
      ((∀ s ∈ calls, s.Whole) → HandsOver pkts calls bl) →
      (∀ s ∈ calls ++ [(bl.sendL true env).2.1], s.Whole) →
      HandsOver pkts (calls ++ [(bl.sendL true env).2.1]) (bl.sendL true env).1 := by
    intro calls bl env hremain h hall
    have hcalls := h fun s hs => hall s (List.mem_append_left _ hs)
    exact sendL_handsOver hcalls hremain (hall _ (by simp))
  have hout := sendAll_keeps hstep envs fun _ => ofList_handsOver hne hsmall
  rw [List.nil_append] at hout
  have hhands := hout hwhole
  refine ⟨hhands.handed, hhands.single, ?_⟩
  have hlength := hhands.length
  have hle := hhands.inv.off_le
  simp only [empty, decide_eq_true_eq]
  constructor
  · intro hoff
    rw [hhands.handed, hoff, hlength, List.take_length]
  · intro hall
    have hcount := congrArg List.length hall
    rw [hhands.handed, List.length_map, List.length_map, List.length_take] at hcount
    omega

/-- Two packets; the kernel is full after the first one, and takes the second one in the next
call of `send`. -/
theorem datagrams_in_order_resumed :
    handedOver ((ofList ([⟨[1, 2], some [5]⟩, ⟨[3], none⟩].map Packet.toBuffer)).sendAll true
      [⟨[.ok 2, .err Utils.EAGAIN], 0⟩, ⟨[.ok 1], 0⟩]).2 =
        [⟨.addr (some [5]), [1, 2]⟩, ⟨.addr none, [3]⟩] := by
  have hdone := @datagrams_in_order Nat [⟨[1, 2], some [5]⟩, ⟨[3], none⟩] (by decide) (by decide)
    [⟨[.ok 2, .err Utils.EAGAIN], 0⟩, ⟨[.ok 1], 0⟩] (by decide)
  exact hdone.2.2.1 (by decide)

end BufferList

end CommonLibrary.Net
