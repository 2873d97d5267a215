import CommonLibrary.Foundation.Heap
import CommonLibrary.Foundation.Run
import Mathlib.Algebra.Group.Nat.Defs
import Mathlib.Data.List.Basic
import Mathlib.Data.UInt
import Mathlib.Tactic.Common

/-!
# `BufferRaw`

A block of `char` on the heap, its length and how much of it is in use.  The fields and
the arguments are `uint32_t`, so `size + 1` and `capacity * 2` wrap.  Whether `new` finds
memory is given to each call from outside.
-/

namespace CommonLibrary.Net

open Foundation

/-- A `char` is `none` until it is written. -/
abbrev Block := List (Option UInt8)

inductive Exc where
  | badAlloc
  | invalidArgument
  deriving DecidableEq

/-- A `BufferRaw` and the heap that its block is on. -/
structure BufferRaw where
  heap : Heap Block := {}
  data : Option Addr := none
  capacity : UInt32 := 0
  size : UInt32 := 0

namespace BufferRaw

/-- `strlen` of a string that ends behind `src`, if not before. -/
def strlen (src : List UInt8) : Nat := src.idxOf 0

/-! ## The statements -/

/-- `delete[] data_`: the pointer keeps its value. -/
def deleteData (m : BufferRaw) (p : Addr) : Outcome Exc BufferRaw :=
  match m.heap.free p with
  | some heap => .done { m with heap := heap }
  | none => .undefined

/-- `data_ = new char[capacity]; capacity_ = capacity`. -/
def newData (capacity : UInt32) (allocOk : Bool) (m : BufferRaw) : Outcome Exc BufferRaw :=
  if allocOk then
    let new := m.heap.alloc (List.replicate capacity.toNat none)
    .done { m with heap := new.1, data := some new.2, capacity := capacity }
  else .threw .badAlloc m

def block (m : BufferRaw) : Option Block := m.data.bind m.heap.blocks

def write (m : BufferRaw) (block : Block) : Outcome Exc BufferRaw :=
  match m.data.bind fun p => m.heap.store p block with
  | some heap => .done { m with heap := heap }
  | none => .undefined

def memcpy (src : List UInt8) (n : Nat) (m : BufferRaw) : Outcome Exc BufferRaw :=
  match m.block with
  | some block =>
      if n ≤ block.length ∧ n ≤ src.length then
        m.write ((src.take n).map some ++ block.drop n)
      else .undefined
  | none => .undefined

def store (n : Nat) (c : UInt8) (m : BufferRaw) : Outcome Exc BufferRaw :=
  match m.block with
  | some block => if n < block.length then m.write (block.set n (some c)) else .undefined
  | none => .undefined

/-! ## The functions -/

def setCapacity (m : BufferRaw) (capacity : UInt32) (allocOk : Bool) : Outcome Exc BufferRaw :=
  match m.data with
  | none => m.newData capacity allocOk
  | some p =>
      if capacity > m.capacity then (m.deleteData p).bind (newData capacity allocOk)
      else if capacity < 2 * 1024 then .done m
      else if capacity * 2 > m.capacity then .done m
      else (m.deleteData p).bind (newData capacity allocOk)

def setSize (size : UInt32) (m : BufferRaw) : Outcome Exc BufferRaw :=
  if size > m.capacity then .threw .invalidArgument m else .done { m with size := size }

/-- `size` behind the test for 0 in `Assign`. -/
def assignSize (src : List UInt8) (size : UInt32) : UInt32 :=
  if size ≤ 0 then UInt32.ofNat (strlen src) else size

/-- `Assign`, with the bytes behind the pointer that it gets: the source does not lie in the block of
the buffer, which `memcpy` could not copy from and `SetCapacity` may delete. -/
def assign (m : BufferRaw) (src : List UInt8) (size : UInt32) (allocOk : Bool) :
    Outcome Exc BufferRaw :=
  let size := assignSize src size
  (((m.setCapacity (size + 1) allocOk).bind (memcpy src size.toNat)).bind
    (store size.toNat 0)).bind (setSize size)

def construct (heap : Heap Block) (capacity : UInt32) (allocOk : Bool) : Outcome Exc BufferRaw :=
  if capacity ≠ 0 then setCapacity { heap := heap } capacity allocOk else .done { heap := heap }

def destroy (m : BufferRaw) : Outcome Exc BufferRaw :=
  match m.data with
  | none => .done m
  | some p => m.deleteData p

/-- `ToString`, and what `sendmsg` reads through an `iovec`: `size_` bytes from `data_`
on. -/
def bytes (m : BufferRaw) : Option Block :=
  if m.size = 0 then some []
  else
    match m.block with
    | some block => if m.size.toNat ≤ block.length then some (block.take m.size.toNat) else none
    | none => none

variable {m : BufferRaw} {p : Addr} {capacity : UInt32} {allocOk : Bool}

/-- The block behind `data_` has `capacity_` bytes. -/
def BlockOk (m : BufferRaw) : Prop :=
  m.data ≠ none → ∃ block, m.block = some block ∧ block.length = m.capacity.toNat

/-- `SetCapacity(capacity)` puts a new block in the place of one that is there. -/
def Replaces (m : BufferRaw) (capacity : UInt32) : Prop :=
  m.data ≠ none ∧
    (m.capacity < capacity ∨ 2 * 1024 ≤ capacity ∧ capacity * 2 ≤ m.capacity)

/-! ## What each statement does -/

theorem block_of_data (hdata : m.data = some p) : m.block = m.heap.blocks p := by
  rw [block, hdata, Option.bind_some]

theorem deleteData_of_blockOk (h : m.BlockOk) (hdata : m.data = some p) :
    ∃ heap, m.deleteData p = .done { m with heap := heap } ∧ heap.blocks p = none := by
  obtain ⟨block, hblock, -⟩ := h (by rw [hdata]; nofun)
  rw [block_of_data hdata] at hblock
  obtain ⟨heap, hfree, hblocks⟩ := Heap.free_eq_some hblock
  refine ⟨heap, ?_, by rw [hblocks, if_pos rfl]⟩
  unfold deleteData
  rw [hfree]

theorem newData_blockOk (m : BufferRaw) (capacity : UInt32) :
    ∃ m', m.newData capacity true = .done m' ∧ m'.BlockOk ∧ m'.data ≠ none ∧
      m'.capacity = capacity ∧ m'.size = m.size := by
  refine ⟨_, rfl, ?_, nofun, rfl, rfl⟩
  intro _
  exact ⟨_, Heap.blocks_alloc_self _ _, List.length_replicate⟩

theorem setCapacity_of_none (hdata : m.data = none) :
    m.setCapacity capacity allocOk = m.newData capacity allocOk := by
  unfold setCapacity
  rw [hdata]

theorem setCapacity_of_replaces (hdata : m.data = some p) (hreplaces : m.Replaces capacity) :
    m.setCapacity capacity allocOk = (m.deleteData p).bind (newData capacity allocOk) := by
  unfold setCapacity
  rw [hdata]
  dsimp only
  rcases hreplaces.2 with hlarge | ⟨hpage, htwice⟩
  · rw [if_pos hlarge]
  · split
    · rfl
    · rw [if_neg (UInt32.not_lt.2 hpage), if_neg (UInt32.not_lt.2 htwice)]

theorem setCapacity_of_kept (hdata : m.data = some p) (hkept : ¬ m.Replaces capacity) :
    m.setCapacity capacity allocOk = .done m ∧ capacity ≤ m.capacity := by
  have hset : m.data ≠ none := by rw [hdata]; nofun
  have hle : ¬ capacity > m.capacity := fun hlt => hkept ⟨hset, .inl hlt⟩
  refine ⟨?_, UInt32.not_lt.1 hle⟩
  unfold setCapacity
  rw [hdata]
  dsimp only
  rw [if_neg hle]
  split
  · rfl
  · next hpage =>
    rw [if_pos]
    by_contra htwice
    exact hkept ⟨hset, .inr ⟨UInt32.not_lt.1 hpage, UInt32.not_lt.1 htwice⟩⟩

theorem setCapacity_ok (h : m.BlockOk) (capacity : UInt32) :
    ∃ m', m.setCapacity capacity true = .done m' ∧ m'.BlockOk ∧ m'.data ≠ none ∧
      capacity ≤ m'.capacity ∧ m'.size = m.size ∧
      (m' = m ∧ m.data ≠ none ∧ ¬ m.Replaces capacity ∨
        m'.capacity = capacity ∧ (m.data = none ∨ m.Replaces capacity)) := by
  cases hdata : m.data with
  | none =>
      obtain ⟨m', hnew, hok, hset, hcap, hsize⟩ := newData_blockOk m capacity
      rw [setCapacity_of_none hdata]
      exact ⟨m', hnew, hok, hset, by rw [hcap]; exact UInt32.le_refl _, hsize,
        .inr ⟨hcap, .inl rfl⟩⟩
  | some p =>
      by_cases hreplaces : m.Replaces capacity
      · obtain ⟨heap, hdelete, -⟩ := deleteData_of_blockOk h hdata
        obtain ⟨m', hnew, hok, hset, hcap, hsize⟩ :=
          newData_blockOk { m with heap := heap } capacity
        rw [setCapacity_of_replaces hdata hreplaces, hdelete, Outcome.bind_done]
        exact ⟨m', hnew, hok, hset, by rw [hcap]; exact UInt32.le_refl _, hsize,
          .inr ⟨hcap, .inr hreplaces⟩⟩
      · have hset : m.data ≠ none := by rw [hdata]; nofun
        obtain ⟨hkept, hle⟩ := @setCapacity_of_kept m p capacity true hdata hreplaces
        exact ⟨m, hkept, h, hset, hle, rfl, .inl ⟨rfl, by rw [← hdata]; exact hset, hreplaces⟩⟩

theorem write_ok {b : Block} (hblock : m.block = some b) (c : Block) :
    ∃ heap, m.write c = .done { m with heap := heap } ∧
      block { m with heap := heap } = some c := by
  cases hdata : m.data with
  | none =>
      rw [block, hdata] at hblock
      cases hblock
  | some p =>
      rw [block_of_data hdata] at hblock
      obtain ⟨heap, hstore, hblocks⟩ := Heap.store_eq_some hblock c
      refine ⟨heap, ?_, ?_⟩
      · unfold write
        rw [hdata, Option.bind_some, hstore]
      · rw [block, Option.bind_some, hblocks, if_pos rfl]

/-- `Assign` behind its `SetCapacity`: both writes are inside a block that is longer than
`size`, and not otherwise. -/
theorem fill_iff {b : Block} {src : List UInt8} {size : Nat} (hblock : m.block = some b)
    (hsrc : size ≤ src.length) :
    (size < b.length → ∃ heap, (m.memcpy src size).bind (store size 0) =
        .done { m with heap := heap } ∧
      block { m with heap := heap } =
        some ((src.take size).map some ++ (b.drop size).set 0 (some 0))) ∧
    (b.length ≤ size → (m.memcpy src size).bind (store size 0) = .undefined) := by
  have hlen : ((src.take size).map some : Block).length = size := by
    rw [List.length_map, List.length_take, Nat.min_eq_left hsrc]
  have hcopy : size ≤ b.length → ∃ heap, m.memcpy src size = .done { m with heap := heap } ∧
      block { m with heap := heap } = some ((src.take size).map some ++ b.drop size) := by
    intro hle
    obtain ⟨heap, hwrite, hread⟩ := write_ok hblock ((src.take size).map some ++ b.drop size)
    refine ⟨heap, ?_, hread⟩
    unfold memcpy
    rw [hblock]
    dsimp only
    rw [if_pos ⟨hle, hsrc⟩, hwrite]
  constructor
  · intro hlt
    obtain ⟨heap, hdone, hread⟩ := hcopy (Nat.le_of_lt hlt)
    have hnul : ((src.take size).map some ++ b.drop size : Block).set size (some 0) =
        (src.take size).map some ++ (b.drop size).set 0 (some 0) := by
      rw [List.set_append, if_neg (by rw [hlen]; exact Nat.lt_irrefl _), hlen, Nat.sub_self]
    obtain ⟨heap', hwrite, hread'⟩ :=
      write_ok hread ((src.take size).map some ++ (b.drop size).set 0 (some 0))
    refine ⟨heap', ?_, hread'⟩
    rw [hdone, Outcome.bind_done]
    unfold store
    rw [hread]
    dsimp only
    rw [if_pos, hnul, hwrite]
    rw [List.length_append, hlen, List.length_drop]
    omega
  · intro hle
    rcases Nat.lt_or_ge b.length size with hlt | hge
    · have hnone : m.memcpy src size = .undefined := by
        unfold memcpy
        rw [hblock]
        exact if_neg fun hin => absurd hin.1 (Nat.not_le_of_lt hlt)
      rw [hnone]
      rfl
    · obtain ⟨heap, hdone, hread⟩ := hcopy hge
      rw [hdone, Outcome.bind_done]
      unfold store
      rw [hread]
      dsimp only
      rw [if_neg]
      rw [List.length_append, hlen, List.length_drop]
      omega

/-! ## `Assign` -/

/-- What `Assign` leaves of the source `src`, of `size` bytes. -/
structure Assigned (m : BufferRaw) (src : List UInt8) (size : UInt32) : Prop where
  content : ∃ b, m.block = some b ∧ b.length = m.capacity.toNat ∧
    b.take size.toNat = src.map some ∧ b[size.toNat]? = some (some 0)
  inUse : m.size = size
  room : size < m.capacity

theorem lt_of_succ_le {size capacity : UInt32} (hsize : size.toNat < 2 ^ 32 - 1)
    (hle : size + 1 ≤ capacity) : size < capacity := by
  rw [UInt32.le_iff_toNat_le, UInt32.toNat_add] at hle
  rw [UInt32.lt_iff_toNat_lt]
  have hone : (1 : UInt32).toNat = 1 := rfl
  omega

theorem assign_ok (h : m.BlockOk) {src : List UInt8} {size : UInt32}
    (hsrc : (assignSize src size).toNat ≤ src.length)
    (hsmall : (assignSize src size).toNat < 2 ^ 32 - 1) :
    ∃ m', m.assign src size true = .done m' ∧
      m'.Assigned (src.take (assignSize src size).toNat) (assignSize src size) := by
  obtain ⟨m₁, hcap, hok, hdata, hle, -⟩ := setCapacity_ok h (assignSize src size + 1)
  obtain ⟨b, hblock, hlen⟩ := hok hdata
  have hroom := lt_of_succ_le hsmall hle
  have hlt : (assignSize src size).toNat < b.length := by
    rw [hlen]
    exact UInt32.lt_iff_toNat_lt.1 hroom
  obtain ⟨heap, hfill, hread⟩ := (fill_iff hblock hsrc).1 hlt
  have htaken : ((src.take (assignSize src size).toNat).map some : Block).length =
      (assignSize src size).toNat := by
    rw [List.length_map, List.length_take, Nat.min_eq_left hsrc]
  refine ⟨{ m₁ with heap := heap, size := assignSize src size }, ?_, ?_⟩
  · have hset : setSize (assignSize src size) { m₁ with heap := heap } =
        .done { m₁ with heap := heap, size := assignSize src size } :=
      if_neg (UInt32.not_lt.2 (UInt32.le_of_lt hroom))
    show (((m.setCapacity (assignSize src size + 1) true).bind _).bind _).bind _ = _
    rw [hcap, Outcome.bind_done, hfill, Outcome.bind_done, hset]
  · refine ⟨⟨_, hread, ?_, ?_, ?_⟩, rfl, hroom⟩
    · rw [List.length_append, htaken, List.length_set, List.length_drop, ← hlen]
      omega
    · rw [List.take_left' htaken]
    · rw [List.getElem?_append_right (Nat.le_of_eq htaken), htaken, Nat.sub_self,
        List.getElem?_set_self (by rw [List.length_drop]; omega)]

/-- `size + 1` wraps to 0, and `Assign` writes behind the block. -/
theorem assign_wraps (h : m.BlockOk) {src : List UInt8} {size : UInt32}
    (hsrc : (assignSize src size).toNat ≤ src.length)
    (hmax : (assignSize src size).toNat = 2 ^ 32 - 1) :
    m.assign src size true = .undefined := by
  obtain ⟨m₁, hcap, hok, hdata, -, -⟩ := setCapacity_ok h (assignSize src size + 1)
  obtain ⟨b, hblock, hlen⟩ := hok hdata
  have hle : b.length ≤ (assignSize src size).toNat := by
    have hbound := m₁.capacity.toNat_lt
    omega
  show (((m.setCapacity (assignSize src size + 1) true).bind _).bind _).bind _ = _
  rw [hcap, Outcome.bind_done, (fill_iff hblock hsrc).2 hle]
  rfl

/-- `Assign` does what it is for, inside the block, exactly if `size + 1` does not wrap. -/
theorem assign_correct_iff (h : m.BlockOk) {src : List UInt8} {size : UInt32} (hpos : 1 ≤ size)
    (hsrc : src.length = size.toNat) :
    (∃ m', m.assign src size true = .done m' ∧ m'.Assigned src size) ↔
      size.toNat < 2 ^ 32 - 1 := by
  have hexplicit : assignSize src size = size := by
    refine if_neg fun hle => ?_
    rw [UInt32.le_iff_toNat_le] at hpos hle
    exact absurd (Nat.le_trans hpos hle) (by decide)
  constructor
  · rintro ⟨m', hdone, -⟩
    by_contra hge
    have hbound := size.toNat_lt
    have hundefined := @assign_wraps m h src size (Nat.le_of_eq (by rw [hexplicit, hsrc]))
      (by rw [hexplicit]; omega)
    rw [hundefined] at hdone
    cases hdone
  · intro hsmall
    obtain ⟨m', hdone, hassigned⟩ := @assign_ok m h src size
      (Nat.le_of_eq (by rw [hexplicit, hsrc])) (by rw [hexplicit]; exact hsmall)
    rw [hexplicit, ← hsrc, List.take_length] at hassigned
    exact ⟨m', hdone, hassigned⟩

/-- Two characters. -/
theorem assign_correct_iff_two :
    ∃ m', BufferRaw.assign {} [104, 105] 2 true = .done m' ∧ m'.Assigned [104, 105] 2 :=
  (@assign_correct_iff {} (fun hdata => absurd rfl hdata) [104, 105] 2 (by decide) rfl).2
    (by decide)

/-- `2 ^ 32 - 1` characters: the block that is made for them is empty. -/
theorem not_assign_correct_of_max :
    ¬ ∃ m', BufferRaw.assign {} (List.replicate (2 ^ 32 - 1) 0) (2 ^ 32 - 1) true = .done m' ∧
      m'.Assigned (List.replicate (2 ^ 32 - 1) 0) (2 ^ 32 - 1) := by
  rintro ⟨m', hdone, -⟩
  have hmax : (assignSize (List.replicate (2 ^ 32 - 1) 0) (2 ^ 32 - 1)).toNat = 2 ^ 32 - 1 := by
    have hexplicit : assignSize (List.replicate (2 ^ 32 - 1) 0) (2 ^ 32 - 1) = 2 ^ 32 - 1 :=
      if_neg (by decide)
    rw [hexplicit]
    decide
  have hundefined := @assign_wraps {} (fun hdata => absurd rfl hdata)
    (List.replicate (2 ^ 32 - 1) 0) (2 ^ 32 - 1)
    (Nat.le_of_eq (by rw [hmax, List.length_replicate])) hmax
  rw [hundefined] at hdone
  cases hdone

/-! ## Exceptions -/

inductive Op where
  | setCapacity (capacity : UInt32)
  | setSize (size : UInt32)
  | assign (src : List UInt8) (size : UInt32)

def Op.run (m : BufferRaw) (allocOk : Bool) : Op → Outcome Exc BufferRaw
  | setCapacity capacity => m.setCapacity capacity allocOk
  | setSize size => BufferRaw.setSize size m
  | assign src size => m.assign src size allocOk

/-- The capacity that a call asks `SetCapacity` for. -/
def Op.asks : Op → Option UInt32
  | setCapacity capacity => some capacity
  | setSize _ => none
  | assign src size => some (assignSize src size + 1)

theorem fill_not_threw (h : m.BlockOk) (hdata : m.data ≠ none) (src : List UInt8)
    (size : UInt32) (e : Exc) (m' : BufferRaw) :
    ((m.memcpy src size.toNat).bind (store size.toNat 0)).bind (setSize size) ≠ .threw e m' := by
  obtain ⟨b, hblock, hlen⟩ := h hdata
  by_cases hsrc : size.toNat ≤ src.length
  · rcases Nat.lt_or_ge size.toNat b.length with hlt | hge
    · obtain ⟨heap, hfill, -⟩ := (fill_iff hblock hsrc).1 hlt
      have hroom : size ≤ m.capacity := by
        rw [UInt32.le_iff_toNat_le, ← hlen]
        exact Nat.le_of_lt hlt
      have hset : setSize size { m with heap := heap } =
          .done { m with heap := heap, size := size } :=
        if_neg (UInt32.not_lt.2 hroom)
      rw [hfill, Outcome.bind_done, hset]
      nofun
    · rw [(fill_iff hblock hsrc).2 hge]
      nofun
  · have hundefined : m.memcpy src size.toNat = .undefined := by
      unfold memcpy
      rw [hblock]
      exact if_neg fun hin => hsrc hin.2
    rw [hundefined]
    nofun

/-- `SetCapacity` without memory: it does nothing, throws and has done nothing, or has
deleted the block of `data_`. -/
theorem setCapacity_failed (h : m.BlockOk) (capacity : UInt32) :
    (m.data ≠ none ∧ ¬ m.Replaces capacity ∧ m.setCapacity capacity false = .done m) ∨
    (m.data = none ∧ m.setCapacity capacity false = .threw .badAlloc m) ∨
    (m.Replaces capacity ∧ ∃ m', m.setCapacity capacity false = .threw .badAlloc m' ∧
      m'.data = m.data ∧ m'.block = none) := by
  cases hdata : m.data with
  | none => exact .inr (.inl ⟨rfl, setCapacity_of_none hdata⟩)
  | some p =>
      by_cases hreplaces : m.Replaces capacity
      · obtain ⟨heap, hdelete, hgone⟩ := deleteData_of_blockOk h hdata
        refine .inr (.inr ⟨hreplaces, { m with heap := heap }, ?_, hdata, ?_⟩)
        · rw [setCapacity_of_replaces hdata hreplaces, hdelete]
          rfl
        · rw [@block_of_data { m with heap := heap } p hdata]
          exact hgone
      · exact .inl ⟨nofun, hreplaces, (setCapacity_of_kept hdata hreplaces).1⟩

theorem Op.run_threw (h : m.BlockOk) {op : Op} {capacity : UInt32} (hasks : op.asks = some capacity)
    (allocOk : Bool) (e : Exc) (m' : BufferRaw) :
    op.run m allocOk = .threw e m' ↔ m.setCapacity capacity allocOk = .threw e m' := by
  cases op with
  | setCapacity c =>
      cases hasks
      rfl
  | setSize size => cases hasks
  | assign src size =>
      cases hasks
      show (((m.setCapacity (assignSize src size + 1) allocOk).bind _).bind _).bind _ = _ ↔ _
      cases hcap : m.setCapacity (assignSize src size + 1) allocOk with
      | threw e' m₁ => rfl
      | undefined => rfl
      | done m₁ =>
          refine iff_of_false ?_ nofun
          obtain ⟨hok, hdata⟩ : m₁.BlockOk ∧ m₁.data ≠ none := by
            cases allocOk with
            | true =>
                obtain ⟨m₂, hdone, hok, hdata, -⟩ := setCapacity_ok h (assignSize src size + 1)
                rw [hcap] at hdone
                cases hdone
                exact ⟨hok, hdata⟩
            | false =>
                rcases setCapacity_failed h (assignSize src size + 1) with
                  ⟨hdata, -, hdone⟩ | ⟨-, hthrew⟩ | ⟨-, m₂, hthrew, -⟩
                · rw [hcap] at hdone
                  cases hdone
                  exact ⟨h, hdata⟩
                · rw [hcap] at hthrew
                  cases hthrew
                · rw [hcap] at hthrew
                  cases hthrew
          exact fill_not_threw hok hdata src (assignSize src size) e m'

/-- An exception leaves everything as it was, unless `new` fails when the old block has
been deleted already. -/
theorem threw_unchanged_iff (h : m.BlockOk) (op : Op) (allocOk : Bool) :
    (∀ e m', op.run m allocOk = .threw e m' → m' = m) ↔
      ¬ (allocOk = false ∧ ∃ capacity, op.asks = some capacity ∧ m.Replaces capacity) := by
  cases hasks : op.asks with
  | none =>
      refine iff_of_true ?_ (by rintro ⟨-, capacity, hsome, -⟩; cases hsome)
      cases op with
      | setSize size =>
          intro e m' hthrew
          change setSize size m = .threw e m' at hthrew
          unfold setSize at hthrew
          split at hthrew
          · cases hthrew
            rfl
          · cases hthrew
      | setCapacity capacity => cases hasks
      | assign src size => cases hasks
  | some capacity =>
      simp only [Op.run_threw h hasks, Option.some.injEq, exists_eq_left']
      cases allocOk with
      | true =>
          obtain ⟨m', hdone, -⟩ := setCapacity_ok h capacity
          rw [hdone]
          exact iff_of_true nofun (fun hfail => by cases hfail.1)
      | false =>
          rcases setCapacity_failed h capacity with
            ⟨-, hkept, hdone⟩ | ⟨hnone, hthrew⟩ | ⟨hreplaces, m₁, hthrew, hdata, hgone⟩
          · rw [hdone]
            exact iff_of_true nofun fun hfail => hkept hfail.2
          · rw [hthrew]
            refine iff_of_true ?_ fun hfail => hfail.2.1 hnone
            rintro e m' ⟨⟩
            rfl
          · rw [hthrew]
            refine iff_of_false (fun hsame => ?_) (not_not.2 ⟨rfl, hreplaces⟩)
            obtain ⟨b, hblock, -⟩ := h hreplaces.1
            rw [hsame _ _ rfl] at hgone
            rw [hgone] at hblock
            cases hblock

/-- `SetSize` beyond the capacity. -/
theorem threw_unchanged_iff_range :
    (Op.setSize 5).run {} true = .threw .invalidArgument {} ∧
      ∀ e m', (Op.setSize 5).run {} true = .threw e m' → m' = {} :=
  ⟨rfl, (threw_unchanged_iff (fun hdata => absurd rfl hdata) (.setSize 5) true).2
    fun hfail => by cases hfail.1⟩

def fourBytes : BufferRaw where
  heap := (Heap.alloc {} (List.replicate 4 none)).1
  data := some 0
  capacity := 4

/-- `SetCapacity(100)` finds no memory, and `data_` points to a block that is deleted. -/
theorem not_threw_unchanged_of_full :
    construct {} 4 true = .done fourBytes ∧
      ¬ ∀ e m', (Op.setCapacity 100).run fourBytes false = .threw e m' → m' = fourBytes := by
  refine ⟨rfl, fun hsame => ?_⟩
  have hblock := congrArg block (hsame .badAlloc _ rfl)
  exact absurd (congrArg Option.isSome hblock) (by decide)

/-! ## The representation -/

/-- `size_` bytes can be read from `data_` on, and the block has `capacity_` bytes. -/
structure RepOk (m : BufferRaw) : Prop where
  block : m.BlockOk
  empty : m.data = none → m.capacity = 0
  inUse : m.size ≤ m.capacity
  readable : m.bytes.isSome

/-- What the calls rely on: the source has the stated length, below `2 ^ 32 - 1`. -/
def Op.Stated : Op → Prop
  | assign src size => (if size ≤ 0 then strlen src else size.toNat) ≤ src.length ∧
      (if size ≤ 0 then strlen src else size.toNat) < 2 ^ 32 - 1
  | _ => True

/-- A call with memory, whether it throws or not. -/
def step (m : BufferRaw) (op : Op) : Option BufferRaw := (op.run m true).state

/-- A new block that `SetCapacity` puts in the place of the old one holds what is in use. -/
def Keeps (m : BufferRaw) (op : Op) : Prop :=
  ∀ capacity, op = .setCapacity capacity → m.Replaces capacity → m.size ≤ capacity

theorem RepOk.of_inUse (hblock : m.BlockOk) (hempty : m.data = none → m.capacity = 0)
    (hsize : m.size ≤ m.capacity) : m.RepOk where
  block := hblock
  empty := hempty
  inUse := hsize
  readable := by
    unfold bytes
    split
    · rfl
    · next hne =>
      have hdata : m.data ≠ none := by
        intro hnone
        rw [hempty hnone] at hsize
        exact hne (UInt32.le_antisymm hsize (UInt32.zero_le))
      obtain ⟨b, hb, hlen⟩ := hblock hdata
      rw [hb]
      dsimp only
      rw [if_pos]
      · rfl
      · rw [hlen]
        exact UInt32.le_iff_toNat_le.1 hsize

theorem assignSize_toNat {src : List UInt8} {size : UInt32} (h : (Op.assign src size).Stated) :
    (assignSize src size).toNat ≤ src.length ∧ (assignSize src size).toNat < 2 ^ 32 - 1 := by
  unfold assignSize
  unfold Op.Stated at h
  dsimp only at h
  split
  · next hzero =>
    rw [if_pos hzero] at h
    have hexact : (UInt32.ofNat (strlen src)).toNat = strlen src :=
      UInt32.toNat_ofNat_of_lt' (Nat.lt_of_lt_of_le h.2 (by decide))
    rwa [hexact]
  · next hpos => rwa [if_neg hpos] at h

theorem keeps_iff (h : m.RepOk) (op : Op) (hstated : op.Stated) :
    m.Keeps op ↔ ∃ t, m.step op = some t ∧ t.RepOk := by
  cases op with
  | setSize size =>
      refine iff_of_true nofun ?_
      show ∃ t, (setSize size m).state = some t ∧ t.RepOk
      unfold setSize
      split
      · exact ⟨m, rfl, h⟩
      · next hle => exact ⟨_, rfl, RepOk.of_inUse h.block h.empty (UInt32.not_lt.1 hle)⟩
  | assign src size =>
      obtain ⟨hsrc, hsmall⟩ := assignSize_toNat hstated
      obtain ⟨m', hdone, hassigned⟩ := assign_ok h.block hsrc hsmall
      obtain ⟨b, hblock, hlen, -⟩ := hassigned.content
      refine iff_of_true nofun ⟨m', ?_, RepOk.of_inUse (fun _ => ⟨b, hblock, hlen⟩) ?_ ?_⟩
      · show (m.assign src size true).state = some m'
        rw [hdone]
        rfl
      · intro hnone
        rw [block, hnone] at hblock
        cases hblock
      · rw [hassigned.inUse]
        exact UInt32.le_of_lt hassigned.room
  | setCapacity capacity =>
      obtain ⟨m', hdone, hok, hdata, -, hsize, hcases⟩ := setCapacity_ok h.block capacity
      have hstep : m.step (.setCapacity capacity) = some m' := by
        show (m.setCapacity capacity true).state = some m'
        rw [hdone]
        rfl
      rcases hcases with ⟨rfl, -, hkept⟩ | ⟨hcap, hnew⟩
      · refine iff_of_true (fun c hc hreplaces => ?_) ⟨m', hstep, h⟩
        cases hc
        exact absurd hreplaces hkept
      · constructor
        · intro hkeeps
          refine ⟨m', hstep, RepOk.of_inUse hok (fun hnone => absurd hnone hdata) ?_⟩
          rw [hsize, hcap]
          rcases hnew with hnone | hreplaces
          · have hsize := h.inUse
            rw [h.empty hnone] at hsize
            exact UInt32.le_trans hsize UInt32.zero_le
          · exact hkeeps capacity rfl hreplaces
        · rintro ⟨t, ht, hrep⟩ c hc -
          cases hc
          obtain rfl : m' = t := Option.some.inj (hstep.symm.trans ht)
          rw [← hcap, ← hsize]
          exact hrep.inUse

/-- The buffer is well formed all the time exactly if no call of `SetCapacity` replaces the
block by one that is too short for what is in use. -/
theorem rep_ok_iff {heap : Heap Block} {capacity : UInt32}
    (hnew : construct heap capacity true = .done m) {ops : List Op}
    (hstated : ∀ op ∈ ops, op.Stated) :
    (∀ before, before <+: ops → ∃ t, exec step m before = some t ∧ t.RepOk) ↔
      ∃ t, Run step Keeps m ops t := by
  refine exec_always_iff (fun s hs op hop => keeps_iff hs op (hstated op hop)) ?_
  have hempty : BlockOk { heap := heap } := fun hdata => absurd rfl hdata
  unfold construct at hnew
  split at hnew
  · obtain ⟨m', hdone, hok, hdata, -, hsize, -⟩ := setCapacity_ok hempty capacity
    rw [hdone] at hnew
    cases hnew
    refine RepOk.of_inUse hok (fun hnone => absurd hnone hdata) ?_
    rw [hsize]
    exact UInt32.zero_le
  · cases hnew
    exact RepOk.of_inUse hempty (fun _ => rfl) (UInt32.le_refl _)

/-- `SetCapacity(4096)` with 5000 bytes in use. -/
theorem not_rep_ok_of_shrink :
    ¬ ∀ heap m, construct heap 10000 true = .done m →
      ∀ before, before <+: [Op.setSize 5000, .setCapacity 4096] →
        ∃ t, exec step m before = some t ∧ t.RepOk := by
  intro halways
  obtain ⟨t, ht, hrep⟩ := halways {} _ rfl _ (List.prefix_refl _)
  cases ht
  exact absurd hrep.inUse (by decide)

/-- Four bytes, of which one is taken back. -/
theorem rep_ok_iff_four :
    ∃ t, exec step {} [Op.assign [1, 2, 3, 4] 4, .setSize 9, .setSize 3] = some t ∧ t.RepOk := by
  have hkeeps : ∃ t, Run step Keeps {} [Op.assign [1, 2, 3, 4] 4, .setSize 9, .setSize 3] t :=
    ⟨_, .cons nofun rfl (.cons nofun rfl (.cons nofun rfl (.nil _)))⟩
  exact (@rep_ok_iff {} {} 0 rfl _ (by simp [Op.Stated])).2 hkeeps _ (List.prefix_refl _)

end BufferRaw

end CommonLibrary.Net
