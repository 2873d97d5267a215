import CommonLibrary.Foundation.Heap
import Mathlib.Data.List.Nodup
import Mathlib.Data.List.Perm.Subperm

/-!
# Chains of nodes

A node holds a value and a pointer to the next node, which may be null.  A chain is given by
its cells, the addresses of its nodes with the values that they hold.
-/

namespace CommonLibrary.Foundation

structure Node (α : Type) where
  data : α
  next : Option Addr := none

variable {α : Type} {h h' : Heap (Node α)} {p q r : Option Addr} {a b : Addr} {x : α}
  {c : Addr × α} {cs ds : List (Addr × α)} {n : Node α}

/-- From `p` the pointers lead over the nodes of `cs` to `q`. -/
def Chain (h : Heap (Node α)) : Option Addr → Option Addr → List (Addr × α) → Prop
  | p, q, [] => p = q
  | p, q, c :: cs =>
      p = some c.1 ∧ ∃ next, h.blocks c.1 = some ⟨c.2, next⟩ ∧ Chain h next q cs

namespace Chain

theorem cons {next : Option Addr} (hc : h.blocks a = some ⟨x, next⟩)
    (hrest : Chain h next q cs) : Chain h (some a) q ((a, x) :: cs) :=
  ⟨rfl, next, hc, hrest⟩

theorem append_iff : Chain h p r (cs ++ ds) ↔ ∃ q, Chain h p q cs ∧ Chain h q r ds := by
  induction cs generalizing p with
  | nil =>
      constructor
      · exact fun hds => ⟨p, rfl, hds⟩
      · rintro ⟨q, rfl, hds⟩
        exact hds
  | cons c cs ih =>
      constructor
      · rintro ⟨hp, next, hc, hrest⟩
        obtain ⟨q, hcs, hds⟩ := ih.1 hrest
        exact ⟨q, ⟨hp, next, hc, hcs⟩, hds⟩
      · rintro ⟨q, ⟨hp, next, hc, hcs⟩, hds⟩
        exact ⟨hp, next, hc, ih.2 ⟨q, hcs, hds⟩⟩

theorem snoc_iff :
    Chain h p q (cs ++ [c]) ↔ Chain h p (some c.1) cs ∧ h.blocks c.1 = some ⟨c.2, q⟩ := by
  rw [append_iff]
  constructor
  · rintro ⟨_, hcs, rfl, next, hc, rfl⟩
    exact ⟨hcs, hc⟩
  · rintro ⟨hcs, hc⟩
    exact ⟨some c.1, hcs, rfl, q, hc, rfl⟩

theorem frame (hcs : Chain h p q cs)
    (hsame : ∀ c ∈ cs, h'.blocks c.1 = h.blocks c.1) : Chain h' p q cs := by
  induction cs generalizing p with
  | nil => exact hcs
  | cons c cs ih =>
      obtain ⟨hp, next, hc, hrest⟩ := hcs
      refine ⟨hp, next, ?_, ih hrest fun d hd => hsame d (List.mem_cons_of_mem _ hd)⟩
      rw [hsame c List.mem_cons_self]
      exact hc

theorem live (hcs : Chain h p q cs) (hc : c ∈ cs) :
    ∃ next, h.blocks c.1 = some ⟨c.2, next⟩ := by
  induction cs generalizing p with
  | nil => cases hc
  | cons d cs ih =>
      obtain ⟨-, next, hd, hrest⟩ := hcs
      rcases List.mem_cons.1 hc with rfl | hc
      · exact ⟨next, hd⟩
      · exact ih hrest hc

theorem eq_none_iff (hcs : Chain h p none cs) : p = none ↔ cs = [] := by
  cases cs with
  | nil => exact iff_of_true hcs rfl
  | cons c cs =>
      rw [hcs.1]
      exact iff_of_false (Option.some_ne_none _) (List.cons_ne_nil _ _)

theorem length_le (hcs : Chain h p q cs) (hnodup : (cs.map Prod.fst).Nodup) :
    cs.length ≤ h.next := by
  have hsub : cs.map Prod.fst ⊆ List.range h.next := by
    intro b hb
    obtain ⟨c, hc, rfl⟩ := List.mem_map.1 hb
    obtain ⟨next, hlive⟩ := hcs.live hc
    exact List.mem_range.2 (Heap.lt_next hlive)
  calc cs.length = (cs.map Prod.fst).length := (List.length_map _).symm
    _ ≤ (List.range h.next).length := (hnodup.subperm hsub).length_le
    _ = h.next := List.length_range

end Chain

/-! ## Loops over a chain -/

/-- The values that a loop comes to which follows the pointers from `p` to null, for at most
`fuel` nodes; `none`: it has followed a bad pointer, or has not ended. -/
def visit (h : Heap (Node α)) : Nat → Option Addr → Option (List α)
  | _, none => some []
  | 0, some _ => none
  | fuel + 1, some a =>
      (h.blocks a).bind fun node => (visit h fuel node.next).map (node.data :: ·)

theorem visit_eq_some (hcs : Chain h p none cs) {fuel : Nat} (hfuel : cs.length ≤ fuel) :
    visit h fuel p = some (cs.map Prod.snd) := by
  induction cs generalizing p fuel with
  | nil =>
      obtain rfl : p = none := hcs
      cases fuel <;> rfl
  | cons c cs ih =>
      obtain ⟨rfl, next, hc, hrest⟩ := hcs
      obtain ⟨fuel, rfl⟩ := Nat.exists_eq_succ_of_ne_zero (Nat.ne_zero_of_lt hfuel)
      rw [visit, hc, Option.bind_some, ih hrest (Nat.le_of_succ_le_succ hfuel)]
      rfl

def nth (h : Heap (Node α)) : Nat → Option Addr → Option α
  | _, none => none
  | 0, some a => (h.blocks a).map Node.data
  | pos + 1, some a => (h.blocks a).bind fun node => nth h pos node.next

theorem nth_eq (hcs : Chain h p none cs) (pos : Nat) :
    nth h pos p = (cs.map Prod.snd)[pos]? := by
  induction cs generalizing p pos with
  | nil =>
      obtain rfl : p = none := hcs
      cases pos <;> rfl
  | cons c cs ih =>
      obtain ⟨rfl, next, hc, hrest⟩ := hcs
      cases pos with
      | zero =>
          rw [nth, hc]
          rfl
      | succ pos =>
          rw [nth, hc, Option.bind_some, ih hrest]
          rfl

/-- A loop that deletes the nodes that it comes to, and which these are. -/
def freeAll : Nat → Heap (Node α) → Option Addr → Option (Heap (Node α) × List Addr)
  | _, h, none => some (h, [])
  | 0, _, some _ => none
  | fuel + 1, h, some a =>
      (h.blocks a).bind fun node => (h.free a).bind fun h =>
        (freeAll fuel h node.next).map fun r => (r.1, a :: r.2)

theorem freeAll_eq_some (hcs : Chain h p none cs) (hnodup : (cs.map Prod.fst).Nodup)
    {fuel : Nat} (hfuel : cs.length ≤ fuel) :
    ∃ h', freeAll fuel h p = some (h', cs.map Prod.fst) ∧ h'.next = h.next ∧
      ∀ b, h'.blocks b = if b ∈ cs.map Prod.fst then none else h.blocks b := by
  induction cs generalizing h p fuel with
  | nil =>
      obtain rfl : p = none := hcs
      refine ⟨h, ?_, rfl, fun b => ?_⟩
      · cases fuel <;> rfl
      · simp
  | cons c cs ih =>
      obtain ⟨rfl, next, hc, hrest⟩ := hcs
      obtain ⟨fuel, rfl⟩ := Nat.exists_eq_succ_of_ne_zero (Nat.ne_zero_of_lt hfuel)
      obtain ⟨hout, hnodup⟩ := List.nodup_cons.1 hnodup
      obtain ⟨g, hfree, hg⟩ := Heap.free_eq_some hc
      have hkept : Chain g next none cs := hrest.frame fun d hd => by
        rw [hg, if_neg]
        rintro heq
        exact hout (heq ▸ List.mem_map_of_mem hd)
      obtain ⟨h', hall, hnext, hblocks⟩ := ih hkept hnodup (Nat.le_of_succ_le_succ hfuel)
      refine ⟨h', ?_, hnext.trans (Heap.next_free hfree), fun b => ?_⟩
      · rw [freeAll, hc, Option.bind_some, hfree, Option.bind_some, hall]
        rfl
      · have hmem : b ∈ (c :: cs).map Prod.fst ↔ b = c.1 ∨ b ∈ cs.map Prod.fst := List.mem_cons
        rw [hblocks, hg]
        by_cases hin : b ∈ cs.map Prod.fst
        · rw [if_pos hin, if_pos (hmem.2 (.inr hin))]
        · rw [if_neg hin]
          by_cases hb : b = c.1
          · rw [if_pos hb, if_pos (hmem.2 (.inl hb))]
          · rw [if_neg hb, if_neg fun hor => (hmem.1 hor).elim hb hin]

def setNext (h : Heap (Node α)) (a : Addr) (next : Option Addr) : Option (Heap (Node α)) :=
  (h.blocks a).bind fun node => h.store a { node with next := next }

theorem setNext_eq_some (ha : h.blocks a = some n) (next : Option Addr) :
    ∃ h', setNext h a next = some h' ∧ h'.next = h.next ∧
      ∀ b, h'.blocks b = if b = a then some { n with next := next } else h.blocks b := by
  obtain ⟨h', hstore, hblocks⟩ := Heap.store_eq_some ha { n with next := next }
  refine ⟨h', ?_, Heap.next_store hstore, hblocks⟩
  rw [setNext, ha]
  exact hstore

end CommonLibrary.Foundation
