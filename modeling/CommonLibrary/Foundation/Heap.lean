import Mathlib.Logic.Function.Basic
import Mathlib.Tactic.SplitIfs

/-!
# A heap of blocks

`new` makes a block at an address that has never been used, and `delete` takes it away.
What is done to a block that is not there has no defined outcome, so these operations are
partial.  What a statement of a program does to its state is an `Outcome`.
-/

namespace CommonLibrary.Foundation

abbrev Addr := Nat

structure Heap (α : Type) where
  blocks : Addr → Option α := fun _ => none
  next : Addr := 0
  unused : ∀ p, next ≤ p → blocks p = none := by exact fun _ _ => rfl

namespace Heap

variable {α : Type} {h : Heap α} {p : Addr} {a : α}

theorem lt_next (hp : h.blocks p = some a) : p < h.next := by
  by_contra hge
  have hnone := h.unused p (Nat.le_of_not_lt hge)
  rw [hnone] at hp
  cases hp

/-- `new`, with what the block holds at first. -/
def alloc (h : Heap α) (a : α) : Heap α × Addr :=
  ({ blocks := Function.update h.blocks h.next (some a)
     next := h.next + 1
     unused := by
       intro p hp
       rw [Function.update_of_ne (Nat.ne_of_gt hp)]
       exact h.unused p (Nat.le_of_lt hp) }, h.next)

def set (h : Heap α) (p : Addr) (b : Option α) (hp : (h.blocks p).isSome) : Heap α where
  blocks := Function.update h.blocks p b
  next := h.next
  unused := by
    intro q hq
    obtain ⟨a, ha⟩ := Option.isSome_iff_exists.1 hp
    rw [Function.update_of_ne (Nat.ne_of_gt (Nat.lt_of_lt_of_le (lt_next ha) hq))]
    exact h.unused q hq

def free (h : Heap α) (p : Addr) : Option (Heap α) :=
  if hp : (h.blocks p).isSome then some (h.set p none hp) else none

def store (h : Heap α) (p : Addr) (a : α) : Option (Heap α) :=
  if hp : (h.blocks p).isSome then some (h.set p (some a) hp) else none

@[simp] theorem blocks_alloc_self (h : Heap α) (a : α) :
    (h.alloc a).1.blocks (h.alloc a).2 = some a := Function.update_self _ _ _

theorem free_eq_some (hp : h.blocks p = some a) :
    ∃ h', h.free p = some h' ∧ ∀ q, h'.blocks q = if q = p then none else h.blocks q :=
  ⟨_, dif_pos (by rw [hp]; rfl), fun _ => Function.update_apply _ _ _ _⟩

theorem store_eq_some (hp : h.blocks p = some a) (b : α) :
    ∃ h', h.store p b = some h' ∧ ∀ q, h'.blocks q = if q = p then some b else h.blocks q :=
  ⟨_, dif_pos (by rw [hp]; rfl), fun _ => Function.update_apply _ _ _ _⟩

theorem blocks_free {h' : Heap α} (hfree : h.free p = some h') :
    h'.blocks = Function.update h.blocks p none := by
  obtain ⟨hp, heq⟩ := Option.dite_none_right_eq_some.1 hfree
  cases heq
  rfl

theorem blocks_store {h' : Heap α} (hstore : h.store p a = some h') :
    h'.blocks = Function.update h.blocks p (some a) := by
  obtain ⟨hp, heq⟩ := Option.dite_none_right_eq_some.1 hstore
  cases heq
  rfl

theorem next_free {h' : Heap α} (hfree : h.free p = some h') : h'.next = h.next := by
  unfold free at hfree
  split at hfree
  · cases hfree
    rfl
  · cases hfree

theorem next_store {h' : Heap α} (hstore : h.store p a = some h') : h'.next = h.next := by
  unfold store at hstore
  split at hstore
  · cases hstore
    rfl
  · cases hstore

theorem blocks_alloc_of_ne (a : α) (hp : p ≠ h.next) : (h.alloc a).1.blocks p = h.blocks p :=
  Function.update_of_ne hp _ _

end Heap

/-- How a statement ends: it is done, an exception leaves it, or it did something whose
outcome is not defined. -/
inductive Outcome (ε σ : Type) where
  | done (s : σ)
  | threw (e : ε) (s : σ)
  | undefined

namespace Outcome

variable {ε σ : Type}

def bind : Outcome ε σ → (σ → Outcome ε σ) → Outcome ε σ
  | done s, f => f s
  | threw e s, _ => threw e s
  | undefined, _ => undefined

@[simp] theorem bind_done (s : σ) (f : σ → Outcome ε σ) : (done s).bind f = f s := rfl

def state : Outcome ε σ → Option σ
  | done s => some s
  | threw _ s => some s
  | undefined => none

end Outcome

end CommonLibrary.Foundation
