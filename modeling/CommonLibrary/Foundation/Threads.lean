import Mathlib.Data.Finset.Card
import Mathlib.Logic.Function.Basic

/-!
# Counting threads

A program counter for every thread, of which there may be infinitely many.  Only finitely
many of them are at a program point that they have to be led to, and one step of a thread
changes their number by one.
-/

namespace CommonLibrary.Foundation

variable {τ π : Type} [DecidableEq τ] {pc : τ → π} {p q : π} {n : Nat} {t : τ}

/-- `n` threads are at the program point `p`. -/
def CountAt (pc : τ → π) (p : π) (n : Nat) : Prop :=
  ∃ s : Finset τ, s.card = n ∧ ∀ t, t ∈ s ↔ pc t = p

namespace CountAt

omit [DecidableEq τ] in
theorem zero (hnone : ∀ t, pc t ≠ p) : CountAt pc p 0 := by
  refine ⟨∅, rfl, fun t => ?_⟩
  simp [hnone t]

omit [DecidableEq τ] in
theorem eq_zero (h : CountAt pc p n) (hnone : ∀ t, pc t ≠ p) : n = 0 := by
  obtain ⟨s, hcard, hmem⟩ := h
  rw [← hcard, Finset.card_eq_zero, Finset.eq_empty_iff_forall_notMem]
  intro t ht
  exact hnone t ((hmem t).1 ht)

theorem enter (h : CountAt pc p n) (ht : pc t ≠ p) :
    CountAt (Function.update pc t p) p (n + 1) := by
  obtain ⟨s, hcard, hmem⟩ := h
  refine ⟨insert t s, ?_, fun u => ?_⟩
  · rw [Finset.card_insert_of_notMem fun hin => ht ((hmem t).1 hin), hcard]
  · rw [Finset.mem_insert, Function.update_apply, hmem u]
    by_cases hu : u = t
    · simp [hu]
    · simp [hu]

theorem leave (h : CountAt pc p n) (ht : pc t = p) (hq : q ≠ p) :
    0 < n ∧ CountAt (Function.update pc t q) p (n - 1) := by
  obtain ⟨s, hcard, hmem⟩ := h
  have hin : t ∈ s := (hmem t).2 ht
  refine ⟨hcard ▸ Finset.card_pos.2 ⟨t, hin⟩, s.erase t, ?_, fun u => ?_⟩
  · rw [Finset.card_erase_of_mem hin, hcard]
  · rw [Finset.mem_erase, Function.update_apply, hmem u]
    by_cases hu : u = t
    · simp [hu, hq]
    · simp [hu]

theorem pass (h : CountAt pc p n) (ht : pc t ≠ p) (hq : q ≠ p) :
    CountAt (Function.update pc t q) p n := by
  obtain ⟨s, hcard, hmem⟩ := h
  refine ⟨s, hcard, fun u => ?_⟩
  rw [Function.update_apply, hmem u]
  by_cases hu : u = t
  · simp [hu, ht, hq]
  · simp [hu]

end CountAt

end CommonLibrary.Foundation
