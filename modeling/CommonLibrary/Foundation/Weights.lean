import Mathlib.Algebra.BigOperators.Group.Finset.Basic
import Mathlib.Algebra.Order.BigOperators.Group.Finset

/-!
# Weights of threads

A weight for each program point, added up over a finite set of threads.  A step of a thread
replaces one term of the sum.
-/

namespace CommonLibrary.Foundation

variable {τ π : Type} {threads more : Finset τ} {pc pc' : τ → π} {w : π → Nat} {q : π} {t : τ}

/-- What the points of `threads` weigh together. -/
def weight (threads : Finset τ) (w : π → Nat) (pc : τ → π) : Nat := ∑ t ∈ threads, w (pc t)

theorem weight_update [DecidableEq τ] (w : π → Nat) (pc : τ → π) (q : π) (ht : t ∈ threads) :
    weight threads w (Function.update pc t q) + w (pc t) = weight threads w pc + w q := by
  have hothers : ∑ u ∈ threads.erase t, w (Function.update pc t q u) =
      ∑ u ∈ threads.erase t, w (pc u) := by
    apply Finset.sum_congr rfl
    intro u hu
    rw [Function.update_of_ne (Finset.ne_of_mem_erase hu)]
  have hafter := Finset.sum_erase_add threads (fun u => w (Function.update pc t q u)) ht
  have hbefore := Finset.sum_erase_add threads (fun u => w (pc u)) ht
  rw [hothers] at hafter
  simp only [Function.update_self] at hafter
  unfold weight
  omega

theorem weight_le_add {k : Nat} (h : ∀ t ∈ threads, w (pc' t) ≤ w (pc t) + k) :
    weight threads w pc' ≤ weight threads w pc + k * threads.card := by
  calc weight threads w pc' ≤ ∑ t ∈ threads, (w (pc t) + k) := Finset.sum_le_sum h
    _ = weight threads w pc + threads.card * k := by
      rw [Finset.sum_add_distrib, Finset.sum_const_nat fun _ _ => rfl]
      rfl
    _ = weight threads w pc + k * threads.card := by rw [Nat.mul_comm]

theorem weight_subset (hsub : threads ⊆ more) (hzero : ∀ t, t ∉ threads → w (pc t) = 0) :
    weight more w pc = weight threads w pc :=
  (Finset.sum_subset hsub fun t _ ht => hzero t ht).symm

theorem exists_of_weight_pos (h : 0 < weight threads w pc) : ∃ t ∈ threads, 0 < w (pc t) := by
  by_contra hnone
  have hzero : weight threads w pc = 0 := by
    apply Finset.sum_eq_zero
    intro t ht
    by_contra hpos
    exact hnone ⟨t, ht, Nat.pos_of_ne_zero hpos⟩
  rw [hzero] at h
  exact Nat.lt_irrefl 0 h

theorem le_weight (ht : t ∈ threads) : w (pc t) ≤ weight threads w pc :=
  Finset.single_le_sum (f := fun u => w (pc u)) (fun _ _ => Nat.zero_le _) ht

end CommonLibrary.Foundation
