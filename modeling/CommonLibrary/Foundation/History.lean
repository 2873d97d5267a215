import Mathlib.Data.List.Induction

/-!
# Histories

A history is the list of the events so far, in order.  What is said about an event
speaks of the events before it.
-/

namespace CommonLibrary.Foundation

variable {ε : Type} {Q : List ε → ε → Prop}

/-- Every event of the history met `Q` when it was added. -/
def EachOk (Q : List ε → ε → Prop) (trace : List ε) : Prop :=
  ∀ t e u, trace = t ++ e :: u → Q t e

namespace EachOk

theorem nil : EachOk Q [] := by
  intro t e u h
  simp at h

theorem snoc {trace : List ε} {e : ε} (h : EachOk Q trace) (he : Q trace e) :
    EachOk Q (trace ++ [e]) := by
  intro t e' u heq
  rcases List.eq_nil_or_concat u with rfl | ⟨u, x, rfl⟩
  · obtain ⟨rfl, hlast⟩ := List.append_inj' heq rfl
    cases hlast
    exact he
  · rw [List.concat_eq_append, ← List.cons_append, ← List.append_assoc] at heq
    exact h t e' u (List.append_inj' heq rfl).1

theorem append (hmono : ∀ t u e, Q t e → Q (t ++ u) e) {trace es : List ε}
    (h : EachOk Q trace) (hes : ∀ e ∈ es, Q trace e) : EachOk Q (trace ++ es) := by
  induction es using List.reverseRecOn with
  | nil => rwa [List.append_nil]
  | append_singleton es e ih =>
      rw [← List.append_assoc]
      apply snoc (ih fun e' he' => hes e' (List.mem_append_left _ he'))
      exact hmono _ _ _ (hes e (by simp))

theorem append_free {trace es : List ε} (h : EachOk Q trace) (hes : ∀ e ∈ es, ∀ t, Q t e) :
    EachOk Q (trace ++ es) := by
  induction es using List.reverseRecOn with
  | nil => rwa [List.append_nil]
  | append_singleton es e ih =>
      rw [← List.append_assoc]
      apply snoc (ih fun e' he' => hes e' (List.mem_append_left _ he'))
      exact hes e (by simp) _

theorem of_append {t u : List ε} (h : EachOk Q (t ++ u)) : EachOk Q t := by
  intro t' e u' heq
  exact h t' e (u' ++ u) (by rw [heq, List.append_assoc, List.cons_append])

theorem countP_le_one {p : ε → Bool} {trace : List ε}
    (h : EachOk (fun t e => p e = true → ∀ e' ∈ t, p e' = false) trace) :
    trace.countP p ≤ 1 := by
  induction trace using List.reverseRecOn with
  | nil => simp
  | append_singleton trace e ih =>
      rw [List.countP_append, List.countP_singleton]
      by_cases he : p e = true
      · have hnone : trace.countP p = 0 := by
          rw [List.countP_eq_zero]
          intro e' he'
          rw [h trace e [] rfl he e' he']
          exact Bool.false_ne_true
        simp [hnone, he]
      · rw [if_neg he]
        exact ih h.of_append

end EachOk

end CommonLibrary.Foundation
