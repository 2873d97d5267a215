/-!
# Loops over the answers of the environment

A loop that asks its environment again and again, and stops at the first answer that
tells it to, comes to exactly those answers that have only others to go on before them.
-/

namespace CommonLibrary.Foundation

variable {α : Type} {goesOn : α → Prop} {items before : List α} {item a : α}

/-- The loop comes to `item`, and has had the answers `before` until then. -/
def Reached (goesOn : α → Prop) (items before : List α) (item : α) : Prop :=
  (∃ rest, items = before ++ item :: rest) ∧ ∀ x ∈ before, goesOn x

namespace Reached

theorem head (goesOn : α → Prop) (a : α) (items : List α) : Reached goesOn (a :: items) [] a :=
  ⟨⟨items, rfl⟩, fun x hx => by cases hx⟩

theorem not_nil : ¬ Reached goesOn [] before item := by
  rintro ⟨⟨rest, heq⟩, -⟩
  simp at heq

theorem cons (h : Reached goesOn items before item) (ha : goesOn a) :
    Reached goesOn (a :: items) (a :: before) item := by
  obtain ⟨⟨rest, rfl⟩, hbefore⟩ := h
  refine ⟨⟨rest, rfl⟩, fun x hx => ?_⟩
  rcases List.mem_cons.1 hx with rfl | hx
  · exact ha
  · exact hbefore x hx

theorem cases_cons (h : Reached goesOn (a :: items) before item) :
    (before = [] ∧ item = a) ∨
      goesOn a ∧ ∃ before', before = a :: before' ∧ Reached goesOn items before' item := by
  obtain ⟨⟨rest, heq⟩, hbefore⟩ := h
  cases before with
  | nil =>
      cases heq
      exact .inl ⟨rfl, rfl⟩
  | cons b before =>
      cases heq
      exact .inr ⟨hbefore a List.mem_cons_self, before, rfl,
        ⟨rest, rfl⟩, fun x hx => hbefore x (List.mem_cons_of_mem _ hx)⟩

end Reached

end CommonLibrary.Foundation
