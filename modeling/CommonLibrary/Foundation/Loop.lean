/-!
# Loops without a condition

A `while (true)` is its body, which leaves the loop with a result or goes on with a state.
-/

namespace CommonLibrary.Foundation

variable {σ ρ : Type} {body : σ → ρ ⊕ σ} {I : σ → Prop} {s t : σ} {r : ρ}

/-- At most `fuel` rounds; `none`: the loop has not ended. -/
def rounds (body : σ → ρ ⊕ σ) : Nat → σ → Option ρ
  | 0, _ => none
  | fuel + 1, s =>
      match body s with
      | .inl r => some r
      | .inr t => rounds body fuel t

def Ends (body : σ → ρ ⊕ σ) (s : σ) : Prop := ∃ fuel, (rounds body fuel s).isSome

theorem rounds_leave (h : body s = .inl r) (fuel : Nat) : rounds body (fuel + 1) s = some r := by
  rw [rounds, h]

theorem rounds_again (h : body s = .inr t) (fuel : Nat) :
    rounds body (fuel + 1) s = rounds body fuel t := by
  rw [rounds, h]

theorem rounds_congr (h : body s = body t) (fuel : Nat) :
    rounds body fuel s = rounds body fuel t := by
  cases fuel with
  | zero => rfl
  | succ fuel => rw [rounds, rounds, h]

theorem rounds_none (h : body s = .inr s) (fuel : Nat) : rounds body fuel s = none := by
  induction fuel with
  | zero => rfl
  | succ fuel ih => rw [rounds_again h, ih]

theorem not_ends (hbody : ∀ s, I s → ∃ t, body s = .inr t ∧ I t) (hs : I s) : ¬ Ends body s := by
  rintro ⟨fuel, h⟩
  induction fuel generalizing s with
  | zero => cases h
  | succ fuel ih =>
      obtain ⟨t, hagain, ht⟩ := hbody s hs
      rw [rounds_again hagain] at h
      exact ih ht h

/-- A loop that goes through the states `f 0`, `f 1`, … and leaves in the first that meets `L`. -/
theorem rounds_eq_some_iff {f : Nat → σ} {g : Nat → ρ} {L : Nat → Prop}
    (hleave : ∀ k, L k → body (f k) = .inl (g k))
    (hagain : ∀ k, ¬ L k → body (f k) = .inr (f (k + 1))) {fuel : Nat} :
    rounds body fuel (f 0) = some r ↔
      ∃ m, m < fuel ∧ L m ∧ (∀ j, j < m → ¬ L j) ∧ r = g m := by
  have hfrom : ∀ k, rounds body fuel (f k) = some r ↔
      ∃ m, m < fuel ∧ L (k + m) ∧ (∀ j, j < m → ¬ L (k + j)) ∧ r = g (k + m) := by
    induction fuel with
    | zero =>
        intro k
        exact iff_of_false (fun h => by cases h) fun ⟨m, hm, _⟩ => Nat.not_lt_zero m hm
    | succ fuel ih =>
        intro k
        by_cases hk : L k
        · rw [rounds_leave (hleave k hk)]
          constructor
          · intro h
            exact ⟨0, Nat.succ_pos _, hk, fun j hj => absurd hj (Nat.not_lt_zero j),
              (Option.some.inj h).symm⟩
          · rintro ⟨m, -, -, hfirst, rfl⟩
            cases m with
            | zero => rfl
            | succ m => exact absurd hk (hfirst 0 (Nat.succ_pos m))
        · rw [rounds_again (hagain k hk), ih]
          have hshift : ∀ j, k + 1 + j = k + (j + 1) := by
            intro j
            omega
          simp only [hshift]
          constructor
          · rintro ⟨m, hm, hL, hfirst, rfl⟩
            refine ⟨m + 1, Nat.succ_lt_succ hm, hL, fun j hj => ?_, rfl⟩
            cases j with
            | zero => exact hk
            | succ j => exact hfirst j (Nat.lt_of_succ_lt_succ hj)
          · rintro ⟨m, hm, hL, hfirst, rfl⟩
            cases m with
            | zero => exact absurd hL hk
            | succ m =>
                exact ⟨m, Nat.lt_of_succ_lt_succ hm, hL,
                  fun j hj => hfirst (j + 1) (Nat.succ_lt_succ hj), rfl⟩
  have hstart := hfrom 0
  simp only [Nat.zero_add] at hstart
  exact hstart

theorem ends_of_measure (measure : σ → Nat)
    (hbody : ∀ s t, I s → body s = .inr t → I t ∧ measure t < measure s) (hs : I s) :
    Ends body s := by
  have hfuel : ∀ fuel s, I s → measure s < fuel → (rounds body fuel s).isSome := by
    intro fuel
    induction fuel with
    | zero => exact fun s _ hlt => absurd hlt (Nat.not_lt_zero _)
    | succ fuel ih =>
        intro s hs hlt
        cases hround : body s with
        | inl r => rw [rounds_leave hround]; rfl
        | inr t =>
            obtain ⟨ht, hless⟩ := hbody s t hs hround
            rw [rounds_again hround]
            exact ih t ht (by omega)
  exact ⟨measure s + 1, hfuel _ s hs (Nat.lt_succ_self _)⟩

end CommonLibrary.Foundation
