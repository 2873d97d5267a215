/-!
# Runs of a partial step function

A system is a state type, a type of actions and a step function that answers
`none` where the action is not possible.  `Run` collects the runs whose steps all
meet a side condition on the state and the action; `exec` evaluates one.
-/

namespace CommonLibrary.Foundation

variable {σ α : Type}

/-- `Run step C s acts t`: the actions `acts` lead from `s` to `t`, and each of
them met the condition `C` in the state it was taken in. -/
inductive Run (step : σ → α → Option σ) (C : σ → α → Prop) :
    σ → List α → σ → Prop
  | nil (s : σ) : Run step C s [] s
  | cons {s t u : σ} {a : α} {acts : List α} (hcond : C s a)
      (hstep : step s a = some t) (hrest : Run step C t acts u) :
      Run step C s (a :: acts) u

def total (cost : α → Nat) : List α → Nat
  | [] => 0
  | a :: acts => cost a + total cost acts

theorem total_zero (acts : List α) : total (fun _ => 0) acts = 0 := by
  induction acts with
  | nil => rfl
  | cons a acts ih => exact (Nat.zero_add _).trans ih

theorem total_ite (p : α → Bool) (k : Nat) (acts : List α) :
    total (fun a => if p a then k else 0) acts = k * acts.countP p := by
  induction acts with
  | nil => rfl
  | cons a acts ih =>
      rw [total, ih, List.countP_cons, Nat.mul_add, Nat.add_comm]
      cases p a with
      | true => rw [if_pos rfl, if_pos rfl, Nat.mul_one]
      | false => rfl

namespace Run

variable {step : σ → α → Option σ} {C D : σ → α → Prop}

theorem invariant {I : σ → Prop}
    (hpres : ∀ s a t, I s → C s a → step s a = some t → I t)
    {s t : σ} {acts : List α} (hrun : Run step C s acts t) (hs : I s) : I t := by
  induction hrun with
  | nil s => exact hs
  | cons hcond hstep _ ih => exact ih (hpres _ _ _ hs hcond hstep)

theorem strengthen {s t : σ} {acts : List α} (hrun : Run step C s acts t)
    (hD : ∀ a ∈ acts, ∀ s, D s a) : Run step D s acts t := by
  induction hrun with
  | nil s => exact .nil s
  | cons _ hstep _ ih =>
      exact .cons (hD _ List.mem_cons_self _) hstep
        (ih fun a ha => hD a (List.mem_cons_of_mem _ ha))

theorem mono (hCD : ∀ s a, C s a → D s a) {s t : σ} {acts : List α}
    (hrun : Run step C s acts t) : Run step D s acts t := by
  induction hrun with
  | nil s => exact .nil s
  | cons hcond hstep _ ih => exact .cons (hCD _ _ hcond) hstep ih

/-- Where a step keeps `I` exactly if it meets `C`, a run keeps `I` exactly if its steps do. -/
theorem keeps_iff {I J : σ → Prop}
    (hstep : ∀ s a t, J s → step s a = some t → J t ∧ (I t ↔ I s ∧ C s a))
    {s t : σ} {acts : List α} (hrun : Run step D s acts t) (hs : J s) :
    I t ↔ I s ∧ Run step C s acts t := by
  induction hrun with
  | nil s => exact ⟨fun h => ⟨h, .nil s⟩, And.left⟩
  | @cons s t u a acts _ htaken _ ih =>
      obtain ⟨ht, hkeeps⟩ := hstep s a t hs htaken
      rw [ih ht, hkeeps, and_assoc]
      refine and_congr_right fun _ => ⟨fun ⟨hcond, hrest⟩ => .cons hcond htaken hrest, ?_⟩
      rintro (_ | ⟨hcond, htaken', hrest⟩)
      obtain rfl : t = _ := Option.some.inj (htaken.symm.trans htaken')
      exact ⟨hcond, hrest⟩

theorem simulates {τ : Type} {f : τ → α → τ} {R : σ → τ → Prop}
    (hstep : ∀ s x a t, R s x → C s a → step s a = some t → R t (f x a))
    {s t : σ} {acts : List α} (hrun : Run step C s acts t) {x : τ} (hx : R s x) :
    R t (acts.foldl f x) := by
  induction hrun generalizing x with
  | nil s => exact hx
  | cons hcond htaken _ ih => exact ih (hstep _ _ _ _ hx hcond htaken)

/-- A machine whose steps another machine takes too, or does not see. -/
theorem projects {τ β : Type} {step' : τ → β → Option τ} {C' : τ → β → Prop} {f : σ → τ}
    (hstep : ∀ s a t, C s a → step s a = some t →
      f t = f s ∨ ∃ b, C' (f s) b ∧ step' (f s) b = some (f t))
    {s t : σ} {acts : List α} (hrun : Run step C s acts t) :
    ∃ acts', Run step' C' (f s) acts' (f t) := by
  induction hrun with
  | nil s => exact ⟨[], .nil _⟩
  | cons hcond htaken _ ih =>
      obtain ⟨acts', hrest⟩ := ih
      rcases hstep _ _ _ hcond htaken with hsame | ⟨b, hb, htaken'⟩
      · exact ⟨acts', hsame ▸ hrest⟩
      · exact ⟨b :: acts', .cons hb htaken' hrest⟩

theorem append {s t u : σ} {acts more : List α} (hrun : Run step C s acts t)
    (hmore : Run step C t more u) : Run step C s (acts ++ more) u := by
  induction hrun with
  | nil s => exact hmore
  | cons hcond hstep _ ih => exact .cons hcond hstep (ih hmore)

/-- A machine for each of whose steps another machine takes a run. -/
theorem refines {τ β : Type} {step' : τ → β → Option τ} {C' : τ → β → Prop} {f : σ → τ}
    {I : σ → Prop}
    (hstep : ∀ s a t, I s → C s a → step s a = some t →
      I t ∧ ∃ acts', Run step' C' (f s) acts' (f t))
    {s t : σ} {acts : List α} (hrun : Run step C s acts t) (hs : I s) :
    ∃ acts', Run step' C' (f s) acts' (f t) := by
  induction hrun with
  | nil s => exact ⟨[], .nil _⟩
  | cons hcond htaken _ ih =>
      obtain ⟨ht, first, hfirst⟩ := hstep _ _ _ hs hcond htaken
      obtain ⟨rest, hrest⟩ := ih ht
      exact ⟨first ++ rest, hfirst.append hrest⟩

/-- Steps that use up `M`, but for what they cost, until `P` holds. -/
theorem reaches {I P : σ → Prop} {M : σ → Nat} {cost : α → Nat}
    (hstep : ∀ s a t, I s → C s a → step s a = some t → P t ∨ I t ∧ M t + 1 ≤ M s + cost a)
    (hkeep : ∀ s a t, P s → C s a → step s a = some t → P t)
    {s t : σ} {acts : List α} (hrun : Run step C s acts t) (hs : I s) :
    P t ∨ I t ∧ acts.length + M t ≤ M s + total cost acts := by
  induction hrun with
  | nil s => exact .inr ⟨hs, Nat.le_of_eq (Nat.zero_add _)⟩
  | @cons s t u a acts hcond htaken hrest ih =>
      rcases hstep _ _ _ hs hcond htaken with hP | ⟨ht, hless⟩
      · exact .inl (hrest.invariant (fun _ _ _ => hkeep _ _ _) hP)
      · refine (ih ht).imp_right fun ⟨hu, hbound⟩ => ⟨hu, ?_⟩
        rw [List.length_cons, total]
        omega

theorem length_le {I : σ → Prop} {M : σ → Nat} {p : α → Bool} {k : Nat}
    (hstep : ∀ s a t, I s → C s a → step s a = some t →
      I t ∧ M t + 1 ≤ M s + if p a then k else 0)
    {s t : σ} {acts : List α} (hrun : Run step C s acts t) (hs : I s) :
    acts.length + M t ≤ M s + k * acts.countP p := by
  have hbound := hrun.reaches (P := fun _ => False)
    (fun s a t hI hC htaken => .inr (hstep s a t hI hC htaken)) (fun _ _ _ h _ _ => h) hs
  rw [← total_ite]
  exact (hbound.resolve_left id).2

/-- Steps that use up `M` where `p` tells, but for what they cost, until one of them does `Q`. -/
theorem countP_until {I : σ → Prop} {Q : σ → α → σ → Prop} {M : σ → Nat} {p : α → Bool}
    {k : α → Nat}
    (hstep : ∀ s a t, I s → C s a → step s a = some t →
      (I t ∧ M t + (if p a then 1 else 0) ≤ M s + k a) ∨ Q s a t)
    {s t : σ} {acts : List α} (hrun : Run step C s acts t) (hs : I s) :
    (I t ∧ acts.countP p + M t ≤ M s + total k acts) ∨
      ∃ before a after u v, acts = before ++ a :: after ∧ Run step C s before u ∧ I u ∧ C u a ∧
        step u a = some v ∧ Q u a v ∧ Run step C v after t ∧
          before.countP p + M u ≤ M s + total k before := by
  induction hrun with
  | nil s => exact .inl ⟨hs, Nat.le_of_eq (Nat.zero_add _)⟩
  | @cons s t u a acts hcond htaken hrest ih =>
      rcases hstep _ _ _ hs hcond htaken with ⟨ht, hless⟩ | hQ
      · rcases ih ht with ⟨hu, hbound⟩ | ⟨before, b, after, v, w, rfl, hbefore, hv, hb, htaken', hQ,
          hafter, hbound⟩
        · refine .inl ⟨hu, ?_⟩
          rw [List.countP_cons, total]
          omega
        · refine .inr ⟨a :: before, b, after, v, w, rfl, .cons hcond htaken hbefore, hv, hb,
            htaken', hQ, hafter, ?_⟩
          rw [List.countP_cons, total]
          omega
      · exact .inr ⟨[], a, acts, s, t, rfl, .nil s, hs, hcond, htaken, hQ, hrest,
          Nat.le_of_eq (Nat.zero_add _)⟩

theorem countP_le {I : σ → Prop} {M : σ → Nat} {p : α → Bool}
    (hstep : ∀ s a t, I s → C s a → step s a = some t →
      I t ∧ M t + (if p a then 1 else 0) ≤ M s)
    {s t : σ} {acts : List α} (hrun : Run step C s acts t) (hs : I s) :
    I t ∧ acts.countP p + M t ≤ M s := by
  have hbound := hrun.countP_until (Q := fun _ _ _ => False) (k := fun _ => 0)
    (fun s a t hI hC htaken => .inl (hstep s a t hI hC htaken)) hs
  rw [total_zero] at hbound
  refine hbound.resolve_right ?_
  rintro ⟨-, -, -, -, -, -, -, -, -, -, hQ, -⟩
  exact hQ

end Run

def exec (step : σ → α → Option σ) : σ → List α → Option σ
  | s, [] => some s
  | s, a :: acts => (step s a).bind fun t => exec step t acts

theorem Run.of_exec {step : σ → α → Option σ} {s t : σ} {acts : List α}
    (h : exec step s acts = some t) : Run step (fun _ _ => True) s acts t := by
  induction acts generalizing s with
  | nil =>
      cases h
      exact .nil t
  | cons a acts ih =>
      obtain ⟨u, hstep, hrest⟩ := Option.bind_eq_some_iff.1 h
      exact .cons trivial hstep (ih hrest)

/-- Where `C` says exactly which steps are possible and keep `I`, the runs all of whose states
meet `I` are those all of whose steps meet `C`. -/
theorem exec_always_iff {step : σ → α → Option σ} {I : σ → Prop} {C : σ → α → Prop}
    {acts : List α} (hC : ∀ s, I s → ∀ a ∈ acts, C s a ↔ ∃ t, step s a = some t ∧ I t)
    {s : σ} (hs : I s) :
    (∀ before, before <+: acts → ∃ t, exec step s before = some t ∧ I t) ↔
      ∃ t, Run step C s acts t := by
  induction acts generalizing s with
  | nil =>
      refine iff_of_true (fun before hbefore => ?_) ⟨s, .nil s⟩
      rw [List.prefix_nil.1 hbefore]
      exact ⟨s, rfl, hs⟩
  | cons a acts ih =>
      have hrest : ∀ s, I s → ∀ b ∈ acts, C s b ↔ ∃ t, step s b = some t ∧ I t :=
        fun s hs b hb => hC s hs b (List.mem_cons_of_mem _ hb)
      constructor
      · intro halways
        obtain ⟨t, ht, hI⟩ := halways [a] ⟨acts, rfl⟩
        obtain ⟨u, hstep, hu⟩ := Option.bind_eq_some_iff.1 ht
        cases hu
        have hafter : ∀ before, before <+: acts → ∃ u, exec step t before = some u ∧ I u := by
          intro before hbefore
          obtain ⟨u, hu, hIu⟩ := halways (a :: before) (List.cons_prefix_cons.2 ⟨rfl, hbefore⟩)
          rw [exec, hstep, Option.bind_some] at hu
          exact ⟨u, hu, hIu⟩
        obtain ⟨u, hrun⟩ := (ih hrest hI).1 hafter
        exact ⟨u, .cons ((hC s hs a List.mem_cons_self).2 ⟨t, hstep, hI⟩) hstep hrun⟩
      · rintro ⟨u, hrun⟩ before hbefore
        cases hrun with
        | cons hcond hstep hrun =>
            cases before with
            | nil => exact ⟨s, rfl, hs⟩
            | cons b before =>
                obtain ⟨rfl, hshorter⟩ := List.cons_prefix_cons.1 hbefore
                obtain ⟨t, hstep', hI⟩ := (hC s hs b List.mem_cons_self).1 hcond
                obtain rfl : _ = t := Option.some.inj (hstep.symm.trans hstep')
                obtain ⟨v, hv, hIv⟩ := (ih hrest hI).2 ⟨u, hrun⟩ before hshorter
                exact ⟨v, by rw [exec, hstep, Option.bind_some, hv], hIv⟩

/-- Where, as long as `J` and `I` hold, a step that meets `C` keeps both and any other loses `I`,
the runs all of whose states meet `I` are those all of whose steps meet `C`. -/
theorem Run.always_iff {step : σ → α → Option σ} {C D : σ → α → Prop} {I J : σ → Prop}
    (hkeep : ∀ s a t, J s → I s → C s a → step s a = some t → J t ∧ I t)
    (hlose : ∀ s a t, J s → I s → ¬ C s a → step s a = some t → ¬ I t)
    {s t : σ} {acts : List α} (hrun : Run step D s acts t) (hJ : J s) (hI : I s) :
    (∀ before u, before <+: acts → exec step s before = some u → I u) ↔
      Run step C s acts t := by
  induction hrun with
  | nil s =>
      refine iff_of_true (fun before u hbefore hu => ?_) (.nil s)
      rw [List.prefix_nil.1 hbefore] at hu
      cases hu
      exact hI
  | @cons s t u a acts _ htaken _ ih =>
      constructor
      · intro halways
        have hone : exec step s [a] = some t := by
          rw [exec, htaken]
          rfl
        have hcond : C s a := by
          refine Classical.byContradiction fun hno => ?_
          exact hlose s a t hJ hI hno htaken (halways [a] t ⟨acts, rfl⟩ hone)
        obtain ⟨hJ', hI'⟩ := hkeep s a t hJ hI hcond htaken
        refine .cons hcond htaken ((ih hJ' hI').1 fun before v hbefore hv => ?_)
        apply halways (a :: before) v (List.cons_prefix_cons.2 ⟨rfl, hbefore⟩)
        rw [exec, htaken]
        exact hv
      · rintro (_ | ⟨hcond, htaken', hrest⟩) before v hbefore hv
        obtain rfl : t = _ := Option.some.inj (htaken.symm.trans htaken')
        obtain ⟨hJ', hI'⟩ := hkeep s a t hJ hI hcond htaken
        cases before with
        | nil =>
            cases hv
            exact hI
        | cons b before =>
            obtain ⟨rfl, hshorter⟩ := List.cons_prefix_cons.1 hbefore
            rw [exec, htaken] at hv
            exact (ih hJ' hI').2 hrest before v hshorter hv

end CommonLibrary.Foundation
