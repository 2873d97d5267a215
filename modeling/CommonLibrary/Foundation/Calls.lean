/-!
# Programs that make calls

A program asks its environment by calls and goes on with their answers.  `Always` says of a
program, in an environment that is known as a state machine, that it makes no call that is not
allowed when it is made, and that it ends as told whatever it is answered.
-/

namespace CommonLibrary.Foundation

/-- `A c` is the type of the answers to the call `c`. -/
inductive Prog (C : Type) (A : C → Type) (α : Type) where
  | ret (a : α)
  | call (c : C) (next : A c → Prog C A α)

structure Env (C : Type) (A : C → Type) (κ : Type) where
  allows : κ → C → Prop
  /-- `none`: that is never the answer. -/
  answer : κ → (c : C) → A c → Option κ

namespace Prog

variable {C : Type} {A : C → Type} {α β κ : Type}

def bind : Prog C A α → (α → Prog C A β) → Prog C A β
  | ret a, f => f a
  | call c next, f => call c fun ans => (next ans).bind f

instance : Monad (Prog C A) where
  pure := ret
  bind := bind

def ask (c : C) : Prog C A (A c) := call c ret

/-- Every call of the program is allowed, and `Q` holds at its end. -/
def Always (env : Env C A κ) : Prog C A α → κ → (κ → α → Prop) → Prop
  | ret a, k, Q => Q k a
  | call c next, k, Q =>
      env.allows k c ∧ ∀ ans k', env.answer k c ans = some k' → (next ans).Always env k' Q

def run (env : Env C A κ) (oracle : κ → (c : C) → A c) : Prog C A α → κ → Option (κ × α)
  | ret a, k => some (k, a)
  | call c next, k =>
      (env.answer k c (oracle k c)).bind fun k' => (next (oracle k c)).run env oracle k'

variable {env : Env C A κ} {k : κ} {p : Prog C A α} {Q R : κ → α → Prop}

theorem Always.mono (h : p.Always env k Q) (hQR : ∀ k a, Q k a → R k a) :
    p.Always env k R := by
  induction p generalizing k with
  | ret a => exact hQR _ _ h
  | call c next ih => exact ⟨h.1, fun ans k' hans => ih ans (h.2 ans k' hans)⟩

theorem always_bind {f : α → Prog C A β} {Q : κ → β → Prop} :
    (p >>= f).Always env k Q ↔ p.Always env k fun k' a => (f a).Always env k' Q := by
  show (p.bind f).Always env k Q ↔ _
  induction p generalizing k with
  | ret a => exact Iff.rfl
  | call c next ih =>
      refine and_congr_right fun _ => forall_congr' fun ans => forall_congr' fun k' => ?_
      exact imp_congr_right fun _ => ih ans

theorem always_ask {c : C} {f : A c → Prog C A β} {Q : κ → β → Prop} :
    (ask c >>= f).Always env k Q ↔
      env.allows k c ∧ ∀ ans k', env.answer k c ans = some k' → (f ans).Always env k' Q :=
  Iff.rfl

theorem Always.then {f : α → Prog C A β} {Q : κ → β → Prop} (h : p.Always env k R)
    (hrest : ∀ k' a, R k' a → (f a).Always env k' Q) : (p >>= f).Always env k Q :=
  always_bind.2 (h.mono hrest)

theorem Always.run {oracle : κ → (c : C) → A c} {k' : κ} {a : α} (h : p.Always env k Q)
    (hrun : p.run env oracle k = some (k', a)) : Q k' a := by
  induction p generalizing k with
  | ret a =>
      cases hrun
      exact h
  | call c next ih =>
      obtain ⟨k'', hans, hrest⟩ := Option.bind_eq_some_iff.1 hrun
      exact ih _ (h.2 _ _ hans) hrest

end Prog

end CommonLibrary.Foundation
