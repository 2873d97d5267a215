import CommonLibrary.Foundation.Run
import CommonLibrary.Foundation.Weights
import Mathlib.Algebra.Group.Nat.Defs

/-!
# A semaphore made of a mutex and a condition variable

`Semaphore` has `Post` and `Wait` as single steps: `Wait` takes one off in the critical section in
which it has seen that `count_` is not 0, so this section is the whole of it.  `Monitor` has them
as they are: they lock `mux_`, a waiting thread sleeps in `cond_` until it is notified or wakes up
for no reason, and then locks `mux_` again.  A program that shares a semaphore is given with the
single steps, and is run here with these functions in their place.
-/

namespace CommonLibrary.Thread

open Foundation

abbrev ThreadId := Nat

structure Semaphore where
  /-- `uint32_t` -/
  count : Nat := 0
  deriving DecidableEq

namespace Semaphore

def post (sem : Semaphore) (n : Nat) : Semaphore := ⟨(sem.count + n) % 2 ^ 32⟩

/-- `none`: the thread stays in `cond_.wait`. -/
def wait (sem : Semaphore) : Option Semaphore :=
  if sem.count = 0 then none else some ⟨sem.count - 1⟩

variable {sem sem' : Semaphore} {n : Nat}

theorem count_post (hfits : sem.count + n < 2 ^ 32) : (sem.post n).count = sem.count + n :=
  Nat.mod_eq_of_lt hfits

theorem count_wait (hwait : sem.wait = some sem') : sem'.count + 1 = sem.count := by
  unfold wait at hwait
  split at hwait
  · cases hwait
  · next hcount =>
    cases hwait
    dsimp only
    omega

end Semaphore

/-- A call of one of the two functions. -/
inductive SemOp where
  | post (n : Nat)
  | wait
  deriving DecidableEq

/-- The call as one step; `none`: it is not possible yet. -/
def SemOp.run : SemOp → Semaphore → Option Semaphore
  | .post n, sem => some (sem.post n)
  | .wait, sem => sem.wait

/-- A program whose threads share a semaphore. -/
structure SemProgram (τ σ α : Type) where
  step : σ → α → Option σ
  /-- who takes the action -/
  thread : α → τ
  sem : σ → Semaphore
  /-- the call that the action is, if its thread has come to that -/
  op : σ → α → Option SemOp
  own : ∀ {s s' : σ} {a : α}, op s a = none → step s a = some s' → sem s' = sem s
  call : ∀ {s : σ} {a : α} {o : SemOp}, op s a = some o → (step s a).map sem = o.run (sem s)
  /-- only the thread itself leaves a call -/
  stable : ∀ {s s' : σ} {a b : α} {o : SemOp}, op s a = some o → thread b ≠ thread a →
    step s b = some s' → op s' a = some o

inductive SemPc (α : Type) where
  /-- in neither of them -/
  | out
  /-- about to lock `mux_`, in `cond_.wait` also -/
  | lock (a : α) (op : SemOp)
  /-- with `mux_`, about to change or test `count_` -/
  | locked (a : α) (op : SemOp)
  /-- in `Post(n)`, with `mux_`, about to notify -/
  | notify (n : Nat)
  /-- blocked in `cond_.wait` -/
  | asleep (a : α)
  /-- with `mux_`, about to return -/
  | unlock

namespace SemPc

variable {α : Type}

def isOut : SemPc α → Bool
  | out => true
  | _ => false

def holds : SemPc α → Bool
  | locked _ _ | notify _ | unlock => true
  | _ => false

def isAsleep : SemPc α → Bool
  | asleep _ => true
  | _ => false

/-- Unblocked, if it was blocked. -/
def wakened : SemPc α → SemPc α
  | asleep a => lock a .wait
  | pc => pc

end SemPc

/-- The program with its semaphore. -/
structure Monitor (τ σ α : Type) where
  base : σ
  /-- who has `mux_` -/
  owner : Option τ := none
  /-- the threads that are blocked in `cond_` -/
  waiters : List τ := []
  pc : τ → SemPc α := fun _ => .out

inductive MonitorAction (τ α : Type) where
  /-- a step of the program outside `Post` and `Wait` -/
  | own (a : α)
  /-- `Post` or `Wait` is called -/
  | call (a : α)
  | lock (t : τ)
  /-- `count_ += n`; or the test of `count_`, and `--count_` or the beginning of `cond_.wait` -/
  | count (t : τ)
  /-- `notify_one`, which unblocks `woken`, or `notify_all` -/
  | notify (t : τ) (woken : Option τ)
  | unlock (t : τ)
  /-- `cond_.wait` unblocks `t`, which nobody has notified -/
  | spurious (t : τ)

namespace Monitor

variable {τ σ α : Type} [DecidableEq τ]

def goTo (m : Monitor τ σ α) (t : τ) (pc : SemPc α) : Monitor τ σ α :=
  { m with pc := Function.update m.pc t pc }

def wake (m : Monitor τ σ α) (t : τ) : Monitor τ σ α :=
  { m.goTo t (m.pc t).wakened with waiters := m.waiters.erase t }

/-- `none`: no thread, or another than a blocked one. -/
def notifyOne (m : Monitor τ σ α) : Option τ → Option (Monitor τ σ α)
  | none => if m.waiters = [] then some m else none
  | some t => if t ∈ m.waiters then some (m.wake t) else none

def notifyAll (m : Monitor τ σ α) : Monitor τ σ α :=
  { m with waiters := [], pc := fun t => (m.pc t).wakened }

variable (P : SemProgram τ σ α)

/-- The statement of `t` that works on `count_`. -/
def countStep (m : Monitor τ σ α) (t : τ) : Option (Monitor τ σ α) :=
  match m.pc t with
  | .locked a (.post n) => (P.step m.base a).map fun s => { m.goTo t (.notify n) with base := s }
  | .locked a .wait =>
      if (P.sem m.base).count = 0 then
        some { m.goTo t (.asleep a) with owner := none, waiters := t :: m.waiters }
      else (P.step m.base a).map fun s => { m.goTo t .unlock with base := s }
  | _ => none

def step (m : Monitor τ σ α) : MonitorAction τ α → Option (Monitor τ σ α)
  | .own a =>
      if P.op m.base a = none ∧ (m.pc (P.thread a)).isOut then
        (P.step m.base a).map fun s => { m with base := s }
      else none
  | .call a =>
      if (m.pc (P.thread a)).isOut then
        (P.op m.base a).map fun op => m.goTo (P.thread a) (.lock a op)
      else none
  | .lock t =>
      match m.pc t, m.owner with
      | .lock a op, none => some { m.goTo t (.locked a op) with owner := some t }
      | _, _ => none
  | .count t => m.countStep P t
  | .notify t woken =>
      match m.pc t with
      | .notify n =>
          (if n = 1 then m.notifyOne woken else some m.notifyAll).map fun m => m.goTo t .unlock
      | _ => none
  | .unlock t =>
      match m.pc t with
      | .unlock => some { m.goTo t .out with owner := none }
      | _ => none
  | .spurious t => if t ∈ m.waiters then some (m.wake t) else none

/-! ## What a step does -/

/-- The steps, one constructor for each way an action can go. -/
inductive Stepped (m : Monitor τ σ α) : MonitorAction τ α → Monitor τ σ α → Prop
  | own {a : α} {s : σ} (hop : P.op m.base a = none) (hout : m.pc (P.thread a) = .out)
      (hs : P.step m.base a = some s) : Stepped m (.own a) { m with base := s }
  | call {a : α} {op : SemOp} (hop : P.op m.base a = some op)
      (hout : m.pc (P.thread a) = .out) :
      Stepped m (.call a) (m.goTo (P.thread a) (.lock a op))
  | lock {t : τ} {a : α} {op : SemOp} (hpc : m.pc t = .lock a op) (hfree : m.owner = none) :
      Stepped m (.lock t) { m.goTo t (.locked a op) with owner := some t }
  | post {t : τ} {a : α} {n : Nat} {s : σ} (hpc : m.pc t = .locked a (.post n))
      (hs : P.step m.base a = some s) :
      Stepped m (.count t) { m.goTo t (.notify n) with base := s }
  | sleep {t : τ} {a : α} (hpc : m.pc t = .locked a .wait) (hzero : (P.sem m.base).count = 0) :
      Stepped m (.count t)
        { m.goTo t (.asleep a) with owner := none, waiters := t :: m.waiters }
  | pass {t : τ} {a : α} {s : σ} (hpc : m.pc t = .locked a .wait)
      (hs : P.step m.base a = some s) : Stepped m (.count t) { m.goTo t .unlock with base := s }
  | notifyNobody {t : τ} (hpc : m.pc t = .notify 1) (hempty : m.waiters = []) :
      Stepped m (.notify t none) (m.goTo t .unlock)
  | notifyOne {t u : τ} (hpc : m.pc t = .notify 1) (hu : u ∈ m.waiters) :
      Stepped m (.notify t (some u)) ((m.wake u).goTo t .unlock)
  | notifyAll {t : τ} {n : Nat} {woken : Option τ} (hpc : m.pc t = .notify n) (hn : n ≠ 1) :
      Stepped m (.notify t woken) (m.notifyAll.goTo t .unlock)
  | unlock {t : τ} (hpc : m.pc t = .unlock) :
      Stepped m (.unlock t) { m.goTo t .out with owner := none }
  | spurious {t : τ} (ht : t ∈ m.waiters) : Stepped m (.spurious t) (m.wake t)

variable {P} {m m' : Monitor τ σ α} {act : MonitorAction τ α}

theorem eq_out_of_isOut {pc : SemPc α} (h : pc.isOut) : pc = .out := by
  cases pc with
  | out => rfl
  | _ => cases h

theorem countStep_stepped {t : τ} (hstep : m.countStep P t = some m') :
    Stepped P m (.count t) m' := by
  unfold countStep at hstep
  split at hstep
  · next a n hpc =>
    obtain ⟨s, hs, rfl⟩ := Option.map_eq_some_iff.1 hstep
    exact .post hpc hs
  · next a hpc =>
    split at hstep
    · next hzero =>
      cases hstep
      exact .sleep hpc hzero
    · obtain ⟨s, hs, rfl⟩ := Option.map_eq_some_iff.1 hstep
      exact .pass hpc hs
  · cases hstep

theorem notifyStep_stepped {t : τ} {woken : Option τ} {n : Nat} (hpc : m.pc t = .notify n)
    (hstep : ((if n = 1 then m.notifyOne woken else some m.notifyAll).map
      fun m => m.goTo t .unlock) = some m') : Stepped P m (.notify t woken) m' := by
  obtain ⟨m₁, hnotify, rfl⟩ := Option.map_eq_some_iff.1 hstep
  split at hnotify
  · next hone =>
    subst hone
    cases woken with
    | none =>
        obtain ⟨hempty, rfl⟩ : m.waiters = [] ∧ m = m₁ := by
          simpa only [notifyOne, Option.ite_none_right_eq_some, Option.some.injEq] using hnotify
        exact .notifyNobody hpc hempty
    | some u =>
        obtain ⟨hu, rfl⟩ : u ∈ m.waiters ∧ m.wake u = m₁ := by
          simpa only [notifyOne, Option.ite_none_right_eq_some, Option.some.injEq] using hnotify
        exact .notifyOne hpc hu
  · next hn =>
    cases hnotify
    exact .notifyAll hpc hn

theorem step_stepped (hstep : step P m act = some m') : Stepped P m act m' := by
  cases act with
  | own a =>
      obtain ⟨⟨hop, hout⟩, hmap⟩ := Option.ite_none_right_eq_some.1 hstep
      obtain ⟨s, hs, rfl⟩ := Option.map_eq_some_iff.1 hmap
      exact .own hop (eq_out_of_isOut hout) hs
  | call a =>
      obtain ⟨hout, hmap⟩ := Option.ite_none_right_eq_some.1 hstep
      obtain ⟨op, hop, rfl⟩ := Option.map_eq_some_iff.1 hmap
      exact .call hop (eq_out_of_isOut hout)
  | lock t =>
      simp only [step] at hstep
      split at hstep
      · next a op hpc hfree =>
        cases hstep
        exact .lock hpc hfree
      · cases hstep
  | count t => exact countStep_stepped hstep
  | notify t woken =>
      simp only [step] at hstep
      split at hstep
      · next n hpc => exact notifyStep_stepped hpc hstep
      · cases hstep
  | unlock t =>
      simp only [step] at hstep
      split at hstep
      · next hpc =>
        cases hstep
        exact .unlock hpc
      · cases hstep
  | spurious t =>
      obtain ⟨ht, hwake⟩ := Option.ite_none_right_eq_some.1 hstep
      cases hwake
      exact .spurious ht

/-! ## No wakeup is lost -/

end Monitor

/-- What a thread inside `Post` or `Wait` is there for. -/
def SemPc.At {τ σ α : Type} (P : SemProgram τ σ α) (s : σ) (t : τ) : SemPc α → Prop
  | lock a op | locked a op => P.thread a = t ∧ P.op s a = some op
  | asleep a => P.thread a = t ∧ P.op s a = some .wait
  | _ => True

/-- How much of `count_` a thread is going to take, or has still to announce. -/
def SemPc.coming {α : Type} : SemPc α → Nat
  | lock _ .wait => 1
  | locked _ .wait => 1
  | notify n => n
  | _ => 0

def MonitorAction.who {τ σ α : Type} (P : SemProgram τ σ α) : MonitorAction τ α → τ
  | own a | call a => P.thread a
  | lock t | count t | notify t _ | unlock t | spurious t => t

namespace Monitor

variable {τ σ α : Type} {P : SemProgram τ σ α} {m m' : Monitor τ σ α} {act : MonitorAction τ α}
  {threads : Finset τ} {t u : τ}

/-- `threads` are all that are in `Post` or `Wait`.  While one of them is blocked, `count_` is
no more than those will take that are on their way. -/
structure Ok (P : SemProgram τ σ α) (threads : Finset τ) (m : Monitor τ σ α) : Prop where
  outside : ∀ t, t ∉ threads → m.pc t = .out
  inside : ∀ t, (m.pc t).At P m.base t
  owner : ∀ t, m.owner = some t ↔ (m.pc t).holds
  nodup : m.waiters.Nodup
  waiters : ∀ t, t ∈ m.waiters ↔ (m.pc t).isAsleep
  noLoss : m.waiters ≠ [] → (P.sem m.base).count ≤ weight threads SemPc.coming m.pc

theorem Ok.mem (h : Ok P threads m) (ht : m.pc t ≠ .out) : t ∈ threads := by
  by_contra hno
  exact ht (h.outside t hno)

theorem Ok.mono (h : Ok P threads m) {more : Finset τ} (hsub : threads ⊆ more) :
    Ok P more m where
  outside := fun t ht => h.outside t fun hin => ht (hsub hin)
  inside := h.inside
  owner := h.owner
  nodup := h.nodup
  waiters := h.waiters
  noLoss := by
    have hsame : weight more SemPc.coming m.pc = weight threads SemPc.coming m.pc := by
      apply weight_subset hsub
      intro t ht
      rw [h.outside t ht]
      rfl
    rw [hsame]
    exact h.noLoss

theorem at_wakened {s : σ} {pc : SemPc α} (h : pc.At P s t) : pc.wakened.At P s t := by
  cases pc with
  | asleep a => exact h
  | _ => exact h

theorem at_stable {s s' : σ} {b : α} {pc : SemPc α} (h : pc.At P s t) (hb : P.thread b ≠ t)
    (hs : P.step s b = some s') : pc.At P s' t := by
  cases pc with
  | lock a op =>
      obtain ⟨rfl, hop⟩ := h
      exact ⟨rfl, P.stable hop hb hs⟩
  | locked a op =>
      obtain ⟨rfl, hop⟩ := h
      exact ⟨rfl, P.stable hop hb hs⟩
  | asleep a =>
      obtain ⟨rfl, hop⟩ := h
      exact ⟨rfl, P.stable hop hb hs⟩
  | out => trivial
  | notify n => trivial
  | unlock => trivial

variable [DecidableEq τ]

theorem coming_goTo (ht : t ∈ threads) (pc : SemPc α) :
    weight threads SemPc.coming (m.goTo t pc).pc + (m.pc t).coming =
      weight threads SemPc.coming m.pc + pc.coming := weight_update _ _ _ ht

theorem Ok.goTo (h : Ok P threads m) (ht : t ∈ threads) (pc : SemPc α) {s : σ}
    {owner : Option τ} {waiters : List τ} (hinside : pc.At P s t)
    (hothers : ∀ u, u ≠ t → (m.pc u).At P s u)
    (howner : (owner = some t ↔ pc.holds) ∧ ∀ u, u ≠ t → (owner = some u ↔ m.owner = some u))
    (hnodup : waiters.Nodup)
    (hwaiters : (t ∈ waiters ↔ pc.isAsleep) ∧ ∀ u, u ≠ t → (u ∈ waiters ↔ u ∈ m.waiters))
    (hnoLoss : waiters ≠ [] → (P.sem s).count + (m.pc t).coming ≤
      weight threads SemPc.coming m.pc + pc.coming) :
    Ok P threads { m.goTo t pc with base := s, owner := owner, waiters := waiters } := by
  have hcases : ∀ u, (u = t ∧ (m.goTo t pc).pc u = pc) ∨ u ≠ t ∧ (m.goTo t pc).pc u = m.pc u := by
    intro u
    by_cases hu : u = t
    · exact .inl ⟨hu, by rw [hu]; exact Function.update_self _ _ _⟩
    · exact .inr ⟨hu, Function.update_of_ne hu _ _⟩
  refine ⟨fun u hu => ?_, fun u => ?_, fun u => ?_, hnodup, fun u => ?_, fun hne => ?_⟩
  · rcases hcases u with ⟨rfl, -⟩ | ⟨-, heq⟩
    · exact absurd ht hu
    · exact heq.trans (h.outside u hu)
  · show ((m.goTo t pc).pc u).At P s u
    rcases hcases u with ⟨rfl, heq⟩ | ⟨hu, heq⟩
    · rw [heq]
      exact hinside
    · rw [heq]
      exact hothers u hu
  · show owner = some u ↔ ((m.goTo t pc).pc u).holds
    rcases hcases u with ⟨rfl, heq⟩ | ⟨hu, heq⟩
    · rw [heq]
      exact howner.1
    · rw [heq]
      exact (howner.2 u hu).trans (h.owner u)
  · show u ∈ waiters ↔ ((m.goTo t pc).pc u).isAsleep
    rcases hcases u with ⟨rfl, heq⟩ | ⟨hu, heq⟩
    · rw [heq]
      exact hwaiters.1
    · rw [heq]
      exact (hwaiters.2 u hu).trans (h.waiters u)
  · have hsum := coming_goTo (m := m) ht pc
    have hcount := hnoLoss hne
    show (P.sem s).count ≤ weight threads SemPc.coming (m.goTo t pc).pc
    omega

theorem Ok.wake (h : Ok P threads m) (ht : t ∈ m.waiters) :
    Ok P threads (m.wake t) ∧
      weight threads SemPc.coming (m.wake t).pc = weight threads SemPc.coming m.pc + 1 := by
  have hasleep := (h.waiters t).1 ht
  have hat := h.inside t
  cases hpc : m.pc t with
  | asleep a =>
      have hin : t ∈ threads := by
        apply h.mem
        rw [hpc]
        nofun
      have hnotOwner : m.owner ≠ some t := by
        intro howner
        have hholds := (h.owner t).1 howner
        rw [hpc] at hholds
        cases hholds
      have hsum := coming_goTo (m := m) hin (SemPc.lock a .wait)
      rw [hpc] at hat hsum
      have hok : Ok P threads { m.goTo t (.lock a .wait) with waiters := m.waiters.erase t } := by
        apply h.goTo hin (.lock a .wait) hat (fun u _ => h.inside u)
          ⟨iff_of_false hnotOwner Bool.false_ne_true, fun u _ => Iff.rfl⟩ (h.nodup.erase t)
          ⟨iff_of_false h.nodup.not_mem_erase Bool.false_ne_true,
            fun u hu => List.mem_erase_of_ne hu⟩
        intro _
        have hcount := h.noLoss (List.ne_nil_of_mem ht)
        rw [hpc]
        exact Nat.le_succ_of_le hcount
      have hwake : m.wake t = { m.goTo t (.lock a .wait) with waiters := m.waiters.erase t } := by
        unfold Monitor.wake
        rw [hpc]
        rfl
      rw [hwake]
      exact ⟨hok, hsum⟩
  | _ =>
      rw [hpc] at hasleep
      cases hasleep

omit [DecidableEq τ] in
theorem Ok.notifyAll (h : Ok P threads m) : Ok P threads m.notifyAll := by
  refine ⟨fun u hu => ?_, fun u => at_wakened (h.inside u), fun u => ?_, List.nodup_nil,
    fun u => ?_, fun hne => absurd rfl hne⟩
  · show (m.pc u).wakened = .out
    rw [h.outside u hu]
    rfl
  · show m.owner = some u ↔ (m.pc u).wakened.holds
    rw [h.owner u]
    cases m.pc u <;> exact Iff.rfl
  · show u ∈ [] ↔ (m.pc u).wakened.isAsleep
    cases m.pc u <;> exact iff_of_false List.not_mem_nil Bool.false_ne_true

/-- `t`, which is neither blocked nor has `mux_`, goes to `pc`, where it is neither. -/
theorem Ok.unlocked (h : Ok P threads m) (ht : t ∈ threads) (pc : SemPc α)
    (hfrom : (m.pc t).holds = false ∧ (m.pc t).isAsleep = false)
    (hto : pc.holds = false ∧ pc.isAsleep = false) (hinside : pc.At P m.base t)
    (hcoming : (m.pc t).coming ≤ pc.coming) : Ok P threads (m.goTo t pc) := by
  apply h.goTo ht pc hinside (fun u _ => h.inside u) ⟨?_, fun u _ => Iff.rfl⟩ h.nodup
    ⟨?_, fun u _ => Iff.rfl⟩
  · intro hne
    exact Nat.add_le_add (h.noLoss hne) hcoming
  · rw [h.owner t, hfrom.1, hto.1]
  · rw [h.waiters t, hfrom.2, hto.2]

theorem Ok.locked (h : Ok P threads m) (pc : SemPc α) {s : σ} (hfrom : (m.pc t).holds)
    (hto : pc.holds) (hpc : pc.isAsleep = false) (hinside : pc.At P s t)
    (hothers : ∀ u, u ≠ t → (m.pc u).At P s u)
    (hnoLoss : m.waiters ≠ [] → (P.sem s).count + (m.pc t).coming ≤
      weight threads SemPc.coming m.pc + pc.coming) :
    Ok P threads { m.goTo t pc with base := s } := by
  have ht : t ∈ threads := by
    apply h.mem
    intro hout
    rw [hout] at hfrom
    cases hfrom
  have hawake : t ∉ m.waiters := by
    rw [h.waiters t]
    cases hpc : m.pc t with
    | asleep a =>
        rw [hpc] at hfrom
        cases hfrom
    | _ => exact Bool.false_ne_true
  apply h.goTo ht pc hinside hothers ⟨?_, fun u _ => Iff.rfl⟩ h.nodup
    ⟨?_, fun u _ => Iff.rfl⟩ hnoLoss
  · exact iff_of_true ((h.owner t).2 hfrom) hto
  · rw [hpc]
    exact iff_of_false hawake Bool.false_ne_true

theorem Ok.released (h : Ok P threads m) (pc : SemPc α) {waiters : List τ}
    (hfrom : (m.pc t).holds) (hto : pc.holds = false) (hinside : pc.At P m.base t)
    (hnodup : waiters.Nodup)
    (hwaiters : (t ∈ waiters ↔ pc.isAsleep) ∧ ∀ u, u ≠ t → (u ∈ waiters ↔ u ∈ m.waiters))
    (hnoLoss : waiters ≠ [] → (P.sem m.base).count + (m.pc t).coming ≤
      weight threads SemPc.coming m.pc + pc.coming) :
    Ok P threads { m.goTo t pc with owner := none, waiters := waiters } := by
  have howner := (h.owner t).2 hfrom
  have ht : t ∈ threads := by
    apply h.mem
    intro hout
    rw [hout] at hfrom
    cases hfrom
  apply h.goTo ht pc hinside (fun u _ => h.inside u) ⟨?_, fun u hu => ?_⟩ hnodup hwaiters hnoLoss
  · rw [hto]
    exact iff_of_false (Option.some_ne_none t ∘ Eq.symm) Bool.false_ne_true
  · rw [howner]
    exact iff_of_false (Option.some_ne_none u ∘ Eq.symm) fun heq => hu (Option.some.inj heq).symm

omit [DecidableEq τ] in
theorem Ok.own (h : Ok P threads m) {a : α} {s : σ} (hop : P.op m.base a = none)
    (hout : m.pc (P.thread a) = .out) (hs : P.step m.base a = some s) :
    Ok P threads { m with base := s } := by
  refine ⟨h.outside, fun u => ?_, h.owner, h.nodup, h.waiters, ?_⟩
  · by_cases hu : P.thread a = u
    · show (m.pc u).At P s u
      rw [← hu, hout]
      trivial
    · exact at_stable (h.inside u) hu hs
  · show m.waiters ≠ [] → (P.sem s).count ≤ weight threads SemPc.coming m.pc
    rw [P.own hop hs]
    exact h.noLoss

theorem Ok.lock (h : Ok P threads m) (ht : t ∈ threads) {a : α} {op : SemOp}
    (hpc : m.pc t = .lock a op) (hfree : m.owner = none) :
    Ok P threads { m.goTo t (.locked a op) with owner := some t } := by
  have hat := h.inside t
  have hawake : t ∉ m.waiters := by
    rw [h.waiters t, hpc]
    exact Bool.false_ne_true
  rw [hpc] at hat
  apply h.goTo ht (.locked a op) hat (fun u _ => h.inside u)
    ⟨iff_of_true rfl rfl, fun u hu => ?_⟩ h.nodup
    ⟨iff_of_false hawake Bool.false_ne_true, fun u _ => Iff.rfl⟩
  · intro hne
    rw [hpc]
    exact Nat.add_le_add (h.noLoss hne) (by cases op <;> exact Nat.le_refl _)
  · rw [hfree]
    exact iff_of_false (fun heq => hu (Option.some.inj heq).symm)
      (Option.some_ne_none u ∘ Eq.symm)

theorem Ok.post (h : Ok P threads m) {a : α} {n : Nat} {s : σ}
    (hpc : m.pc t = .locked a (.post n)) (hs : P.step m.base a = some s) :
    Ok P threads { m.goTo t (.notify n) with base := s } := by
  have hat := h.inside t
  rw [hpc] at hat
  obtain ⟨hwho, hop⟩ := hat
  have hsem := P.call hop
  rw [hs] at hsem
  have hcount : (P.sem s).count ≤ (P.sem m.base).count + n := by
    rw [Option.some.inj hsem]
    exact Nat.mod_le _ _
  apply h.locked (.notify n) (by rw [hpc]; rfl) rfl rfl trivial
  · intro u hu
    exact at_stable (h.inside u) (fun heq => hu (heq.symm.trans hwho)) hs
  · intro hne
    have hbefore := h.noLoss hne
    rw [hpc]
    show (P.sem s).count + 0 ≤ weight threads SemPc.coming m.pc + n
    omega

theorem Ok.pass (h : Ok P threads m) {a : α} {s : σ} (hpc : m.pc t = .locked a .wait)
    (hs : P.step m.base a = some s) : Ok P threads { m.goTo t .unlock with base := s } := by
  have hat := h.inside t
  rw [hpc] at hat
  obtain ⟨hwho, hop⟩ := hat
  have hsem := P.call hop
  rw [hs] at hsem
  have hcount := Semaphore.count_wait hsem.symm
  apply h.locked .unlock (by rw [hpc]; rfl) rfl rfl trivial
  · intro u hu
    exact at_stable (h.inside u) (fun heq => hu (heq.symm.trans hwho)) hs
  · intro hne
    have hbefore := h.noLoss hne
    rw [hpc]
    show (P.sem s).count + 1 ≤ weight threads SemPc.coming m.pc + 0
    omega

theorem Ok.sleep (h : Ok P threads m) {a : α} (hpc : m.pc t = .locked a .wait)
    (hzero : (P.sem m.base).count = 0) :
    Ok P threads { m.goTo t (.asleep a) with owner := none, waiters := t :: m.waiters } := by
  have hat := h.inside t
  have hin : t ∈ threads := by
    apply h.mem
    rw [hpc]
    nofun
  have hawake : t ∉ m.waiters := by
    rw [h.waiters t, hpc]
    exact Bool.false_ne_true
  have hmine : (m.pc t).coming ≤ weight threads SemPc.coming m.pc := le_weight hin
  rw [hpc] at hat
  apply h.released (.asleep a) (by rw [hpc]; rfl) rfl hat (List.nodup_cons.2 ⟨hawake, h.nodup⟩)
    ⟨iff_of_true List.mem_cons_self rfl, fun u hu => ?_⟩
  · intro _
    show (P.sem m.base).count + (m.pc t).coming ≤ weight threads SemPc.coming m.pc + 0
    omega
  · rw [List.mem_cons]
    exact or_iff_right hu

theorem Ok.notifyOne (h : Ok P threads m) (hpc : m.pc t = .notify 1) (hu : u ∈ m.waiters) :
    Ok P threads ((m.wake u).goTo t .unlock) := by
  obtain ⟨hok, hsum⟩ := h.wake hu
  have hasleep := (h.waiters u).1 hu
  have hne : t ≠ u := by
    rintro rfl
    rw [hpc] at hasleep
    cases hasleep
  have hsame : (m.wake u).pc t = .notify 1 := (Function.update_of_ne hne _ _).trans hpc
  apply hok.locked .unlock (by rw [hsame]; rfl) rfl rfl trivial (fun v _ => hok.inside v)
  intro _
  have hbefore := h.noLoss (List.ne_nil_of_mem hu)
  rw [hsame, hsum]
  show (P.sem m.base).count + 1 ≤ weight threads SemPc.coming m.pc + 1 + 0
  omega

theorem Ok.silent (h : Ok P threads m) {n : Nat} (hpc : m.pc t = .notify n)
    (hempty : m.waiters = []) : Ok P threads (m.goTo t .unlock) :=
  h.locked .unlock (by rw [hpc]; rfl) rfl rfl trivial (fun u _ => h.inside u)
    fun hne => absurd hempty hne

theorem Stepped.ok (hstep : Stepped P m act m') (h : Ok P threads m) (hwho : act.who P ∈ threads) :
    Ok P threads m' := by
  cases hstep with
  | own hop hout hs => exact h.own hop hout hs
  | @call a op hop hout =>
      apply h.unlocked (t := P.thread a) hwho (.lock a op)
      · rw [hout]
        exact ⟨rfl, rfl⟩
      · exact ⟨rfl, rfl⟩
      · exact ⟨rfl, hop⟩
      · rw [hout]
        exact Nat.zero_le _
  | lock hpc hfree => exact h.lock hwho hpc hfree
  | post hpc hs => exact h.post hpc hs
  | sleep hpc hzero => exact h.sleep hpc hzero
  | pass hpc hs => exact h.pass hpc hs
  | notifyNobody hpc hempty => exact h.silent hpc hempty
  | notifyOne hpc hu => exact h.notifyOne hpc hu
  | @notifyAll t n woken hpc hn =>
      have hsame : m.notifyAll.pc t = .notify n := congrArg SemPc.wakened hpc
      exact h.notifyAll.silent hsame rfl
  | @unlock t hpc =>
      have hawake : t ∉ m.waiters := by
        rw [h.waiters t, hpc]
        exact Bool.false_ne_true
      apply h.released .out (by rw [hpc]; rfl) rfl trivial h.nodup
        ⟨iff_of_false hawake Bool.false_ne_true, fun u _ => Iff.rfl⟩
      intro hne
      rw [hpc]
      exact h.noLoss hne
  | spurious ht => exact (h.wake ht).1

omit [DecidableEq τ] in
theorem init_ok (P : SemProgram τ σ α) (s : σ) : Ok P ∅ ({ base := s } : Monitor τ σ α) where
  outside := fun _ _ => rfl
  inside := fun _ => trivial
  owner := fun t => iff_of_false (Option.some_ne_none t ∘ Eq.symm) Bool.false_ne_true
  nodup := List.nodup_nil
  waiters := fun _ => iff_of_false List.not_mem_nil Bool.false_ne_true
  noLoss := fun hne => absurd rfl hne

theorem run_ok {C : Monitor τ σ α → MonitorAction τ α → Prop} {acts : List (MonitorAction τ α)}
    (hrun : Run (step P) C m acts m') (h : ∃ threads, Ok P threads m) :
    ∃ threads, Ok P threads m' := by
  refine hrun.invariant (I := fun m => ∃ threads, Ok P threads m) ?_ h
  rintro m act m' ⟨threads, h⟩ - hstep
  refine ⟨insert (act.who P) threads, (step_stepped hstep).ok ?_ (Finset.mem_insert_self _ _)⟩
  exact h.mono (Finset.subset_insert _ _)

/-- What is asked of the steps of the program itself. -/
def Lifted (D : σ → α → Prop) (m : Monitor τ σ α) : MonitorAction τ α → Prop
  | .own a => D m.base a
  | .count t => ∀ a op, m.pc t = .locked a op → D m.base a
  | _ => True

/-- The program sees no more of the semaphore than single steps. -/
theorem base_run {D : σ → α → Prop} {acts : List (MonitorAction τ α)}
    (hrun : Run (step P) (Lifted D) m acts m') : ∃ acts', Run P.step D m.base acts' m'.base := by
  refine hrun.projects (f := Monitor.base) fun m act m' hD hstep => ?_
  cases step_stepped hstep with
  | own hop hout hs => exact .inr ⟨_, hD, hs⟩
  | post hpc hs => exact .inr ⟨_, hD _ _ hpc, hs⟩
  | pass hpc hs => exact .inr ⟨_, hD _ _ hpc, hs⟩
  | _ => exact .inl rfl

omit [DecidableEq τ] in
theorem lifted_true (m : Monitor τ σ α) (act : MonitorAction τ α) :
    Lifted (fun _ _ => True) m act := by
  cases act with
  | count t => exact fun _ _ _ => trivial
  | _ => trivial

theorem base_invariant {I : σ → Prop} {C : Monitor τ σ α → MonitorAction τ α → Prop}
    {acts : List (MonitorAction τ α)} (hrun : Run (step P) C m acts m')
    (hpres : ∀ s a s', I s → P.step s a = some s' → I s') (hI : I m.base) : I m'.base := by
  obtain ⟨acts', hbase⟩ := base_run (hrun.strengthen fun a _ m => lifted_true m a)
  exact hbase.invariant (fun s a s' hs _ hstep => hpres s a s' hs hstep) hI

omit [DecidableEq τ] in
theorem Ok.exclusive (h : Ok P threads m) (ht : (m.pc t).holds)
    (hu : (m.pc u).holds) : t = u :=
  Option.some.inj (((h.owner t).2 ht).symm.trans ((h.owner u).2 hu))

end Monitor

end CommonLibrary.Thread
