import CommonLibrary.Foundation.Run
import Mathlib.Algebra.Group.Nat.Defs
import Mathlib.Logic.Function.Basic
import Mathlib.Tactic.Common

/-!
# The clock that is read

`get_current_microseconds`, `get_current_milliseconds` and `get_current_seconds` load three
atomics, which a thread of their own stores again and again from one reading of the system
clock.  `Ticker` measures with them.
-/

namespace CommonLibrary.Utils

open Foundation

inductive TimeUnit where
  | microseconds
  | milliseconds
  | seconds
  deriving DecidableEq

/-- In microseconds. -/
def TimeUnit.size : TimeUnit → Nat
  | microseconds => 1
  | milliseconds => 1000
  | seconds => 1000000

inductive UpdatePc where
  /-- it has not been started -/
  | unborn
  | read
  /-- about to store the reading `now` in this unit -/
  | store (now : Nat) (unit : TimeUnit)
  | sleep
  deriving DecidableEq

structure Clock where
  /-- the system clock, in microseconds -/
  system : Nat
  /-- `s_now_microseconds`, `s_now_milliseconds` and `s_now_seconds` -/
  stored : TimeUnit → Nat
  pc : UpdatePc := .unborn
  /-- history: how often the thread has stored all three -/
  passes : Nat := 0

inductive ClockAction where
  /-- the system clock is at `now` -/
  | system (now : Nat)
  /-- some thread calls one of the three functions -/
  | load
  /-- the next statement of the thread that updates -/
  | update

namespace Clock

/-- The static variables, from three readings. -/
def init (first second third : Nat) : Clock where
  system := third
  stored := fun
    | .microseconds => first
    | .milliseconds => second / 1000
    | .seconds => third / 1000000

def load (c : Clock) (unit : TimeUnit) : UInt64 := .ofNat (c.stored unit)

def getCurrentMicroseconds (c : Clock) : UInt64 := c.load .microseconds

def getCurrentMilliseconds (c : Clock) : UInt64 := c.load .milliseconds

def getCurrentSeconds (c : Clock) : UInt64 := c.load .seconds

def store (c : Clock) (now : Nat) (unit : TimeUnit) : Clock :=
  { c with stored := Function.update c.stored unit (now / unit.size) }

/-- The loop of the thread. -/
def update (c : Clock) : Option Clock :=
  match c.pc with
  | .unborn => none
  | .read => some { c with pc := .store c.system .microseconds }
  | .store now .microseconds =>
      some { c.store now .microseconds with pc := .store now .milliseconds }
  | .store now .milliseconds => some { c.store now .milliseconds with pc := .store now .seconds }
  | .store now .seconds =>
      some { c.store now .seconds with pc := .sleep, passes := c.passes + 1 }
  | .sleep => some { c with pc := .read }

def step (c : Clock) : ClockAction → Option Clock
  | .system now => some { c with system := now }
  | .load => some (if c.pc = .unborn then { c with pc := .read } else c)
  | .update => c.update

/-- The system clock is not set back. -/
def Forward (c : Clock) : ClockAction → Prop
  | .system now => c.system ≤ now
  | _ => True

inductive Stepped (c : Clock) : Clock → Prop
  | system (now : Nat) (hnow : c.system ≤ now) : Stepped c { c with system := now }
  | load : Stepped c c
  | start (hpc : c.pc = .unborn ∨ c.pc = .sleep) : Stepped c { c with pc := .read }
  | read (hpc : c.pc = .read) : Stepped c { c with pc := .store c.system .microseconds }
  | microseconds (now : Nat) (hpc : c.pc = .store now .microseconds) :
      Stepped c { c.store now .microseconds with pc := .store now .milliseconds }
  | milliseconds (now : Nat) (hpc : c.pc = .store now .milliseconds) :
      Stepped c { c.store now .milliseconds with pc := .store now .seconds }
  | seconds (now : Nat) (hpc : c.pc = .store now .seconds) :
      Stepped c { c.store now .seconds with pc := .sleep, passes := c.passes + 1 }

theorem step_stepped {c c' : Clock} {a : ClockAction} (hforward : c.Forward a)
    (hstep : c.step a = some c') : c.Stepped c' := by
  cases a with
  | system now =>
      cases hstep
      exact .system now hforward
  | load =>
      cases hstep
      split
      · next hpc => exact .start (.inl hpc)
      · exact .load
  | update =>
      replace hstep : c.update = some c' := hstep
      unfold update at hstep
      split at hstep
      · cases hstep
      · next hpc =>
        cases hstep
        exact .read hpc
      · next now hpc =>
        cases hstep
        exact .microseconds now hpc
      · next now hpc =>
        cases hstep
        exact .milliseconds now hpc
      · next now hpc =>
        cases hstep
        exact .seconds now hpc
      · next hpc =>
        cases hstep
        exact .start (.inr hpc)

/-! ## What is stored -/

/-- What a pass that has begun has to store, and has stored. -/
def Storing (c : Clock) (now : Nat) : TimeUnit → Prop
  | .microseconds => ∀ u, c.stored u ≤ now / u.size
  | .milliseconds => (∀ u, c.stored u ≤ now / u.size) ∧ c.stored .microseconds = now
  | .seconds => (∀ u, c.stored u ≤ now / u.size) ∧ c.stored .microseconds = now ∧
      c.stored .milliseconds = now / 1000

structure Inv (c : Clock) : Prop where
  /-- what is stored is not ahead of the system clock -/
  behind : ∀ u, c.stored u ≤ c.system / u.size
  storing : ∀ now u, c.pc = .store now u → now ≤ c.system ∧ c.Storing now u
  /-- the coarser units are not ahead of the finer ones -/
  ordered : 0 < c.passes → c.stored .seconds ≤ c.stored .milliseconds / 1000 ∧
    c.stored .milliseconds ≤ c.stored .microseconds / 1000

/-- What is stored comes from passes that began when the system clock was at `t` or later. -/
structure Since (t passes : Nat) (c : Clock) : Prop where
  system : t ≤ c.system
  begun : ∀ now u, passes + 1 ≤ c.passes → c.pc = .store now u → t ≤ now
  stored : ∀ u, passes + 2 ≤ c.passes → t / u.size ≤ c.stored u

variable {c c' : Clock} {a : ClockAction} {t now : Nat}

theorem init_inv {first second third : Nat} (h : first ≤ second) (h' : second ≤ third) :
    (init first second third).Inv where
  behind := by
    intro u
    cases u with
    | microseconds =>
        show first ≤ third / 1
        omega
    | milliseconds => exact Nat.div_le_div_right h'
    | seconds => exact Nat.le_refl _
  storing := fun now u hpc => by cases hpc
  ordered := fun hpasses => absurd hpasses (Nat.lt_irrefl 0)

theorem stored_store_self (c : Clock) (now : Nat) (u : TimeUnit) :
    (c.store now u).stored u = now / u.size := Function.update_self _ _ _

theorem stored_store_of_ne (c : Clock) (now : Nat) {u v : TimeUnit} (h : v ≠ u) :
    (c.store now u).stored v = c.stored v := Function.update_of_ne h _ _

theorem stored_store_le (h : ∀ u, c.stored u ≤ now / u.size) (u v : TimeUnit) :
    (c.store now u).stored v ≤ now / v.size := by
  by_cases heq : v = u
  · apply Nat.le_of_eq
    rw [heq, stored_store_self]
  · rw [stored_store_of_ne c now heq]
    exact h v

theorem Storing.le {u : TimeUnit} (h : c.Storing now u) (v : TimeUnit) :
    c.stored v ≤ now / v.size := by
  cases u with
  | microseconds => exact h v
  | milliseconds => exact h.1 v
  | seconds => exact h.1 v

theorem Stepped.inv (hstep : c.Stepped c') (h : c.Inv) : c'.Inv := by
  have hbehind : ∀ now u v, c.pc = .store now u → (c.store now u).stored v ≤ c.system / v.size := by
    intro now u v hpc
    obtain ⟨hnow, hstoring⟩ := h.storing now u hpc
    calc
      (c.store now u).stored v ≤ now / v.size := stored_store_le hstoring.le u v
      _ ≤ c.system / v.size := Nat.div_le_div_right hnow
  cases hstep with
  | system now hnow =>
      refine ⟨fun u => Nat.le_trans (h.behind u) (Nat.div_le_div_right hnow), fun t u hpc => ?_,
        h.ordered⟩
      obtain ⟨ht, hstoring⟩ := h.storing t u hpc
      exact ⟨Nat.le_trans ht hnow, hstoring⟩
  | load => exact h
  | start => exact ⟨h.behind, fun now u hpc => (by cases hpc), h.ordered⟩
  | read hpc =>
      refine ⟨h.behind, fun now u hpc' => ?_, h.ordered⟩
      cases hpc'
      exact ⟨Nat.le_refl _, h.behind⟩
  | microseconds now hpc =>
      obtain ⟨hnow, hstoring⟩ := h.storing now _ hpc
      have hmicro := stored_store_self c now .microseconds
      rw [TimeUnit.size, Nat.div_one] at hmicro
      have hmilli := stored_store_of_ne c now (u := .microseconds) (v := .milliseconds) (by decide)
      have hsec := stored_store_of_ne c now (u := .microseconds) (v := .seconds) (by decide)
      refine ⟨fun v => hbehind now _ v hpc, fun now' u hpc' => ?_, fun hpasses => ?_⟩
      · cases hpc'
        exact ⟨hnow, stored_store_le hstoring.le _, hmicro⟩
      · dsimp only
        rw [hmicro, hmilli, hsec]
        exact ⟨(h.ordered hpasses).1, hstoring.le .milliseconds⟩
  | milliseconds now hpc =>
      obtain ⟨hnow, hstoring⟩ := h.storing now _ hpc
      have hmicro := stored_store_of_ne c now (u := .milliseconds) (v := .microseconds) (by decide)
      rw [hstoring.2] at hmicro
      have hmilli := stored_store_self c now .milliseconds
      have hsec := stored_store_of_ne c now (u := .milliseconds) (v := .seconds) (by decide)
      refine ⟨fun v => hbehind now _ v hpc, fun now' u hpc' => ?_, fun _ => ?_⟩
      · cases hpc'
        exact ⟨hnow, stored_store_le hstoring.le _, hmicro, hmilli⟩
      · dsimp only
        rw [hmicro, hmilli, hsec, Nat.div_div_eq_div_mul]
        exact ⟨hstoring.le .seconds, Nat.le_refl _⟩
  | seconds now hpc =>
      obtain ⟨hnow, hstoring⟩ := h.storing now _ hpc
      have hmicro := stored_store_of_ne c now (u := .seconds) (v := .microseconds) (by decide)
      rw [hstoring.2.1] at hmicro
      have hmilli := stored_store_of_ne c now (u := .seconds) (v := .milliseconds) (by decide)
      rw [hstoring.2.2] at hmilli
      have hsec := stored_store_self c now .seconds
      refine ⟨fun v => hbehind now _ v hpc, fun now' u hpc' => (by cases hpc'), fun _ => ?_⟩
      dsimp only
      rw [hmicro, hmilli, hsec, Nat.div_div_eq_div_mul]
      exact ⟨Nat.le_refl _, Nat.le_refl _⟩

theorem Stepped.stored_le (hstep : c.Stepped c') (h : c.Inv) (v : TimeUnit) :
    c.stored v ≤ c'.stored v := by
  have hstore : ∀ now u, c.pc = .store now u → c.stored v ≤ (c.store now u).stored v := by
    intro now u hpc
    by_cases heq : v = u
    · rw [heq, stored_store_self]
      exact (h.storing now u hpc).2.le u
    · exact Nat.le_of_eq (stored_store_of_ne c now heq).symm
  cases hstep with
  | system | load | start | read => exact Nat.le_refl _
  | microseconds now hpc => exact hstore now _ hpc
  | milliseconds now hpc => exact hstore now _ hpc
  | seconds now hpc => exact hstore now _ hpc

theorem Stepped.since {passes : Nat} (hstep : c.Stepped c') (h : c.Inv)
    (hsince : Since t passes c) : Since t passes c' := by
  have hstored : ∀ u, passes + 2 ≤ c.passes → t / u.size ≤ c'.stored u := fun u hpasses =>
    Nat.le_trans (hsince.stored u hpasses) (hstep.stored_le h u)
  cases hstep with
  | system now hnow => exact ⟨Nat.le_trans hsince.system hnow, hsince.begun, hsince.stored⟩
  | load => exact hsince
  | start => exact ⟨hsince.system, fun now u _ hpc => (by cases hpc), hsince.stored⟩
  | read hpc =>
      refine ⟨hsince.system, fun now u _ hpc' => ?_, hsince.stored⟩
      cases hpc'
      exact hsince.system
  | microseconds now hpc =>
      refine ⟨hsince.system, fun now' u hpasses hpc' => ?_, hstored⟩
      cases hpc'
      exact hsince.begun now _ hpasses hpc
  | milliseconds now hpc =>
      refine ⟨hsince.system, fun now' u hpasses hpc' => ?_, hstored⟩
      cases hpc'
      exact hsince.begun now _ hpasses hpc
  | seconds now hpc =>
      refine ⟨hsince.system, fun now' u _ hpc' => (by cases hpc'), fun u hpasses => ?_⟩
      -- the pass that ends here is one that began at `t` or later
      have ht : t ≤ now := hsince.begun now _ (Nat.le_of_succ_le_succ hpasses) hpc
      obtain ⟨-, -, hmicro, hmilli⟩ := h.storing now _ hpc
      refine Nat.le_trans (Nat.div_le_div_right ht) (Nat.le_of_eq ?_)
      dsimp only
      cases u with
      | microseconds =>
          rw [stored_store_of_ne c now (by decide), hmicro]
          exact Nat.div_one now
      | milliseconds => rw [stored_store_of_ne c now (by decide), hmilli, TimeUnit.size]
      | seconds => rw [stored_store_self]

/-- Between two moments of a run: no atomic goes back, none is ahead of the system clock, the
coarser units are not ahead of the finer ones once all have been stored, and when two passes have
ended in between, what is stored is not older than the first moment. -/
structure Between (c c' : Clock) : Prop where
  system : c.system ≤ c'.system
  monotone : ∀ u, c.stored u ≤ c'.stored u
  behind : ∀ u, c'.stored u ≤ c'.system / u.size
  fresh : ∀ u, c.passes + 2 ≤ c'.passes → c.system / u.size ≤ c'.stored u
  ordered : 0 < c'.passes → c'.stored .seconds ≤ c'.stored .milliseconds / 1000 ∧
    c'.stored .milliseconds ≤ c'.stored .microseconds / 1000

theorem run_between {more : List ClockAction} (hmore : Run step Forward c more c') (h : c.Inv) :
    c'.Inv ∧ Between c c' := by
  have hsince : Since c.system c.passes c := by
    refine ⟨Nat.le_refl _, fun now u hpasses => ?_, fun u hpasses => ?_⟩
    · omega
    · omega
  have hend : c'.Inv ∧ (∀ u, c.stored u ≤ c'.stored u) ∧ Since c.system c.passes c' := by
    apply hmore.invariant (I := fun s => s.Inv ∧ (∀ u, c.stored u ≤ s.stored u) ∧
      Since c.system c.passes s)
    · rintro s a s' ⟨hinv, hmono, hsince⟩ hforward htaken
      have hstep := step_stepped hforward htaken
      exact ⟨hstep.inv hinv, fun u => Nat.le_trans (hmono u) (hstep.stored_le hinv u),
        hstep.since hinv hsince⟩
    · exact ⟨h, fun u => Nat.le_refl _, hsince⟩
  obtain ⟨hinv, hmono, hsince⟩ := hend
  exact ⟨hinv, hsince.system, hmono, hinv.behind, hsince.stored, hinv.ordered⟩

theorem Inv.load_toNat (h : c.Inv) (h64 : c.system < 2 ^ 64) (u : TimeUnit) :
    (c.load u).toNat = c.stored u := by
  apply UInt64.toNat_ofNat_of_lt'
  calc
    c.stored u ≤ c.system / u.size := h.behind u
    _ ≤ c.system := Nat.div_le_self _ _
    _ < 2 ^ 64 := h64

theorem updates_run {n : Nat}
    (h : exec step c (.replicate n .update) = some c') :
    Run step Forward c (.replicate n .update) c' := by
  refine (Run.of_exec h).strengthen fun a ha c => ?_
  rw [List.eq_of_mem_replicate ha]
  trivial

/-- In every interleaving of the thread that updates with the threads that read, as long as the
system clock is not set back: a later reading is not smaller; none is ahead of the system clock;
when two passes have ended since, none is older than the first moment; and once all three have
been stored, a reading in a coarser unit is not ahead of one in a finer unit. -/
theorem load_between {first second third : Nat} (hfirst : first ≤ second)
    (hsecond : second ≤ third) {acts more : List ClockAction}
    (hrun : Run step Forward (init first second third) acts c)
    (hmore : Run step Forward c more c') (h64 : c'.system < 2 ^ 64) :
    (∀ u, (c.load u).toNat ≤ (c'.load u).toNat ∧ (c'.load u).toNat ≤ c'.system / u.size ∧
      (c.passes + 2 ≤ c'.passes → c.system / u.size ≤ (c'.load u).toNat)) ∧
    (0 < c'.passes →
      c'.getCurrentSeconds.toNat ≤ c'.getCurrentMilliseconds.toNat / 1000 ∧
        c'.getCurrentMilliseconds.toNat ≤ c'.getCurrentMicroseconds.toNat / 1000) := by
  have hc : c.Inv := (run_between hrun (init_inv hfirst hsecond)).1
  obtain ⟨hc', hbetween⟩ := run_between hmore hc
  have hload' := hc'.load_toNat h64
  have hload := hc.load_toNat (Nat.lt_of_le_of_lt hbetween.system h64)
  refine ⟨fun u => ?_, fun hpasses => ?_⟩
  · rw [hload, hload']
    exact ⟨hbetween.monotone u, hbetween.behind u, hbetween.fresh u⟩
  · rw [getCurrentSeconds, getCurrentMilliseconds, getCurrentMicroseconds, hload', hload', hload']
    exact hbetween.ordered hpasses

/-- The clock is at seven seconds, and was at six when the variables were initialised. -/
theorem load_between_passes : ∃ c c' : Clock, c.getCurrentMilliseconds = 6000 ∧
    c'.getCurrentMilliseconds = 7000 ∧ c.system / 1000 ≤ (c'.load .milliseconds).toNat := by
  have h : ((step (init 6000000 6000000 6000000) (.system 7000000)).bind fun b =>
      (exec step b [.load]).bind fun c =>
        (exec step c (.replicate 10 .update)).map fun c' =>
          ([c.passes, c'.passes], c'.system,
            [c.getCurrentMilliseconds, c'.getCurrentMilliseconds])) =
      some ([0, 2], 7000000, [6000, 7000]) := by decide +kernel
  obtain ⟨b, hsystem, h⟩ := Option.bind_eq_some_iff.1 h
  obtain ⟨c, hload, h⟩ := Option.bind_eq_some_iff.1 h
  obtain ⟨c', hupdates, hend⟩ := Option.map_eq_some_iff.1 h
  simp only [Prod.mk.injEq, List.cons.injEq, and_true] at hend
  obtain ⟨⟨hp, hp'⟩, hs', hms, hms'⟩ := hend
  have hrun : Run step Forward b [.load] c := (Run.of_exec hload).strengthen fun a ha c => by
    rw [List.mem_singleton.1 ha]
    trivial
  have hforward : (init 6000000 6000000 6000000).Forward (.system 7000000) := by
    show 6000000 ≤ 7000000
    decide
  refine ⟨c, c', hms, hms', ?_⟩
  exact ((load_between (Nat.le_refl _) (Nat.le_refl _) (.cons hforward hsystem hrun)
    (updates_run hupdates) (by omega)).1 .milliseconds).2.2 (by omega)

end Clock

/-! ## `Ticker` -/

structure Ticker where
  createTimeMs : UInt64
  beginTimeMs : UInt64
  minMs : UInt64
  /-- without it the constructor clears `ctx_` -/
  printLog : Bool
  deriving DecidableEq

namespace Ticker

def create (c : Clock) (minMs : UInt64) (printLog : Bool) : Ticker :=
  ⟨c.getCurrentMilliseconds, c.getCurrentMilliseconds, minMs, printLog⟩

def elapsedTimeMS (t : Ticker) (c : Clock) : UInt64 := c.getCurrentMilliseconds - t.beginTimeMs

def createTimeMS (t : Ticker) (c : Clock) : UInt64 := c.getCurrentMilliseconds - t.createTimeMs

def reset (t : Ticker) (c : Clock) : Ticker := { t with beginTimeMs := c.getCurrentMilliseconds }

/-- `~Ticker`: the time that it logs, if it logs one. -/
def destroy (t : Ticker) (c : Clock) : Option UInt64 :=
  if t.createTimeMS c > t.minMs ∧ t.printLog then some (t.createTimeMS c) else none

variable {c₀ c₁ c₂ c₃ : Clock} {before between after : List ClockAction}

theorem span_toNat (h₁ : c₁.Inv) (hrun : Run Clock.step Clock.Forward c₁ after c₃)
    (h64 : c₃.system < 2 ^ 64) :
    c₁.stored .milliseconds +
      (c₃.getCurrentMilliseconds - c₁.getCurrentMilliseconds).toNat = c₃.stored .milliseconds := by
  obtain ⟨h₃, hto₃⟩ := Clock.run_between hrun h₁
  have hload₁ := h₁.load_toNat (Nat.lt_of_le_of_lt hto₃.system h64) .milliseconds
  have hload₃ := h₃.load_toNat h64 .milliseconds
  have hle : c₁.stored .milliseconds ≤ c₃.stored .milliseconds := hto₃.monotone .milliseconds
  rw [Clock.getCurrentMilliseconds, Clock.getCurrentMilliseconds, UInt64.toNat_sub_of_le, hload₁,
    hload₃]
  · omega
  · rw [UInt64.le_iff_toNat_le, hload₁, hload₃]
    exact hle

/-- The earlier reading is at most two passes old, so the difference is no longer than the time
since then. -/
theorem span_le (h₀ : c₀.Inv) (hbefore : Run Clock.step Clock.Forward c₀ before c₁)
    (hafter : Run Clock.step Clock.Forward c₁ after c₃) (h64 : c₃.system < 2 ^ 64)
    (hstart : c₀.passes + 2 ≤ c₁.passes) :
    c₀.system + (c₃.getCurrentMilliseconds - c₁.getCurrentMilliseconds).toNat * 1000 <
      c₃.system + 1000 := by
  obtain ⟨h₁, hto₁⟩ := Clock.run_between hbefore h₀
  obtain ⟨h₃, -⟩ := Clock.run_between hafter h₁
  have hspan := span_toNat h₁ hafter h64
  have hold : c₀.system / 1000 ≤ c₁.stored .milliseconds := hto₁.fresh .milliseconds hstart
  have hbehind : c₃.stored .milliseconds ≤ c₃.system / 1000 := h₃.behind .milliseconds
  omega

theorem span_le_init {first second third : Nat} (hfirst : first ≤ second) (hsecond : second ≤ third)
    {acts : List ClockAction}
    (hrun : Run Clock.step Clock.Forward (Clock.init first second third) acts c₁)
    (hafter : Run Clock.step Clock.Forward c₁ after c₃) (h64 : c₃.system < 2 ^ 64) :
    second + (c₃.getCurrentMilliseconds - c₁.getCurrentMilliseconds).toNat * 1000 <
      c₃.system + 1000 := by
  obtain ⟨h₁, hto₁⟩ := Clock.run_between hrun (Clock.init_inv hfirst hsecond)
  obtain ⟨h₃, -⟩ := Clock.run_between hafter h₁
  have hspan := span_toNat h₁ hafter h64
  have hold : second / 1000 ≤ c₁.stored .milliseconds := hto₁.monotone .milliseconds
  have hbehind : c₃.stored .milliseconds ≤ c₃.system / 1000 := h₃.behind .milliseconds
  omega

/-- The later reading is at most two passes old, so the difference is no shorter than the time
until then. -/
theorem span_ge (h₁ : c₁.Inv) (hbetween : Run Clock.step Clock.Forward c₁ between c₂)
    (hafter : Run Clock.step Clock.Forward c₂ after c₃) (h64 : c₃.system < 2 ^ 64)
    (hend : c₂.passes + 2 ≤ c₃.passes) :
    c₂.system < c₁.system +
      (c₃.getCurrentMilliseconds - c₁.getCurrentMilliseconds).toNat * 1000 + 1000 := by
  obtain ⟨h₂, -⟩ := Clock.run_between hbetween h₁
  obtain ⟨-, hto₃⟩ := Clock.run_between hafter h₂
  have hspan := span_toNat h₁ (hbetween.append hafter) h64
  have hnew : c₂.system / 1000 ≤ c₃.stored .milliseconds := hto₃.fresh .milliseconds hend
  have hbehind : c₁.stored .milliseconds ≤ c₁.system / 1000 := h₁.behind .milliseconds
  omega

/-- A ticker that lives from `c₁` to `c₃`.  The difference that it takes does not wrap.  It logs
only a time above the bound, and no longer one than what has passed since the variables were
initialised, or since two passes before it was made; and it does log one if more than the bound has
passed until two passes before it goes.  `ElapsedTimeMS` measures in the same way from `Reset`
on. -/
theorem ticker_measures {first second third : Nat} (hfirst : first ≤ second)
    (hsecond : second ≤ third) {acts : List ClockAction}
    (hrun : Run Clock.step Clock.Forward (Clock.init first second third) acts c₀)
    (hbefore : Run Clock.step Clock.Forward c₀ before c₁)
    (hbetween : Run Clock.step Clock.Forward c₁ between c₂)
    (hafter : Run Clock.step Clock.Forward c₂ after c₃) (h64 : c₃.system < 2 ^ 64)
    (minMs : UInt64) (t : Ticker) :
    (c₁.getCurrentMilliseconds.toNat + ((create c₁ minMs true).createTimeMS c₃).toNat =
        c₃.getCurrentMilliseconds.toNat ∧
      c₁.getCurrentMilliseconds.toNat + ((t.reset c₁).elapsedTimeMS c₃).toNat =
        c₃.getCurrentMilliseconds.toNat) ∧
    (∀ tm, (create c₁ minMs true).destroy c₃ = some tm →
      minMs < tm ∧ second + tm.toNat * 1000 < c₃.system + 1000 ∧
        (c₀.passes + 2 ≤ c₁.passes → c₀.system + tm.toNat * 1000 < c₃.system + 1000)) ∧
    (c₂.passes + 2 ≤ c₃.passes → c₁.system + (minMs.toNat + 1) * 1000 ≤ c₂.system →
      ((create c₁ minMs true).destroy c₃).isSome) ∧
    second + ((t.reset c₁).elapsedTimeMS c₃).toNat * 1000 < c₃.system + 1000 ∧
    (c₀.passes + 2 ≤ c₁.passes →
      c₀.system + ((t.reset c₁).elapsedTimeMS c₃).toNat * 1000 < c₃.system + 1000) ∧
    (c₂.passes + 2 ≤ c₃.passes →
      c₂.system < c₁.system + ((t.reset c₁).elapsedTimeMS c₃).toNat * 1000 + 1000) := by
  have h₀ : c₀.Inv := (Clock.run_between hrun (Clock.init_inv hfirst hsecond)).1
  have h₁ : c₁.Inv := (Clock.run_between hbefore h₀).1
  have hlife := hbetween.append hafter
  obtain ⟨h₃, hto₃⟩ := Clock.run_between hlife h₁
  have hspan : c₁.getCurrentMilliseconds.toNat +
      (c₃.getCurrentMilliseconds - c₁.getCurrentMilliseconds).toNat =
        c₃.getCurrentMilliseconds.toNat := by
    have hstored := span_toNat h₁ hlife h64
    rw [← h₁.load_toNat (Nat.lt_of_le_of_lt hto₃.system h64), ← h₃.load_toNat h64] at hstored
    exact hstored
  have hinit := span_le_init hfirst hsecond (hrun.append hbefore) hlife h64
  have hle := span_le h₀ hbefore hlife h64
  have hge := span_ge h₁ hbetween hafter h64
  refine ⟨⟨hspan, hspan⟩, fun tm htm => ?_, fun hend hslow => ?_, hinit, hle, hge⟩
  · obtain ⟨⟨hmin, -⟩, heq⟩ := Option.ite_none_right_eq_some.1 htm
    cases heq
    exact ⟨hmin, hinit, hle⟩
  · have hlong := hge hend
    rw [destroy, if_pos]
    · rfl
    · refine ⟨UInt64.lt_iff_toNat_lt.2 ?_, rfl⟩
      show minMs.toNat < (c₃.getCurrentMilliseconds - c₁.getCurrentMilliseconds).toNat
      omega

/-- The call takes a second, and two passes are made before it and in the end. -/
theorem ticker_measures_second : ∃ c₀ c₁ c₂ c₃ : Clock,
    c₁.system + (5 + 1) * 1000 ≤ c₂.system ∧ (create c₁ 5 true).destroy c₃ = some 1000 ∧
      c₁.getCurrentMilliseconds.toNat + ((create c₁ 5 true).createTimeMS c₃).toNat =
        c₃.getCurrentMilliseconds.toNat ∧
      c₀.system + (1000 : UInt64).toNat * 1000 < c₃.system + 1000 ∧
      ((create c₁ 5 true).destroy c₃).isSome := by
  have h : ((exec Clock.step (Clock.init 0 0 0) [.load]).bind fun c₀ =>
      (exec Clock.step c₀ (.replicate 10 .update)).bind fun c₁ =>
        (Clock.step c₁ (.system 1000000)).bind fun c₂ =>
          (exec Clock.step c₂ (.replicate 10 .update)).map fun c₃ =>
            ([c₀.passes, c₁.passes, c₂.passes, c₃.passes], [c₁.system, c₂.system, c₃.system],
              (create c₁ 5 true).destroy c₃)) =
      some ([0, 2, 2, 4], [0, 1000000, 1000000], some 1000) := by decide +kernel
  obtain ⟨c₀, hload, h⟩ := Option.bind_eq_some_iff.1 h
  obtain ⟨c₁, hbefore, h⟩ := Option.bind_eq_some_iff.1 h
  obtain ⟨c₂, hstep, h⟩ := Option.bind_eq_some_iff.1 h
  obtain ⟨c₃, hafter, hend⟩ := Option.map_eq_some_iff.1 h
  simp only [Prod.mk.injEq, List.cons.injEq, and_true] at hend
  obtain ⟨⟨hp₀, hp₁, hp₂, hp₃⟩, ⟨hs₁, hs₂, hs₃⟩, htm⟩ := hend
  have hlong : c₁.system + (5 + 1) * 1000 ≤ c₂.system := by omega
  have hforward : c₁.Forward (.system 1000000) := by
    show c₁.system ≤ 1000000
    omega
  have hrun₀ : Run Clock.step Clock.Forward (Clock.init 0 0 0) [.load] c₀ :=
    (Run.of_exec hload).strengthen fun a ha c => by
      rw [List.mem_singleton.1 ha]
      trivial
  obtain ⟨⟨hwrap, -⟩, hlogged, hlogs, -⟩ := ticker_measures (Nat.le_refl 0) (Nat.le_refl 0) hrun₀
    (Clock.updates_run hbefore) (.cons hforward hstep (.nil c₂)) (Clock.updates_run hafter)
    (by omega) 5 ⟨0, 0, 0, true⟩
  obtain ⟨-, -, hbound⟩ := hlogged 1000 htm
  exact ⟨c₀, c₁, c₂, c₃, hlong, htm, hwrap, hbound (by omega), hlogs (by omega) hlong⟩

end Ticker

end CommonLibrary.Utils
