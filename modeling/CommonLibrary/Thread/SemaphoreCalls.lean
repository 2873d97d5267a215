import CommonLibrary.Thread.MonitorProgress
import Mathlib.Algebra.Group.Nat.Defs

/-!
# The semaphore by itself

Any thread may call `Post` or `Wait` at any time.  No token is lost or made up, none is left
while a thread is blocked, and the calls end.
-/

namespace CommonLibrary.Thread

open Foundation

structure Callers where
  sem : Semaphore := {}
  /-- history: the sum of the arguments of `Post` -/
  posted : Nat := 0
  /-- history: how often `Wait` has passed -/
  passed : Nat := 0

def SemOp.posted : SemOp → Nat
  | .post n => n
  | .wait => 0

def SemOp.passed : SemOp → Nat
  | .post _ => 0
  | .wait => 1

namespace Callers

def step (c : Callers) (call : ThreadId × SemOp) : Option Callers :=
  (call.2.run c.sem).map fun sem =>
    ⟨sem, c.posted + call.2.posted, c.passed + call.2.passed⟩

def program : SemProgram ThreadId Callers (ThreadId × SemOp) where
  step := step
  thread := Prod.fst
  sem := sem
  op := fun _ call => some call.2
  own := nofun
  call := by
    rintro c call op ⟨⟩
    show (Option.map _ (call.2.run c.sem)).map sem = call.2.run c.sem
    rw [Option.map_map]
    exact congrFun Option.map_id _
  stable := fun h _ _ => h

/-- The tokens: what has been posted is in the semaphore or has been taken. -/
def Balanced (c : Callers) : Prop :=
  c.sem.count < 2 ^ 32 ∧ (c.sem.count + c.passed) % 2 ^ 32 = c.posted % 2 ^ 32

theorem step_balanced {c c' : Callers} {call : ThreadId × SemOp} (h : c.Balanced)
    (hstep : c.step call = some c') : c'.Balanced := by
  obtain ⟨sem, hsem, rfl⟩ := Option.map_eq_some_iff.1 hstep
  obtain ⟨hcount, hsum⟩ := h
  obtain ⟨t, op⟩ := call
  cases op with
  | post n =>
      cases hsem
      refine ⟨Nat.mod_lt _ (Nat.two_pow_pos 32), ?_⟩
      show ((c.sem.count + n) % 2 ^ 32 + (c.passed + 0)) % 2 ^ 32 = (c.posted + n) % 2 ^ 32
      omega
  | wait =>
      have hone := Semaphore.count_wait hsem
      refine ⟨Nat.lt_trans (Nat.lt_of_succ_le (Nat.le_of_eq hone)) hcount, ?_⟩
      show (sem.count + (c.passed + 1)) % 2 ^ 32 = (c.posted + 0) % 2 ^ 32
      omega

variable {m : Monitor ThreadId Callers (ThreadId × SemOp)}

/-- One thread at a time has `mux_`, the tokens are those that have been posted, up to
`uint32_t`, and if a thread is blocked, no more are there than those threads will take that
are on their way, or that are still to be announced. -/
theorem no_wakeup_lost {acts : List (MonitorAction ThreadId (ThreadId × SemOp))}
    (hrun : Run (Monitor.step program) (fun _ _ => True) { base := {} } acts m) :
    (∀ t u, (m.pc t).holds → (m.pc u).holds → t = u) ∧ m.base.Balanced ∧
      ∃ threads : Finset ThreadId, (∀ t, m.pc t ≠ .out → t ∈ threads) ∧
        ∀ t a, m.pc t = .asleep a → m.base.sem.count ≤ weight threads SemPc.coming m.pc := by
  obtain ⟨threads, hok⟩ := Monitor.run_ok hrun ⟨∅, Monitor.init_ok program {}⟩
  refine ⟨fun t u => hok.exclusive, ?_, threads, fun t => hok.mem, fun t a hpc => ?_⟩
  · exact Monitor.base_invariant hrun (fun c a c' => step_balanced) ⟨by decide, rfl⟩
  · have hin : t ∈ m.waiters := by
      rw [hok.waiters t, hpc]
      rfl
    exact hok.noLoss (List.ne_nil_of_mem hin)

/-- Two threads wait, and a `Post(2)` is there for both; the one that comes first takes both
tokens in two calls, and the other one is blocked again. -/
theorem no_wakeup_lost_overtaken : ∃ m : Monitor ThreadId Callers (ThreadId × SemOp),
    m.pc 2 = .asleep (2, .wait) ∧ m.base.Balanced ∧ m.base.passed = 2 := by
  have hexec : ∃ m, exec (Monitor.step program) ({ base := {} } : Monitor ThreadId Callers _)
      [.call (1, .wait), .lock 1, .count 1, .call (2, .wait), .lock 2, .count 2,
        .call (3, .post 2), .lock 3, .count 3, .notify 3 none, .unlock 3,
        .lock 1, .count 1, .unlock 1, .call (1, .wait), .lock 1, .count 1, .unlock 1,
        .lock 2, .count 2] = some m ∧ m.pc 2 = .asleep (2, .wait) ∧ m.base.passed = 2 :=
    ⟨_, rfl, rfl, rfl⟩
  obtain ⟨m, hm, hasleep, hpassed⟩ := hexec
  exact ⟨m, hasleep, (no_wakeup_lost (Run.of_exec hm)).2.1, hpassed⟩

theorem settles (threads : Finset ThreadId) :
    Monitor.Settles program (fun _ => true) threads (fun _ => True) (fun _ => 0) where
  actor := fun _ h => by cases h
  less := fun _ h => by cases h
  call := fun _ _ _ _ => ⟨trivial, Nat.le_refl _⟩

/-- As long as nobody calls `Post` or `Wait` anew, only so many steps follow.  When nobody can
take one, every call of `Post` has returned, and a call of `Wait` that has not is blocked with
`count_` 0, when as much has been taken as has been posted. -/
theorem calls_end {acts : List (MonitorAction ThreadId (ThreadId × SemOp))}
    (hrun : Run (Monitor.step program) (fun _ _ => True) { base := {} } acts m) :
    ∃ bound, ∀ more m', Run (Monitor.step program) (Monitor.Quiet fun _ => true) m more m' →
      more.length ≤ bound + 3 * more.countP MonitorAction.isSpurious ∧
        (Monitor.Stuck program (fun _ => true) m' → ∀ t, m'.pc t = .out ∨
          m'.pc t = .asleep (t, .wait) ∧ m'.base.sem.count = 0 ∧
            m'.base.passed % 2 ^ 32 = m'.base.posted % 2 ^ 32) := by
  obtain ⟨threads, hok⟩ := Monitor.run_ok hrun ⟨∅, Monitor.init_ok program {}⟩
  have hbalanced : m.base.Balanced :=
    Monitor.base_invariant hrun (fun c a c' => step_balanced) ⟨by decide, rfl⟩
  refine ⟨Monitor.stepsLeft (fun _ => true) threads (fun _ => 0) m, fun more m' hmore => ?_⟩
  obtain ⟨⟨hok', -⟩, hlength⟩ := Monitor.quiet_run_length hmore hok (settles threads) trivial
  refine ⟨hlength, fun hstuck t => ?_⟩
  rcases (hstuck.settled hok').1 t with hout | ⟨a, hasleep, hthread, hop, hcount⟩
  · exact .inl hout
  · obtain ⟨-, hsum⟩ : m'.base.Balanced :=
      Monitor.base_invariant hmore (fun c a c' => step_balanced) hbalanced
    have hzero : m'.base.sem.count = 0 := hcount
    have ha : a = (t, .wait) := Prod.ext hthread (Option.some.inj hop)
    rw [hzero, Nat.zero_add] at hsum
    exact .inr ⟨ha ▸ hasleep, hzero, hsum⟩

/-- A thread is blocked, and another one has posted and not notified yet.  When it has done so,
both calls return. -/
theorem calls_end_posting : ∃ m m' : Monitor ThreadId Callers (ThreadId × SemOp),
    m.pc 1 = .asleep (1, .wait) ∧ m.pc 2 = .notify 1 ∧
      Monitor.Stuck program (fun _ => true) m' ∧ m'.base.passed = 1 ∧
      (m'.pc 1 = .out ∨ m'.pc 1 = .asleep (1, .wait) ∧ m'.base.sem.count = 0 ∧
        m'.base.passed % 2 ^ 32 = m'.base.posted % 2 ^ 32) := by
  have hruns : ∃ m m' : Monitor ThreadId Callers (ThreadId × SemOp),
      Run (Monitor.step program) (fun _ _ => True) { base := {} }
        [.call (1, .wait), .lock 1, .count 1, .call (2, .post 1), .lock 2, .count 2] m ∧
      (m.pc 1 = .asleep (1, .wait) ∧ m.pc 2 = .notify 1) ∧
      Run (Monitor.step program) (Monitor.Quiet fun _ => true) m
        [.notify 2 (some 1), .unlock 2, .lock 1, .count 1, .unlock 1] m' ∧
      Monitor.Stuck program (fun _ => true) m' ∧ m'.base.passed = 1 := by
    refine ⟨_, _, Run.of_exec rfl, ⟨rfl, rfl⟩, .cons trivial rfl <| .cons trivial rfl <|
      .cons trivial rfl <| .cons trivial rfl <| .cons trivial rfl <| .nil _,
      Monitor.stuck_of_settled (fun t => .inl ?_) fun _ hfresh => (by cases hfresh), rfl⟩
    by_cases h1 : t = 1
    · rw [h1]
      rfl
    by_cases h2 : t = 2
    · rw [h2]
      rfl
    simp [Monitor.goTo, Monitor.wake, Function.update, program, h1, h2]
  obtain ⟨m, m', hrun, ⟨hasleep, hnotify⟩, hmore, hstuck, hpassed⟩ := hruns
  obtain ⟨bound, hbound⟩ := calls_end hrun
  exact ⟨m, m', hasleep, hnotify, hstuck, hpassed, (hbound _ m' hmore).2 hstuck 1⟩

end Callers

end CommonLibrary.Thread
