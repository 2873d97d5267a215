import CommonLibrary.Foundation.Run
import CommonLibrary.Foundation.Threads
import CommonLibrary.Thread.Monitor
import Mathlib.Data.List.Nodup
import Mathlib.Data.List.Range

/-!
# The task queue

Any number of threads put tasks into `TaskQueue`, take tasks out and post exit tokens.  A
step is one critical section of `mux_` or of the semaphore.  Tasks are numbered in the order
in which they are put in.
-/

namespace CommonLibrary.Thread

open Foundation

abbrev TaskId := Nat

inductive QueuePc where
  /-- in no call -/
  | idle
  /-- in `AddTask` or `AddTaskFirst`, about to post -/
  | post
  /-- in `GetTask`, in `Wait` -/
  | wait
  /-- in `GetTask`, about to lock `mux_` -/
  | take
  deriving DecidableEq

/-- History: one critical section of `GetTask`. -/
structure Taken where
  /-- `tasks_` as it was -/
  tasks : List TaskId
  /-- what is returned; `none` is `false` -/
  task : Option TaskId
  deriving DecidableEq

structure TaskQueue where
  tasks : List TaskId := []
  sem : Semaphore := {}
  pc : ThreadId → QueuePc := fun _ => .idle
  /-- the number of tasks added -/
  added : TaskId := 0
  /-- history: the sum of the arguments of `PostExit` -/
  exits : Nat := 0
  /-- history: the critical sections of `GetTask` -/
  taken : List Taken := []

inductive QueueAction where
  /-- the critical section of `AddTask` (`first = false`) or `AddTaskFirst` -/
  | add (t : ThreadId) (first : Bool)
  /-- `Post` of such a call -/
  | post (t : ThreadId)
  | postExit (t : ThreadId) (waitingThreadNum : Nat)
  /-- a call of `GetTask` begins -/
  | getTask (t : ThreadId)
  /-- it comes back from `Wait` -/
  | wait (t : ThreadId)
  /-- its critical section -/
  | take (t : ThreadId)

namespace TaskQueue

def goTo (q : TaskQueue) (t : ThreadId) (pc : QueuePc) : TaskQueue :=
  { q with pc := Function.update q.pc t pc }

def add (q : TaskQueue) (first : Bool) : TaskQueue :=
  { q with
    tasks := if first then q.added :: q.tasks else q.tasks ++ [q.added]
    added := q.added + 1 }

def take (q : TaskQueue) : TaskQueue :=
  { q with tasks := q.tasks.tail, taken := q.taken ++ [⟨q.tasks, q.tasks.head?⟩] }

def step (q : TaskQueue) : QueueAction → Option TaskQueue
  | .add t first => if q.pc t = .idle then some ((q.add first).goTo t .post) else none
  | .post t =>
      if q.pc t = .post then some ({ q with sem := q.sem.post 1 }.goTo t .idle) else none
  | .postExit t waitingThreadNum =>
      if q.pc t = .idle then
        some { q with
          sem := q.sem.post waitingThreadNum
          exits := q.exits + waitingThreadNum }
      else none
  | .getTask t => if q.pc t = .idle then some (q.goTo t .wait) else none
  | .wait t =>
      if q.pc t = .wait then q.sem.wait.map fun sem => { q with sem := sem }.goTo t .take
      else none
  | .take t => if q.pc t = .take then some (q.take.goTo t .idle) else none

/-- The outstanding posts stay below `2 ^ 32`. -/
def PostsFit (q : TaskQueue) : QueueAction → Prop
  | .post _ => q.sem.count + 1 < 2 ^ 32
  | .postExit _ waitingThreadNum => q.sem.count + waitingThreadNum < 2 ^ 32
  | _ => True

def returned (q : TaskQueue) : List TaskId := q.taken.filterMap Taken.task

def falseReturns (q : TaskQueue) : Nat := q.taken.countP fun r => r.task.isNone

structure Accounts (q : TaskQueue) : Prop where
  /-- every task is in the queue or has been returned, once -/
  perm : (q.returned ++ q.tasks).Perm (List.range q.added)
  /-- `false` is returned on an empty queue -/
  empty : ∀ r ∈ q.taken, r.task = r.tasks.head?
  /-- the tokens: in the semaphore, with the threads that are past `Wait`, spent, or not
  posted yet -/
  tokens : ∃ inserted passed, CountAt q.pc .post inserted ∧ CountAt q.pc .take passed ∧
    q.sem.count + passed + (q.returned.length + q.falseReturns) + inserted = q.added + q.exits
  exits : q.falseReturns ≤ q.exits

variable {q q' : TaskQueue}

theorem Accounts.length (h : q.Accounts) : q.returned.length + q.tasks.length = q.added := by
  rw [← List.length_append, h.perm.length_eq, List.length_range]

theorem add_accounts (h : q.Accounts) {t : ThreadId} (hpc : q.pc t = .idle) (first : Bool) :
    ((q.add first).goTo t .post).Accounts := by
  obtain ⟨inserted, passed, hpost, htake, hsum⟩ := h.tokens
  refine ⟨?_, h.empty, ⟨inserted + 1, passed, hpost.enter ?_, htake.pass ?_ ?_, ?_⟩, h.exits⟩
  · show (q.returned ++ if first then q.added :: q.tasks else q.tasks ++ [q.added]).Perm
      (List.range (q.added + 1))
    rw [List.range_succ]
    cases first with
    | true =>
        have hcons := h.perm.cons q.added
        exact (List.perm_middle.trans hcons).trans (List.perm_append_singleton _ _).symm
    | false =>
        rw [if_neg Bool.false_ne_true, ← List.append_assoc]
        exact h.perm.append_right _
  · rw [hpc]; decide
  · rw [hpc]; decide
  · decide
  · show q.sem.count + passed + (q.returned.length + q.falseReturns) + (inserted + 1) =
      q.added + 1 + q.exits
    omega

theorem post_accounts (h : q.Accounts) {t : ThreadId} (hpc : q.pc t = .post)
    (hfits : q.sem.count + 1 < 2 ^ 32) :
    ({ q with sem := q.sem.post 1 }.goTo t .idle : TaskQueue).Accounts := by
  obtain ⟨inserted, passed, hpost, htake, hsum⟩ := h.tokens
  obtain ⟨hpos, hpost'⟩ := hpost.leave hpc (q := .idle) (by decide)
  refine ⟨h.perm, h.empty, ⟨inserted - 1, passed, hpost', htake.pass ?_ ?_, ?_⟩, h.exits⟩
  · rw [hpc]; decide
  · decide
  · have hcount := Semaphore.count_post hfits
    show (q.sem.post 1).count + passed + (q.returned.length + q.falseReturns) + (inserted - 1) =
      q.added + q.exits
    omega

theorem postExit_accounts (h : q.Accounts) {k : Nat} (hfits : q.sem.count + k < 2 ^ 32) :
    ({ q with sem := q.sem.post k, exits := q.exits + k } : TaskQueue).Accounts := by
  obtain ⟨inserted, passed, hpost, htake, hsum⟩ := h.tokens
  refine ⟨h.perm, h.empty, ⟨inserted, passed, hpost, htake, ?_⟩, ?_⟩
  · have hcount := Semaphore.count_post hfits
    show (q.sem.post k).count + passed + (q.returned.length + q.falseReturns) + inserted =
      q.added + (q.exits + k)
    omega
  · show q.falseReturns ≤ q.exits + k
    exact Nat.le_add_right_of_le h.exits

theorem wait_accounts (h : q.Accounts) {t : ThreadId} (hpc : q.pc t = .wait) {sem : Semaphore}
    (hwait : q.sem.wait = some sem) :
    ({ q with sem := sem }.goTo t .take : TaskQueue).Accounts := by
  obtain ⟨inserted, passed, hpost, htake, hsum⟩ := h.tokens
  refine ⟨h.perm, h.empty, ⟨inserted, passed + 1, hpost.pass ?_ ?_, htake.enter ?_, ?_⟩, h.exits⟩
  · rw [hpc]; decide
  · decide
  · rw [hpc]; decide
  · have hcount := Semaphore.count_wait hwait
    show sem.count + (passed + 1) + (q.returned.length + q.falseReturns) + inserted =
      q.added + q.exits
    omega

theorem returned_take (q : TaskQueue) : q.take.returned = q.returned ++ q.tasks.head?.toList := by
  unfold returned take
  rw [List.filterMap_append]
  cases q.tasks <;> rfl

theorem falseReturns_take (q : TaskQueue) :
    q.take.falseReturns = q.falseReturns + if q.tasks = [] then 1 else 0 := by
  unfold falseReturns take
  rw [List.countP_append]
  cases q.tasks <;> rfl

/-- The thread has a token; if there is no task, it is one of `PostExit`. -/
theorem take_accounts (h : q.Accounts) {t : ThreadId} (hpc : q.pc t = .take) :
    (q.take.goTo t .idle).Accounts := by
  obtain ⟨inserted, passed, hpost, htake, hsum⟩ := h.tokens
  obtain ⟨hpos, htake'⟩ := htake.leave hpc (q := .idle) (by decide)
  have hpost' : CountAt (Function.update q.pc t .idle) .post inserted := by
    apply hpost.pass
    · rw [hpc]; decide
    · decide
  have hreturned := returned_take q
  have hfalse := falseReturns_take q
  have hspent : q.tasks.head?.toList.length + (if q.tasks = [] then 1 else 0) = 1 := by
    cases q.tasks <;> rfl
  refine ⟨?_, fun r hr => ?_, ⟨inserted, passed - 1, hpost', htake', ?_⟩, ?_⟩
  · show (q.take.returned ++ q.tasks.tail).Perm (List.range q.added)
    have hsplit : q.tasks.head?.toList ++ q.tasks.tail = q.tasks := by
      cases q.tasks <;> rfl
    rw [hreturned, List.append_assoc, hsplit]
    exact h.perm
  · rcases List.mem_append.1 hr with hr | hr
    · exact h.empty r hr
    · rw [List.mem_singleton.1 hr]
  · show q.sem.count + (passed - 1) + (q.take.returned.length + q.take.falseReturns) + inserted =
      q.added + q.exits
    rw [hreturned, hfalse, List.length_append]
    omega
  · show q.take.falseReturns ≤ q.exits
    have hlength := h.length
    have hexits := h.exits
    rw [hfalse]
    by_cases hnone : q.tasks = []
    · rw [hnone, List.length_nil] at hlength
      rw [if_pos hnone]
      omega
    · rw [if_neg hnone]
      exact hexits

theorem step_accounts (h : q.Accounts) {a : QueueAction} (hfits : q.PostsFit a)
    (hstep : q.step a = some q') : q'.Accounts := by
  cases a with
  | add t first =>
      simp only [step, Option.ite_none_right_eq_some, Option.some.injEq] at hstep
      obtain ⟨hpc, rfl⟩ := hstep
      exact add_accounts h hpc first
  | post t =>
      simp only [step, Option.ite_none_right_eq_some, Option.some.injEq] at hstep
      obtain ⟨hpc, rfl⟩ := hstep
      exact post_accounts h hpc hfits
  | postExit t k =>
      simp only [step, Option.ite_none_right_eq_some, Option.some.injEq] at hstep
      obtain ⟨-, rfl⟩ := hstep
      exact postExit_accounts h hfits
  | getTask t =>
      simp only [step, Option.ite_none_right_eq_some, Option.some.injEq] at hstep
      obtain ⟨hpc, rfl⟩ := hstep
      obtain ⟨inserted, passed, hpost, htake, hsum⟩ := h.tokens
      refine ⟨h.perm, h.empty, ⟨inserted, passed, hpost.pass ?_ ?_, htake.pass ?_ ?_, hsum⟩,
        h.exits⟩
      · rw [hpc]; decide
      · decide
      · rw [hpc]; decide
      · decide
  | wait t =>
      simp only [step, Option.ite_none_right_eq_some] at hstep
      obtain ⟨hpc, hwait⟩ := hstep
      obtain ⟨sem, hsem, rfl⟩ := Option.map_eq_some_iff.1 hwait
      exact wait_accounts h hpc hsem
  | take t =>
      simp only [step, Option.ite_none_right_eq_some, Option.some.injEq] at hstep
      obtain ⟨hpc, rfl⟩ := hstep
      exact take_accounts h hpc

theorem init_accounts : ({} : TaskQueue).Accounts where
  perm := List.Perm.refl _
  empty := fun r hr => by cases hr
  tokens := ⟨0, 0, CountAt.zero fun _ h => (by cases h), CountAt.zero fun _ h => (by cases h), rfl⟩
  exits := le_refl _

/-- Every task is returned at most once, `false` is returned on an empty queue and at most as
often as exits were asked for, and while no call is between its two critical sections, the
semaphore counts the tasks and exit tokens that have not been taken, so that a task in the
queue keeps it from being 0. -/
theorem tasks_handed_out_once {acts : List QueueAction} (hrun : Run step PostsFit {} acts q) :
    (q.returned.Nodup ∧ (q.returned ++ q.tasks).Perm (List.range q.added)) ∧
      (∀ r ∈ q.taken, r.task = none → r.tasks = []) ∧
      q.falseReturns ≤ q.exits ∧
      ((∀ t, q.pc t = .idle ∨ q.pc t = .wait) →
        q.sem.count + (q.returned.length + q.falseReturns) = q.added + q.exits ∧
          (q.sem.count = 0 → q.tasks = [])) := by
  have hq : q.Accounts :=
    hrun.invariant (fun _ _ _ h hfits hstep => step_accounts h hfits hstep) init_accounts
  have hnodup : (q.returned ++ q.tasks).Nodup := hq.perm.nodup_iff.2 List.nodup_range
  refine ⟨⟨(List.nodup_append.1 hnodup).1, hq.perm⟩, fun r hr hnone => ?_, hq.exits,
    fun hquiet => ?_⟩
  · rw [hq.empty r hr] at hnone
    exact List.head?_eq_none_iff.1 hnone
  · obtain ⟨inserted, passed, hpost, htake, hsum⟩ := hq.tokens
    have hinserted : inserted = 0 := by
      apply hpost.eq_zero
      intro t ht
      rcases hquiet t with hidle | hwait
      · rw [ht] at hidle; cases hidle
      · rw [ht] at hwait; cases hwait
    have hpassed : passed = 0 := by
      apply htake.eq_zero
      intro t ht
      rcases hquiet t with hidle | hwait
      · rw [ht] at hidle; cases hidle
      · rw [ht] at hwait; cases hwait
    have hlength := hq.length
    have hexits := hq.exits
    refine ⟨by omega, fun hzero => ?_⟩
    apply List.length_eq_zero_iff.1
    omega

/-- An exit token lets thread 3 take the task before it is announced; the token of the task
comes later, and thread 4 returns `false` with it. -/
theorem tasks_handed_out_once_crossed : ∃ q : TaskQueue,
    q.taken = [⟨[0], some 0⟩, ⟨[], none⟩] ∧ q.returned.Nodup ∧ q.falseReturns ≤ q.exits ∧
      q.sem.count + (q.returned.length + q.falseReturns) = q.added + q.exits := by
  have hfits : 0 + 1 < 2 ^ 32 := by decide
  have hrun : Run step PostsFit ({} : TaskQueue) [.postExit 1 1, .add 2 true, .getTask 3,
      .getTask 4, .wait 3, .take 3, .post 2, .wait 4, .take 4] _ :=
    .cons hfits rfl <| .cons trivial rfl <| .cons trivial rfl <| .cons trivial rfl <|
    .cons trivial rfl <| .cons trivial rfl <| .cons hfits rfl <| .cons trivial rfl <|
    .cons trivial rfl <| .nil _
  obtain ⟨⟨hnodup, -⟩, -, hexits, hquiet⟩ := tasks_handed_out_once hrun
  refine ⟨_, rfl, hnodup, hexits, (hquiet fun t => .inl ?_).1⟩
  simp +contextual [goTo, take, add, Function.update_apply]

end TaskQueue

end CommonLibrary.Thread
