import CommonLibrary.Foundation.History
import CommonLibrary.Poller.DelayTask
import Mathlib.Data.List.Perm.Subperm
import Mathlib.Data.Rat.Floor

/-!
# Timers

A `Timer` knows its `DelayTask` by a weak reference.  The task itself is held by the
function that is to insert it, by `delay_tasks_` or by the copy that `flush_delay_tasks`
goes through, and its function may be running when the `Timer` is destroyed.  So the flush
is taken step by step here, and what the user does, on this thread or on another, may come
between any two steps.
-/

namespace CommonLibrary.Thread

/-- `TaskCancelableImpl`, which owns its function through `strong_task_` and calls it through
`weak_task_`. -/
structure TaskCancelable where
  /-- `strong_task_` is set -/
  strong : Bool := false
  /-- the calls of `operator()` that hold a reference to the function -/
  calls : Nat := 0

namespace TaskCancelable

variable {task : TaskCancelable}

def create : TaskCancelable := { strong := true }

def cancel (task : TaskCancelable) : TaskCancelable := { task with strong := false }

/-- `weak_task_.lock()` is not null. -/
def locks (task : TaskCancelable) : Bool := task.strong || 0 < task.calls

/-- `operator()` has locked the function and calls it. -/
def enter (task : TaskCancelable) : TaskCancelable := { task with calls := task.calls + 1 }

def leave (task : TaskCancelable) : TaskCancelable := { task with calls := task.calls - 1 }

theorem locks_of_idle (h : task.calls = 0) : task.locks = task.strong := by
  rw [locks, h]
  exact Bool.or_false _

end TaskCancelable

end CommonLibrary.Thread

namespace CommonLibrary.Poller

open Foundation Thread
open scoped List

abbrev TimerId := Nat

structure Timer where
  second : ℚ := 0
  continueWhenException : Bool := true
  tag : DelayId := 0
  alive : Bool := false

inductive CbEnd where
  | returned (again : Bool)
  | stdException
  | otherException
  deriving DecidableEq

inductive FunctionEnd where
  | ret (nextDelay : Nat)
  | stdException
  | otherException

namespace Timer

/-- `(uint64_t)(second * 1000)`, for products that `uint64_t` can represent. -/
def periodMs (tm : Timer) : Nat := ⌊tm.second * 1000⌋.toNat

/-- The function that the constructor gives to `DoDelayTask`. -/
def lambda (tm : Timer) : CbEnd → FunctionEnd
  | .returned true => .ret tm.periodMs
  | .returned false => .ret 0
  | .stdException => .ret (if tm.continueWhenException then tm.periodMs else 0)
  | .otherException => .otherException

def asked (tm : Timer) : CbEnd → Bool
  | .returned again => again
  | .stdException => tm.continueWhenException
  | .otherException => false

variable (tm : Timer)

theorem periodMs_pos : 0 < tm.periodMs ↔ 1 ≤ tm.second * 1000 := by
  rw [periodMs, ← Int.floor_pos]
  omega

theorem lambda_ret (how : CbEnd) :
    (∃ n, tm.lambda how = .ret n ∧ 0 < n) ↔ tm.asked how = true ∧ 1 ≤ tm.second * 1000 := by
  rw [← periodMs_pos]
  cases how with
  | returned again => cases again <;> simp [lambda, asked]
  | stdException => cases h : tm.continueWhenException <;> simp [lambda, asked, h]
  | otherException => simp [lambda, asked]

end Timer

/-- `flush_delay_tasks` at work. -/
structure Flush where
  now : Nat
  /-- the entries of `delay_tasks_copy` before `it` -/
  passed : List (Nat × DelayId) := []
  /-- the entry at `it` while its function is running -/
  current : Option (Nat × DelayId) := none
  /-- the entries behind -/
  todo : List (Nat × DelayId) := []

namespace Flush

def copy (f : Flush) : List (Nat × DelayId) := f.passed ++ (f.current.toList ++ f.todo)

theorem copy_of_current {f : Flush} {e : Nat × DelayId} (h : f.current = some e) :
    f.copy = f.passed ++ e :: f.todo := by
  rw [copy, h]
  rfl

/-- The function of the entry has returned `nextDelay`. -/
def renew (f : Flush) (deadline : Nat) (d : DelayId) (nextDelay : Nat) : Flush :=
  if nextDelay > 0 then
    let key := (nextDelay + f.now) % 2 ^ 64
    if key < deadline then { f with passed := emplace key d f.passed, current := none }
    else { f with current := none, todo := emplace key d f.todo }
  else { f with current := none }

end Flush

inductive TimerEvent where
  /-- `cb` is called -/
  | invoked (t : TimerId)
  /-- `operator()` has found no function -/
  | idle (d : DelayId)
  /-- `cb` has ended.  History: it asked to be called again; the `Timer` is alive; its task
  is in the copy and can be called -/
  | ended (t : TimerId) (asked alive again : Bool)
  /-- `~Timer` has returned -/
  | destroyed (t : TimerId)
  deriving DecidableEq

structure TimerState where
  poller : EventPoller PollerTask Unit DelayId := {}
  /-- the tasks of `swap_list` that `on_pipe_event` has still to run -/
  swapList : List PollerTask := []
  tasks : DelayId → TaskCancelable := fun _ => {}
  /-- the `Timer` whose function a delay task has; `none`: it is one of the user -/
  owner : DelayId → Option TimerId := fun _ => none
  nextDelay : DelayId := 0
  timers : TimerId → Timer := fun _ => {}
  nextTimer : TimerId := 0
  flush : Option Flush := none
  trace : List TimerEvent := []

inductive TimerAction where
  /-- `Timer::Timer` -/
  | newTimer (second : ℚ) (continueWhenException : Bool) (now : Nat)
  /-- `~Timer` -/
  | destroyTimer (t : TimerId)
  | doDelayTask (delayMs now : Nat)
  /-- the user cancels a delay task of his own -/
  | cancel (d : DelayId)
  | async (first : Bool)
  /-- `on_pipe_event` swaps the task list out -/
  | swap
  /-- it runs the next task -/
  | task
  /-- `get_min_delay_ms` finds a task due -/
  | beginFlush (now : Nat)
  /-- `(*(it->second))()` -/
  | call
  /-- `cb` of a `Timer` ends, and so the function of its task -/
  | cbEnds (e : CbEnd)
  /-- the function of a task of the user ends -/
  | functionEnds (e : FunctionEnd)
  /-- the loop is left -/
  | endFlush

namespace TimerState

def log (st : TimerState) (e : TimerEvent) : TimerState := { st with trace := st.trace ++ [e] }

def setTask (st : TimerState) (d : DelayId) (task : TaskCancelable) : TimerState :=
  { st with tasks := Function.update st.tasks d task }

def pending (st : TimerState) : List DelayId :=
  (st.poller.taskList ++ st.swapList).filterMap DelayState.insertionOf

/-- `delay_tasks_` and the copy. -/
def entries (st : TimerState) : List (Nat × DelayId) :=
  st.poller.delayTasks ++ (st.flush.map Flush.copy).getD []

def held (st : TimerState) : List DelayId := st.pending ++ st.entries.map Prod.snd

def doDelayTask (st : TimerState) (owner : Option TimerId) (delayMs now : Nat) : TimerState :=
  { st with
    poller := st.poller.async (.emplace ((delayMs + now) % 2 ^ 64) st.nextDelay) true
    tasks := Function.update st.tasks st.nextDelay .create
    owner := Function.update st.owner st.nextDelay owner
    nextDelay := st.nextDelay + 1 }

/-- `Timer::Timer`. -/
def newTimer (st : TimerState) (second : ℚ) (continueWhenException : Bool) (now : Nat) :
    TimerState :=
  let tm : Timer := ⟨second, continueWhenException, st.nextDelay, true⟩
  { st.doDelayTask (some st.nextTimer) tm.periodMs now with
    timers := Function.update st.timers st.nextTimer tm
    nextTimer := st.nextTimer + 1 }

/-- `~Timer`: `tag_` can be locked while the task is held. -/
def destroyTimer (st : TimerState) (t : TimerId) : TimerState :=
  let tm := st.timers t
  let st := if tm.tag ∈ st.held then st.setTask tm.tag (st.tasks tm.tag).cancel else st
  { st with timers := Function.update st.timers t { tm with alive := false } }.log (.destroyed t)

/-- `operator()` of the task at the head of `todo`. -/
def callHead (st : TimerState) (f : Flush) (e : Nat × DelayId) (todo : List (Nat × DelayId)) :
    TimerState :=
  if (st.tasks e.2).locks then
    let st := { st.setTask e.2 (st.tasks e.2).enter with
      flush := some { f with current := some e, todo := todo } }
    match st.owner e.2 with
    | none => st
    | some t => st.log (.invoked t)
  else { st with flush := some { f with todo := todo } }.log (.idle e.2)

def leave (st : TimerState) (f : Flush) (e : Nat × DelayId) (how : FunctionEnd) : TimerState :=
  let st := st.setTask e.2 (st.tasks e.2).leave
  match how with
  | .ret nextDelay => { st with flush := some (f.renew e.1 e.2 nextDelay) }
  | .stdException => { st with flush := some { f with current := none } }
  -- the copy dies
  | .otherException => { st with flush := none }

/-- `d` is held and can be called. -/
def scheduled (st : TimerState) (d : DelayId) : Bool := (st.tasks d).locks && d ∈ st.held

def step (st : TimerState) : TimerAction → Option TimerState
  | .newTimer second continueWhenException now =>
      some (st.newTimer second continueWhenException now)
  | .destroyTimer t =>
      if (st.timers t).alive then some (st.destroyTimer t) else none
  | .doDelayTask delayMs now => some (st.doDelayTask none delayMs now)
  | .cancel d =>
      if d < st.nextDelay ∧ st.owner d = none then some (st.setTask d (st.tasks d).cancel)
      else none
  | .async first => some { st with poller := st.poller.async .user first }
  | .swap =>
      if st.flush.isNone ∧ st.swapList = [] then
        some { st with swapList := st.poller.taskList, poller := { st.poller with taskList := [] } }
      else none
  | .task =>
      match st.flush, st.swapList with
      | none, .user :: tasks => some { st with swapList := tasks }
      | none, .emplace timeline d :: tasks =>
          some { st with
            swapList := tasks
            poller := { st.poller with
              delayTasks := Poller.emplace timeline d st.poller.delayTasks } }
      | _, _ => none
  | .beginFlush now =>
      match st.flush, st.swapList, st.poller.delayTasks with
      | none, [], e :: todo =>
          if e.1 ≤ now then
            some { st with
              poller := { st.poller with delayTasks := [] }
              flush := some { now := now, todo := e :: todo } }
          else none
      | _, _, _ => none
  | .call =>
      match st.flush with
      | some ⟨now, passed, none, e :: todo⟩ =>
          if e.1 ≤ now then some (st.callHead ⟨now, passed, none, e :: todo⟩ e todo) else none
      | _ => none
  | .cbEnds how =>
      match st.flush with
      | some ⟨now, passed, some e, todo⟩ =>
          match st.owner e.2 with
          | some t =>
              let tm := st.timers t
              let st := st.leave ⟨now, passed, some e, todo⟩ e (tm.lambda how)
              some (st.log (.ended t (tm.asked how) tm.alive (st.scheduled e.2)))
          | none => none
      | _ => none
  | .functionEnds how =>
      match st.flush with
      | some ⟨now, passed, some e, todo⟩ =>
          match st.owner e.2 with
          | none => some (st.leave ⟨now, passed, some e, todo⟩ e how)
          | some _ => none
      | _ => none
  | .endFlush =>
      match st.flush with
      | some ⟨now, passed, none, todo⟩ =>
          if ∀ e ∈ todo.head?, now < e.1 then
            -- what `delay_tasks_` holds now dies with the copy
            some { st with
              poller := { st.poller with delayTasks := passed ++ todo }
              flush := none }
          else none
      | _ => none

variable {st st' : TimerState} {f : Flush} {e : Nat × DelayId} {d : DelayId} {t : TimerId}

/-! ## Who refers to a delay task -/

theorem entries_flush (h : st.flush = some f) :
    st.entries = st.poller.delayTasks ++ f.copy := by
  rw [entries, h]
  rfl

theorem entries_of_none (h : st.flush = none) : st.entries = st.poller.delayTasks := by
  rw [entries, h]
  exact List.append_nil _

theorem emplace_ids (key : Nat) (d : DelayId) (m : List (Nat × DelayId)) :
    (Poller.emplace key d m).map Prod.snd ~ d :: m.map Prod.snd :=
  (DelayState.emplace_perm key d m).map Prod.snd

theorem renew_stop (f : Flush) (e : Nat × DelayId) :
    (f.renew e.1 e.2 0).copy.map Prod.snd = f.passed.map Prod.snd ++ f.todo.map Prod.snd :=
  List.map_append

theorem renew_again (f : Flush) (e : Nat × DelayId) {nextDelay : Nat} (hpos : 0 < nextDelay) :
    (f.renew e.1 e.2 nextDelay).copy.map Prod.snd ~
      e.2 :: (f.passed.map Prod.snd ++ f.todo.map Prod.snd) := by
  rw [Flush.renew, if_pos hpos]
  dsimp only
  split
  · show (Poller.emplace _ e.2 f.passed ++ f.todo).map Prod.snd ~ _
    rw [List.map_append]
    exact (emplace_ids _ e.2 f.passed).append_right _
  · show (f.passed ++ Poller.emplace _ e.2 f.todo).map Prod.snd ~ _
    rw [List.map_append]
    exact ((emplace_ids _ e.2 f.todo).append_left _).trans List.perm_middle

def Between (st : TimerState) : Prop := ∀ f, st.flush = some f → f.current = none

theorem between_of_none (h : st.flush = none) : st.Between := by
  intro f hf
  rw [h] at hf
  cases hf

theorem between_of_some (h : st.flush = some f) (hcurrent : f.current = none) : st.Between := by
  intro f' hf'
  rw [h] at hf'
  cases hf'
  exact hcurrent

structure Inv (st : TimerState) : Prop where
  nodup : st.held.Nodup
  bound : ∀ d ∈ st.held, d < st.nextDelay
  /-- a function is called for the entry at `it` only -/
  calls : ∀ d, 0 < (st.tasks d).calls →
    (st.tasks d).calls = 1 ∧ ∃ f e, st.flush = some f ∧ f.current = some e ∧ e.2 = d
  owner : ∀ d t, st.owner d = some t →
    t < st.nextTimer ∧ (st.timers t).tag = d ∧ d < st.nextDelay
  tag : ∀ t, t < st.nextTimer → st.owner (st.timers t).tag = some t
  alive : ∀ t, (st.timers t).alive →
    t < st.nextTimer ∧ (st.tasks (st.timers t).tag).strong = true
  dead : ∀ t, t < st.nextTimer → (st.timers t).alive = false →
    (st.tasks (st.timers t).tag).strong = false ∨ (st.timers t).tag ∉ st.held
  destroyed : ∀ t, .destroyed t ∈ st.trace → t < st.nextTimer ∧ (st.timers t).alive = false
  idle : ∀ d, .idle d ∈ st.trace → d < st.nextDelay ∧ d ∉ st.held

/-- The parts that change only when objects are made, cancelled or destroyed. -/
structure Same (st st' : TimerState) : Prop where
  strong : ∀ d, (st'.tasks d).strong = (st.tasks d).strong
  owner : st'.owner = st.owner
  timers : st'.timers = st.timers
  nextDelay : st'.nextDelay = st.nextDelay
  nextTimer : st'.nextTimer = st.nextTimer
  trace : st'.trace = st.trace

theorem subperm_nodup {l l' : List DelayId} (h : l.Subperm l') (hnodup : l'.Nodup) : l.Nodup := by
  obtain ⟨m, hperm, hsub⟩ := h
  exact hperm.nodup_iff.1 (hsub.nodup hnodup)

theorem Inv.of_same (h : st.Inv) (hsame : Same st st') (hheld : st'.held.Subperm st.held)
    (hcalls : ∀ d, 0 < (st'.tasks d).calls → (st'.tasks d).calls = 1 ∧
      ∃ f e, st'.flush = some f ∧ f.current = some e ∧ e.2 = d) : st'.Inv where
  nodup := subperm_nodup hheld h.nodup
  bound := fun d hd => by rw [hsame.nextDelay]; exact h.bound d (hheld.subset hd)
  calls := hcalls
  owner := by rw [hsame.owner, hsame.timers, hsame.nextDelay, hsame.nextTimer]; exact h.owner
  tag := by rw [hsame.owner, hsame.timers, hsame.nextTimer]; exact h.tag
  alive := by
    rw [hsame.timers, hsame.nextTimer]
    exact fun t ht => ⟨(h.alive t ht).1, (hsame.strong _).trans (h.alive t ht).2⟩
  dead := by
    rw [hsame.timers, hsame.nextTimer]
    intro t hlt hdead
    rcases h.dead t hlt hdead with hweak | hfree
    · exact .inl ((hsame.strong _).trans hweak)
    · exact .inr fun hin => hfree (hheld.subset hin)
  destroyed := by rw [hsame.timers, hsame.nextTimer, hsame.trace]; exact h.destroyed
  idle := by
    rw [hsame.nextDelay, hsame.trace]
    exact fun d hd => ⟨(h.idle d hd).1, fun hin => (h.idle d hd).2 (hheld.subset hin)⟩

theorem init_inv : ({} : TimerState).Inv where
  nodup := List.nodup_nil
  bound := fun d hd => by cases hd
  calls := fun d hd => by cases hd
  owner := fun d t hd => by cases hd
  tag := fun t ht => by cases ht
  alive := fun t ht => by cases ht
  dead := fun t ht => by cases ht
  destroyed := fun t ht => by cases ht
  idle := fun d hd => by cases hd

theorem Inv.calls_between (h : st.Inv) (hbetween : st.Between) (d : DelayId) :
    (st.tasks d).calls = 0 := by
  by_contra hne
  obtain ⟨-, f, e, hf, he, -⟩ := h.calls d (Nat.pos_of_ne_zero hne)
  rw [hbetween f hf] at he
  cases he

theorem Inv.of_between (h : st.Inv) (hbetween : st.Between) (hsame : Same st st')
    (htasks : st'.tasks = st.tasks) (hheld : st'.held.Subperm st.held) : st'.Inv := by
  apply h.of_same hsame hheld
  intro d hpos
  rw [htasks] at hpos
  exact absurd (h.calls_between hbetween d) (Nat.ne_of_gt hpos)

theorem Inv.tag_lt (h : st.Inv) (ht : t < st.nextTimer) : (st.timers t).tag < st.nextDelay :=
  (h.owner _ t (h.tag t ht)).2.2

theorem Inv.log (h : st.Inv) {ev : TimerEvent}
    (hdestroyed : ∀ t, ev = .destroyed t → t < st.nextTimer ∧ (st.timers t).alive = false)
    (hidle : ∀ d, ev = .idle d → d < st.nextDelay ∧ d ∉ st.held) : (st.log ev).Inv where
  nodup := h.nodup
  bound := h.bound
  calls := h.calls
  owner := h.owner
  tag := h.tag
  alive := h.alive
  dead := h.dead
  destroyed := by
    intro t ht
    rcases List.mem_append.1 ht with hold | hnew
    · exact h.destroyed t hold
    · exact hdestroyed t (List.mem_singleton.1 hnew).symm
  idle := by
    intro d hd
    rcases List.mem_append.1 hd with hold | hnew
    · exact h.idle d hold
    · exact hidle d (List.mem_singleton.1 hnew).symm

/-! ## The poller thread outside of the flush -/

theorem async_inv (h : st.Inv) (first : Bool) :
    ({ st with poller := st.poller.async .user first } : TimerState).Inv := by
  have hpending : ({ st with poller := st.poller.async .user first } : TimerState).pending =
      st.pending := by
    cases first <;>
      simp [pending, EventPoller.async, DelayState.insertionOf, List.filterMap_cons]
  refine h.of_same ⟨fun _ => rfl, rfl, rfl, rfl, rfl, rfl⟩ ?_ h.calls
  rw [held, hpending]
  exact List.Subperm.refl _

theorem swap_inv (h : st.Inv) (hidle : st.swapList = []) :
    ({ st with
        swapList := st.poller.taskList
        poller := { st.poller with taskList := [] } } : TimerState).Inv := by
  refine h.of_same ⟨fun _ => rfl, rfl, rfl, rfl, rfl, rfl⟩ ?_ h.calls
  rw [held, held, pending, pending, hidle, List.append_nil]
  exact List.Subperm.refl _

theorem user_inv {tasks : List PollerTask} (h : st.Inv)
    (hswap : st.swapList = .user :: tasks) :
    ({ st with swapList := tasks } : TimerState).Inv := by
  refine h.of_same ⟨fun _ => rfl, rfl, rfl, rfl, rfl, rfl⟩ ?_ h.calls
  rw [held, held, pending, pending, hswap, List.filterMap_append, List.filterMap_append]
  exact List.Subperm.refl _

theorem emplace_inv {tasks : List PollerTask} {timeline : Nat} (h : st.Inv)
    (hswap : st.swapList = .emplace timeline d :: tasks) :
    ({ st with
        swapList := tasks
        poller := { st.poller with
          delayTasks := Poller.emplace timeline d st.poller.delayTasks } } : TimerState).Inv := by
  refine h.of_same ⟨fun _ => rfl, rfl, rfl, rfl, rfl, rfl⟩ ?_ h.calls
  apply List.Perm.subperm
  rw [held, held, pending, pending, hswap, List.filterMap_append, List.filterMap_append,
    entries, entries, List.map_append, List.map_append, List.append_assoc, List.append_assoc]
  apply List.Perm.append_left
  show tasks.filterMap DelayState.insertionOf ++ _ ~
    d :: (tasks.filterMap DelayState.insertionOf ++ _)
  refine List.Perm.trans ?_ List.perm_middle
  exact ((emplace_ids timeline d _).append_right _).append_left _

theorem beginFlush_inv (h : st.Inv) (now : Nat) (hnone : st.flush = none) :
    ({ st with
        poller := { st.poller with delayTasks := [] }
        flush := some { now := now, todo := st.poller.delayTasks } } : TimerState).Inv := by
  refine h.of_between (between_of_none hnone) ⟨fun _ => rfl, rfl, rfl, rfl, rfl, rfl⟩ rfl ?_
  rw [held, held, entries_of_none hnone]
  exact List.Subperm.refl _

theorem endFlush_inv (h : st.Inv) (hflush : st.flush = some f) (hcurrent : f.current = none) :
    ({ st with
        poller := { st.poller with delayTasks := f.passed ++ f.todo }
        flush := none } : TimerState).Inv := by
  have hbetween := between_of_some hflush hcurrent
  refine h.of_between hbetween ⟨fun _ => rfl, rfl, rfl, rfl, rfl, rfl⟩ rfl ?_
  apply List.Sublist.subperm
  show (st.pending ++ (f.passed ++ f.todo ++ []).map Prod.snd).Sublist st.held
  rw [held, entries_flush hflush, Flush.copy, hcurrent, List.append_nil]
  exact ((List.sublist_append_right _ _).map _).append_left _

/-! ## Tasks are made and cancelled -/

/-- A task that nobody has had before; what the owners know of it is left open. -/
theorem Inv.of_create (h : st.Inv) (hheld : st'.held = st.nextDelay :: st.held)
    (htasks : st'.tasks = Function.update st.tasks st.nextDelay .create)
    (hnext : st'.nextDelay = st.nextDelay + 1) (hflush : st'.flush = st.flush)
    (htrace : st'.trace = st.trace)
    (howner : ∀ d t, st'.owner d = some t →
      t < st'.nextTimer ∧ (st'.timers t).tag = d ∧ d < st'.nextDelay)
    (htag : ∀ t, t < st'.nextTimer → st'.owner (st'.timers t).tag = some t)
    (halive : ∀ t, (st'.timers t).alive →
      t < st'.nextTimer ∧ (st'.tasks (st'.timers t).tag).strong = true)
    (hdead : ∀ t, t < st'.nextTimer → (st'.timers t).alive = false →
      (st'.tasks (st'.timers t).tag).strong = false ∨ (st'.timers t).tag ∉ st'.held)
    (hdestroyed : ∀ t, .destroyed t ∈ st'.trace →
      t < st'.nextTimer ∧ (st'.timers t).alive = false) : st'.Inv where
  nodup := by
    rw [hheld]
    exact List.nodup_cons.2 ⟨fun hin => absurd (h.bound _ hin) (Nat.lt_irrefl _), h.nodup⟩
  bound := by
    rw [hheld, hnext]
    intro d hd
    rcases List.mem_cons.1 hd with rfl | hd
    · exact Nat.lt_succ_self _
    · exact Nat.lt_succ_of_lt (h.bound d hd)
  calls := by
    rw [htasks, hflush]
    intro d hpos
    by_cases hd : d = st.nextDelay
    · subst hd
      rw [Function.update_self] at hpos
      cases hpos
    · rw [Function.update_of_ne hd] at hpos ⊢
      exact h.calls d hpos
  owner := howner
  tag := htag
  alive := halive
  dead := hdead
  destroyed := hdestroyed
  idle := by
    rw [htrace, hheld, hnext]
    intro d hd
    obtain ⟨hlt, hfree⟩ := h.idle d hd
    refine ⟨Nat.lt_succ_of_lt hlt, fun hin => ?_⟩
    rcases List.mem_cons.1 hin with rfl | hin
    · exact absurd hlt (Nat.lt_irrefl _)
    · exact hfree hin

section

variable (st) (owner : Option TimerId) (delayMs now : Nat)

theorem doDelayTask_held :
    (st.doDelayTask owner delayMs now).held = st.nextDelay :: st.held := rfl

@[simp] theorem doDelayTask_owner_self :
    (st.doDelayTask owner delayMs now).owner st.nextDelay = owner :=
  Function.update_self _ _ _

theorem doDelayTask_owner (hd : d ≠ st.nextDelay) :
    (st.doDelayTask owner delayMs now).owner d = st.owner d :=
  Function.update_of_ne hd _ _

@[simp] theorem doDelayTask_tasks_self :
    (st.doDelayTask owner delayMs now).tasks st.nextDelay = .create :=
  Function.update_self _ _ _

theorem doDelayTask_tasks (hd : d ≠ st.nextDelay) :
    (st.doDelayTask owner delayMs now).tasks d = st.tasks d :=
  Function.update_of_ne hd _ _

theorem Inv.dead_doDelayTask (h : st.Inv) (ht : t < st.nextTimer)
    (hdead : (st.timers t).alive = false) :
    ((st.doDelayTask owner delayMs now).tasks (st.timers t).tag).strong = false ∨
      (st.timers t).tag ∉ (st.doDelayTask owner delayMs now).held := by
  have hold : (st.timers t).tag ≠ st.nextDelay := Nat.ne_of_lt (h.tag_lt ht)
  rw [doDelayTask_tasks st owner delayMs now hold, doDelayTask_held, List.mem_cons]
  rcases h.dead t ht hdead with hweak | hfree
  · exact .inl hweak
  · exact .inr fun hin => hin.elim hold hfree

theorem doDelayTask_inv (h : st.Inv) : (st.doDelayTask none delayMs now).Inv := by
  have hold : ∀ t, t < st.nextTimer → (st.timers t).tag ≠ st.nextDelay :=
    fun t ht => Nat.ne_of_lt (h.tag_lt ht)
  refine h.of_create rfl rfl rfl rfl rfl ?owner ?tag ?alive ?dead h.destroyed
  case owner =>
    intro d t hd
    by_cases hnew : d = st.nextDelay
    · rw [hnew, doDelayTask_owner_self] at hd
      cases hd
    · rw [doDelayTask_owner st none delayMs now hnew] at hd
      obtain ⟨ht, htag, hlt⟩ := h.owner d t hd
      exact ⟨ht, htag, Nat.lt_succ_of_lt hlt⟩
  case tag =>
    intro t ht
    exact (doDelayTask_owner st none delayMs now (hold t ht)).trans (h.tag t ht)
  case alive =>
    intro t ht
    obtain ⟨hlt, hstrong⟩ := h.alive t ht
    refine ⟨hlt, ?_⟩
    show ((st.doDelayTask none delayMs now).tasks (st.timers t).tag).strong = true
    rw [doDelayTask_tasks st none delayMs now (hold t hlt)]
    exact hstrong
  case dead => exact fun t ht hdead => h.dead_doDelayTask st none delayMs now ht hdead

end

theorem newTimer_inv (h : st.Inv) (second : ℚ) (continueWhenException : Bool) (now : Nat) :
    (st.newTimer second continueWhenException now).Inv := by
  set tm : Timer := ⟨second, continueWhenException, st.nextDelay, true⟩ with htm
  set made := st.doDelayTask (some st.nextTimer) tm.periodMs now with hmade
  show ({ made with
    timers := Function.update st.timers st.nextTimer tm
    nextTimer := st.nextTimer + 1 } : TimerState).Inv
  have hnew : Function.update st.timers st.nextTimer tm st.nextTimer = tm :=
    Function.update_self _ _ _
  have hother : ∀ t, t ≠ st.nextTimer →
      Function.update st.timers st.nextTimer tm t = st.timers t :=
    fun t ht => Function.update_of_ne ht _ _
  have hold : ∀ t, t < st.nextTimer → (st.timers t).tag ≠ st.nextDelay :=
    fun t ht => Nat.ne_of_lt (h.tag_lt ht)
  refine h.of_create rfl rfl rfl rfl rfl ?owner ?tag ?alive ?dead ?destroyed
  case owner =>
    intro d t hd
    dsimp only at hd ⊢
    by_cases hfresh : d = st.nextDelay
    · rw [hfresh, hmade, doDelayTask_owner_self] at hd
      cases hd
      rw [hnew]
      exact ⟨Nat.lt_succ_self _, hfresh.symm, hfresh ▸ Nat.lt_succ_self _⟩
    · rw [hmade, doDelayTask_owner st _ _ _ hfresh] at hd
      obtain ⟨ht, htag, hlt⟩ := h.owner d t hd
      rw [hother t (Nat.ne_of_lt ht)]
      exact ⟨Nat.lt_succ_of_lt ht, htag, Nat.lt_succ_of_lt hlt⟩
  case tag =>
    intro t ht
    dsimp only at ht ⊢
    rcases Nat.lt_succ_iff_lt_or_eq.1 ht with ht | rfl
    · rw [hother t (Nat.ne_of_lt ht), hmade, doDelayTask_owner st _ _ _ (hold t ht)]
      exact h.tag t ht
    · rw [hnew]
      exact doDelayTask_owner_self st _ _ _
  case alive =>
    intro t ht
    dsimp only at ht ⊢
    by_cases heq : t = st.nextTimer
    · rw [heq, hnew, hmade]
      refine ⟨Nat.lt_succ_self _, ?_⟩
      rw [doDelayTask_tasks_self]
      rfl
    · rw [hother t heq] at ht ⊢
      obtain ⟨hlt, hstrong⟩ := h.alive t ht
      rw [hmade, doDelayTask_tasks st _ _ _ (hold t hlt)]
      exact ⟨Nat.lt_succ_of_lt hlt, hstrong⟩
  case dead =>
    intro t hlt ht
    dsimp only at hlt ht ⊢
    rcases Nat.lt_succ_iff_lt_or_eq.1 hlt with hlt | rfl
    · rw [hother t (Nat.ne_of_lt hlt)] at ht ⊢
      exact h.dead_doDelayTask st _ _ _ hlt ht
    · rw [hnew] at ht
      cases ht
  case destroyed =>
    intro t ht
    obtain ⟨hlt, hdead⟩ := h.destroyed t ht
    dsimp only
    rw [hother t (Nat.ne_of_lt hlt)]
    exact ⟨Nat.lt_succ_of_lt hlt, hdead⟩

theorem Inv.tag_inj (h : st.Inv) {t' : TimerId} (ht : t < st.nextTimer) (ht' : t' < st.nextTimer)
    (htag : (st.timers t).tag = (st.timers t').tag) : t = t' := by
  have howner := h.tag t ht
  rw [htag, h.tag t' ht'] at howner
  exact (Option.some.inj howner).symm

@[simp] theorem setTask_self (st : TimerState) (d : DelayId) (task : TaskCancelable) :
    (st.setTask d task).tasks d = task :=
  Function.update_self _ _ _

theorem setTask_of_ne (st : TimerState) (task : TaskCancelable) {d' : DelayId} (hd : d' ≠ d) :
    (st.setTask d task).tasks d' = st.tasks d' :=
  Function.update_of_ne hd _ _

theorem setTask_keeps {β : Type} (p : TaskCancelable → β) (st : TimerState)
    {task : TaskCancelable} (h : p task = p (st.tasks d)) (d' : DelayId) :
    p ((st.setTask d task).tasks d') = p (st.tasks d') := by
  by_cases hd : d' = d
  · rw [hd, setTask_self, h]
  · rw [setTask_of_ne st _ hd]

theorem cancel_calls (st : TimerState) (d d' : DelayId) :
    ((st.setTask d (st.tasks d).cancel).tasks d').calls = (st.tasks d').calls :=
  setTask_keeps TaskCancelable.calls st (by rfl) d'

theorem cancel_strong (st : TimerState) (d : DelayId) {d' : DelayId}
    (h : (st.tasks d').strong = false) :
    ((st.setTask d (st.tasks d).cancel).tasks d').strong = false := by
  by_cases hd : d' = d
  · rw [hd, setTask_self]
    rfl
  · rw [setTask_of_ne st _ hd, h]

theorem cancel_inv (h : st.Inv) (howner : st.owner d = none) :
    (st.setTask d (st.tasks d).cancel).Inv where
  nodup := h.nodup
  bound := h.bound
  calls := fun d' hpos => by rw [cancel_calls] at hpos ⊢; exact h.calls d' hpos
  owner := h.owner
  tag := h.tag
  alive := by
    intro t ht
    obtain ⟨hlt, hstrong⟩ := h.alive t ht
    have hne : (st.timers t).tag ≠ d := by
      intro heq
      have htag := h.tag t hlt
      rw [heq, howner] at htag
      cases htag
    refine ⟨hlt, ?_⟩
    show ((st.setTask d _).tasks (st.timers t).tag).strong = true
    rw [setTask_of_ne st _ hne]
    exact hstrong
  dead := fun t hlt ht => (h.dead t hlt ht).imp_left (cancel_strong st d)
  destroyed := h.destroyed
  idle := h.idle

theorem dead_tag (timers : TimerId → Timer) (t t' : TimerId) :
    (Function.update timers t { timers t with alive := false } t').tag = (timers t').tag := by
  by_cases ht' : t' = t
  · rw [ht', Function.update_self]
  · rw [Function.update_of_ne ht']

theorem dead_alive (timers : TimerId → Timer) (t t' : TimerId) :
    (Function.update timers t { timers t with alive := false } t').alive = true ↔
      t' ≠ t ∧ (timers t').alive = true := by
  by_cases ht' : t' = t
  · rw [ht', Function.update_self]
    exact iff_of_false Bool.false_ne_true fun hne => hne.1 rfl
  · rw [Function.update_of_ne ht']
    exact (and_iff_right ht').symm

theorem destroy_inv (h : st.Inv) (halive : (st.timers t).alive = true)
    {tasks : DelayId → TaskCancelable}
    (hcalls : ∀ d, (tasks d).calls = (st.tasks d).calls)
    (hother : ∀ d, d ≠ (st.timers t).tag → tasks d = st.tasks d)
    (hgone : (tasks (st.timers t).tag).strong = false ∨ (st.timers t).tag ∉ st.held) :
    (({ st with
        tasks := tasks
        timers := Function.update st.timers t { st.timers t with alive := false } } :
          TimerState).log (.destroyed t)).Inv := by
  have hlt : t < st.nextTimer := (h.alive t halive).1
  have htag := dead_tag st.timers t
  have hlive := dead_alive st.timers t
  generalize Function.update st.timers t { st.timers t with alive := false } = timers
    at htag hlive ⊢
  have hdead : ∀ t', t' = t ∨ (st.timers t').alive = false → (timers t').alive = false := by
    intro t' ht'
    rw [Bool.eq_false_iff]
    intro hyes
    obtain ⟨hne, hold⟩ := (hlive t').1 hyes
    rcases ht' with heq | hold'
    · exact hne heq
    · exact Bool.eq_false_iff.1 hold' hold
  have htasks : ∀ t', t' < st.nextTimer → t' ≠ t →
      tasks (timers t').tag = st.tasks (st.timers t').tag := by
    intro t' hlt' hne
    rw [htag]
    exact hother _ fun heq => hne (h.tag_inj hlt' hlt heq)
  refine Inv.log ?_ (fun t' ht' => ?_) (fun d hd => by cases hd)
  · constructor
    case nodup => exact h.nodup
    case bound => exact h.bound
    case idle => exact h.idle
    case calls =>
      intro d hpos
      show (tasks d).calls = 1 ∧ _
      rw [hcalls]
      exact h.calls d ((hcalls d).symm ▸ hpos)
    case owner =>
      intro d t' hd
      show t' < st.nextTimer ∧ (timers t').tag = d ∧ d < st.nextDelay
      rw [htag]
      exact h.owner d t' hd
    case tag =>
      intro t' ht'
      show st.owner (timers t').tag = some t'
      rw [htag]
      exact h.tag t' ht'
    case alive =>
      intro t' ht'
      obtain ⟨hne, hold⟩ := (hlive t').1 ht'
      obtain ⟨hlt', hstrong⟩ := h.alive t' hold
      refine ⟨hlt', ?_⟩
      show (tasks (timers t').tag).strong = true
      rw [htasks t' hlt' hne]
      exact hstrong
    case dead =>
      intro t' hlt' ht'
      show (tasks (timers t').tag).strong = false ∨ (timers t').tag ∉ st.held
      by_cases hne : t' = t
      · rw [htag, hne]
        exact hgone
      · rw [htasks t' hlt' hne, htag]
        apply h.dead t' hlt'
        rw [Bool.eq_false_iff]
        exact fun hold => Bool.eq_false_iff.1 ht' ((hlive t').2 ⟨hne, hold⟩)
    case destroyed =>
      intro t' ht'
      obtain ⟨hlt', hold⟩ := h.destroyed t' ht'
      exact ⟨hlt', hdead t' (.inr hold)⟩
  · cases ht'
    exact ⟨hlt, hdead t (.inl rfl)⟩

theorem destroyTimer_inv (h : st.Inv) (halive : (st.timers t).alive = true) :
    (st.destroyTimer t).Inv := by
  unfold destroyTimer
  dsimp only
  split
  · apply destroy_inv h halive (cancel_calls st _)
    · exact fun d hd => setTask_of_ne st _ hd
    · rw [setTask_self]
      exact .inl rfl
  · next hfree =>
    exact destroy_inv h halive (fun _ => rfl) (fun _ _ => rfl) (.inr hfree)

/-! ## The flush -/

/-- The tasks held beside the one between `passed` and `todo`. -/
def others (st : TimerState) (passed todo : List (Nat × DelayId)) : List DelayId :=
  st.pending ++ (st.poller.delayTasks ++ (passed ++ todo)).map Prod.snd

variable {passed todo : List (Nat × DelayId)}

theorem held_others (hflush : st.flush = some f) (hcopy : f.copy = passed ++ e :: todo) :
    st.held ~ e.2 :: st.others passed todo := by
  rw [held, entries_flush hflush, hcopy, others]
  calc st.pending ++ (st.poller.delayTasks ++ (passed ++ e :: todo)).map Prod.snd
      ~ st.pending ++ (e :: (st.poller.delayTasks ++ (passed ++ todo))).map Prod.snd := by
        rw [← List.append_assoc, ← List.append_assoc]
        exact (List.perm_middle.map Prod.snd).append_left _
    _ ~ e.2 :: (st.pending ++ (st.poller.delayTasks ++ (passed ++ todo)).map Prod.snd) :=
        List.perm_middle

theorem Inv.at_it (h : st.Inv) (hflush : st.flush = some f)
    (hcopy : f.copy = passed ++ e :: todo) :
    e.2 ∈ st.held ∧ e.2 ∉ st.others passed todo := by
  have hperm := held_others hflush hcopy
  exact ⟨hperm.symm.subset List.mem_cons_self,
    (List.nodup_cons.1 (hperm.nodup_iff.1 h.nodup)).1⟩

theorem enter_inv (h : st.Inv) {now : Nat} {passed todo : List (Nat × DelayId)}
    (hflush : st.flush = some ⟨now, passed, none, e :: todo⟩) :
    ({ st.setTask e.2 (st.tasks e.2).enter with
      flush := some ⟨now, passed, some e, todo⟩ } : TimerState).Inv := by
  have hbetween := between_of_some hflush rfl
  refine h.of_same ⟨fun d => ?strong, rfl, rfl, rfl, rfl, rfl⟩ ?held ?calls
  case strong => exact setTask_keeps TaskCancelable.strong st (by rfl) d
  case held =>
    rw [held, held, entries_flush hflush]
    exact List.Subperm.refl _
  case calls =>
    intro d hpos
    by_cases hd : d = e.2
    · refine ⟨?_, _, e, rfl, rfl, hd.symm⟩
      show ((st.setTask e.2 (st.tasks e.2).enter).tasks d).calls = 1
      rw [hd, setTask_self]
      exact congrArg (· + 1) (h.calls_between hbetween e.2)
    · have hidle : ((st.setTask e.2 (st.tasks e.2).enter).tasks d).calls = 0 := by
        rw [setTask_of_ne st _ hd]
        exact h.calls_between hbetween d
      exact absurd hidle (Nat.ne_of_gt hpos)

theorem skip_inv (h : st.Inv) {now : Nat} {passed todo : List (Nat × DelayId)}
    (hflush : st.flush = some ⟨now, passed, none, e :: todo⟩) :
    (({ st with flush := some ⟨now, passed, none, todo⟩ } : TimerState).log (.idle e.2)).Inv := by
  have hbetween := between_of_some hflush rfl
  have hcopy : Flush.copy ⟨now, passed, none, e :: todo⟩ = passed ++ e :: todo := rfl
  obtain ⟨hin, hfree⟩ := h.at_it hflush hcopy
  have hrest : ({ st with flush := some ⟨now, passed, none, todo⟩ } : TimerState).Inv := by
    refine h.of_between hbetween ⟨fun _ => rfl, rfl, rfl, rfl, rfl, rfl⟩ rfl ?_
    exact (List.sublist_cons_self _ _).subperm.trans (held_others hflush hcopy).symm.subperm
  apply hrest.log (fun _ ht => by cases ht)
  intro d hd
  cases hd
  exact ⟨h.bound _ hin, hfree⟩

theorem callHead_inv (h : st.Inv) {now : Nat} {passed todo : List (Nat × DelayId)}
    (hflush : st.flush = some ⟨now, passed, none, e :: todo⟩) :
    (st.callHead ⟨now, passed, none, e :: todo⟩ e todo).Inv := by
  unfold callHead
  split
  · dsimp only
    split
    · exact enter_inv h hflush
    · exact (enter_inv h hflush).log (fun _ ht => by cases ht) (fun _ hd => by cases hd)
  · exact skip_inv h hflush

theorem leave_calls (h : st.Inv) (hflush : st.flush = some f) (hcurrent : f.current = some e)
    (d : DelayId) : ((st.setTask e.2 (st.tasks e.2).leave).tasks d).calls = 0 := by
  by_contra hne
  have hpos : 0 < (st.tasks d).calls := by
    by_cases hd : d = e.2
    · rw [hd, setTask_self, TaskCancelable.leave] at hne
      rw [hd]
      exact Nat.pos_of_ne_zero fun hzero => hne (by rw [hzero])
    · rw [setTask_of_ne st _ hd] at hne
      exact Nat.pos_of_ne_zero hne
  obtain ⟨hone, f', e', hf', he', hd⟩ := h.calls d hpos
  rw [hflush] at hf'
  cases hf'
  rw [hcurrent] at he'
  cases he'
  rw [← hd, setTask_self, TaskCancelable.leave, hd, hone] at hne
  exact hne rfl

/-- A function that has ended leaves its task in the copy if it asks for a delay. -/
theorem leave_held (st : TimerState) (f : Flush) (e : Nat × DelayId) (how : FunctionEnd) :
    (∃ n, how = .ret n ∧ 0 < n ∧
        (st.leave f e how).held ~ e.2 :: st.others f.passed f.todo) ∨
      (∀ n, how = .ret n → n = 0) ∧
        (st.leave f e how).held.Sublist (st.others f.passed f.todo) := by
  cases how with
  | ret n =>
      have hheld : (st.leave f e (.ret n)).held = st.pending ++
          (st.poller.delayTasks ++ (f.renew e.1 e.2 n).copy).map Prod.snd := rfl
      rw [hheld, others, List.map_append, List.map_append, List.map_append]
      rcases Nat.eq_zero_or_pos n with rfl | hpos
      · rw [renew_stop]
        exact .inr ⟨fun n hn => (FunctionEnd.ret.inj hn).symm, List.Sublist.refl _⟩
      · refine .inl ⟨n, rfl, hpos, ?_⟩
        rw [← List.append_assoc, ← List.append_assoc]
        exact ((renew_again f e hpos).append_left _).trans List.perm_middle
  | stdException => exact .inr ⟨(fun n hn => by cases hn), List.Sublist.refl _⟩
  | otherException =>
      refine .inr ⟨(fun n hn => by cases hn), List.Sublist.append_left ?_ _⟩
      exact ((List.sublist_append_left _ _).append_left _).map _

theorem Inv.leave_mem (h : st.Inv) (hflush : st.flush = some f) (hcurrent : f.current = some e)
    (how : FunctionEnd) : e.2 ∈ (st.leave f e how).held ↔ ∃ n, how = .ret n ∧ 0 < n := by
  have hcopy := Flush.copy_of_current hcurrent
  rcases leave_held st f e how with ⟨n, hn, hpos, hperm⟩ | ⟨hzero, hsub⟩
  · exact iff_of_true (hperm.symm.subset List.mem_cons_self) ⟨n, hn, hpos⟩
  · apply iff_of_false (fun hin => (h.at_it hflush hcopy).2 (hsub.subset hin))
    rintro ⟨n, hn, hpos⟩
    exact absurd (hzero n hn) (Nat.ne_of_gt hpos)

theorem leave_tasks (st : TimerState) (f : Flush) (e : Nat × DelayId) (how : FunctionEnd) :
    (st.leave f e how).tasks = (st.setTask e.2 (st.tasks e.2).leave).tasks := by
  cases how <;> rfl

theorem leave_same (st : TimerState) (f : Flush) (e : Nat × DelayId) (how : FunctionEnd) :
    Same st (st.leave f e how) where
  strong := by
    intro d
    rw [leave_tasks]
    exact setTask_keeps TaskCancelable.strong st (by rfl) d
  owner := by cases how <;> rfl
  timers := by cases how <;> rfl
  nextDelay := by cases how <;> rfl
  nextTimer := by cases how <;> rfl
  trace := by cases how <;> rfl

theorem leave_inv (h : st.Inv) (hflush : st.flush = some f) (hcurrent : f.current = some e)
    (how : FunctionEnd) : (st.leave f e how).Inv := by
  have hcopy := Flush.copy_of_current hcurrent
  have hheld := (held_others hflush hcopy).symm.subperm
  apply h.of_same (leave_same st f e how)
  · rcases leave_held st f e how with ⟨n, -, -, hperm⟩ | ⟨-, hsub⟩
    · exact hperm.subperm.trans hheld
    · exact (hsub.subperm.trans (List.sublist_cons_self _ _).subperm).trans hheld
  · intro d hpos
    rw [leave_tasks] at hpos
    exact absurd (leave_calls h hflush hcurrent d) (Nat.ne_of_gt hpos)

/-! ## One step -/

def Grounds (st : TimerState) : TimerEvent → Prop
  | .invoked t => ∃ d ∈ st.held, st.owner d = some t ∧ (st.tasks d).strong = true
  | .idle d => d ∈ st.held
  | .ended .. => False
  | .destroyed _ => True

/-- `cb` of the `Timer` `t` ends in the task `e`. -/
structure Ends (st st' : TimerState) (how : CbEnd) (f : Flush) (e : Nat × DelayId)
    (t : TimerId) : Prop where
  flush : st.flush = some f
  current : f.current = some e
  owner : st.owner e.2 = some t
  result : st' = (st.leave f e ((st.timers t).lambda how)).log
    (.ended t ((st.timers t).asked how) (st.timers t).alive
      ((st.leave f e ((st.timers t).lambda how)).scheduled e.2))

/-- A step keeps the invariant; either `cb` ends in it or what it adds to the trace has
grounds. -/
def StepSpec (st : TimerState) (a : TimerAction) (st' : TimerState) : Prop :=
  st'.Inv ∧ ((∃ how f e t, a = .cbEnds how ∧ Ends st st' how f e t) ∨
    (∀ how, a ≠ .cbEnds how) ∧
      (st'.trace = st.trace ∨ ∃ ev, st'.trace = st.trace ++ [ev] ∧ Grounds st ev))

theorem StepSpec.silent {a : TimerAction} (ha : ∀ how, a ≠ .cbEnds how) (hinv : st'.Inv)
    (htrace : st'.trace = st.trace) : StepSpec st a st' :=
  ⟨hinv, .inr ⟨ha, .inl htrace⟩⟩

theorem StepSpec.event {a : TimerAction} {ev : TimerEvent} (ha : ∀ how, a ≠ .cbEnds how)
    (hinv : st'.Inv) (htrace : st'.trace = st.trace ++ [ev]) (hev : Grounds st ev) :
    StepSpec st a st' :=
  ⟨hinv, .inr ⟨ha, .inr ⟨ev, htrace, hev⟩⟩⟩

theorem destroyTimer_trace (st : TimerState) (t : TimerId) :
    (st.destroyTimer t).trace = st.trace ++ [.destroyed t] := by
  unfold destroyTimer
  dsimp only
  split <;> rfl

theorem callHead_spec (h : st.Inv) {now : Nat}
    (hflush : st.flush = some ⟨now, passed, none, e :: todo⟩) :
    StepSpec st .call (st.callHead ⟨now, passed, none, e :: todo⟩ e todo) := by
  have hinv := callHead_inv h hflush
  have hcopy : Flush.copy ⟨now, passed, none, e :: todo⟩ = passed ++ e :: todo := rfl
  have hin : e.2 ∈ st.held := (h.at_it hflush hcopy).1
  have hbetween := between_of_some hflush rfl
  by_cases hlocks : (st.tasks e.2).locks
  · have hstrong : (st.tasks e.2).strong = true := by
      rw [← TaskCancelable.locks_of_idle (h.calls_between hbetween e.2)]
      exact hlocks
    cases howner : st.owner e.2 with
    | none =>
        apply StepSpec.silent (fun _ => by simp) hinv
        rw [callHead, if_pos hlocks]
        dsimp only [setTask]
        rw [howner]
    | some t =>
        have hgrounds : Grounds st (.invoked t) := ⟨e.2, hin, howner, hstrong⟩
        refine .event (fun _ => by simp) hinv ?_ hgrounds
        rw [callHead, if_pos hlocks]
        dsimp only [setTask]
        rw [howner]
        rfl
  · have hgrounds : Grounds st (.idle e.2) := hin
    refine .event (fun _ => by simp) hinv ?_ hgrounds
    rw [callHead, if_neg hlocks]
    rfl

theorem step_spec (h : st.Inv) {a : TimerAction} (hstep : step st a = some st') :
    StepSpec st a st' := by
  cases a with
  | newTimer second continueWhenException now =>
      cases hstep
      exact .silent (fun _ => by simp) (newTimer_inv h _ _ _) rfl
  | destroyTimer t =>
      obtain ⟨halive, hresult⟩ := Option.ite_none_right_eq_some.1 hstep
      cases hresult
      exact .event (fun _ => by simp) (destroyTimer_inv h halive) (destroyTimer_trace st t) trivial
  | doDelayTask delayMs now =>
      cases hstep
      exact .silent (fun _ => by simp) (doDelayTask_inv st _ _ h) rfl
  | cancel d =>
      obtain ⟨⟨-, howner⟩, hresult⟩ := Option.ite_none_right_eq_some.1 hstep
      cases hresult
      exact .silent (fun _ => by simp) (cancel_inv h howner) rfl
  | async first =>
      cases hstep
      exact .silent (fun _ => by simp) (async_inv h first) rfl
  | swap =>
      obtain ⟨⟨-, hswap⟩, hresult⟩ := Option.ite_none_right_eq_some.1 hstep
      cases hresult
      exact .silent (fun _ => by simp) (swap_inv h hswap) rfl
  | task =>
      unfold step at hstep
      dsimp only at hstep
      split at hstep
      · next hswap =>
        cases hstep
        exact .silent (fun _ => by simp) (user_inv h hswap) rfl
      · next hswap =>
        cases hstep
        exact .silent (fun _ => by simp) (emplace_inv h hswap) rfl
      · cases hstep
  | beginFlush now =>
      unfold step at hstep
      dsimp only at hstep
      split at hstep
      · next hnone _ hdelay =>
        obtain ⟨-, hresult⟩ := Option.ite_none_right_eq_some.1 hstep
        cases hresult
        rw [← hdelay]
        exact .silent (fun _ => by simp) (beginFlush_inv h now hnone) rfl
      · cases hstep
  | call =>
      unfold step at hstep
      dsimp only at hstep
      split at hstep
      · next hflush =>
        obtain ⟨-, hresult⟩ := Option.ite_none_right_eq_some.1 hstep
        cases hresult
        exact callHead_spec h hflush
      · cases hstep
  | cbEnds how =>
      unfold step at hstep
      dsimp only at hstep
      split at hstep
      · next now passed e todo hflush =>
        split at hstep
        · next t howner =>
          cases hstep
          refine ⟨?_, .inl ⟨how, _, e, t, rfl, hflush, rfl, howner, rfl⟩⟩
          exact (leave_inv h hflush rfl _).log (fun _ ht => by cases ht) (fun _ hd => by cases hd)
        · cases hstep
      · cases hstep
  | functionEnds how =>
      unfold step at hstep
      dsimp only at hstep
      split at hstep
      · next now passed e todo hflush =>
        split at hstep
        · cases hstep
          exact .silent (fun _ => by simp) (leave_inv h hflush rfl how)
            (leave_same st _ e how).trace
        · cases hstep
      · cases hstep
  | endFlush =>
      unfold step at hstep
      dsimp only at hstep
      split at hstep
      · next hflush =>
        obtain ⟨-, hresult⟩ := Option.ite_none_right_eq_some.1 hstep
        cases hresult
        exact .silent (fun _ => by simp) (endFlush_inv h hflush rfl) rfl
      · cases hstep

/-! ## Destroyed timers -/

/-- What must not have happened before an event. -/
def Final (u : List TimerEvent) : TimerEvent → Prop
  | .invoked t => .destroyed t ∉ u
  | .idle d => .idle d ∉ u
  | _ => True

/-- The task of a destroyed `Timer` cannot be called, wherever it is held. -/
theorem Inv.destroyed_weak (h : st.Inv) (ht : .destroyed t ∈ st.trace)
    (hin : (st.timers t).tag ∈ st.held) : (st.tasks (st.timers t).tag).strong = false := by
  obtain ⟨hlt, hdead⟩ := h.destroyed t ht
  exact (h.dead t hlt hdead).resolve_right fun hfree => hfree hin

theorem Inv.final (h : st.Inv) {ev : TimerEvent} (hev : Grounds st ev) : Final st.trace ev := by
  cases ev with
  | invoked t =>
      obtain ⟨d, hin, howner, hstrong⟩ := hev
      intro ht
      obtain rfl : (st.timers t).tag = d := (h.owner d t howner).2.1
      rw [h.destroyed_weak ht hin] at hstrong
      cases hstrong
  | idle d => exact fun hd => (h.idle d hd).2 hev
  | ended | destroyed => trivial

theorem step_final (h : st.Inv) (hfinal : EachOk Final st.trace) {a : TimerAction}
    (hstep : step st a = some st') : EachOk Final st'.trace := by
  obtain ⟨-, ⟨how, f, e, t, -, hends⟩ | ⟨-, htrace | ⟨ev, htrace, hev⟩⟩⟩ := step_spec h hstep
  · rw [hends.result, TimerState.log, (leave_same st f e _).trace]
    exact hfinal.snoc trivial
  · rw [htrace]
    exact hfinal
  · rw [htrace]
    exact hfinal.snoc (h.final hev)

theorem run_final {acts : List TimerAction} (hrun : Run step (fun _ _ => True) {} acts st) :
    st.Inv ∧ EachOk Final st.trace := by
  apply hrun.invariant (I := fun st => st.Inv ∧ EachOk Final st.trace)
  · rintro st a st' ⟨hinv, hfinal⟩ - hstep
    exact ⟨(step_spec hinv hstep).1, step_final hinv hfinal hstep⟩
  · exact ⟨init_inv, .nil⟩

/-- `it` is at the entry of `d`. -/
def ComesTo (st : TimerState) (d : DelayId) : Prop :=
  ∃ f e, st.flush = some f ∧ f.current = none ∧ f.todo.head? = some e ∧ e.2 = d

theorem Inv.call_destroyed (h : st.Inv) (ht : .destroyed t ∈ st.trace)
    (hcomes : st.ComesTo (st.timers t).tag) (hstep : step st .call = some st') :
    st'.trace = st.trace ++ [.idle (st.timers t).tag] ∧ (st.timers t).tag ∉ st'.held := by
  obtain ⟨⟨now, passed, current, todo⟩, e, hflush, hcurrent, hhead, htag⟩ := hcomes
  cases hcurrent
  cases todo with
  | nil => cases hhead
  | cons e' todo =>
      cases hhead
      have hcopy : Flush.copy ⟨now, passed, none, e :: todo⟩ = passed ++ e :: todo := rfl
      have hbetween := between_of_some hflush rfl
      have hweak : ¬(st.tasks e.2).locks := by
        rw [TaskCancelable.locks_of_idle (h.calls_between hbetween e.2), htag,
          h.destroyed_weak ht (htag ▸ (h.at_it hflush hcopy).1)]
        exact Bool.false_ne_true
      unfold step at hstep
      rw [hflush] at hstep
      obtain ⟨-, hresult⟩ := Option.ite_none_right_eq_some.1 hstep
      have hinv := callHead_inv h hflush
      rw [Option.some.inj hresult] at hinv
      rw [callHead, if_neg hweak] at hresult
      have htrace : st'.trace = st.trace ++ [.idle e.2] := by
        rw [← Option.some.inj hresult]
        rfl
      rw [← htag]
      refine ⟨htrace, (hinv.idle e.2 ?_).2⟩
      rw [htrace]
      exact List.mem_append_right _ (List.mem_singleton.2 rfl)

/-- After `~Timer` has returned `cb` is not called again, and what is left of the task is
called at most once more, to no effect, and is then held by nobody. -/
theorem destroyed_never_fires {acts : List TimerAction}
    (hrun : Run step (fun _ _ => True) {} acts st) :
    (∀ t u v, st.trace = u ++ .invoked t :: v → .destroyed t ∉ u) ∧
      ∀ t, .destroyed t ∈ st.trace →
        st.trace.count (.idle (st.timers t).tag) ≤ 1 ∧
        (.idle (st.timers t).tag ∈ st.trace → (st.timers t).tag ∉ st.held) ∧
        ∀ st', st.ComesTo (st.timers t).tag → step st .call = some st' →
          st'.trace = st.trace ++ [.idle (st.timers t).tag] ∧
            (st.timers t).tag ∉ st'.held := by
  obtain ⟨hinv, hfinal⟩ := run_final hrun
  refine ⟨fun t u v htrace => hfinal u _ v htrace, fun t ht => ⟨?_, ?_, ?_⟩⟩
  · apply EachOk.countP_le_one
    intro u ev v htrace hev ev' hev'
    rw [beq_iff_eq] at hev
    subst hev
    rw [beq_eq_false_iff_ne]
    rintro rfl
    exact hfinal u _ v htrace hev'
  · exact fun hidle => (hinv.idle _ hidle).2
  · exact fun st' hcomes hstep => hinv.call_destroyed ht hcomes hstep

/-- `cb` destroys its `Timer` and asks to be called again. -/
theorem destroyed_never_fires_inside :
    ∃ st, Run step (fun _ _ => True) {} [.newTimer (1 / 1000) true 0, .swap, .task,
        .beginFlush 1, .call, .destroyTimer 0, .cbEnds (.returned true), .endFlush,
        .beginFlush 2, .call] st ∧
      st.trace = [.invoked 0, .destroyed 0, .ended 0 true false false, .idle 0] ∧
      st.trace.count (.idle (st.timers 0).tag) ≤ 1 ∧ (st.timers 0).tag ∉ st.held := by
  have hexec : ((exec step {} [.newTimer (1 / 1000) true 0, .swap, .task, .beginFlush 1, .call,
      .destroyTimer 0, .cbEnds (.returned true), .endFlush, .beginFlush 2, .call]).any
        fun st => st.trace = [.invoked 0, .destroyed 0, .ended 0 true false false, .idle 0] ∧
          (st.timers 0).tag = 0) = true := by
    decide +kernel
  obtain ⟨st, hst, hshown⟩ := (Option.any_eq_true _ _).1 hexec
  obtain ⟨htrace, htag⟩ := of_decide_eq_true hshown
  have hdestroyed : .destroyed 0 ∈ st.trace := by rw [htrace]; decide
  obtain ⟨honce, hgone, -⟩ := (destroyed_never_fires (Run.of_exec hst)).2 0 hdestroyed
  exact ⟨st, Run.of_exec hst, htrace, honce, hgone (by rw [htrace, htag]; decide)⟩

/-! ## Timers that repeat -/

/-- The `Timer` is alive when its `cb` ends, and will call it again as `cb` has asked. -/
def Repeats (ev : TimerEvent) : Prop :=
  ∀ t asked again, ev = .ended t asked true again → again = asked

/-- Where the `cb` of a living `Timer` asks to be called again the period is a millisecond
or more. -/
def PeriodOk (st : TimerState) (a : TimerAction) : Prop :=
  ∀ how f e t, a = .cbEnds how → st.flush = some f → f.current = some e →
    st.owner e.2 = some t → (st.timers t).alive = true → (st.timers t).asked how = true →
    1 ≤ (st.timers t).second * 1000

theorem Ends.scheduled_iff {how : CbEnd} (h : st.Inv) (hends : Ends st st' how f e t)
    (halive : (st.timers t).alive = true) :
    (st.leave f e ((st.timers t).lambda how)).scheduled e.2 = true ↔
      (st.timers t).asked how = true ∧ 1 ≤ (st.timers t).second * 1000 := by
  set left := st.leave f e ((st.timers t).lambda how) with hleft
  have hcalls : (left.tasks e.2).calls = 0 := by
    rw [hleft, leave_tasks]
    exact leave_calls h hends.flush hends.current e.2
  have hstrong : (left.tasks e.2).strong = true := by
    rw [hleft, (leave_same st f e _).strong, ← (h.owner e.2 t hends.owner).2.1]
    exact (h.alive t halive).2
  rw [scheduled, TaskCancelable.locks_of_idle hcalls, hstrong, Bool.true_and,
    decide_eq_true_iff, hleft, h.leave_mem hends.flush hends.current, Timer.lambda_ret]

theorem Ends.trace_repeats {how : CbEnd} (h : st.Inv) (hends : Ends st st' how f e t) :
    (∀ ev ∈ st'.trace, Repeats ev) ↔
      (∀ ev ∈ st.trace, Repeats ev) ∧ PeriodOk st (.cbEnds how) := by
  rw [hends.result, TimerState.log, (leave_same st f e _).trace, List.forall_mem_append,
    List.forall_mem_singleton]
  apply and_congr_right
  intro _
  constructor
  · intro hrepeats how' f' e' t' ha hf he ht halive hasked
    cases ha
    obtain rfl : f = f' := Option.some.inj (hends.flush.symm.trans hf)
    obtain rfl : e = e' := Option.some.inj (hends.current.symm.trans he)
    obtain rfl : t = t' := Option.some.inj (hends.owner.symm.trans ht)
    have hagain := hrepeats t _ _ (by rw [halive])
    exact ((hends.scheduled_iff h halive).1 (hagain.trans hasked)).2
  · intro hperiod t' asked again hev
    obtain ⟨rfl, rfl, halive, rfl⟩ := TimerEvent.ended.inj hev
    rw [Bool.eq_iff_iff, hends.scheduled_iff h halive]
    refine ⟨And.left, fun hasked => ⟨hasked, ?_⟩⟩
    exact hperiod how f e t rfl hends.flush hends.current hends.owner halive hasked

theorem step_repeats (h : st.Inv) {a : TimerAction} (hstep : step st a = some st') :
    (∀ ev ∈ st'.trace, Repeats ev) ↔ (∀ ev ∈ st.trace, Repeats ev) ∧ PeriodOk st a := by
  obtain ⟨-, ⟨how, f, e, t, rfl, hends⟩ | ⟨ha, hquiet⟩⟩ := step_spec h hstep
  · exact hends.trace_repeats h
  · have hperiod : PeriodOk st a := fun how _ _ _ hhow => absurd hhow (ha how)
    rw [and_iff_left hperiod]
    rcases hquiet with htrace | ⟨ev, htrace, hev⟩
    · rw [htrace]
    · rw [htrace, List.forall_mem_append, List.forall_mem_singleton]
      apply and_iff_left
      rintro t asked again rfl
      exact hev.elim

/-- A `Timer` repeats as its `cb` asks exactly as long as its period does not become 0, which
says stop. -/
theorem repeats_iff {acts : List TimerAction} (hrun : Run step (fun _ _ => True) {} acts st) :
    (∀ ev ∈ st.trace, Repeats ev) ↔ Run step PeriodOk {} acts st := by
  have hkeeps : ∀ st a st', Inv st → step st a = some st' → Inv st' ∧
      ((∀ ev ∈ st'.trace, Repeats ev) ↔ (∀ ev ∈ st.trace, Repeats ev) ∧ PeriodOk st a) :=
    fun _ _ _ hinv hstep => ⟨(step_spec hinv hstep).1, step_repeats hinv hstep⟩
  rw [hrun.keeps_iff hkeeps init_inv]
  exact and_iff_right fun ev hev => by cases hev

theorem repeats_iff_millisecond :
    ∃ st, Run step PeriodOk {} [.newTimer (1 / 1000) true 0, .swap, .task, .beginFlush 1, .call,
        .cbEnds (.returned true)] st ∧ st.trace = [.invoked 0, .ended 0 true true true] := by
  have hexec : ((exec step {} [.newTimer (1 / 1000) true 0, .swap, .task, .beginFlush 1, .call,
      .cbEnds (.returned true)]).any
        fun st => st.trace = [.invoked 0, .ended 0 true true true]) = true := by
    decide +kernel
  obtain ⟨st, hst, hshown⟩ := (Option.any_eq_true _ _).1 hexec
  have htrace : st.trace = [.invoked 0, .ended 0 true true true] := of_decide_eq_true hshown
  refine ⟨st, (repeats_iff (Run.of_exec hst)).1 ?_, htrace⟩
  rw [htrace]
  intro ev hev t asked again heq
  subst heq
  simp only [List.mem_cons, List.not_mem_nil, or_false, reduceCtorEq, false_or] at hev
  cases hev
  rfl

/-- A positive period below a millisecond: `cb` asks to be called again and is not. -/
theorem not_repeats_of_short :
    ¬∀ (acts : List TimerAction) (st : TimerState), Run step (fun _ _ => True) {} acts st →
      (∀ second continueWhenException now, .newTimer second continueWhenException now ∈ acts →
        0 < second ∧ second * 1000 < 2 ^ 64) →
      ∀ ev ∈ st.trace, Repeats ev := by
  intro hclaim
  have hexec : ((exec step {} [.newTimer (1 / 2000) true 0, .swap, .task, .beginFlush 0, .call,
      .cbEnds (.returned true)]).any
        fun st => .ended 0 true true false ∈ st.trace) = true := by
    decide +kernel
  obtain ⟨st, hst, hshown⟩ := (Option.any_eq_true _ _).1 hexec
  have hrepeats := hclaim _ st (Run.of_exec hst) (fun second _ _ hin => by
    simp only [List.mem_cons, List.not_mem_nil, or_false, reduceCtorEq] at hin
    cases hin
    norm_num) _ (of_decide_eq_true hshown)
  cases hrepeats 0 true false rfl

end TimerState

end CommonLibrary.Poller
