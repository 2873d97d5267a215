import CommonLibrary.Poller.TaskProgress
import CommonLibrary.Poller.Timeout

/-!
# The whole event loop

`RunLoop` with the pipe, the task list and the delay tasks in one machine: what a task, an event
callback or a delay task does can be any of the calls.  `LoopState` and `DelayState` are what is
left of it when one looks at the tasks or at the delay tasks only.
-/

namespace CommonLibrary.Poller

open Foundation Utils

/-- What user code may call on the poller thread, wherever it runs. -/
inductive PollerCall where
  | async
  | asyncFirst
  | shutdown
  /-- `Cancel` on a task that `Async` or `AsyncFirst` has returned -/
  | cancel (t : TaskId)
  | doDelayTask (delayMs now : Nat)
  /-- `Cancel` on a task that `DoDelayTask` has returned -/
  | cancelDelay (d : DelayId)

/-- The function of a task in `task_list_`. -/
inductive Job where
  /-- a function of the user -/
  | user
  /-- `delay_tasks_.emplace(timeline, ret)` -/
  | emplace (timeline : Nat) (d : DelayId)
  /-- `throw ExitException()`, which no user code can -/
  | exit
  deriving DecidableEq

/-- What the function of a delay task does when it is called. -/
structure PollerRun where
  calls : List PollerCall
  outcome : Outcome

inductive Phase where
  /-- not in `RunLoop` -/
  | outside
  /-- it is going to look at `exit_flag_` -/
  | top
  /-- in `epoll_wait` -/
  | wait
  /-- it goes through the events -/
  | handle
  deriving DecidableEq

structure PollerState where
  poller : EventPoller (TaskId × Job) Unit DelayId := {}
  pipe : Pipe := {}
  phase : Phase := .outside
  /-- what `RunLoop` has passed to `epoll_wait` -/
  timeout : Int := -1
  /-- the events that `RunLoop` has still to handle -/
  events : List LoopEvent := []
  /-- the tasks of `swap_list` that `on_pipe_event` has still to run -/
  swapList : List (TaskId × Job) := []
  cancelled : TaskId → Bool := fun _ => false
  /-- user code has got a pointer to the task -/
  returned : TaskId → Bool := fun _ => false
  delayCancelled : DelayId → Bool := fun _ => false
  /-- the delay tasks that returned 0 or threw -/
  finished : DelayId → Bool := fun _ => false
  nextTask : TaskId := 0
  nextDelay : DelayId := 0
  /-- `~EventPoller` has closed `epoll_fd_` -/
  destroyed : Bool := false
  /-- history: the clock of `DoDelayTask` plus its `delay_ms` -/
  askedFor : DelayId → Nat := fun _ => 0
  /-- history: the latest reading of the clock -/
  clock : Nat := 0
  /-- history: the time at which `RunLoop` last asked for the delay -/
  asked : Nat := 0
  /-- history: what has been posted since the last drain began -/
  posts : List Post := []
  /-- history: the drains, the last one first -/
  drains : List Drain := []
  /-- history: the calls of `flush_delay_tasks` -/
  passes : List Pass := []

namespace PollerState

def async (capacity : Nat) (st : PollerState) (job : Job) (first : Bool) : PollerState :=
  { st with
    poller := st.poller.async (st.nextTask, job) first
    pipe := st.pipe.write capacity
    nextTask := st.nextTask + 1
    posts := st.posts ++ [⟨st.nextTask, first⟩] }

/-- `Async` and `AsyncFirst` as user code calls them. -/
def asyncUser (capacity : Nat) (st : PollerState) (first : Bool) : PollerState :=
  { st.async capacity .user first with returned := Function.update st.returned st.nextTask true }

/-- `DoDelayTask` at a clock reading `now`. -/
def doDelayTask (capacity : Nat) (st : PollerState) (delayMs now : Nat) : PollerState :=
  { st.async capacity (.emplace ((delayMs + now) % 2 ^ 64) st.nextDelay) true with
    nextDelay := st.nextDelay + 1
    askedFor := Function.update st.askedFor st.nextDelay (delayMs + now)
    clock := max st.clock now }

def call (capacity : Nat) (st : PollerState) : PollerCall → PollerState
  | .async => st.asyncUser capacity false
  | .asyncFirst => st.asyncUser capacity true
  | .shutdown => st.async capacity .exit true
  | .cancel t =>
      if st.returned t then { st with cancelled := Function.update st.cancelled t true } else st
  | .doDelayTask delayMs now => st.doDelayTask capacity delayMs now
  | .cancelDelay d =>
      if d < st.nextDelay then
        { st with delayCancelled := Function.update st.delayCancelled d true }
      else st

def calls (capacity : Nat) (st : PollerState) (cs : List PollerCall) : PollerState :=
  cs.foldl (call capacity) st

/-! ## `on_pipe_event` -/

/-- `on_pipe_event` up to the swap. -/
def onPipeEvent (st : PollerState) (errno : Errno) (interrupted : List Bool) : PollerState :=
  { st with
    pipe := { st.pipe with
      unread := drainPipe (st.pipe.unread + 1) st.pipe.unread errno interrupted }
    swapList := st.poller.taskList
    poller := { st.poller with taskList := [] }
    posts := []
    drains := ⟨st.posts, st.poller.taskList.map Prod.fst, []⟩ :: st.drains }

def logRan (st : PollerState) (r : Ran) : PollerState :=
  { st with
    drains :=
      match st.drains with
      | [] => []
      | d :: ds => { d with ran := d.ran ++ [r] } :: ds }

/-- The function of a task; that of the user makes the calls `cs`, and whether it throws makes no
difference to `on_pipe_event`. -/
def runJob (capacity : Nat) (st : PollerState) (cs : List PollerCall) : Job → PollerState
  | .user => st.calls capacity cs
  | .emplace timeline d =>
      { st with poller := { st.poller with
          delayTasks := Poller.emplace timeline d st.poller.delayTasks } }
  | .exit => { st with poller := { st.poller with exitFlag := true } }

/-- The function that `for_each` calls for a task: nothing for a cancelled one. -/
def runTask (capacity : Nat) (st : PollerState) (task : TaskId × Job) (cs : List PollerCall) :
    PollerState :=
  if st.cancelled task.1 then st.logRan ⟨task.1, false⟩
  else (st.logRan ⟨task.1, true⟩).runJob capacity cs task.2

/-! ## `get_min_delay_ms` -/

def finish (st : PollerState) (d : DelayId) : PollerState :=
  { st with finished := Function.update st.finished d true }

/-- `(*(it->second))()`: a cancelled task returns 0 at once, another does what the script says.
A script that is used up lets the tasks return 0. -/
def invoke (capacity : Nat) (st : PollerState) (d : DelayId) (script : List PollerRun) :
    PollerState × Outcome × List PollerRun :=
  if st.delayCancelled d then (st, .ret 0, script)
  else
    match script with
    | [] => (st, .ret 0, [])
    | run :: script => (st.calls capacity run.calls, run.outcome, script)

structure FlushOut where
  state : PollerState
  copy : List (Nat × DelayId)
  fired : List Fired

/-- The `for` loop of `flush_delay_tasks`: `passed` and `todo` are the entries of
`delay_tasks_copy` before `it` and from `it` on. -/
def flushLoop (capacity now : Nat) : Nat → PollerState → List (Nat × DelayId) →
    List (Nat × DelayId) → List PollerRun → FlushOut
  | 0, st, passed, todo, _ => ⟨st, passed ++ todo, []⟩
  | _ + 1, st, passed, [], _ => ⟨st, passed, []⟩
  | fuel + 1, st, passed, (deadline, d) :: todo, script =>
      if deadline ≤ now then
        let (st, outcome, script) := st.invoke capacity d script
        let out :=
          match outcome with
          | .throws => flushLoop capacity now fuel (st.finish d) passed todo script
          | .ret nextDelay =>
              if nextDelay > 0 then
                let key := (nextDelay + now) % 2 ^ 64
                if key < deadline then
                  flushLoop capacity now fuel st (Poller.emplace key d passed) todo script
                else flushLoop capacity now fuel st passed (Poller.emplace key d todo) script
              else flushLoop capacity now fuel (st.finish d) passed todo script
        { out with fired := ⟨deadline, d, outcome⟩ :: out.fired }
      else ⟨st, passed ++ (deadline, d) :: todo, []⟩

/-- `flush_delay_tasks`, and the delay it returns.  Every round of the loop takes an entry away
or uses up an item of the script. -/
def flushDelayTasks (capacity : Nat) (st : PollerState) (now : Nat) (script : List PollerRun) :
    PollerState × Nat :=
  let copy := st.poller.delayTasks
  let out := flushLoop capacity now (copy.length + script.length)
    { st with poller := { st.poller with delayTasks := [] } } [] copy script
  let pass : Pass := ⟨now, copy, out.fired, out.copy, out.state.poller.delayTasks⟩
  ({ out.state with
      poller := { out.state.poller with delayTasks := out.copy }
      passes := out.state.passes ++ [pass] },
    match out.copy with
    | [] => 0
    | e :: _ => (e.1 + 2 ^ 64 - now) % 2 ^ 64)

def getMinDelayMs (capacity : Nat) (st : PollerState) (now : Nat) (script : List PollerRun) :
    PollerState × Nat :=
  match st.poller.delayTasks with
  | [] => (st, 0)
  | e :: _ => if e.1 > now then (st, e.1 - now) else st.flushDelayTasks capacity now script

/-- `RunLoop` asks for the delay at the time `now` and calls `epoll_wait`. -/
def askDelay (capacity : Nat) (st : PollerState) (now : Nat) (script : List PollerRun) :
    PollerState :=
  let out := { st with clock := max st.clock now }.getMinDelayMs capacity now script
  { out.1 with phase := .wait, timeout := epollTimeout out.2, asked := now }

end PollerState

inductive PollerAction where
  /-- user code runs outside `RunLoop` -/
  | call (c : PollerCall)
  /-- `RunLoop` begins -/
  | runLoop
  /-- it asks for the next delay and calls `epoll_wait` -/
  | minDelay (now : Nat) (script : List PollerRun)
  /-- `epoll_wait` returns; with no events, if the time is over or it has been interrupted -/
  | wait (events : List LoopEvent)
  /-- the callback of another descriptor makes the calls `cs` -/
  | event (cs : List PollerCall)
  /-- `on_pipe_event` begins, with `errno` left over from before -/
  | pipe (errno : Errno) (interrupted : List Bool)
  /-- it runs the next task; `cs` is what a function of the user does -/
  | task (cs : List PollerCall)
  /-- no event is left -/
  | turn
  /-- `RunLoop` returns -/
  | leave
  /-- `~EventPoller`, which calls `Shutdown` and `on_pipe_event` -/
  | destroy (errno : Errno) (interrupted : List Bool)

namespace PollerState

def Idle (st : PollerState) : Prop := st.events = [] ∧ st.swapList = []

instance (st : PollerState) : Decidable st.Idle :=
  inferInstanceAs (Decidable (st.events = [] ∧ st.swapList = []))

def step (capacity : Nat) (st : PollerState) : PollerAction → Option PollerState
  | .call c =>
      if st.phase = .outside ∧ st.destroyed = false then some (st.call capacity c) else none
  | .runLoop =>
      if st.phase = .outside ∧ st.destroyed = false then
        some { st with phase := .top, poller := { st.poller with exitFlag := false } }
      else none
  | .minDelay now script =>
      if st.phase = .top ∧ st.poller.exitFlag = false then some (st.askDelay capacity now script)
      else none
  | .wait events =>
      if st.phase = .wait ∧ (LoopEvent.pipe ∈ events → st.pipe.edge = true) ∧
          events.count .pipe ≤ 1 ∧ events.length ≤ EPOLL_SIZE then
        some { st with
          phase := if events = [] then .top else .handle
          events := events
          pipe := { st.pipe with edge := st.pipe.edge && !events.contains .pipe } }
      else none
  | .event cs =>
      match st.swapList, st.events with
      | [], .other :: events => some ({ st with events := events }.calls capacity cs)
      | _, _ => none
  | .pipe errno interrupted =>
      match st.swapList, st.events with
      | [], .pipe :: events => some ({ st with events := events }.onPipeEvent errno interrupted)
      | _, _ => none
  | .task cs =>
      match st.swapList with
      | [] => none
      | task :: tasks => some ({ st with swapList := tasks }.runTask capacity task cs)
  | .turn => if st.phase = .handle ∧ st.Idle then some { st with phase := .top } else none
  | .leave =>
      if st.phase = .top ∧ st.poller.exitFlag = true then some { st with phase := .outside }
      else none
  | .destroy errno interrupted =>
      if st.phase = .outside ∧ st.destroyed = false then
        some ({ st.async capacity .exit true with destroyed := true }.onPipeEvent errno interrupted)
      else none

inductive Stepped (capacity : Nat) (st : PollerState) : PollerAction → PollerState → Prop
  | call (c : PollerCall) (hphase : st.phase = .outside) (hopen : st.destroyed = false) :
      Stepped capacity st (.call c) (st.call capacity c)
  | runLoop (hphase : st.phase = .outside) (hopen : st.destroyed = false) :
      Stepped capacity st .runLoop
        { st with phase := .top, poller := { st.poller with exitFlag := false } }
  | minDelay (now : Nat) (script : List PollerRun) (hphase : st.phase = .top)
      (hexit : st.poller.exitFlag = false) :
      Stepped capacity st (.minDelay now script) (st.askDelay capacity now script)
  | wait (events : List LoopEvent) (hphase : st.phase = .wait)
      (hedge : LoopEvent.pipe ∈ events → st.pipe.edge = true) (honce : events.count .pipe ≤ 1) :
      Stepped capacity st (.wait events) { st with
        phase := if events = [] then .top else .handle
        events := events
        pipe := { st.pipe with edge := st.pipe.edge && !events.contains .pipe } }
  | event (events : List LoopEvent) (cs : List PollerCall) (hswap : st.swapList = [])
      (hevents : st.events = .other :: events) :
      Stepped capacity st (.event cs) ({ st with events := events }.calls capacity cs)
  | pipe (events : List LoopEvent) (errno : Errno) (interrupted : List Bool)
      (hswap : st.swapList = []) (hevents : st.events = .pipe :: events) :
      Stepped capacity st (.pipe errno interrupted)
        ({ st with events := events }.onPipeEvent errno interrupted)
  | task (task : TaskId × Job) (tasks : List (TaskId × Job)) (cs : List PollerCall)
      (hswap : st.swapList = task :: tasks) :
      Stepped capacity st (.task cs) ({ st with swapList := tasks }.runTask capacity task cs)
  | turn (hphase : st.phase = .handle) (hidle : st.Idle) :
      Stepped capacity st .turn { st with phase := .top }
  | leave (hphase : st.phase = .top) : Stepped capacity st .leave { st with phase := .outside }
  | destroy (errno : Errno) (interrupted : List Bool) (hphase : st.phase = .outside)
      (hopen : st.destroyed = false) :
      Stepped capacity st (.destroy errno interrupted)
        ({ st.async capacity .exit true with destroyed := true }.onPipeEvent errno interrupted)

variable {capacity : Nat} {st st' : PollerState} {a : PollerAction}

theorem step_cases (hstep : st.step capacity a = some st') : Stepped capacity st a st' := by
  cases a with
  | call c =>
      obtain ⟨⟨hphase, hopen⟩, heq⟩ := Option.ite_none_right_eq_some.1 hstep
      cases heq
      exact .call c hphase hopen
  | runLoop =>
      obtain ⟨⟨hphase, hopen⟩, heq⟩ := Option.ite_none_right_eq_some.1 hstep
      cases heq
      exact .runLoop hphase hopen
  | minDelay now script =>
      obtain ⟨⟨hphase, hexit⟩, heq⟩ := Option.ite_none_right_eq_some.1 hstep
      cases heq
      exact .minDelay now script hphase hexit
  | wait events =>
      obtain ⟨⟨hphase, hedge, honce, -⟩, heq⟩ := Option.ite_none_right_eq_some.1 hstep
      cases heq
      exact .wait events hphase hedge honce
  | event cs =>
      unfold step at hstep
      dsimp only at hstep
      split at hstep
      · next events hswap hevents =>
        cases hstep
        exact .event events cs hswap hevents
      · cases hstep
  | pipe errno interrupted =>
      unfold step at hstep
      dsimp only at hstep
      split at hstep
      · next events hswap hevents =>
        cases hstep
        exact .pipe events errno interrupted hswap hevents
      · cases hstep
  | task cs =>
      unfold step at hstep
      dsimp only at hstep
      split at hstep
      · cases hstep
      · next task tasks hswap =>
        cases hstep
        exact .task task tasks cs hswap
  | turn =>
      obtain ⟨⟨hphase, hidle⟩, heq⟩ := Option.ite_none_right_eq_some.1 hstep
      cases heq
      exact .turn hphase hidle
  | leave =>
      obtain ⟨⟨hphase, -⟩, heq⟩ := Option.ite_none_right_eq_some.1 hstep
      cases heq
      exact .leave hphase
  | destroy errno interrupted =>
      obtain ⟨⟨hphase, hopen⟩, heq⟩ := Option.ite_none_right_eq_some.1 hstep
      cases heq
      exact .destroy errno interrupted hphase hopen

/-! ## What keeps a property -/

/-- A property that the calls of user code keep which `P` allows, and that does not depend on the
delay tasks. -/
structure Kept (capacity : Nat) (P : PollerCall → Prop) (I : PollerState → Prop) : Prop where
  call : ∀ st c, P c → I st → I (st.call capacity c)
  finish : ∀ st d, I st → I (st.finish d)
  entries : ∀ (st : PollerState) m, I st →
    I { st with poller := { st.poller with delayTasks := m } }
  passes : ∀ (st : PollerState) ps, I st → I { st with passes := ps }

variable {P : PollerCall → Prop} {I : PollerState → Prop}

theorem Kept.calls (hkept : Kept capacity P I) (hst : I st) {cs : List PollerCall}
    (hcs : ∀ c ∈ cs, P c) : I (st.calls capacity cs) := by
  induction cs generalizing st with
  | nil => exact hst
  | cons c cs ih =>
      obtain ⟨hc, hrest⟩ := List.forall_mem_cons.1 hcs
      exact ih (hkept.call st c hc hst) hrest

theorem Kept.invoke (hkept : Kept capacity P I) (hst : I st) (d : DelayId)
    {script : List PollerRun} (hscript : ∀ run ∈ script, ∀ c ∈ run.calls, P c) :
    I (st.invoke capacity d script).1 ∧
      ∀ run ∈ (st.invoke capacity d script).2.2, ∀ c ∈ run.calls, P c := by
  unfold PollerState.invoke
  split
  · exact ⟨hst, hscript⟩
  · cases script with
    | nil => exact ⟨hst, hscript⟩
    | cons run script =>
        obtain ⟨hrun, hrest⟩ := List.forall_mem_cons.1 hscript
        exact ⟨hkept.calls hst hrun, hrest⟩

theorem Kept.flushLoop (hkept : Kept capacity P I) (now fuel : Nat) (hst : I st)
    (passed todo : List (Nat × DelayId)) {script : List PollerRun}
    (hscript : ∀ run ∈ script, ∀ c ∈ run.calls, P c) :
    I (flushLoop capacity now fuel st passed todo script).state := by
  induction fuel generalizing st passed todo script with
  | zero => exact hst
  | succ fuel ih =>
      cases todo with
      | nil => exact hst
      | cons e todo =>
          obtain ⟨deadline, d⟩ := e
          rw [PollerState.flushLoop]
          split
          · obtain ⟨hinvoke, hrest⟩ := hkept.invoke hst d hscript
            generalize st.invoke capacity d script = res at hinvoke hrest
            obtain ⟨st', outcome, script'⟩ := res
            have hfinish := hkept.finish st' d hinvoke
            cases outcome with
            | throws => exact ih hfinish passed todo hrest
            | ret n =>
                dsimp only
                split
                · split
                  · exact ih hinvoke _ todo hrest
                  · exact ih hinvoke passed _ hrest
                · exact ih hfinish passed todo hrest
          · exact hst

theorem Kept.getMinDelayMs (hkept : Kept capacity P I) (now : Nat) (hst : I st)
    {script : List PollerRun} (hscript : ∀ run ∈ script, ∀ c ∈ run.calls, P c) :
    I (st.getMinDelayMs capacity now script).1 := by
  have hflush : I (st.flushDelayTasks capacity now script).1 := by
    have hloop := hkept.flushLoop now (st.poller.delayTasks.length + script.length)
      (hkept.entries st [] hst) [] st.poller.delayTasks hscript
    exact hkept.passes _ _ (hkept.entries _ _ hloop)
  unfold PollerState.getMinDelayMs
  split
  · exact hst
  · split
    · exact hst
    · exact hflush

/-! ## Names -/

/-- A task has a number that has been given to it, user code can only cancel tasks of its own. -/
structure Named (st : PollerState) : Prop where
  returned : ∀ t, st.returned t = true → t < st.nextTask
  cancelled : ∀ t, st.cancelled t = true → st.returned t = true
  listed : ∀ task ∈ st.poller.taskList ++ st.swapList,
    task.1 < st.nextTask ∧ (task.2 ≠ .user → st.returned task.1 = false)

theorem Named.fresh (h : st.Named) : st.returned st.nextTask = false := by
  rw [Bool.eq_false_iff]
  exact fun hno => Nat.lt_irrefl _ (h.returned _ hno)

theorem mem_async (capacity : Nat) {task : TaskId × Job} {job : Job} {first : Bool}
    (hin : task ∈ (st.async capacity job first).poller.taskList) :
    task = (st.nextTask, job) ∨ task ∈ st.poller.taskList := by
  cases first with
  | true => exact List.mem_cons.1 hin
  | false => exact (List.mem_append.1 hin).symm.imp_left List.mem_singleton.1

theorem async_named (capacity : Nat) (h : st.Named) (job : Job) (first : Bool) :
    (st.async capacity job first).Named where
  returned := fun t ht => Nat.lt_succ_of_lt (h.returned t ht)
  cancelled := h.cancelled
  listed := by
    intro task htask
    have hold : task ∈ st.poller.taskList ++ st.swapList →
        task.1 < st.nextTask + 1 ∧ (task.2 ≠ .user → st.returned task.1 = false) := fun hin =>
      (h.listed task hin).imp_left Nat.lt_succ_of_lt
    rcases List.mem_append.1 htask with hin | hin
    · rcases mem_async capacity hin with rfl | hin
      · exact ⟨Nat.lt_succ_self _, fun _ => h.fresh⟩
      · exact hold (List.mem_append_left _ hin)
    · exact hold (List.mem_append_right _ hin)

theorem asyncUser_named (h : st.Named) (first : Bool) : (st.asyncUser capacity first).Named where
  returned := by
    intro t ht
    by_cases heq : t = st.nextTask
    · rw [heq]
      exact Nat.lt_succ_self _
    · exact Nat.lt_succ_of_lt (h.returned t ((Function.update_of_ne heq _ _).symm.trans ht))
  cancelled := by
    intro t ht
    have hlt := h.returned t (h.cancelled t ht)
    exact (Function.update_of_ne (Nat.ne_of_lt hlt) _ _).trans (h.cancelled t ht)
  listed := by
    intro task htask
    have hlisted := (async_named capacity h .user first).listed task htask
    refine ⟨hlisted.1, fun huser => ?_⟩
    refine (Function.update_of_ne (fun heq => huser ?_) _ _).trans (hlisted.2 huser)
    rcases List.mem_append.1 htask with hin | hin
    · rcases mem_async capacity hin with rfl | hin
      · rfl
      · exact absurd heq (Nat.ne_of_lt (h.listed task (List.mem_append_left _ hin)).1)
    · exact absurd heq (Nat.ne_of_lt (h.listed task (List.mem_append_right _ hin)).1)

theorem call_named (h : st.Named) (c : PollerCall) : (st.call capacity c).Named := by
  cases c with
  | async => exact asyncUser_named h false
  | asyncFirst => exact asyncUser_named h true
  | shutdown => exact async_named capacity h .exit true
  | cancel t =>
      unfold call
      dsimp only
      split
      · next ht =>
        refine ⟨h.returned, fun t' ht' => ?_, h.listed⟩
        by_cases heq : t' = t
        · rw [heq]
          exact ht
        · exact h.cancelled t' ((Function.update_of_ne heq _ _).symm.trans ht')
      · exact h
  | doDelayTask delayMs now =>
      have hasync := async_named capacity h
        (.emplace ((delayMs + now) % 2 ^ 64) st.nextDelay) true
      exact ⟨hasync.returned, hasync.cancelled, hasync.listed⟩
  | cancelDelay d =>
      unfold call
      dsimp only
      split
      · exact ⟨h.returned, h.cancelled, h.listed⟩
      · exact h

theorem named_kept (capacity : Nat) : Kept capacity (fun _ => True) Named where
  call := fun _ c _ h => call_named h c
  finish := fun _ _ h => ⟨h.returned, h.cancelled, h.listed⟩
  entries := fun _ _ h => ⟨h.returned, h.cancelled, h.listed⟩
  passes := fun _ _ h => ⟨h.returned, h.cancelled, h.listed⟩

structure Same (st st' : PollerState) : Prop where
  phase : st'.phase = st.phase
  events : st'.events = st.events
  swapList : st'.swapList = st.swapList
  destroyed : st'.destroyed = st.destroyed
  exitFlag : st'.poller.exitFlag = st.poller.exitFlag

theorem call_same (capacity : Nat) (st : PollerState) (c : PollerCall) :
    Same st (st.call capacity c) := by
  cases c with
  | cancel t | cancelDelay d =>
      unfold call
      dsimp only
      split <;> exact ⟨rfl, rfl, rfl, rfl, rfl⟩
  | _ => exact ⟨rfl, rfl, rfl, rfl, rfl⟩

theorem same_kept (capacity : Nat) (u : PollerState) : Kept capacity (fun _ => True) (Same u) where
  call := fun st c _ h => by
    have hcall := call_same capacity st c
    exact ⟨hcall.phase.trans h.phase, hcall.events.trans h.events,
      hcall.swapList.trans h.swapList, hcall.destroyed.trans h.destroyed,
      hcall.exitFlag.trans h.exitFlag⟩
  finish := fun _ _ h => ⟨h.phase, h.events, h.swapList, h.destroyed, h.exitFlag⟩
  entries := fun _ _ h => ⟨h.phase, h.events, h.swapList, h.destroyed, h.exitFlag⟩
  passes := fun _ _ h => ⟨h.phase, h.events, h.swapList, h.destroyed, h.exitFlag⟩

theorem Same.refl (st : PollerState) : Same st st := ⟨rfl, rfl, rfl, rfl, rfl⟩

theorem calls_same (capacity : Nat) (st : PollerState) (cs : List PollerCall) :
    Same st (st.calls capacity cs) :=
  (same_kept capacity st).calls (Same.refl st) fun _ _ => trivial

theorem runTask_keeps {J : PollerState → Prop} {task : TaskId × Job} {cs : List PollerCall}
    (hkept : Kept capacity P J) (hlog : ∀ r, J (st.logRan r)) (hcs : ∀ c ∈ cs, P c)
    (hexit : ∀ u : PollerState, J u →
      J { u with poller := { u.poller with exitFlag := true } }) :
    J (st.runTask capacity task cs) := by
  unfold runTask
  split
  · exact hlog _
  · obtain ⟨t, job⟩ := task
    cases job with
    | user => exact hkept.calls (hlog _) hcs
    | emplace timeline d => exact hkept.entries _ _ (hlog _)
    | exit => exact hexit _ (hlog _)

/-! ## The shape of a state -/

/-- Where the thread is, and what it has still to do. -/
structure Shape (st : PollerState) : Prop where
  named : st.Named
  events : st.phase ≠ .handle → st.events = []
  swapList : st.phase ≠ .handle → st.destroyed = false → st.swapList = []
  opened : st.phase ≠ .outside → st.destroyed = false
  looping : st.phase = .wait → st.poller.exitFlag = false

theorem Shape.same {u : PollerState} (h : st.Shape) (hsame : Same st u) (hnamed : u.Named) :
    u.Shape where
  named := hnamed
  events := by rw [hsame.phase, hsame.events]; exact h.events
  swapList := by rw [hsame.phase, hsame.destroyed, hsame.swapList]; exact h.swapList
  opened := by rw [hsame.phase, hsame.destroyed]; exact h.opened
  looping := by rw [hsame.phase, hsame.exitFlag]; exact h.looping

theorem Shape.handling (h : st.Shape) {event : LoopEvent} {events : List LoopEvent}
    (hevents : st.events = event :: events) : st.phase = .handle := by
  by_contra hno
  rw [h.events hno] at hevents
  cases hevents

theorem Shape.idle (h : st.Shape) (hphase : st.phase = .outside) (hopen : st.destroyed = false) :
    st.Idle := by
  have hno : st.phase ≠ .handle := by
    rw [hphase]
    decide
  exact ⟨h.events hno, h.swapList hno hopen⟩

theorem Shape.waiting (h : st.Shape) (hphase : st.phase = .top ∨ st.phase = .wait) :
    st.Idle ∧ st.destroyed = false := by
  have hno : st.phase ≠ .handle ∧ st.phase ≠ .outside := by
    rcases hphase with hphase | hphase
    · rw [hphase]
      decide
    · rw [hphase]
      decide
  have hopen := h.opened hno.2
  exact ⟨⟨h.events hno.1, h.swapList hno.1 hopen⟩, hopen⟩

theorem onPipeEvent_named (h : st.Named) (hswap : st.swapList = []) (errno : Errno)
    (interrupted : List Bool) : (st.onPipeEvent errno interrupted).Named where
  returned := h.returned
  cancelled := h.cancelled
  listed := by
    intro task htask
    apply h.listed
    rw [hswap, List.append_nil]
    exact htask

theorem askDelay_spec (capacity : Nat) (h : st.Named) (now : Nat) (script : List PollerRun) :
    (st.askDelay capacity now script).Named ∧
      Same { st with phase := .wait } (st.askDelay capacity now script) := by
  have hclock : Named { st with clock := max st.clock now } := ⟨h.returned, h.cancelled, h.listed⟩
  have hnamed := (named_kept capacity).getMinDelayMs now hclock
    (fun (run : PollerRun) (_ : run ∈ script) _ _ => trivial)
  have hsame := (same_kept capacity { st with clock := max st.clock now }).getMinDelayMs now
    (Same.refl _) (fun (run : PollerRun) (_ : run ∈ script) _ _ => trivial)
  exact ⟨⟨hnamed.returned, hnamed.cancelled, hnamed.listed⟩,
    ⟨rfl, hsame.events, hsame.swapList, hsame.destroyed, hsame.exitFlag⟩⟩

theorem mem_of_pop {task : TaskId × Job} {tasks : List (TaskId × Job)}
    (hswap : st.swapList = task :: tasks) {task' : TaskId × Job}
    (htask' : task' ∈ st.poller.taskList ++ tasks) :
    task' ∈ st.poller.taskList ++ st.swapList := by
  rw [hswap]
  rcases List.mem_append.1 htask' with hin | hin
  · exact List.mem_append_left _ hin
  · exact List.mem_append_right _ (List.mem_cons_of_mem _ hin)

theorem Named.pop (h : st.Named) {task : TaskId × Job} {tasks : List (TaskId × Job)}
    (hswap : st.swapList = task :: tasks) : Named { st with swapList := tasks } where
  returned := h.returned
  cancelled := h.cancelled
  listed := fun task' htask' => h.listed task' (mem_of_pop hswap htask')

/-- User code has no pointer to a task of `DoDelayTask` or `Shutdown`, and has not cancelled it. -/
theorem Named.live (h : st.Named) {t : TaskId} {job : Job} {tasks : List (TaskId × Job)}
    (hswap : st.swapList = (t, job) :: tasks) (hjob : job ≠ .user) : ¬ st.cancelled t = true := by
  intro hcancelled
  have hin : (t, job) ∈ st.poller.taskList ++ st.swapList :=
    List.mem_append_right _ (by rw [hswap]; exact List.mem_cons_self)
  have hno := (h.listed _ hin).2 hjob
  rw [h.cancelled t hcancelled] at hno
  cases hno

theorem runTask_named (h : st.Named) (task : TaskId × Job) (cs : List PollerCall) :
    (st.runTask capacity task cs).Named := by
  refine runTask_keeps (named_kept capacity) (fun r => ?_) (fun _ _ => trivial) fun u hu => ?_
  · exact ⟨h.returned, h.cancelled, h.listed⟩
  · exact ⟨hu.returned, hu.cancelled, hu.listed⟩

structure SameTurn (st st' : PollerState) : Prop where
  phase : st'.phase = st.phase
  events : st'.events = st.events
  swapList : st'.swapList = st.swapList
  destroyed : st'.destroyed = st.destroyed

theorem runTask_same (capacity : Nat) (st : PollerState) (task : TaskId × Job)
    (cs : List PollerCall) : SameTurn st (st.runTask capacity task cs) := by
  have hkept : Kept capacity (fun _ => True) (SameTurn st) := {
    call := fun u c _ h => by
      have hcall := call_same capacity u c
      exact ⟨hcall.phase.trans h.phase, hcall.events.trans h.events,
        hcall.swapList.trans h.swapList, hcall.destroyed.trans h.destroyed⟩
    finish := fun _ _ h => ⟨h.phase, h.events, h.swapList, h.destroyed⟩
    entries := fun _ _ h => ⟨h.phase, h.events, h.swapList, h.destroyed⟩
    passes := fun _ _ h => ⟨h.phase, h.events, h.swapList, h.destroyed⟩ }
  exact runTask_keeps hkept (fun _ => ⟨rfl, rfl, rfl, rfl⟩) (fun _ _ => trivial)
    fun _ h => ⟨h.phase, h.events, h.swapList, h.destroyed⟩

theorem step_shape (h : st.Shape) (hstep : st.step capacity a = some st') : st'.Shape := by
  cases step_cases hstep with
  | call c => exact h.same (call_same capacity st c) (call_named h.named c)
  | runLoop hphase hopen =>
      obtain ⟨hevents, hswap⟩ := h.idle hphase hopen
      exact ⟨⟨h.named.returned, h.named.cancelled, h.named.listed⟩, fun _ => hevents,
        fun _ _ => hswap, fun _ => hopen, fun hwait => by cases hwait⟩
  | minDelay now script hphase hexit =>
      obtain ⟨⟨hevents, hswap⟩, hopen⟩ := h.waiting (.inl hphase)
      obtain ⟨hnamed, hsame⟩ := askDelay_spec capacity h.named now script
      have hwait : Shape { st with phase := .wait } :=
        ⟨⟨h.named.returned, h.named.cancelled, h.named.listed⟩, fun _ => hevents,
          fun _ _ => hswap, fun _ => hopen, fun _ => hexit⟩
      exact hwait.same hsame hnamed
  | wait events hphase =>
      obtain ⟨⟨-, hswap⟩, hopen⟩ := h.waiting (.inr hphase)
      refine ⟨⟨h.named.returned, h.named.cancelled, h.named.listed⟩, fun hphase' => ?_,
        fun _ _ => hswap, fun _ => hopen, fun hwait => ?_⟩
      · by_contra hsome
        exact hphase' (if_neg hsome)
      · dsimp only at hwait
        split at hwait <;> cases hwait
  | event events cs hswap hevents =>
      have hhandle := h.handling hevents
      have hpop : Shape { st with events := events } :=
        ⟨⟨h.named.returned, h.named.cancelled, h.named.listed⟩, fun hno => absurd hhandle hno,
          h.swapList, h.opened, h.looping⟩
      exact hpop.same (calls_same capacity _ cs)
        ((named_kept capacity).calls hpop.named fun _ _ => trivial)
  | pipe events errno interrupted hswap hevents =>
      have hhandle := h.handling hevents
      have hpop : Named { st with events := events } :=
        ⟨h.named.returned, h.named.cancelled, h.named.listed⟩
      exact ⟨onPipeEvent_named hpop hswap errno interrupted, fun hno => absurd hhandle hno,
        fun hno => absurd hhandle hno, h.opened, h.looping⟩
  | task task tasks cs hswap =>
      have hsame := runTask_same capacity { st with swapList := tasks } task cs
      have hbusy : st.phase ≠ .handle → st.destroyed = true := by
        intro hno
        rw [← Bool.not_eq_false]
        intro hopen
        rw [h.swapList hno hopen] at hswap
        cases hswap
      refine ⟨runTask_named (h.named.pop hswap) task cs, ?_, ?_, ?_, ?_⟩
      · rw [hsame.phase, hsame.events]
        exact h.events
      · rw [hsame.phase, hsame.destroyed]
        intro hno hopen
        rw [hbusy hno] at hopen
        cases hopen
      · rw [hsame.phase, hsame.destroyed]
        exact h.opened
      · rw [hsame.phase]
        intro hwait
        have hclosed := hbusy (by rw [hwait]; decide)
        rw [h.opened (by rw [hwait]; decide)] at hclosed
        cases hclosed
  | turn hphase hidle =>
      exact ⟨⟨h.named.returned, h.named.cancelled, h.named.listed⟩, fun _ => hidle.1,
        fun _ _ => hidle.2, fun _ => h.opened (by rw [hphase]; decide), fun hwait => by cases hwait⟩
  | leave hphase =>
      obtain ⟨⟨hevents, hswap⟩, -⟩ := h.waiting (.inl hphase)
      exact ⟨⟨h.named.returned, h.named.cancelled, h.named.listed⟩, fun _ => hevents,
        fun _ _ => hswap, fun hno => absurd rfl hno, fun hwait => by cases hwait⟩
  | destroy errno interrupted hphase hopen =>
      obtain ⟨hevents, hswap⟩ := h.idle hphase hopen
      have hasync := async_named capacity h.named .exit true
      have hclosed : Named { st.async capacity .exit true with destroyed := true } :=
        ⟨hasync.returned, hasync.cancelled, hasync.listed⟩
      exact ⟨onPipeEvent_named hclosed hswap errno interrupted,
        fun _ => hevents, fun _ hopen => (by cases hopen), fun hno => absurd hphase hno,
        fun hwait => (by cases hphase.symm.trans hwait)⟩

theorem init_shape : ({} : PollerState).Shape where
  named := ⟨fun _ h => (by cases h), fun _ h => (by cases h), fun _ h => (by cases h)⟩
  events := fun _ => rfl
  swapList := fun _ _ => rfl
  opened := fun _ => rfl
  looping := fun h => by cases h

end PollerState

end CommonLibrary.Poller
