import CommonLibrary.Foundation.Run
import CommonLibrary.Poller.EventPoller
import Mathlib.Data.List.Perm.Basic
import Mathlib.Data.List.Range

/-!
# The task list and the pipe

`Async` and `AsyncFirst` put a task into `task_list_` and write a byte into a pipe;
`RunLoop` gets the event of the pipe from `epoll_wait`, and `on_pipe_event` empties the
pipe and runs what is in `task_list_`.  Tasks are numbered in the order in which they are
posted.  The pipe is a byte FIFO of a capacity that is a parameter here, and its
registration is edge-triggered.
-/

namespace CommonLibrary.Poller

open Foundation Utils

abbrev TaskId := Nat

/-- What user code may call on the poller thread. -/
inductive TaskCall where
  | async
  | asyncFirst
  /-- `Cancel` on a task that has been posted -/
  | cancel (t : TaskId)

inductive TaskEnd where
  | returns
  /-- with a `std::exception` -/
  | throws
  /-- with the `ExitException` of `Shutdown` -/
  | exits

/-- History: one call of `async`. -/
structure Post where
  task : TaskId
  first : Bool
  deriving DecidableEq

/-- History: a task that `on_pipe_event` has run, and whether its function was called. -/
structure Ran where
  task : TaskId
  called : Bool
  deriving DecidableEq

/-- History: one run of `on_pipe_event`. -/
structure Drain where
  /-- what has been posted since the drain before it began -/
  posts : List Post
  /-- `task_list_` when it is swapped out -/
  before : List TaskId
  ran : List Ran
  deriving DecidableEq

structure Pipe where
  unread : Nat := 0
  /-- `epoll_wait` has not returned the last edge yet -/
  edge : Bool := false
  deriving DecidableEq

inductive LoopEvent where
  /-- of the pipe -/
  | pipe
  /-- of another descriptor -/
  | other
  deriving DecidableEq

structure LoopState where
  poller : EventPoller TaskId Unit Unit := {}
  pipe : Pipe := {}
  /-- the events that `RunLoop` has still to handle -/
  events : List LoopEvent := []
  /-- the tasks of `swap_list` that `on_pipe_event` has still to run -/
  swapList : List TaskId := []
  cancelled : TaskId → Bool := fun _ => false
  /-- `~EventPoller` has closed `epoll_fd_` -/
  destroyed : Bool := false
  nextTask : TaskId := 0
  /-- history: what has been posted since the last drain began -/
  posts : List Post := []
  /-- history: the drains, the last one first -/
  drains : List Drain := []

/-- `pipe_.Write("", 1)`. -/
def Pipe.write (capacity : Nat) (p : Pipe) : Pipe :=
  if p.unread < capacity then ⟨p.unread + 1, true⟩ else p

/-- The loop in which `on_pipe_event` empties the pipe: the unread bytes that it leaves.
A successful `Read` does not touch `errno` unless it has been interrupted before, and
`continue` jumps to the test of `errno`. -/
def drainPipe : Nat → Nat → Errno → List Bool → Nat
  | 0, unread, _, _ => unread
  | fuel + 1, unread, errno, interrupted =>
      if unread = 0 then 0
      else
        let errno := if interrupted.headD false then EINTR else errno
        let unread := unread - 1024
        if uvTranslatePosixError errno ≠ EAGAIN then
          drainPipe fuel unread errno interrupted.tail
        else unread

namespace LoopState

def async (capacity : Nat) (st : LoopState) (first : Bool) : LoopState :=
  { st with
    poller := st.poller.async st.nextTask first
    pipe := st.pipe.write capacity
    nextTask := st.nextTask + 1
    posts := st.posts ++ [⟨st.nextTask, first⟩] }

def call (capacity : Nat) (st : LoopState) : TaskCall → LoopState
  | .async => st.async capacity false
  | .asyncFirst => st.async capacity true
  | .cancel t =>
      if t < st.nextTask then { st with cancelled := Function.update st.cancelled t true } else st

def calls (capacity : Nat) (st : LoopState) (cs : List TaskCall) : LoopState :=
  cs.foldl (call capacity) st

/-- `on_pipe_event` up to the swap. -/
def onPipeEvent (st : LoopState) (errno : Errno) (interrupted : List Bool) : LoopState :=
  { st with
    pipe := { st.pipe with
      unread := drainPipe (st.pipe.unread + 1) st.pipe.unread errno interrupted }
    swapList := st.poller.taskList
    poller := { st.poller with taskList := [] }
    posts := []
    drains := ⟨st.posts, st.poller.taskList, []⟩ :: st.drains }

def pop (st : LoopState) (tasks : List TaskId) : LoopState := { st with swapList := tasks }

def logRan (st : LoopState) (r : Ran) : LoopState :=
  { st with
    drains :=
      match st.drains with
      | [] => []
      | d :: ds => { d with ran := d.ran ++ [r] } :: ds }

def exit (st : LoopState) (how : TaskEnd) : LoopState :=
  match how with
  | .exits => { st with poller := { st.poller with exitFlag := true } }
  | _ => st

/-- The function that `for_each` calls for the task `t`: nothing for a cancelled one. -/
def runTask (capacity : Nat) (st : LoopState) (t : TaskId) (cs : List TaskCall)
    (how : TaskEnd) : LoopState :=
  if st.cancelled t then st.logRan ⟨t, false⟩
  else ((st.logRan ⟨t, true⟩).calls capacity cs).exit how

end LoopState

inductive LoopAction where
  /-- user code runs before `RunLoop`, in an event callback or in a delay task -/
  | call (c : TaskCall)
  /-- `RunLoop` begins -/
  | runLoop
  /-- `epoll_wait` returns -/
  | wait (events : List LoopEvent)
  /-- `RunLoop` has handled the event of another descriptor -/
  | event
  /-- `RunLoop` calls `on_pipe_event`, with `errno` left over from before -/
  | pipe (errno : Errno) (interrupted : List Bool)
  /-- `on_pipe_event` runs the next task -/
  | task (cs : List TaskCall) (how : TaskEnd)
  /-- `~EventPoller`, which calls `Shutdown` and `on_pipe_event` -/
  | destroy (errno : Errno) (interrupted : List Bool)

namespace LoopState

def Idle (st : LoopState) : Prop := st.events = [] ∧ st.swapList = []

instance (st : LoopState) : Decidable st.Idle :=
  inferInstanceAs (Decidable (st.events = [] ∧ st.swapList = []))

def AboutToWait (st : LoopState) : Prop :=
  st.Idle ∧ st.poller.exitFlag = false ∧ st.destroyed = false

instance (st : LoopState) : Decidable st.AboutToWait :=
  inferInstanceAs (Decidable (st.Idle ∧ st.poller.exitFlag = false ∧ st.destroyed = false))

def step (capacity : Nat) (st : LoopState) : LoopAction → Option LoopState
  | .call c => some (st.call capacity c)
  | .runLoop =>
      if st.Idle then some { st with poller := { st.poller with exitFlag := false } } else none
  | .wait events =>
      if st.AboutToWait ∧ (LoopEvent.pipe ∈ events → st.pipe.edge = true) ∧
          events.count .pipe ≤ 1 then
        some { st with
          events := events
          pipe := { st.pipe with edge := st.pipe.edge && !events.contains .pipe } }
      else none
  | .event =>
      match st.swapList, st.events with
      | [], .other :: events => some { st with events := events }
      | _, _ => none
  | .pipe errno interrupted =>
      match st.swapList, st.events with
      | [], .pipe :: events => some ({ st with events := events }.onPipeEvent errno interrupted)
      | _, _ => none
  | .task cs how =>
      match st.swapList with
      | [] => none
      | t :: tasks => some ((st.pop tasks).runTask capacity t cs how)
  | .destroy errno interrupted =>
      if st.Idle ∧ st.destroyed = false then
        some ({ st.async capacity true with destroyed := true }.onPipeEvent errno interrupted)
      else none

inductive Stepped (capacity : Nat) (st : LoopState) : LoopState → Prop
  | call (c : TaskCall) : Stepped capacity st (st.call capacity c)
  | runLoop (hidle : st.Idle) :
      Stepped capacity st { st with poller := { st.poller with exitFlag := false } }
  | wait (events : List LoopEvent) (hwait : st.AboutToWait) :
      Stepped capacity st { st with
        events := events
        pipe := { st.pipe with edge := st.pipe.edge && !events.contains .pipe } }
  | event (events : List LoopEvent) (hevents : st.events = .other :: events) :
      Stepped capacity st { st with events := events }
  | pipe (events : List LoopEvent) (errno : Errno) (interrupted : List Bool)
      (hswap : st.swapList = []) :
      Stepped capacity st ({ st with events := events }.onPipeEvent errno interrupted)
  | task (t : TaskId) (tasks : List TaskId) (cs : List TaskCall) (how : TaskEnd)
      (hswap : st.swapList = t :: tasks) :
      Stepped capacity st ((st.pop tasks).runTask capacity t cs how)
  | destroy (errno : Errno) (interrupted : List Bool) (hidle : st.Idle) :
      Stepped capacity st
        ({ st.async capacity true with destroyed := true }.onPipeEvent errno interrupted)

theorem step_cases {capacity : Nat} {st st' : LoopState} {a : LoopAction}
    (hstep : st.step capacity a = some st') : st.Stepped capacity st' := by
  cases a with
  | call c =>
      cases hstep
      exact .call c
  | runLoop =>
      simp only [step, Option.ite_none_right_eq_some, Option.some.injEq] at hstep
      obtain ⟨hidle, rfl⟩ := hstep
      exact .runLoop hidle
  | wait events =>
      simp only [step, Option.ite_none_right_eq_some, Option.some.injEq] at hstep
      obtain ⟨⟨hwait, -, -⟩, rfl⟩ := hstep
      exact .wait events hwait
  | event =>
      unfold step at hstep
      dsimp only at hstep
      split at hstep
      · next events _ hevents =>
        cases hstep
        exact .event events hevents
      · cases hstep
  | pipe errno interrupted =>
      unfold step at hstep
      dsimp only at hstep
      split at hstep
      · next events hswap _ =>
        cases hstep
        exact .pipe events errno interrupted hswap
      · cases hstep
  | task cs how =>
      unfold step at hstep
      dsimp only at hstep
      split at hstep
      · cases hstep
      · next t tasks hswap =>
        cases hstep
        exact .task t tasks cs how hswap
  | destroy errno interrupted =>
      simp only [step, Option.ite_none_right_eq_some, Option.some.injEq] at hstep
      obtain ⟨⟨hidle, -⟩, rfl⟩ := hstep
      exact .destroy errno interrupted hidle

/-! ## Order -/

/-- The order in which what has been posted is to run: first what `AsyncFirst` has posted,
the last one first, then what `Async` has posted. -/
def inOrder (posts : List Post) : List TaskId :=
  ((posts.filter Post.first).reverse ++ posts.filter fun p => !p.first).map Post.task

theorem inOrder_snoc (posts : List Post) (t : TaskId) (first : Bool) :
    inOrder (posts ++ [⟨t, first⟩]) =
      if first then t :: inOrder posts else inOrder posts ++ [t] := by
  cases first <;> simp [inOrder, List.filter_append]

theorem inOrder_perm (posts : List Post) : (inOrder posts).Perm (posts.map Post.task) := by
  apply List.Perm.map
  exact ((List.reverse_perm _).append_right _).trans (List.filter_append_perm Post.first posts)

/-- What the drains have run and have still to run. -/
structure Drained (st : LoopState) : Prop where
  /-- `task_list_` holds what has been posted since the last drain began -/
  queued : st.poller.taskList = inOrder st.posts
  /-- a drain begins with what has been posted since the one before began -/
  before : ∀ d ∈ st.drains, d.before = inOrder d.posts
  /-- the last drain has run a part of that, in order -/
  running : ∀ d, st.drains.head? = some d → d.ran.map Ran.task ++ st.swapList = d.before
  /-- the others have run all of it -/
  finished : ∀ d ∈ st.drains.tail, d.ran.map Ran.task = d.before
  /-- every call of `async` is in one drain, or after the last one -/
  posted : ((st.drains.reverse.flatMap Drain.posts ++ st.posts).map Post.task) =
    List.range st.nextTask
  /-- a task whose function was not called had been cancelled -/
  skipped : ∀ d ∈ st.drains, ∀ r ∈ d.ran, r.called = false → st.cancelled r.task = true
  /-- no drain has begun yet -/
  idle : st.drains = [] → st.swapList = []

variable {capacity : Nat} {st st' : LoopState}

theorem calls_keeps {I : LoopState → Prop} (hcall : ∀ st c, I st → I (st.call capacity c))
    (cs : List TaskCall) (h : I st) : I (st.calls capacity cs) := by
  induction cs generalizing st with
  | nil => exact h
  | cons c cs ih => exact ih (hcall st c h)

theorem Drained.congr (h : st.Drained) (hlist : st'.poller.taskList = st.poller.taskList)
    (hswap : st'.swapList = st.swapList) (hcancelled : st'.cancelled = st.cancelled)
    (hnext : st'.nextTask = st.nextTask) (hposts : st'.posts = st.posts)
    (hdrains : st'.drains = st.drains) : st'.Drained := by
  constructor
  · rw [hlist, hposts]; exact h.queued
  · rw [hdrains]; exact h.before
  · rw [hdrains, hswap]; exact h.running
  · rw [hdrains]; exact h.finished
  · rw [hdrains, hposts, hnext]; exact h.posted
  · rw [hdrains, hcancelled]; exact h.skipped
  · rw [hdrains, hswap]; exact h.idle

theorem async_drained (h : st.Drained) (first : Bool) : (st.async capacity first).Drained where
  queued := by
    show (st.poller.async st.nextTask first).taskList = inOrder (st.posts ++ [⟨st.nextTask, first⟩])
    rw [inOrder_snoc, ← h.queued]
    rfl
  before := h.before
  running := h.running
  finished := h.finished
  posted := by
    show ((st.drains.reverse.flatMap Drain.posts ++ (st.posts ++ [Post.mk st.nextTask first])).map
      Post.task) = List.range (st.nextTask + 1)
    rw [← List.append_assoc, List.map_append, h.posted, List.range_succ]
    rfl
  skipped := h.skipped
  idle := h.idle

theorem call_drained (h : st.Drained) (c : TaskCall) : (st.call capacity c).Drained := by
  cases c with
  | async => exact async_drained h false
  | asyncFirst => exact async_drained h true
  | cancel t =>
      unfold call
      dsimp only
      split
      · refine ⟨h.queued, h.before, h.running, h.finished, h.posted, fun d hd r hr hno => ?_,
          h.idle⟩
        show Function.update st.cancelled t true r.task = true
        rw [Function.update_apply]
        split
        · rfl
        · exact h.skipped d hd r hr hno
      · exact h

theorem onPipeEvent_drained (h : st.Drained) (hswap : st.swapList = []) (errno : Errno)
    (interrupted : List Bool) : (st.onPipeEvent errno interrupted).Drained where
  queued := rfl
  before := by
    intro d hd
    rcases List.mem_cons.1 hd with rfl | hd
    · exact h.queued
    · exact h.before d hd
  running := by
    rintro d ⟨⟩
    rfl
  finished := by
    intro d hd
    rcases hdrains : st.drains with _ | ⟨last, older⟩
    · rw [show (st.onPipeEvent errno interrupted).drains.tail = st.drains from rfl, hdrains] at hd
      cases hd
    · rw [show (st.onPipeEvent errno interrupted).drains.tail = st.drains from rfl, hdrains] at hd
      rcases List.mem_cons.1 hd with rfl | hd
      · have hall := h.running d (by rw [hdrains]; rfl)
        rwa [hswap, List.append_nil] at hall
      · exact h.finished d (by rw [hdrains]; exact hd)
  posted := by
    show (((Drain.mk st.posts st.poller.taskList [] :: st.drains).reverse.flatMap Drain.posts ++
      []).map Post.task) = List.range st.nextTask
    rw [List.append_nil, List.reverse_cons, List.flatMap_append, ← h.posted]
    simp
  skipped := by
    intro d hd r hr
    rcases List.mem_cons.1 hd with rfl | hd
    · cases hr
    · exact h.skipped d hd r hr
  idle := fun hno => by cases hno

theorem logRan_drained (h : st.Drained) {t : TaskId} {tasks : List TaskId}
    (hswap : st.swapList = t :: tasks) {called : Bool}
    (hcalled : called = false → st.cancelled t = true) :
    ((st.pop tasks).logRan ⟨t, called⟩).Drained := by
  rcases hdrains : st.drains with _ | ⟨d, older⟩
  · rw [h.idle hdrains] at hswap
    cases hswap
  have hlast := h.running d (by rw [hdrains]; rfl)
  rw [hswap] at hlast
  have hpop : (st.pop tasks).drains = d :: older := hdrains
  have hnew : ((st.pop tasks).logRan ⟨t, called⟩).drains =
      { d with ran := d.ran ++ [⟨t, called⟩] } :: older := by
    simp only [logRan, hpop]
  refine ⟨h.queued, fun d' hd' => ?_, fun d' hd' => ?_, fun d' hd' => ?_, ?_,
    fun d' hd' r hr hno => ?_, fun hno => ?_⟩
  · rw [hnew] at hd'
    rcases List.mem_cons.1 hd' with rfl | hd'
    · exact h.before d (by rw [hdrains]; exact List.mem_cons_self)
    · exact h.before d' (by rw [hdrains]; exact List.mem_cons_of_mem _ hd')
  · rw [hnew] at hd'
    cases hd'
    show (d.ran ++ [Ran.mk t called]).map Ran.task ++ tasks = d.before
    rw [← hlast, List.map_append, List.append_assoc]
    rfl
  · rw [hnew] at hd'
    exact h.finished d' (by rw [hdrains]; exact hd')
  · show ((((st.pop tasks).logRan ⟨t, called⟩).drains.reverse.flatMap Drain.posts ++
      st.posts).map Post.task) = List.range st.nextTask
    rw [hnew, ← h.posted, hdrains]
    simp
  · rw [hnew] at hd'
    rcases List.mem_cons.1 hd' with rfl | hd'
    · rcases List.mem_append.1 hr with hr | hr
      · exact h.skipped d (by rw [hdrains]; exact List.mem_cons_self) r hr hno
      · rw [List.mem_singleton.1 hr] at hno ⊢
        exact hcalled hno
    · exact h.skipped d' (by rw [hdrains]; exact List.mem_cons_of_mem _ hd') r hr hno
  · rw [hnew] at hno
    cases hno

theorem exit_drained (h : st.Drained) (how : TaskEnd) : (st.exit how).Drained := by
  cases how <;> exact h.congr rfl rfl rfl rfl rfl rfl

theorem call_swapList (st : LoopState) (c : TaskCall) :
    (st.call capacity c).swapList = st.swapList := by
  cases c with
  | async => rfl
  | asyncFirst => rfl
  | cancel t =>
      unfold call
      dsimp only
      split <;> rfl

theorem runTask_swapList (t : TaskId) (cs : List TaskCall) (how : TaskEnd) :
    (st.runTask capacity t cs how).swapList = st.swapList := by
  unfold runTask
  split
  · rfl
  · have hcalls : ((st.logRan ⟨t, true⟩).calls capacity cs).swapList = st.swapList :=
      calls_keeps (I := (swapList · = st.swapList)) (fun u c h => (call_swapList u c).trans h) cs
        rfl
    cases how <;> exact hcalls

theorem runTask_drained (h : st.Drained) {t : TaskId} {tasks : List TaskId}
    (hswap : st.swapList = t :: tasks) (cs : List TaskCall) (how : TaskEnd) :
    ((st.pop tasks).runTask capacity t cs how).Drained := by
  unfold runTask
  split
  · next hcancelled => exact logRan_drained h hswap fun _ => hcancelled
  · have hlog : ((st.pop tasks).logRan ⟨t, true⟩).Drained :=
      logRan_drained h hswap fun hno => by cases hno
    exact exit_drained (calls_keeps (I := Drained) (fun _ c hu => call_drained hu c) cs hlog) how

theorem step_drained (h : st.Drained) {a : LoopAction} (hstep : st.step capacity a = some st') :
    st'.Drained := by
  cases step_cases hstep with
  | call c => exact call_drained h c
  | runLoop => exact h.congr rfl rfl rfl rfl rfl rfl
  | wait events => exact h.congr rfl rfl rfl rfl rfl rfl
  | event events => exact h.congr rfl rfl rfl rfl rfl rfl
  | pipe events errno interrupted hswap =>
      have hevents : ({ st with events := events } : LoopState).Drained :=
        h.congr rfl rfl rfl rfl rfl rfl
      exact onPipeEvent_drained hevents hswap errno interrupted
  | task t tasks cs how hswap => exact runTask_drained h hswap cs how
  | destroy errno interrupted hidle =>
      have hasync : (st.async capacity true).Drained := async_drained h true
      have hshutdown : ({ st.async capacity true with destroyed := true } : LoopState).Drained :=
        hasync.congr rfl rfl rfl rfl rfl rfl
      exact onPipeEvent_drained hshutdown hidle.2 errno interrupted

theorem init_drained : ({} : LoopState).Drained where
  queued := rfl
  before := fun d hd => by cases hd
  running := fun d hd => by cases hd
  finished := fun d hd => by cases hd
  posted := rfl
  skipped := fun d hd => by cases hd
  idle := fun _ => rfl

/-! ## Once and for all -/

def ran (st : LoopState) : List Ran := st.drains.reverse.flatMap Drain.ran

/-- The drains have taken the tasks as their lists held them. -/
theorem Drained.ran_append (h : st.Drained) :
    st.ran.map Ran.task ++ st.swapList = st.drains.reverse.flatMap Drain.before := by
  unfold ran
  rcases hdrains : st.drains with _ | ⟨d, older⟩
  · rw [h.idle hdrains]
    rfl
  have hlast := h.running d (by rw [hdrains]; rfl)
  have holder : older.reverse.flatMap (fun d => d.ran.map Ran.task) =
      older.reverse.flatMap Drain.before := by
    apply List.flatMap_congr
    intro d' hd'
    exact h.finished d' (by rw [hdrains]; exact List.mem_reverse.1 hd')
  rw [List.reverse_cons, List.flatMap_append, List.flatMap_append, List.map_append,
    List.map_flatMap, holder, List.append_assoc, List.flatMap_singleton, List.flatMap_singleton,
    hlast]

/-- Every task that has been posted has been run, is to be run by this drain or waits for a
later one, and is there once. -/
theorem Drained.perm (h : st.Drained) :
    (st.ran.map Ran.task ++ st.swapList ++ st.poller.taskList).Perm (List.range st.nextTask) := by
  rw [h.ran_append, h.queued, ← h.posted, List.map_append, List.map_flatMap]
  apply List.Perm.append _ (inOrder_perm st.posts)
  apply List.Perm.flatMap_left
  intro d hd
  rw [h.before d (List.mem_reverse.1 hd)]
  exact inOrder_perm d.posts

/-- A task has been cancelled in time. -/
def Skips (st : LoopState) (t : TaskId) : Prop :=
  st.cancelled t = true ∧ (⟨t, true⟩ : Ran) ∉ st.ran

theorem mem_ran_logRan {r x : Ran} (hx : x ∈ (st.logRan r).ran) : x ∈ st.ran ∨ x = r := by
  unfold ran at hx ⊢
  rcases hdrains : st.drains with _ | ⟨d, older⟩
  · rw [show (st.logRan r).drains = [] by simp only [logRan, hdrains]] at hx
    cases hx
  rw [show (st.logRan r).drains = { d with ran := d.ran ++ [r] } :: older by
    simp only [logRan, hdrains]] at hx
  simp only [List.reverse_cons, List.flatMap_append, List.flatMap_singleton, List.mem_append,
    List.mem_singleton] at hx ⊢
  tauto

theorem call_skips {t : TaskId} (h : st.Skips t) (c : TaskCall) : (st.call capacity c).Skips t := by
  cases c with
  | async => exact h
  | asyncFirst => exact h
  | cancel t' =>
      unfold call
      dsimp only
      split
      · refine ⟨?_, h.2⟩
        show Function.update st.cancelled t' true t = true
        rw [Function.update_apply]
        split
        · rfl
        · exact h.1
      · exact h

theorem onPipeEvent_skips {t : TaskId} (h : st.Skips t) (errno : Errno)
    (interrupted : List Bool) : (st.onPipeEvent errno interrupted).Skips t := by
  refine ⟨h.1, ?_⟩
  have hran : (st.onPipeEvent errno interrupted).ran = st.ran := by
    unfold ran onPipeEvent
    rw [List.reverse_cons, List.flatMap_append, List.flatMap_singleton, List.append_nil]
  rw [hran]
  exact h.2

theorem runTask_skips {t t' : TaskId} (h : st.Skips t) (cs : List TaskCall) (how : TaskEnd) :
    (st.runTask capacity t' cs how).Skips t := by
  unfold runTask
  split
  · refine ⟨h.1, fun hran => ?_⟩
    rcases mem_ran_logRan hran with hran | heq
    · exact h.2 hran
    · cases heq
  · next hcancelled =>
    have hlog : (st.logRan ⟨t', true⟩).Skips t := by
      refine ⟨h.1, fun hran => ?_⟩
      rcases mem_ran_logRan hran with hran | heq
      · exact h.2 hran
      · cases heq
        exact hcancelled h.1
    have hcalls : ((st.logRan ⟨t', true⟩).calls capacity cs).Skips t :=
      calls_keeps (I := (Skips · t)) (fun _ c hu => call_skips hu c) cs hlog
    cases how <;> exact hcalls

theorem step_skips {t : TaskId} (h : st.Skips t) {a : LoopAction}
    (hstep : st.step capacity a = some st') : st'.Skips t := by
  cases step_cases hstep with
  | call c => exact call_skips h c
  | runLoop => exact h
  | wait events => exact h
  | event events => exact h
  | pipe events errno interrupted =>
      have hevents : ({ st with events := events } : LoopState).Skips t := h
      exact onPipeEvent_skips hevents errno interrupted
  | task t' tasks cs how =>
      have hpop : (st.pop tasks).Skips t := h
      exact runTask_skips hpop cs how
  | destroy errno interrupted =>
      have hshutdown : ({ st.async capacity true with destroyed := true } : LoopState).Skips t := h
      exact onPipeEvent_skips hshutdown errno interrupted

/-- Every drain runs what `task_list_` held when it began, what `AsyncFirst` had posted before
what `Async` had posted; nothing is lost and nothing is run twice, a task cancelled before its
turn is run without its function, and the next task has its turn whatever the one before
did. -/
theorem tasks_run_in_order {acts more : List LoopAction}
    (hrun : Run (step capacity) (fun _ _ => True) {} acts st)
    (hmore : Run (step capacity) (fun _ _ => True) st more st') :
    st'.Drained ∧
      (st'.ran.map Ran.task ++ st'.swapList ++ st'.poller.taskList).Perm
        (List.range st'.nextTask) ∧
      (∀ t, st.cancelled t = true → t ∉ st.ran.map Ran.task → (⟨t, true⟩ : Ran) ∉ st'.ran) ∧
      ∀ t tasks, st'.swapList = t :: tasks → ∀ cs how, ∃ next,
        st'.step capacity (.task cs how) = some next ∧ next.swapList = tasks := by
  have hst : st.Drained := hrun.invariant (fun _ _ _ h _ hstep => step_drained h hstep) init_drained
  have hst' : st'.Drained := hmore.invariant (fun _ _ _ h _ hstep => step_drained h hstep) hst
  refine ⟨hst', hst'.perm, fun t hcancelled hnot => ?_, fun t tasks hswap cs how => ?_⟩
  · have hskips : st.Skips t := ⟨hcancelled, fun hran => hnot (List.mem_map.2 ⟨_, hran, rfl⟩)⟩
    exact (hmore.invariant (fun _ _ _ h _ hstep => step_skips h hstep) hskips).2
  · refine ⟨(st'.pop tasks).runTask capacity t cs how, by simp only [step, hswap], ?_⟩
    exact runTask_swapList t cs how

/-- Task 1 was posted with `AsyncFirst`; it posts another task and throws.  Task 0 had been
cancelled before. -/
theorem tasks_run_in_order_cancelled : ∃ st' : LoopState,
    st'.ran = [⟨1, true⟩, ⟨0, false⟩, ⟨2, true⟩] ∧ st'.swapList = [] ∧
      st'.poller.taskList = [3] ∧ st'.Drained := by
  have h : ((exec (step 1) {} [.call .async, .call .asyncFirst, .call .async,
      .call (.cancel 0)]).bind fun st => (exec (step 1) st [.runLoop, .wait [.pipe], .pipe 0 [],
        .task [.async] .throws, .task [] .returns, .task [] .returns]).map fun st' =>
          (st'.ran, st'.swapList, st'.poller.taskList)) =
      some ([⟨1, true⟩, ⟨0, false⟩, ⟨2, true⟩], [], [3]) := by decide +kernel
  obtain ⟨st, hexec, hmore⟩ := Option.bind_eq_some_iff.1 h
  obtain ⟨st', hexec', hend⟩ := Option.map_eq_some_iff.1 hmore
  injection hend with hran hend
  injection hend with hswap hlist
  exact ⟨st', hran, hswap, hlist,
    (tasks_run_in_order (Run.of_exec hexec) (Run.of_exec hexec')).1⟩

end LoopState

end CommonLibrary.Poller
