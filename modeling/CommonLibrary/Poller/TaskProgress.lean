import CommonLibrary.Poller.Wakeup

/-!
# The loop gets on

`RunLoop` with its tasks: a task that has been posted is run before long, and the loop ends
when `Shutdown` has been called, whatever else is posted meanwhile.
-/

namespace CommonLibrary.Poller

open Foundation Utils

/-- The size of the array that `epoll_wait` fills in. -/
def EPOLL_SIZE : Nat := 1024

namespace LoopAction

/-- What an action may add to the steps that are left: the posts of user code, and the steps
that are taken over again. -/
def cost : LoopAction → Nat
  | call _ => 2
  | wait [] => 1
  | task cs _ => cs.length
  | _ => 0

/-- A step of `RunLoop` itself. -/
def isLoop : LoopAction → Bool
  | call _ => false
  | _ => true

/-- `epoll_wait` returns nothing. -/
def isIdle : LoopAction → Bool
  | wait [] => true
  | _ => false

end LoopAction

namespace LoopState

/-- In `RunLoop`: `epoll_wait` returns nothing, or all events that there are. -/
def Looping (st : LoopState) : LoopAction → Prop
  | .wait events =>
      events.length ≤ EPOLL_SIZE ∧ (events ≠ [] → st.pipe.edge = true → .pipe ∈ events)
  | .runLoop | .destroy _ _ => False
  | _ => True

/-- The task `t` has been posted and has not had its turn. -/
def Pending (t : TaskId) (st : LoopState) : Prop :=
  t ∈ st.poller.taskList ∨ t ∈ st.swapList

def HasRun (t : TaskId) (st : LoopState) : Prop := t ∈ st.ran.map Ran.task

/-- The steps until `t` has its turn or the loop is left. -/
def stepsLeft (t : TaskId) (st : LoopState) : Nat :=
  st.swapList.length +
    if .pipe ∈ st.events then st.events.length + st.poller.taskList.length
    else if t ∈ st.poller.taskList ∧ st.poller.exitFlag = false then
      st.events.length + 1 + EPOLL_SIZE + st.poller.taskList.length
    else st.events.length

/-- The steps of the loop until `on_pipe_event` swaps the list out. -/
def untilDrain (st : LoopState) : Nat :=
  st.swapList.length +
    if .pipe ∈ st.events then st.events.length else st.events.length + 1 + EPOLL_SIZE

/-- The steps of the loop until the events of one `epoll_wait` have been handled, with the tasks
that are being run. -/
def batchLeft (st : LoopState) : Nat := st.swapList.length + st.events.length

/-- There is one event of the pipe at most, and none while tasks are run, nor when the loop has
been told to end. -/
structure PipeOnce (st : LoopState) : Prop where
  count : st.events.count .pipe ≤ 1
  handled : st.swapList ≠ [] ∨ st.poller.exitFlag = true → .pipe ∉ st.events

/-- `t` is the task of a `Shutdown`, which keeps no pointer to it, and whose function throws
`ExitException`. -/
def ShutdownTask (t : TaskId) (st : LoopState) : LoopAction → Prop
  | .call c => c ≠ .cancel t
  | .task cs how => .cancel t ∉ cs ∧ (st.swapList.head? = some t → how = .exits)
  | _ => True

variable {capacity : Nat} {st st' : LoopState} {t : TaskId} {a : LoopAction}

theorem of_task {cs : List TaskCall} {how : TaskEnd}
    (hstep : st.step capacity (.task cs how) = some st') :
    ∃ t tasks, st.swapList = t :: tasks ∧ st' = (st.pop tasks).runTask capacity t cs how := by
  unfold step at hstep
  dsimp only at hstep
  split at hstep
  · cases hstep
  · next t tasks hswap =>
    cases hstep
    exact ⟨t, tasks, hswap, rfl⟩

/-! ## What a call leaves alone -/

structure SameBut (t : TaskId) (n : Nat) (st st' : LoopState) : Prop where
  drains : st'.drains = st.drains
  events : st'.events = st.events
  destroyed : st'.destroyed = st.destroyed
  exitFlag : st'.poller.exitFlag = st.poller.exitFlag
  nextTask : st.nextTask ≤ st'.nextTask
  length : st'.poller.taskList.length ≤ st.poller.taskList.length + n
  mem : t ∈ st'.poller.taskList ↔ t ∈ st.poller.taskList

theorem async_sameBut (capacity : Nat) (first : Bool) (ht : t < st.nextTask) :
    SameBut t 1 st (st.async capacity first) := by
  have hne : t ≠ st.nextTask := Nat.ne_of_lt ht
  cases first with
  | true =>
      refine ⟨rfl, rfl, rfl, rfl, Nat.le_succ _, Nat.le_refl _, ?_⟩
      exact List.mem_cons.trans (or_iff_right hne)
  | false =>
      refine ⟨rfl, rfl, rfl, rfl, Nat.le_succ _, Nat.le_of_eq List.length_append, ?_⟩
      refine List.mem_append.trans (or_iff_left fun hin => hne ?_)
      exact List.mem_singleton.1 hin

theorem call_sameBut (capacity : Nat) (c : TaskCall) (ht : t < st.nextTask) :
    SameBut t 1 st (st.call capacity c) := by
  cases c with
  | async => exact async_sameBut capacity false ht
  | asyncFirst => exact async_sameBut capacity true ht
  | cancel t' =>
      unfold call
      dsimp only
      split <;> exact ⟨rfl, rfl, rfl, rfl, Nat.le_refl _, Nat.le_succ _, Iff.rfl⟩

theorem calls_sameBut (capacity : Nat) (cs : List TaskCall) (ht : t < st.nextTask) :
    SameBut t cs.length st (st.calls capacity cs) := by
  induction cs generalizing st with
  | nil => exact ⟨rfl, rfl, rfl, rfl, Nat.le_refl _, Nat.le_refl _, Iff.rfl⟩
  | cons c cs ih =>
      have hcall := call_sameBut capacity c ht
      have hrest := ih (Nat.lt_of_lt_of_le ht hcall.nextTask)
      refine ⟨hrest.drains.trans hcall.drains, hrest.events.trans hcall.events,
        hrest.destroyed.trans hcall.destroyed, hrest.exitFlag.trans hcall.exitFlag,
        hcall.nextTask.trans hrest.nextTask, ?_, hrest.mem.trans hcall.mem⟩
      have hlength := hrest.length
      have hlength' := hcall.length
      rw [List.length_cons]
      exact hlength.trans (by omega)

structure Turn (t t' : TaskId) (n : Nat) (how : TaskEnd) (st st' : LoopState) : Prop where
  ran : st.drains ≠ [] → st'.ran.map Ran.task = st.ran.map Ran.task ++ [t']
  events : st'.events = st.events
  destroyed : st'.destroyed = st.destroyed
  nextTask : st.nextTask ≤ st'.nextTask
  exitFlag : st.poller.exitFlag = true → st'.poller.exitFlag = true
  exits : st.cancelled t' = false → how = .exits → st'.poller.exitFlag = true
  length : st'.poller.taskList.length ≤ st.poller.taskList.length + n
  mem : t ∈ st'.poller.taskList ↔ t ∈ st.poller.taskList

theorem ran_logRan (hdrains : st.drains ≠ []) (r : Ran) : (st.logRan r).ran = st.ran ++ [r] := by
  cases h : st.drains with
  | nil => exact absurd h hdrains
  | cons d ds =>
      simp only [ran, logRan, h, List.reverse_cons, List.flatMap_append, List.flatMap_singleton,
        List.append_assoc]

theorem ran_congr (hdrains : st'.drains = st.drains) : st'.ran = st.ran := by
  rw [ran, hdrains, ran]

theorem runTask_turn (capacity : Nat) (st : LoopState) (t' : TaskId) (cs : List TaskCall)
    (how : TaskEnd) (ht : t < st.nextTask) :
    Turn t t' cs.length how st (st.runTask capacity t' cs how) := by
  have hlog : ∀ called, st.drains ≠ [] → (st.logRan ⟨t', called⟩).ran.map Ran.task =
      st.ran.map Ran.task ++ [t'] := fun called hdrains => by
    rw [ran_logRan hdrains, List.map_append]
    rfl
  unfold runTask
  split
  · next hcancelled =>
    refine ⟨hlog false, rfl, rfl, Nat.le_refl _, id, fun hno => ?_, Nat.le_add_right _ _, Iff.rfl⟩
    rw [hcancelled] at hno
    cases hno
  · have hcalls : SameBut t cs.length (st.logRan ⟨t', true⟩)
        ((st.logRan ⟨t', true⟩).calls capacity cs) := calls_sameBut capacity cs ht
    have hran := fun hdrains => (congrArg (List.map Ran.task) (ran_congr hcalls.drains)).trans
      (hlog true hdrains)
    cases how with
    | exits =>
        exact ⟨hran, hcalls.events, hcalls.destroyed, hcalls.nextTask, fun _ => rfl,
          fun _ _ => rfl, hcalls.length, hcalls.mem⟩
    | returns | throws =>
        exact ⟨hran, hcalls.events, hcalls.destroyed, hcalls.nextTask,
          fun hexit => hcalls.exitFlag.trans hexit, nofun, hcalls.length, hcalls.mem⟩

/-! ## The steps that are left -/

theorem stepsLeft_le {k n : Nat} (hswap : st'.swapList.length + k ≤ st.swapList.length)
    (hevents : st'.events = st.events) (hexit : st.poller.exitFlag = true →
      st'.poller.exitFlag = true)
    (hlength : st'.poller.taskList.length ≤ st.poller.taskList.length + n)
    (hmem : t ∈ st'.poller.taskList ↔ t ∈ st.poller.taskList) :
    st'.stepsLeft t + k ≤ st.stepsLeft t + n := by
  unfold stepsLeft
  simp only [hevents, hmem]
  by_cases hpipe : LoopEvent.pipe ∈ st.events
  · rw [if_pos hpipe, if_pos hpipe]
    omega
  · rw [if_neg hpipe, if_neg hpipe]
    by_cases hwaits : t ∈ st.poller.taskList ∧ st.poller.exitFlag = false
    · rw [if_pos hwaits]
      split <;> omega
    · rw [if_neg hwaits, if_neg]
      · omega
      · rintro ⟨hin, hexit'⟩
        refine hwaits ⟨hin, Bool.eq_false_iff.2 fun hset => ?_⟩
        rw [hexit hset] at hexit'
        cases hexit'

theorem step_descends (hwakes : st.Wakes capacity) (ht : t < st.nextTask)
    (hlist : st.AboutToWait → t ∈ st.poller.taskList) (hloop : st.Looping a)
    (hstep : st.step capacity a = some st') : st'.stepsLeft t + 1 ≤ st.stepsLeft t + a.cost := by
  cases a with
  | call c =>
      cases hstep
      have hcall := call_sameBut capacity c ht
      have hswap : (st.call capacity c).swapList = st.swapList := call_swapList st c
      have hless := stepsLeft_le (k := 0) (Nat.le_of_eq (congrArg List.length hswap)) hcall.events
        (fun hexit => hcall.exitFlag.trans hexit) hcall.length hcall.mem
      exact Nat.succ_le_succ hless
  | runLoop | destroy => exact hloop.elim
  | wait events =>
      obtain ⟨⟨hwait, -, -⟩, heq⟩ := Option.ite_none_right_eq_some.1 hstep
      have hin := hlist hwait
      obtain ⟨⟨hevents, hswap⟩, hexit, -⟩ := hwait
      cases heq
      cases events with
      | nil =>
          refine Nat.succ_le_succ (stepsLeft_le (k := 0) (n := 0) (Nat.le_refl _) ?_ id
            (Nat.le_refl _) Iff.rfl)
          exact hevents.symm
      | cons event events =>
          have hedge : st.pipe.edge = true := by
            rcases hwakes.wakes with hpipe | hedge | ⟨-, hempty⟩
            · rw [hevents] at hpipe
              cases hpipe
            · exact hedge
            · rw [hempty] at hin
              cases hin
          have hpipe := hloop.2 (List.cons_ne_nil _ _) hedge
          have hlength := hloop.1
          unfold stepsLeft
          dsimp only
          rw [hevents, if_pos hpipe, if_neg List.not_mem_nil, if_pos ⟨hin, hexit⟩, hswap]
          simp only [LoopAction.cost, List.length_nil]
          omega
  | event =>
      unfold step at hstep
      dsimp only at hstep
      split at hstep
      · next events _ hevents =>
        cases hstep
        have hmem : LoopEvent.pipe ∈ st.events ↔ LoopEvent.pipe ∈ events := by
          rw [hevents, List.mem_cons, or_iff_right (fun heq => nomatch heq)]
        have hlength : st.events.length = events.length + 1 := by rw [hevents, List.length_cons]
        unfold stepsLeft
        simp only [hmem, hlength, LoopAction.cost]
        split
        · omega
        · split <;> omega
      · cases hstep
  | pipe errno interrupted =>
      unfold step at hstep
      dsimp only at hstep
      split at hstep
      · next events hswap hevents =>
        cases hstep
        unfold stepsLeft
        simp only [onPipeEvent, hswap, hevents, List.length_cons, List.length_nil,
          List.not_mem_nil, false_and, if_false, if_pos List.mem_cons_self, LoopAction.cost]
        split <;> omega
      · cases hstep
  | task cs how =>
      obtain ⟨t', tasks, hswap, rfl⟩ := of_task hstep
      have hturn := runTask_turn capacity (st.pop tasks) t' cs how ht
      have hswap' : ((st.pop tasks).runTask capacity t' cs how).swapList = tasks :=
        runTask_swapList t' cs how
      refine stepsLeft_le ?_ hturn.events hturn.exitFlag hturn.length hturn.mem
      rw [hswap', hswap]
      exact Nat.le_refl _

/-! ## The turn of a task -/

theorem ran_onPipeEvent (errno : Errno) (interrupted : List Bool) :
    (st.onPipeEvent errno interrupted).ran = st.ran := by
  simp only [ran, onPipeEvent, List.reverse_cons, List.flatMap_append, List.flatMap_singleton,
    List.append_nil]

theorem step_hasRun (ht : t < st.nextTask) (h : st.HasRun t)
    (hstep : st.step capacity a = some st') : st'.HasRun t := by
  unfold HasRun at h ⊢
  cases step_cases hstep with
  | call c => rwa [ran_congr (call_sameBut capacity c ht).drains]
  | runLoop | wait | event => exact h
  | pipe events errno interrupted hswap | destroy errno interrupted hidle =>
      rw [ran_onPipeEvent]
      exact h
  | task t' tasks cs how hswap =>
      have hturn := runTask_turn capacity (st.pop tasks) t' cs how ht
      rw [hturn.ran]
      · exact List.mem_append_left _ h
      · intro hnone
        have hnil : st.ran = [] := by
          rw [ran, show st.drains = [] from hnone]
          rfl
        rw [hnil] at h
        cases h

theorem step_pending (ht : t < st.nextTask) (hpending : st.Pending t) (hloop : st.Looping a)
    (hstep : st.step capacity a = some st') :
    st'.Pending t ∨ ∃ tasks cs how, a = .task cs how ∧ st.swapList = t :: tasks ∧
      st' = (st.pop tasks).runTask capacity t cs how := by
  cases a with
  | call c =>
      cases hstep
      have hcall := call_sameBut capacity c ht
      refine .inl (hpending.imp hcall.mem.2 fun hin => ?_)
      rwa [call_swapList]
  | runLoop | destroy => exact hloop.elim
  | wait events =>
      obtain ⟨-, heq⟩ := Option.ite_none_right_eq_some.1 hstep
      cases heq
      exact .inl hpending
  | event =>
      unfold step at hstep
      dsimp only at hstep
      split at hstep
      · cases hstep
        exact .inl hpending
      · cases hstep
  | pipe errno interrupted =>
      unfold step at hstep
      dsimp only at hstep
      split at hstep
      · next events hswap _ =>
        cases hstep
        refine .inl (.inr (hpending.resolve_right fun hin => ?_))
        rw [hswap] at hin
        cases hin
      · cases hstep
  | task cs how =>
      obtain ⟨t', tasks, hswap, rfl⟩ := of_task hstep
      have hturn := runTask_turn capacity (st.pop tasks) t' cs how ht
      have hswap' : ((st.pop tasks).runTask capacity t' cs how).swapList = tasks :=
        runTask_swapList t' cs how
      rcases hpending with hin | hin
      · exact .inl (.inl (hturn.mem.2 hin))
      · rcases List.mem_cons.1 (hswap ▸ hin) with rfl | hin
        · exact .inr ⟨tasks, cs, how, rfl, hswap, rfl⟩
        · refine .inl (.inr ?_)
          rw [hswap']
          exact hin

theorem turn_hasRun {tasks : List TaskId} (h : st.Drained) (ht : t < st.nextTask)
    (hswap : st.swapList = t :: tasks) (cs : List TaskCall) (how : TaskEnd) :
    ((st.pop tasks).runTask capacity t cs how).HasRun t := by
  have hturn := runTask_turn capacity (st.pop tasks) t cs how ht
  have hsome : (st.pop tasks).drains ≠ [] := fun hnone => by
    rw [h.idle hnone] at hswap
    cases hswap
  rw [HasRun, hturn.ran hsome]
  exact List.mem_append_right _ (List.mem_singleton_self t)

theorem step_nextTask (ht : t < st.nextTask) (hstep : st.step capacity a = some st') :
    t < st'.nextTask := by
  cases step_cases hstep with
  | call c => exact Nat.lt_of_lt_of_le ht (call_sameBut capacity c ht).nextTask
  | runLoop | wait | event | pipe => exact ht
  | task t' tasks cs how =>
      have hturn := runTask_turn capacity (st.pop tasks) t' cs how ht
      exact Nat.lt_of_lt_of_le ht hturn.nextTask
  | destroy => exact Nat.lt_succ_of_lt ht

theorem step_destroyed (hloop : st.Looping a) (ht : t < st.nextTask)
    (hstep : st.step capacity a = some st') : st'.destroyed = st.destroyed := by
  cases a with
  | call c =>
      cases hstep
      exact (call_sameBut capacity c ht).destroyed
  | runLoop | destroy => exact hloop.elim
  | wait events =>
      obtain ⟨-, heq⟩ := Option.ite_none_right_eq_some.1 hstep
      cases heq
      rfl
  | event | pipe errno interrupted =>
      unfold step at hstep
      dsimp only at hstep
      split at hstep
      · cases hstep
        rfl
      · cases hstep
  | task cs how =>
      obtain ⟨t', tasks, -, rfl⟩ := of_task hstep
      exact (runTask_turn capacity (st.pop tasks) t' cs how ht).destroyed

/-! ## Runs -/

/-- The poller thread is in `RunLoop`, and it cannot do anything there. -/
def Left (capacity : Nat) (st : LoopState) : Prop :=
  ∀ a, st.Looping a → (∀ c, a ≠ .call c) → st.step capacity a = none

/-- It has left the loop, unless a task waits that it cannot be woken up for. -/
theorem Left.exitFlag (hleft : st.Left capacity) (hwakes : st.Wakes capacity)
    (hopen : st.destroyed = false) :
    st.Idle ∧ (st.poller.taskList ≠ [] → st.poller.exitFlag = true) := by
  have hswap : st.swapList = [] := by
    have htask := hleft (.task [] .returns) trivial nofun
    unfold step at htask
    dsimp only at htask
    split at htask
    · assumption
    · cases htask
  have hevents : st.events = [] := by
    have hother := hleft .event trivial nofun
    have hpipe := hleft (.pipe 0 []) trivial nofun
    unfold step at hother hpipe
    rw [hswap] at hother hpipe
    dsimp only at hother hpipe
    cases hevents : st.events with
    | nil => rfl
    | cons event events =>
        rw [hevents] at hother hpipe
        cases event with
        | pipe => cases hpipe
        | other => cases hother
  refine ⟨⟨hevents, hswap⟩, fun hsome => ?_⟩
  rw [← Bool.not_eq_false]
  intro hexit
  have hwait : st.AboutToWait := ⟨⟨hevents, hswap⟩, hexit, hopen⟩
  have hedge : st.pipe.edge = true := by
    rcases hwakes.wakes with hpipe | hedge | ⟨-, hempty⟩
    · rw [hevents] at hpipe
      cases hpipe
    · exact hedge
    · exact absurd hempty hsome
  have hnone := hleft (.wait [.pipe]) ⟨by decide, fun _ _ => List.mem_singleton_self _⟩ nofun
  have hcond : st.AboutToWait ∧ (LoopEvent.pipe ∈ [LoopEvent.pipe] → st.pipe.edge = true) ∧
      [LoopEvent.pipe].count .pipe ≤ 1 := ⟨hwait, fun _ => hedge, by decide⟩
  rw [step, if_pos hcond] at hnone
  cases hnone

theorem Drained.hasRun_or_pending (h : st.Drained) (ht : t < st.nextTask) :
    st.HasRun t ∨ st.Pending t := by
  have hin := h.perm.mem_iff.2 (List.mem_range.2 ht)
  rcases List.mem_append.1 hin with hin | hlist
  · exact (List.mem_append.1 hin).imp_right .inr
  · exact .inr (.inl hlist)

theorem Drained.lt_of_pending (h : st.Drained) (hpending : st.Pending t) : t < st.nextTask := by
  apply List.mem_range.1
  apply h.perm.mem_iff.1
  rcases hpending with hlist | hswap
  · exact List.mem_append_right _ hlist
  · exact List.mem_append_left _ (List.mem_append_right _ hswap)

structure Running (capacity : Nat) (t : TaskId) (st : LoopState) : Prop where
  drained : st.Drained
  wakes : st.Wakes capacity
  opened : st.destroyed = false
  posted : t < st.nextTask

theorem step_running (hcapacity : 0 < capacity) (h : st.Running capacity t)
    (hloop : st.Looping a) (hstep : st.step capacity a = some st') : st'.Running capacity t where
  drained := step_drained h.drained hstep
  wakes := step_wakes hcapacity h.wakes hstep
  opened := (step_destroyed hloop h.posted hstep).trans h.opened
  posted := step_nextTask h.posted hstep

theorem init_running (hcapacity : 0 < capacity) {acts : List LoopAction}
    (hrun : Run (step capacity) (fun _ _ => True) {} acts st) (hopen : st.destroyed = false)
    (ht : t < st.nextTask) : st.Running capacity t where
  drained := hrun.invariant (fun _ _ _ h _ hstep => step_drained h hstep) init_drained
  wakes := hrun.invariant (fun _ _ _ h _ hstep => step_wakes hcapacity h hstep)
    (init_wakes hcapacity)
  opened := hopen
  posted := ht

theorem Pending.mem_taskList (hpending : st.Pending t) (hidle : st.Idle) :
    t ∈ st.poller.taskList := by
  refine hpending.resolve_right fun hin => ?_
  rw [hidle.2] at hin
  cases hin

/-- A task that has been posted has had its turn, or waits for it for so many steps of the loop
at most; the loop does not stop before, unless it is told to. -/
theorem posted_has_run (hcapacity : 0 < capacity) {acts more : List LoopAction}
    (hrun : Run (step capacity) (fun _ _ => True) {} acts st) (hopen : st.destroyed = false)
    (ht : t < st.nextTask) (hmore : Run (step capacity) Looping st more st') :
    st'.HasRun t ∨
      more.length + st'.stepsLeft t ≤ st.stepsLeft t + total LoopAction.cost more ∧
      (st'.Left capacity → st'.poller.exitFlag = true) := by
  have hst := init_running hcapacity hrun hopen ht
  have hstep : ∀ (u : LoopState) a u', u.Running capacity t ∧ u.Pending t → u.Looping a →
      u.step capacity a = some u' → (u'.HasRun t ∧ t < u'.nextTask) ∨
        (u'.Running capacity t ∧ u'.Pending t) ∧
          u'.stepsLeft t + 1 ≤ u.stepsLeft t + a.cost := by
    intro u a u' ⟨hu, hpending⟩ hloop hstep
    have hu' := step_running hcapacity hu hloop hstep
    have hless := step_descends hu.wakes hu.posted
      (fun hwait => hpending.mem_taskList hwait.1) hloop hstep
    rcases step_pending hu.posted hpending hloop hstep with hpending' | hturn
    · exact .inr ⟨⟨hu', hpending'⟩, hless⟩
    · obtain ⟨tasks, cs, how, -, hswap, rfl⟩ := hturn
      exact .inl ⟨turn_hasRun hu.drained hu.posted hswap cs how, hu'.posted⟩
  have hkeep : ∀ (u : LoopState) a u', u.HasRun t ∧ t < u.nextTask → u.Looping a →
      u.step capacity a = some u' → u'.HasRun t ∧ t < u'.nextTask :=
    fun _ _ _ hu _ hstep => ⟨step_hasRun hu.2 hu.1 hstep, step_nextTask hu.2 hstep⟩
  rcases hst.drained.hasRun_or_pending ht with hran | hpending
  · exact .inl (hmore.invariant hkeep ⟨hran, ht⟩).1
  · refine (hmore.reaches hstep hkeep ⟨hst, hpending⟩).imp And.left ?_
    rintro ⟨⟨hst', hpending'⟩, hbound⟩
    refine ⟨hbound, fun hleft => ?_⟩
    obtain ⟨hidle, hexit⟩ := hleft.exitFlag hst'.wakes hst'.opened
    exact hexit (List.ne_nil_of_mem (hpending'.mem_taskList hidle))

/-- Another task is posted first while the loop waits, and runs first; it posts one more. -/
theorem posted_has_run_behind : ∃ st st' : LoopState, st.stepsLeft 0 = 1026 ∧
    st'.ran = [⟨1, true⟩] ∧ st'.stepsLeft 0 = 1 ∧
      (st'.HasRun 0 ∨
        5 + st'.stepsLeft 0 ≤ st.stepsLeft 0 + 3 ∧
          (st'.Left 1 → st'.poller.exitFlag = true)) := by
  have h : ((exec (step 1) {} [.call .async, .runLoop]).bind fun st =>
      (exec (step 1) st [.call .asyncFirst, .wait [.other, .pipe], .event, .pipe 0 [],
        .task [.async] .throws]).map fun st' => (st.destroyed, st.nextTask, st.stepsLeft 0,
          st'.ran, st'.stepsLeft 0)) = some (false, 1, 1026, [⟨1, true⟩], 1) := by decide +kernel
  obtain ⟨st, hexec, hmore⟩ := Option.bind_eq_some_iff.1 h
  obtain ⟨st', hexec', hend⟩ := Option.map_eq_some_iff.1 hmore
  simp only [Prod.mk.injEq] at hend
  obtain ⟨hopen, hnext, hbefore, hran, hafter⟩ := hend
  refine ⟨st, st', hbefore, hran, hafter, ?_⟩
  refine posted_has_run (by decide) (Run.of_exec hexec) hopen (by rw [hnext]; decide)
    ((Run.of_exec hexec').strengthen fun a ha u => ?_)
  simp only [List.mem_cons, List.not_mem_nil, or_false] at ha
  rcases ha with rfl | rfl | rfl | rfl | rfl <;> simp [Looping, EPOLL_SIZE]

/-! ## Shutdown -/

theorem call_cancelled {c : TaskCall} (hc : c ≠ .cancel t) (hno : st.cancelled t = false) :
    (st.call capacity c).cancelled t = false := by
  cases c with
  | async | asyncFirst => exact hno
  | cancel t' =>
      unfold call
      dsimp only
      split
      · refine (Function.update_of_ne (fun heq => hc ?_) true st.cancelled).trans hno
        rw [heq]
      · exact hno

theorem calls_cancelled {cs : List TaskCall} (hcs : TaskCall.cancel t ∉ cs)
    (hno : st.cancelled t = false) : (st.calls capacity cs).cancelled t = false := by
  induction cs generalizing st with
  | nil => exact hno
  | cons c cs ih =>
      rw [List.mem_cons, not_or] at hcs
      exact ih hcs.2 (call_cancelled (Ne.symm hcs.1) hno)

theorem runTask_cancelled {cs : List TaskCall} (hcs : TaskCall.cancel t ∉ cs) (t' : TaskId)
    (how : TaskEnd) (hno : st.cancelled t = false) :
    (st.runTask capacity t' cs how).cancelled t = false := by
  unfold runTask
  split
  · exact hno
  · have hcalls : ((st.logRan ⟨t', true⟩).calls capacity cs).cancelled t = false :=
      calls_cancelled hcs hno
    cases how with
    | returns | throws | exits => exact hcalls

/-- The loop has been told to end, or will be when the task `t` has its turn. -/
def Ending (t : TaskId) (st : LoopState) : Prop :=
  st.poller.exitFlag = true ∨ st.Pending t ∧ st.cancelled t = false

theorem step_exitFlag (ht : t < st.nextTask) (hloop : st.Looping a)
    (hexit : st.poller.exitFlag = true) (hstep : st.step capacity a = some st') :
    st'.poller.exitFlag = true := by
  cases a with
  | call c =>
      cases hstep
      exact (call_sameBut capacity c ht).exitFlag.trans hexit
  | runLoop | destroy => exact hloop.elim
  | wait events =>
      obtain ⟨⟨hwait, -⟩, -⟩ := Option.ite_none_right_eq_some.1 hstep
      rw [hwait.2.1] at hexit
      cases hexit
  | event | pipe errno interrupted =>
      unfold step at hstep
      dsimp only at hstep
      split at hstep
      · cases hstep
        exact hexit
      · cases hstep
  | task cs how =>
      obtain ⟨t', tasks, -, rfl⟩ := of_task hstep
      have hturn := runTask_turn capacity (st.pop tasks) t' cs how ht
      exact hturn.exitFlag hexit

theorem step_cancelled (hloop : st.Looping a) (htask : st.ShutdownTask t a)
    (hno : st.cancelled t = false) (hstep : st.step capacity a = some st') :
    st'.cancelled t = false := by
  cases a with
  | call c =>
      cases hstep
      exact call_cancelled htask hno
  | runLoop | destroy => exact hloop.elim
  | wait events =>
      obtain ⟨-, heq⟩ := Option.ite_none_right_eq_some.1 hstep
      cases heq
      exact hno
  | event | pipe errno interrupted =>
      unfold step at hstep
      dsimp only at hstep
      split at hstep
      · cases hstep
        exact hno
      · cases hstep
  | task cs how =>
      obtain ⟨t', tasks, -, rfl⟩ := of_task hstep
      exact runTask_cancelled htask.1 t' how hno

theorem step_ending (ht : t < st.nextTask) (h : st.Ending t) (hloop : st.Looping a)
    (htask : st.ShutdownTask t a) (hstep : st.step capacity a = some st') : st'.Ending t := by
  rcases h with hexit | ⟨hpending, hno⟩
  · exact .inl (step_exitFlag ht hloop hexit hstep)
  · rcases step_pending ht hpending hloop hstep with hpending' | hturn
    · exact .inr ⟨hpending', step_cancelled hloop htask hno hstep⟩
    · obtain ⟨tasks, cs, how, rfl, hswap, rfl⟩ := hturn
      have hexits : how = .exits := by
        apply htask.2
        rw [hswap]
        rfl
      have hturn := runTask_turn capacity (st.pop tasks) t cs how ht
      exact .inl (hturn.exits hno hexits)

theorem call_events (st : LoopState) (c : TaskCall) :
    (st.call capacity c).events = st.events := by
  cases c with
  | async | asyncFirst => rfl
  | cancel t =>
      unfold call
      dsimp only
      split <;> rfl

theorem call_exitFlag (st : LoopState) (c : TaskCall) :
    (st.call capacity c).poller.exitFlag = st.poller.exitFlag := by
  cases c with
  | async | asyncFirst => rfl
  | cancel t =>
      unfold call
      dsimp only
      split <;> rfl

theorem runTask_events (t : TaskId) (cs : List TaskCall) (how : TaskEnd) :
    (st.runTask capacity t cs how).events = st.events := by
  unfold runTask
  split
  · rfl
  · have hcalls : ((st.logRan ⟨t, true⟩).calls capacity cs).events = st.events :=
      calls_keeps (I := (events · = st.events)) (fun u c h => (call_events u c).trans h) cs rfl
    cases how <;> exact hcalls

theorem init_pipeOnce : ({} : LoopState).PipeOnce := ⟨by decide, by decide⟩

theorem step_pipeOnce (h : st.PipeOnce) (hstep : st.step capacity a = some st') :
    st'.PipeOnce := by
  have hidle : ∀ {u : LoopState}, st.Idle → u.events = st.events → u.PipeOnce := by
    rintro u ⟨hevents, -⟩ heq
    rw [hevents] at heq
    exact ⟨by simp [heq], by simp [heq]⟩
  cases a with
  | call c =>
      cases hstep
      refine ⟨?_, ?_⟩
      · rw [call_events]
        exact h.count
      · rw [call_events, call_swapList, call_exitFlag]
        exact h.handled
  | runLoop =>
      obtain ⟨hnone, heq⟩ := Option.ite_none_right_eq_some.1 hstep
      cases heq
      exact hidle hnone rfl
  | destroy errno interrupted =>
      obtain ⟨⟨hnone, -⟩, heq⟩ := Option.ite_none_right_eq_some.1 hstep
      cases heq
      exact hidle hnone rfl
  | wait events =>
      obtain ⟨⟨⟨⟨-, hswap⟩, hexit, -⟩, -, hcount⟩, heq⟩ := Option.ite_none_right_eq_some.1 hstep
      cases heq
      refine ⟨hcount, fun hor => ?_⟩
      rcases hor with hsome | hset
      · exact absurd hswap hsome
      · rw [hexit] at hset
        cases hset
  | event =>
      unfold step at hstep
      dsimp only at hstep
      split at hstep
      · next events _ hevents =>
        cases hstep
        have hcount := h.count
        rw [hevents] at hcount
        refine ⟨by simpa using hcount, fun hor hin => h.handled hor ?_⟩
        rw [hevents]
        exact List.mem_cons_of_mem _ hin
      · cases hstep
  | pipe errno interrupted =>
      unfold step at hstep
      dsimp only at hstep
      split at hstep
      · next events _ hevents =>
        cases hstep
        have hcount := h.count
        rw [hevents, List.count_cons_self] at hcount
        have hnone : LoopEvent.pipe ∉ events :=
          List.count_eq_zero.1 (Nat.le_zero.1 (Nat.le_of_succ_le_succ hcount))
        exact ⟨Nat.le_of_succ_le hcount, fun _ => hnone⟩
      · cases hstep
  | task cs how =>
      obtain ⟨t', tasks, hswap, rfl⟩ := of_task hstep
      have hevents : ((st.pop tasks).runTask capacity t' cs how).events = st.events :=
        runTask_events t' cs how
      refine ⟨?_, fun _ => ?_⟩
      · rw [hevents]
        exact h.count
      · rw [hevents]
        exact h.handled (.inl (by rw [hswap]; exact List.cons_ne_nil _ _))

/-- As long as the task waits in the list, every step of the loop leads towards its drain, whatever
is posted. -/
theorem step_untilDrain (hwakes : st.Wakes capacity) (ht : t < st.nextTask)
    (hin : t ∈ st.poller.taskList) (hloop : st.Looping a)
    (hstep : st.step capacity a = some st') :
    (t ∈ st'.poller.taskList ∧ st'.untilDrain + (if a.isLoop then 1 else 0) ≤
      st.untilDrain + if a.isIdle then 1 else 0) ∨
    ∃ errno interrupted, a = .pipe errno interrupted ∧
      st'.batchLeft + 1 ≤ st.untilDrain + st.poller.taskList.length ∧
        st'.poller.taskList = [] := by
  cases a with
  | call c =>
      cases hstep
      have hcall := call_sameBut capacity c ht
      refine .inl ⟨hcall.mem.2 hin, ?_⟩
      simp only [untilDrain, call_events, call_swapList, LoopAction.isLoop, LoopAction.isIdle]
      exact Nat.le_refl _
  | runLoop | destroy => exact hloop.elim
  | wait events =>
      obtain ⟨⟨⟨⟨hevents, hswap⟩, -⟩, -⟩, heq⟩ := Option.ite_none_right_eq_some.1 hstep
      cases heq
      refine .inl ⟨hin, ?_⟩
      cases events with
      | nil => simp [untilDrain, hevents, LoopAction.isLoop, LoopAction.isIdle]
      | cons event events =>
          have hedge : st.pipe.edge = true := by
            rcases hwakes.wakes with hpipe | hedge | ⟨-, hempty⟩
            · rw [hevents] at hpipe
              cases hpipe
            · exact hedge
            · rw [hempty] at hin
              cases hin
          have hpipe := hloop.2 (List.cons_ne_nil _ _) hedge
          have hlength := hloop.1
          unfold untilDrain
          dsimp only
          rw [hevents, if_pos hpipe, if_neg List.not_mem_nil, hswap]
          simp only [LoopAction.isLoop, LoopAction.isIdle, List.length_nil, if_true,
            Bool.false_eq_true, if_false]
          simp only [List.length_cons] at hlength ⊢
          omega
  | event =>
      unfold step at hstep
      dsimp only at hstep
      split at hstep
      · next events _ hevents =>
        cases hstep
        refine .inl ⟨hin, ?_⟩
        have hmem : LoopEvent.pipe ∈ st.events ↔ LoopEvent.pipe ∈ events := by
          rw [hevents, List.mem_cons, or_iff_right (fun heq => by cases heq)]
        have hlength : st.events.length = events.length + 1 := by rw [hevents, List.length_cons]
        unfold untilDrain
        simp only [hmem, hlength, LoopAction.isLoop, LoopAction.isIdle, if_true,
          Bool.false_eq_true, if_false]
        split <;> omega
      · cases hstep
  | pipe errno interrupted =>
      unfold step at hstep
      dsimp only at hstep
      split at hstep
      · next events hswap hevents =>
        cases hstep
        refine .inr ⟨errno, interrupted, rfl, ?_, rfl⟩
        simp only [batchLeft, untilDrain, onPipeEvent, hswap, hevents, if_pos List.mem_cons_self,
          List.length_cons, List.length_nil]
        omega
      · cases hstep
  | task cs how =>
      obtain ⟨t', tasks, hswap, rfl⟩ := of_task hstep
      have hturn := runTask_turn capacity (st.pop tasks) t' cs how ht
      have hswap' : ((st.pop tasks).runTask capacity t' cs how).swapList = tasks :=
        runTask_swapList t' cs how
      have hevents : ((st.pop tasks).runTask capacity t' cs how).events = st.events :=
        runTask_events t' cs how
      refine .inl ⟨hturn.mem.2 hin, ?_⟩
      simp only [untilDrain, hevents, hswap', hswap, List.length_cons, LoopAction.isLoop,
        LoopAction.isIdle, if_true, Bool.false_eq_true, if_false]
      omega

/-- From that drain on, the loop only handles what it has. -/
theorem step_batchLeft (honce : st.PipeOnce) (ht : t < st.nextTask)
    (hout : t ∉ st.poller.taskList) (hending : st.Ending t) (hloop : st.Looping a)
    (hstep : st.step capacity a = some st') :
    t ∉ st'.poller.taskList ∧ st'.batchLeft + (if a.isLoop then 1 else 0) ≤ st.batchLeft := by
  have hset : st.swapList = [] → st.poller.exitFlag = true := by
    intro hswap
    rcases hending with hexit | ⟨hin | hin, -⟩
    · exact hexit
    · exact absurd hin hout
    · rw [hswap] at hin
      cases hin
  cases a with
  | call c =>
      cases hstep
      have hcall := call_sameBut capacity c ht
      refine ⟨fun hin => hout (hcall.mem.1 hin), ?_⟩
      simp only [batchLeft, call_events, call_swapList, LoopAction.isLoop]
      exact Nat.le_refl _
  | runLoop | destroy => exact hloop.elim
  | wait events =>
      obtain ⟨⟨⟨⟨-, hswap⟩, hexit, -⟩, -⟩, -⟩ := Option.ite_none_right_eq_some.1 hstep
      rw [hset hswap] at hexit
      cases hexit
  | event =>
      unfold step at hstep
      dsimp only at hstep
      split at hstep
      · next events _ hevents =>
        cases hstep
        refine ⟨hout, ?_⟩
        simp only [batchLeft, hevents, List.length_cons, LoopAction.isLoop]
        exact Nat.le_refl _
      · cases hstep
  | pipe errno interrupted =>
      unfold step at hstep
      dsimp only at hstep
      split at hstep
      · next events hswap hevents =>
        refine absurd ?_ (honce.handled (.inr (hset hswap)))
        rw [hevents]
        exact List.mem_cons_self
      · cases hstep
  | task cs how =>
      obtain ⟨t', tasks, hswap, rfl⟩ := of_task hstep
      have hturn := runTask_turn capacity (st.pop tasks) t' cs how ht
      have hswap' : ((st.pop tasks).runTask capacity t' cs how).swapList = tasks :=
        runTask_swapList t' cs how
      have hevents : ((st.pop tasks).runTask capacity t' cs how).events = st.events :=
        runTask_events t' cs how
      refine ⟨fun hin => hout (hturn.mem.1 hin), ?_⟩
      simp only [batchLeft, hevents, hswap', hswap, List.length_cons, LoopAction.isLoop, if_true]
      omega

structure Closing (capacity : Nat) (t : TaskId) (st : LoopState) : Prop where
  running : st.Running capacity t
  once : st.PipeOnce
  ending : st.Ending t

theorem step_closing (hcapacity : 0 < capacity) (h : st.Closing capacity t) (hloop : st.Looping a)
    (htask : st.ShutdownTask t a) (hstep : st.step capacity a = some st') :
    st'.Closing capacity t where
  running := step_running hcapacity h.running hloop hstep
  once := step_pipeOnce h.once hstep
  ending := step_ending h.running.posted h.ending hloop htask hstep

theorem Closing.batchLeft_le (hcapacity : 0 < capacity) (h : st.Closing capacity t)
    (hout : t ∉ st.poller.taskList) {more : List LoopAction}
    (hmore : Run (step capacity) (fun u a => u.Looping a ∧ u.ShutdownTask t a) st more st') :
    more.countP LoopAction.isLoop ≤ st.batchLeft := by
  have hbound := hmore.countP_le
    (I := fun u => u.Closing capacity t ∧ t ∉ u.poller.taskList) (M := batchLeft)
    (fun u a u' ⟨hu, hout⟩ ⟨hloop, htask⟩ hstep => by
      obtain ⟨hout', hless⟩ :=
        step_batchLeft hu.once hu.running.posted hout hu.ending hloop hstep
      exact ⟨⟨step_closing hcapacity hu hloop htask hstep, hout'⟩, hless⟩) ⟨h, hout⟩
  exact Nat.le_of_add_right_le hbound.2

/-- When `Shutdown` has been called, the loop takes a bounded number of steps to the drain that
takes its task, whatever is posted, and one for every time that `epoll_wait` returns nothing; from
that drain on it has only the tasks of the drain and the events of the batch to handle.  When it
can do nothing any more, it has been told to return. -/
theorem shutdown_ends_loop (hcapacity : 0 < capacity) {acts more : List LoopAction}
    (hrun : Run (step capacity) (fun _ _ => True) {} acts st) (hopen : st.destroyed = false)
    (hpending : st.Pending t) (hno : st.cancelled t = false)
    (hmore : Run (step capacity) (fun u a => u.Looping a ∧ u.ShutdownTask t a) st more st') :
    (t ∉ st.poller.taskList → more.countP LoopAction.isLoop ≤ st.batchLeft) ∧
    (t ∈ st.poller.taskList →
      (t ∈ st'.poller.taskList ∧
        more.countP LoopAction.isLoop ≤ st.untilDrain + more.countP LoopAction.isIdle) ∨
      ∃ before errno interrupted after u, more = before ++ .pipe errno interrupted :: after ∧
        Run (step capacity) Looping st before u ∧ t ∈ u.poller.taskList ∧
          more.countP LoopAction.isLoop ≤
            st.untilDrain + before.countP LoopAction.isIdle + u.poller.taskList.length) ∧
    (st'.Left capacity → st'.poller.exitFlag = true) := by
  have hdrained : st.Drained :=
    hrun.invariant (fun _ _ _ h _ hstep => step_drained h hstep) init_drained
  have honce : st.PipeOnce :=
    hrun.invariant (fun _ _ _ h _ hstep => step_pipeOnce h hstep) init_pipeOnce
  have hst : st.Closing capacity t :=
    ⟨init_running hcapacity hrun hopen (hdrained.lt_of_pending hpending), honce,
      .inr ⟨hpending, hno⟩⟩
  have hkeep : ∀ (u : LoopState) a u', u.Closing capacity t → u.Looping a ∧ u.ShutdownTask t a →
      u.step capacity a = some u' → u'.Closing capacity t :=
    fun u a u' hu ⟨hloop, htask⟩ hstep => step_closing hcapacity hu hloop htask hstep
  refine ⟨fun hout => hst.batchLeft_le hcapacity hout hmore, fun hin => ?_, fun hleft => ?_⟩
  · have hphases := hmore.countP_until (p := LoopAction.isLoop)
      (I := fun u => u.Closing capacity t ∧ t ∈ u.poller.taskList) (M := untilDrain)
      (k := fun a => if a.isIdle then 1 else 0)
      (Q := fun u a u' => ∃ errno interrupted, a = .pipe errno interrupted ∧
        u'.batchLeft + 1 ≤ u.untilDrain + u.poller.taskList.length ∧ u'.poller.taskList = [])
      (fun u a u' ⟨hu, hin⟩ hcond hstep => by
        have hdown := step_untilDrain hu.running.wakes hu.running.posted hin hcond.1 hstep
        exact hdown.imp_left fun ⟨hin', hless⟩ => ⟨⟨hkeep u a u' hu hcond hstep, hin'⟩, hless⟩)
      ⟨hst, hin⟩
    simp only [total_ite, Nat.one_mul] at hphases
    rcases hphases with ⟨⟨-, hin'⟩, hbound⟩ | ⟨before, a, after, u, v, rfl, hbefore, ⟨hu, hinu⟩,
      hcond, hstep, ⟨errno, interrupted, rfl, hbatch, hempty⟩, hafter, hbound⟩
    · exact .inl ⟨hin', Nat.le_of_add_right_le hbound⟩
    · refine .inr ⟨before, errno, interrupted, after, u, rfl, hbefore.mono fun _ _ h => h.1, hinu,
        ?_⟩
      have hv := hkeep u _ v hu hcond hstep
      have hrest := hv.batchLeft_le hcapacity (by rw [hempty]; exact List.not_mem_nil) hafter
      rw [List.countP_append, List.countP_cons]
      simp only [LoopAction.isLoop, if_true]
      omega
  · have hst' := hmore.invariant hkeep hst
    obtain ⟨hidle, hexit⟩ := hleft.exitFlag hst'.running.wakes hst'.running.opened
    rcases hst'.ending with hset | ⟨hpending', -⟩
    · exact hset
    · exact hexit (List.ne_nil_of_mem (hpending'.mem_taskList hidle))

/-- `Shutdown` is called while a task waits, and comes before it; more tasks are posted before the
drain and in it. -/
theorem shutdown_ends_loop_first : ∃ st st' : LoopState, st.untilDrain = 1025 ∧
    st'.swapList = [0, 2] ∧ st'.poller.taskList = [3, 4] ∧
      (∃ before errno interrupted after u,
        [.wait [], .call .async, .wait [.pipe], .pipe 0 [], .call .async, .task [.async] .exits] =
          before ++ LoopAction.pipe errno interrupted :: after ∧
        Run (step 1) Looping st before u ∧ 1 ∈ u.poller.taskList ∧
          4 ≤ st.untilDrain + before.countP LoopAction.isIdle + u.poller.taskList.length) ∧
      (st'.Left 1 → st'.poller.exitFlag = true) := by
  have h : ((exec (step 1) {} [.call .async, .runLoop, .call .asyncFirst]).bind fun st =>
      (exec (step 1) st [.wait [], .call .async, .wait [.pipe], .pipe 0 [], .call .async,
        .task [.async] .exits]).map fun st' =>
          ([st.destroyed, st.cancelled 1], st.untilDrain,
            [st.poller.taskList, st'.swapList, st'.poller.taskList])) =
      some ([false, false], 1025, [[1, 0], [0, 2], [3, 4]]) := by decide +kernel
  obtain ⟨st, hexec, hmore⟩ := Option.bind_eq_some_iff.1 h
  obtain ⟨st', hexec', hend⟩ := Option.map_eq_some_iff.1 hmore
  simp only [Prod.mk.injEq, List.cons.injEq, and_true] at hend
  obtain ⟨⟨hopen, hno⟩, huntil, hlist, hswap, hlist'⟩ := hend
  have hin : 1 ∈ st.poller.taskList := by
    rw [hlist]
    exact List.mem_cons_self
  have hout : 1 ∉ st'.poller.taskList := by
    rw [hlist']
    decide
  obtain ⟨-, hdrain, hleft⟩ := shutdown_ends_loop (by decide) (Run.of_exec hexec) hopen
    (.inl hin) hno ((Run.of_exec hexec').strengthen fun a ha u => by
      simp only [List.mem_cons, List.not_mem_nil, or_false] at ha
      rcases ha with rfl | rfl | rfl | rfl | rfl | rfl <;> simp [Looping, ShutdownTask, EPOLL_SIZE])
  refine ⟨st, st', huntil, hswap, hlist', ?_, hleft⟩
  exact (hdrain hin).resolve_left fun hstill => hout hstill.1

end LoopState

end CommonLibrary.Poller
