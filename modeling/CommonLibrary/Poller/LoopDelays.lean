import CommonLibrary.Poller.LoopViews

/-!
# The loop does not sleep on work

What `RunLoop` waits for when it is in `epoll_wait`: no task is in the list without an edge of the
pipe, and no delay task without a timeout that ends before it is due.  From its registration on, a
delay task waits to be inserted, waits for its time or has been called.
-/

namespace CommonLibrary.Poller

open Foundation

/-- The delay that a call asks for is below `2 ^ 31` ms, and the clock is not at its end. -/
def PollerCall.Short : PollerCall → Prop
  | .doDelayTask delayMs now => delayMs < 2 ^ 31 ∧ now + 2 ^ 31 ≤ 2 ^ 64
  | _ => True

namespace DelayState

variable {now : Nat} {st : DelayState} {script : List TaskRun}

theorem Short.bounds (h : st.Short now script) :
    ∀ e ∈ deadlinesLeft now st st.poller.delayTasks script, now < e ∧ e < now + 2 ^ 31 := by
  have hclock := h.clock
  have hnew : ∀ e ∈ newDeadlines now st (due now st.poller.delayTasks) script,
      now < e ∧ e < now + 2 ^ 31 := by
    refine newDeadlines_of fun run hrun key hkey => ?_
    unfold Outcome.deadline at hkey
    split at hkey
    · next n houtcome =>
      have hlt := h.renewed run hrun n houtcome
      split at hkey
      · cases hkey
        omega
      · cases hkey
    · cases hkey
  intro e he
  rcases mem_deadlinesLeft.1 he with ⟨hin, hlate⟩ | hin
  · obtain ⟨e', he', rfl⟩ := List.mem_map.1 hin
    exact ⟨hlate, h.pending e' he'⟩
  · exact hnew e hin

theorem Short.onTime (h : st.Short now script) (hord : Ordered st.poller.delayTasks) :
    (∀ e ∈ (st.getMinDelayMs now script).1.poller.delayTasks, now < e.1 ∧ e.1 < now + 2 ^ 31) ∧
      OnTime now (st.getMinDelayMs now script).1.poller.delayTasks
        (epollTimeout (st.getMinDelayMs now script).2) := by
  have hclock := h.clock
  have hwidth : ∀ e ∈ st.poller.delayTasks, e.1 < 2 ^ 64 := fun e he =>
    lt_of_lt_of_le (h.pending e he) hclock
  obtain ⟨hordered, hkeys, hdelay⟩ := @getMinDelayMs_spec st now script hord hwidth
  have hbounds : ∀ e ∈ (st.getMinDelayMs now script).1.poller.delayTasks,
      now < e.1 ∧ e.1 < now + 2 ^ 31 := fun e he =>
    h.bounds e.1 ((hkeys e.1).1 (List.mem_map_of_mem he))
  refine ⟨hbounds, ?_⟩
  rw [hdelay, onTime_iff hordered (by omega) fun e he => lt_of_lt_of_le (hbounds e he).2 hclock]
  have hfits := h.earliestFits
  simp only [EarliestFits, hkeys]
  exact hfits

/-- The task `d` has been called for the deadline, and not before it. -/
def FiredFor (st : DelayState) (deadline : Nat) (d : DelayId) : Prop :=
  ∃ pass ∈ st.passes, deadline ≤ pass.now ∧ ∃ f ∈ pass.fired, f.deadline = deadline ∧ f.id = d

theorem getMinDelayMs_fires (h : st.Inv) (hscript : RenewsSmall now script) (deadline : Nat)
    (d : DelayId) :
    ((deadline, d) ∈ st.poller.delayTasks →
      (deadline, d) ∈ (st.getMinDelayMs now script).1.poller.delayTasks ∨
        (st.getMinDelayMs now script).1.FiredFor deadline d) ∧
    (st.FiredFor deadline d → (st.getMinDelayMs now script).1.FiredFor deadline d) := by
  have hfuel : (due now st.poller.delayTasks).length ≤
      st.poller.delayTasks.length + script.length :=
    le_trans (List.takeWhile_sublist _).length_le (Nat.le_add_right _ _)
  have hspec := @flushLoop_spec now _ { st with poller := { st.poller with delayTasks := [] } } _
    script h.ordered hscript hfuel
  unfold getMinDelayMs
  split
  · exact ⟨.inl, id⟩
  · split
    · exact ⟨.inl, id⟩
    · constructor
      · intro hin
        by_cases hdue : deadline ≤ now
        · -- it is among the entries that the loop goes through
          have hfired := mem_due h.ordered hin hdue
          rw [← hspec.fired] at hfired
          obtain ⟨f, hf, heq⟩ := List.mem_map.1 hfired
          obtain ⟨hdeadline, hid⟩ := Prod.mk.inj heq
          refine .inr ⟨_, List.mem_append_right _ (List.mem_singleton_self _), hdue, f, hf,
            hdeadline, hid⟩
        · exact .inl (hspec.kept _ hin (Nat.lt_of_not_le hdue))
      · rintro ⟨pass, hpass, hfired⟩
        refine ⟨pass, List.mem_append_left _ ?_, hfired⟩
        rw [hspec.passes]
        exact hpass

end DelayState

namespace PollerState

/-- No delay is as long as `2 ^ 31` ms, and when `RunLoop` asks for the delay, the clock has not
been set back behind an earlier reading. -/
def Timely (st : PollerState) (a : PollerAction) : Prop :=
  (∀ c ∈ a.made, c.Short) ∧ ∀ now script, a = .minDelay now script →
    st.clock ≤ now ∧ now + 2 ^ 31 ≤ 2 ^ 64 ∧
      ∀ run ∈ script, ∀ n, run.outcome = .ret n → n < 2 ^ 31

variable {capacity : Nat} {st st' : PollerState} {a : PollerAction}

theorem Timely.admissible (h : st.Timely a) : st.Admissible a := by
  constructor
  · intro c hc
    have hshort := h.1 c hc
    cases c with
    | doDelayTask delayMs now =>
        obtain ⟨hdelay, hnow⟩ := hshort
        show delayMs + now < 2 ^ 64
        omega
    | _ => trivial
  · intro now script heq run hrun n hn
    obtain ⟨-, hnow, hrenewed⟩ := h.2 now script heq
    have hlt := hrenewed run hrun n hn
    omega

/-! ## Deadlines are near -/

/-- No insertion that is pending is for a time as far ahead as `2 ^ 31` ms. -/
structure ListedSoon (st : PollerState) : Prop where
  clock : st.clock + 2 ^ 31 ≤ 2 ^ 64
  listed : ∀ task ∈ st.poller.taskList ++ st.swapList, ∀ timeline d,
    task.2 = .emplace timeline d → timeline < st.clock + 2 ^ 31

theorem ListedSoon.async (capacity : Nat) (h : st.ListedSoon) (job : Job) (first : Bool)
    (hjob : ∀ timeline d, job = .emplace timeline d → timeline < st.clock + 2 ^ 31) :
    (st.async capacity job first).ListedSoon where
  clock := h.clock
  listed := by
    intro task htask timeline d heq
    rcases List.mem_append.1 htask with hin | hin
    · rcases mem_async capacity hin with rfl | hin
      · exact hjob timeline d heq
      · exact h.listed task (List.mem_append_left _ hin) timeline d heq
    · exact h.listed task (List.mem_append_right _ hin) timeline d heq

theorem call_listedSoon (h : st.ListedSoon) {c : PollerCall} (hc : c.Short) :
    (st.call capacity c).ListedSoon := by
  cases c with
  | async =>
      have hasync := h.async capacity .user false fun _ _ heq => by cases heq
      exact ⟨hasync.clock, hasync.listed⟩
  | asyncFirst =>
      have hasync := h.async capacity .user true fun _ _ heq => by cases heq
      exact ⟨hasync.clock, hasync.listed⟩
  | shutdown => exact h.async capacity .exit true fun _ _ heq => by cases heq
  | cancel t | cancelDelay d =>
      unfold call
      dsimp only
      split
      · exact ⟨h.clock, h.listed⟩
      · exact h
  | doDelayTask delayMs now =>
      obtain ⟨hdelay, hnow⟩ := hc
      have hclock := h.clock
      have hsoon : ListedSoon { st with clock := max st.clock now } := by
        refine ⟨?_, fun task htask timeline d heq => ?_⟩
        · show max st.clock now + 2 ^ 31 ≤ 2 ^ 64
          omega
        · have hlt := h.listed task htask timeline d heq
          show timeline < max st.clock now + 2 ^ 31
          omega
      have hasync := hsoon.async capacity (.emplace ((delayMs + now) % 2 ^ 64) st.nextDelay) true
        fun timeline d heq => by
          cases heq
          show (delayMs + now) % 2 ^ 64 < max st.clock now + 2 ^ 31
          omega
      exact ⟨hasync.clock, hasync.listed⟩

theorem listedSoon_kept (capacity : Nat) : Kept capacity PollerCall.Short ListedSoon where
  call := fun _ _ hc h => call_listedSoon h hc
  finish := fun _ _ h => ⟨h.clock, h.listed⟩
  entries := fun _ _ h => ⟨h.clock, h.listed⟩
  passes := fun _ _ h => ⟨h.clock, h.listed⟩

theorem call_clock (capacity : Nat) (st : PollerState) (c : PollerCall) :
    st.clock ≤ (st.call capacity c).clock := by
  cases c with
  | doDelayTask delayMs now => exact Nat.le_max_left st.clock now
  | cancel t | cancelDelay d =>
      unfold call
      dsimp only
      split <;> exact Nat.le_refl _
  | _ => exact Nat.le_refl _

theorem clock_kept (capacity n : Nat) : Kept capacity (fun _ => True) (n ≤ ·.clock) where
  call := fun st c _ h => Nat.le_trans h (call_clock capacity st c)
  finish := fun _ _ h => h
  entries := fun _ _ h => h
  passes := fun _ _ h => h

theorem calls_clock (capacity : Nat) (st : PollerState) (cs : List PollerCall) :
    st.clock ≤ (st.calls capacity cs).clock :=
  (clock_kept capacity st.clock).calls (Nat.le_refl _) fun _ _ => trivial

theorem calls_entries (capacity : Nat) (st : PollerState) (cs : List PollerCall) :
    (st.calls capacity cs).poller.delayTasks = st.poller.delayTasks := by
  have hview : (st.calls capacity cs).toDelay.poller.delayTasks = st.toDelay.poller.delayTasks := by
    rw [toDelay_calls, DelayState.calls_delayTasks]
  exact hview

/-- No deadline is as far ahead as `2 ^ 31` ms. -/
structure Soon (st : PollerState) : Prop extends ListedSoon st where
  entries : ∀ e ∈ st.poller.delayTasks, e.1 < st.clock + 2 ^ 31

theorem Soon.calls (capacity : Nat) (h : st.Soon) {cs : List PollerCall} (hcs : ∀ c ∈ cs, c.Short) :
    (st.calls capacity cs).Soon where
  toListedSoon := (listedSoon_kept capacity).calls h.toListedSoon hcs
  entries := by
    rw [calls_entries]
    intro e he
    exact lt_of_lt_of_le (h.entries e he)
      (Nat.add_le_add_right (calls_clock capacity st cs) _)

/-- `RunLoop` has asked for the delay: what is left is ahead, and `epoll_wait` gets a timeout that
fits it. -/
theorem askDelay_soon (h : st.Soon) (hinv : st.toDelay.Inv) {now : Nat}
    {script : List PollerRun} (htimely : st.Timely (.minDelay now script)) :
    (st.askDelay capacity now script).Soon ∧
      OnTime now (st.askDelay capacity now script).poller.delayTasks
        (st.askDelay capacity now script).timeout := by
  obtain ⟨hshort, hask⟩ := htimely
  obtain ⟨hclock, hnow, hrenewed⟩ := hask now script rfl
  have hmax : max st.clock now = now := Nat.max_eq_right hclock
  have hsoon : ListedSoon { st with clock := max st.clock now } := by
    refine ⟨?_, fun task htask timeline d heq => ?_⟩
    · show max st.clock now + 2 ^ 31 ≤ 2 ^ 64
      rw [hmax]
      exact hnow
    · have hlt := h.listed task htask timeline d heq
      show timeline < max st.clock now + 2 ^ 31
      omega
  have hscript : ∀ run ∈ script, ∀ c ∈ run.calls, c.Short := fun run hrun c hc =>
    hshort c (List.mem_flatMap.2 ⟨run, hrun, hc⟩)
  have hlisted := (listedSoon_kept capacity).getMinDelayMs now hsoon hscript
  have hlater : now ≤ (getMinDelayMs capacity { st with clock := max st.clock now } now
      script).1.clock := (clock_kept capacity now).getMinDelayMs now (Nat.le_max_right _ _)
    fun (run : PollerRun) (_ : run ∈ script) _ _ => trivial
  have hfits : DelayState.Short { st with clock := max st.clock now : PollerState }.toDelay now
      (script.map PollerRun.view) := by
    refine ⟨hnow, fun e he => ?_, fun run hrun n hn => ?_⟩
    · have hlt := h.entries e he
      omega
    · obtain ⟨run', hrun', rfl⟩ := List.mem_map.1 hrun
      exact hrenewed run' hrun' n hn
  obtain ⟨hbounds, honTime⟩ := hfits.onTime hinv.ordered
  rw [toDelay_getMinDelayMs capacity] at hbounds honTime
  unfold askDelay
  generalize getMinDelayMs capacity { st with clock := max st.clock now } now script = out at *
  dsimp only at honTime ⊢
  refine ⟨⟨⟨hlisted.clock, hlisted.listed⟩, fun e he => ?_⟩, ?_⟩
  · have hlt := (hbounds e he).2
    show e.1 < out.1.clock + 2 ^ 31
    omega
  · exact honTime

theorem runTask_soon (h : st.Soon) {task : TaskId × Job} {tasks : List (TaskId × Job)}
    (hswap : st.swapList = task :: tasks) {cs : List PollerCall} (hcs : ∀ c ∈ cs, c.Short) :
    ({ st with swapList := tasks }.runTask capacity task cs).Soon := by
  have hlisted : ∀ task' ∈ st.poller.taskList ++ tasks, ∀ timeline d,
      task'.2 = .emplace timeline d → timeline < st.clock + 2 ^ 31 :=
    fun task' htask' => h.listed task' (mem_of_pop hswap htask')
  have hlog : ∀ r, Soon ({ st with swapList := tasks }.logRan r) :=
    fun r => ⟨⟨h.clock, hlisted⟩, h.entries⟩
  have hnew := h.listed task (List.mem_append_right _ (by rw [hswap]; exact List.mem_cons_self))
  unfold runTask
  split
  · exact hlog _
  · obtain ⟨t, job⟩ := task
    cases job with
    | user => exact (hlog _).calls capacity hcs
    | exit => exact ⟨⟨h.clock, hlisted⟩, h.entries⟩
    | emplace timeline d =>
        refine ⟨⟨h.clock, hlisted⟩, fun e he => ?_⟩
        rcases List.mem_cons.1 ((DelayState.emplace_perm timeline d _).mem_iff.1 he) with rfl | he
        · exact hnew timeline d rfl
        · exact h.entries e he

theorem onPipeEvent_soon (h : st.Soon) (hswap : st.swapList = []) (errno : Utils.Errno)
    (interrupted : List Bool) : (st.onPipeEvent errno interrupted).Soon := by
  refine ⟨⟨h.clock, fun task htask => h.listed task ?_⟩, h.entries⟩
  rw [hswap, List.append_nil]
  exact htask

theorem step_soon (hshape : st.Shape) (hinv : st.toDelay.Inv) (h : st.Soon) (htimely : st.Timely a)
    (hstep : st.step capacity a = some st') : st'.Soon := by
  cases step_cases hstep with
  | call c =>
      have hc : ∀ c' ∈ [c], c'.Short := htimely.1
      exact h.calls capacity hc
  | runLoop | wait | turn | leave => exact ⟨⟨h.clock, h.listed⟩, h.entries⟩
  | minDelay now script => exact (askDelay_soon h hinv htimely).1
  | event events cs =>
      have hpop : Soon { st with events := events } := ⟨⟨h.clock, h.listed⟩, h.entries⟩
      exact hpop.calls capacity htimely.1
  | pipe events errno interrupted hswap =>
      have hpop : Soon { st with events := events } := ⟨⟨h.clock, h.listed⟩, h.entries⟩
      exact onPipeEvent_soon hpop hswap errno interrupted
  | task task tasks cs hswap => exact runTask_soon h hswap htimely.1
  | destroy errno interrupted hphase hopen =>
      have hcall : ∀ c ∈ [PollerCall.shutdown], c.Short := by
        intro c hc
        rw [List.mem_singleton.1 hc]
        trivial
      have hasync : (st.async capacity .exit true).Soon := h.calls capacity hcall
      have hclosed : Soon { st.async capacity .exit true with destroyed := true } :=
        ⟨⟨hasync.clock, hasync.listed⟩, hasync.entries⟩
      exact onPipeEvent_soon hclosed (hshape.idle hphase hopen).2 errno interrupted

/-! ## In `epoll_wait` -/

theorem step_wait (h : st.Shape) (hstep : st.step capacity a = some st')
    (hwait : st'.phase = .wait) :
    ∃ now script, a = .minDelay now script ∧ st' = st.askDelay capacity now script := by
  cases step_cases hstep with
  | call c hphase =>
      rw [(call_same capacity st c).phase, hphase] at hwait
      cases hwait
  | runLoop | turn | leave => cases hwait
  | minDelay now script => exact ⟨now, script, rfl, rfl⟩
  | wait events =>
      dsimp only at hwait
      split at hwait <;> cases hwait
  | event events cs hswap hevents =>
      have hphase := (calls_same capacity { st with events := events } cs).phase
      rw [hwait] at hphase
      cases hphase.trans (h.handling hevents)
  | pipe events errno interrupted hswap hevents =>
      cases (h.handling hevents).symm.trans hwait
  | task task tasks cs hswap =>
      rw [(runTask_same capacity { st with swapList := tasks } task cs).phase] at hwait
      obtain ⟨⟨-, hnone⟩, -⟩ := h.waiting (.inr hwait)
      rw [hswap] at hnone
      cases hnone
  | destroy errno interrupted hphase => cases hphase.symm.trans hwait

structure Ready (st : PollerState) : Prop where
  shape : st.Shape
  delays : st.toDelay.Inv
  soon : st.Soon
  onTime : st.phase = .wait → OnTime st.asked st.poller.delayTasks st.timeout

theorem step_ready (h : st.Ready) (htimely : st.Timely a)
    (hstep : st.step capacity a = some st') : st'.Ready where
  shape := step_shape h.shape hstep
  delays := by
    obtain ⟨acts, hrun⟩ := step_toDelay h.shape htimely.admissible hstep
    exact hrun.invariant (fun _ _ _ => DelayState.step_inv) h.delays
  soon := step_soon h.shape h.delays h.soon htimely hstep
  onTime := by
    intro hwait
    obtain ⟨now, script, rfl, rfl⟩ := step_wait h.shape hstep hwait
    exact (askDelay_soon h.soon h.delays htimely).2

theorem init_ready : ({} : PollerState).Ready where
  shape := init_shape
  delays := DelayState.init_inv
  soon := ⟨⟨by decide, fun _ h => (by cases h)⟩, fun _ h => (by cases h)⟩
  onTime := fun h => by cases h

theorem mem_pending {d : DelayId} (hd : d ∈ st.toDelay.pending) :
    ∃ t timeline, (t, .emplace timeline d) ∈ st.poller.taskList ++ st.swapList := by
  have hview : d ∈ ((st.poller.taskList ++ st.swapList).map fun task => task.2.view).filterMap
      DelayState.insertionOf := by
    rw [List.map_append]
    exact hd
  obtain ⟨view, hin, hinsertion⟩ := List.mem_filterMap.1 hview
  obtain ⟨⟨t, job⟩, htask, rfl⟩ := List.mem_map.1 hin
  cases job with
  | user | exit => cases hinsertion
  | emplace timeline d' =>
      cases hinsertion
      exact ⟨t, timeline, htask⟩

theorem run_ready {acts : List PollerAction} (hrun : Run (step capacity) Timely {} acts st) :
    st.Ready :=
  hrun.invariant (fun _ _ _ h htimely hstep => step_ready h htimely hstep) init_ready

theorem waiting_edge (hcapacity : 0 < capacity) {acts : List PollerAction}
    (hrun : Run (step capacity) Timely {} acts st) (hwait : st.phase = .wait)
    (hsome : st.poller.taskList ≠ []) :
    st.pipe.edge = true ∧ ∃ st', st.step capacity (.wait [.pipe]) = some st' := by
  obtain ⟨⟨hevents, -⟩, -⟩ := (run_shape hrun).waiting (.inr hwait)
  have hedge : st.pipe.edge = true := by
    rcases (run_wakes hcapacity hrun).wakes with hevent | hedge | ⟨-, hempty⟩
    · rw [show st.toLoop.events = [] from hevents] at hevent
      cases hevent
    · exact hedge
    · exact absurd (List.map_eq_nil_iff.1 hempty) hsome
  exact ⟨hedge, _, if_pos ⟨hwait, fun _ => hedge, by decide, by decide⟩⟩

/-- When `RunLoop` is in `epoll_wait`, a task in the list has an edge of the pipe that ends the
waiting, and each delay task that is not finished has one too, or a timeout that ends, counted from
the reading at which `RunLoop` asked for it, when it is due.  The due tasks have been run since. -/
theorem sleeps_on_no_work (hcapacity : 0 < capacity) {acts : List PollerAction}
    (hrun : Run (step capacity) Timely {} acts st) (hwait : st.phase = .wait) :
    (st.poller.taskList ≠ [] →
      st.pipe.edge = true ∧ ∃ st', st.step capacity (.wait [.pipe]) = some st') ∧
    OnTime st.asked st.poller.delayTasks st.timeout ∧
    ∀ d < st.nextDelay, st.finished d = false →
      (∃ t timeline, (t, .emplace timeline d) ∈ st.poller.taskList ∧ st.pipe.edge = true) ∨
      ∃ deadline, (deadline, d) ∈ st.poller.delayTasks ∧ 0 < st.timeout ∧
        st.timeout ≤ (deadline : Int) - st.asked := by
  have hready := run_ready hrun
  have honTime := hready.onTime hwait
  refine ⟨waiting_edge hcapacity hrun hwait, honTime, fun d hd hfinished => ?_⟩
  obtain ⟨⟨-, hswap⟩, -⟩ := hready.shape.waiting (.inr hwait)
  rcases List.mem_append.1 ((hready.delays.holds.mem d).2 ⟨hd, hfinished⟩) with hin | hin
  · obtain ⟨t, timeline, htask⟩ := mem_pending hin
    rw [hswap, List.append_nil] at htask
    have hedge := waiting_edge hcapacity hrun hwait (List.ne_nil_of_mem htask)
    exact .inl ⟨t, timeline, htask, hedge.1⟩
  · obtain ⟨⟨deadline, d'⟩, hentry, rfl⟩ := List.mem_map.1 hin
    exact .inr ⟨deadline, hentry, honTime.1 (deadline, d') hentry⟩

/-- A delay task asks to be run again, and registers another one. -/
theorem sleeps_on_no_work_renewed : ∃ st : PollerState,
    st.poller.delayTasks = [(116, 0)] ∧ st.asked = 106 ∧ st.timeout = 10 ∧
      (st.poller.taskList ≠ [] →
        st.pipe.edge = true ∧ ∃ st', st.step 1 (.wait [.pipe]) = some st') ∧
      OnTime st.asked st.poller.delayTasks st.timeout ∧
      ∀ d < st.nextDelay, st.finished d = false →
        (∃ t timeline, (t, .emplace timeline d) ∈ st.poller.taskList ∧ st.pipe.edge = true) ∨
        ∃ deadline, (deadline, d) ∈ st.poller.delayTasks ∧ 0 < st.timeout ∧
          st.timeout ≤ (deadline : Int) - st.asked := by
  have hrun : ∃ st : PollerState, Run (step 1) Timely {} [.call (.doDelayTask 5 100), .runLoop,
      .minDelay 101 [], .wait [.pipe], .pipe 0 [], .task [], .turn,
      .minDelay 106 [⟨[.async, .doDelayTask 7 106], .ret 10⟩]] st ∧ st.phase = .wait ∧
        st.asked = 106 ∧ st.poller.delayTasks = [(116, 0)] ∧ st.timeout = 10 := by
    refine ⟨_, .cons ?_ rfl (.cons ?_ rfl (.cons ?_ rfl (.cons ?_ rfl (.cons ?_ rfl (.cons ?_ rfl
      (.cons ?_ rfl (.cons ?_ rfl (.nil _)))))))), rfl, rfl, rfl, by decide⟩ <;>
        simp [Timely, PollerAction.made, PollerCall.Short]
    all_goals decide +kernel
  obtain ⟨st, hrun, hwait, hasked, hentries, htimeout⟩ := hrun
  exact ⟨st, hentries, hasked, htimeout, sleeps_on_no_work (by decide) hrun hwait⟩

/-! ## From the registration on -/

def Listed (st : PollerState) (deadline : Nat) (d : DelayId) : Prop :=
  ∃ t, (t, .emplace deadline d) ∈ st.poller.taskList ++ st.swapList

def Registered (st : PollerState) (deadline : Nat) (d : DelayId) : Prop :=
  st.Listed deadline d ∨ (deadline, d) ∈ st.poller.delayTasks ∨ st.toDelay.FiredFor deadline d

variable {deadline : Nat} {d : DelayId}

theorem async_listed (capacity : Nat) (h : st.Listed deadline d) (job : Job) (first : Bool) :
    (st.async capacity job first).Listed deadline d := by
  obtain ⟨t, hin⟩ := h
  refine ⟨t, ?_⟩
  rcases List.mem_append.1 hin with hin | hin
  · refine List.mem_append_left _ ?_
    cases first with
    | true => exact List.mem_cons_of_mem _ hin
    | false => exact List.mem_append_left _ hin
  · exact List.mem_append_right _ hin

theorem call_listed (capacity : Nat) (h : st.Listed deadline d) (c : PollerCall) :
    (st.call capacity c).Listed deadline d := by
  cases c with
  | async => exact async_listed capacity h .user false
  | asyncFirst => exact async_listed capacity h .user true
  | shutdown => exact async_listed capacity h .exit true
  | doDelayTask delayMs now => exact async_listed capacity h _ true
  | cancel t | cancelDelay d' =>
      unfold call
      dsimp only
      split <;> exact h

theorem listed_kept (capacity deadline : Nat) (d : DelayId) :
    Kept capacity (fun _ => True) (Listed · deadline d) where
  call := fun _ c _ h => call_listed capacity h c
  finish := fun _ _ h => h
  entries := fun _ _ h => h
  passes := fun _ _ h => h

theorem calls_registered (capacity : Nat) (h : st.Registered deadline d) (cs : List PollerCall) :
    (st.calls capacity cs).Registered deadline d := by
  rcases h with hlisted | hin | ⟨pass, hpass, hfired⟩
  · exact .inl ((listed_kept capacity deadline d).calls hlisted fun _ _ => trivial)
  · refine .inr (.inl ?_)
    rw [calls_entries]
    exact hin
  · refine .inr (.inr ⟨pass, ?_, hfired⟩)
    rw [toDelay_calls, DelayState.calls_passes]
    exact hpass

theorem onPipeEvent_registered (hswap : st.swapList = []) (h : st.Registered deadline d)
    (errno : Utils.Errno) (interrupted : List Bool) :
    (st.onPipeEvent errno interrupted).Registered deadline d := by
  refine h.imp_left fun hlisted => ?_
  obtain ⟨t, hin⟩ := hlisted
  rw [hswap, List.append_nil] at hin
  exact ⟨t, hin⟩

theorem askDelay_registered (hinv : st.toDelay.Inv) (h : st.Registered deadline d) {now : Nat}
    {script : List PollerRun} (hadm : st.Admissible (.minDelay now script)) :
    (st.askDelay capacity now script).Registered deadline d := by
  have hscript : DelayState.RenewsSmall now (script.map PollerRun.view) := by
    intro run hrun n hn
    obtain ⟨run', hrun', rfl⟩ := List.mem_map.1 hrun
    exact hadm.2 now script rfl run' hrun' n hn
  have hclock : DelayState.Inv { st with clock := max st.clock now : PollerState }.toDelay := hinv
  have hfires := DelayState.getMinDelayMs_fires hclock hscript deadline d
  rw [toDelay_getMinDelayMs capacity] at hfires
  rcases h with hlisted | hin | hfired
  · have hlisted' : Listed { st with clock := max st.clock now } deadline d := hlisted
    have hkept := (listed_kept capacity deadline d).getMinDelayMs now hlisted'
      (fun (run : PollerRun) (_ : run ∈ script) _ _ => trivial)
    exact .inl hkept
  · exact .inr (hfires.1 hin)
  · exact .inr (.inr (hfires.2 hfired))

theorem runTask_registered (h : st.Registered deadline d) (task : TaskId × Job)
    (cs : List PollerCall) : (st.runTask capacity task cs).Registered deadline d := by
  have hlog : ∀ r, (st.logRan r).Registered deadline d := fun _ => h
  unfold runTask
  split
  · exact hlog _
  · obtain ⟨t, job⟩ := task
    cases job with
    | user => exact calls_registered capacity (hlog _) cs
    | exit => exact hlog _
    | emplace timeline d' =>
        refine (hlog ⟨t, true⟩).imp_right fun hrest => hrest.imp_left fun hin => ?_
        exact (DelayState.emplace_perm timeline d' _).mem_iff.2 (List.mem_cons_of_mem _ hin)

theorem turn_registered (hnamed : st.Named) {t : TaskId} {tasks : List (TaskId × Job)}
    (hswap : st.swapList = (t, .emplace deadline d) :: tasks) (cs : List PollerCall) :
    ({ st with swapList := tasks }.runTask capacity (t, .emplace deadline d) cs).Registered
      deadline d := by
  have hlive := hnamed.live hswap fun huser => by cases huser
  rw [runTask, if_neg hlive]
  exact .inr (.inl ((DelayState.emplace_perm deadline d _).mem_iff.2 List.mem_cons_self))

theorem step_registered (hready : st.Ready) (h : st.Registered deadline d) (htimely : st.Timely a)
    (hstep : st.step capacity a = some st') : st'.Registered deadline d := by
  cases step_cases hstep with
  | call c => exact calls_registered capacity h [c]
  | runLoop | wait | turn | leave => exact h
  | minDelay now script => exact askDelay_registered hready.delays h htimely.admissible
  | event events cs =>
      have hpop : Registered { st with events := events } deadline d := h
      exact calls_registered capacity hpop cs
  | pipe events errno interrupted hswap =>
      have hpop : Registered { st with events := events } deadline d := h
      exact onPipeEvent_registered hswap hpop errno interrupted
  | task task tasks cs hswap =>
      have hrest : Registered { st with swapList := tasks } deadline d →
          ({ st with swapList := tasks }.runTask capacity task cs).Registered deadline d :=
        fun hpop => runTask_registered hpop task cs
      rcases h with ⟨t, hin⟩ | hin
      · rw [hswap] at hin
        rcases List.mem_append.1 hin with hin | hin
        · exact hrest (.inl ⟨t, List.mem_append_left _ hin⟩)
        · rcases List.mem_cons.1 hin with rfl | hin
          · exact turn_registered hready.shape.named hswap cs
          · exact hrest (.inl ⟨t, List.mem_append_right _ hin⟩)
      · exact hrest (.inr hin)
  | destroy errno interrupted hphase hopen =>
      have hasync : (st.async capacity .exit true).Registered deadline d :=
        calls_registered capacity h [.shutdown]
      have hclosed : Registered { st.async capacity .exit true with destroyed := true }
          deadline d := hasync
      have hswap : PollerState.swapList { st.async capacity .exit true with destroyed := true } =
          [] := (hready.shape.idle hphase hopen).2
      exact onPipeEvent_registered hswap hclosed errno interrupted

/-- From its registration on a delay task waits to be inserted, waits for its time or has been
called for it.  When `RunLoop` has asked for the delay at its time or later and is in `epoll_wait`,
it has been called, unless its insertion is pending, and then `epoll_wait` returns at once. -/
theorem delay_task_fires (hcapacity : 0 < capacity) {acts more : List PollerAction}
    (hrun : Run (step capacity) Timely {} acts st) (hlisted : st.Listed deadline d)
    (hmore : Run (step capacity) Timely st more st') :
    st'.Registered deadline d ∧
      (st'.phase = .wait → deadline ≤ st'.asked →
        (∃ t, (t, .emplace deadline d) ∈ st'.poller.taskList) ∧ st'.pipe.edge = true ∨
          st'.toDelay.FiredFor deadline d) := by
  have hready := run_ready hrun
  have hstep : ∀ (u : PollerState) b u', u.Ready ∧ u.Registered deadline d → u.Timely b →
      u.step capacity b = some u' → u'.Ready ∧ u'.Registered deadline d :=
    fun _ _ _ h htimely hstep =>
      ⟨step_ready h.1 htimely hstep, step_registered h.1 h.2 htimely hstep⟩
  obtain ⟨hready', hregistered⟩ := hmore.invariant hstep ⟨hready, .inl hlisted⟩
  refine ⟨hregistered, fun hwait hdue => ?_⟩
  rcases hregistered with ⟨t, hin⟩ | hin | hfired
  · obtain ⟨⟨-, hswap⟩, -⟩ := hready'.shape.waiting (.inr hwait)
    rw [hswap, List.append_nil] at hin
    have hedge := waiting_edge hcapacity (hrun.append hmore) hwait (List.ne_nil_of_mem hin)
    exact .inl ⟨⟨t, hin⟩, hedge.1⟩
  · -- an entry that is left is ahead of the time at which the delay was asked for
    obtain ⟨hpos, hle⟩ := (hready'.onTime hwait).1 _ hin
    dsimp only at hle
    omega
  · exact .inr hfired

/-- The task is due at 105, and `RunLoop` asks for the delay at 101 and at 106. -/
theorem delay_task_fires_late : ∃ st' : PollerState, st'.poller.delayTasks = [(116, 0)] ∧
    st'.Registered 105 0 ∧ ((∃ t, (t, .emplace 105 0) ∈ st'.poller.taskList) ∧
      st'.pipe.edge = true ∨ st'.toDelay.FiredFor 105 0) := by
  have hrun : ∃ st st' : PollerState, Run (step 1) Timely {} [.call (.doDelayTask 5 100)] st ∧
      st.poller.taskList = [(0, .emplace 105 0)] ∧
      Run (step 1) Timely st [.runLoop, .minDelay 101 [], .wait [.pipe], .pipe 0 [], .task [],
        .turn, .minDelay 106 [⟨[.async], .ret 10⟩]] st' ∧ st'.phase = .wait ∧ st'.asked = 106 ∧
          st'.poller.delayTasks = [(116, 0)] := by
    refine ⟨_, _, .cons ?_ rfl (.nil _), rfl, .cons ?_ rfl (.cons ?_ rfl (.cons ?_ rfl (.cons ?_ rfl
      (.cons ?_ rfl (.cons ?_ rfl (.cons ?_ rfl (.nil _))))))), rfl, rfl, rfl⟩ <;>
        simp [Timely, PollerAction.made, PollerCall.Short]
    all_goals decide +kernel
  obtain ⟨st, st', hrun, hlist, hmore, hwait, hasked, hentries⟩ := hrun
  have hlisted : st.Listed 105 0 := ⟨0, by rw [hlist]; exact List.mem_cons_self⟩
  obtain ⟨hregistered, hfires⟩ := delay_task_fires (by decide) hrun hlisted hmore
  exact ⟨st', hentries, hregistered, hfires hwait (by rw [hasked]; decide)⟩

end PollerState

end CommonLibrary.Poller
