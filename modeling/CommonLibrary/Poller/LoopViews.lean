import CommonLibrary.Poller.RunLoop

/-!
# Two views of the event loop

The machine of the whole event loop refines the two that have been looked at on their own: the
one of the task list and the pipe, and the one of the delay tasks.  What a run of the whole does is
a run of either.
-/

namespace CommonLibrary.Poller

open Foundation Utils

/-- The task as `DelayState` sees it. -/
def Job.view : Job → PollerTask
  | .user | .exit => .user
  | .emplace timeline d => .emplace timeline d

/-- What `DelayState` sees of a call. -/
def PollerCall.view : PollerCall → List Call
  | .async => [.async]
  | .asyncFirst | .shutdown => [.asyncFirst]
  | .cancel _ => []
  | .doDelayTask delayMs now => [.doDelayTask delayMs now]
  | .cancelDelay d => [.cancel d]

def PollerRun.view (run : PollerRun) : TaskRun := ⟨run.calls.flatMap PollerCall.view, run.outcome⟩

/-- The deadline that a call asks for stays below `2 ^ 64`. -/
def PollerCall.Small : PollerCall → Prop
  | .doDelayTask delayMs now => delayMs + now < 2 ^ 64
  | _ => True

def PollerAction.made : PollerAction → List PollerCall
  | .call c => [c]
  | .event cs | .task cs => cs
  | .minDelay _ script => script.flatMap PollerRun.calls
  | _ => []

namespace PollerState

def toLoop (st : PollerState) : LoopState where
  poller := { taskList := st.poller.taskList.map Prod.fst, exitFlag := st.poller.exitFlag }
  pipe := st.pipe
  events := st.events
  swapList := st.swapList.map Prod.fst
  cancelled := st.cancelled
  destroyed := st.destroyed
  nextTask := st.nextTask
  posts := st.posts
  drains := st.drains

def toDelay (st : PollerState) : DelayState where
  poller :=
    { taskList := st.poller.taskList.map fun task => task.2.view
      delayTasks := st.poller.delayTasks }
  swapList := st.swapList.map fun task => task.2.view
  cancelled := st.delayCancelled
  nextDelay := st.nextDelay
  finished := st.finished
  askedFor := st.askedFor
  passes := st.passes

variable {capacity : Nat} {st st' : PollerState} {a : PollerAction}

/-! ## The tasks and the pipe -/

theorem toLoop_async (capacity : Nat) (st : PollerState) (job : Job) (first : Bool) :
    (st.async capacity job first).toLoop = st.toLoop.async capacity first := by
  cases first <;> simp [toLoop, async, LoopState.async, EventPoller.async]

theorem toLoop_call (capacity : Nat) (h : st.Named) (c : PollerCall) :
    ∃ cs, (st.call capacity c).toLoop = st.toLoop.calls capacity cs := by
  cases c with
  | async => exact ⟨[.async], toLoop_async capacity st .user false⟩
  | asyncFirst => exact ⟨[.asyncFirst], toLoop_async capacity st .user true⟩
  | shutdown => exact ⟨[.asyncFirst], toLoop_async capacity st .exit true⟩
  | cancel t =>
      unfold call
      dsimp only
      split
      · next ht =>
        have hlt : t < st.toLoop.nextTask := h.returned t ht
        refine ⟨[.cancel t], ?_⟩
        show _ = st.toLoop.call capacity (.cancel t)
        rw [LoopState.call, if_pos hlt]
        rfl
      · exact ⟨[], rfl⟩
  | doDelayTask delayMs now => exact ⟨[.asyncFirst], toLoop_async capacity st _ true⟩
  | cancelDelay d =>
      refine ⟨[], ?_⟩
      unfold call
      dsimp only
      split <;> rfl

/-- Since `u`, there have been calls and nothing else. -/
theorem toLoop_kept (capacity : Nat) (u : LoopState) : Kept capacity (fun _ => True)
    fun st => st.Named ∧ ∃ cs, st.toLoop = u.calls capacity cs where
  call := fun st c _ h => by
    obtain ⟨hnamed, cs, hcs⟩ := h
    obtain ⟨more, hmore⟩ := toLoop_call capacity hnamed c
    refine ⟨call_named hnamed c, cs ++ more, ?_⟩
    rw [hmore, hcs, LoopState.calls, LoopState.calls, LoopState.calls, List.foldl_append]
  finish := fun st d h => ⟨(named_kept capacity).finish st d h.1, h.2⟩
  entries := fun st m h => ⟨(named_kept capacity).entries st m h.1, h.2⟩
  passes := fun st ps h => ⟨(named_kept capacity).passes st ps h.1, h.2⟩

theorem toLoop_calls (capacity : Nat) (h : st.Named) (cs : List PollerCall) :
    ∃ cs', (st.calls capacity cs).toLoop = st.toLoop.calls capacity cs' :=
  ((toLoop_kept capacity st.toLoop).calls ⟨h, [], rfl⟩ fun _ _ => trivial).2

abbrev AnyLoop : LoopState → LoopAction → Prop := fun _ _ => True

theorem run_calls (capacity : Nat) (u : LoopState) (cs : List TaskCall) :
    Run (LoopState.step capacity) AnyLoop u (cs.map .call) (u.calls capacity cs) := by
  induction cs generalizing u with
  | nil => exact .nil u
  | cons c cs ih => exact .cons trivial rfl (ih (u.call capacity c))

theorem run_one {u v : LoopState} {b : LoopAction} (hstep : u.step capacity b = some v) :
    ∃ acts, Run (LoopState.step capacity) AnyLoop u acts v :=
  ⟨[b], .cons trivial hstep (.nil v)⟩

theorem toLoop_runTask (capacity : Nat) (h : st.Named) (task : TaskId × Job)
    (cs : List PollerCall) : ∃ cs' how, (st.runTask capacity task cs).toLoop =
      st.toLoop.runTask capacity task.1 cs' how := by
  have hlog : Named (st.logRan ⟨task.1, true⟩) := ⟨h.returned, h.cancelled, h.listed⟩
  obtain ⟨t, job⟩ := task
  unfold runTask LoopState.runTask
  dsimp only
  by_cases hcancelled : st.cancelled t = true
  · refine ⟨[], .returns, ?_⟩
    rw [if_pos hcancelled, if_pos (show st.toLoop.cancelled t = true from hcancelled)]
    rfl
  · have hview : ¬ st.toLoop.cancelled t = true := hcancelled
    rw [if_neg hcancelled]
    simp only [if_neg hview]
    cases job with
    | user =>
        obtain ⟨cs', hcs'⟩ := toLoop_calls capacity hlog cs
        exact ⟨cs', .returns, hcs'⟩
    | emplace timeline d => exact ⟨[], .returns, rfl⟩
    | exit => exact ⟨[], .exits, rfl⟩

theorem step_toLoop (h : st.Shape) (hstep : st.step capacity a = some st') :
    ∃ acts, Run (LoopState.step capacity) AnyLoop st.toLoop acts st'.toLoop := by
  cases step_cases hstep with
  | call c =>
      obtain ⟨cs, hcs⟩ := toLoop_call capacity h.named c
      rw [hcs]
      exact ⟨_, run_calls capacity st.toLoop cs⟩
  | runLoop hphase hopen =>
      obtain ⟨hevents, hswap⟩ := h.idle hphase hopen
      have hidle : st.toLoop.Idle := ⟨hevents, List.map_eq_nil_iff.2 hswap⟩
      exact run_one (b := .runLoop) (if_pos hidle)
  | minDelay now script =>
      have hclock : Named { st with clock := max st.clock now } :=
        ⟨h.named.returned, h.named.cancelled, h.named.listed⟩
      obtain ⟨-, cs, hcs⟩ := (toLoop_kept capacity st.toLoop).getMinDelayMs now
        ⟨hclock, [], rfl⟩ (fun (run : PollerRun) (_ : run ∈ script) _ _ => trivial)
      have hview : (st.askDelay capacity now script).toLoop = st.toLoop.calls capacity cs := hcs
      rw [hview]
      exact ⟨_, run_calls capacity st.toLoop cs⟩
  | wait events hphase hedge honce =>
      obtain ⟨⟨hevents, hswap⟩, hopen⟩ := h.waiting (.inr hphase)
      have hwait : st.toLoop.AboutToWait :=
        ⟨⟨hevents, List.map_eq_nil_iff.2 hswap⟩, h.looping hphase, hopen⟩
      exact run_one (b := .wait events) (if_pos ⟨hwait, hedge, honce⟩)
  | event events cs hswap hevents =>
      have hpop : Named { st with events := events } :=
        ⟨h.named.returned, h.named.cancelled, h.named.listed⟩
      obtain ⟨cs', hcs'⟩ := toLoop_calls capacity hpop cs
      have hevent : st.toLoop.step capacity .event = some { st.toLoop with events := events } := by
        have hswap' : st.toLoop.swapList = [] := List.map_eq_nil_iff.2 hswap
        have hevents' : st.toLoop.events = .other :: events := hevents
        simp only [LoopState.step, hswap', hevents']
      rw [hcs']
      exact ⟨_, .cons trivial hevent (run_calls capacity _ cs')⟩
  | pipe events errno interrupted hswap hevents =>
      apply run_one (b := .pipe errno interrupted)
      have hswap' : st.toLoop.swapList = [] := List.map_eq_nil_iff.2 hswap
      have hevents' : st.toLoop.events = .pipe :: events := hevents
      unfold LoopState.step
      rw [hswap', hevents']
      rfl
  | task task tasks cs hswap =>
      have hswap' : st.toLoop.swapList = task.1 :: tasks.map Prod.fst := by
        show st.swapList.map Prod.fst = _
        rw [hswap]
        rfl
      obtain ⟨cs', how, hview⟩ := toLoop_runTask capacity (h.named.pop hswap) task cs
      apply run_one (b := .task cs' how)
      rw [hview]
      simp only [LoopState.step, hswap']
      rfl
  | turn => exact ⟨[], .nil _⟩
  | leave => exact ⟨[], .nil _⟩
  | destroy errno interrupted hphase hopen =>
      obtain ⟨hevents, hswap⟩ := h.idle hphase hopen
      have hidle : st.toLoop.Idle := ⟨hevents, List.map_eq_nil_iff.2 hswap⟩
      apply run_one (b := .destroy errno interrupted)
      rw [LoopState.step, if_pos ⟨hidle, hopen⟩]
      rfl

/-! ## The delay tasks -/

theorem toDelay_async (capacity : Nat) (st : PollerState) (job : Job) (first : Bool) :
    (st.async capacity job first).toDelay = st.toDelay.async job.view first := by
  cases first <;> simp [toDelay, async, DelayState.async, EventPoller.async]

theorem toDelay_call (capacity : Nat) (st : PollerState) (c : PollerCall) :
    (st.call capacity c).toDelay = st.toDelay.calls c.view := by
  cases c with
  | async => exact toDelay_async capacity st .user false
  | asyncFirst => exact toDelay_async capacity st .user true
  | shutdown => exact toDelay_async capacity st .exit true
  | cancel t =>
      unfold call
      dsimp only
      split <;> rfl
  | doDelayTask delayMs now =>
      rfl
  | cancelDelay d =>
      show _ = st.toDelay.call (.cancel d)
      unfold call DelayState.call
      dsimp only
      by_cases hd : d < st.nextDelay
      · rw [if_pos hd]
        exact (if_pos hd).symm
      · rw [if_neg hd]
        exact (if_neg hd).symm

theorem toDelay_calls (capacity : Nat) (st : PollerState) (cs : List PollerCall) :
    (st.calls capacity cs).toDelay = st.toDelay.calls (cs.flatMap PollerCall.view) := by
  induction cs generalizing st with
  | nil => rfl
  | cons c cs ih =>
      calc ((st.call capacity c).calls capacity cs).toDelay
          = (st.call capacity c).toDelay.calls (cs.flatMap PollerCall.view) := ih _
        _ = (st.toDelay.calls c.view).calls (cs.flatMap PollerCall.view) := by
          rw [toDelay_call]
        _ = st.toDelay.calls (c.view ++ cs.flatMap PollerCall.view) := by
          rw [DelayState.calls, DelayState.calls, DelayState.calls, List.foldl_append]
        _ = st.toDelay.calls ((c :: cs).flatMap PollerCall.view) := by
          rw [List.flatMap_cons]

theorem toDelay_invoke (capacity : Nat) (st : PollerState) (d : DelayId)
    (script : List PollerRun) :
    st.toDelay.invoke d (script.map PollerRun.view) =
      ((st.invoke capacity d script).1.toDelay, (st.invoke capacity d script).2.1,
        (st.invoke capacity d script).2.2.map PollerRun.view) := by
  unfold invoke DelayState.invoke
  by_cases hcancelled : st.delayCancelled d = true
  · rw [if_pos hcancelled, if_pos (show st.toDelay.cancelled d = true from hcancelled)]
  · rw [if_neg hcancelled, if_neg (show ¬ st.toDelay.cancelled d = true from hcancelled)]
    cases script with
    | nil => rfl
    | cons run script =>
        dsimp only
        rw [toDelay_calls]
        rfl

/-- The loop of `flush_delay_tasks` is the one of `DelayState`. -/
def FlushOut.view (out : FlushOut) : DelayState.FlushOut :=
  ⟨out.state.toDelay, out.copy, out.fired⟩

theorem toDelay_flushLoop (capacity now fuel : Nat) (st : PollerState)
    (passed todo : List (Nat × DelayId)) (script : List PollerRun) :
    (flushLoop capacity now fuel st passed todo script).view =
      DelayState.flushLoop now fuel st.toDelay passed todo (script.map PollerRun.view) := by
  induction fuel generalizing st passed todo script with
  | zero => rfl
  | succ fuel ih =>
      cases todo with
      | nil => rfl
      | cons e todo =>
          obtain ⟨deadline, d⟩ := e
          rw [flushLoop, DelayState.flushLoop]
          by_cases hdue : deadline ≤ now
          · rw [if_pos hdue, if_pos hdue, toDelay_invoke capacity]
            generalize st.invoke capacity d script = res
            obtain ⟨st', outcome, script'⟩ := res
            have hcons : ∀ (out : FlushOut) (out' : DelayState.FlushOut), out.view = out' →
                FlushOut.view { out with fired := ⟨deadline, d, outcome⟩ :: out.fired } =
                  { out' with fired := ⟨deadline, d, outcome⟩ :: out'.fired } := by
              rintro out _ rfl
              rfl
            apply hcons
            cases outcome with
            | throws => exact ih (st'.finish d) passed todo script'
            | ret n =>
                dsimp only
                split
                · split
                  · exact ih st' _ todo script'
                  · exact ih st' passed _ script'
                · exact ih (st'.finish d) passed todo script'
          · rw [if_neg hdue, if_neg hdue]
            rfl

theorem toDelay_getMinDelayMs (capacity : Nat) (st : PollerState) (now : Nat)
    (script : List PollerRun) :
    st.toDelay.getMinDelayMs now (script.map PollerRun.view) =
      ((st.getMinDelayMs capacity now script).1.toDelay,
        (st.getMinDelayMs capacity now script).2) := by
  have hflush : st.toDelay.flushDelayTasks now (script.map PollerRun.view) =
      ((st.flushDelayTasks capacity now script).1.toDelay,
        (st.flushDelayTasks capacity now script).2) := by
    have hloop : DelayState.flushLoop now (st.poller.delayTasks.length + script.length)
        { st.toDelay with poller := { st.toDelay.poller with delayTasks := [] } } []
        st.toDelay.poller.delayTasks (script.map PollerRun.view) =
          (flushLoop capacity now (st.poller.delayTasks.length + script.length)
            { st with poller := { st.poller with delayTasks := [] } } []
            st.poller.delayTasks script).view :=
      (toDelay_flushLoop capacity now _
        { st with poller := { st.poller with delayTasks := [] } } [] _ script).symm
    have hfuel : st.toDelay.poller.delayTasks.length + (script.map PollerRun.view).length =
        st.poller.delayTasks.length + script.length := by
      rw [List.length_map]
      rfl
    unfold DelayState.flushDelayTasks flushDelayTasks
    dsimp only
    rw [hfuel, hloop]
    rfl
  unfold DelayState.getMinDelayMs getMinDelayMs
  have hentries : st.toDelay.poller.delayTasks = st.poller.delayTasks := rfl
  rw [hentries]
  cases st.poller.delayTasks with
  | nil => rfl
  | cons e m =>
      dsimp only
      split
      · rfl
      · exact hflush

/-! ## The steps -/

/-- No deadline that is asked for reaches `2 ^ 64`. -/
def Admissible (_ : PollerState) (a : PollerAction) : Prop :=
  (∀ c ∈ a.made, c.Small) ∧ ∀ now script, a = .minDelay now script →
    ∀ run ∈ script, ∀ n, run.outcome = .ret n → n + now < 2 ^ 64

theorem small_view {c : PollerCall} (hc : c.Small) : ∀ c' ∈ c.view, DelayState.CallSmall c' := by
  intro c' hc'
  cases c with
  | doDelayTask delayMs now =>
      rw [List.mem_singleton.1 hc']
      exact hc
  | cancel t => cases hc'
  | async | asyncFirst | shutdown | cancelDelay =>
      rw [List.mem_singleton.1 hc']
      trivial

theorem small_views {cs : List PollerCall} (hcs : ∀ c ∈ cs, c.Small) :
    ∀ c' ∈ cs.flatMap PollerCall.view, DelayState.CallSmall c' := by
  intro c' hc'
  obtain ⟨c, hc, hin⟩ := List.mem_flatMap.1 hc'
  exact small_view (hcs c hc) c' hin

theorem run_delayCalls (u : DelayState) {cs : List Call} (hcs : ∀ c ∈ cs, DelayState.CallSmall c) :
    Run DelayState.step DelayState.Admissible u (cs.map .call) (u.calls cs) := by
  induction cs generalizing u with
  | nil => exact .nil u
  | cons c cs ih =>
      obtain ⟨hc, hrest⟩ := List.forall_mem_cons.1 hcs
      exact .cons hc rfl (ih (u.call c) hrest)

theorem toDelay_onPipeEvent (hswap : st.swapList = []) (errno : Errno)
    (interrupted : List Bool) :
    st.toDelay.step .swap = some (st.onPipeEvent errno interrupted).toDelay := by
  have hview : st.toDelay.swapList = [] := List.map_eq_nil_iff.2 hswap
  rw [DelayState.step, if_pos hview]
  rfl

theorem step_toDelay (h : st.Shape) (hadm : st.Admissible a)
    (hstep : st.step capacity a = some st') :
    ∃ acts, Run DelayState.step DelayState.Admissible st.toDelay acts st'.toDelay := by
  obtain ⟨hsmall, hrenew⟩ := hadm
  cases step_cases hstep with
  | call c =>
      rw [toDelay_call]
      exact ⟨_, run_delayCalls st.toDelay (small_view (hsmall c (List.mem_singleton_self c)))⟩
  | runLoop | wait | turn | leave => exact ⟨[], .nil _⟩
  | minDelay now script hphase hexit =>
      have hswap : st.toDelay.swapList = [] :=
        List.map_eq_nil_iff.2 (h.waiting (.inl hphase)).1.2
      have hview : st.toDelay.step (.minDelay now (script.map PollerRun.view)) =
          some (st.askDelay capacity now script).toDelay := by
        rw [DelayState.step, if_pos hswap, show st.toDelay = PollerState.toDelay
          { st with clock := max st.clock now } from rfl, toDelay_getMinDelayMs capacity]
        rfl
      refine ⟨_, .cons ?_ hview (.nil _)⟩
      intro run hrun
      obtain ⟨run', hrun', rfl⟩ := List.mem_map.1 hrun
      refine ⟨small_views fun c hc => hsmall c ?_, hrenew now script rfl run' hrun'⟩
      exact List.mem_flatMap.2 ⟨run', hrun', hc⟩
  | event events cs =>
      rw [toDelay_calls]
      exact ⟨_, run_delayCalls st.toDelay (small_views hsmall)⟩
  | pipe events errno interrupted hswap =>
      have hpop : PollerState.swapList { st with events := events } = [] := hswap
      exact ⟨[.swap], .cons trivial (toDelay_onPipeEvent hpop errno interrupted) (.nil _)⟩
  | task task tasks cs hswap =>
      obtain ⟨t, job⟩ := task
      have hview : st.toDelay.swapList = job.view :: tasks.map fun task => task.2.view := by
        show st.swapList.map _ = _
        rw [hswap]
        rfl
      have hrun : ∀ cs', (∀ c ∈ cs', DelayState.CallSmall c) →
          st.toDelay.step (.task cs') =
            some ({ st with swapList := tasks }.runTask capacity (t, job) cs).toDelay →
          ∃ acts, Run DelayState.step DelayState.Admissible st.toDelay acts
            ({ st with swapList := tasks }.runTask capacity (t, job) cs).toDelay :=
        fun cs' hcs' hstep' => ⟨[.task cs'], .cons hcs' hstep' (.nil _)⟩
      have hnone : ∀ c ∈ ([] : List Call), DelayState.CallSmall c := fun c hc => by cases hc
      cases job with
      | user =>
          by_cases hcancelled : st.cancelled t = true
          · apply hrun [] hnone
            rw [runTask, if_pos hcancelled]
            simp only [DelayState.step, hview, Job.view]
            rfl
          · apply hrun (cs.flatMap PollerCall.view) (small_views hsmall)
            rw [runTask, if_neg hcancelled, runJob, toDelay_calls]
            simp only [DelayState.step, hview, Job.view]
            rfl
      | emplace timeline d | exit =>
          have hlive : ¬ st.cancelled t = true :=
            h.named.live hswap fun huser => by cases huser
          apply hrun [] hnone
          rw [runTask, if_neg hlive, runJob]
          simp only [DelayState.step, hview, Job.view]
          rfl
  | destroy errno interrupted hphase hopen =>
      have hswap : (st.async capacity .exit true).swapList = [] := (h.idle hphase hopen).2
      have hcall : (st.call capacity .shutdown).toDelay = st.toDelay.call .asyncFirst :=
        toDelay_call capacity st .shutdown
      refine ⟨[.call .asyncFirst, .swap], .cons trivial rfl (.cons trivial ?_ (.nil _))⟩
      rw [← hcall]
      exact toDelay_onPipeEvent hswap errno interrupted

/-! ## Runs -/

theorem run_shape {C : PollerState → PollerAction → Prop} {acts : List PollerAction}
    (hrun : Run (step capacity) C {} acts st) : st.Shape :=
  hrun.invariant (fun _ _ _ h _ hstep => step_shape h hstep) init_shape

theorem run_toLoop {C : PollerState → PollerAction → Prop} {acts : List PollerAction}
    (hrun : Run (step capacity) C {} acts st) :
    ∃ acts', Run (LoopState.step capacity) AnyLoop {} acts' st.toLoop :=
  hrun.refines (f := toLoop) (I := Shape)
    (fun _ _ _ h _ hstep => ⟨step_shape h hstep, step_toLoop h hstep⟩) init_shape

theorem run_wakes {C : PollerState → PollerAction → Prop} (hcapacity : 0 < capacity)
    {acts : List PollerAction} (hrun : Run (step capacity) C {} acts st) :
    st.toLoop.Wakes capacity := by
  obtain ⟨loop, hloop⟩ := run_toLoop hrun
  exact hloop.invariant (fun _ _ _ h _ hstep => LoopState.step_wakes hcapacity h hstep)
    (LoopState.init_wakes hcapacity)

theorem run_toDelay {acts : List PollerAction}
    (hrun : Run (step capacity) Admissible {} acts st) :
    ∃ acts', Run DelayState.step DelayState.Admissible {} acts' st.toDelay :=
  hrun.refines (f := toDelay) (I := Shape)
    (fun _ _ _ h hadm hstep => ⟨step_shape h hstep, step_toDelay h hadm hstep⟩) init_shape

/-- Whatever tasks, event callbacks and delay tasks do, the whole event loop is a run of the task
list and of the delay tasks, so all that holds of their runs holds of it. -/
theorem loop_refines_views (hcapacity : 0 < capacity) {acts : List PollerAction}
    (hrun : Run (step capacity) Admissible {} acts st) :
    (∃ acts', Run (LoopState.step capacity) AnyLoop {} acts' st.toLoop) ∧
      (∃ acts', Run DelayState.step DelayState.Admissible {} acts' st.toDelay) ∧
      st.toLoop.Drained ∧ st.toLoop.Wakes capacity ∧ st.toDelay.Inv := by
  obtain ⟨loop, hloop⟩ := run_toLoop hrun
  obtain ⟨delay, hdelay⟩ := run_toDelay hrun
  refine ⟨⟨loop, hloop⟩, ⟨delay, hdelay⟩, ?_, run_wakes hcapacity hrun, ?_⟩
  · exact hloop.invariant (fun _ _ _ h _ hstep => LoopState.step_drained h hstep)
      LoopState.init_drained
  · exact hdelay.invariant (fun _ _ _ => DelayState.step_inv) DelayState.init_inv

/-- A delay task posts a task, cancels it, calls `Shutdown` and asks to be run again. -/
theorem loop_refines_views_busy : ∃ st : PollerState,
    st.poller.delayTasks = [(117, 0)] ∧ st.poller.taskList = [(2, .exit), (1, .user)] ∧
      st.toLoop.Drained ∧ st.toLoop.Wakes 1 ∧ st.toDelay.Inv := by
  have hrun : ∃ st : PollerState, Run (step 1) Admissible {} [.call (.doDelayTask 5 100),
      .runLoop, .minDelay 101 [], .wait [.pipe], .pipe 0 [], .task [], .turn,
      .minDelay 107 [⟨[.async, .cancel 1, .shutdown], .ret 10⟩]] st ∧
        st.poller.delayTasks = [(117, 0)] ∧ st.poller.taskList = [(2, .exit), (1, .user)] := by
    refine ⟨_, .cons ?_ rfl (.cons ?_ rfl (.cons ?_ rfl (.cons ?_ rfl (.cons ?_ rfl (.cons ?_ rfl
      (.cons ?_ rfl (.cons ?_ rfl (.nil _)))))))), rfl, rfl⟩ <;>
        simp [Admissible, PollerAction.made, PollerCall.Small]
  obtain ⟨st, hrun, hentries, hlist⟩ := hrun
  obtain ⟨-, -, hdrained, hwakes, hinv⟩ := loop_refines_views (by decide) hrun
  exact ⟨st, hentries, hlist, hdrained, hwakes, hinv⟩

end PollerState

end CommonLibrary.Poller
