import CommonLibrary.Poller.TaskList

/-!
# No lost wakeup

The registration of the pipe is edge-triggered, a write into the full pipe fails, and the
loop that empties the pipe stops after 1024 bytes if `errno` is `EAGAIN` from before.  The
poller is woken up all the same: bytes left in the pipe leave room for another one, whose
write raises the next edge.
-/

namespace CommonLibrary.Poller

open Foundation Utils

/-- The loop reads until `read` fails, so more fuel than bytes changes nothing. -/
theorem drainPipe_fuel {fuel fuel' unread : Nat} (errno : Errno) (interrupted : List Bool)
    (hfuel : unread < fuel) (hfuel' : unread < fuel') :
    drainPipe fuel unread errno interrupted = drainPipe fuel' unread errno interrupted := by
  induction fuel generalizing fuel' unread errno interrupted with
  | zero => omega
  | succ fuel ih =>
      obtain ⟨fuel', rfl⟩ : ∃ n, fuel' = n + 1 := ⟨fuel' - 1, by omega⟩
      unfold drainPipe
      dsimp only
      by_cases hunread : unread = 0
      · rw [if_pos hunread, if_pos hunread]
      · rw [if_neg hunread, if_neg hunread]
        generalize (if interrupted.headD false then EINTR else errno) = errno'
        split
        · apply ih
          · omega
          · omega
        · rfl

theorem drainPipe_le (fuel unread : Nat) (errno : Errno) (interrupted : List Bool) :
    drainPipe fuel unread errno interrupted ≤ unread := by
  induction fuel generalizing unread errno interrupted with
  | zero => exact le_refl _
  | succ fuel ih =>
      unfold drainPipe
      split
      · exact Nat.zero_le _
      · dsimp only
        generalize (if interrupted.headD false then EINTR else errno) = errno'
        split
        · exact (ih _ _ _).trans (Nat.sub_le _ _)
        · exact Nat.sub_le _ _

theorem drainPipe_lt {capacity unread : Nat} (hcapacity : 0 < capacity)
    (hunread : unread ≤ capacity) (fuel : Nat) (errno : Errno) (interrupted : List Bool) :
    drainPipe (fuel + 1) unread errno interrupted < capacity := by
  unfold drainPipe
  split
  · exact hcapacity
  · next hsome =>
    have hread : unread - 1024 < capacity := by omega
    dsimp only
    generalize (if interrupted.headD false then EINTR else errno) = errno'
    split
    · exact lt_of_le_of_lt (drainPipe_le _ _ _ _) hread
    · exact hread

namespace LoopState

/-- The poller is going to handle the pipe, or nothing waits to be run and the next write
will raise an edge. -/
structure Wakes (capacity : Nat) (st : LoopState) : Prop where
  room : st.pipe.unread ≤ capacity
  wakes : LoopEvent.pipe ∈ st.events ∨ st.pipe.edge = true ∨
    st.pipe.unread < capacity ∧ st.poller.taskList = []

variable {capacity : Nat} {st st' : LoopState}

theorem async_wakes (h : st.Wakes capacity) (first : Bool) :
    (st.async capacity first).Wakes capacity := by
  by_cases hroom : st.pipe.unread < capacity
  · have hpipe : (st.async capacity first).pipe = ⟨st.pipe.unread + 1, true⟩ := if_pos hroom
    constructor
    · rw [hpipe]
      exact hroom
    · rw [hpipe]
      exact .inr (.inl rfl)
  · -- the write fails, but then the pipe is already to be handled
    have hpipe : (st.async capacity first).pipe = st.pipe := if_neg hroom
    constructor
    · rw [hpipe]
      exact h.room
    · rw [hpipe]
      rcases h.wakes with hevent | hedge | ⟨hless, -⟩
      · exact .inl hevent
      · exact .inr (.inl hedge)
      · exact absurd hless hroom

theorem call_wakes (h : st.Wakes capacity) (c : TaskCall) :
    (st.call capacity c).Wakes capacity := by
  cases c with
  | async => exact async_wakes h false
  | asyncFirst => exact async_wakes h true
  | cancel t =>
      unfold call
      dsimp only
      split
      · exact ⟨h.room, h.wakes⟩
      · exact h

theorem onPipeEvent_wakes (hcapacity : 0 < capacity) (hroom : st.pipe.unread ≤ capacity)
    (errno : Errno) (interrupted : List Bool) :
    (st.onPipeEvent errno interrupted).Wakes capacity := by
  have hless : (st.onPipeEvent errno interrupted).pipe.unread < capacity :=
    drainPipe_lt hcapacity hroom _ _ _
  exact ⟨hless.le, .inr (.inr ⟨hless, rfl⟩)⟩

theorem runTask_wakes (h : st.Wakes capacity) (t : TaskId) (cs : List TaskCall) (how : TaskEnd) :
    (st.runTask capacity t cs how).Wakes capacity := by
  unfold runTask
  split
  · exact ⟨h.room, h.wakes⟩
  · have hlog : (st.logRan ⟨t, true⟩).Wakes capacity := ⟨h.room, h.wakes⟩
    have hcalls : ((st.logRan ⟨t, true⟩).calls capacity cs).Wakes capacity :=
      calls_keeps (I := Wakes capacity) (fun _ c hu => call_wakes hu c) cs hlog
    cases how <;> exact ⟨hcalls.room, hcalls.wakes⟩

theorem step_wakes (hcapacity : 0 < capacity) (h : st.Wakes capacity) {a : LoopAction}
    (hstep : st.step capacity a = some st') : st'.Wakes capacity := by
  cases step_cases hstep with
  | call c => exact call_wakes h c
  | runLoop => exact ⟨h.room, h.wakes⟩
  | wait events hwait =>
      refine ⟨h.room, ?_⟩
      by_cases hpipe : LoopEvent.pipe ∈ events
      · exact .inl hpipe
      · rcases h.wakes with hevent | hedge | hempty
        · rw [hwait.1.1] at hevent
          cases hevent
        · exact .inr (.inl (by simp [hedge, hpipe]))
        · exact .inr (.inr hempty)
  | event events hevents =>
      refine ⟨h.room, ?_⟩
      rcases h.wakes with hevent | hrest
      · rw [hevents] at hevent
        exact .inl ((List.mem_cons.1 hevent).resolve_left fun heq => by cases heq)
      · exact .inr hrest
  | pipe events errno interrupted =>
      have hevents : ({ st with events := events } : LoopState).pipe.unread ≤ capacity := h.room
      exact onPipeEvent_wakes hcapacity hevents errno interrupted
  | task t tasks cs how =>
      have hpop : (st.pop tasks).Wakes capacity := ⟨h.room, h.wakes⟩
      exact runTask_wakes hpop t cs how
  | destroy errno interrupted =>
      have hasync : (st.async capacity true).Wakes capacity := async_wakes h true
      have hshutdown : ({ st.async capacity true with destroyed := true } : LoopState).pipe.unread ≤
          capacity := hasync.room
      exact onPipeEvent_wakes hcapacity hshutdown errno interrupted

theorem init_wakes (hcapacity : 0 < capacity) : ({} : LoopState).Wakes capacity :=
  ⟨Nat.zero_le _, .inr (.inr ⟨hcapacity, rfl⟩)⟩

/-- When `RunLoop` is about to call `epoll_wait` with a task to run, the edge of the pipe is
there, and `epoll_wait` returns it. -/
theorem no_lost_wakeup (hcapacity : 0 < capacity) {acts : List LoopAction}
    (hrun : Run (step capacity) (fun _ _ => True) {} acts st) (hwait : st.AboutToWait)
    (htask : st.poller.taskList ≠ []) :
    st.pipe.edge = true ∧ ∃ st', st.step capacity (.wait [.pipe]) = some st' := by
  have hwakes : st.Wakes capacity :=
    hrun.invariant (fun _ _ _ h _ hstep => step_wakes hcapacity h hstep) (init_wakes hcapacity)
  have hedge : st.pipe.edge = true := by
    rcases hwakes.wakes with hevent | hedge | ⟨-, hempty⟩
    · rw [hwait.1.1] at hevent
      cases hevent
    · exact hedge
    · exact absurd hempty htask
  exact ⟨hedge, _, if_pos ⟨hwait, fun _ => hedge, by decide⟩⟩

/-- The pipe holds one byte, so the second of two posts is not written, and `errno` is
`EAGAIN` from before when the loop reads. -/
theorem no_lost_wakeup_full : ∃ st : LoopState,
    st.poller.taskList = [2] ∧ st.pipe.edge = true ∧
      ∃ st', st.step 1 (.wait [.pipe]) = some st' := by
  have h : (exec (step 1) {} [.call .async, .call .async, .runLoop, .wait [.pipe],
      .pipe EAGAIN [], .task [.async] .returns, .task [] .returns]).map (fun st =>
        (st.poller.taskList, decide st.AboutToWait)) = some ([2], true) := by decide +kernel
  obtain ⟨st, hexec, hend⟩ := Option.map_eq_some_iff.1 h
  injection hend with hlist hwait
  exact ⟨st, hlist, no_lost_wakeup (by decide) (Run.of_exec hexec) (of_decide_eq_true hwait)
    (by rw [hlist]; decide)⟩

end LoopState

end CommonLibrary.Poller
