import CommonLibrary.Thread.MonitorProgress
import CommonLibrary.Thread.TaskQueue

/-!
# The task queue with its semaphore

`TaskQueue` with the semaphore as it is.  The accounts of the queue still hold, and when nobody
calls the queue anew, the calls come to an end: no task stays behind while a thread is blocked
in `GetTask`.
-/

namespace CommonLibrary.Thread

open Foundation

namespace QueueAction

def thread : QueueAction → ThreadId
  | add t _ | post t | postExit t _ | getTask t | wait t | take t => t

def source : QueueAction → QueuePc
  | add _ _ | postExit _ _ | getTask _ => .idle
  | post _ => .post
  | wait _ => .wait
  | take _ => .take

def target : QueueAction → QueuePc
  | post _ | postExit _ _ | take _ => .idle
  | add _ _ => .post
  | getTask _ => .wait
  | wait _ => .take

def semOp : QueueAction → Option SemOp
  | post _ => some (.post 1)
  | postExit _ waitingThreadNum => some (.post waitingThreadNum)
  | wait _ => some .wait
  | add _ _ | getTask _ | take _ => none

def begins (a : QueueAction) : Bool := a.source = .idle

end QueueAction

namespace TaskQueue

variable {q q' : TaskQueue} {t : ThreadId} {a : QueueAction}

theorem step_pc (hstep : q.step a = some q') :
    q.pc a.thread = a.source ∧ q'.pc = Function.update q.pc a.thread a.target := by
  cases a with
  | add t first =>
      obtain ⟨hpc, heq⟩ := Option.ite_none_right_eq_some.1 hstep
      cases heq
      exact ⟨hpc, rfl⟩
  | post t =>
      obtain ⟨hpc, heq⟩ := Option.ite_none_right_eq_some.1 hstep
      cases heq
      exact ⟨hpc, rfl⟩
  | postExit t k =>
      obtain ⟨hpc, heq⟩ := Option.ite_none_right_eq_some.1 hstep
      cases heq
      refine ⟨hpc, (Function.update_eq_self_iff.2 ?_).symm⟩
      exact hpc.symm
  | getTask t =>
      obtain ⟨hpc, heq⟩ := Option.ite_none_right_eq_some.1 hstep
      cases heq
      exact ⟨hpc, rfl⟩
  | wait t =>
      obtain ⟨hpc, hwait⟩ := Option.ite_none_right_eq_some.1 hstep
      obtain ⟨sem, -, rfl⟩ := Option.map_eq_some_iff.1 hwait
      exact ⟨hpc, rfl⟩
  | take t =>
      obtain ⟨hpc, heq⟩ := Option.ite_none_right_eq_some.1 hstep
      cases heq
      exact ⟨hpc, rfl⟩

theorem sem_step (hpc : q.pc a.thread = a.source) :
    (q.step a).map sem = a.semOp.elim (some q.sem) fun op => op.run q.sem := by
  cases a with
  | wait t =>
      have hstep : q.step (.wait t) =
          q.sem.wait.map fun sem => { q with sem := sem }.goTo t .take := if_pos hpc
      rw [hstep, Option.map_map]
      exact congrFun Option.map_id _
  | add t first => exact congrArg (Option.map sem) (if_pos hpc)
  | post t => exact congrArg (Option.map sem) (if_pos hpc)
  | postExit t k => exact congrArg (Option.map sem) (if_pos hpc)
  | getTask t => exact congrArg (Option.map sem) (if_pos hpc)
  | take t => exact congrArg (Option.map sem) (if_pos hpc)

/-- The queue as a program that shares its semaphore. -/
def program : SemProgram ThreadId TaskQueue QueueAction where
  step := step
  thread := QueueAction.thread
  sem := sem
  op := fun q a => if q.pc a.thread = a.source then a.semOp else none
  own := by
    intro q q' a hop hstep
    have hpc := (step_pc hstep).1
    have hsem := sem_step hpc
    rw [if_pos hpc] at hop
    rw [hstep, hop] at hsem
    exact Option.some.inj hsem
  call := by
    intro q a op hop
    obtain ⟨hpc, hop⟩ := Option.ite_none_right_eq_some.1 hop
    rw [sem_step hpc, hop]
    rfl
  stable := by
    intro q q' a b op hop hne hstep
    have hsame : q'.pc a.thread = q.pc a.thread := by
      rw [(step_pc hstep).2]
      exact Function.update_of_ne (Ne.symm hne) _ _
    rw [hsame]
    exact hop

/-- The steps that a call takes from here, outside the semaphore. -/
def left : QueuePc → Nat
  | .idle => 0
  | .post => 1
  | .wait => 2
  | .take => 1

theorem weight_step (hstep : q.step a = some q') {threads : Finset ThreadId}
    (hin : a.thread ∈ threads) :
    weight threads left q'.pc + left a.source = weight threads left q.pc + left a.target := by
  obtain ⟨hpc, hpc'⟩ := step_pc hstep
  have hsum := weight_update left q.pc a.target hin
  rw [hpc', ← hpc]
  exact hsum

/-- Only `threads` are in a call of the queue. -/
def Within (threads : Finset ThreadId) (q : TaskQueue) : Prop := ∀ t, t ∉ threads → q.pc t = .idle

theorem Within.mem {threads : Finset ThreadId} (h : q.Within threads)
    (hpc : q.pc a.thread = a.source) (hold : a.begins = false) : a.thread ∈ threads := by
  by_contra hout
  have hidle : a.source = .idle := hpc.symm.trans (h _ hout)
  exact of_decide_eq_false hold hidle

theorem settles (threads : Finset ThreadId) :
    Monitor.Settles program QueueAction.begins threads (Within threads)
      (fun q => weight threads left q.pc) where
  actor := by
    intro q a h hold hcan
    apply h.mem _ hold
    rcases hcan with hop | hstep
    · by_contra hpc
      exact hop (if_neg hpc)
    · obtain ⟨q', hstep⟩ := Option.ne_none_iff_exists'.1 hstep
      exact (step_pc hstep).1
  less := by
    intro q q' a h hold hstep
    have hin := h.mem (step_pc hstep).1 hold
    have hsum := weight_step hstep hin
    refine ⟨fun t ht => ?_, ?_⟩
    · have hne : t ≠ a.thread := fun heq => ht (heq ▸ hin)
      rw [(step_pc hstep).2, Function.update_of_ne hne]
      exact h t ht
    · show weight threads left q'.pc + 1 ≤ weight threads left q.pc
      cases a with
      | post t => exact Nat.le_of_eq hsum
      | wait t =>
          have hless : weight threads left q'.pc + 2 = weight threads left q.pc + 1 := hsum
          omega
      | take t => exact Nat.le_of_eq hsum
      | add _ _ | postExit _ _ | getTask _ => cases hold
  call := by
    intro q q' a h hnew hop hstep
    have hsame : q'.pc = q.pc := by
      obtain ⟨hpc, hpc'⟩ := step_pc hstep
      cases a with
      | postExit t k =>
          rw [hpc']
          exact Function.update_eq_self_iff.2 hpc.symm
      | add t first => exact absurd (ite_self _) hop
      | getTask t => exact absurd (ite_self _) hop
      | post _ | wait _ | take _ => cases hnew
    refine ⟨fun t ht => ?_, ?_⟩
    · rw [hsame]
      exact h t ht
    · rw [hsame]

variable {m : Monitor ThreadId TaskQueue QueueAction}

theorem accounts_idle (h : q.Accounts) (hquiet : ∀ t, q.pc t = .idle ∨ q.pc t = .wait)
    (hzero : q.sem.count = 0) : q.tasks = [] ∧ q.falseReturns = q.exits := by
  obtain ⟨inserted, passed, hpost, htake, hsum⟩ := h.tokens
  have hinserted : inserted = 0 := by
    apply hpost.eq_zero
    intro t ht
    rcases hquiet t with hpc | hpc
    · rw [ht] at hpc; cases hpc
    · rw [ht] at hpc; cases hpc
  have hpassed : passed = 0 := by
    apply htake.eq_zero
    intro t ht
    rcases hquiet t with hpc | hpc
    · rw [ht] at hpc; cases hpc
    · rw [ht] at hpc; cases hpc
  have hlength := h.length
  have hexits := h.exits
  refine ⟨List.length_eq_zero_iff.1 ?_, ?_⟩
  · omega
  · omega

theorem stuck_places (hstuck : Monitor.Stuck program QueueAction.begins m)
    {threads : Finset ThreadId} (hok : Monitor.Ok program threads m) (t : ThreadId) :
    m.pc t = .out ∧ m.base.pc t = .idle ∨
      m.pc t = .asleep (.wait t) ∧ m.base.pc t = .wait ∧ m.base.sem.count = 0 := by
  obtain ⟨hplaces, hcan⟩ := hstuck.settled hok
  have hno : ∀ a : QueueAction, a.begins = false → a.thread = t → m.pc t = .out →
      m.base.pc t = a.source → False := by
    rintro a hold rfl hout hpc
    obtain ⟨hop, hstep⟩ := hcan a hold hout
    have hsem := sem_step hpc
    have hnone : a.semOp = none := (if_pos hpc).symm.trans hop
    have hstep' : m.base.step a = none := hstep
    rw [hstep', hnone] at hsem
    cases hsem
  rcases hplaces t with hout | ⟨a, hasleep, hthread, hop, hcount⟩
  · cases hpc : m.base.pc t with
    | idle => exact .inl ⟨hout, rfl⟩
    | post => exact (hno (.post t) rfl rfl hout hpc).elim
    | wait => exact (hno (.wait t) rfl rfl hout hpc).elim
    | take => exact (hno (.take t) rfl rfl hout hpc).elim
  · obtain ⟨hpc, hsem⟩ := Option.ite_none_right_eq_some.1 hop
    cases a with
    | wait u =>
        obtain rfl : u = t := hthread
        exact .inr ⟨hasleep, hpc, hcount⟩
    | _ => cases hsem

theorem exists_within (h : ∃ threads, q.Within threads) (hstep : q.step a = some q') :
    ∃ threads, q'.Within threads := by
  obtain ⟨threads, h⟩ := h
  refine ⟨insert a.thread threads, fun t ht => ?_⟩
  obtain ⟨hne, hout⟩ := not_or.1 (mt Finset.mem_insert.2 ht)
  rw [(step_pc hstep).2, Function.update_of_ne hne]
  exact h t hout

/-- The accounts hold, whatever the semaphore is made of. -/
theorem base_accounts {m' : Monitor ThreadId TaskQueue QueueAction}
    {acts : List (MonitorAction ThreadId QueueAction)}
    (hrun : Run (Monitor.step program) (Monitor.Lifted PostsFit) m acts m')
    (h : m.base.Accounts) : m'.base.Accounts := by
  obtain ⟨acts', hbase⟩ := Monitor.base_run hrun
  exact hbase.invariant (fun _ _ _ h hfits hstep => step_accounts h hfits hstep) h

/-- Nobody is left behind.  Every task has been returned once or is in the queue.  As long as
nobody calls the queue anew, only so many steps follow, and when nobody can take one, the calls
of `AddTask`, `AddTaskFirst` and `PostExit` have returned, and a call of `GetTask` that has not
is blocked with no task in the queue and no exit token left. -/
theorem calls_settle {acts : List (MonitorAction ThreadId QueueAction)}
    (hrun : Run (Monitor.step program) (Monitor.Lifted PostsFit) { base := {} } acts m) :
    ((m.base.returned ++ m.base.tasks).Perm (List.range m.base.added) ∧
        m.base.falseReturns ≤ m.base.exits) ∧
      ∃ bound, ∀ more m', Run (Monitor.step program)
        (fun m act => Monitor.Lifted PostsFit m act ∧ Monitor.Quiet QueueAction.begins m act)
        m more m' →
      more.length ≤ bound + 3 * more.countP MonitorAction.isSpurious ∧
        (Monitor.Stuck program QueueAction.begins m' → ∀ t, m'.pc t = .out ∧ m'.base.pc t = .idle ∨
          m'.pc t = .asleep (.wait t) ∧ m'.base.tasks = [] ∧
            m'.base.falseReturns = m'.base.exits) := by
  obtain ⟨inMonitor, hok⟩ := Monitor.run_ok hrun ⟨∅, Monitor.init_ok program {}⟩
  obtain ⟨inQueue, hwithin⟩ := Monitor.base_invariant
    (I := fun q : TaskQueue => ∃ threads, q.Within threads) hrun
    (fun _ _ _ h hstep => exists_within h hstep) ⟨∅, fun _ _ => rfl⟩
  have hq := base_accounts hrun init_accounts
  have hok' : Monitor.Ok program (inMonitor ∪ inQueue) m := hok.mono Finset.subset_union_left
  have hwithin' : m.base.Within (inMonitor ∪ inQueue) :=
    fun t ht => hwithin t fun hin => ht (Finset.mem_union_right _ hin)
  refine ⟨⟨hq.perm, hq.exits⟩, Monitor.stepsLeft QueueAction.begins (inMonitor ∪ inQueue)
    (fun q => weight (inMonitor ∪ inQueue) left q.pc) m, fun more m' hmore => ?_⟩
  obtain ⟨⟨hafter, -⟩, hlength⟩ := Monitor.quiet_run_length (hmore.mono fun _ _ h => h.2) hok'
    (settles _) hwithin'
  refine ⟨hlength, fun hstuck t => ?_⟩
  have hplaces := stuck_places hstuck hafter
  rcases hplaces t with hidle | ⟨hasleep, -, hzero⟩
  · exact .inl hidle
  · have hq' := base_accounts (hmore.mono fun _ _ h => h.1) hq
    have hempty := accounts_idle hq' (fun u => (hplaces u).imp And.right fun h => h.2.1) hzero
    exact .inr ⟨hasleep, hempty⟩

theorem stuck_of_idle (hpc : ∀ t, m.pc t = .out) (hidle : ∀ t, m.base.pc t = .idle) :
    Monitor.Stuck program QueueAction.begins m := by
  refine Monitor.stuck_of_settled (fun t => .inl (hpc t)) fun a hfresh _ => ?_
  have hne : m.base.pc a.thread ≠ a.source := by
    intro heq
    have hsource : a.source = .idle := heq.symm.trans (hidle a.thread)
    exact of_decide_eq_false hfresh hsource
  refine ⟨if_neg hne, ?_⟩
  cases hstep : m.base.step a with
  | none => exact hstep
  | some q => exact absurd (step_pc hstep).1 hne

/-- Thread 1 is blocked in `GetTask` when thread 2 adds a task and posts.  It is notified and
returns the task. -/
theorem calls_settle_added : ∃ m m' : Monitor ThreadId TaskQueue QueueAction,
    m.pc 1 = .asleep (.wait 1) ∧ m.pc 2 = .notify 1 ∧ m.base.tasks = [0] ∧
      m.base.falseReturns ≤ m.base.exits ∧ Monitor.Stuck program QueueAction.begins m' ∧
      m'.base.returned = [0] ∧
      (m'.pc 1 = .out ∧ m'.base.pc 1 = .idle ∨ m'.pc 1 = .asleep (.wait 1) ∧
        m'.base.tasks = [] ∧ m'.base.falseReturns = m'.base.exits) := by
  have hruns : ∃ m m' : Monitor ThreadId TaskQueue QueueAction,
      Run (Monitor.step program) (Monitor.Lifted PostsFit) { base := {} }
        [.own (.getTask 1), .call (.wait 1), .lock 1, .count 1, .own (.add 2 false),
          .call (.post 2), .lock 2, .count 2] m ∧
      (m.pc 1 = .asleep (.wait 1) ∧ m.pc 2 = .notify 1 ∧ m.base.tasks = [0]) ∧
      Run (Monitor.step program) (fun m act => Monitor.Lifted PostsFit m act ∧
          Monitor.Quiet QueueAction.begins m act) m
        [.notify 2 (some 1), .unlock 2, .lock 1, .count 1, .unlock 1, .own (.take 1)] m' ∧
      Monitor.Stuck program QueueAction.begins m' ∧ m'.base.returned = [0] := by
    refine ⟨_, _, .cons trivial rfl <| .cons trivial rfl <| .cons trivial rfl <|
      .cons (fun a op h => by cases h; trivial) rfl <| .cons trivial rfl <| .cons trivial rfl <|
      .cons trivial rfl <|
      .cons (fun a op h => by cases h; exact (by decide : 0 + 1 < 2 ^ 32)) rfl <| .nil _,
      ⟨rfl, rfl, rfl⟩, .cons ⟨trivial, trivial⟩ rfl <| .cons ⟨trivial, trivial⟩ rfl <|
      .cons ⟨trivial, trivial⟩ rfl <|
      .cons ⟨fun a op h => by cases h; trivial, trivial⟩ rfl <|
      .cons ⟨trivial, trivial⟩ rfl <| .cons ⟨trivial, rfl⟩ rfl <| .nil _,
      stuck_of_idle (fun t => ?_) fun t => ?_, rfl⟩
    all_goals
      by_cases h1 : t = 1
      · rw [h1]
        rfl
      by_cases h2 : t = 2
      · rw [h2]
        rfl
      simp [Monitor.goTo, Monitor.wake, goTo, take, add, Function.update, program,
        QueueAction.thread, h1, h2]
  obtain ⟨m, m', hrun, ⟨hasleep, hnotify, htasks⟩, hmore, hstuck, hreturned⟩ := hruns
  obtain ⟨⟨-, hfalse⟩, bound, hbound⟩ := calls_settle hrun
  exact ⟨m, m', hasleep, hnotify, htasks, hfalse, hstuck, hreturned,
    (hbound _ m' hmore).2 hstuck 1⟩

end TaskQueue

end CommonLibrary.Thread
