import CommonLibrary.Foundation.Run
import CommonLibrary.Poller.EventPoller
import Mathlib.Algebra.Group.Nat.Defs
import Mathlib.Data.List.Induction
import Mathlib.Data.List.Nodup
import Mathlib.Data.List.TakeWhile
import Mathlib.Tactic.Common

/-!
# Delay tasks

`DoDelayTask` registers a task through the task list, and `get_min_delay_ms` runs the
tasks that are due at the top of every turn of `RunLoop`.  What a task does when it
runs is given by a script; a delay task is identified by the order of registration.
Deadlines are `uint64_t`, so every sum is taken modulo `2 ^ 64`.
-/

namespace CommonLibrary.Poller

open Foundation

abbrev DelayId := Nat

/-- A task of `task_list_`. -/
inductive PollerTask where
  /-- a task of the user -/
  | user
  /-- the task `DoDelayTask` leaves: `delay_tasks_.emplace(timeline, ret)` -/
  | emplace (timeline : Nat) (d : DelayId)
  deriving DecidableEq

/-- What user code may call on the poller thread, wherever it runs. -/
inductive Call where
  | async
  | asyncFirst
  | doDelayTask (delayMs now : Nat)
  | cancel (d : DelayId)

inductive Outcome where
  | ret (nextDelay : Nat)
  | throws
  deriving DecidableEq

structure TaskRun where
  calls : List Call
  outcome : Outcome

structure Fired where
  deadline : Nat
  id : DelayId
  outcome : Outcome
  deriving DecidableEq

structure Pass where
  now : Nat
  before : List (Nat × DelayId)
  fired : List Fired
  after : List (Nat × DelayId)
  /-- the content of `delay_tasks_` that the final swap moved into the dying copy -/
  dropped : List (Nat × DelayId)

structure DelayState where
  poller : EventPoller PollerTask Unit DelayId := {}
  /-- the tasks of `swap_list` that `on_pipe_event` has still to run -/
  swapList : List PollerTask := []
  cancelled : DelayId → Bool := fun _ => false
  nextDelay : DelayId := 0
  /-- the tasks that returned 0 or threw -/
  finished : DelayId → Bool := fun _ => false
  /-- history: the clock of `DoDelayTask` plus its `delay_ms` -/
  askedFor : DelayId → Nat := fun _ => 0
  /-- history: the calls of `flush_delay_tasks` -/
  passes : List Pass := []

namespace DelayState

def async (st : DelayState) (task : PollerTask) (first : Bool) : DelayState :=
  { st with poller := st.poller.async task first }

/-- `DoDelayTask` at a clock reading `now`. -/
def doDelayTask (st : DelayState) (delayMs now : Nat) : DelayState :=
  { st.async (.emplace ((delayMs + now) % 2 ^ 64) st.nextDelay) true with
    nextDelay := st.nextDelay + 1
    askedFor := Function.update st.askedFor st.nextDelay (delayMs + now) }

def call (st : DelayState) : Call → DelayState
  | .async => st.async .user false
  | .asyncFirst => st.async .user true
  | .doDelayTask delayMs now => st.doDelayTask delayMs now
  | .cancel d =>
      if d < st.nextDelay then { st with cancelled := Function.update st.cancelled d true }
      else st

def calls (st : DelayState) (cs : List Call) : DelayState := cs.foldl call st

def finish (st : DelayState) (d : DelayId) : DelayState :=
  { st with finished := Function.update st.finished d true }

/-- `(*(it->second))()`: a cancelled task returns 0 at once, another does what the
script says.  A script that is used up lets the tasks return 0. -/
def invoke (st : DelayState) (d : DelayId) (script : List TaskRun) :
    DelayState × Outcome × List TaskRun :=
  if st.cancelled d then (st, .ret 0, script)
  else
    match script with
    | [] => (st, .ret 0, [])
    | run :: script => (st.calls run.calls, run.outcome, script)

structure FlushOut where
  state : DelayState
  copy : List (Nat × DelayId)
  fired : List Fired

/-- The `for` loop of `flush_delay_tasks`: `passed` and `todo` are the entries of
`delay_tasks_copy` before `it` and from `it` on. -/
def flushLoop (now : Nat) : Nat → DelayState → List (Nat × DelayId) → List (Nat × DelayId) →
    List TaskRun → FlushOut
  | 0, st, passed, todo, _ => ⟨st, passed ++ todo, []⟩
  | _ + 1, st, passed, [], _ => ⟨st, passed, []⟩
  | fuel + 1, st, passed, (deadline, d) :: todo, script =>
      if deadline ≤ now then
        let (st, outcome, script) := st.invoke d script
        let out :=
          match outcome with
          | .throws => flushLoop now fuel (st.finish d) passed todo script
          | .ret nextDelay =>
              if nextDelay > 0 then
                let key := (nextDelay + now) % 2 ^ 64
                if key < deadline then
                  flushLoop now fuel st (Poller.emplace key d passed) todo script
                else flushLoop now fuel st passed (Poller.emplace key d todo) script
              else flushLoop now fuel (st.finish d) passed todo script
        { out with fired := ⟨deadline, d, outcome⟩ :: out.fired }
      else ⟨st, passed ++ (deadline, d) :: todo, []⟩

/-- `flush_delay_tasks`, and the delay it returns.  Every round of the loop takes an
entry away or uses up an item of the script. -/
def flushDelayTasks (st : DelayState) (now : Nat) (script : List TaskRun) : DelayState × Nat :=
  let copy := st.poller.delayTasks
  let out := flushLoop now (copy.length + script.length)
    { st with poller := { st.poller with delayTasks := [] } } [] copy script
  let pass : Pass := ⟨now, copy, out.fired, out.copy, out.state.poller.delayTasks⟩
  ({ out.state with
      poller := { out.state.poller with delayTasks := out.copy }
      passes := out.state.passes ++ [pass] },
    match out.copy with
    | [] => 0
    | e :: _ => (e.1 + 2 ^ 64 - now) % 2 ^ 64)

def getMinDelayMs (st : DelayState) (now : Nat) (script : List TaskRun) : DelayState × Nat :=
  match st.poller.delayTasks with
  | [] => (st, 0)
  | e :: _ => if e.1 > now then (st, e.1 - now) else st.flushDelayTasks now script

end DelayState

inductive DelayAction where
  /-- user code runs in an event callback, or before `RunLoop` -/
  | call (c : Call)
  /-- `on_pipe_event` swaps the task list out -/
  | swap
  /-- it runs the next task; `cs` is what a task of the user does -/
  | task (cs : List Call)
  /-- `RunLoop` asks for the next delay -/
  | minDelay (now : Nat) (script : List TaskRun)

namespace DelayState

/-- One step of the poller thread; `swap` and `minDelay` cannot happen while
`on_pipe_event` is going through a list. -/
def step (st : DelayState) : DelayAction → Option DelayState
  | .call c => some (st.call c)
  | .swap =>
      if st.swapList = [] then
        some { st with swapList := st.poller.taskList, poller := { st.poller with taskList := [] } }
      else none
  | .task cs =>
      match st.swapList with
      | [] => none
      | .user :: tasks => some ({ st with swapList := tasks }.calls cs)
      | .emplace timeline d :: tasks =>
          some { st with
            swapList := tasks
            poller := { st.poller with
              delayTasks := Poller.emplace timeline d st.poller.delayTasks } }
  | .minDelay now script =>
      if st.swapList = [] then some (st.getMinDelayMs now script).1 else none

/-- The deadline a call asks for stays below `2 ^ 64`. -/
def CallSmall : Call → Prop
  | .doDelayTask delayMs now => delayMs + now < 2 ^ 64
  | _ => True

def RunSmall (now : Nat) (run : TaskRun) : Prop :=
  (∀ c ∈ run.calls, CallSmall c) ∧ ∀ nextDelay, run.outcome = .ret nextDelay →
    nextDelay + now < 2 ^ 64

def Admissible (_ : DelayState) : DelayAction → Prop
  | .call c => CallSmall c
  | .swap => True
  | .task cs => ∀ c ∈ cs, CallSmall c
  | .minDelay now script => ∀ run ∈ script, RunSmall now run

end DelayState

/-! ## The deadlines that are asked for -/

/-- The deadline at which a run at the clock reading `now` asks for the next one. -/
def Outcome.next (now : Nat) : Outcome → Option Nat
  | .ret d => if 0 < d then some (now + d) else none
  | .throws => none

/-- The deadline of the task `d` after the flush, `due` being its deadline before. -/
def Pass.next (pass : Pass) (d : DelayId) (due : Option Nat) : Option Nat :=
  match pass.fired.find? fun f => f.id = d with
  | some f => f.outcome.next pass.now
  | none => due

namespace DelayState

/-- The deadline of the task `d` after the flushes: what `DoDelayTask` was asked for, until a
run of the task asks for another or for none. -/
def dueAfter (askedFor : DelayId → Nat) (passes : List Pass) (d : DelayId) : Option Nat :=
  passes.foldl (fun due pass => pass.next d due) (some (askedFor d))

def dueAt (st : DelayState) (d : DelayId) : Option Nat := dueAfter st.askedFor st.passes d

/-! ## Where the tasks are held -/

def insertionOf : PollerTask → Option DelayId
  | .user => none
  | .emplace _ d => some d

def pending (st : DelayState) : List DelayId :=
  (st.poller.taskList ++ st.swapList).filterMap insertionOf

def entryOf : PollerTask → Option (Nat × DelayId)
  | .user => none
  | .emplace timeline d => some (timeline, d)

def insertions (st : DelayState) : List (Nat × DelayId) :=
  (st.poller.taskList ++ st.swapList).filterMap entryOf

/-- The tasks under the keys they are held by, or are to be inserted under. -/
def entries (st : DelayState) : List (Nat × DelayId) := st.insertions ++ st.poller.delayTasks

theorem insertions_ids (st : DelayState) : st.insertions.map Prod.snd = st.pending := by
  have hsnd : (fun t => (entryOf t).map Prod.snd) = insertionOf := by
    funext t
    cases t <;> rfl
  rw [insertions, pending, List.map_filterMap, hsnd]

theorem entries_ids (st : DelayState) :
    st.entries.map Prod.snd = st.pending ++ st.poller.delayTasks.map Prod.snd := by
  rw [entries, List.map_append, insertions_ids]

/-- `ids` lists every registered task that is not finished once, and nothing else. -/
structure Holds (st : DelayState) (ids : List DelayId) : Prop where
  nodup : ids.Nodup
  mem : ∀ d, d ∈ ids ↔ d < st.nextDelay ∧ st.finished d = false
  finished : ∀ d, st.finished d = true → d < st.nextDelay

theorem Holds.perm {st : DelayState} {ids ids' : List DelayId} (h : st.Holds ids)
    (hperm : ids.Perm ids') : st.Holds ids' where
  nodup := hperm.nodup_iff.1 h.nodup
  mem := fun d => by rw [← hperm.mem_iff]; exact h.mem d
  finished := h.finished

theorem Holds.finish {st : DelayState} {d : DelayId} {ids : List DelayId}
    (h : st.Holds (d :: ids)) : (st.finish d).Holds ids where
  nodup := (List.nodup_cons.1 h.nodup).2
  mem := by
    intro d'
    have hmem := h.mem d'
    have hnot := (List.nodup_cons.1 h.nodup).1
    by_cases heq : d' = d
    · subst heq
      simp [DelayState.finish, hnot]
    · simpa [DelayState.finish, heq] using hmem
  finished := by
    intro d' hd'
    by_cases heq : d' = d
    · subst heq
      exact ((h.mem d').1 (by simp)).1
    · exact h.finished d' (by simpa [DelayState.finish, heq] using hd')

theorem Holds.doDelayTask {st : DelayState} {ids : List DelayId} (h : st.Holds ids)
    (delayMs now : Nat) : (st.doDelayTask delayMs now).Holds (st.nextDelay :: ids) where
  nodup := List.nodup_cons.2 ⟨fun hin => lt_irrefl _ ((h.mem _).1 hin).1, h.nodup⟩
  mem := by
    intro d
    have hmem := h.mem d
    have hnew : st.finished st.nextDelay = false := by
      by_contra hfin
      exact absurd (h.finished _ (by simpa using hfin)) (lt_irrefl _)
    rw [List.mem_cons, hmem]
    show _ ↔ d < st.nextDelay + 1 ∧ st.finished d = false
    constructor
    · rintro (rfl | hd)
      · exact ⟨Nat.lt_succ_self _, hnew⟩
      · exact ⟨Nat.lt_succ_of_lt hd.1, hd.2⟩
    · rintro ⟨hlt, hfin⟩
      rcases Nat.lt_succ_iff_lt_or_eq.1 hlt with hlt | rfl
      · exact .inr ⟨hlt, hfin⟩
      · exact .inl rfl
  finished := fun d hd => Nat.lt_succ_of_lt (h.finished d hd)

theorem call_holds {st : DelayState} {ids : List DelayId} (h : st.Holds (st.pending ++ ids))
    (c : Call) : (st.call c).Holds ((st.call c).pending ++ ids) := by
  cases c with
  | async =>
      have hpend : (st.call .async).pending = st.pending := by
        simp [call, DelayState.async, EventPoller.async, pending, insertionOf,
          List.filterMap_cons]
      rw [hpend]
      exact ⟨h.nodup, h.mem, h.finished⟩
  | asyncFirst =>
      have hpend : (st.call .asyncFirst).pending = st.pending := by
        simp [call, DelayState.async, EventPoller.async, pending, insertionOf,
          List.filterMap_cons]
      rw [hpend]
      exact ⟨h.nodup, h.mem, h.finished⟩
  | doDelayTask delayMs now =>
      have hpend : (st.call (.doDelayTask delayMs now)).pending =
          st.nextDelay :: st.pending := by
        simp [call, DelayState.doDelayTask, DelayState.async, EventPoller.async, pending,
          insertionOf]
      rw [hpend, List.cons_append]
      exact h.doDelayTask delayMs now
  | cancel d =>
      unfold call
      dsimp only
      split
      · exact ⟨h.nodup, h.mem, h.finished⟩
      · exact h

@[simp] theorem call_delayTasks (st : DelayState) (c : Call) :
    (st.call c).poller.delayTasks = st.poller.delayTasks := by
  cases c with
  | cancel d => unfold call; dsimp only; split <;> rfl
  | _ => rfl

@[simp] theorem call_passes (st : DelayState) (c : Call) : (st.call c).passes = st.passes := by
  cases c with
  | cancel d => unfold call; dsimp only; split <;> rfl
  | _ => rfl

theorem calls_holds (cs : List Call) {st : DelayState} {ids : List DelayId}
    (h : st.Holds (st.pending ++ ids)) :
    (st.calls cs).Holds ((st.calls cs).pending ++ ids) := by
  induction cs generalizing st with
  | nil => exact h
  | cons c cs ih => exact ih (call_holds h c)

@[simp] theorem calls_delayTasks (cs : List Call) (st : DelayState) :
    (st.calls cs).poller.delayTasks = st.poller.delayTasks := by
  induction cs generalizing st with
  | nil => rfl
  | cons c cs ih => exact (ih _).trans (call_delayTasks st c)

@[simp] theorem calls_passes (cs : List Call) (st : DelayState) :
    (st.calls cs).passes = st.passes := by
  induction cs generalizing st with
  | nil => rfl
  | cons c cs ih => exact (ih _).trans (call_passes st c)

@[simp] theorem call_finished (st : DelayState) (c : Call) :
    (st.call c).finished = st.finished := by
  cases c with
  | cancel d => unfold call; dsimp only; split <;> rfl
  | _ => rfl

@[simp] theorem calls_finished (cs : List Call) (st : DelayState) :
    (st.calls cs).finished = st.finished := by
  induction cs generalizing st with
  | nil => rfl
  | cons c cs ih => exact (ih _).trans (call_finished st c)

/-- What the calls of user code and the end of a task keep, `flush_delay_tasks` keeps while it
runs the tasks. -/
structure Kept (P : Call → Prop) (I : DelayState → Prop) : Prop where
  call : ∀ st c, P c → I st → I (st.call c)
  finish : ∀ st d, I st → I (st.finish d)

variable {P : Call → Prop} {I : DelayState → Prop}

theorem Kept.calls (hkept : Kept P I) {st : DelayState} (hst : I st) {cs : List Call}
    (hcs : ∀ c ∈ cs, P c) : I (st.calls cs) := by
  induction cs generalizing st with
  | nil => exact hst
  | cons c cs ih =>
      obtain ⟨hc, hrest⟩ := List.forall_mem_cons.1 hcs
      exact ih (hkept.call st c hc hst) hrest

theorem Kept.invoke (hkept : Kept P I) {st : DelayState} (hst : I st) (d : DelayId)
    {script : List TaskRun} (hscript : ∀ run ∈ script, ∀ c ∈ run.calls, P c) :
    I (st.invoke d script).1 ∧ ∀ run ∈ (st.invoke d script).2.2, ∀ c ∈ run.calls, P c := by
  unfold DelayState.invoke
  split
  · exact ⟨hst, hscript⟩
  · cases script with
    | nil => exact ⟨hst, hscript⟩
    | cons run script =>
        obtain ⟨hrun, hrest⟩ := List.forall_mem_cons.1 hscript
        exact ⟨hkept.calls hst hrun, hrest⟩

theorem Kept.flushLoop (hkept : Kept P I) (now fuel : Nat) {st : DelayState} (hst : I st)
    (passed todo : List (Nat × DelayId)) {script : List TaskRun}
    (hscript : ∀ run ∈ script, ∀ c ∈ run.calls, P c) :
    I (flushLoop now fuel st passed todo script).state := by
  induction fuel generalizing st passed todo script with
  | zero => exact hst
  | succ fuel ih =>
      cases todo with
      | nil => exact hst
      | cons e todo =>
          obtain ⟨deadline, d⟩ := e
          rw [DelayState.flushLoop]
          split
          · obtain ⟨hinvoke, hrest⟩ := hkept.invoke hst d hscript
            generalize st.invoke d script = res at hinvoke hrest
            obtain ⟨st', outcome, script'⟩ := res
            have hfinish := hkept.finish st' d hinvoke
            cases outcome with
            | throws => exact ih hfinish passed todo hrest
            | ret n =>
                dsimp only
                split
                · split
                  · exact ih hinvoke _ todo hrest
                  · exact ih hinvoke passed _ hrest
                · exact ih hfinish passed todo hrest
          · exact hst

/-! ## New tasks -/

/-- Since `st`, tasks may have been registered, each under the deadline it asks for. -/
structure Later (st st' : DelayState) : Prop where
  nextDelay : st.nextDelay ≤ st'.nextDelay
  askedFor : ∀ d < st.nextDelay, st'.askedFor d = st.askedFor d
  entries : ∀ e ∈ st'.entries, e ∈ st.entries ∨
    (st.nextDelay ≤ e.2 ∧ e.2 < st'.nextDelay ∧ st'.askedFor e.2 = e.1)

theorem Later.of_subset {st st' : DelayState} (hnext : st'.nextDelay = st.nextDelay)
    (hasked : st'.askedFor = st.askedFor) (hentries : ∀ e ∈ st'.entries, e ∈ st.entries) :
    Later st st' :=
  ⟨hnext.ge, fun _ _ => by rw [hasked], fun e he => .inl (hentries e he)⟩

theorem Later.refl (st : DelayState) : Later st st := .of_subset rfl rfl fun _ => id

theorem Later.trans {st st' st'' : DelayState} (h : Later st st') (h' : Later st' st'') :
    Later st st'' where
  nextDelay := h.nextDelay.trans h'.nextDelay
  askedFor := fun d hd =>
    (h'.askedFor d (lt_of_lt_of_le hd h.nextDelay)).trans (h.askedFor d hd)
  entries := by
    intro e he
    rcases h'.entries e he with hin | ⟨hle, hlt, hasked⟩
    · rcases h.entries e hin with hin | ⟨hle, hlt, hasked⟩
      · exact .inl hin
      · exact .inr ⟨hle, lt_of_lt_of_le hlt h'.nextDelay, (h'.askedFor _ hlt).trans hasked⟩
    · exact .inr ⟨h.nextDelay.trans hle, hlt, hasked⟩

theorem call_later (st : DelayState) {c : Call} (hc : CallSmall c) : Later st (st.call c) := by
  cases c with
  | async | asyncFirst =>
      refine .of_subset rfl rfl fun e => ?_
      simp [call, DelayState.async, EventPoller.async, entries, insertions, entryOf,
        List.filterMap_cons]
  | cancel d =>
      unfold call
      dsimp only
      split <;> exact .of_subset rfl rfl fun _ => id
  | doDelayTask delayMs now =>
      have hlt : delayMs + now < 2 ^ 64 := hc
      have hentries : (st.call (.doDelayTask delayMs now)).entries =
          (delayMs + now, st.nextDelay) :: st.entries := by
        simpa [call, DelayState.doDelayTask, DelayState.async, EventPoller.async, entries,
          insertions, entryOf] using hlt
      refine ⟨Nat.le_succ _, fun d hd => Function.update_of_ne (Nat.ne_of_lt hd) _ _, ?_⟩
      rw [hentries]
      intro e he
      rcases List.mem_cons.1 he with rfl | he
      · exact .inr ⟨Nat.le_refl _, Nat.lt_succ_self _, Function.update_self _ _ _⟩
      · exact .inl he

theorem later_kept (st : DelayState) : Kept CallSmall (Later st) where
  call := fun st' _ hc h => h.trans (call_later st' hc)
  finish := fun _ _ h => ⟨h.nextDelay, h.askedFor, h.entries⟩

/-! ## The multimap -/

def Ordered (m : List (Nat × DelayId)) : Prop := m.Pairwise fun a b => a.1 ≤ b.1

/-- The entries that are due come first. -/
def due (now : Nat) (m : List (Nat × DelayId)) : List (Nat × DelayId) :=
  m.takeWhile fun e => e.1 ≤ now

theorem mem_due {now : Nat} {m : List (Nat × DelayId)} (hord : Ordered m) {e : Nat × DelayId}
    (he : e ∈ m) (hdue : e.1 ≤ now) : e ∈ due now m := by
  induction m with
  | nil => cases he
  | cons e' m ih =>
      obtain ⟨hhead, htail⟩ := List.pairwise_cons.1 hord
      have hdue' : e'.1 ≤ now := by
        rcases List.mem_cons.1 he with rfl | he
        · exact hdue
        · exact (hhead e he).trans hdue
      have hcons : due now (e' :: m) = e' :: due now m := by simp [due, hdue']
      rw [hcons]
      rcases List.mem_cons.1 he with rfl | he
      · exact List.mem_cons_self
      · exact List.mem_cons_of_mem _ (ih htail he)

theorem emplace_perm (key : Nat) (d : DelayId) (m : List (Nat × DelayId)) :
    (Poller.emplace key d m).Perm ((key, d) :: m) :=
  List.perm_orderedInsert _ _ _

theorem emplace_ordered {m : List (Nat × DelayId)} (h : Ordered m) (key : Nat)
    (d : DelayId) : Ordered (Poller.emplace key d m) := by
  induction m with
  | nil => exact List.pairwise_singleton _ _
  | cons e m ih =>
      obtain ⟨hhead, htail⟩ := List.pairwise_cons.1 h
      unfold Poller.emplace
      rw [List.orderedInsert_cons]
      split
      · next hlt =>
        refine List.pairwise_cons.2 ⟨fun e' he' => ?_, h⟩
        rcases List.mem_cons.1 he' with rfl | he'
        · exact le_of_lt hlt
        · exact le_of_lt (lt_of_lt_of_le hlt (hhead e' he'))
      · next hge =>
        refine List.pairwise_cons.2 ⟨fun e' he' => ?_, ih htail⟩
        rcases List.mem_cons.1 ((emplace_perm key d m).mem_iff.1 he') with rfl | he'
        · exact Nat.le_of_not_lt hge
        · exact hhead e' he'

theorem due_emplace {key now : Nat} (hkey : now < key) (d : DelayId)
    (m : List (Nat × DelayId)) : due now (Poller.emplace key d m) = due now m := by
  induction m with
  | nil => simp [due, Poller.emplace, List.orderedInsert, hkey]
  | cons e m ih =>
      unfold Poller.emplace
      rw [List.orderedInsert_cons]
      split
      · next hlt =>
        have he : now < e.1 := lt_trans hkey hlt
        simp [due, hkey, he]
      · by_cases he : e.1 ≤ now
        · simpa [due, he, Poller.emplace] using ih
        · simp [due, he]

/-! ## One flush -/

def RenewsSmall (now : Nat) (script : List TaskRun) : Prop :=
  ∀ run ∈ script, ∀ n, run.outcome = .ret n → n + now < 2 ^ 64

theorem invoke_spec (st : DelayState) {now : Nat} {script : List TaskRun} (d : DelayId)
    (hscript : RenewsSmall now script) :
    ∃ cs, (st.invoke d script).1 = st.calls cs ∧
      (∀ n, (st.invoke d script).2.1 = .ret n → 0 < n → n + now < 2 ^ 64) ∧
      RenewsSmall now (st.invoke d script).2.2 := by
  unfold invoke
  split
  · refine ⟨[], rfl, fun n hn hpos => ?_, hscript⟩
    cases hn
    omega
  · cases script with
    | nil =>
        refine ⟨[], rfl, fun n hn hpos => ?_, hscript⟩
        cases hn
        omega
    | cons run script =>
        obtain ⟨hrun, hrest⟩ := List.forall_mem_cons.1 hscript
        exact ⟨run.calls, rfl, fun n hn _ => hrun n hn, hrest⟩

/-- What the loop of `flush_delay_tasks` has done when it ends. -/
structure LoopSpec (now : Nat) (st : DelayState) (todo : List (Nat × DelayId))
    (out : FlushOut) : Prop where
  untouched : out.state.poller.delayTasks = st.poller.delayTasks
  passes : out.state.passes = st.passes
  ordered : Ordered out.copy
  holds : st.Holds (st.pending ++ todo.map Prod.snd) →
    out.state.Holds (out.state.pending ++ out.copy.map Prod.snd)
  fired : out.fired.map (fun f => (f.deadline, f.id)) = due now todo
  kept : ∀ e ∈ todo, now < e.1 → e ∈ out.copy
  renewed : ∀ f ∈ out.fired, ∀ n, f.outcome = .ret n → 0 < n → (n + now, f.id) ∈ out.copy
  notDue : ∀ e ∈ out.copy, now < e.1
  origin : ∀ e ∈ out.copy, e ∈ todo ∨ ∃ f ∈ out.fired, f.id = e.2 ∧ f.outcome.next now = some e.1
  finished : ∀ d, out.state.finished d = true → st.finished d = true ∨
    ∃ f ∈ out.fired, f.id = d ∧ f.outcome.next now = none

theorem loopSpec_stop {now : Nat} {st : DelayState} {todo : List (Nat × DelayId)}
    (hord : Ordered todo) (hdue : due now todo = []) : LoopSpec now st todo ⟨st, todo, []⟩ where
  untouched := rfl
  passes := rfl
  ordered := hord
  holds := id
  fired := hdue.symm
  kept := fun _ he _ => he
  renewed := fun f hf => by cases hf
  notDue := by
    cases todo with
    | nil => simp
    | cons e todo =>
        have hhead : now < e.1 := by
          by_contra hle
          simp [due, Nat.le_of_not_lt hle] at hdue
        intro e' he'
        rcases List.mem_cons.1 he' with rfl | he'
        · exact hhead
        · exact lt_of_lt_of_le hhead ((List.pairwise_cons.1 hord).1 e' he')
  origin := fun _ he => .inl he
  finished := fun _ hd => .inl hd

/-- One round of the loop: it ran the task `d`, which left `st'` and the entries `todo'`. -/
theorem LoopSpec.cons {now deadline : Nat} {d : DelayId} {outcome : Outcome}
    {st st' : DelayState} {todo todo' : List (Nat × DelayId)} {out : FlushOut}
    (h : LoopSpec now st' todo' out) (hdeadline : deadline ≤ now)
    (huntouched : st'.poller.delayTasks = st.poller.delayTasks)
    (hpasses : st'.passes = st.passes) (hdue : due now todo' = due now todo)
    (hkept : ∀ e ∈ todo, e ∈ todo')
    (hholds : st.Holds (st.pending ++ ((deadline, d) :: todo).map Prod.snd) →
      st'.Holds (st'.pending ++ todo'.map Prod.snd))
    (hrenewed : ∀ n, outcome = .ret n → 0 < n → (n + now, d) ∈ todo')
    (horigin : ∀ e ∈ todo', e ∈ todo ∨ e.2 = d ∧ outcome.next now = some e.1)
    (hfinished : ∀ d', st'.finished d' = true → st.finished d' = true ∨
      d' = d ∧ outcome.next now = none) :
    LoopSpec now st ((deadline, d) :: todo)
      { out with fired := ⟨deadline, d, outcome⟩ :: out.fired } where
  untouched := h.untouched.trans huntouched
  passes := h.passes.trans hpasses
  ordered := h.ordered
  holds := fun hst => h.holds (hholds hst)
  fired := by
    rw [List.map_cons, h.fired, hdue]
    simp [due, hdeadline]
  kept := by
    intro e he hlate
    rcases List.mem_cons.1 he with rfl | he
    · exact absurd hlate (Nat.not_lt_of_le hdeadline)
    · exact h.kept e (hkept e he) hlate
  renewed := by
    intro f hf n hn hpos
    rcases List.mem_cons.1 hf with rfl | hf
    · exact h.kept _ (hrenewed n hn hpos) (by show now < n + now; omega)
    · exact h.renewed f hf n hn hpos
  notDue := h.notDue
  origin := by
    intro e he
    rcases h.origin e he with hin | ⟨f, hf, hid, hnext⟩
    · rcases horigin e hin with hin | ⟨hid, hnext⟩
      · exact .inl (List.mem_cons_of_mem _ hin)
      · exact .inr ⟨_, List.mem_cons_self, hid.symm, hnext⟩
    · exact .inr ⟨f, List.mem_cons_of_mem _ hf, hid, hnext⟩
  finished := by
    intro d' hd'
    rcases h.finished d' hd' with hfin | ⟨f, hf, hid, hnext⟩
    · rcases hfinished d' hfin with hfin | ⟨hid, hnext⟩
      · exact .inl hfin
      · exact .inr ⟨_, List.mem_cons_self, hid.symm, hnext⟩
    · exact .inr ⟨f, List.mem_cons_of_mem _ hf, hid, hnext⟩

theorem flushLoop_spec {now : Nat} (fuel : Nat) {st : DelayState}
    {todo : List (Nat × DelayId)} {script : List TaskRun} (hord : Ordered todo)
    (hscript : RenewsSmall now script) (hfuel : (due now todo).length ≤ fuel) :
    LoopSpec now st todo (flushLoop now fuel st [] todo script) := by
  induction fuel generalizing st todo script with
  | zero => exact loopSpec_stop hord (List.length_eq_zero_iff.1 (by omega))
  | succ fuel ih =>
      cases todo with
      | nil => exact loopSpec_stop hord rfl
      | cons e todo =>
          obtain ⟨deadline, d⟩ := e
          obtain ⟨hhead, htail⟩ := List.pairwise_cons.1 hord
          rw [flushLoop]
          by_cases hdue : deadline ≤ now
          · rw [if_pos hdue]
            have hcons : due now ((deadline, d) :: todo) = (deadline, d) :: due now todo := by
              simp [due, hdue]
            rw [hcons, List.length_cons] at hfuel
            obtain ⟨cs, hst, hsmall, hscript'⟩ := invoke_spec st d hscript
            generalize st.invoke d script = res at hst hsmall hscript'
            obtain ⟨st', outcome, script'⟩ := res
            dsimp only at hst hsmall hscript' ⊢
            subst hst
            have hheld : st.Holds (st.pending ++ ((deadline, d) :: todo).map Prod.snd) →
                (st.calls cs).Holds (d :: ((st.calls cs).pending ++ todo.map Prod.snd)) :=
              fun hst => (calls_holds cs hst).perm List.perm_middle
            have hfinished : ∀ d', ((st.calls cs).finish d).finished d' = true →
                d' = d ∨ st.finished d' = true := by
              intro d' hd'
              by_cases heq : d' = d
              · exact .inl heq
              · refine .inr ?_
                rw [← calls_finished cs st]
                simpa [DelayState.finish, heq] using hd'
            have hdone : LoopSpec now ((st.calls cs).finish d) todo
                (flushLoop now fuel ((st.calls cs).finish d) [] todo script') :=
              ih htail hscript' (by omega)
            cases outcome with
            | throws =>
                exact hdone.cons hdue (calls_delayTasks cs st) (calls_passes cs st) rfl
                  (fun e he => he) (fun hst => (hheld hst).finish) (fun n hn => by cases hn)
                  (fun e he => .inl he) fun d' hd' => (hfinished d' hd').symm.imp_right
                    fun heq => ⟨heq, rfl⟩
            | ret n =>
                dsimp only
                split
                · -- the task comes back behind everything that is due
                  next hpos =>
                  have hkey : (n + now) % 2 ^ 64 = n + now :=
                    Nat.mod_eq_of_lt (hsmall n rfl hpos)
                  rw [hkey, if_neg (by omega)]
                  have hin := emplace_perm (n + now) d todo
                  have hheld' : st.Holds (st.pending ++ ((deadline, d) :: todo).map Prod.snd) →
                      (st.calls cs).Holds ((st.calls cs).pending ++
                        (Poller.emplace (n + now) d todo).map Prod.snd) := fun hst =>
                    (calls_holds cs hst).perm (((hin.map Prod.snd).symm).append_left _)
                  have hlate : now < n + now := by omega
                  have hdue' := due_emplace hlate d todo
                  refine (ih (emplace_ordered htail _ _) hscript'
                    (by rw [hdue']; omega)).cons hdue (calls_delayTasks cs st)
                    (calls_passes cs st) hdue' (fun e he => ?_) hheld' (fun m hm _ => ?_)
                    (fun e he => ?_) fun d' hd' => .inl (calls_finished cs st ▸ hd')
                  · exact hin.mem_iff.2 (List.mem_cons_of_mem _ he)
                  · cases hm
                    exact hin.mem_iff.2 (List.mem_cons_self)
                  · rcases List.mem_cons.1 (hin.mem_iff.1 he) with rfl | he
                    · refine .inr ⟨rfl, ?_⟩
                      rw [Outcome.next, if_pos hpos, Nat.add_comm]
                    · exact .inl he
                · next hzero =>
                  refine hdone.cons hdue (calls_delayTasks cs st) (calls_passes cs st) rfl
                    (fun e he => he) (fun hst => (hheld hst).finish) (fun m hm hpos => ?_)
                    (fun e he => .inl he) fun d' hd' => (hfinished d' hd').symm.imp_right
                      fun heq => ⟨heq, if_neg hzero⟩
                  cases hm
                  exact absurd hpos hzero
          · rw [if_neg hdue]
            exact loopSpec_stop hord (by simp [due, hdue])

/-! ## Runs of the poller thread -/

structure PassOk (pass : Pass) : Prop where
  once : (pass.fired.map Fired.id).Nodup
  notEarly : ∀ f ∈ pass.fired, f.deadline ≤ pass.now ∧ (f.deadline, f.id) ∈ pass.before
  complete : ∀ e ∈ pass.before, e.1 ≤ pass.now →
    ∃ f ∈ pass.fired, f.deadline = e.1 ∧ f.id = e.2
  inOrder : pass.fired.Pairwise fun f g => f.deadline ≤ g.deadline
  renewed : ∀ f ∈ pass.fired, ∀ d, f.outcome = .ret d → 0 < d →
    (pass.now + d, f.id) ∈ pass.after
  kept : ∀ e ∈ pass.before, pass.now < e.1 → e ∈ pass.after
  dropped : pass.dropped = []

/-- The keys at a flush are the deadlines that the tasks have asked for, `pre` being the flushes
before it. -/
structure PassKeys (askedFor : DelayId → Nat) (pre : List Pass) (pass : Pass) : Prop where
  before : ∀ e ∈ pass.before, dueAfter askedFor pre e.2 = some e.1
  fired : ∀ f ∈ pass.fired, dueAfter askedFor pre f.id = some f.deadline
  after : ∀ e ∈ pass.after, dueAfter askedFor (pre ++ [pass]) e.2 = some e.1

/-- The flush has to do with the first `n` tasks only. -/
structure Below (n : Nat) (pass : Pass) : Prop where
  before : ∀ e ∈ pass.before, e.2 < n
  fired : ∀ f ∈ pass.fired, f.id < n
  after : ∀ e ∈ pass.after, e.2 < n

/-- Every task is held under the deadline that it has asked for. -/
structure Keys (st : DelayState) : Prop where
  held : ∀ e ∈ st.entries, st.dueAt e.2 = some e.1
  finished : ∀ d, st.finished d = true → st.dueAt d = none
  passes : ∀ pre pass post, st.passes = pre ++ pass :: post → PassKeys st.askedFor pre pass
  below : ∀ pass ∈ st.passes, Below st.nextDelay pass

structure Inv (st : DelayState) : Prop where
  ordered : Ordered st.poller.delayTasks
  holds : st.Holds (st.pending ++ st.poller.delayTasks.map Prod.snd)
  keys : st.Keys
  passes : ∀ pass ∈ st.passes, PassOk pass

theorem Holds.entries_lt {st : DelayState}
    (h : st.Holds (st.pending ++ st.poller.delayTasks.map Prod.snd)) :
    ∀ e ∈ st.entries, e.2 < st.nextDelay := by
  intro e he
  have hin : e.2 ∈ st.entries.map Prod.snd := List.mem_map_of_mem he
  rw [entries_ids] at hin
  exact ((h.mem e.2).1 hin).1

theorem dueAfter_congr {askedFor askedFor' : DelayId → Nat} {d : DelayId}
    (h : askedFor' d = askedFor d) (passes : List Pass) :
    dueAfter askedFor' passes d = dueAfter askedFor passes d := by
  rw [dueAfter, dueAfter, h]

theorem dueAfter_append (askedFor : DelayId → Nat) (passes : List Pass) (pass : Pass)
    (d : DelayId) : dueAfter askedFor (passes ++ [pass]) d =
      pass.next d (dueAfter askedFor passes d) := by
  rw [dueAfter, List.foldl_append]
  rfl

theorem next_of_not_fired {pass : Pass} {d : DelayId} (h : ∀ f ∈ pass.fired, f.id ≠ d)
    (due : Option Nat) : pass.next d due = due := by
  have hnone : (pass.fired.find? fun f => f.id = d) = none :=
    List.find?_eq_none.2 fun f hf => by simpa using h f hf
  rw [Pass.next, hnone]

theorem next_of_fired {pass : Pass} (honce : (pass.fired.map Fired.id).Nodup) {f : Fired}
    (hf : f ∈ pass.fired) (due : Option Nat) :
    pass.next f.id due = f.outcome.next pass.now := by
  rw [Pass.next]
  cases hfind : pass.fired.find? fun g => g.id = f.id with
  | none => simpa using List.find?_eq_none.1 hfind f hf
  | some g =>
      have hid : g.id = f.id := by simpa using List.find?_some hfind
      rw [List.inj_on_of_nodup_map honce (List.mem_of_find?_eq_some hfind) hf hid]

theorem dueAfter_of_new {askedFor : DelayId → Nat} {passes : List Pass} {d : DelayId}
    (h : ∀ pass ∈ passes, ∀ f ∈ pass.fired, f.id ≠ d) :
    dueAfter askedFor passes d = some (askedFor d) := by
  induction passes using List.reverseRecOn with
  | nil => rfl
  | append_singleton passes pass ih =>
      rw [dueAfter_append, next_of_not_fired (h pass (by simp))]
      exact ih fun pass' hpass' => h pass' (List.mem_append_left _ hpass')

theorem PassKeys.congr {askedFor askedFor' : DelayId → Nat} {pre : List Pass} {pass : Pass}
    (h : PassKeys askedFor pre pass) {n : Nat} (hbelow : Below n pass)
    (heq : ∀ d < n, askedFor' d = askedFor d) : PassKeys askedFor' pre pass where
  before := by
    intro e he
    rw [dueAfter_congr (heq _ (hbelow.before e he))]
    exact h.before e he
  fired := by
    intro f hf
    rw [dueAfter_congr (heq _ (hbelow.fired f hf))]
    exact h.fired f hf
  after := by
    intro e he
    rw [dueAfter_congr (heq _ (hbelow.after e he))]
    exact h.after e he

theorem Below.mono {n n' : Nat} {pass : Pass} (h : Below n pass) (hle : n ≤ n') : Below n' pass :=
  ⟨fun e he => lt_of_lt_of_le (h.before e he) hle, fun f hf => lt_of_lt_of_le (h.fired f hf) hle,
    fun e he => lt_of_lt_of_le (h.after e he) hle⟩

theorem Keys.later {st st' : DelayState} (h : st.Keys)
    (hholds : st.Holds (st.pending ++ st.poller.delayTasks.map Prod.snd)) (hlater : Later st st')
    (hfinished : st'.finished = st.finished) (hpasses : st'.passes = st.passes) : st'.Keys := by
  have hdue : ∀ d < st.nextDelay, st'.dueAt d = st.dueAt d := fun d hd => by
    rw [dueAt, hpasses]
    exact dueAfter_congr (hlater.askedFor d hd) _
  refine ⟨fun e he => ?_, fun d hd => ?_, fun pre pass post heq => ?_, fun pass hpass => ?_⟩
  · rcases hlater.entries e he with hin | ⟨hle, -, hasked⟩
    · rw [hdue _ (hholds.entries_lt e hin)]
      exact h.held e hin
    · rw [dueAt, hpasses, ← hasked]
      refine dueAfter_of_new fun pass hpass f hf => ?_
      exact Nat.ne_of_lt (lt_of_lt_of_le ((h.below pass hpass).fired f hf) hle)
  · rw [hfinished] at hd
    rw [hdue d (hholds.finished d hd)]
    exact h.finished d hd
  · rw [hpasses] at heq
    exact (h.passes pre pass post heq).congr (h.below pass (by simp [heq])) hlater.askedFor
  · rw [hpasses] at hpass
    exact (h.below pass hpass).mono hlater.nextDelay

/-- The flush `pass` has run the due tasks and left the state `st'`. -/
theorem Keys.flush {st st' : DelayState} (h : st.Keys)
    (hholds : st.Holds (st.pending ++ st.poller.delayTasks.map Prod.snd)) {pass : Pass}
    (hok : PassOk pass) (hbefore : pass.before = st.poller.delayTasks)
    (hlater : Later { st with poller := { st.poller with delayTasks := [] } } st')
    (horigin : ∀ e ∈ pass.after, e ∈ pass.before ∧ pass.now < e.1 ∨
      ∃ f ∈ pass.fired, f.id = e.2 ∧ f.outcome.next pass.now = some e.1)
    (hfinished : ∀ d, st'.finished d = true → st.finished d = true ∨
      ∃ f ∈ pass.fired, f.id = d ∧ f.outcome.next pass.now = none)
    (hpasses : st'.passes = st.passes) :
    Keys { st' with
      poller := { st'.poller with delayTasks := pass.after }
      passes := st'.passes ++ [pass] } := by
  have hdue : ∀ d, dueAfter st'.askedFor (st'.passes ++ [pass]) d =
      pass.next d (dueAfter st'.askedFor st.passes d) := fun d => by
    rw [dueAfter_append, hpasses]
  have hold : ∀ d < st.nextDelay, dueAfter st'.askedFor st.passes d = st.dueAt d := fun d hd =>
    dueAfter_congr (hlater.askedFor d hd) _
  have hheld : ∀ e ∈ pass.before, st.dueAt e.2 = some e.1 ∧ e.2 < st.nextDelay := fun e he =>
    have hin := List.mem_append_right _ (hbefore ▸ he)
    ⟨h.held e hin, hholds.entries_lt e hin⟩
  have hin : ∀ f ∈ pass.fired, (f.deadline, f.id) ∈ pass.before := fun f hf =>
    (hok.notEarly f hf).2
  have hlt : ∀ f ∈ pass.fired, f.id < st.nextDelay := fun f hf => (hheld _ (hin f hf)).2
  have hnodup : (st.pending ++ pass.before.map Prod.snd).Nodup := hbefore ▸ hholds.nodup
  have hafter : ∀ e ∈ pass.after, e.2 < st.nextDelay ∧
      dueAfter st'.askedFor (st'.passes ++ [pass]) e.2 = some e.1 := by
    intro e he
    rcases horigin e he with ⟨hine, hlate⟩ | ⟨f, hf, hid, hnext⟩
    · have hnot : ∀ f ∈ pass.fired, f.id ≠ e.2 := by
        intro f hf hid
        have heq := List.inj_on_of_nodup_map (List.Nodup.of_append_right hnodup) (hin f hf) hine hid
        have hle := (hok.notEarly f hf).1
        rw [← heq] at hlate
        exact absurd hlate (Nat.not_lt_of_le hle)
      obtain ⟨hkey, hlt⟩ := hheld e hine
      refine ⟨hlt, ?_⟩
      rw [hdue, next_of_not_fired hnot, hold _ hlt]
      exact hkey
    · refine ⟨hid ▸ hlt f hf, ?_⟩
      rw [hdue, ← hid, next_of_fired hok.once hf]
      exact hnext
  refine ⟨fun e he => ?_, fun d hd => ?_, fun pre pass' post heq => ?_, fun pass' hpass' => ?_⟩
  · rcases List.mem_append.1 he with hpend | hin'
    · rcases hlater.entries e (List.mem_append_left _ hpend) with hold' | ⟨hle, -, hasked⟩
      · -- its insertion was pending, so it is not among the tasks that the flush ran
        have hins : e ∈ st.insertions := by simpa [entries, insertions] using hold'
        have hnot : ∀ f ∈ pass.fired, f.id ≠ e.2 := by
          intro f hf hid
          have hpending : e.2 ∈ st.pending := by
            rw [← insertions_ids]
            exact List.mem_map_of_mem hins
          have hmulti := List.mem_map_of_mem (f := Prod.snd) (hin f hf)
          exact List.disjoint_of_nodup_append hnodup hpending (hid ▸ hmulti)
        have hentry : e ∈ st.entries := List.mem_append_left _ hins
        show dueAfter st'.askedFor (st'.passes ++ [pass]) e.2 = some e.1
        rw [hdue, next_of_not_fired hnot, hold _ (hholds.entries_lt e hentry)]
        exact h.held e hentry
      · show dueAfter st'.askedFor (st'.passes ++ [pass]) e.2 = some e.1
        rw [hdue, next_of_not_fired fun f hf => Nat.ne_of_lt (lt_of_lt_of_le (hlt f hf) hle),
          ← hasked]
        refine dueAfter_of_new fun pass' hpass' f hf => Nat.ne_of_lt ?_
        exact lt_of_lt_of_le ((h.below pass' hpass').fired f hf) hle
    · exact (hafter e hin').2
  · show dueAfter st'.askedFor (st'.passes ++ [pass]) d = none
    rcases hfinished d hd with hfin | ⟨f, hf, rfl, hnext⟩
    · have hnot : ∀ f ∈ pass.fired, f.id ≠ d := by
        rintro f hf rfl
        have hmulti := List.mem_map_of_mem (f := Prod.snd) (hin f hf)
        have hunfinished := ((hholds.mem f.id).1 (List.mem_append_right _ (hbefore ▸ hmulti))).2
        rw [hunfinished] at hfin
        cases hfin
      rw [hdue, next_of_not_fired hnot, hold d (hholds.finished d hfin)]
      exact h.finished d hfin
    · rw [hdue, next_of_fired hok.once hf]
      exact hnext
  · rcases List.eq_nil_or_concat post with rfl | ⟨post, last, rfl⟩
    · obtain ⟨rfl, hlast⟩ := List.append_inj' heq rfl
      cases hlast
      refine ⟨fun e he => ?_, fun f hf => ?_, fun e he => (hafter e he).2⟩
      · obtain ⟨hkey, hlt⟩ := hheld e he
        rw [hpasses]
        exact (hold _ hlt).trans hkey
      · obtain ⟨hkey, hlt⟩ := hheld _ (hin f hf)
        rw [hpasses]
        exact (hold _ hlt).trans hkey
    · have heq' : st'.passes ++ [pass] = (pre ++ pass' :: post) ++ [last] := by
        simpa using heq
      have hinit := (List.append_inj' heq' rfl).1
      rw [hpasses] at hinit
      exact (h.passes pre pass' post hinit).congr (h.below pass' (by simp [hinit])) hlater.askedFor
  · rcases List.mem_append.1 hpass' with hold' | hnew
    · rw [hpasses] at hold'
      exact (h.below pass' hold').mono hlater.nextDelay
    · rw [List.mem_singleton.1 hnew]
      exact Below.mono ⟨fun e he => (hheld e he).2, hlt, fun e he => (hafter e he).1⟩
        hlater.nextDelay

theorem call_inv {st : DelayState} (h : st.Inv) {c : Call} (hc : CallSmall c) :
    (st.call c).Inv where
  ordered := by rw [call_delayTasks]; exact h.ordered
  holds := by rw [call_delayTasks]; exact call_holds h.holds c
  keys := h.keys.later h.holds (call_later st hc) (call_finished st c) (call_passes st c)
  passes := by rw [call_passes]; exact h.passes

theorem calls_inv {cs : List Call} (hcs : ∀ c ∈ cs, CallSmall c) {st : DelayState} (h : st.Inv) :
    (st.calls cs).Inv := by
  induction cs generalizing st with
  | nil => exact h
  | cons c cs ih =>
      obtain ⟨hc, hrest⟩ := List.forall_mem_cons.1 hcs
      exact ih hrest (call_inv h hc)

theorem passOk_of_fired {now : Nat} {m after : List (Nat × DelayId)} {fired : List Fired}
    (hord : Ordered m) (hnodup : (m.map Prod.snd).Nodup)
    (hfired : fired.map (fun f => (f.deadline, f.id)) = due now m)
    (hrenewed : ∀ f ∈ fired, ∀ n, f.outcome = .ret n → 0 < n → (n + now, f.id) ∈ after)
    (hkept : ∀ e ∈ m, now < e.1 → e ∈ after) :
    PassOk ⟨now, m, fired, after, []⟩ where
  once := by
    have hids : fired.map Fired.id = (due now m).map Prod.snd := by
      rw [← hfired, List.map_map]
      rfl
    show (fired.map Fired.id).Nodup
    rw [hids]
    exact hnodup.sublist ((List.takeWhile_sublist _).map _)
  notEarly := by
    intro f hf
    have hin : (f.deadline, f.id) ∈ due now m := by
      rw [← hfired]
      exact List.mem_map_of_mem hf
    exact ⟨by simpa [due] using List.mem_takeWhile_imp hin,
      (List.takeWhile_sublist _).subset hin⟩
  complete := by
    intro e he hle
    have hin := mem_due hord he hle
    rw [← hfired] at hin
    obtain ⟨f, hf, heq⟩ := List.mem_map.1 hin
    exact ⟨f, hf, congrArg Prod.fst heq, congrArg Prod.snd heq⟩
  inOrder := by
    have hsorted : Ordered (due now m) := hord.sublist (List.takeWhile_sublist _)
    rw [← hfired] at hsorted
    exact (List.pairwise_map (f := fun f : Fired => (f.deadline, f.id))).1 hsorted
  renewed := by
    intro f hf d hd hpos
    rw [Nat.add_comm]
    exact hrenewed f hf d hd hpos
  kept := hkept
  dropped := rfl

theorem flushDelayTasks_inv {st : DelayState} (h : st.Inv) {now : Nat}
    {script : List TaskRun} (hscript : ∀ run ∈ script, RunSmall now run) :
    (st.flushDelayTasks now script).1.Inv := by
  have hfuel : (due now st.poller.delayTasks).length ≤
      st.poller.delayTasks.length + script.length :=
    le_trans (List.takeWhile_sublist _).length_le (Nat.le_add_right _ _)
  have hholds : Holds { st with poller := { st.poller with delayTasks := [] } }
      (st.pending ++ st.poller.delayTasks.map Prod.snd) :=
    ⟨h.holds.nodup, h.holds.mem, h.holds.finished⟩
  have hspec := @flushLoop_spec now _ { st with poller := { st.poller with delayTasks := [] } } _
    script h.ordered (fun run hrun => (hscript run hrun).2) hfuel
  have hheld := hspec.holds hholds
  have hok := passOk_of_fired h.ordered (List.Nodup.of_append_right h.holds.nodup) hspec.fired
    hspec.renewed hspec.kept
  have hlater := (later_kept _).flushLoop now (st.poller.delayTasks.length + script.length)
    (Later.refl { st with poller := { st.poller with delayTasks := [] } }) []
    st.poller.delayTasks (fun run hrun => (hscript run hrun).1)
  have hkeys := h.keys.flush h.holds hok rfl hlater
    (fun e he => (hspec.origin e he).imp_left fun hin => ⟨hin, hspec.notDue e he⟩)
    hspec.finished hspec.passes
  unfold flushDelayTasks
  dsimp only
  rw [hspec.untouched]
  refine ⟨hspec.ordered, ⟨hheld.nodup, hheld.mem, hheld.finished⟩, hkeys, ?_⟩
  intro pass hpass
  rcases List.mem_append.1 hpass with hold | hnew
  · rw [hspec.passes] at hold
    exact h.passes pass hold
  · rw [List.mem_singleton.1 hnew]
    exact hok

theorem getMinDelayMs_inv {st : DelayState} (h : st.Inv) {now : Nat}
    {script : List TaskRun} (hscript : ∀ run ∈ script, RunSmall now run) :
    (st.getMinDelayMs now script).1.Inv := by
  unfold getMinDelayMs
  split
  · exact h
  · split
    · exact h
    · exact flushDelayTasks_inv h hscript

theorem step_inv {st st' : DelayState} {a : DelayAction} (h : st.Inv)
    (hadm : st.Admissible a) (hstep : st.step a = some st') : st'.Inv := by
  cases a with
  | call c => cases hstep; exact call_inv h hadm
  | swap =>
      simp only [step, Option.ite_none_right_eq_some, Option.some.injEq] at hstep
      obtain ⟨hnil, rfl⟩ := hstep
      have hlater : Later st { st with
          swapList := st.poller.taskList, poller := { st.poller with taskList := [] } } :=
        .of_subset rfl rfl fun e he => by simpa [entries, insertions, hnil] using he
      refine ⟨h.ordered, ⟨?_, ?_, h.holds.finished⟩, h.keys.later h.holds hlater rfl rfl, h.passes⟩
      · simpa [pending, hnil] using h.holds.nodup
      · simpa [pending, hnil] using h.holds.mem
  | task cs =>
      unfold step at hstep
      cases hswap : st.swapList with
      | nil => simp [hswap] at hstep
      | cons t tasks =>
          cases t with
          | user =>
              simp only [hswap, Option.some.injEq] at hstep
              subst hstep
              have hlater : Later st { st with swapList := tasks } :=
                .of_subset rfl rfl fun e he => by
                  simpa [entries, insertions, hswap, entryOf, List.filterMap_cons] using he
              refine calls_inv hadm ⟨h.ordered, ⟨?_, ?_, h.holds.finished⟩,
                h.keys.later h.holds hlater rfl rfl, h.passes⟩
              · simpa [pending, hswap, insertionOf, List.filterMap_cons] using h.holds.nodup
              · simpa [pending, hswap, insertionOf, List.filterMap_cons] using h.holds.mem
          | emplace timeline d =>
              simp only [hswap, Option.some.injEq] at hstep
              subst hstep
              have hperm : (st.pending ++ st.poller.delayTasks.map Prod.snd).Perm
                  ((st.poller.taskList ++ tasks).filterMap insertionOf ++
                    (Poller.emplace timeline d st.poller.delayTasks).map Prod.snd) := by
                have hin := (emplace_perm timeline d st.poller.delayTasks).map Prod.snd
                refine List.Perm.trans ?_ (hin.symm.append_left _)
                -- the insertion leaves the list and its task enters the multimap
                simp only [pending, hswap, List.filterMap_append, List.filterMap_cons,
                  insertionOf, List.append_assoc, List.map_cons, List.cons_append]
                exact List.Perm.append_left _ List.perm_middle.symm
              have hholds := h.holds.perm hperm
              have hin := (emplace_perm timeline d st.poller.delayTasks).subset
              have hlater : Later st { st with
                  swapList := tasks
                  poller := { st.poller with
                    delayTasks := Poller.emplace timeline d st.poller.delayTasks } } := by
                refine .of_subset rfl rfl fun e he => ?_
                rcases List.mem_append.1 he with hins | hmulti
                · refine List.mem_append_left _ ?_
                  simp only [insertions, hswap, List.filterMap_append, List.filterMap_cons,
                    entryOf, List.mem_append, List.mem_cons] at hins ⊢
                  exact hins.imp_right .inr
                · rcases List.mem_cons.1 (hin hmulti) with rfl | hmulti
                  · simp [entries, insertions, hswap, entryOf]
                  · exact List.mem_append_right _ hmulti
              exact ⟨emplace_ordered h.ordered _ _,
                ⟨hholds.nodup, hholds.mem, hholds.finished⟩,
                h.keys.later h.holds hlater rfl rfl, h.passes⟩
  | minDelay now script =>
      simp only [step, Option.ite_none_right_eq_some, Option.some.injEq] at hstep
      obtain ⟨_, rfl⟩ := hstep
      exact getMinDelayMs_inv h hadm

theorem init_inv : ({} : DelayState).Inv where
  ordered := List.Pairwise.nil
  holds := ⟨by simp [pending], by simp [pending], by simp⟩
  keys := ⟨by simp [entries, insertions], by simp, by simp, by simp⟩
  passes := by simp

theorem Inv.held {st : DelayState} (h : st.Inv) {d : DelayId} (hd : d < st.nextDelay)
    (hfin : st.finished d = false) : ∃ key, (key, d) ∈ st.entries ∧ st.dueAt d = some key := by
  have hin := (h.holds.mem d).2 ⟨hd, hfin⟩
  rw [← entries_ids] at hin
  obtain ⟨⟨key, d⟩, he, rfl⟩ := List.mem_map.1 hin
  exact ⟨key, he, h.keys.held _ he⟩

theorem Inv.finished_iff {st : DelayState} (h : st.Inv) {d : DelayId} (hd : d < st.nextDelay) :
    st.finished d = true ↔ st.dueAt d = none := by
  refine ⟨h.keys.finished d, fun hnone => ?_⟩
  by_contra hfin
  obtain ⟨key, -, hdue⟩ := h.held hd (by simpa using hfin)
  rw [hnone] at hdue
  cases hdue

theorem Inv.count_entries {st : DelayState} (h : st.Inv) {d : DelayId} (hd : d < st.nextDelay)
    {key : Nat} (hdue : st.dueAt d = some key) : st.entries.count (key, d) = 1 := by
  have hfin : st.finished d = false := by
    by_contra hfin
    rw [h.keys.finished d (by simpa using hfin)] at hdue
    cases hdue
  obtain ⟨key', he, hdue'⟩ := h.held hd hfin
  cases hdue.symm.trans hdue'
  have hnodup : st.entries.Nodup := by
    refine List.Nodup.of_map Prod.snd ?_
    rw [entries_ids]
    exact h.holds.nodup
  exact List.count_eq_one_of_mem hnodup he

/-- Every registered task that is not finished is held once, under the deadline that it has asked
for, and every flush ran the tasks that were due then and no other, each once and in deadline order,
without losing one. -/
theorem delay_tasks_conserved {acts : List DelayAction} {st : DelayState}
    (hrun : Run step Admissible {} acts st) :
    (∀ d < st.nextDelay, st.finished d = false →
      (st.pending ++ st.poller.delayTasks.map Prod.snd).count d = 1) ∧
    (∀ d < st.nextDelay, (st.finished d = true ↔ st.dueAt d = none) ∧
      ∀ key, st.dueAt d = some key → st.entries.count (key, d) = 1) ∧
    (∀ pre pass post, st.passes = pre ++ pass :: post → PassKeys st.askedFor pre pass) ∧
    ∀ pass ∈ st.passes, PassOk pass := by
  have hinv : st.Inv := hrun.invariant (fun _ _ _ => step_inv) init_inv
  refine ⟨fun d hd hfin => ?_, fun d hd => ⟨hinv.finished_iff hd, fun key hdue => ?_⟩,
    hinv.keys.passes, hinv.passes⟩
  · exact List.count_eq_one_of_mem hinv.holds.nodup ((hinv.holds.mem d).2 ⟨hd, hfin⟩)
  · exact hinv.count_entries hd hdue

/-- A task registered for 105 runs at 107, registers another and asks for 10 more. -/
theorem delay_tasks_conserved_renewed :
    ∃ st : DelayState,
      Run step Admissible {} [.call (.doDelayTask 5 100), .swap, .task [],
        .minDelay 107 [⟨[.doDelayTask 1 107], .ret 10⟩]] st ∧
      st.dueAt 0 = some 117 ∧ st.dueAt 1 = some 108 ∧
      st.entries.count (117, 0) = 1 ∧ st.entries.count (108, 1) = 1 ∧
      (∀ pre pass post, st.passes = pre ++ pass :: post → PassKeys st.askedFor pre pass) ∧
      ∀ pass ∈ st.passes, PassOk pass := by
  have hrun : Run step Admissible {} [.call (.doDelayTask 5 100), .swap, .task [],
      .minDelay 107 [⟨[.doDelayTask 1 107], .ret 10⟩]] _ :=
    .cons (by simp [Admissible, CallSmall]) rfl (.cons trivial rfl (.cons (by simp [Admissible])
      rfl (.cons (by simp [Admissible, RunSmall, CallSmall]) rfl (.nil _))))
  obtain ⟨-, hdue, hkeys, hpasses⟩ := delay_tasks_conserved hrun
  exact ⟨_, hrun, by decide, by decide, (hdue 0 (by decide)).2 117 (by decide),
    (hdue 1 (by decide)).2 108 (by decide), hkeys, hpasses⟩

end DelayState

end CommonLibrary.Poller
