import CommonLibrary.Foundation.Run
import CommonLibrary.Thread.Monitor
import Mathlib.Logic.Function.Basic

/-!
# The asynchronous log writer

Any number of threads call `Write`; the worker thread of `AsyncLogWriter` swaps the list of
contexts out and delivers it, and the destructor delivers what is left when it has joined
the worker.  A step is one critical section, one access to `running_` or one call of
`write_to_channels`.
-/

namespace CommonLibrary.Utils

open Foundation Thread

variable {χ : Type}

inductive WorkerPc (χ : Type) where
  /-- about to test `running_` -/
  | test
  | wait
  /-- about to lock `mux_` in `flush_all` -/
  | flush
  /-- in `for_each`, with the contexts that it has still to deliver -/
  | deliver (tmp : List χ)
  | exited

/-- Where the thread is that destroys the writer. -/
inductive DestructorPc (χ : Type) where
  /-- the destructor has not been called -/
  | idle
  | post
  | join
  | flush
  | deliver (tmp : List χ)
  | returned

/-- What has been swapped out and is still to be delivered. -/
def WorkerPc.batch : WorkerPc χ → List χ
  | .deliver tmp => tmp
  | _ => []

def DestructorPc.batch : DestructorPc χ → List χ
  | .deliver tmp => tmp
  | _ => []

def DestructorPc.Joined : DestructorPc χ → Prop
  | .flush | .deliver _ | .returned => True
  | _ => False

/-- The list has been swapped out for the last time. -/
def DestructorPc.Flushed : DestructorPc χ → Prop
  | .deliver _ | .returned => True
  | _ => False

theorem DestructorPc.Flushed.joined {pc : DestructorPc χ} (h : pc.Flushed) : pc.Joined := by
  cases pc with
  | deliver tmp => trivial
  | returned => trivial
  | idle => cases h
  | post => cases h
  | join => cases h
  | flush => cases h

theorem DestructorPc.batch_eq_nil {pc : DestructorPc χ} (h : ¬ pc.Joined) : pc.batch = [] := by
  cases pc with
  | deliver tmp => exact absurd trivial h
  | _ => rfl

structure AsyncLogWriter (χ : Type) where
  running : Bool := true
  sem : Semaphore := {}
  pctxs : List χ := []
  /-- the thread is in `Write`, between its critical section and `Post` -/
  writing : ThreadId → Bool := fun _ => false
  worker : WorkerPc χ := .test
  destructor : DestructorPc χ := .idle
  /-- history: the calls of `write_to_channels` -/
  delivered : List χ := []
  /-- history: the critical sections of `Write` -/
  appended : List χ := []

inductive LogAction (χ : Type) where
  | append (t : ThreadId) (pctx : χ)
  | post (t : ThreadId)
  | worker
  | destructor

namespace AsyncLogWriter

def writeToChannels (w : AsyncLogWriter χ) (pctx : χ) : AsyncLogWriter χ :=
  { w with delivered := w.delivered ++ [pctx] }

/-- The next step of `run`. -/
def workerStep (w : AsyncLogWriter χ) : Option (AsyncLogWriter χ) :=
  match w.worker with
  | .test => some { w with worker := if w.running then .wait else .exited }
  | .wait => w.sem.wait.map fun sem => { w with sem := sem, worker := .flush }
  | .flush => some { w with pctxs := [], worker := .deliver w.pctxs }
  | .deliver [] => some { w with worker := .test }
  | .deliver (pctx :: tmp) => some { w.writeToChannels pctx with worker := .deliver tmp }
  | .exited => none

/-- The next step of the destructor. -/
def destructorStep (w : AsyncLogWriter χ) : Option (AsyncLogWriter χ) :=
  match w.destructor with
  | .idle => some { w with running := false, destructor := .post }
  | .post => some { w with sem := w.sem.post 1, destructor := .join }
  | .join =>
      match w.worker with
      | .exited => some { w with destructor := .flush }
      | _ => none
  | .flush => some { w with pctxs := [], destructor := .deliver w.pctxs }
  | .deliver [] => some { w with destructor := .returned }
  | .deliver (pctx :: tmp) => some { w.writeToChannels pctx with destructor := .deliver tmp }
  | .returned => none

def step (w : AsyncLogWriter χ) : LogAction χ → Option (AsyncLogWriter χ)
  | .append t pctx =>
      if w.writing t then none
      else some { w with
        pctxs := w.pctxs ++ [pctx]
        appended := w.appended ++ [pctx]
        writing := Function.update w.writing t true }
  | .post t =>
      if w.writing t then
        some { w with sem := w.sem.post 1, writing := Function.update w.writing t false }
      else none
  | .worker => w.workerStep
  | .destructor => w.destructorStep

/-- The destructor starts when all calls of `Write` have returned, and none comes after. -/
def DestroyedLast (w : AsyncLogWriter χ) : LogAction χ → Prop
  | .append _ _ => w.destructor = .idle
  | .destructor => w.destructor = .idle → ∀ t, w.writing t = false
  | _ => True

/-- What has been appended is delivered, in a batch or in the list, in this order. -/
structure Conserved (w : AsyncLogWriter χ) : Prop where
  order : w.delivered ++ w.worker.batch ++ w.destructor.batch ++ w.pctxs = w.appended
  joined : w.destructor.Joined → w.worker = .exited
  flushed : w.destructor.Flushed → w.pctxs = []

variable {w w' : AsyncLogWriter χ}

/-- Until it is joined, the worker has the only batch. -/
theorem Conserved.alone (h : w.Conserved) (hworker : w.worker ≠ .exited) :
    ¬ w.destructor.Joined ∧ w.destructor.batch = [] := by
  have hnot : ¬ w.destructor.Joined := fun hjoined => hworker (h.joined hjoined)
  exact ⟨hnot, DestructorPc.batch_eq_nil hnot⟩

theorem workerStep_conserved (h : w.Conserved) (hstep : w.workerStep = some w') :
    w'.Conserved := by
  obtain ⟨running, sem, pctxs, writing, worker, destructor, delivered, appended⟩ := w
  have horder := h.order
  cases worker with
  | exited => cases hstep
  | test =>
      obtain ⟨hnot, -⟩ := h.alone fun heq => by cases heq
      cases hstep
      refine ⟨?_, fun hjoined => absurd hjoined hnot, h.flushed⟩
      cases running <;> exact horder
  | wait =>
      obtain ⟨hnot, -⟩ := h.alone fun heq => by cases heq
      obtain ⟨sem', -, rfl⟩ := Option.map_eq_some_iff.1 hstep
      exact ⟨horder, fun hjoined => absurd hjoined hnot, h.flushed⟩
  | flush =>
      obtain ⟨hnot, hbatch⟩ := h.alone fun heq => by cases heq
      cases hstep
      refine ⟨?_, fun hjoined => absurd hjoined hnot, fun _ => rfl⟩
      simp only [WorkerPc.batch, hbatch, List.append_nil] at horder ⊢
      exact horder
  | deliver tmp =>
      obtain ⟨hnot, -⟩ := h.alone fun heq => by cases heq
      cases tmp with
      | nil =>
          cases hstep
          exact ⟨horder, fun hjoined => absurd hjoined hnot, h.flushed⟩
      | cons pctx tmp =>
          cases hstep
          refine ⟨?_, fun hjoined => absurd hjoined hnot, h.flushed⟩
          simp only [writeToChannels, WorkerPc.batch, List.append_assoc, List.cons_append,
            List.nil_append] at horder ⊢
          exact horder

theorem destructorStep_conserved (h : w.Conserved) (hstep : w.destructorStep = some w') :
    w'.Conserved := by
  obtain ⟨running, sem, pctxs, writing, worker, destructor, delivered, appended⟩ := w
  have horder := h.order
  cases destructor with
  | returned => cases hstep
  | idle =>
      cases hstep
      exact ⟨horder, fun hjoined => (by cases hjoined), fun hflushed => by cases hflushed⟩
  | post =>
      cases hstep
      exact ⟨horder, fun hjoined => (by cases hjoined), fun hflushed => by cases hflushed⟩
  | join =>
      cases worker with
      | exited =>
          cases hstep
          exact ⟨horder, fun _ => rfl, fun hflushed => by cases hflushed⟩
      | _ => cases hstep
  | flush =>
      cases hstep
      refine ⟨?_, fun _ => h.joined trivial, fun _ => rfl⟩
      simp only [DestructorPc.batch, List.append_nil] at horder ⊢
      exact horder
  | deliver tmp =>
      have hworker : worker = .exited := h.joined trivial
      subst hworker
      cases tmp with
      | nil =>
          cases hstep
          exact ⟨horder, fun _ => rfl, fun _ => h.flushed trivial⟩
      | cons pctx tmp =>
          cases hstep
          refine ⟨?_, fun _ => rfl, fun _ => h.flushed trivial⟩
          simp only [writeToChannels, WorkerPc.batch, DestructorPc.batch, List.append_assoc,
            List.cons_append, List.nil_append] at horder ⊢
          exact horder

theorem step_conserved (h : w.Conserved) {a : LogAction χ} (hlast : w.DestroyedLast a)
    (hstep : w.step a = some w') : w'.Conserved := by
  cases a with
  | append t pctx =>
      have hidle : w.destructor = .idle := hlast
      simp only [step, Option.ite_none_left_eq_some, Option.some.injEq] at hstep
      obtain ⟨-, rfl⟩ := hstep
      refine ⟨?_, h.joined, fun hflushed => ?_⟩
      · rw [← h.order]
        simp only [List.append_assoc]
      · rw [hidle] at hflushed
        cases hflushed
  | post t =>
      simp only [step, Option.ite_none_right_eq_some, Option.some.injEq] at hstep
      obtain ⟨-, rfl⟩ := hstep
      exact ⟨h.order, h.joined, h.flushed⟩
  | worker => exact workerStep_conserved h hstep
  | destructor => exact destructorStep_conserved h hstep

/-- What has been delivered was appended first, in this order, and once the destructor has
returned it is everything. -/
theorem delivered_in_order {acts : List (LogAction χ)} (hrun : Run step DestroyedLast {} acts w) :
    w.delivered <+: w.appended ∧ (w.destructor = .returned → w.delivered = w.appended) := by
  have hinit : ({} : AsyncLogWriter χ).Conserved :=
    ⟨rfl, fun hjoined => (by cases hjoined), fun hflushed => by cases hflushed⟩
  have hw : w.Conserved :=
    hrun.invariant (fun _ _ _ h hlast hstep => step_conserved h hlast hstep) hinit
  have horder := hw.order
  refine ⟨?_, fun hreturned => ?_⟩
  · rw [List.append_assoc, List.append_assoc] at horder
    exact ⟨_, horder⟩
  · have hworker := hw.joined (by rw [hreturned]; trivial)
    have hempty := hw.flushed (by rw [hreturned]; trivial)
    rw [hworker, hreturned, hempty] at horder
    simpa [WorkerPc.batch, DestructorPc.batch] using horder

/-- The worker has been woken up by the first of two calls of `Write` and sees that the
destructor has begun when it has delivered the first context; the destructor delivers the
other one. -/
theorem delivered_in_order_split : ∃ w : AsyncLogWriter Nat,
    w.destructor = .returned ∧ w.delivered = [10, 20] := by
  have hrun : Run step DestroyedLast ({} : AsyncLogWriter Nat) [.worker, .append 1 10, .post 1,
      .worker, .worker, .worker, .append 2 20, .worker, .post 2, .destructor, .worker,
      .destructor, .destructor, .destructor, .destructor, .destructor] _ :=
    .cons trivial rfl <| .cons rfl rfl <| .cons trivial rfl <| .cons trivial rfl <|
    .cons trivial rfl <| .cons trivial rfl <| .cons rfl rfl <| .cons trivial rfl <|
    .cons trivial rfl <|
    .cons (fun _ t => by simp +contextual [Function.update_apply, writeToChannels]) rfl <|
    .cons trivial rfl <|
    .cons (fun h => by cases h) rfl <| .cons (fun h => by cases h) rfl <|
    .cons (fun h => by cases h) rfl <| .cons (fun h => by cases h) rfl <|
    .cons (fun h => by cases h) rfl <| .nil _
  exact ⟨_, rfl, (delivered_in_order hrun).2 rfl⟩

end AsyncLogWriter

end CommonLibrary.Utils
