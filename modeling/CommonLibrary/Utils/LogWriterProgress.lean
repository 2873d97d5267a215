import CommonLibrary.Foundation.Threads
import CommonLibrary.Thread.MonitorProgress
import CommonLibrary.Utils.AsyncLogWriter

/-!
# The log writer with its semaphore

`AsyncLogWriter` with the semaphore as it is.  What has been written is delivered without
anybody writing more, and the destructor returns.
-/

namespace CommonLibrary.Utils

open Foundation Thread

variable {χ : Type}

inductive LogThread where
  | writer (t : ThreadId)
  | worker
  | destructor
  deriving DecidableEq

namespace LogAction

def thread : LogAction χ → LogThread
  | append t _ | post t => .writer t
  | worker => .worker
  | destructor => .destructor

/-- A call of `Write` begins; or the destructor is at work, unless `destroyed` says that this
is under way. -/
def begins (destroyed : Bool) : LogAction χ → Bool
  | append _ _ => true
  | post _ | worker => false
  | destructor => !destroyed

end LogAction

def WorkerPc.isWait : WorkerPc χ → Bool
  | wait => true
  | _ => false

def DestructorPc.isPost : DestructorPc χ → Bool
  | post => true
  | _ => false

/-- The worker has a token for which it has not swapped the list out yet. -/
def WorkerPc.due : WorkerPc χ → Nat
  | flush => 1
  | _ => 0

/-- The steps that the worker takes from here without another token. -/
def WorkerPc.left : WorkerPc χ → Nat
  | test => 1
  | wait => 0
  | flush => 3
  | deliver tmp => 2 + tmp.length
  | exited => 0

/-- The steps that the destructor takes from here, and 4 for the token that it posts. -/
def DestructorPc.left : DestructorPc χ → Nat
  | idle => 9
  | post => 8
  | join => 3
  | flush => 2
  | deliver tmp => 1 + tmp.length
  | returned => 0

namespace AsyncLogWriter

variable {w w' : AsyncLogWriter χ} {a b : LogAction χ} {t : ThreadId}

/-- The steps, one constructor for each way an action can go. -/
inductive Stepped (w : AsyncLogWriter χ) : LogAction χ → AsyncLogWriter χ → Prop
  | append {t : ThreadId} {pctx : χ} (hfree : w.writing t = false) :
      Stepped w (.append t pctx) { w with
        pctxs := w.pctxs ++ [pctx]
        appended := w.appended ++ [pctx]
        writing := Function.update w.writing t true }
  | post {t : ThreadId} (hwriting : w.writing t = true) :
      Stepped w (.post t)
        { w with sem := w.sem.post 1, writing := Function.update w.writing t false }
  | goOn (hpc : w.worker = .test) (hrunning : w.running = true) :
      Stepped w .worker { w with worker := .wait }
  | exit (hpc : w.worker = .test) (hrunning : w.running = false) :
      Stepped w .worker { w with worker := .exited }
  | wait {sem : Semaphore} (hpc : w.worker = .wait) (hsem : w.sem.wait = some sem) :
      Stepped w .worker { w with sem := sem, worker := .flush }
  | flush (hpc : w.worker = .flush) :
      Stepped w .worker { w with pctxs := [], worker := .deliver w.pctxs }
  | delivered (hpc : w.worker = .deliver []) : Stepped w .worker { w with worker := .test }
  | deliver {pctx : χ} {tmp : List χ} (hpc : w.worker = .deliver (pctx :: tmp)) :
      Stepped w .worker { w.writeToChannels pctx with worker := .deliver tmp }
  | destroy (hpc : w.destructor = .idle) :
      Stepped w .destructor { w with running := false, destructor := .post }
  | lastPost (hpc : w.destructor = .post) :
      Stepped w .destructor { w with sem := w.sem.post 1, destructor := .join }
  | join (hpc : w.destructor = .join) (hexited : w.worker = .exited) :
      Stepped w .destructor { w with destructor := .flush }
  | lastFlush (hpc : w.destructor = .flush) :
      Stepped w .destructor { w with pctxs := [], destructor := .deliver w.pctxs }
  | lastDelivered (hpc : w.destructor = .deliver []) :
      Stepped w .destructor { w with destructor := .returned }
  | lastDeliver {pctx : χ} {tmp : List χ} (hpc : w.destructor = .deliver (pctx :: tmp)) :
      Stepped w .destructor { w.writeToChannels pctx with destructor := .deliver tmp }

theorem workerStep_stepped (hstep : w.workerStep = some w') : Stepped w .worker w' := by
  unfold workerStep at hstep
  split at hstep
  · next hpc =>
    cases hstep
    split
    · next hrunning => exact .goOn hpc hrunning
    · next hstopped => exact .exit hpc (Bool.eq_false_iff.2 hstopped)
  · next hpc =>
    obtain ⟨sem, hsem, rfl⟩ := Option.map_eq_some_iff.1 hstep
    exact .wait hpc hsem
  · next hpc =>
    cases hstep
    exact .flush hpc
  · next hpc =>
    cases hstep
    exact .delivered hpc
  · next hpc =>
    cases hstep
    exact .deliver hpc
  · cases hstep

theorem destructorStep_stepped (hstep : w.destructorStep = some w') :
    Stepped w .destructor w' := by
  unfold destructorStep at hstep
  split at hstep
  · next hpc =>
    cases hstep
    exact .destroy hpc
  · next hpc =>
    cases hstep
    exact .lastPost hpc
  · next hpc =>
    split at hstep
    · next hexited =>
      cases hstep
      exact .join hpc hexited
    · cases hstep
  · next hpc =>
    cases hstep
    exact .lastFlush hpc
  · next hpc =>
    cases hstep
    exact .lastDelivered hpc
  · next hpc =>
    cases hstep
    exact .lastDeliver hpc
  · cases hstep

theorem step_stepped (hstep : w.step a = some w') : Stepped w a w' := by
  cases a with
  | append t pctx =>
      obtain ⟨hfree, heq⟩ := Option.ite_none_left_eq_some.1 hstep
      cases heq
      exact .append (Bool.eq_false_iff.2 hfree)
  | post t =>
      obtain ⟨hwriting, heq⟩ := Option.ite_none_right_eq_some.1 hstep
      cases heq
      exact .post hwriting
  | worker => exact workerStep_stepped hstep
  | destructor => exact destructorStep_stepped hstep

/-! ## The writer as a program that shares its semaphore -/

def semOp (w : AsyncLogWriter χ) : LogAction χ → Option SemOp
  | .append _ _ => none
  | .post t => if w.writing t then some (.post 1) else none
  | .worker => if w.worker.isWait then some .wait else none
  | .destructor => if w.destructor.isPost then some (.post 1) else none

theorem sem_own (hop : w.semOp a = none) (hstep : Stepped w a w') : w'.sem = w.sem := by
  cases hstep with
  | post hwriting =>
      have hsome : w.semOp (.post _) = some (.post 1) := if_pos hwriting
      rw [hop] at hsome
      cases hsome
  | wait hpc hsem =>
      rw [semOp, hpc] at hop
      cases hop
  | lastPost hpc =>
      rw [semOp, hpc] at hop
      cases hop
  | _ => rfl

theorem sem_call {op : SemOp} (hop : w.semOp a = some op) :
    (w.step a).map sem = op.run w.sem := by
  cases a with
  | append t pctx => cases hop
  | post t =>
      obtain ⟨hwriting, heq⟩ := Option.ite_none_right_eq_some.1 hop
      cases heq
      exact congrArg (Option.map sem) (if_pos hwriting)
  | worker =>
      obtain ⟨hwait, heq⟩ := Option.ite_none_right_eq_some.1 hop
      cases heq
      show w.workerStep.map sem = w.sem.wait
      unfold workerStep
      cases hpc : w.worker with
      | wait =>
          dsimp only
          rw [Option.map_map]
          exact congrFun Option.map_id _
      | _ =>
          rw [hpc] at hwait
          cases hwait
  | destructor =>
      obtain ⟨hpost, heq⟩ := Option.ite_none_right_eq_some.1 hop
      cases heq
      show w.destructorStep.map sem = some (w.sem.post 1)
      unfold destructorStep
      cases hpc : w.destructor with
      | post => rfl
      | _ =>
          rw [hpc] at hpost
          cases hpost

theorem semOp_stable (hne : b.thread ≠ a.thread) (hstep : Stepped w b w') :
    w'.semOp a = w.semOp a := by
  cases a with
  | append t pctx => rfl
  | post t =>
      have hwriting : w'.writing t = w.writing t := by
        cases hstep with
        | append hfree =>
            apply Function.update_of_ne
            exact fun heq => hne (congrArg LogThread.writer heq.symm)
        | post hwriting =>
            apply Function.update_of_ne
            exact fun heq => hne (congrArg LogThread.writer heq.symm)
        | _ => rfl
      rw [semOp, semOp, hwriting]
  | worker =>
      have hworker : w'.worker = w.worker := by
        cases hstep with
        | append | post | destroy | lastPost | join | lastFlush | lastDelivered | lastDeliver => rfl
        | _ => exact absurd rfl hne
      rw [semOp, semOp, hworker]
  | destructor =>
      have hdestructor : w'.destructor = w.destructor := by
        cases hstep with
        | append | post | goOn | exit | wait | flush | delivered | deliver => rfl
        | _ => exact absurd rfl hne
      rw [semOp, semOp, hdestructor]

def program : SemProgram LogThread (AsyncLogWriter χ) (LogAction χ) where
  step := step
  thread := LogAction.thread
  sem := sem
  op := semOp
  own := fun hop hstep => sem_own hop (step_stepped hstep)
  call := sem_call
  stable := fun hop hne hstep => (semOp_stable hne (step_stepped hstep)).trans hop

/-! ## Tokens -/

/-- The outstanding posts stay below `2 ^ 32`. -/
def PostsFit (w : AsyncLogWriter χ) : LogAction χ → Prop
  | .post _ => w.sem.count + 1 < 2 ^ 32
  | .destructor => w.destructor = .post → w.sem.count + 1 < 2 ^ 32
  | _ => True

/-- A token is there, or on its way, for every context in the list, and for a worker that
waits after the destructor has posted. -/
structure Announced (w : AsyncLogWriter χ) : Prop where
  tokens : ∃ posting, CountAt w.writing true posting ∧
    w.pctxs.length ≤ w.sem.count + posting + w.worker.due
  running : w.running = true ↔ w.destructor = .idle
  exited : w.worker = .exited → w.destructor ≠ .idle
  last : w.destructor = .join → w.worker = .wait → 0 < w.sem.count

theorem init_conserved : ({} : AsyncLogWriter χ).Conserved where
  order := rfl
  joined := nofun
  flushed := nofun

theorem Conserved.all_delivered (h : w.Conserved) (hreturned : w.destructor = .returned) :
    w.delivered = w.appended := by
  have hexited := h.joined (by rw [hreturned]; trivial)
  have hempty := h.flushed (by rw [hreturned]; trivial)
  have horder := h.order
  rw [hexited, hreturned, hempty] at horder
  simpa only [WorkerPc.batch, DestructorPc.batch, List.append_nil] using horder

theorem init_announced : ({} : AsyncLogWriter χ).Announced where
  tokens := ⟨0, CountAt.zero fun _ h => (by cases h), Nat.le_refl 0⟩
  running := iff_of_true rfl rfl
  exited := fun h => by cases h
  last := fun h => by cases h

theorem Announced.tokens_of (h : w.Announced) (hwriting : w'.writing = w.writing)
    (hless : w'.pctxs.length + w.sem.count + w.worker.due ≤
      w.pctxs.length + w'.sem.count + w'.worker.due ∨ w'.pctxs = []) :
    ∃ posting, CountAt w'.writing true posting ∧
      w'.pctxs.length ≤ w'.sem.count + posting + w'.worker.due := by
  obtain ⟨posting, hposting, hle⟩ := h.tokens
  refine ⟨posting, hwriting ▸ hposting, ?_⟩
  rcases hless with hless | hempty
  · omega
  · rw [hempty]
    exact Nat.zero_le _

theorem Announced.stopped (h : w.Announced) (hbegun : w.destructor ≠ .idle) : ¬ w.running = true :=
  mt h.running.1 hbegun

theorem Stepped.announced (hstep : Stepped w a w') (h : w.Announced) (hfits : w.PostsFit a) :
    w'.Announced := by
  cases hstep with
  | @append t pctx hfree =>
      obtain ⟨posting, hposting, hle⟩ := h.tokens
      refine ⟨⟨posting + 1, hposting.enter (by rw [hfree]; decide), ?_⟩, h.running, h.exited,
        h.last⟩
      show (w.pctxs ++ [pctx]).length ≤ w.sem.count + (posting + 1) + w.worker.due
      rw [List.length_append, List.length_singleton]
      omega
  | @post t hwriting =>
      obtain ⟨posting, hposting, hle⟩ := h.tokens
      obtain ⟨hpos, hposting'⟩ := hposting.leave hwriting (q := false) (by decide)
      have hcount : (w.sem.post 1).count = w.sem.count + 1 := Semaphore.count_post hfits
      refine ⟨⟨posting - 1, hposting', ?_⟩, h.running, h.exited, fun _ _ => ?_⟩
      · show w.pctxs.length ≤ (w.sem.post 1).count + (posting - 1) + w.worker.due
        omega
      · show 0 < (w.sem.post 1).count
        omega
  | goOn hpc hrunning =>
      have hidle := h.running.1 hrunning
      refine ⟨h.tokens_of rfl (.inl ?_), h.running, fun hexited => ?_, fun hjoin => ?_⟩
      · rw [hpc]
        exact Nat.le_refl _
      · cases hexited
      · rw [hidle] at hjoin
        cases hjoin
  | exit hpc hrunning =>
      refine ⟨h.tokens_of rfl (.inl ?_), h.running, fun _ hidle => ?_, fun _ hwait => ?_⟩
      · rw [hpc]
        exact Nat.le_refl _
      · rw [h.running.2 hidle] at hrunning
        cases hrunning
      · cases hwait
  | @wait sem hpc hsem =>
      have hcount := Semaphore.count_wait hsem
      refine ⟨h.tokens_of rfl (.inl ?_), h.running, fun hexited => ?_, fun _ hwait => ?_⟩
      · rw [hpc]
        show w.pctxs.length + w.sem.count + 0 ≤ w.pctxs.length + sem.count + 1
        omega
      · cases hexited
      · cases hwait
  | flush hpc =>
      exact ⟨h.tokens_of rfl (.inr rfl), h.running, fun hexited => (by cases hexited),
        fun _ hwait => by cases hwait⟩
  | delivered hpc =>
      refine ⟨h.tokens_of rfl (.inl ?_), h.running, fun hexited => ?_, fun _ hwait => ?_⟩
      · rw [hpc]
        exact Nat.le_refl _
      · cases hexited
      · cases hwait
  | deliver hpc =>
      refine ⟨h.tokens_of rfl (.inl ?_), h.running, fun hexited => ?_, fun _ hwait => ?_⟩
      · rw [hpc]
        exact Nat.le_refl _
      · cases hexited
      · cases hwait
  | destroy hpc =>
      exact ⟨h.tokens, iff_of_false Bool.false_ne_true nofun, fun _ => nofun, nofun⟩
  | lastPost hpc =>
      have hcount : (w.sem.post 1).count = w.sem.count + 1 := Semaphore.count_post (hfits hpc)
      have hrunning := h.stopped (hpc ▸ nofun)
      refine ⟨h.tokens_of rfl (.inl ?_), iff_of_false hrunning nofun, fun _ => nofun,
        fun _ _ => ?_⟩
      · show w.pctxs.length + w.sem.count + w.worker.due ≤
          w.pctxs.length + (w.sem.post 1).count + w.worker.due
        omega
      · show 0 < (w.sem.post 1).count
        omega
  | join hpc hexited =>
      have hrunning := h.stopped (hpc ▸ nofun)
      exact ⟨h.tokens, iff_of_false hrunning nofun, fun _ => nofun, nofun⟩
  | lastFlush hpc =>
      have hrunning := h.stopped (hpc ▸ nofun)
      exact ⟨h.tokens_of rfl (.inr rfl), iff_of_false hrunning nofun, fun _ => nofun, nofun⟩
  | lastDelivered hpc =>
      have hrunning := h.stopped (hpc ▸ nofun)
      exact ⟨h.tokens, iff_of_false hrunning nofun, fun _ => nofun, nofun⟩
  | lastDeliver hpc =>
      have hrunning := h.stopped (hpc ▸ nofun)
      exact ⟨h.tokens, iff_of_false hrunning nofun, fun _ => nofun, nofun⟩

/-! ## When nobody writes anew -/

def writingAt (w : AsyncLogWriter χ) : LogThread → Bool
  | .writer t => w.writing t
  | .worker | .destructor => false

/-- A thread that has appended its context needs a step to post a token, which is worth 4. -/
def postCost : Bool → Nat
  | true => 5
  | false => 0

theorem writingAt_update (t : ThreadId) (b : Bool) {w' : AsyncLogWriter χ}
    (hwriting : w'.writing = Function.update w.writing t b) :
    w'.writingAt = Function.update w.writingAt (.writer t) b := by
  funext u
  cases u with
  | writer v =>
      show w'.writing v = _
      rw [hwriting, Function.update_apply, Function.update_apply]
      by_cases hv : v = t
      · rw [if_pos hv, if_pos (congrArg LogThread.writer hv)]
      · rw [if_neg hv, if_neg fun heq => hv (LogThread.writer.inj heq)]
        rfl
  | worker => rfl
  | destructor => rfl

/-- `threads` are the worker, the destructor and all that are in `Write`. -/
def Within (threads : Finset LogThread) (w : AsyncLogWriter χ) : Prop :=
  (.worker ∈ threads ∧ .destructor ∈ threads) ∧ ∀ t, w.writing t = true → .writer t ∈ threads

def stepsLeft (threads : Finset LogThread) (w : AsyncLogWriter χ) : Nat :=
  4 * w.sem.count + weight threads postCost w.writingAt + w.worker.left + w.destructor.left +
    w.pctxs.length

theorem stepsLeft_of {threads : Finset LogThread} (hwriting : w'.writing = w.writing)
    (hless : 4 * w'.sem.count + w'.worker.left + w'.destructor.left + w'.pctxs.length + 1 ≤
      4 * w.sem.count + w.worker.left + w.destructor.left + w.pctxs.length) :
    w'.stepsLeft threads + 1 ≤ w.stepsLeft threads := by
  have hsame : w'.writingAt = w.writingAt := by
    funext u
    cases u with
    | writer t => exact congrFun hwriting t
    | worker => rfl
    | destructor => rfl
  unfold stepsLeft
  rw [hsame]
  omega

theorem Stepped.descends (hstep : Stepped w a w') {threads : Finset LogThread}
    (h : w.Within threads) (hold : ∀ t pctx, a ≠ .append t pctx) :
    w'.Within threads ∧ w'.stepsLeft threads + 1 ≤ w.stepsLeft threads := by
  cases hstep with
  | append hfree => exact absurd rfl (hold _ _)
  | @post t hwriting =>
      have hcount : (w.sem.post 1).count ≤ w.sem.count + 1 := Nat.mod_le _ _
      have hsum := weight_update postCost w.writingAt false (h.2 t hwriting)
      have hone : w.writingAt (.writer t) = true := hwriting
      refine ⟨⟨h.1, fun u hu => h.2 u ?_⟩, ?_⟩
      · by_contra hno
        have hne : u ≠ t := by
          rintro rfl
          exact hno hwriting
        have hsame : Function.update w.writing t false u = w.writing u :=
          Function.update_of_ne hne _ _
        exact hno (hsame ▸ hu)
      · unfold stepsLeft
        rw [writingAt_update t false rfl]
        rw [hone] at hsum
        dsimp only [postCost] at hsum ⊢
        omega
  | goOn hpc hrunning =>
      refine ⟨h, stepsLeft_of rfl ?_⟩
      rw [hpc]
      dsimp only [WorkerPc.left]
      omega
  | exit hpc hrunning =>
      refine ⟨h, stepsLeft_of rfl ?_⟩
      rw [hpc]
      dsimp only [WorkerPc.left]
      omega
  | wait hpc hsem =>
      have hcount := Semaphore.count_wait hsem
      refine ⟨h, stepsLeft_of rfl ?_⟩
      rw [hpc]
      dsimp only [WorkerPc.left]
      omega
  | flush hpc =>
      refine ⟨h, stepsLeft_of rfl ?_⟩
      rw [hpc]
      dsimp only [WorkerPc.left, List.length_nil]
      omega
  | delivered hpc =>
      refine ⟨h, stepsLeft_of rfl ?_⟩
      rw [hpc]
      dsimp only [WorkerPc.left, List.length_nil]
      omega
  | deliver hpc =>
      refine ⟨h, stepsLeft_of rfl ?_⟩
      rw [hpc]
      dsimp only [WorkerPc.left, List.length_cons, writeToChannels]
      omega
  | destroy hpc =>
      refine ⟨h, stepsLeft_of rfl ?_⟩
      rw [hpc]
      dsimp only [DestructorPc.left]
      omega
  | lastPost hpc =>
      have hcount : (w.sem.post 1).count ≤ w.sem.count + 1 := Nat.mod_le _ _
      refine ⟨h, stepsLeft_of rfl ?_⟩
      rw [hpc]
      dsimp only [DestructorPc.left]
      omega
  | join hpc hexited =>
      refine ⟨h, stepsLeft_of rfl ?_⟩
      rw [hpc]
      dsimp only [DestructorPc.left]
      omega
  | lastFlush hpc =>
      refine ⟨h, stepsLeft_of rfl ?_⟩
      rw [hpc]
      dsimp only [DestructorPc.left, List.length_nil]
      omega
  | lastDelivered hpc =>
      refine ⟨h, stepsLeft_of rfl ?_⟩
      rw [hpc]
      dsimp only [DestructorPc.left, List.length_nil]
      omega
  | lastDeliver hpc =>
      refine ⟨h, stepsLeft_of rfl ?_⟩
      rw [hpc]
      dsimp only [DestructorPc.left, List.length_cons, writeToChannels]
      omega

theorem not_append_of_begins {destroyed : Bool} (hold : a.begins destroyed = false) (t : ThreadId)
    (pctx : χ) : a ≠ .append t pctx := by
  rintro rfl
  cases hold

theorem settles (destroyed : Bool) (threads : Finset LogThread) :
    Monitor.Settles (@program χ) (LogAction.begins destroyed) threads (Within threads)
      (stepsLeft threads) where
  actor := by
    intro w a h hold hcan
    cases a with
    | append t pctx => cases hold
    | post t =>
        apply h.2 t
        by_contra hno
        rcases hcan with hop | hstep
        · exact hop (if_neg hno)
        · exact hstep (if_neg hno)
    | worker => exact h.1.1
    | destructor => exact h.1.2
  less := fun h hold hstep => (step_stepped hstep).descends h (not_append_of_begins hold)
  call := by
    intro w w' a h _ hop hstep
    obtain ⟨hwithin, hless⟩ := (step_stepped hstep).descends h (by rintro t pctx rfl; exact hop rfl)
    exact ⟨hwithin, Nat.le_of_succ_le hless⟩

theorem Stepped.within (hstep : Stepped w a w') {threads : Finset LogThread}
    (h : w.Within threads) : w'.Within (insert a.thread threads) := by
  refine ⟨h.1.imp (Finset.mem_insert_of_mem) (Finset.mem_insert_of_mem), fun t ht => ?_⟩
  cases hstep with
  | @append u pctx hfree =>
      by_cases hu : t = u
      · rw [hu]
        exact Finset.mem_insert_self _ _
      · have hsame : Function.update w.writing u true t = w.writing t :=
          Function.update_of_ne hu _ _
        exact Finset.mem_insert_of_mem (h.2 t (hsame ▸ ht))
  | @post u hwriting =>
      by_cases hu : t = u
      · rw [hu]
        exact Finset.mem_insert_self _ _
      · have hsame : Function.update w.writing u false t = w.writing t :=
          Function.update_of_ne hu _ _
        exact Finset.mem_insert_of_mem (h.2 t (hsame ▸ ht))
  | _ => exact Finset.mem_insert_of_mem (h.2 t ht)

variable {m m' : Monitor LogThread (AsyncLogWriter χ) (LogAction χ)} {destroyed : Bool}

theorem semOp_wait (hop : w.semOp a = some .wait) : a = .worker ∧ w.worker = .wait := by
  cases a with
  | append t pctx => cases hop
  | post t =>
      obtain ⟨-, heq⟩ := Option.ite_none_right_eq_some.1 hop
      cases heq
  | worker =>
      obtain ⟨hwait, -⟩ := Option.ite_none_right_eq_some.1 hop
      refine ⟨rfl, ?_⟩
      cases hpc : w.worker with
      | wait => rfl
      | _ =>
          rw [hpc] at hwait
          cases hwait
  | destructor =>
      obtain ⟨-, heq⟩ := Option.ite_none_right_eq_some.1 hop
      cases heq

theorem stuck_places (hstuck : Monitor.Stuck program (LogAction.begins destroyed) m)
    {threads : Finset LogThread} (hok : Monitor.Ok program threads m) :
    (∀ t, m.base.writing t = false) ∧
      (m.base.worker = .exited ∨ m.base.worker = .wait ∧ m.base.sem.count = 0) ∧
      (destroyed = true → m.base.destructor = .returned ∨
        m.base.destructor = .join ∧ m.base.worker ≠ .exited) := by
  obtain ⟨hplaces, hcan⟩ := hstuck.settled hok
  refine ⟨fun t => ?_, ?_, fun hdestroyed => ?_⟩
  · by_contra hno
    have hwriting : m.base.writing t = true := Bool.not_eq_false _ ▸ hno
    rcases hplaces (.writer t) with hout | ⟨a, -, hthread, hop, -⟩
    · have hnone := (hcan (.post t) rfl hout).1
      have hsome : m.base.semOp (.post t) = some (.post 1) := if_pos hwriting
      rw [show m.base.semOp (.post t) = none from hnone] at hsome
      cases hsome
    · obtain ⟨rfl, -⟩ := semOp_wait hop
      cases hthread
  · rcases hplaces .worker with hout | ⟨a, -, -, hop, hcount⟩
    · obtain ⟨hop, hstep⟩ := hcan .worker rfl hout
      replace hop : m.base.semOp .worker = none := hop
      replace hstep : m.base.workerStep = none := hstep
      unfold workerStep at hstep
      cases hpc : m.base.worker with
      | exited => exact .inl rfl
      | wait =>
          rw [semOp, hpc] at hop
          cases hop
      | deliver tmp =>
          rw [hpc] at hstep
          cases tmp <;> cases hstep
      | test | flush =>
          rw [hpc] at hstep
          cases hstep
    · exact .inr ⟨(semOp_wait hop).2, hcount⟩
  · subst hdestroyed
    rcases hplaces .destructor with hout | ⟨a, -, hthread, hop, -⟩
    · obtain ⟨-, hstep⟩ := hcan .destructor rfl hout
      replace hstep : m.base.destructorStep = none := hstep
      unfold destructorStep at hstep
      cases hpc : m.base.destructor with
      | returned => exact .inl rfl
      | join =>
          rw [hpc] at hstep
          refine .inr ⟨rfl, fun hexited => ?_⟩
          rw [hexited] at hstep
          cases hstep
      | deliver tmp =>
          rw [hpc] at hstep
          cases tmp <;> cases hstep
      | idle | post | flush =>
          rw [hpc] at hstep
          cases hstep
    · obtain ⟨rfl, -⟩ := semOp_wait hop
      cases hthread

/-- What is asked of a run: the destructor comes last, and the posts fit. -/
def Admissible (w : AsyncLogWriter χ) (a : LogAction χ) : Prop :=
  w.DestroyedLast a ∧ w.PostsFit a

theorem base_kept {acts : List (MonitorAction LogThread (LogAction χ))}
    (hrun : Run (Monitor.step program) (Monitor.Lifted Admissible) m acts m')
    (h : m.base.Conserved ∧ m.base.Announced) : m'.base.Conserved ∧ m'.base.Announced := by
  obtain ⟨acts', hbase⟩ := Monitor.base_run hrun
  refine hbase.invariant (I := fun w => w.Conserved ∧ w.Announced) ?_ h
  rintro w a w' ⟨hconserved, hannounced⟩ ⟨hlast, hfits⟩ hstep
  exact ⟨step_conserved hconserved hlast hstep, (step_stepped hstep).announced hannounced hfits⟩

theorem quiet_end {acts : List (MonitorAction LogThread (LogAction χ))}
    (hrun : Run (Monitor.step program) (Monitor.Lifted Admissible) { base := {} } acts m)
    (destroyed : Bool) :
    ∃ bound, ∀ more m', Run (Monitor.step program) (fun m act => Monitor.Lifted Admissible m act ∧
        Monitor.Quiet (LogAction.begins destroyed) m act) m more m' →
      more.length ≤ bound + 3 * more.countP MonitorAction.isSpurious ∧
        (m'.base.Conserved ∧ m'.base.Announced) ∧
          ∃ threads, Monitor.Ok program threads m' := by
  obtain ⟨inMonitor, hok⟩ := Monitor.run_ok hrun ⟨∅, Monitor.init_ok program {}⟩
  obtain ⟨inWriter, hwithin⟩ := Monitor.base_invariant
    (I := fun w : AsyncLogWriter χ => ∃ threads, w.Within threads) hrun
    (fun _ _ _ ⟨threads, h⟩ hstep => ⟨_, (step_stepped hstep).within h⟩)
    ⟨{.worker, .destructor}, ⟨by decide, by decide⟩, fun t ht => by cases ht⟩
  have hkept := base_kept hrun ⟨init_conserved, init_announced⟩
  have hok' : Monitor.Ok program (inMonitor ∪ inWriter) m := hok.mono Finset.subset_union_left
  have hwithin' : m.base.Within (inMonitor ∪ inWriter) :=
    ⟨⟨Finset.mem_union_right _ hwithin.1.1, Finset.mem_union_right _ hwithin.1.2⟩,
      fun t ht => Finset.mem_union_right _ (hwithin.2 t ht)⟩
  refine ⟨Monitor.stepsLeft (LogAction.begins destroyed) (inMonitor ∪ inWriter)
    (stepsLeft (inMonitor ∪ inWriter)) m, fun more m' hmore => ?_⟩
  obtain ⟨⟨hafter, -⟩, hlength⟩ := Monitor.quiet_run_length (hmore.mono fun _ _ h => h.2) hok'
    (settles destroyed _) hwithin'
  exact ⟨hlength, base_kept (hmore.mono fun _ _ h => h.1) hkept, _, hafter⟩

/-- What has been written is delivered, although nobody writes anything more: the steps that
follow are bounded, and when nobody can take one, the worker is blocked and everything has been
delivered. -/
theorem written_is_delivered {acts : List (MonitorAction LogThread (LogAction χ))}
    (hrun : Run (Monitor.step program) (Monitor.Lifted Admissible) { base := {} } acts m) :
    ∃ bound, ∀ more m', Run (Monitor.step program) (fun m act => Monitor.Lifted Admissible m act ∧
        Monitor.Quiet (LogAction.begins false) m act) m more m' →
      more.length ≤ bound + 3 * more.countP MonitorAction.isSpurious ∧
        (Monitor.Stuck program (LogAction.begins false) m' → m'.base.destructor = .idle →
          m'.base.worker = .wait ∧ m'.base.delivered = m'.base.appended) := by
  obtain ⟨bound, hbound⟩ := quiet_end hrun false
  refine ⟨bound, fun more m' hmore => ?_⟩
  obtain ⟨hlength, ⟨hconserved, hannounced⟩, threads, hok⟩ := hbound more m' hmore
  refine ⟨hlength, fun hstuck hidle => ?_⟩
  obtain ⟨hwriting, hworker, -⟩ := stuck_places hstuck hok
  obtain ⟨hwait, hcount⟩ : m'.base.worker = .wait ∧ m'.base.sem.count = 0 := by
    rcases hworker with hexited | hblocked
    · exact absurd hidle (hannounced.exited hexited)
    · exact hblocked
  refine ⟨hwait, ?_⟩
  obtain ⟨posting, hposting, hle⟩ := hannounced.tokens
  have hzero : posting = 0 := hposting.eq_zero fun t ht => by
    rw [hwriting t] at ht
    cases ht
  have hempty : m'.base.pctxs = [] := by
    apply List.length_eq_zero_iff.1
    rw [hwait] at hle
    dsimp only [WorkerPc.due] at hle
    omega
  have horder := hconserved.order
  rw [hwait, hidle, hempty] at horder
  simpa only [WorkerPc.batch, DestructorPc.batch, List.append_nil] using horder

theorem stuck_of_blocked (hworker : m.pc .worker = .asleep .worker)
    (hothers : ∀ t, t ≠ .worker → m.pc t = .out) (hwriting : ∀ t, m.base.writing t = false) :
    Monitor.Stuck program (LogAction.begins false) m := by
  refine Monitor.stuck_of_settled (fun t => ?_) fun a hfresh hout => ?_
  · by_cases ht : t = .worker
    · rw [ht]
      exact .inr ⟨_, hworker⟩
    · exact .inl (hothers t ht)
  · cases a with
    | append t pctx => cases hfresh
    | post t =>
        have hno : ¬ m.base.writing t := by
          rw [hwriting t]
          exact Bool.false_ne_true
        exact ⟨if_neg hno, if_neg hno⟩
    | worker => cases hworker.symm.trans hout
    | destructor => cases hfresh

/-- The worker is blocked when the first context is written, and the post that wakes it up has
not notified it yet.  It is notified, delivers the context and is blocked again. -/
theorem written_is_delivered_blocked :
    ∃ m m' : Monitor LogThread (AsyncLogWriter Nat) (LogAction Nat),
      m.pc .worker = .asleep .worker ∧ m.pc (.writer 7) = .notify 1 ∧ m.base.pctxs = [10] ∧
        Monitor.Stuck program (LogAction.begins false) m' ∧ m'.base.appended = [10] ∧
        m'.base.worker = .wait ∧ m'.base.delivered = m'.base.appended := by
  have hruns : ∃ m m' : Monitor LogThread (AsyncLogWriter Nat) (LogAction Nat),
      Run (Monitor.step program) (Monitor.Lifted Admissible) { base := {} }
        [.own .worker, .call .worker, .lock .worker, .count .worker, .own (.append 7 10),
          .call (.post 7), .lock (.writer 7), .count (.writer 7)] m ∧
      (m.pc .worker = .asleep .worker ∧ m.pc (.writer 7) = .notify 1 ∧ m.base.pctxs = [10]) ∧
      Run (Monitor.step program) (fun m act => Monitor.Lifted Admissible m act ∧
          Monitor.Quiet (LogAction.begins false) m act) m
        [.notify (.writer 7) (some .worker), .unlock (.writer 7), .lock .worker, .count .worker,
          .unlock .worker, .own .worker, .own .worker, .own .worker, .own .worker, .call .worker,
          .lock .worker, .count .worker] m' ∧
      Monitor.Stuck program (LogAction.begins false) m' ∧ m'.base.appended = [10] ∧
        m'.base.destructor = .idle := by
    refine ⟨_, _, .cons ⟨trivial, trivial⟩ rfl <| .cons trivial rfl <| .cons trivial rfl <|
      .cons (fun a op h => by cases h; exact ⟨trivial, trivial⟩) rfl <|
      .cons ⟨rfl, trivial⟩ rfl <| .cons trivial rfl <| .cons trivial rfl <|
      .cons (fun a op h => by cases h; exact ⟨trivial, (by decide : 0 + 1 < 2 ^ 32)⟩) rfl <|
      .nil _, ⟨rfl, rfl, rfl⟩, .cons ⟨trivial, trivial⟩ rfl <| .cons ⟨trivial, trivial⟩ rfl <|
      .cons ⟨trivial, trivial⟩ rfl <|
      .cons ⟨fun a op h => by cases h; exact ⟨trivial, trivial⟩, trivial⟩ rfl <|
      .cons ⟨trivial, trivial⟩ rfl <| .cons ⟨⟨trivial, trivial⟩, rfl⟩ rfl <|
      .cons ⟨⟨trivial, trivial⟩, rfl⟩ rfl <| .cons ⟨⟨trivial, trivial⟩, rfl⟩ rfl <|
      .cons ⟨⟨trivial, trivial⟩, rfl⟩ rfl <| .cons ⟨trivial, rfl⟩ rfl <|
      .cons ⟨trivial, trivial⟩ rfl <|
      .cons ⟨fun a op h => by cases h; exact ⟨trivial, trivial⟩, trivial⟩ rfl <| .nil _,
      stuck_of_blocked rfl (fun t ht => ?_) fun t => ?_, rfl, rfl⟩
    · cases t with
      | worker => exact absurd rfl ht
      | destructor => rfl
      | writer t =>
          by_cases h7 : t = 7
          · rw [h7]
            rfl
          · simp [Monitor.goTo, Monitor.wake, Function.update, program, LogAction.thread, h7]
    · show Function.update (Function.update (fun _ => false) 7 true) 7 false t = false
      by_cases h7 : t = 7
      · rw [h7]
        rfl
      · rw [Function.update_of_ne h7, Function.update_of_ne h7]
  obtain ⟨m, m', hrun, ⟨hasleep, hnotify, hpctxs⟩, hmore, hstuck, happended, hidle⟩ := hruns
  obtain ⟨bound, hbound⟩ := written_is_delivered hrun
  exact ⟨m, m', hasleep, hnotify, hpctxs, hstuck, happended,
    (hbound _ m' hmore).2 hstuck hidle⟩

/-- The destructor, which is called when no thread is in `Write`, returns, and everything has
been delivered then. -/
theorem destructor_returns {acts : List (MonitorAction LogThread (LogAction χ))}
    (hrun : Run (Monitor.step program) (Monitor.Lifted Admissible) { base := {} } acts m) :
    ∃ bound, ∀ more m', Run (Monitor.step program) (fun m act => Monitor.Lifted Admissible m act ∧
        Monitor.Quiet (LogAction.begins true) m act) m more m' →
      more.length ≤ bound + 3 * more.countP MonitorAction.isSpurious ∧
        (Monitor.Stuck program (LogAction.begins true) m' →
          m'.base.destructor = .returned ∧ m'.base.delivered = m'.base.appended) := by
  obtain ⟨bound, hbound⟩ := quiet_end hrun true
  refine ⟨bound, fun more m' hmore => ?_⟩
  obtain ⟨hlength, ⟨hconserved, hannounced⟩, threads, hok⟩ := hbound more m' hmore
  refine ⟨hlength, fun hstuck => ?_⟩
  obtain ⟨-, hworker, hdestructor⟩ := stuck_places hstuck hok
  have hreturned : m'.base.destructor = .returned := by
    rcases hdestructor rfl with hreturned | ⟨hjoin, hnotExited⟩
    · exact hreturned
    · -- the token of the destructor is still there for the worker
      obtain ⟨hwait, hcount⟩ := hworker.resolve_left hnotExited
      have hpos := hannounced.last hjoin hwait
      omega
  exact ⟨hreturned, hconserved.all_delivered hreturned⟩

theorem stuck_of_returned (hpc : ∀ t, m.pc t = .out) (hworker : m.base.worker = .exited)
    (hreturned : m.base.destructor = .returned) (hwriting : ∀ t, m.base.writing t = false) :
    Monitor.Stuck program (LogAction.begins true) m := by
  refine Monitor.stuck_of_settled (fun t => .inl (hpc t)) fun a hfresh _ => ?_
  cases a with
  | append t pctx => cases hfresh
  | post t =>
      have hno : ¬ m.base.writing t := by
        rw [hwriting t]
        exact Bool.false_ne_true
      exact ⟨if_neg hno, if_neg hno⟩
  | worker =>
      refine ⟨if_neg ?_, ?_⟩
      · rw [hworker]
        exact Bool.false_ne_true
      · show m.base.workerStep = none
        rw [workerStep, hworker]
  | destructor =>
      refine ⟨if_neg ?_, ?_⟩
      · rw [hreturned]
        exact Bool.false_ne_true
      · show m.base.destructorStep = none
        rw [destructorStep, hreturned]

/-- The worker is blocked, and the destructor is about to lock the mutex of the semaphore.  It
wakes the worker up, which exits, and returns. -/
theorem destructor_returns_blocked :
    ∃ m m' : Monitor LogThread (AsyncLogWriter Nat) (LogAction Nat),
      m.pc .worker = .asleep .worker ∧ m.base.destructor = .post ∧
        Monitor.Stuck program (LogAction.begins true) m' ∧ m'.base.destructor = .returned ∧
        m'.base.delivered = m'.base.appended := by
  have hruns : ∃ m m' : Monitor LogThread (AsyncLogWriter Nat) (LogAction Nat),
      Run (Monitor.step program) (Monitor.Lifted Admissible) { base := {} }
        [.own .worker, .call .worker, .lock .worker, .count .worker, .own .destructor,
          .call .destructor] m ∧
      (m.pc .worker = .asleep .worker ∧ m.base.destructor = .post) ∧
      Run (Monitor.step program) (fun m act => Monitor.Lifted Admissible m act ∧
          Monitor.Quiet (LogAction.begins true) m act) m
        [.lock .destructor, .count .destructor, .notify .destructor (some .worker),
          .unlock .destructor, .lock .worker, .count .worker, .unlock .worker, .own .worker,
          .own .worker, .own .worker, .own .destructor, .own .destructor, .own .destructor] m' ∧
      Monitor.Stuck program (LogAction.begins true) m' := by
    refine ⟨_, _, .cons ⟨trivial, trivial⟩ rfl <| .cons trivial rfl <| .cons trivial rfl <|
      .cons (fun a op h => by cases h; exact ⟨trivial, trivial⟩) rfl <|
      .cons ⟨fun _ _ => rfl, fun h => by cases h⟩ rfl <| .cons trivial rfl <| .nil _,
      ⟨rfl, rfl⟩, .cons ⟨trivial, trivial⟩ rfl <|
      .cons ⟨fun a op h => by
        cases h
        exact ⟨fun h => (by cases h), fun _ => (by decide : 0 + 1 < 2 ^ 32)⟩, trivial⟩ rfl <|
      .cons ⟨trivial, trivial⟩ rfl <| .cons ⟨trivial, trivial⟩ rfl <|
      .cons ⟨trivial, trivial⟩ rfl <|
      .cons ⟨fun a op h => by cases h; exact ⟨trivial, trivial⟩, trivial⟩ rfl <|
      .cons ⟨trivial, trivial⟩ rfl <| .cons ⟨⟨trivial, trivial⟩, rfl⟩ rfl <|
      .cons ⟨⟨trivial, trivial⟩, rfl⟩ rfl <| .cons ⟨⟨trivial, trivial⟩, rfl⟩ rfl <|
      .cons ⟨⟨fun h => (by cases h), fun h => (by cases h)⟩, rfl⟩ rfl <|
      .cons ⟨⟨fun h => (by cases h), fun h => (by cases h)⟩, rfl⟩ rfl <|
      .cons ⟨⟨fun h => (by cases h), fun h => (by cases h)⟩, rfl⟩ rfl <| .nil _,
      stuck_of_returned (fun t => ?_) rfl rfl fun t => rfl⟩
    cases t with
    | worker | destructor => rfl
    | writer t =>
        simp [Monitor.goTo, Monitor.wake, Function.update, program, LogAction.thread]
  obtain ⟨m, m', hrun, ⟨hasleep, hpost⟩, hmore, hstuck⟩ := hruns
  obtain ⟨bound, hbound⟩ := destructor_returns hrun
  exact ⟨m, m', hasleep, hpost, hstuck, (hbound _ m' hmore).2 hstuck⟩

end AsyncLogWriter

end CommonLibrary.Utils
