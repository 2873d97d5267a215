import CommonLibrary.Poller.EventPoller
import Mathlib.Data.List.Induction
import Mathlib.Tactic.Common

/-!
# Dispatching one batch of events

`RunLoop` looks every event of a batch up in `event_map_` by its descriptor number
when its turn comes, after the callbacks of the earlier events have run.  A
registration is identified by the callback object that `AddEvent` allocates for it.
-/

namespace CommonLibrary.Poller

variable {τ δ : Type}

/-- The identity of a `PollEventCB` object. -/
abbrev CallbackId := Nat

/-- A poller whose interest set holds only numbers of `event_map_`. -/
structure Registry (τ δ : Type) where
  poller : EventPoller τ CallbackId δ
  nextCallback : CallbackId
  mapped : ∀ fd, poller.eventMap fd = none → poller.epollSet fd = none
  fresh : ∀ fd cb, poller.eventMap fd = some cb → cb < nextCallback

/-- What a callback may do to the registrations. -/
inductive MapOp where
  | addEvent (fd : Fd) (event : Nat) (ctlOk : Bool)
  | delEvent (fd : Fd)
  | modifyEvent (fd : Fd) (event : Nat)
  /-- the descriptor is closed, with or without a `DelEvent` before -/
  | close (fd : Fd)
  deriving DecidableEq

namespace Registry

def addEvent (r : Registry τ δ) (fd : Fd) (event : Nat) (ctlOk : Bool) : Registry τ δ where
  poller := (r.poller.addEvent fd event r.nextCallback ctlOk).1
  nextCallback := r.nextCallback + 1
  mapped := by
    intro fd' hnone
    have hold := r.mapped fd'
    have hfd := r.mapped fd
    rw [EventPoller.eventMap_addEvent] at hnone
    rw [EventPoller.epollSet_addEvent]
    split at hnone
    · cases hnone
    · rw [if_neg]
      · exact hold hnone
      · rintro ⟨rfl, hok, hset⟩
        tauto
  fresh := by
    intro fd' cb hcb
    rw [EventPoller.eventMap_addEvent] at hcb
    split at hcb
    · cases hcb; exact Nat.lt_succ_self _
    · exact Nat.lt_succ_of_lt (r.fresh fd' cb hcb)

def delEvent (r : Registry τ δ) (fd : Fd) : Registry τ δ where
  poller := (r.poller.delEvent fd).1
  nextCallback := r.nextCallback
  mapped := by
    intro fd' hnone
    have hold := r.mapped fd'
    rw [EventPoller.eventMap_delEvent] at hnone
    rw [EventPoller.epollSet_delEvent]
    split
    · rfl
    · next hnot =>
      split at hnone
      · next heq =>
        obtain ⟨rfl, hset⟩ := heq
        exact hold (by simpa using fun hmap => hnot ⟨rfl, hmap⟩)
      · exact hold hnone
  fresh := by
    intro fd' cb hcb
    rw [EventPoller.eventMap_delEvent] at hcb
    split at hcb
    · cases hcb
    · exact r.fresh fd' cb hcb

def modifyEvent (r : Registry τ δ) (fd : Fd) (event : Nat) : Registry τ δ where
  poller := (r.poller.modifyEvent fd event).1
  nextCallback := r.nextCallback
  mapped := by
    intro fd' hnone
    rw [EventPoller.eventMap_modifyEvent] at hnone
    have hset := EventPoller.isSome_epollSet_modifyEvent (p := r.poller) fd fd' event
    rw [r.mapped fd' hnone] at hset
    simpa using hset
  fresh := by
    intro fd' cb hcb
    rw [EventPoller.eventMap_modifyEvent] at hcb
    exact r.fresh fd' cb hcb

def dropInterest (r : Registry τ δ) (fd : Fd) : Registry τ δ where
  poller := r.poller.dropInterest fd
  nextCallback := r.nextCallback
  mapped := by
    intro fd' hnone
    rw [EventPoller.epollSet_dropInterest]
    split
    · rfl
    · exact r.mapped fd' hnone
  fresh := r.fresh

def apply (r : Registry τ δ) : MapOp → Registry τ δ
  | .addEvent fd event ctlOk => r.addEvent fd event ctlOk
  | .delEvent fd => r.delEvent fd
  | .modifyEvent fd event => r.modifyEvent fd event
  | .close fd => r.dropInterest fd

def applyAll (r : Registry τ δ) (ops : List MapOp) : Registry τ δ := ops.foldl apply r

def eventMap (r : Registry τ δ) : Fd → Option CallbackId := r.poller.eventMap

theorem dropInterest_eq (r : Registry τ δ) {fd : Fd} (hmap : r.eventMap fd = none) :
    r.dropInterest fd = r := by
  have hp := EventPoller.dropInterest_eq (r.mapped fd hmap)
  unfold dropInterest
  simp only [hp]

end Registry

/-- An entry of the array `epoll_wait` filled, with what the callback does that
`RunLoop` calls for it, if it calls one. -/
structure BatchEvent where
  fd : Fd
  events : Nat
  ops : List MapOp

structure Handled where
  fd : Fd
  event : Nat
  /-- the callback that was called; `none`: the event was discarded -/
  invoked : Option CallbackId
  /-- what that callback did -/
  ops : List MapOp
  deriving DecidableEq

/-- The `for` loop of `RunLoop` over `events[0..n)`. -/
def runBatch (r : Registry τ δ) : List BatchEvent → List Handled
  | [] => []
  | ev :: evs =>
      match r.eventMap ev.fd with
      | none => ⟨ev.fd, toPoller ev.events, none, []⟩ :: runBatch (r.dropInterest ev.fd) evs
      | some cb =>
          ⟨ev.fd, toPoller ev.events, some cb, ev.ops⟩ :: runBatch (r.applyAll ev.ops) evs

/-- What the callbacks run before event `k` of the batch did, in order. -/
def opsBefore (log : List Handled) (k : Nat) : List MapOp :=
  (log.take k).flatMap Handled.ops

/-- At some point of `ops` the number `fd` had no registration. -/
def Removed (r : Registry τ δ) (fd : Fd) (ops : List MapOp) : Prop :=
  ∃ before, before <+: ops ∧ (r.applyAll before).eventMap fd = none

/-- Every event went to the registration its number had when `epoll_wait` returned,
and was discarded if that one has been removed meanwhile. -/
def Genuine (r : Registry τ δ) (log : List Handled) : Prop :=
  ∀ k h, log[k]? = some h →
    (Removed r h.fd (opsBefore log k) → h.invoked = none) ∧
      (¬ Removed r h.fd (opsBefore log k) → h.invoked = r.eventMap h.fd)

/-! ## Numbers that are registered anew -/

/-- What has become of the registration of a descriptor number. -/
inductive RegStatus where
  | kept | removed | reused
  deriving DecidableEq

/-- The fate of one number: its registration, and whether it is in the interest set. -/
structure RegTrack where
  status : RegStatus
  watched : Bool
  deriving DecidableEq

/-- A successful `DelEvent` removes the registration, and a successful `AddEvent` of a
number without one gives it another. -/
def RegTrack.next (fd : Fd) (t : RegTrack) : MapOp → RegTrack
  | .addEvent fd' _ ctlOk =>
      if fd' = fd ∧ ctlOk ∧ t.watched = false then
        ⟨if t.status = .removed then .reused else t.status, true⟩
      else t
  | .delEvent fd' => if fd' = fd ∧ t.watched then ⟨.removed, false⟩ else t
  | .modifyEvent _ _ => t
  | .close fd' => if fd' = fd then { t with watched := false } else t

def RegTrack.start (r : Registry τ δ) (fd : Fd) : RegTrack where
  status := if (r.eventMap fd).isSome then .kept else .removed
  watched := (r.poller.epollSet fd).isSome

def regTrack (r : Registry τ δ) (fd : Fd) (ops : List MapOp) : RegTrack :=
  ops.foldl (RegTrack.next fd) (.start r fd)

/-- No event of the batch finds its number registered anew by the callbacks of the
events before it. -/
def NoReuse (r : Registry τ δ) (log : List Handled) : Prop :=
  ∀ k h, log[k]? = some h → (regTrack r h.fd (opsBefore log k)).status ≠ .reused

/-- What `event_map_` holds for a number of each status. -/
def RegStatus.Describes (r : Registry τ δ) (fd : Fd) (ops : List MapOp) :
    RegStatus → Prop
  | .kept => (r.applyAll ops).eventMap fd = r.eventMap fd ∧ ¬ Removed r fd ops
  | .removed => (r.applyAll ops).eventMap fd = none
  | .reused =>
      Removed r fd ops ∧
        ∃ cb, (r.applyAll ops).eventMap fd = some cb ∧ r.nextCallback ≤ cb

variable {r : Registry τ δ}

theorem applyAll_append (ops : List MapOp) (op : MapOp) :
    r.applyAll (ops ++ [op]) = (r.applyAll ops).apply op := by
  simp [Registry.applyAll]

theorem regTrack_append (fd : Fd) (ops : List MapOp) (op : MapOp) :
    regTrack r fd (ops ++ [op]) = (regTrack r fd ops).next fd op := by
  simp [regTrack]

theorem removed_append (fd : Fd) (ops : List MapOp) (op : MapOp) :
    Removed r fd (ops ++ [op]) ↔
      Removed r fd ops ∨ ((r.applyAll ops).apply op).eventMap fd = none := by
  constructor
  · rintro ⟨before, hpre, hnone⟩
    rcases List.prefix_concat_iff.1 hpre with rfl | hpre
    · exact .inr (by rwa [← applyAll_append])
    · exact .inl ⟨before, hpre, hnone⟩
  · rintro (⟨before, hpre, hnone⟩ | hnone)
    · exact ⟨before, hpre.trans (List.prefix_append _ _), hnone⟩
    · exact ⟨_, List.prefix_refl _, by rwa [applyAll_append]⟩

theorem nextCallback_le (ops : List MapOp) : r.nextCallback ≤ (r.applyAll ops).nextCallback := by
  induction ops using List.reverseRecOn with
  | nil => exact le_refl _
  | append_singleton ops op ih =>
      rw [applyAll_append]
      cases op with
      | addEvent fd event ctlOk => exact Nat.le_succ_of_le ih
      | delEvent fd => exact ih
      | modifyEvent fd event => exact ih
      | close fd => exact ih

theorem RegStatus.Describes.keep {fd : Fd} {ops : List MapOp} {op : MapOp} {s : RegStatus}
    (h : s.Describes r fd ops)
    (hsame : ((r.applyAll ops).apply op).eventMap fd = (r.applyAll ops).eventMap fd) :
    s.Describes r fd (ops ++ [op]) := by
  cases s with
  | kept =>
      obtain ⟨hmap, hnot⟩ := h
      refine ⟨by rw [applyAll_append, hsame, hmap], ?_⟩
      rw [removed_append, hsame]
      rintro (hrem | hnone)
      · exact hnot hrem
      · exact hnot ⟨ops, List.prefix_refl _, hnone⟩
  | removed =>
      show (r.applyAll (ops ++ [op])).eventMap fd = none
      rw [applyAll_append, hsame]
      exact h
  | reused =>
      obtain ⟨hrem, cb, hcb, hle⟩ := h
      exact ⟨(removed_append fd ops op).2 (.inl hrem), cb,
        by rw [applyAll_append, hsame, hcb], hle⟩

theorem RegStatus.Describes.eq_none {fd : Fd} {ops : List MapOp} {s : RegStatus}
    (h : s.Describes r fd ops) :
    (r.applyAll ops).eventMap fd = none ↔ s = .removed := by
  cases s with
  | kept =>
      exact ⟨fun hnone => absurd ⟨ops, List.prefix_refl _, hnone⟩ h.2, fun hc => by cases hc⟩
  | removed => exact ⟨fun _ => rfl, fun _ => h⟩
  | reused =>
      obtain ⟨_, cb, hcb, _⟩ := h
      simp [hcb]

theorem RegStatus.Describes.addEvent {fd : Fd} {ops : List MapOp} {t : RegTrack}
    (h : t.status.Describes r fd ops)
    (hwatch : t.watched = ((r.applyAll ops).poller.epollSet fd).isSome)
    (fd' : Fd) (event : Nat) (ctlOk : Bool) :
    (t.next fd (.addEvent fd' event ctlOk)).watched =
        (((r.applyAll ops).addEvent fd' event ctlOk).poller.epollSet fd).isSome ∧
      (t.next fd (.addEvent fd' event ctlOk)).status.Describes r fd
        (ops ++ [.addEvent fd' event ctlOk]) := by
  have hset := EventPoller.epollSet_addEvent (p := (r.applyAll ops).poller) fd' fd
    event (r.applyAll ops).nextCallback ctlOk
  have hmap := EventPoller.eventMap_addEvent (p := (r.applyAll ops).poller) fd' fd
    event (r.applyAll ops).nextCallback ctlOk
  have hfree : t.watched = false ↔ (r.applyAll ops).poller.epollSet fd = none := by
    simp [hwatch]
  by_cases hadd : fd' = fd ∧ ctlOk = true ∧ t.watched = false
  · have hnext : t.next fd (.addEvent fd' event ctlOk) =
        ⟨if t.status = .removed then .reused else t.status, true⟩ := if_pos hadd
    obtain ⟨rfl, hok, hw⟩ := hadd
    rw [if_pos ⟨rfl, hok, hfree.1 hw⟩] at hset
    rw [hnext]
    refine ⟨by rw [show ((r.applyAll ops).addEvent fd' event ctlOk).poller.epollSet fd' = _
      from hset]; rfl, ?_⟩
    by_cases hrem : t.status = .removed
    · -- the number had been removed: this is another registration
      rw [if_pos hrem]
      have hnone := h.eq_none.2 hrem
      rw [if_pos ⟨rfl, hok, hfree.1 hw, hnone⟩] at hmap
      exact ⟨(removed_append _ _ _).2 (.inl ⟨ops, List.prefix_refl _, hnone⟩), _,
        by rw [applyAll_append]; exact hmap, nextCallback_le ops⟩
    · -- `emplace` keeps the entry that is there
      rw [if_neg hrem]
      refine h.keep ?_
      rwa [if_neg fun hc => hrem (h.eq_none.1 hc.2.2.2)] at hmap
  · have hnext : t.next fd (.addEvent fd' event ctlOk) = t := if_neg hadd
    have hnot : ¬ (fd = fd' ∧ ctlOk = true ∧ (r.applyAll ops).poller.epollSet fd' = none) := by
      rintro ⟨rfl, hok, hnone⟩
      exact hadd ⟨rfl, hok, hfree.2 hnone⟩
    rw [if_neg hnot] at hset
    rw [if_neg (by tauto)] at hmap
    rw [hnext]
    exact ⟨by rw [hwatch]; exact congrArg Option.isSome hset.symm, h.keep hmap⟩

theorem RegStatus.Describes.delEvent {fd : Fd} {ops : List MapOp} {t : RegTrack}
    (h : t.status.Describes r fd ops)
    (hwatch : t.watched = ((r.applyAll ops).poller.epollSet fd).isSome) (fd' : Fd) :
    (t.next fd (.delEvent fd')).watched =
        (((r.applyAll ops).delEvent fd').poller.epollSet fd).isSome ∧
      (t.next fd (.delEvent fd')).status.Describes r fd (ops ++ [.delEvent fd']) := by
  have hset := EventPoller.epollSet_delEvent (p := (r.applyAll ops).poller) fd' fd
  have hmap := EventPoller.eventMap_delEvent (p := (r.applyAll ops).poller) fd' fd
  by_cases hdel : fd' = fd ∧ t.watched = true
  · have hnext : t.next fd (.delEvent fd') = ⟨.removed, false⟩ := if_pos hdel
    obtain ⟨rfl, hw⟩ := hdel
    rw [hwatch] at hw
    have hmem : ((r.applyAll ops).poller.eventMap fd').isSome := by
      by_contra hnone
      rw [(r.applyAll ops).mapped fd' (by simpa using hnone)] at hw
      cases hw
    rw [if_pos ⟨rfl, hmem⟩] at hset
    rw [if_pos ⟨rfl, hw⟩] at hmap
    rw [hnext]
    refine ⟨(congrArg Option.isSome hset).symm, ?_⟩
    show (r.applyAll (ops ++ [.delEvent fd'])).eventMap fd' = none
    rw [applyAll_append]
    exact hmap
  · have hnext : t.next fd (.delEvent fd') = t := if_neg hdel
    have hkeep : ¬ (fd = fd' ∧ ((r.applyAll ops).poller.epollSet fd').isSome) := by
      rintro ⟨rfl, hin⟩
      exact hdel ⟨rfl, hwatch.trans hin⟩
    rw [if_neg hkeep] at hmap
    have hset' : ((r.applyAll ops).delEvent fd').poller.epollSet fd =
        (r.applyAll ops).poller.epollSet fd := by
      refine hset.trans ?_
      split
      · next heq =>
        obtain ⟨rfl, _⟩ := heq
        exact (by simpa using hkeep : _ = none).symm
      · rfl
    rw [hnext]
    exact ⟨by rw [hwatch, hset'], h.keep hmap⟩

theorem regTrack_spec (fd : Fd) (ops : List MapOp) :
    (regTrack r fd ops).watched = ((r.applyAll ops).poller.epollSet fd).isSome ∧
      (regTrack r fd ops).status.Describes r fd ops := by
  induction ops using List.reverseRecOn with
  | nil =>
      refine ⟨rfl, ?_⟩
      cases hmap : r.eventMap fd with
      | none =>
          have hstart : (regTrack r fd []).status = .removed := by
            simp [regTrack, RegTrack.start, hmap]
          rw [hstart]
          exact hmap
      | some cb =>
          have hstart : (regTrack r fd []).status = .kept := by
            simp [regTrack, RegTrack.start, hmap]
          rw [hstart]
          refine ⟨rfl, ?_⟩
          rintro ⟨before, hpre, hnone⟩
          rw [List.prefix_nil.1 hpre] at hnone
          exact absurd (hmap.symm.trans hnone) (by simp)
  | append_singleton ops op ih =>
      obtain ⟨hwatch, hdesc⟩ := ih
      rw [regTrack_append, applyAll_append]
      generalize regTrack r fd ops = t at hwatch hdesc ⊢
      cases op with
      | addEvent fd' event ctlOk => exact hdesc.addEvent hwatch fd' event ctlOk
      | delEvent fd' => exact hdesc.delEvent hwatch fd'
      | modifyEvent fd' event =>
          refine ⟨?_, hdesc.keep ?_⟩
          · show t.watched = _
            rw [hwatch]
            exact (EventPoller.isSome_epollSet_modifyEvent fd' fd event).symm
          · exact congrFun (EventPoller.eventMap_modifyEvent fd' event) fd
      | close fd' =>
          have hset := EventPoller.epollSet_dropInterest (p := (r.applyAll ops).poller) fd' fd
          by_cases heq : fd' = fd
          · have hnext : t.next fd (.close fd') = { t with watched := false } := if_pos heq
            rw [if_pos heq.symm] at hset
            rw [hnext]
            exact ⟨(congrArg Option.isSome hset).symm, hdesc.keep rfl⟩
          · have hnext : t.next fd (.close fd') = t := if_neg heq
            rw [if_neg (Ne.symm heq)] at hset
            rw [hnext]
            exact ⟨hwatch.trans (congrArg Option.isSome hset).symm, hdesc.keep rfl⟩

theorem runBatch_invoked (evs : List BatchEvent) (k : Nat) (h : Handled)
    (hk : (runBatch r evs)[k]? = some h) :
    h.invoked = (r.applyAll (opsBefore (runBatch r evs) k)).eventMap h.fd := by
  induction evs generalizing r k with
  | nil => simp [runBatch] at hk
  | cons ev evs ih =>
      rw [runBatch] at hk ⊢
      split at hk
      · next hmap =>
        rw [r.dropInterest_eq hmap] at hk ⊢
        cases k with
        | zero => cases hk; exact hmap.symm
        | succ k => exact ih k hk
      · next cb hmap =>
        cases k with
        | zero => cases hk; exact hmap.symm
        | succ k =>
            have hrest := ih k hk
            simpa [opsBefore, Registry.applyAll] using hrest

/-- An event reaches the right registration unless its number has been registered
anew. -/
theorem genuine_at (fd : Fd) (ops : List MapOp) (invoked : Option CallbackId)
    (hinv : invoked = (r.applyAll ops).eventMap fd) :
    ((Removed r fd ops → invoked = none) ∧ (¬ Removed r fd ops → invoked = r.eventMap fd)) ↔
      (regTrack r fd ops).status ≠ .reused := by
  have hdesc := (regTrack_spec (r := r) fd ops).2
  cases hstatus : (regTrack r fd ops).status with
  | kept =>
      rw [hstatus] at hdesc
      obtain ⟨hmap, hnot⟩ := hdesc
      simp [hnot, hinv, hmap]
  | removed =>
      rw [hstatus] at hdesc
      have hnone : (r.applyAll ops).eventMap fd = none := hdesc
      have hrem : Removed r fd ops := ⟨ops, List.prefix_refl _, hnone⟩
      simp [hrem, hinv, hnone]
  | reused =>
      rw [hstatus] at hdesc
      obtain ⟨hrem, cb, hcb, _⟩ := hdesc
      simp [hrem, hinv, hcb]

theorem genuine_iff_noReuse (r : Registry τ δ) (evs : List BatchEvent) :
    Genuine r (runBatch r evs) ↔ NoReuse r (runBatch r evs) := by
  constructor
  · intro hgen k h hk
    exact (genuine_at h.fd _ _ (runBatch_invoked evs k h hk)).1 (hgen k h hk)
  · intro hno k h hk
    exact (genuine_at h.fd _ _ (runBatch_invoked evs k h hk)).2 (hno k h hk)

/-- The registrations 0 of descriptor 5 and 1 of descriptor 6. -/
def twoRegistered : Registry Unit Unit where
  poller := {
    eventMap := fun fd => if fd = 5 then some 0 else if fd = 6 then some 1 else none
    epollSet := fun fd => if fd = 5 ∨ fd = 6 then some (toEpoll PE_READ) else none }
  nextCallback := 2
  mapped := by
    intro fd hnone
    by_cases h5 : fd = 5
    · simp [h5] at hnone
    · by_cases h6 : fd = 6
      · simp [h6] at hnone
      · simp [h5, h6]
  fresh := by
    intro fd cb hcb
    dsimp only at hcb
    split at hcb
    · cases hcb; decide
    · split at hcb <;> cases hcb
      decide

/-- Descriptor 5 is handled first: its callback takes 6 out, closes it and registers the
6 it gets from `accept`.  The event of the old 6 goes to the new registration. -/
theorem not_genuine_of_recycled :
    ¬ ∀ (r : Registry Unit Unit) (evs : List BatchEvent), Genuine r (runBatch r evs) := by
  intro hall
  have hgen := hall twoRegistered
    [⟨5, EPOLLIN, [.delEvent 6, .close 6, .addEvent 6 PE_READ true]⟩, ⟨6, EPOLLIN, []⟩] 1
    ⟨6, PE_READ, some 2, []⟩ (by decide)
  have hremoved : Removed twoRegistered 6
      [.delEvent 6, .close 6, .addEvent 6 PE_READ true] :=
    ⟨[.delEvent 6], ⟨_, rfl⟩, by decide⟩
  exact absurd (hgen.1 hremoved) (by decide)

end CommonLibrary.Poller
