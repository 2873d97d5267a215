import CommonLibrary.Foundation.Run
import CommonLibrary.Poller.EventPoller

/-!
# The registrations over a run

`AddEvent` asks the kernel first and then uses `emplace`, which does not overwrite;
`DelEvent` erases only what the kernel has taken out; `RunLoop` takes numbers out of the
interest set on its own.  The callbacks of `RunLoop` and of `DelEvent` may call all of them
again on any number, so a run is a sequence of single calls.
-/

namespace CommonLibrary.Poller

open Foundation

/-- One call, or one thing the kernel does; `κ` are the callbacks. -/
inductive RegAction (κ : Type) where
  /-- `AddEvent`; `none` is an empty function -/
  | addEvent (fd : Fd) (event : Nat) (cb : Option κ) (ctlOk : Bool)
  /-- `DelEvent`, and whether the function it is given closes the descriptor -/
  | delEvent (fd : Fd) (closes : Bool)
  | modifyEvent (fd : Fd) (event : Nat) (ctlOk : Bool)
  /-- `RunLoop` looks an event up -/
  | event (fd : Fd)
  /-- a descriptor is closed elsewhere -/
  | close (fd : Fd)

structure Registrations (κ : Type) where
  poller : EventPoller Unit κ Unit := {}
  /-- history: the calls of `AddEvent` that returned 0, the last one first -/
  added : List (Fd × κ) := []

namespace Registrations

variable {κ : Type}

def addEvent (r : Registrations κ) (fd : Fd) (event : Nat) (cb : κ) (ctlOk : Bool) :
    Registrations κ :=
  let out := r.poller.addEvent fd event cb ctlOk
  ⟨out.1, if out.2 then (fd, cb) :: r.added else r.added⟩

def delEvent (r : Registrations κ) (fd : Fd) (closes : Bool) : Registrations κ :=
  let out := r.poller.delEvent fd
  { r with poller := if closes && out.2.isSome then out.1.dropInterest fd else out.1 }

def step (r : Registrations κ) : RegAction κ → Option (Registrations κ)
  | .addEvent fd event cb ctlOk =>
      match cb with
      | none => some r
      | some cb => some (r.addEvent fd event cb ctlOk)
  | .delEvent fd closes => some (r.delEvent fd closes)
  | .modifyEvent fd event ctlOk =>
      some { r with poller := if ctlOk then (r.poller.modifyEvent fd event).1 else r.poller }
  | .event fd =>
      match r.poller.eventMap fd with
      | none => some { r with poller := r.poller.dropInterest fd }
      | some _ => some r
  | .close fd => some { r with poller := r.poller.dropInterest fd }

/-- A number that is registered is closed by the function of its `DelEvent` only. -/
def CloseOk (r : Registrations κ) (a : RegAction κ) : Prop :=
  ∀ fd, a = .close fd → r.poller.eventMap fd = none

/-- `event_map_` and the interest set agree, and hold what was added last. -/
structure UpToDate (r : Registrations κ) : Prop where
  agree : r.poller.Agree
  latest : ∀ fd cb, r.poller.eventMap fd = some cb → r.added.lookup fd = some cb

variable {r r' : Registrations κ}

/-- Where the two agree, `AddEvent` does not find an entry that `emplace` would keep. -/
theorem eventMap_addEvent_of_agree {p : EventPoller Unit κ Unit} (h : p.Agree) {fd : Fd}
    {event : Nat} {cb : κ} {ctlOk : Bool} (hok : (p.addEvent fd event cb ctlOk).2 = true) :
    (p.addEvent fd event cb ctlOk).1.eventMap fd = some cb := by
  rw [EventPoller.addEvent_ok, Bool.and_eq_true, Option.isNone_iff_eq_none] at hok
  have hfree : p.eventMap fd = none := (h.epollSet_eq_none fd).1 hok.2
  rw [EventPoller.eventMap_addEvent, if_pos ⟨rfl, hok.1, hok.2, hfree⟩]

theorem addEvent_upToDate (h : r.UpToDate) (fd : Fd) (event : Nat) (cb : κ) (ctlOk : Bool) :
    (r.addEvent fd event cb ctlOk).UpToDate := by
  refine ⟨EventPoller.addEvent_agree h.agree fd event cb ctlOk, fun fd' cb' hcb' => ?_⟩
  show (if (r.poller.addEvent fd event cb ctlOk).2 then (fd, cb) :: r.added
    else r.added).lookup fd' = some cb'
  by_cases hok : (r.poller.addEvent fd event cb ctlOk).2 = true
  · rw [if_pos hok]
    by_cases hfd : fd' = fd
    · subst hfd
      have hnew := eventMap_addEvent_of_agree h.agree hok
      rw [List.lookup_cons_self]
      exact hnew.symm.trans hcb'
    · have hold : r.poller.eventMap fd' = some cb' := by
        rw [← hcb']
        show _ = (r.poller.addEvent fd event cb ctlOk).1.eventMap fd'
        rw [EventPoller.eventMap_addEvent, if_neg fun heq => hfd heq.1]
      rw [List.lookup_cons, beq_false_of_ne hfd]
      exact h.latest fd' cb' hold
  · rw [if_neg hok]
    apply h.latest
    rw [← hcb']
    show _ = (r.poller.addEvent fd event cb ctlOk).1.eventMap fd'
    rw [EventPoller.addEvent_ok, Bool.and_eq_true, Option.isNone_iff_eq_none] at hok
    rw [EventPoller.eventMap_addEvent, if_neg fun heq => hok ⟨heq.2.1, heq.2.2.1⟩]

theorem dropInterest_of_agree {p : EventPoller Unit κ Unit} (h : p.Agree) {fd : Fd}
    (hmap : p.eventMap fd = none) : p.dropInterest fd = p :=
  EventPoller.dropInterest_eq ((h.epollSet_eq_none fd).2 hmap)

theorem delEvent_upToDate (h : r.UpToDate) (fd : Fd) (closes : Bool) :
    (r.delEvent fd closes).UpToDate := by
  have hagree := EventPoller.delEvent_agree h.agree fd
  -- where the function is called, the number is not registered any more
  have hpoller : (r.delEvent fd closes).poller = (r.poller.delEvent fd).1 := by
    show (if closes && (r.poller.delEvent fd).2.isSome then (r.poller.delEvent fd).1.dropInterest fd
      else (r.poller.delEvent fd).1) = (r.poller.delEvent fd).1
    split
    · next hcalled =>
      rw [Bool.and_eq_true, EventPoller.delEvent_called] at hcalled
      apply dropInterest_of_agree hagree
      rw [EventPoller.eventMap_delEvent, if_pos ⟨rfl, by rw [← h.agree fd]; exact hcalled.2⟩]
    · rfl
  refine ⟨by rw [hpoller]; exact hagree, fun fd' cb hcb => ?_⟩
  rw [hpoller, EventPoller.eventMap_delEvent] at hcb
  split at hcb
  · cases hcb
  · exact h.latest fd' cb hcb

theorem step_upToDate (h : r.UpToDate) {a : RegAction κ} (hclose : CloseOk r a)
    (hstep : r.step a = some r') : r'.UpToDate := by
  cases a with
  | addEvent fd event cb ctlOk =>
      cases cb with
      | none =>
          cases hstep
          exact h
      | some cb =>
          cases hstep
          exact addEvent_upToDate h fd event cb ctlOk
  | delEvent fd closes =>
      cases hstep
      exact delEvent_upToDate h fd closes
  | modifyEvent fd event ctlOk =>
      cases hstep
      cases ctlOk with
      | true =>
          refine ⟨EventPoller.modifyEvent_agree h.agree fd event, fun fd' cb hcb => ?_⟩
          apply h.latest fd' cb
          rw [← hcb]
          exact (congrFun (EventPoller.eventMap_modifyEvent fd event) fd').symm
      | false => exact h
  | event fd =>
      simp only [step] at hstep
      split at hstep
      · next hmap =>
        cases hstep
        rw [dropInterest_of_agree h.agree hmap]
        exact h
      · cases hstep
        exact h
  | close fd =>
      cases hstep
      rw [dropInterest_of_agree h.agree (hclose fd rfl)]
      exact h

/-- After every step the keys of `event_map_` are the interest set, and a callback in it is
the one added last; the next `AddEvent` that returns 0 stores its own. -/
theorem event_map_up_to_date {acts : List (RegAction κ)} (hrun : Run step CloseOk {} acts r) :
    (∀ fd, (r.poller.eventMap fd).isSome = (r.poller.epollSet fd).isSome) ∧
      (∀ fd cb, r.poller.eventMap fd = some cb → r.added.lookup fd = some cb) ∧
      ∀ fd event cb ctlOk, (r.poller.addEvent fd event cb ctlOk).2 = true →
        (r.addEvent fd event cb ctlOk).poller.eventMap fd = some cb := by
  have hinit : ({} : Registrations κ).UpToDate := ⟨fun _ => rfl, fun fd cb hcb => by cases hcb⟩
  have hr : r.UpToDate :=
    hrun.invariant (fun _ _ _ h hclose hstep => step_upToDate h hclose hstep) hinit
  exact ⟨hr.agree, hr.latest, fun _ _ _ _ hok => eventMap_addEvent_of_agree hr.agree hok⟩

/-- The number 5 is taken out and closed, and given to another descriptor. -/
theorem event_map_up_to_date_recycled : ∃ r : Registrations Nat,
    r.poller.eventMap 5 = some 2 ∧ r.added.lookup 5 = some 2 := by
  have h : (exec step {} [.addEvent 5 PE_READ (some 1) true, .addEvent 5 PE_READ (some 7) true,
      .delEvent 5 true, .event 5, .addEvent 5 PE_READ (some 2) true]).map
        (fun r : Registrations Nat => r.poller.eventMap 5) = some (some 2) := by decide +kernel
  obtain ⟨r, hexec, hend⟩ := Option.map_eq_some_iff.1 h
  have hrun : Run step CloseOk {} _ r := (Run.of_exec hexec).strengthen fun a ha r fd heq => by
    rw [heq] at ha
    simp at ha
  exact ⟨r, hend, (event_map_up_to_date hrun).2.1 5 2 hend⟩

end Registrations

end CommonLibrary.Poller
