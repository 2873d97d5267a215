import CommonLibrary.Net.Effects

/-!
# Descriptors and their one `::close`

`~SocketFD` closes its descriptor in a function that it gives to `DelEvent`, and
`DelEvent` calls that function only for a number in `event_map_`.  So the descriptor is
closed exactly if it is registered when the object goes, which is the case unless its
last `AddEvent` failed.
-/

namespace CommonLibrary.Net

open Foundation Poller

namespace Event

/-- `::close` on the descriptor `s`. -/
def closes (s : SfdId) : Event → Bool
  | closed t _ => t = some s
  | _ => false

/-- An `AddEvent` for `s` is refused by the kernel, or is not reached because
`accept_cb_` threw. -/
def fails (s : SfdId) : Event → Bool
  | addEvent s' ctlOk => s' = s && !ctlOk
  | acceptThrew s' => s' = s
  | _ => false

end Event

namespace World

variable {d : Bool} {w w' : World} {s : SfdId}

/-- The descriptor has been opened, and no `SocketFD`, no connect continuation and no
local variable has it any more. -/
structure Gone (w : World) (s : SfdId) : Prop where
  opened : s < w.nextSfd
  dead : (w.sfds s).alive = false
  unclaimed : s ∉ w.looseFds

def Failed (w : World) (s : SfdId) : Prop := ∃ e ∈ w.trace, e.fails s = true

/-! ## Failed registrations -/

theorem WF.unattached_alive (hw : w.WF) (hs : s ∈ w.locals.unattached) : (w.sfds s).alive :=
  hw.localsLive.1 s (hw.localsLive.2.1 s hs)

theorem Failed.mono (h : Micro d w w') (hf : w.Failed s) : w'.Failed s := by
  obtain ⟨e, he, hfails⟩ := hf
  exact ⟨e, micro_trace_mono h he, hfails⟩

/-- Only a descriptor whose `AddEvent` is to come fails, and then it does not come. -/
theorem micro_failed (h : Micro d w w') (hf : w'.Failed s) :
    w.Failed s ∨
      s ∈ w.locals.unattached ∧ w'.locals.unattached = w.locals.unattached.erase s := by
  obtain ⟨e, he, hfails⟩ := hf
  obtain ⟨es, heq, hlogs, -⟩ := micro_trace h
  rw [heq, List.mem_append] at he
  rcases he with he | he
  · exact .inl ⟨e, he, hfails⟩
  · right
    have hlog := hlogs e he
    cases e
    case addEvent s' ctlOk =>
      obtain ⟨hatt, cb, event, rfl⟩ := hlog
      obtain rfl : s' = s := by
        have hboth : s' = s ∧ ctlOk = false := by simpa [Event.fails] using hfails
        exact hboth.1
      exact ⟨hatt, rfl⟩
    case acceptThrew s' =>
      obtain ⟨hatt, rfl⟩ := hlog
      obtain rfl : s' = s := by simpa [Event.fails] using hfails
      exact ⟨hatt, rfl⟩
    all_goals cases hfails

/-- A failure is not made up for: `s` is alive, registered or about to be, or has failed. -/
structure Registered (w : World) : Prop where
  nodup : w.locals.unattached.Nodup
  waiting : ∀ s ∈ w.locals.unattached, w.poller.eventMap (w.sfds s).fd = none
  failed : ∀ s, (w.sfds s).alive →
    (w.Failed s ↔ w.poller.eventMap (w.sfds s).fd = none ∧ s ∉ w.locals.unattached)
  made : ∀ s, w.Failed s → w.Made s

theorem WF.loose_unregistered (hw : w.WF) (hs : s ∈ w.locals.fds) :
    w.poller.eventMap (w.sfds s).fd = none := by
  by_contra hsome
  obtain ⟨cb, hcb⟩ := Option.ne_none_iff_exists'.1 hsome
  obtain ⟨hlive, hfd, -⟩ := hw.regLive _ cb hcb
  have hopen := (hw.openLive cb.sfd hlive).1
  rw [hfd, (hw.looseOpen.2 s (List.mem_append_left _ hs)).2.2.1] at hopen
  have hdead := hw.loose_dead hs
  rw [Option.some.inj hopen, hlive] at hdead
  cases hdead

theorem Registered.not_failed_of_loose (hreg : w.Registered) (hs : s ∈ w.looseFds) :
    ¬ w.Failed s := fun hf => (hreg.made s hf).2 hs

theorem Registered.failed_iff (hreg : w.Registered) (h : Micro d w w')
    (hkeep : s ∈ w.locals.unattached → s ∈ w'.locals.unattached) :
    w'.Failed s ↔ w.Failed s := by
  refine ⟨fun hf => ?_, Failed.mono h⟩
  rcases micro_failed h hf with hold | ⟨hin, herase⟩
  · exact hold
  · have hout : s ∉ w.locals.unattached.erase s := hreg.nodup.not_mem_erase
    rw [← herase] at hout
    exact absurd (hkeep hin) hout

theorem Registered.made_of_failed (hreg : w.Registered) (h : Micro d w w') (hw : w.WF)
    (hf : w'.Failed s) : w'.Made s := by
  apply micro_made h
  rcases micro_failed h hf with hold | ⟨hatt, -⟩
  · exact hreg.made s hold
  · exact hw.made (hw.unattached_alive hatt)

theorem Registered.keep (hreg : w.Registered) (h : Micro d w w') (hw : w.WF)
    (hmap : w'.poller.eventMap = w.poller.eventMap)
    (hatt : w'.locals.unattached = w.locals.unattached) : w'.Registered := by
  have hfd : ∀ s, (w.sfds s).alive → (w'.sfds s).fd = (w.sfds s).fd := fun s hs =>
    (micro_sameMade h (hw.made hs)).fd
  refine ⟨by rw [hatt]; exact hreg.nodup, fun s hs => ?_, fun s hs => ?_,
    fun s => hreg.made_of_failed h hw⟩
  · rw [hatt] at hs
    rw [hmap, hfd s (hw.unattached_alive hs)]
    exact hreg.waiting s hs
  · have hlive : (w.sfds s).alive := by
      rcases micro_alive h hw s with hsame | ⟨-, type, i, attempt, rfl⟩ | ⟨rest, -, -, rfl⟩
      · exact hsame ▸ hs
      · exact absurd hatt (List.cons_ne_self s _)
      · simp at hs
    rw [hreg.failed_iff h fun hin => hatt ▸ hin, hmap, hfd s hlive, hatt]
    exact hreg.failed s hlive

theorem Registered.make (hreg : w.Registered) {type : SockType} {i : SockId}
    {attempt : Option ConnId} (h : Micro d w (w.makeSfd s type i attempt)) (hw : w.WF)
    (hs : s ∈ w.locals.fds) : (w.makeSfd s type i attempt).Registered := by
  have hdead := hw.loose_dead hs
  have hnin : s ∉ w.locals.unattached := fun hin => by
    rw [hw.unattached_alive hin] at hdead
    cases hdead
  have hfd : ∀ s', ((w.makeSfd s type i attempt).sfds s').fd = (w.sfds s').fd := by
    intro s'
    simp only [makeSfd, Function.update_apply]
    split
    · next heq => rw [heq]
    · rfl
  refine ⟨List.nodup_cons.2 ⟨hnin, hreg.nodup⟩, fun s' hs' => ?_, fun s' hlive => ?_,
    fun s' => hreg.made_of_failed h hw⟩
  · rw [hfd]
    rcases List.mem_cons.1 hs' with rfl | hs'
    · exact hw.loose_unregistered hs
    · exact hreg.waiting s' hs'
  · rw [hfd]
    show w.Failed s' ↔ w.poller.eventMap (w.sfds s').fd = none ∧ s' ∉ s :: w.locals.unattached
    by_cases hne : s' = s
    · subst hne
      have hnot := hreg.not_failed_of_loose (List.mem_append_left _ hs)
      simp [hnot]
    · have hold : (w.sfds s').alive := by simpa [makeSfd, hne] using hlive
      rw [hreg.failed s' hold]
      simp [hne]

theorem Registered.destroy (hreg : w.Registered) {rest : List SfdId}
    (h : Micro d w ((w.popSfds rest).destroySfd s)) (hw : w.WF)
    (hsfds : w.locals.sfds = s :: rest) (hatt : s ∉ w.locals.unattached) :
    ((w.popSfds rest).destroySfd s).Registered := by
  -- the number is registered for no other live object
  have hmap : ∀ s', s' ≠ s → (w.sfds s').alive →
      ((w.popSfds rest).destroySfd s).poller.eventMap (w.sfds s').fd =
        w.poller.eventMap (w.sfds s').fd := by
    intro s' hne hlive
    rw [destroySfd_poller, EventPoller.eventMap_delEvent, if_neg]
    · rfl
    · exact fun hfd => hne (hw.fd_inj hlive (hw.head_alive hsfds) hfd.1)
  have hlocals : ((w.popSfds rest).destroySfd s).locals.unattached = w.locals.unattached := by
    rw [destroySfd_locals]
    rfl
  have hsfd : ∀ s', s' ≠ s → ((w.popSfds rest).destroySfd s).sfds s' = w.sfds s' := by
    intro s' hne
    rw [destroySfd_sfds, Function.update_of_ne hne]
    rfl
  refine ⟨by rw [hlocals]; exact hreg.nodup, fun s' hs' => ?_, fun s' hlive => ?_,
    fun s' => hreg.made_of_failed h hw⟩
  · rw [hlocals] at hs'
    have hne : s' ≠ s := fun heq => hatt (heq ▸ hs')
    rw [hsfd s' hne, hmap s' hne (hw.unattached_alive hs')]
    exact hreg.waiting s' hs'
  · have hne : s' ≠ s := by
      rintro rfl
      simp at hlive
    rw [hsfd s' hne] at hlive ⊢
    rw [hreg.failed_iff h fun hin => hlocals ▸ hin, hmap s' hne hlive, hlocals]
    exact hreg.failed s' hlive

theorem Registered.attend (hreg : w.Registered) (h : Micro d w w') (hw : w.WF)
    (hs : s ∈ w.locals.unattached) (hsfds : w'.sfds = w.sfds)
    (hatt : w'.locals.unattached = w.locals.unattached.erase s)
    (hmap : ∀ fd, fd ≠ (w.sfds s).fd → w'.poller.eventMap fd = w.poller.eventMap fd)
    (hself : w'.Failed s ↔ w'.poller.eventMap (w.sfds s).fd = none) : w'.Registered := by
  have hmem : ∀ s', s' ∈ w'.locals.unattached ↔ s' ≠ s ∧ s' ∈ w.locals.unattached := by
    intro s'
    rw [hatt, hreg.nodup.mem_erase_iff]
  have hother : ∀ s', s' ≠ s → (w.sfds s').alive →
      w'.poller.eventMap (w.sfds s').fd = w.poller.eventMap (w.sfds s').fd := fun s' hne hlive =>
    hmap _ fun hfd => hne (hw.fd_inj hlive (hw.unattached_alive hs) hfd)
  refine ⟨by rw [hatt]; exact hreg.nodup.erase s, fun s' hs' => ?_, fun s' hlive => ?_,
    fun s' => hreg.made_of_failed h hw⟩
  · obtain ⟨hne, hin⟩ := (hmem s').1 hs'
    rw [hsfds, hother s' hne (hw.unattached_alive hin)]
    exact hreg.waiting s' hin
  · rw [hsfds] at hlive ⊢
    by_cases hne : s' = s
    · subst hne
      rw [hself, hmem]
      tauto
    · rw [hreg.failed_iff h fun hin => (hmem s').2 ⟨hne, hin⟩, hother s' hne hlive, hmem,
        and_iff_right hne]
      exact hreg.failed s' hlive

theorem Registered.register (hreg : w.Registered) {cb : PollEventCB} {event : Nat}
    {ctlOk : Bool} (h : Micro d w (w.register s cb event ctlOk).1) (hw : w.WF)
    (hs : s ∈ w.locals.unattached) : (w.register s cb event ctlOk).1.Registered := by
  have hfree := hreg.waiting s hs
  have hnot : ¬ w.Failed s := fun hf => ((hreg.failed s (hw.unattached_alive hs)).1 hf).2 hs
  refine hreg.attend h hw hs rfl rfl (fun fd hfd => ?_) ?_
  · show (w.poller.addEvent _ event cb ctlOk).1.eventMap fd = _
    rw [EventPoller.eventMap_addEvent, if_neg fun hadd => hfd hadd.1]
  · have hiff : (w.register s cb event ctlOk).1.Failed s ↔ w.Failed s ∨ ctlOk = false := by
      simp [Failed, World.register, Event.fails, or_and_right, exists_or]
    show _ ↔ (w.poller.addEvent _ event cb ctlOk).1.eventMap _ = none
    have hset := (hw.agree.epollSet_eq_none (w.sfds s).fd).2 hfree
    rw [hiff, EventPoller.eventMap_addEvent]
    cases ctlOk <;> simp [hnot, hfree, hset]

theorem Registered.unregister (hreg : w.Registered) (h : Micro d w (w.unregister s))
    (hw : w.WF) (hs : (w.sfds s).alive) (hsome : (w.poller.eventMap (w.sfds s).fd).isSome) :
    (w.unregister s).Registered := by
  have hnin : s ∉ w.locals.unattached := fun hin => by
    rw [hreg.waiting s hin] at hsome
    cases hsome
  have hmap : ∀ fd, (w.unregister s).poller.eventMap fd =
      if fd = (w.sfds s).fd then none else w.poller.eventMap fd := by
    intro fd
    show (w.poller.delEvent _).1.eventMap fd = _
    rw [EventPoller.eventMap_delEvent, ← hw.agree, hsome]
    simp
  refine ⟨List.nodup_cons.2 ⟨hnin, hreg.nodup⟩, fun s' hs' => ?_, fun s' hlive => ?_,
    fun s' => hreg.made_of_failed h hw⟩
  · rw [hmap]
    split
    · rfl
    · next hfd =>
      rcases List.mem_cons.1 hs' with rfl | hs'
      · exact absurd rfl hfd
      · exact hreg.waiting s' hs'
  · rw [hmap]
    show w.Failed s' ↔ (if (w.sfds s').fd = (w.sfds s).fd then none else _) = none ∧
      s' ∉ s :: w.locals.unattached
    rw [hreg.failed s' hlive]
    by_cases hne : s' = s
    · subst hne
      rw [Option.isSome_iff_ne_none] at hsome
      simp [hsome]
    · have hfd : (w.sfds s').fd ≠ (w.sfds s).fd := fun hfd => hne (hw.fd_inj hlive hs hfd)
      rw [if_neg hfd, List.mem_cons, or_iff_right hne]
      exact Iff.rfl

theorem micro_registered (h : Micro d w w') (hw : w.WF) (hreg : w.Registered) :
    w'.Registered := by
  rcases micro_regStep h hw with ⟨hmap, hatt⟩ | hstep
  · exact hreg.keep h hw hmap hatt
  cases hstep with
  | made s type i attempt hs => exact hreg.make h hw hs
  | destroyed s rest hsfds hatt => exact hreg.destroy h hw hsfds hatt
  | registered s cb event ctlOk hs => exact hreg.register h hw hs
  | unregistered s hs hsome => exact hreg.unregister h hw hs hsome
  | threw s hs =>
      refine hreg.attend h hw hs rfl rfl (fun fd _ => rfl) ?_
      have hf : (w.logAcceptThrew s).Failed s :=
        ⟨.acceptThrew s, List.mem_append_right _ (List.mem_singleton_self _), by simp [Event.fails]⟩
      exact iff_of_true hf (hreg.waiting s hs)

/-! ## Closing -/

/-- One `::close` for a descriptor that is gone and whose registration has not failed,
and none for any other. -/
def Counted (w : World) : Prop :=
  ∀ s, (w.Gone s ∧ ¬ w.Failed s → w.trace.countP (Event.closes s) = 1) ∧
    (¬ (w.Gone s ∧ ¬ w.Failed s) → w.trace.countP (Event.closes s) = 0)

variable {C : World → Action → Prop} {acts : List Action}

theorem init_closeInv : ({} : World).Registered ∧ ({} : World).Counted := by
  have hnone : ∀ s, ¬ ({} : World).Failed s := fun s ⟨e, he, _⟩ => by cases he
  refine ⟨⟨List.nodup_nil, fun s hs => (by cases hs), fun s hs => (by cases hs),
    fun s hf => absurd hf (hnone s)⟩, fun s => ⟨fun ⟨hgone, _⟩ => ?_, fun _ => rfl⟩⟩
  exact absurd hgone.opened (Nat.not_lt_zero s)

end World

end CommonLibrary.Net
