import CommonLibrary.Net.OnFlushed
import CommonLibrary.Net.ReadDrain
import CommonLibrary.Net.SendOrder

/-!
# The connections of a run

From a time when the queues of a socket are empty on, what the program does with the connection
that is `sockfd_` is a run of the `Connection`, whatever it does elsewhere.
-/

namespace CommonLibrary.Net

open Foundation Poller

namespace World

variable {d : Bool} {w w' : World} {i : SockId} {s : SfdId} {udp : Bool}

/-- Only a poller task of `send` and `on_writeable` change what a registered connection is watched
for. -/
theorem micro_attached (h : Micro d w w') (hw : w.WF) (hcur : (w.sockets i).sockfd = some s)
    (hreg : w.poller.eventMap (w.sfds s).fd = some (.attached i s udp)) :
    w'.poller.eventMap (w.sfds s).fd = some (.attached i s udp) ∧
      (w'.poller.epollSet (w.sfds s).fd = w.poller.epollSet (w.sfds s).fd ∨
        (∃ buf tasks, w.swapList = .append i s buf :: tasks ∧ w.locals = {} ∧
          w' = (w.pop tasks).runAppend i s buf) ∨
        ∃ env, w.locals.handler = some (i, s) ∧ w.locals.sendFailed = false ∧
          w' = (w.writeable i s env).1) := by
  obtain ⟨hlive, howner, -⟩ := hw.current i s hcur
  cases h
  case destroySfd s' rest hrest hsfds hgone hatt hhandler =>
    have hne : s ≠ s' := by
      rintro rfl
      rw [howner] at hgone
      exact hgone hcur
    have hlive' : (w.sfds s').alive := hw.localsLive.1 s' (hsfds ▸ List.mem_cons_self)
    have hfd : (w.sfds s).fd ≠ (w.sfds s').fd := fun heq => hne (hw.fd_inj hlive hlive' heq)
    have hmap := EventPoller.eventMap_delEvent (p := w.poller) (w.sfds s').fd (w.sfds s).fd
    have hset := EventPoller.epollSet_delEvent (p := w.poller) (w.sfds s').fd (w.sfds s).fd
    rw [destroySfd_poller]
    dsimp only [World.popSfds]
    refine ⟨?_, .inl ?_⟩ <;> grind
  case register s' cb event ctlOk hs' hcb hatt =>
    have hmap := EventPoller.eventMap_addEvent (p := w.poller) (w.sfds s').fd (w.sfds s).fd
      event cb ctlOk
    have hset := EventPoller.epollSet_addEvent (p := w.poller) (w.sfds s').fd (w.sfds s).fd
      event cb ctlOk
    have hagree := hw.agree.epollSet_eq_none (w.sfds s).fd
    dsimp only [World.register]
    refine ⟨?_, .inl ?_⟩ <;> grind
  case unregister j a s' hheld hreg' =>
    have hmap := EventPoller.eventMap_delEvent (p := w.poller) (w.sfds s').fd (w.sfds s).fd
    have hset := EventPoller.epollSet_delEvent (p := w.poller) (w.sfds s').fd (w.sfds s).fd
    have hfd : (w.sfds s).fd ≠ (w.sfds s').fd := by
      intro heq
      rw [heq, hreg'] at hreg
      cases hreg
    dsimp only [World.unregister]
    refine ⟨?_, .inl ?_⟩ <;> grind
  case allocReadBuf j udp' =>
    rw [allocReadBuf_poller]
    exact ⟨hreg, .inl rfl⟩
  case runAppend j s' buf tasks hswap hlocals hj hs' =>
    have hsame := runAppend_same (w.pop tasks) j s' buf
    rw [hsame.eventMap]
    refine ⟨hreg, ?_⟩
    by_cases hss : s = s'
    · subst hss
      have hcur' := hw.append_current hlocals hswap hlive
      obtain rfl : j = i := (hw.current j s hcur').2.1.symm.trans howner
      exact .inr (.inl ⟨buf, tasks, hswap, hlocals, rfl⟩)
    · left
      have hfd : (w.sfds s).fd ≠ (w.sfds s').fd := fun heq => hss (hw.fd_inj hlive hs' heq)
      rw [runAppend_epollSet, if_neg fun hno => hfd hno.2.1]
      rfl
  case writeable j s' env hhandler hset hok =>
    have hsame := writeable_same w j s' env
    rw [hsame.eventMap]
    refine ⟨hreg, ?_⟩
    obtain ⟨hheld, -, howner', -⟩ := hw.handlerLive j s' hhandler
    by_cases hss : s = s'
    · subst hss
      obtain rfl : j = i := howner'.symm.trans howner
      exact .inr (.inr ⟨env, hhandler, hok, rfl⟩)
    · left
      have hfd : (w.sfds s).fd ≠ (w.sfds s').fd :=
        fun heq => hss (hw.fd_inj hlive (hw.localsLive.1 s' hheld) heq)
      exact writeable_epollSet w j s' env _ (.inl hfd)
  all_goals exact ⟨hreg, .inl rfl⟩

end World

namespace Connection

variable {β : Type} {d : Bool} {w w' : World} {i : SockId} {s : SfdId} {udp : Bool}
  {c : Connection Byte}

/-- `s` is attached and `sockfd_` of `i`, and the connection is as `c` says; it is open, or
`on_writeable` has just met a hard error. -/
structure Serves (w : World) (i : SockId) (s : SfdId) (udp : Bool) (c : Connection Byte) : Prop
    extends Shows w i s c where
  cur : (w.sockets i).sockfd = some s
  reg : ∃ b, w.poller.eventMap (w.sfds s).fd = some (.attached i s b)
  type : decide ((w.sfds s).type = .udp) = udp
  handler : ∀ s', w.locals.handler = some (i, s') → s' = s
  isOpen : c.isOpen = true ∨ w.locals.handler = some (i, s) ∧ w.locals.sendFailed = true

/-- No flush on `s` has begun with 2 GiB or more. -/
def SmallFlushes (t : List Event) (i : SockId) (s : SfdId) : Prop :=
  ∀ waiting, .writeable i s waiting ∈ t → waiting < 2 ^ 31

theorem Serves.of_same (h : Serves w i s udp c)
    (hqueue : (w'.sockets i).queue = (w.sockets i).queue)
    (hfd : (w'.sfds s).fd = (w.sfds s).fd) (htype : (w'.sfds s).type = (w.sfds s).type)
    (hreg : w'.poller.eventMap (w.sfds s).fd = w.poller.eventMap (w.sfds s).fd)
    (hinterest : w'.poller.epollSet (w.sfds s).fd = w.poller.epollSet (w.sfds s).fd)
    (hcur : (w'.sockets i).sockfd = some s)
    (hhandler : ∀ s', w'.locals.handler = some (i, s') → s' = s)
    (hopen : c.isOpen = true ∨ w'.locals.handler = some (i, s) ∧ w'.locals.sendFailed = true) :
    Serves w' i s udp c where
  queue := hqueue.trans h.queue
  interest := by rw [hfd, hinterest, h.interest]
  cur := hcur
  reg := by
    rw [hfd, hreg]
    exact h.reg
  type := by rw [htype, h.type]
  handler := hhandler
  isOpen := hopen

theorem Serves.open_of_sending (h : Serves w i s udp c) (hok : w.locals.sendFailed = false) :
    c.isOpen = true :=
  h.isOpen.resolve_right fun hno => by
    rw [hok] at hno
    cases hno.2

theorem Serves.runAppend (h : Serves w i s udp c) (hlocals : w.locals = {}) {buf : Buffer Byte}
    (hne : buf.data ≠ []) (tasks : List SocketTask) :
    ∃ a c', c.Admissible a ∧ c.step udp a = some c' ∧
      Serves ((w.pop tasks).runAppend i s buf) i s udp c' := by
  have hopen : c.isOpen = true := h.open_of_sending (by rw [hlocals])
  have hshows : Shows (w.pop tasks) i s c := ⟨h.queue, h.interest⟩
  obtain ⟨c', hstep, hshows'⟩ := hshows.runAppend hopen udp buf
  have hsame := World.runAppend_same (w.pop tasks) i s buf
  have hopen' : c'.isOpen = true := by
    rw [step, if_pos hopen] at hstep
    obtain ⟨side, -, rfl⟩ := Option.map_eq_some_iff.1 hstep
    exact hopen
  refine ⟨.append buf, c', hne, hstep, hshows', ?_, ?_, ?_, ?_, .inl hopen'⟩
  · exact (hsame.sockfd i).trans h.cur
  · rw [hsame.sfds, hsame.eventMap]
    exact h.reg
  · rw [hsame.sfds]
    exact h.type
  · rw [World.runAppend_locals]
    exact h.handler

theorem written_isOpen (c : Connection β) (side : SendSide β) (how : FlushEnd)
    (hopen : c.isOpen = true) : (c.written side how false).isOpen = true ∨ how = .failed := by
  cases how with
  | failed => exact .inr rfl
  | flushed => exact .inl rfl
  | closed | stopped | blocked => exact .inl hopen

theorem Serves.writeable (h : Serves w i s udp c) (hhandler : w.locals.handler = some (i, s))
    (hok : w.locals.sendFailed = false) (env : SendEnv)
    (hsmall : SmallFlushes (w.writeable i s env).1.trace i s) :
    ∃ a c', c.Admissible a ∧ c.step udp a = some c' ∧
      Serves (w.writeable i s env).1 i s udp c' := by
  have hopen := h.open_of_sending hok
  obtain ⟨c', hstep, hshows, -⟩ := h.toShows.writeable hopen env false
  rw [h.type] at hstep
  have hsame := World.writeable_same w i s env
  have hfew : c.side.queue.Small := by
    rw [← h.queue]
    apply hsmall
    rw [World.writeable_trace]
    exact List.mem_append_right _ List.mem_cons_self
  have hopen' : c'.isOpen = true ∨ (w.writeable i s env).2.how = .failed := by
    rw [step, if_pos hopen] at hstep
    obtain ⟨side, -, rfl⟩ := Option.map_eq_some_iff.1 hstep
    rw [← h.queue, ← h.type]
    exact written_isOpen c side _ hopen
  refine ⟨.writeable w.poller.exitFlag env false, c', hfew, hstep, hshows, ?_, ?_, ?_, ?_, ?_⟩
  · exact (hsame.sockfd i).trans h.cur
  · rw [hsame.sfds, hsame.eventMap]
    exact h.reg
  · rw [hsame.sfds]
    exact h.type
  · rw [World.writeable_locals]
    exact h.handler
  · rw [World.writeable_locals]
    exact hopen'.imp_right fun hfailed => ⟨hhandler, decide_eq_true hfailed⟩

theorem micro_serves (h : World.Micro d w w') (hw : w.WF) (hs : Serves w i s udp c)
    (hcur' : (w'.sockets i).sockfd = some s) (hsmall : SmallFlushes w'.trace i s) :
    ∃ acts c', Run (step udp) Admissible c acts c' ∧ Serves w' i s udp c' := by
  have hone : (∃ a c', c.Admissible a ∧ c.step udp a = some c' ∧ Serves w' i s udp c') →
      ∃ acts c', Run (step udp) Admissible c acts c' ∧ Serves w' i s udp c' :=
    fun ⟨a, c', hadm, hstep, hserves⟩ => ⟨[a], c', .cons hadm hstep (.nil c'), hserves⟩
  obtain ⟨hlive, -⟩ := hw.current i s hs.cur
  have hmade := World.micro_sameMade h (hw.made hlive)
  obtain ⟨b, hreg⟩ := hs.reg
  obtain ⟨hmap, hinterest⟩ := World.micro_attached h hw hs.cur hreg
  rcases hinterest with hsame | ⟨buf, tasks, hswap, hlocals, rfl⟩ | ⟨env, hhandler, hok, rfl⟩
  · have hkeep : (w'.sockets i).queue = (w.sockets i).queue →
        (∀ s', w'.locals.handler = some (i, s') → s' = s) →
        (c.isOpen = true ∨ w'.locals.handler = some (i, s) ∧ w'.locals.sendFailed = true) →
        ∃ acts c', Run (step udp) Admissible c acts c' ∧ Serves w' i s udp c' :=
      fun hqueue hhandler hopen => ⟨[], c, .nil c, hs.of_same hqueue hmade.fd hmade.type
        (hmap.trans hreg.symm) hsame hcur' hhandler hopen⟩
    cases World.micro_sendStep h hw with
    | same hsending =>
        have halive : (w.sockets i).alive = true := by
          by_contra hdead
          have hnone := (hw.deadIdle i (Bool.eq_false_of_not_eq_true hdead)).sockfd
          cases hnone.symm.trans hs.cur
        apply hkeep (hsending.queue i halive)
        · rw [hsending.handler]
          exact hs.handler
        · rw [hsending.handler, hsending.sendFailed]
          exact hs.isOpen
    | send | drop => exact hkeep rfl hs.handler hs.isOpen
    | run j s' buf rest hswap hlocals hcur hne =>
        by_cases hj : i = j
        · subst hj
          obtain rfl : s' = s := Option.some.inj (hcur.symm.trans hs.cur)
          exact hone (hs.runAppend hlocals hne rest)
        · apply hkeep
          · rw [World.runAppend_sockets, Function.update_of_ne hj]
            rfl
          · rw [World.runAppend_locals]
            exact hs.handler
          · exact .inl (hs.open_of_sending (by rw [hlocals]))
    | write j s' env hhandler hcur hok =>
        by_cases hj : i = j
        · subst hj
          obtain rfl := hs.handler s' hhandler
          exact hone (hs.writeable hhandler hok env hsmall)
        · apply hkeep
          · rw [World.writeable_sockets, Function.update_of_ne hj]
          · rw [World.writeable_locals]
            exact hs.handler
          · exact .inl (hs.open_of_sending hok)
    | clear j => exact hkeep (World.update_keeps Socket.queue (by rfl) i) hs.handler hs.isOpen
    | put j s' hnew => exact hkeep (World.putSockfd_queue w j i s') hs.handler hs.isOpen
    | lock j s' hlocals hcur =>
        apply hkeep rfl
        · intro s'' heq
          cases heq
          exact Option.some.inj (hcur.symm.trans hs.cur)
        · exact .inl (hs.open_of_sending (by rw [hlocals]))
    | unlock hfailed =>
        apply hkeep rfl
        · intro s' heq
          cases heq
        · refine .inl (hs.isOpen.resolve_right fun ⟨hhandler, hno⟩ => ?_)
          have hnone := hfailed hno i s hhandler
          cases hnone.symm.trans hs.cur
  · have hin : .append i s buf ∈ w.tasks := by simp [World.tasks, hswap]
    exact hone (hs.runAppend hlocals (hw.appendsOwned i s buf hin).2.2.2.1 tasks)
  · exact hone (hs.writeable hhandler hok env hsmall)

/-- As long as `s` stays `sockfd_`, what the program does is a run of the connection. -/
theorem steps_serves (h : World.Steps d w w') (hw : w.WF) (hs : Serves w i s udp c)
    (hcur' : (w'.sockets i).sockfd = some s) (hsmall : SmallFlushes w'.trace i s) :
    ∃ acts c', Run (step udp) Admissible c acts c' ∧ Serves w' i s udp c' := by
  obtain ⟨hlive, -, hinst⟩ := hw.current i s hs.cur
  induction h with
  | refl => exact ⟨[], c, .nil c, hs⟩
  | @tail v w' hsteps hstep ih =>
      have hv := World.Steps.wf hsteps hw
      obtain ⟨hmade, hsame⟩ := World.Steps.sameMade hsteps (hw.made hlive)
      -- a `SocketFD` does not become `sockfd_` again
      have hcur : (v.sockets i).sockfd = some s := by
        by_contra hno
        exact World.Steps.not_current (.single hstep) hv hmade (hsame.installed hinst) hno hcur'
      obtain ⟨acts, c₁, hrun, hserves⟩ :=
        ih hcur fun waiting hin => hsmall waiting (World.micro_trace_mono hstep hin)
      obtain ⟨more, c', hmore, hserves'⟩ := micro_serves hstep hv hserves hcur' hsmall
      exact ⟨acts ++ more, c', hrun.append hmore, hserves'⟩

theorem start_serves (hw : w.Quiet) (hcur : (w.sockets i).sockfd = some s)
    {b : Bool} (hreg : w.poller.eventMap (w.sfds s).fd = some (.attached i s b))
    (hflushed : w.Flushed i) :
    ∃ interest, Serves w i s ((w.sfds s).type = .udp)
      (start (w.sockets i).queue.sending interest) := by
  have hagree := hw.wf.agree (w.sfds s).fd
  rw [hreg] at hagree
  obtain ⟨interest, hinterest⟩ := Option.isSome_iff_exists.1 hagree.symm
  have hqueue : (w.sockets i).queue = { sending := (w.sockets i).queue.sending } := by
    unfold World.Flushed at hflushed
    cases hq : (w.sockets i).queue
    rw [hq] at hflushed
    obtain ⟨hsending, hwaiting⟩ := hflushed
    cases hsending
    cases hwaiting
    rfl
  refine ⟨interest, ⟨hqueue, hinterest⟩, hcur, ⟨b, hreg⟩, rfl, fun s' hhandler => ?_, .inl rfl⟩
  rw [hw.locals] at hhandler
  cases hhandler

theorem run_steps {C : World → Action → Prop} {acts : List Action} (hw : w.Quiet)
    (hrun : Run World.step C w acts w') : World.Steps true w w' := by
  refine (hrun.invariant (I := fun v => v.Quiet ∧ World.Steps true w v) ?_ ⟨hw, .refl⟩).2
  intro v act v' ⟨hv, hsteps⟩ _ hstep
  exact ⟨World.step_quiet hv hstep, hsteps.trans (World.step_steps hv hstep).1⟩

/-- Every run of the program from a time when the queues of `i` are empty on, up to any atomic
step, is a run of the connection `s`, as long as `s` is `sockfd_`. -/
theorem run_serves {C : World → Action → Prop} {acts : List Action} {v : World} (hw : w.Quiet)
    (hcur : (w.sockets i).sockfd = some s) {b : Bool}
    (hreg : w.poller.eventMap (w.sfds s).fd = some (.attached i s b)) (hflushed : w.Flushed i)
    (hrun : Run World.step C w acts v) (hsteps : World.Steps true v w')
    (hcur' : (w'.sockets i).sockfd = some s) (hsmall : SmallFlushes w'.trace i s) :
    ∃ interest done c', Run (step ((w.sfds s).type = .udp)) Admissible
        (start (w.sockets i).queue.sending interest) done c' ∧ Shows w' i s c' ∧
      (∀ p ∈ c'.flushed, Told p) ∧ c'.flushed.Pairwise Later := by
  obtain ⟨interest, hserves⟩ := start_serves hw hcur hreg hflushed
  have hall : World.Steps true w w' := (run_steps hw hrun).trans hsteps
  obtain ⟨done, c', hdone, hserves'⟩ := steps_serves hall hw.wf hserves hcur' hsmall
  have hinv := run_inv hdone
  exact ⟨interest, done, c', hdone, hserves'.toShows, hinv.told, hinv.increasing⟩

end Connection

end CommonLibrary.Net
