import CommonLibrary.Net.Effects

/-!
# Queued data and the write interest

`sending_` belongs to the socket and outlives its connections; the interest in
`EPOLLOUT` belongs to the descriptor.  What links them: while `sending_` is set, the
attached `sockfd_` has the interest, and `sending_` is only reset with empty queues.
-/

namespace CommonLibrary.Net

open Foundation Poller

namespace World

variable {d : Bool} {w w' : World}

def WriteInterest (w : World) (s : SfdId) : Prop :=
  ∃ events, w.poller.epollSet (w.sfds s).fd = some events ∧ has events EPOLLOUT = true

/-- Without `sending_` nothing is queued. -/
def Stopped (w : World) : Prop :=
  ∀ i, (w.sockets i).queue.sending = false → w.Flushed i

/-- What `attach_event` has registered stays registered until it is destroyed. -/
def AttachedReg (w : World) : Prop :=
  ∀ s, (w.sfds s).attached → (w.sfds s).alive →
    ∃ udp, w.poller.eventMap (w.sfds s).fd = some (.attached (w.sfds s).owner s udp)

def AttachedMade (w : World) : Prop := ∀ s, (w.sfds s).attached → w.Made s

/-- An attached `SocketFD` starts with the interest in `EPOLLOUT`, and has it as
`sockfd_` while `sending_` is set. -/
def Interested (w : World) : Prop :=
  ∀ i s udp, w.poller.eventMap (w.sfds s).fd = some (.attached i s udp) →
    (w.sfds s).installed = false ∨
      (w.sockets i).sockfd = some s ∧ (w.sockets i).queue.sending = true →
    w.WriteInterest s

theorem micro_stopped (h : Micro d w w') (hstopped : w.Stopped) : w'.Stopped := by
  intro i hsending
  unfold Flushed
  rcases micro_queue h i with heq | ⟨heq, -⟩ | ⟨s, buf, tasks, hswap, -, -, -, rfl⟩ |
      ⟨s, env, -, -, rfl⟩
  · rw [heq] at hsending ⊢
    exact hstopped i hsending
  · rw [heq] at hsending
    cases hsending
  · rw [runAppend_sockets, Function.update_self] at hsending
    cases hsending
  · have hend := SendQueue.onWriteable_end (w.sockets i).queue w.poller.exitFlag
      ((w.sfds s).type = .udp) env
    rw [writeable_sockets, Function.update_self] at hsending ⊢
    unfold writtenQueue at hsending ⊢
    dsimp only at hsending ⊢
    by_cases hdone : (w.writeable i s env).2.how = .stopped ∨ (w.writeable i s env).2.how = .flushed
    · rw [if_pos hdone]
      exact hend.drained hdone
    · -- `sending_` was reset before, and then the queues were found empty
      rw [if_neg hdone] at hsending
      push Not at hdone
      have hidle := hstopped i ((hend.kept hdone.1 hdone.2).symm.trans hsending)
      exact absurd (SendQueue.onWriteable_idle hidle.1 hidle.2 _ _ _) hdone.1

/-! ## The registration of an attached `SocketFD` -/

theorem micro_attachedMade (h : Micro d w w') (hw : w.WF) (hatt : w.AttachedMade) :
    w'.AttachedMade := by
  intro s hs
  suffices hold : w.Made s ∨ (w.sfds s).attached by
    rcases hold with hm | hold
    · exact micro_made h hm
    · exact micro_made h (hatt s hold)
  cases h
  case opened fd hfree =>
    simp only [World.opened, Function.update_apply] at hs
    grind
  case makeSfd s' type i attempt hs' hi =>
    simp only [World.makeSfd, Function.update_apply] at hs
    grind
  case putSockfd i s' _ _ _ _ _ =>
    simp only [World.putSockfd, log, setSfd, setSocket, Function.update_apply] at hs
    grind
  case setConnected s' =>
    simp only [World.setConnected, setSfd, Function.update_apply] at hs
    grind
  case markAttached s' udp hreg =>
    have hm := hw.made (hw.regLive _ _ hreg).1
    simp only [World.markAttached, setSfd, Function.update_apply] at hs
    grind [PollEventCB.sfd]
  case destroySfd s' rest _ _ _ _ _ =>
    rw [destroySfd_sfds, Function.update_apply] at hs
    dsimp only [World.popSfds] at hs
    grind
  case runAppend i s' buf tasks _ _ _ _ =>
    rw [(runAppend_same (w.pop tasks) i s' buf).sfds] at hs
    exact .inr hs
  case writeable i s' env _ _ _ =>
    rw [(writeable_same w i s' env).sfds] at hs
    exact .inr hs
  case allocReadBuf i udp =>
    rw [(allocReadBuf_same w i udp).sfds] at hs
    exact .inr hs
  all_goals exact .inr hs

theorem micro_attachedReg (h : Micro d w w') (hw : w.WF) (hmade : w.AttachedMade)
    (hatt : w.AttachedReg) : w'.AttachedReg := by
  intro s hs hlive
  have hold := hatt s
  cases h
  case opened fd hfree =>
    simp only [World.opened, Function.update_apply] at hs hlive ⊢
    grind
  case makeSfd s' type i attempt hs' hi =>
    have hne : (w.sfds s).attached → s ≠ s' :=
      fun hs heq => (hmade s hs).2 (List.mem_append_left _ (heq ▸ hs'))
    simp only [World.makeSfd, Function.update_apply] at hs hlive ⊢
    grind
  case putSockfd i s' _ _ _ _ _ =>
    simp only [World.putSockfd, log, setSfd, setSocket, Function.update_apply] at hs hlive ⊢
    grind
  case setConnected s' =>
    simp only [World.setConnected, setSfd, Function.update_apply] at hs hlive ⊢
    grind
  case markAttached s' udp hreg =>
    simp only [World.markAttached, setSfd, Function.update_apply] at hs hlive ⊢
    grind
  case destroySfd s' rest hrest hsfds hgone hunatt hhandler =>
    have hhead := hw.head_alive hsfds
    have hinj : (w.sfds s).alive → (w.sfds s').alive → (w.sfds s).fd = (w.sfds s').fd → s = s' :=
      hw.fd_inj
    rw [destroySfd_sfds, Function.update_apply] at hs hlive ⊢
    rw [destroySfd_poller]
    have hmap := EventPoller.eventMap_delEvent (p := w.poller) (w.sfds s').fd (w.sfds s).fd
    dsimp only [World.popSfds] at hs hlive hmap ⊢
    grind
  case register s' cb event ctlOk hs' hcb _ =>
    have hmap := EventPoller.eventMap_addEvent (p := w.poller) (w.sfds s').fd (w.sfds s).fd
      event cb ctlOk
    dsimp only [World.register] at hs hlive ⊢
    grind
  case unregister i a s' hheld hreg =>
    have hmap := EventPoller.eventMap_delEvent (p := w.poller) (w.sfds s').fd (w.sfds s).fd
    dsimp only [World.unregister] at hs hlive ⊢
    grind
  case runAppend i s' buf tasks _ _ _ _ =>
    have hsame := runAppend_same (w.pop tasks) i s' buf
    rw [hsame.sfds] at hs hlive ⊢
    rw [hsame.eventMap]
    exact hold hs hlive
  case writeable i s' env _ _ _ =>
    have hsame := writeable_same w i s' env
    rw [hsame.sfds] at hs hlive ⊢
    rw [hsame.eventMap]
    exact hold hs hlive
  case allocReadBuf i udp =>
    have hsame := allocReadBuf_same w i udp
    rw [hsame.sfds] at hs hlive ⊢
    rw [hsame.eventMap]
    exact hold hs hlive
  all_goals exact hold hs hlive

/-! ## The interest of an attached `sockfd_` -/

theorem allocReadBuf_queue (w : World) (i j : SockId) (udp : Bool) :
    ((w.allocReadBuf i udp).sockets j).queue = (w.sockets j).queue := by
  unfold allocReadBuf
  dsimp only
  split
  · exact update_keeps Socket.queue (by rfl) j
  · rfl

theorem runAppend_epollSet (w : World) (i : SockId) (s : SfdId) (buf : Buffer Byte) (fd : Fd) :
    (w.runAppend i s buf).poller.epollSet fd =
      if (w.sockets i).queue.sending = false ∧ fd = (w.sfds s).fd ∧
          (w.poller.epollSet fd).isSome then
        some (toEpoll (recvEvent ||| PE_ERROR ||| PE_WRITE))
      else w.poller.epollSet fd := by
  unfold runAppend
  dsimp only
  split
  · next hsending =>
    have hreset : (w.sockets i).queue.sending = false := by
      simpa [SendQueue.append] using hsending
    simp only [startWriteableEvent, setSocket, modify, EventPoller.epollSet_modifyEvent]
    grind
  · next hsending =>
    have hset : (w.sockets i).queue.sending = true := by simpa [SendQueue.append] using hsending
    simp [setSocket, hset]

theorem writeable_epollSet (w : World) (i : SockId) (s : SfdId) (env : SendEnv) (fd : Fd)
    (h : fd ≠ (w.sfds s).fd ∨ (w.writtenQueue i s env).sending = true) :
    (w.writeable i s env).1.poller.epollSet fd = w.poller.epollSet fd := by
  unfold writtenQueue writeable at *
  dsimp only at h ⊢
  split
  · next hend =>
    rw [if_pos hend] at h
    have hne : fd ≠ (w.sfds s).fd := h.resolve_right (by simp)
    simp [stopWriteableEvent, setSocket, modify, EventPoller.epollSet_modifyEvent, hne]
  · rfl

theorem writeable_sending {w : World} {i j : SockId} {s : SfdId} {env : SendEnv}
    (h : ((w.writeable i s env).1.sockets j).queue.sending = true) :
    (w.sockets j).queue.sending = true ∧
      (j = i → (w.writtenQueue i s env).sending = true) := by
  rw [writeable_sockets, Function.update_apply] at h
  by_cases hj : j = i
  · subst hj
    rw [if_pos rfl] at h
    refine ⟨?_, fun _ => h⟩
    have hend := SendQueue.onWriteable_end (w.sockets j).queue w.poller.exitFlag
      ((w.sfds s).type = .udp) env
    unfold writtenQueue at h
    dsimp only at h
    by_cases hdone : (w.writeable j s env).2.how = .stopped ∨ (w.writeable j s env).2.how = .flushed
    · rw [if_pos hdone] at h
      cases h
    · rw [if_neg hdone] at h
      push Not at hdone
      exact (hend.kept hdone.1 hdone.2).symm.trans h
  · rw [if_neg hj] at h
    exact ⟨h, fun heq => absurd heq hj⟩

theorem micro_interested (h : Micro d w w') (hw : w.WF) (hint : w.Interested) :
    w'.Interested := by
  intro i s udp hreg hcase
  have hold := hint i s udp
  unfold WriteInterest at hold ⊢
  cases h
  case create =>
    simp only [World.create, setSocket, Function.update_apply] at hreg hcase ⊢
    grind
  case dropConnect j =>
    simp only [World.dropConnect, Function.update_apply] at hreg hcase ⊢
    grind
  case clearSockfd j s' _ _ =>
    simp only [World.clearSockfd, setSocket, Function.update_apply] at hreg hcase ⊢
    grind
  case putSockfd j s' hj hs' howner hnew hheld =>
    simp only [World.putSockfd, log, setSfd, setSocket, Function.update_apply] at hreg hcase ⊢
    grind
  case startConnect j timeoutMs now _ _ _ =>
    simp only [World.startConnect, EventPoller.async, Function.update_apply] at hreg hcase ⊢
    grind
  case opened fd hfree =>
    have hlive := hw.regLive (if s = w.nextSfd then fd else (w.sfds s).fd) (.attached i s udp)
    have hbound := hw.openLive s
    simp only [World.opened, Function.update_apply, PollEventCB.sfd] at hreg hcase hlive ⊢
    grind
  case makeSfd s' type j attempt hs' hj =>
    have hlive := hw.regLive (w.sfds s).fd (.attached i s udp)
    have hdead := hw.loose_dead hs'
    simp only [World.makeSfd, Function.update_apply, PollEventCB.sfd] at hreg hcase hlive ⊢
    grind
  case destroySfd s' rest _ _ _ _ _ =>
    have hmap := EventPoller.eventMap_delEvent (p := w.poller) (w.sfds s').fd (w.sfds s).fd
    have hset := EventPoller.epollSet_delEvent (p := w.poller) (w.sfds s').fd (w.sfds s).fd
    have hagree := hw.agree (w.sfds s').fd
    rw [destroySfd_sfds, destroySfd_poller, Function.update_apply] at hreg ⊢
    rw [destroySfd_sfds, destroySfd_sockets, Function.update_apply] at hcase
    dsimp only [World.popSfds] at hreg hcase hmap hset ⊢
    grind
  case killSock j rest _ _ _ _ _ =>
    simp only [World.killSock, World.popSocks, log, setSocket, Function.update_apply]
      at hreg hcase ⊢
    grind
  case dropUserRef j =>
    simp only [World.dropUserRef, setSocket, Function.update_apply] at hreg hcase ⊢
    grind
  case register s' cb event ctlOk hs' hcb _ =>
    have hmap := EventPoller.eventMap_addEvent (p := w.poller) (w.sfds s').fd (w.sfds s).fd
      event cb ctlOk
    have hset := EventPoller.epollSet_addEvent (p := w.poller) (w.sfds s').fd (w.sfds s).fd
      event cb ctlOk
    have hagree := hw.agree.epollSet_eq_none (w.sfds s').fd
    dsimp only [World.register] at hreg hcase ⊢
    cases cb <;> simp only [CbOk] at hcb <;> grind
  case unregister j a s' _ _ =>
    have hmap := EventPoller.eventMap_delEvent (p := w.poller) (w.sfds s').fd (w.sfds s).fd
    have hset := EventPoller.epollSet_delEvent (p := w.poller) (w.sfds s').fd (w.sfds s).fd
    have hagree := hw.agree (w.sfds s').fd
    dsimp only [World.unregister] at hreg hcase ⊢
    grind
  case markAttached s' _ _ =>
    simp only [World.markAttached, setSfd, Function.update_apply] at hreg hcase ⊢
    grind
  case setConnected s' =>
    simp only [World.setConnected, setSfd, Function.update_apply] at hreg hcase ⊢
    grind
  case allocReadBuf j udp' =>
    have hsame := allocReadBuf_same w j udp'
    rw [hsame.sockfd, allocReadBuf_queue, hsame.sfds] at hcase
    rw [allocReadBuf_poller, hsame.sfds] at hreg ⊢
    exact hold hreg hcase
  case runAppend j s' buf tasks hswap hlocals hj hs' =>
    have hsame := runAppend_same (w.pop tasks) j s' buf
    have hcur := hw.append_current hlocals hswap hs'
    rw [hsame.eventMap, hsame.sfds] at hreg
    rw [hsame.sockfd, hsame.sfds, runAppend_sockets, Function.update_apply] at hcase
    rw [hsame.sfds, runAppend_epollSet]
    have hagree := hw.agree (w.sfds s).fd
    have hout : has (toEpoll (recvEvent ||| PE_ERROR ||| PE_WRITE)) EPOLLOUT = true := by decide
    dsimp only [World.pop] at hreg hcase ⊢
    grind
  case writeable j s' env hhandler hcur _ =>
    have hsame := writeable_same w j s' env
    obtain ⟨hheld, -, howner', hinst⟩ := hw.handlerLive j s' hhandler
    rw [hsame.eventMap, hsame.sfds] at hreg
    rw [hsame.sockfd, hsame.sfds] at hcase
    have hinj : (w.sfds s).fd = (w.sfds s').fd → s = s' :=
      hw.fd_inj (hw.regLive _ _ hreg).1 (hw.localsLive.1 s' hheld)
    -- `s` is another descriptor than the one written to, or it is kept `sending`
    have hkeep : (w.sfds s).fd ≠ (w.sfds s').fd ∨ (w.writtenQueue j s' env).sending = true := by
      by_contra hno
      push Not at hno
      have heq := hinj hno.1
      subst heq
      rcases hcase with hnew | ⟨hcur', hsending⟩
      · rw [hinst] at hnew
        cases hnew
      · have howner := (hw.current i s hcur').2.1
        exact hno.2 ((writeable_sending hsending).2 (howner.symm.trans howner'))
    rw [hsame.sfds, writeable_epollSet w j s' env _ hkeep]
    refine hold hreg (hcase.imp_right fun hcase => ⟨hcase.1, ?_⟩)
    exact (writeable_sending hcase.2).1
  all_goals exact hold hreg hcase

/-! ## Runs -/

variable {C : World → Action → Prop} {acts : List Action}

def WriteInv (w : World) : Prop :=
  w.Stopped ∧ w.Interested ∧ w.AttachedMade ∧ w.AttachedReg

theorem micro_writeInv (h : Micro d w w') (hw : w.WF) (hinv : w.WriteInv) : w'.WriteInv :=
  ⟨micro_stopped h hinv.1, micro_interested h hw hinv.2.1, micro_attachedMade h hw hinv.2.2.1,
    micro_attachedReg h hw hinv.2.2.1 hinv.2.2.2⟩

theorem init_writeInv : ({} : World).WriteInv := by
  refine ⟨fun i h => ?_, fun i s udp h => ?_, fun s h => ?_, fun s h => ?_⟩ <;> cases h

/-- Queued data is never stranded: a socket that is not `sending_` has nothing queued,
and an attached connection with something queued is watched for `EPOLLOUT`. -/
theorem queued_data_watched (hrun : Run step C {} acts w) (i : SockId) :
    ((w.sockets i).queue.sending = false → w.Flushed i) ∧
    (∀ s, (w.sockets i).sockfd = some s → (w.sfds s).attached = true → ¬ w.Flushed i →
      (w.sockets i).queue.sending = true ∧ w.WriteInterest s) := by
  have hw := (run_quiet hrun).wf
  obtain ⟨hstopped, hint, -, hreg⟩ :=
    run_invariant init_writeInv (fun _ _ => micro_writeInv) hrun
  refine ⟨hstopped i, fun s hcur hatt hqueued => ?_⟩
  have hsending : (w.sockets i).queue.sending = true := by
    by_contra hno
    exact hqueued (hstopped i (by simpa using hno))
  obtain ⟨hlive, howner, -⟩ := hw.current i s hcur
  obtain ⟨udp, hmap⟩ := hreg s hatt hlive
  rw [howner] at hmap
  exact ⟨hsending, hint i s udp hmap (.inr ⟨hcur, hsending⟩)⟩

/-- Two bytes are sent while the kernel takes nothing. -/
theorem queued_data_watched_blocked :
    ∃ w, Run step (fun _ _ => True) {}
        (connectFirst ++ [.user [.send 0 [1, 2] none], .swap, .task {}, .event 5 EPOLLOUT {}]) w ∧
      ¬ w.Flushed 0 ∧ (w.sockets 0).queue.sending = true ∧ w.WriteInterest 0 := by
  have h : (exec step {}
      (connectFirst ++ [.user [.send 0 [1, 2] none], .swap, .task {}, .event 5 EPOLLOUT {}])).map
        (fun w => ((w.sockets 0).sockfd, (w.sfds 0).attached,
          (w.sockets 0).queue.sendBufSending.length)) = some (some 0, true, 1) := by
    decide +kernel
  obtain ⟨w, hexec, hend⟩ := Option.map_eq_some_iff.1 h
  obtain ⟨hcur, hatt, hlen⟩ : (w.sockets 0).sockfd = some 0 ∧ (w.sfds 0).attached = true ∧
      (w.sockets 0).queue.sendBufSending.length = 1 := by simpa using hend
  have hqueued : ¬ w.Flushed 0 := fun hidle => by simp [hidle.1] at hlen
  have hrun := Run.of_exec hexec
  exact ⟨w, hrun, hqueued, (queued_data_watched hrun 0).2 0 hcur hatt hqueued⟩

end World

end CommonLibrary.Net
