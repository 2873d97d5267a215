import CommonLibrary.Foundation.History
import CommonLibrary.Net.Compose

/-!
# What an atomic step can change

One lemma for each part of the world that the properties below look at: either the
step leaves it as it was, or it is one of the few steps that are for it.
-/

namespace CommonLibrary.Net

open Foundation Poller

namespace World

variable {d : Bool} {w w' : World}

theorem SameButQueue.sockfd (h : SameButQueue w w') (j : SockId) :
    (w'.sockets j).sockfd = (w.sockets j).sockfd := by
  obtain ⟨q, r, hq⟩ := h.sockets j
  rw [hq]

theorem update_keeps {α : Type} (part : Socket → α) {f : SockId → Socket} {i : SockId}
    {sk : Socket} (h : part sk = part (f i)) (j : SockId) :
    part (Function.update f i sk j) = part (f j) := by
  rw [Function.update_apply]
  split
  · next heq => rw [h, heq]
  · rfl

/-! ## The send queues -/

theorem runAppend_sockets (w : World) (i : SockId) (s : SfdId) (buf : Buffer Byte) :
    (w.runAppend i s buf).sockets = Function.update w.sockets i
      { w.sockets i with queue := ((w.sockets i).queue.append buf).1 } := by
  unfold runAppend
  dsimp only
  split
  · simp [startWriteableEvent, setSocket, modify, SendQueue.append]
  · next hsending =>
    have hset : (w.sockets i).queue.sending = true := by simpa [SendQueue.append] using hsending
    simp [setSocket, SendQueue.append, hset]

/-- The queue that `on_writeable` leaves, with `sending_` as it is behind
`stop_writeable_event`. -/
def writtenQueue (w : World) (i : SockId) (s : SfdId) (env : SendEnv) : SendQueue Byte :=
  let r := (w.writeable i s env).2
  if r.how = .stopped ∨ r.how = .flushed then { r.queue with sending := false } else r.queue

theorem writeable_sockets (w : World) (i : SockId) (s : SfdId) (env : SendEnv) :
    (w.writeable i s env).1.sockets = Function.update w.sockets i
      { w.sockets i with queue := w.writtenQueue i s env } := by
  unfold writtenQueue writeable
  dsimp only
  split
  · simp [stopWriteableEvent, setSocket, modify]
  · rfl

/-- A send queue is new, gets a buffer appended, or is written from by `on_writeable`. -/
theorem micro_queue (h : Micro d w w') (j : SockId) :
    (w'.sockets j).queue = (w.sockets j).queue ∨
    (w'.sockets j).queue = {} ∧ j = w.nextSock ∨
    (∃ s buf tasks, w.swapList = .append j s buf :: tasks ∧ w.locals = {} ∧
      (w.sockets j).alive ∧ (w.sfds s).alive ∧ w' = (w.pop tasks).runAppend j s buf) ∨
    (∃ s env, w.locals.handler = some (j, s) ∧ (w.sockets j).sockfd ≠ none ∧
      w' = (w.writeable j s env).1) := by
  cases h
  case create =>
    by_cases hj : j = w.nextSock
    · subst hj
      exact .inr (.inl ⟨by simp [create, setSocket], rfl⟩)
    · exact .inl (by simp [create, setSocket, hj])
  case runAppend i s buf tasks hswap hlocals hi hs =>
    by_cases hj : j = i
    · subst hj
      exact .inr (.inr (.inl ⟨s, buf, tasks, hswap, hlocals, hi, hs, rfl⟩))
    · left
      rw [runAppend_sockets, Function.update_of_ne hj]
      rfl
  case writeable i s env hhandler hcur _ =>
    by_cases hj : j = i
    · subst hj
      exact .inr (.inr (.inr ⟨s, env, hhandler, hcur, rfl⟩))
    · left
      rw [writeable_sockets, Function.update_of_ne hj]
  case dropConnect => exact .inl (update_keeps Socket.queue (by rfl) j)
  case clearSockfd => exact .inl (update_keeps Socket.queue (by rfl) j)
  case putSockfd => exact .inl (update_keeps Socket.queue (by rfl) j)
  case startConnect => exact .inl (update_keeps Socket.queue (by rfl) j)
  case destroySfd s rest _ _ _ _ _ =>
    left
    rw [destroySfd_sockets]
    rfl
  case killSock => exact .inl (update_keeps Socket.queue (by rfl) j)
  case dropUserRef => exact .inl (update_keeps Socket.queue (by rfl) j)
  case allocReadBuf i udp =>
    left
    unfold allocReadBuf
    dsimp only
    split
    · exact update_keeps Socket.queue (by rfl) j
    · rfl
  all_goals exact .inl rfl

/-- `s` is the connection of `i`, or its event is being handled. -/
def InUse (w : World) (i : SockId) (s : SfdId) : Prop :=
  (w.sockets i).sockfd = some s ∨ w.locals.handler = some (i, s)

def Flushed (w : World) (i : SockId) : Prop :=
  (w.sockets i).queue.sendBufSending = [] ∧ (w.sockets i).queue.sendBufWaiting = []

theorem flushed_of_idle {i : SockId} (h : ((w.sockets i).queue.sendBufSending.isEmpty &&
    (w.sockets i).queue.sendBufWaiting.isEmpty) = true) : w.Flushed i := by
  rwa [Bool.and_eq_true, List.isEmpty_iff, List.isEmpty_iff] at h

theorem writeable_flushed {i : SockId} (s : SfdId) (env : SendEnv) (h : w.Flushed i) :
    (w.writeable i s env).1.Flushed i := by
  have hstop := SendQueue.onWriteable_idle h.1 h.2 w.poller.exitFlag ((w.sfds s).type = .udp) env
  have hend := (SendQueue.onWriteable_end (w.sockets i).queue w.poller.exitFlag
    ((w.sfds s).type = .udp) env).drained (.inl hstop)
  have hqueue : w.writtenQueue i s env =
      { (w.writeable i s env).2.queue with sending := false } := by
    unfold writtenQueue
    exact if_pos (.inl hstop)
  unfold Flushed
  rw [writeable_sockets, Function.update_self, hqueue]
  exact hend

theorem putSockfd_queue (w : World) (i j : SockId) (s : SfdId) :
    ((w.putSockfd i s).sockets j).queue = (w.sockets j).queue :=
  update_keeps Socket.queue (by rfl) j

/-- The connection a task of `send` finds alive is the one that is `sockfd_`. -/
theorem WF.append_current (hw : w.WF) (hlocals : w.locals = {}) {i : SockId} {s : SfdId}
    {buf : Buffer Byte} {rest : List SocketTask} (hswap : w.swapList = .append i s buf :: rest)
    (hs : (w.sfds s).alive) : (w.sockets i).sockfd = some s := by
  have hin : .append i s buf ∈ w.tasks := by simp [tasks, hswap]
  have howner := (hw.appendsOwned i s buf hin).2.1
  have hcur := hw.current_of_alive hlocals hs
  rwa [howner] at hcur

/-! ## `sockfd_` -/

/-- `sockfd_` is dropped, or becomes a `SocketFD` that it has never been. -/
theorem micro_sockfd (h : Micro d w w') (hw : w.WF) (j : SockId) :
    (w'.sockets j).sockfd = (w.sockets j).sockfd ∨
    (w'.sockets j).sockfd = none ∧ w' = w.clearSockfd j ∨
    (∃ s, (w'.sockets j).sockfd = some s ∧ (w.sockets j).alive ∧ (w.sfds s).alive ∧
      (w.sfds s).owner = j ∧ (w.sfds s).installed = false ∧ w' = w.putSockfd j s) := by
  cases h
  case create =>
    left
    simp only [create, setSocket, Function.update_apply]
    split
    · next heq => rw [heq, (hw.deadIdle w.nextSock hw.nextSock_dead).sockfd]
    · rfl
  case clearSockfd i s _ _ =>
    by_cases hj : j = i
    · subst hj
      exact .inr (.inl ⟨by simp [clearSockfd, setSocket], rfl⟩)
    · exact .inl (by simp [clearSockfd, setSocket, hj])
  case putSockfd i s hi hs howner hnew hheld =>
    by_cases hj : j = i
    · subst hj
      exact .inr (.inr ⟨s, by simp [putSockfd, log, setSfd, setSocket], hi, hs, howner, hnew, rfl⟩)
    · exact .inl (by simp [putSockfd, log, setSfd, setSocket, hj])
  case dropConnect => exact .inl (update_keeps Socket.sockfd (by rfl) j)
  case startConnect => exact .inl (update_keeps Socket.sockfd (by rfl) j)
  case destroySfd s rest _ _ _ _ _ =>
    left
    rw [destroySfd_sockets]
    rfl
  case killSock => exact .inl (update_keeps Socket.sockfd (by rfl) j)
  case dropUserRef => exact .inl (update_keeps Socket.sockfd (by rfl) j)
  case runAppend i s buf tasks _ _ _ _ =>
    exact .inl ((runAppend_same (w.pop tasks) i s buf).sockfd j)
  case writeable i s env _ _ _ => exact .inl ((writeable_same w i s env).sockfd j)
  case allocReadBuf i udp => exact .inl ((allocReadBuf_same w i udp).sockfd j)
  all_goals exact .inl rfl

/-! ## Live `SocketFD` objects and their registrations -/

theorem WF.fd_inj (hw : w.WF) {s s' : SfdId} (hs : (w.sfds s).alive) (hs' : (w.sfds s').alive)
    (hfd : (w.sfds s).fd = (w.sfds s').fd) : s = s' := by
  have hopen := (hw.openLive s hs).1
  rw [hfd, (hw.openLive s' hs').1] at hopen
  exact (Option.some.inj hopen).symm

theorem micro_alive (h : Micro d w w') (hw : w.WF) (s : SfdId) :
    (w'.sfds s).alive = (w.sfds s).alive ∨
    (s ∈ w.locals.fds ∧ ∃ type i attempt, w' = w.makeSfd s type i attempt) ∨
    (∃ rest, w.locals.sfds = s :: rest ∧ s ∉ w.locals.unattached ∧
      w' = (w.popSfds rest).destroySfd s) := by
  cases h
  case opened fd hfree =>
    left
    simp only [World.opened, Function.update_apply]
    split
    · next heq =>
      by_contra hlive
      have hbound := (hw.openLive s (by simpa using Ne.symm hlive)).2
      rw [heq] at hbound
      exact absurd hbound (lt_irrefl _)
    · rfl
  case makeSfd s' type i attempt hs' hi =>
    by_cases hs : s = s'
    · subst hs
      exact .inr (.inl ⟨hs', type, i, attempt, rfl⟩)
    · left
      simp only [World.makeSfd, Function.update_of_ne hs]
  case putSockfd i s' _ _ _ _ _ =>
    left
    simp only [World.putSockfd, log, setSfd, setSocket, Function.update_apply]
    split
    · next heq => rw [heq]
    · rfl
  case destroySfd s' rest hrest hsfds hgone hatt hhandler =>
    by_cases hs : s = s'
    · subst hs
      exact .inr (.inr ⟨rest, hsfds, hatt, rfl⟩)
    · left
      rw [destroySfd_sfds, Function.update_of_ne hs]
      rfl
  case markAttached s' _ _ =>
    left
    simp only [World.markAttached, setSfd, Function.update_apply]
    split
    · next heq => rw [heq]
    · rfl
  case setConnected s' =>
    left
    simp only [World.setConnected, setSfd, Function.update_apply]
    split
    · next heq => rw [heq]
    · rfl
  case runAppend i s' buf tasks _ _ _ _ =>
    left
    rw [(runAppend_same (w.pop tasks) i s' buf).sfds]
    rfl
  case writeable i s' env _ _ _ =>
    left
    rw [(writeable_same w i s' env).sfds]
  case allocReadBuf i udp =>
    left
    rw [(allocReadBuf_same w i udp).sfds]
  all_goals exact .inl rfl

/-- The steps that change which descriptors are registered or are to be. -/
inductive RegStep (w : World) : World → Prop where
  | made (s : SfdId) (type : SockType) (i : SockId) (attempt : Option ConnId)
      (hs : s ∈ w.locals.fds) : RegStep w (w.makeSfd s type i attempt)
  | destroyed (s : SfdId) (rest : List SfdId) (hsfds : w.locals.sfds = s :: rest)
      (hatt : s ∉ w.locals.unattached) : RegStep w ((w.popSfds rest).destroySfd s)
  | registered (s : SfdId) (cb : PollEventCB) (event : Nat) (ctlOk : Bool)
      (hatt : s ∈ w.locals.unattached) : RegStep w (w.register s cb event ctlOk).1
  | unregistered (s : SfdId) (hs : (w.sfds s).alive)
      (hreg : (w.poller.eventMap (w.sfds s).fd).isSome) : RegStep w (w.unregister s)
  | threw (s : SfdId) (hatt : s ∈ w.locals.unattached) : RegStep w (w.logAcceptThrew s)

theorem micro_regStep (h : Micro d w w') (hw : w.WF) :
    (w'.poller.eventMap = w.poller.eventMap ∧ w'.locals.unattached = w.locals.unattached) ∨
      RegStep w w' := by
  cases h
  case makeSfd s type i attempt hs hi => exact .inr (.made s type i attempt hs)
  case destroySfd s rest hrest hsfds hgone hatt hhandler =>
    exact .inr (.destroyed s rest hsfds hatt)
  case register s cb event ctlOk _ _ hatt => exact .inr (.registered s cb event ctlOk hatt)
  case unregister i a s hheld hreg =>
    exact .inr (.unregistered s (hw.localsLive.1 s hheld) (by rw [hreg]; rfl))
  case logAcceptThrew s hatt => exact .inr (.threw s hatt)
  case runAppend i s buf tasks _ _ _ _ =>
    left
    rw [(runAppend_same (w.pop tasks) i s buf).eventMap, runAppend_locals]
    exact ⟨rfl, rfl⟩
  case writeable i s env _ _ _ =>
    left
    rw [(writeable_same w i s env).eventMap, writeable_locals]
    exact ⟨rfl, rfl⟩
  case allocReadBuf i udp =>
    left
    rw [(allocReadBuf_same w i udp).eventMap, allocReadBuf_locals]
    exact ⟨rfl, rfl⟩
  all_goals exact .inl ⟨rfl, rfl⟩

/-! ## The event that is handled -/

theorem micro_handler (h : Micro d w w') :
    w'.locals.handler = w.locals.handler ∨ w'.locals.handler = none ∨
    ∃ i s, w.locals = {} ∧ (w.sockets i).sockfd = some s ∧ w' = w.lock i s := by
  cases h
  case lock i s hlocals hi hcur => exact .inr (.inr ⟨i, s, hlocals, hcur, rfl⟩)
  case unlock => exact .inr (.inl rfl)
  case destroySfd s rest _ _ _ _ _ =>
    left
    rw [destroySfd_locals]
    rfl
  case runAppend i s buf tasks _ _ _ _ =>
    left
    rw [runAppend_locals]
    rfl
  case writeable i s env _ _ _ =>
    left
    rw [writeable_locals]
  case allocReadBuf i udp =>
    left
    rw [allocReadBuf_locals]
  all_goals exact .inl rfl

/-! ## Connect attempts -/

theorem SameButQueue.connect (h : SameButQueue w w') :
    w'.conns = w.conns ∧ w'.nextConn = w.nextConn ∧
      (∀ j, (w'.sockets j).connectTimer = (w.sockets j).connectTimer) ∧
      ∀ j, (w'.sockets j).asyncConnectCb = (w.sockets j).asyncConnectCb := by
  refine ⟨h.conns, h.nextConn, fun j => ?_, fun j => ?_⟩
  all_goals
    obtain ⟨q, r, hq⟩ := h.sockets j
    rw [hq]

theorem micro_connect (h : Micro d w w') (hw : w.WF) :
    (w'.conns = w.conns ∧ w'.nextConn = w.nextConn ∧
      (∀ j, (w'.sockets j).connectTimer = (w.sockets j).connectTimer) ∧
      ∀ j, (w'.sockets j).asyncConnectCb = (w.sockets j).asyncConnectCb) ∨
    (∃ i, w' = w.dropConnect i) ∨
    (∃ i timeoutMs now, w.Idle i ∧ w' = w.startConnect i timeoutMs now) := by
  cases h
  case dropConnect i => exact .inr (.inl ⟨i, rfl⟩)
  case startConnect i timeoutMs now _ hidle _ => exact .inr (.inr ⟨i, timeoutMs, now, hidle, rfl⟩)
  case create =>
    have hidle := hw.deadIdle w.nextSock hw.nextSock_dead
    exact .inl ⟨rfl, rfl, fun j => update_keeps Socket.connectTimer (by rw [hidle.connectTimer]) j,
      fun j => update_keeps Socket.asyncConnectCb (by rw [hidle.asyncConnectCb]) j⟩
  case clearSockfd i _ _ _ =>
    exact .inl ⟨rfl, rfl, fun j => update_keeps Socket.connectTimer (by rfl) j,
      fun j => update_keeps Socket.asyncConnectCb (by rfl) j⟩
  case putSockfd i s _ _ _ _ _ =>
    exact .inl ⟨rfl, rfl, fun j => update_keeps Socket.connectTimer (by rfl) j,
      fun j => update_keeps Socket.asyncConnectCb (by rfl) j⟩
  case killSock i rest _ _ _ _ _ =>
    exact .inl ⟨rfl, rfl, fun j => update_keeps Socket.connectTimer (by rfl) j,
      fun j => update_keeps Socket.asyncConnectCb (by rfl) j⟩
  case dropUserRef i =>
    exact .inl ⟨rfl, rfl, fun j => update_keeps Socket.connectTimer (by rfl) j,
      fun j => update_keeps Socket.asyncConnectCb (by rfl) j⟩
  case destroySfd s rest _ _ _ _ _ =>
    have hsame := destroySfd_same (w.popSfds rest) s
    left
    rw [hsame.conns, hsame.nextConn, hsame.sockets]
    exact ⟨rfl, rfl, fun _ => rfl, fun _ => rfl⟩
  case runAppend i s buf rest _ _ _ _ =>
    exact .inl (runAppend_same (w.pop rest) i s buf).connect
  case writeable i s env _ _ _ => exact .inl (writeable_same w i s env).connect
  case allocReadBuf i udp => exact .inl (allocReadBuf_same w i udp).connect
  all_goals exact .inl ⟨rfl, rfl, fun _ => rfl, fun _ => rfl⟩

theorem micro_connecting (h : Micro d w w') {fd : Fd} {i : SockId} {a : ConnId} {s : SfdId}
    (hreg : w'.poller.eventMap fd = some (.connecting i a s)) :
    w.poller.eventMap fd = some (.connecting i a s) ∨
      (w.sockets i).asyncConnectCb = some a ∧ (w'.sockets i).asyncConnectCb = some a := by
  cases h
  case destroySfd s' rest _ _ _ _ _ =>
    rw [destroySfd_poller, EventPoller.eventMap_delEvent] at hreg
    split at hreg
    · cases hreg
    · exact .inl hreg
  case register s' cb event ctlOk _ hcb _ =>
    simp only [register] at hreg
    rw [EventPoller.eventMap_addEvent] at hreg
    split at hreg
    · cases hreg
      exact .inr ⟨hcb.2.2.1, hcb.2.2.1⟩
    · exact .inl hreg
  case unregister i' a' s' _ _ =>
    simp only [unregister] at hreg
    rw [EventPoller.eventMap_delEvent] at hreg
    split at hreg
    · cases hreg
    · exact .inl hreg
  case runAppend i' s' buf rest _ _ _ _ =>
    rw [(runAppend_same (w.pop rest) i' s' buf).eventMap] at hreg
    exact .inl hreg
  case writeable i' s' env _ _ _ =>
    rw [(writeable_same w i' s' env).eventMap] at hreg
    exact .inl hreg
  case allocReadBuf i' udp =>
    rw [(allocReadBuf_same w i' udp).eventMap] at hreg
    exact .inl hreg
  all_goals exact .inl hreg

theorem micro_conn (h : Micro d w w') :
    w'.locals.conn = w.locals.conn ∨ w'.locals.conn = none ∨
      ∃ i a, w.Origin i a ∧ w' = w.enterReport i a := by
  cases h
  case enterReport i a horigin => exact .inr (.inr ⟨i, a, horigin, rfl⟩)
  case logReport => exact .inr (.inl rfl)
  case destroySfd s rest _ _ _ _ _ =>
    left
    rw [destroySfd_locals]
    rfl
  case runAppend i s buf rest _ _ _ _ =>
    left
    rw [runAppend_locals]
    rfl
  case writeable i s env _ _ _ =>
    left
    rw [writeable_locals]
  case allocReadBuf i udp =>
    left
    rw [allocReadBuf_locals]
  all_goals exact .inl rfl

/-! ## The history -/

/-- Where an event comes from: the state it was logged in and the step that logs it.
What nothing below asks for is left open. -/
def Logs (w w' : World) : Event → Prop
  | .connect i a =>
      a = w.nextConn ∧ w.Idle i ∧ w.locals.conn = none ∧
        ∃ timeoutMs now, w' = w.startConnect i timeoutMs now
  | .close i old =>
      w.Idle i ∧ w.locals.conn = none ∧
        (∀ s, old = some s → s < w.nextSfd ∧ (w.sfds s).owner = i ∧ (w.sfds s).installed) ∧
        w' = w.log (.close i old)
  | .destroyed i => w.Idle i ∧ w.locals.conn = none ∧ ∃ rest, w' = w.killSock i rest
  | .report i a err entry =>
      w.locals.conn = some (i, a) ∧ (w.sockets i).connectTimer = none ∧
        (w.sockets i).asyncConnectCb = none ∧ (err ≠ .success → (w.sockets i).sockfd = none) ∧
        (err = .success → ∃ s udp, (w.sockets i).sockfd = some s ∧ (w.sfds s).attempt = some a ∧
          (w.sfds s).connected ∧
          w.poller.eventMap (w.sfds s).fd = some (.attached i s udp)) ∧
        entry = ⟨(w.sockets i).connectTimer, (w.sockets i).asyncConnectCb, (w.sockets i).sockfd,
          (w.sockets i).sockfd.bind fun s => (w.sfds s).attempt,
          (w.sockets i).sockfd.any fun s => (w.sfds s).connected⟩ ∧ w' = w.logReport i a err
  | .send i s data drained =>
      (w.sockets i).sockfd = some s ∧ (∀ b ∈ data, b.origin = s) ∧
        drained = (w.poller.taskList.all fun t => (t.appends s).isEmpty) ∧
        ∃ buf, data = buf.data ∧ w' = w.postAppend i s buf
  | .writeable i s waiting =>
      waiting = ((w.sockets i).queue.sendBufWaiting.flatMap Buffer.data).length ∧
        ∃ env, w.locals.handler = some (i, s) ∧ w' = (w.writeable i s env).1
  | .sendmsg s sent =>
      ∃ i env, w.locals.handler = some (i, s) ∧ (w.sockets i).sockfd ≠ none ∧
        sent ∈ (w.writeable i s env).2.calls ∧ w' = (w.writeable i s env).1
  | .install i s idle =>
      (w.sfds s).installed = false ∧
        idle = ((w.sockets i).queue.sendBufSending.isEmpty &&
          (w.sockets i).queue.sendBufWaiting.isEmpty) ∧ w' = w.putSockfd i s
  | .addEvent s ctlOk =>
      s ∈ w.locals.unattached ∧ ∃ cb event, w' = (w.register s cb event ctlOk).1
  | .acceptThrew p => p ∈ w.locals.unattached ∧ w' = w.logAcceptThrew p
  | .closed t _ =>
      (∃ s ∈ w.locals.fds, t = w.openFds (w.sfds s).fd ∧ w' = w.closeLoose s) ∨
        ∃ s rest, w.locals.sfds = s :: rest ∧ t = w.openFds (w.sfds s).fd ∧
          w' = (w.popSfds rest).destroySfd s
  | .read i s data => w' = w.log (.read i s data)
  | .accept i s j => w' = w.log (.accept i s j)
  | .raised i s cur err =>
      (w.sockets i).sockfd = some cur ∧ w' = w.log (.raised i s cur err)
  | _ => True

theorem writeable_trace (w : World) (i : SockId) (s : SfdId) (env : SendEnv) :
    (w.writeable i s env).1.trace = w.trace ++
      .writeable i s ((w.sockets i).queue.sendBufWaiting.flatMap Buffer.data).length ::
        (w.writeable i s env).2.calls.map (.sendmsg s) := by
  unfold writeable
  dsimp only
  split <;> rfl

theorem runAppend_trace (w : World) (i : SockId) (s : SfdId) (buf : Buffer Byte) :
    (w.runAppend i s buf).trace = w.trace := by
  unfold runAppend
  dsimp only
  split <;> rfl

theorem allocReadBuf_trace (w : World) (i : SockId) (udp : Bool) :
    (w.allocReadBuf i udp).trace = w.trace := by
  unfold allocReadBuf
  dsimp only
  split <;> rfl

theorem destroySfd_trace (w : World) (s : SfdId) :
    (w.destroySfd s).trace = w.trace ++
      if (w.poller.delEvent (w.sfds s).fd).2.isSome then
        [.closed (w.openFds (w.sfds s).fd) (w.sfds s).connected]
      else [] := by
  unfold destroySfd
  dsimp only
  split
  · rfl
  · exact (List.append_nil _).symm

/-- The events of `on_writeable`; any other step logs one event at most. -/
def isWrite : Event → Bool
  | .writeable _ _ _ => true
  | .sendmsg _ _ => true
  | _ => false

theorem micro_trace (h : Micro d w w') :
    ∃ es, w'.trace = w.trace ++ es ∧ (∀ e ∈ es, w.Logs w' e) ∧
      (es.length ≤ 1 ∨ ∀ e ∈ es, isWrite e = true) := by
  have hnone : ∀ e ∈ ([] : List Event), w.Logs w' e := fun e he => by cases he
  have hone : ∀ e, w.Logs w' e → (∀ e' ∈ [e], w.Logs w' e') ∧
      ([e].length ≤ 1 ∨ ∀ e' ∈ [e], isWrite e' = true) := by
    intro e he
    refine ⟨fun e' he' => ?_, .inl (le_refl _)⟩
    rw [List.mem_singleton.1 he']
    exact he
  cases h
  case logClose i old hidle hconn hold => exact ⟨_, rfl, hone _ ⟨hidle, hconn, hold, rfl⟩⟩
  case startConnect i timeoutMs now hi hidle hconn =>
    exact ⟨_, rfl, hone _ ⟨rfl, hidle, hconn, timeoutMs, now, rfl⟩⟩
  case killSock i rest _ _ hidle hconn _ => exact ⟨_, rfl, hone _ ⟨hidle, hconn, rest, rfl⟩⟩
  case logReport i a err hconn htimer hasync hfail hok =>
    exact ⟨_, rfl, hone _ ⟨hconn, htimer, hasync, hfail, hok, rfl, rfl⟩⟩
  case postAppend i s buf hne horigin hi hcur =>
    exact ⟨_, rfl, hone _ ⟨hcur, horigin, rfl, buf, rfl, rfl⟩⟩
  case writeable i s env hhandler hcur _ =>
    refine ⟨_, writeable_trace w i s env, fun e he => ?_, .inr fun e he => ?_⟩
    · rcases List.mem_cons.1 he with rfl | he
      · exact ⟨rfl, env, hhandler, rfl⟩
      · obtain ⟨sent, hsent, rfl⟩ := List.mem_map.1 he
        exact ⟨i, env, hhandler, hcur, hsent, rfl⟩
    · rcases List.mem_cons.1 he with rfl | he
      · rfl
      · obtain ⟨sent, hsent, rfl⟩ := List.mem_map.1 he
        rfl
  case putSockfd i s _ _ _ hnew _ => exact ⟨_, rfl, hone _ ⟨hnew, rfl, rfl⟩⟩
  case register s cb event ctlOk _ _ hatt => exact ⟨_, rfl, hone _ ⟨hatt, cb, event, rfl⟩⟩
  case logAcceptThrew p hatt => exact ⟨_, rfl, hone _ ⟨hatt, rfl⟩⟩
  case logRead => exact ⟨_, rfl, hone _ rfl⟩
  case logAccept => exact ⟨_, rfl, hone _ rfl⟩
  case logRaised i s cur err hcur => exact ⟨_, rfl, hone _ ⟨hcur, rfl⟩⟩
  case opened => exact ⟨_, rfl, hone _ trivial⟩
  case closeLoose s hs => exact ⟨_, rfl, hone _ (.inl ⟨s, hs, rfl, rfl⟩)⟩
  case logFlushed => exact ⟨_, rfl, hone _ trivial⟩
  case logError => exact ⟨_, rfl, hone _ trivial⟩
  case destroySfd s rest _ hsfds _ _ _ =>
    refine ⟨_, destroySfd_trace _ s, ?_⟩
    split
    · exact hone _ (.inr ⟨s, rest, hsfds, rfl, rfl⟩)
    · exact ⟨hnone, .inl (Nat.zero_le 1)⟩
  case runAppend i s buf tasks _ _ _ _ =>
    exact ⟨[], by simp [runAppend_trace, pop], hnone, .inl (Nat.zero_le 1)⟩
  case allocReadBuf i udp =>
    exact ⟨[], by simp [allocReadBuf_trace], hnone, .inl (Nat.zero_le 1)⟩
  all_goals exact ⟨[], (List.append_nil _).symm, hnone, .inl (Nat.zero_le 1)⟩

theorem micro_trace_mono (h : Micro d w w') {e : Event} (he : e ∈ w.trace) : e ∈ w'.trace := by
  obtain ⟨es, heq, -⟩ := micro_trace h
  rw [heq]
  exact List.mem_append_left _ he

/-- A property that each event has when it is logged holds all along, if it is not lost
when more has happened. -/
theorem micro_eachOk_mono {Q : List Event → Event → Prop}
    (hmono : ∀ t u e, Q t e → Q (t ++ u) e) (h : Micro d w w')
    (hnew : ∀ e, w.Logs w' e → Q w.trace e) (hok : EachOk Q w.trace) : EachOk Q w'.trace := by
  obtain ⟨es, heq, hlogs, -⟩ := micro_trace h
  rw [heq]
  exact hok.append hmono fun e he => hnew e (hlogs e he)

theorem micro_eachOk {Q : List Event → Event → Prop}
    (hwrite : ∀ t e, isWrite e = true → Q t e) (h : Micro d w w')
    (hnew : ∀ e, w.Logs w' e → Q w.trace e) (hok : EachOk Q w.trace) : EachOk Q w'.trace := by
  obtain ⟨es, heq, hlogs, hlen | hall⟩ := micro_trace h
  · rw [heq]
    cases es with
    | nil => rwa [List.append_nil]
    | cons e es =>
        have hshort : es.length ≤ 0 := Nat.le_of_succ_le_succ hlen
        obtain rfl : es = [] := List.length_eq_zero_iff.1 (Nat.le_zero.1 hshort)
        exact hok.snoc (hnew e (hlogs e List.mem_cons_self))
  · rw [heq]
    exact hok.append_free fun e he t => hwrite t e (hall e he)

/-- What only happens while an event is handled. -/
def ofHandler : Event → Bool
  | .read _ _ _ => true
  | .accept _ _ _ => true
  | .raised _ _ _ _ => true
  | _ => false

theorem micro_unhandled (h : Micro false w w') :
    ∃ es, w'.trace = w.trace ++ es ∧ ∀ e ∈ es, ofHandler e = false := by
  cases h
  case writeable i s env _ _ _ =>
    refine ⟨_, writeable_trace w i s env, fun e he => ?_⟩
    rcases List.mem_cons.1 he with rfl | he
    · rfl
    · obtain ⟨sent, -, rfl⟩ := List.mem_map.1 he
      rfl
  case destroySfd s rest _ _ _ _ _ =>
    refine ⟨_, destroySfd_trace _ s, ?_⟩
    split
    · simp [ofHandler]
    · simp
  case runAppend i s buf tasks _ _ _ _ =>
    exact ⟨[], by simp [runAppend_trace, pop], by simp⟩
  case allocReadBuf i udp => exact ⟨[], by simp [allocReadBuf_trace], by simp⟩
  all_goals first
    | exact ⟨[], (List.append_nil _).symm, by simp⟩
    | exact ⟨[_], rfl, by simp [ofHandler]⟩

theorem Steps.unhandled (h : Steps false w w') :
    ∃ es, w'.trace = w.trace ++ es ∧ ∀ e ∈ es, ofHandler e = false := by
  induction h with
  | refl => exact ⟨[], (List.append_nil _).symm, by simp⟩
  | tail _ hstep ih =>
      obtain ⟨es, heq, hes⟩ := ih
      obtain ⟨es', heq', hes'⟩ := micro_unhandled hstep
      refine ⟨es ++ es', by rw [heq', heq, List.append_assoc], fun e he => ?_⟩
      rcases List.mem_append.1 he with he | he
      · exact hes e he
      · exact hes' e he

theorem Steps.eachOk {Q : List Event → Event → Prop}
    (hQ : ∀ t e, ofHandler e = false → Q t e) (h : Steps false w w')
    (hok : EachOk Q w.trace) : EachOk Q w'.trace := by
  obtain ⟨es, heq, hes⟩ := h.unhandled
  rw [heq]
  exact hok.append_free fun e he t => hQ t e (hes e he)

end World

end CommonLibrary.Net
