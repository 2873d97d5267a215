import CommonLibrary.Net.Effects

/-!
# The order of the bytes on a connection

A byte given to `Send` is carried by a task, then by the send queue, and then taken over
by `sendmsg`.  Read in the other direction, these three together are the bytes of all
calls of `Send` in order, unless a call finds the task of an earlier one in
`task_list_`: `AsyncFirst` puts the new one in front of it.
-/

namespace CommonLibrary.Net

open Foundation Poller

namespace Event

/-- The bytes an event gives to `Send` for `s`. -/
def given (s : SfdId) : Event → List Byte
  | send _ s' data _ => if s' = s then data else []
  | _ => []

/-- The bytes `sendmsg` takes over on the descriptor of `s`. -/
def taken (s : SfdId) : Event → List Byte
  | sendmsg s' sent => if s' = s then sent.accepted else []
  | _ => []

def installed : Event → Option SfdId
  | install _ s _ => some s
  | _ => none

/-- For `s`: `Send` finds no task of an earlier `Send` in `task_list_`, less than 2 GiB
wait when `on_writeable` starts, and nothing was queued when it became `sockfd_`. -/
def inOrder (s : SfdId) : Event → Bool
  | send _ s' _ drained => s' ≠ s || drained
  | writeable _ s' waiting => s' ≠ s || waiting < 2 ^ 31
  | install _ s' idle => s' ≠ s || idle
  | _ => true

end Event

namespace World

variable {d : Bool} {w w' : World}

def sends (s : SfdId) (t : List Event) : List Byte := t.flatMap (Event.given s)

def wire (s : SfdId) (t : List Event) : List Byte := t.flatMap (Event.taken s)

/-- The bytes that tasks will append for `s`, in the order in which these run. -/
def pending (w : World) (s : SfdId) : List Byte := w.tasks.flatMap (SocketTask.appends s)

/-! ## The steps of sending -/

/-- What a step leaves alone that is not about sending. -/
structure SameSending (w w' : World) : Prop where
  queue : ∀ j, (w.sockets j).alive → (w'.sockets j).queue = (w.sockets j).queue
  sockfd : ∀ j, (w'.sockets j).sockfd = (w.sockets j).sockfd
  handler : w'.locals.handler = w.locals.handler
  sendFailed : w'.locals.sendFailed = w.locals.sendFailed
  pending : ∀ s, w'.pending s = w.pending s
  sends : ∀ s, sends s w'.trace = sends s w.trace
  wire : ∀ s, wire s w'.trace = wire s w.trace

/-- The steps of sending, and the ones that begin or end a connection or an event. -/
inductive SendStep (w : World) : World → Prop where
  | same {w' : World} (h : SameSending w w') : SendStep w w'
  | send (i : SockId) (s : SfdId) (buf : Buffer Byte) (hcur : (w.sockets i).sockfd = some s) :
      SendStep w (w.postAppend i s buf)
  | run (i : SockId) (s : SfdId) (buf : Buffer Byte) (rest : List SocketTask)
      (hswap : w.swapList = .append i s buf :: rest) (hlocals : w.locals = {})
      (hcur : (w.sockets i).sockfd = some s) (hne : buf.data ≠ []) :
      SendStep w ((w.pop rest).runAppend i s buf)
  | drop (i : SockId) (s : SfdId) (buf : Buffer Byte) (rest : List SocketTask)
      (hswap : w.swapList = .append i s buf :: rest)
      (hgone : ¬ ((w.sockets i).alive ∧ (w.sfds s).alive)) (howner : (w.sfds s).owner = i) :
      SendStep w (w.pop rest)
  | write (i : SockId) (s : SfdId) (env : SendEnv) (hhandler : w.locals.handler = some (i, s))
      (hcur : (w.sockets i).sockfd ≠ none) (hok : w.locals.sendFailed = false) :
      SendStep w (w.writeable i s env).1
  | clear (i : SockId) : SendStep w (w.clearSockfd i)
  | put (i : SockId) (s : SfdId) (hnew : (w.sfds s).installed = false) :
      SendStep w (w.putSockfd i s)
  | lock (i : SockId) (s : SfdId) (hlocals : w.locals = {})
      (hcur : (w.sockets i).sockfd = some s) : SendStep w (w.lock i s)
  | unlock (hfailed : w.locals.sendFailed → ∀ i s, w.locals.handler = some (i, s) →
      (w.sockets i).sockfd = none) : SendStep w w.unlock

theorem appends_of_plain {t : SocketTask} (ht : t.Plain) (s : SfdId) : t.appends s = [] := by
  cases t
  case append => exact ht.elim
  all_goals rfl

theorem pending_pop {t : SocketTask} {rest : List SocketTask} (hswap : w.swapList = t :: rest)
    (s : SfdId) : w.pending s = t.appends s ++ (w.pop rest).pending s := by
  rw [pending, tasks_pop hswap, List.flatMap_cons]
  rfl

theorem pending_post {t : SocketTask} (s : SfdId) (ht : t.appends s = []) (first : Bool) :
    (w.post t first).pending s = w.pending s := by
  cases first <;> simp [pending, tasks, post, EventPoller.async, ht]

theorem SameButQueue.pending (h : SameButQueue w w') (s : SfdId) :
    w'.pending s = w.pending s := by
  rw [World.pending, h.tasks_eq, World.pending]

theorem sends_log {e : Event} (s : SfdId) (he : e.given s = []) :
    sends s (w.trace ++ [e]) = sends s w.trace := by
  simp [sends, he]

theorem wire_log {e : Event} (s : SfdId) (he : e.taken s = []) :
    wire s (w.trace ++ [e]) = wire s w.trace := by
  simp [wire, he]

theorem micro_sendStep (h : Micro d w w') (hw : w.WF) : SendStep w w' := by
  cases h
  case postAppend i s buf hne horigin hi hcur => exact .send i s buf hcur
  case runAppend i s buf rest hswap hlocals hi hs =>
    have hin : .append i s buf ∈ w.tasks := by simp [tasks, hswap]
    exact .run i s buf rest hswap hlocals (hw.append_current hlocals hswap hs)
      (hw.appendsOwned i s buf hin).2.2.2.1
  case dropAppend i s buf rest hswap hgone =>
    have hin : .append i s buf ∈ w.tasks := by simp [tasks, hswap]
    exact .drop i s buf rest hswap hgone (hw.appendsOwned i s buf hin).2.1
  case writeable i s env hhandler hcur hok => exact .write i s env hhandler hcur hok
  case clearSockfd i _ _ _ => exact .clear i
  case putSockfd i s _ _ _ hnew _ => exact .put i s hnew
  case lock i s hlocals _ hcur => exact .lock i s hlocals hcur
  case unlock hfailed => exact .unlock hfailed
  case create =>
    refine .same ⟨fun j hj => ?_, fun j => ?_, rfl, rfl, fun s => rfl, fun s => rfl, fun s => rfl⟩
    · have hne : j ≠ w.nextSock := Nat.ne_of_lt (hw.sockBound j hj)
      simp [create, setSocket, hne]
    · simp only [create, setSocket, Function.update_apply]
      split
      · next heq => rw [heq, (hw.deadIdle w.nextSock hw.nextSock_dead).sockfd]
      · rfl
  case dropConnect i =>
    exact .same ⟨fun j _ => update_keeps Socket.queue (by rfl) j,
      fun j => update_keeps Socket.sockfd (by rfl) j, rfl, rfl, fun s => rfl, fun s => rfl,
      fun s => rfl⟩
  case startConnect i timeoutMs now _ _ _ =>
    refine .same ⟨fun j _ => update_keeps Socket.queue (by rfl) j,
      fun j => update_keeps Socket.sockfd (by rfl) j, rfl, rfl, fun s => ?_,
      fun s => sends_log s rfl, fun s => wire_log s rfl⟩
    simp [pending, tasks, startConnect, EventPoller.async, SocketTask.appends]
  case killSock i rest _ _ _ _ _ =>
    exact .same ⟨fun j _ => update_keeps Socket.queue (by rfl) j,
      fun j => update_keeps Socket.sockfd (by rfl) j, rfl, rfl, fun s => rfl,
      fun s => sends_log s rfl, fun s => wire_log s rfl⟩
  case dropUserRef i =>
    exact .same ⟨fun j _ => update_keeps Socket.queue (by rfl) j,
      fun j => update_keeps Socket.sockfd (by rfl) j, rfl, rfl, fun s => rfl, fun s => rfl,
      fun s => rfl⟩
  case post t first ht =>
    exact .same ⟨fun _ _ => rfl, fun _ => rfl, rfl, rfl,
      fun s => pending_post s (appends_of_plain ht s) first, fun s => rfl, fun s => rfl⟩
  case postConnected i a s' hs' =>
    exact .same ⟨fun _ _ => rfl, fun _ => rfl, rfl, rfl,
      fun s => pending_post
        (w := { w with locals := { w.locals with fds := w.locals.fds.erase s' } }) s rfl false,
      fun s => rfl, fun s => rfl⟩
  case swap hnil =>
    exact .same ⟨fun _ _ => rfl, fun _ => rfl, rfl, rfl, fun s => by simp [pending, tasks, hnil],
      fun s => rfl, fun s => rfl⟩
  case pop t rest ht hswap =>
    refine .same ⟨fun _ _ => rfl, fun _ => rfl, rfl, rfl, fun s => ?_, fun s => rfl, fun s => rfl⟩
    rw [pending_pop hswap, appends_of_plain ht, List.nil_append]
  case popConnected i a s' rest hswap =>
    refine .same ⟨fun _ _ => rfl, fun _ => rfl, rfl, rfl, fun s => ?_, fun s => rfl, fun s => rfl⟩
    rw [pending_pop hswap]
    rfl
  case destroySfd s' rest _ _ _ _ _ =>
    have hsame := destroySfd_same (w.popSfds rest) s'
    have htrace := destroySfd_trace (w.popSfds rest) s'
    refine .same ⟨fun j _ => ?_, fun j => ?_, ?_, ?_, fun s => ?_, fun s => ?_, fun s => ?_⟩
    · rw [hsame.sockets]
      rfl
    · rw [hsame.sockets]
      rfl
    · rw [hsame.locals]
      rfl
    · rw [hsame.locals]
      rfl
    · rw [pending, tasks_destroySfd]
      rfl
    · rw [htrace]
      split
      · exact sends_log (w := w) s rfl
      · simp [popSfds]
    · rw [htrace]
      split
      · exact wire_log (w := w) s rfl
      · simp [popSfds]
  case register s' cb event ctlOk _ _ _ =>
    refine .same ⟨fun _ _ => rfl, fun _ => rfl, rfl, rfl, fun s => ?_,
      fun s => sends_log s rfl, fun s => wire_log s rfl⟩
    simp [pending, tasks, register]
  case unregister i a s' _ _ =>
    refine .same ⟨fun _ _ => rfl, fun _ => rfl, rfl, rfl, fun s => ?_, fun s => rfl, fun s => rfl⟩
    simp [pending, tasks, unregister]
  case allocReadBuf i udp =>
    have hsame := allocReadBuf_same w i udp
    refine .same ⟨fun j _ => ?_, hsame.sockfd, ?_, ?_, hsame.pending, fun s => ?_, fun s => ?_⟩
    · unfold allocReadBuf
      dsimp only
      split
      · exact update_keeps Socket.queue (by rfl) j
      · rfl
    · rw [allocReadBuf_locals]
    · rw [allocReadBuf_locals]
    · rw [allocReadBuf_trace]
    · rw [allocReadBuf_trace]
  -- what is left logs an event of another kind, or none
  all_goals first
    | exact .same ⟨fun _ _ => rfl, fun _ => rfl, rfl, rfl, fun s => rfl, fun s => rfl, fun s => rfl⟩
    | exact .same ⟨fun _ _ => rfl, fun _ => rfl, rfl, rfl, fun s => rfl, fun s => sends_log s rfl,
        fun s => wire_log s rfl⟩

/-! ## What the steps of sending do to the bytes of one connection -/

theorem pending_postAppend_self {i : SockId} {s : SfdId} {buf : Buffer Byte}
    (hdrained : (w.poller.taskList.all fun t => (t.appends s).isEmpty) = true) :
    (w.postAppend i s buf).pending s = w.pending s ++ buf.data := by
  have hnone : w.poller.taskList.flatMap (SocketTask.appends s) = [] := by
    rw [List.flatMap_eq_nil_iff]
    intro t ht
    exact List.isEmpty_iff.1 (List.all_eq_true.1 hdrained t ht)
  simp [pending, tasks, postAppend, post, log, EventPoller.async, SocketTask.appends, hnone]

theorem pending_postAppend_ne {i : SockId} {s s' : SfdId} (hne : s' ≠ s) (buf : Buffer Byte) :
    (w.postAppend i s' buf).pending s = w.pending s :=
  pending_post (w := w) s (by simp [SocketTask.appends, hne]) true

theorem sends_postAppend (w : World) (i : SockId) (s s' : SfdId) (buf : Buffer Byte) :
    sends s (w.postAppend i s' buf).trace =
      sends s w.trace ++ if s' = s then buf.data else [] := by
  simp [sends, postAppend, post, log, Event.given]

theorem wire_postAppend (w : World) (i : SockId) (s s' : SfdId) (buf : Buffer Byte) :
    wire s (w.postAppend i s' buf).trace = wire s w.trace := wire_log s rfl

theorem sends_writeable (w : World) (i : SockId) (s s' : SfdId) (env : SendEnv) :
    sends s (w.writeable i s' env).1.trace = sends s w.trace := by
  rw [writeable_trace]
  simp [sends, Event.given, List.flatMap_map]

theorem wire_writeable (w : World) (i : SockId) (s s' : SfdId) (env : SendEnv) :
    wire s (w.writeable i s' env).1.trace = wire s w.trace ++
      if s' = s then (w.writeable i s' env).2.calls.flatMap Sent.accepted else [] := by
  rw [writeable_trace]
  by_cases hs : s' = s
  · simp [wire, Event.taken, List.flatMap_map, hs]
  · simp [wire, Event.taken, List.flatMap_map, hs]

theorem writtenQueue_inv {i : SockId} {s : SfdId} {env : SendEnv}
    (h : (w.writeable i s env).2.queue.Inv) : (w.writtenQueue i s env).Inv := by
  unfold writtenQueue
  dsimp only
  split
  · exact ⟨h.sending, h.waiting⟩
  · exact h

theorem writtenQueue_unsent (w : World) (i : SockId) (s : SfdId) (env : SendEnv) :
    (w.writtenQueue i s env).unsent = (w.writeable i s env).2.queue.unsent := by
  unfold writtenQueue
  dsimp only
  split <;> rfl

/-! ## The invariant -/

/-- `flush_data` has given up what it was sending. -/
def Lost (w : World) (i : SockId) (s : SfdId) : Prop :=
  w.locals.handler = some (i, s) ∧ w.locals.sendFailed = true

/-- Nothing given to `Send` on `s` is lost or out of order. -/
def Fifo (w : World) (s : SfdId) : Prop :=
  ∀ i, w.InUse i s → (w.sockets i).queue.Inv ∧
    (¬ w.Lost i s →
      wire s w.trace ++ ((w.sockets i).queue.unsent ++ w.pending s) = sends s w.trace)

def WirePrefix (w : World) (s : SfdId) : Prop := wire s w.trace <+: sends s w.trace

/-- Before `s` is a `sockfd_` nothing is sent on it. -/
def Unused (w : World) (s : SfdId) : Prop :=
  ¬ (w.Made s ∧ (w.sfds s).installed) → sends s w.trace = [] ∧ wire s w.trace = []

/-- While the event of an earlier connection is handled, nothing is queued for `s`. -/
def OtherHandler (w : World) (s : SfdId) : Prop :=
  ∀ i s', w.locals.handler = some (i, s') → (w.sockets i).sockfd = some s → s' ≠ s → w.Flushed i

theorem WF.inUse (hw : w.WF) {i : SockId} {s : SfdId} (h : w.InUse i s) :
    (w.sockets i).alive ∧ (w.sfds s).alive ∧ (w.sfds s).owner = i ∧ (w.sfds s).installed := by
  rcases h with hcur | hhandler
  · obtain ⟨hs, howner, hinst⟩ := hw.current i s hcur
    refine ⟨?_, hs, howner, hinst⟩
    by_contra hdead
    have hnone := (hw.deadIdle i (by simpa using hdead)).sockfd
    rw [hcur] at hnone
    cases hnone
  · obtain ⟨hsfd, hsock, howner, hinst⟩ := hw.handlerLive i s hhandler
    exact ⟨hw.localsLive.2.2 i hsock, hw.localsLive.1 s hsfd, howner, hinst⟩

theorem WF.pending_of_unused (hw : w.WF) {s : SfdId} (h : (w.sfds s).installed = false) :
    w.pending s = [] := by
  rw [pending, List.flatMap_eq_nil_iff]
  intro t ht
  cases t
  case append i s' buf =>
    have hne : s' ≠ s := by
      rintro rfl
      have hinst := (hw.appendsOwned i s' buf ht).2.2.1
      rw [h] at hinst
      cases hinst
    simp [SocketTask.appends, hne]
  all_goals rfl

theorem writeable_spec (w : World) (i : SockId) (s : SfdId) (env : SendEnv)
    (hinv : (w.sockets i).queue.Inv)
    (hsmall : ((w.sockets i).queue.sendBufWaiting.flatMap Buffer.data).length < 2 ^ 31) :
    SendQueue.FlushSpec (w.sockets i).queue (w.writeable i s env).2 :=
  SendQueue.onWriteable_spec _ _ hinv hsmall env

theorem Flushed.inv {i : SockId} (h : w.Flushed i) : (w.sockets i).queue.Inv :=
  ⟨by simp [h.1], by simp [h.2]⟩

theorem Flushed.unsent {i : SockId} (h : w.Flushed i) : (w.sockets i).queue.unsent = [] := by
  simp [SendQueue.unsent, h.1, h.2]

/-! ## Nothing is lost or out of order -/

variable {s : SfdId}

theorem Fifo.same (hfifo : w.Fifo s) (hw : w.WF) (hsame : SameSending w w') : w'.Fifo s := by
  intro i huse
  have huse' : w.InUse i s := by
    unfold InUse at huse ⊢
    rwa [hsame.sockfd, hsame.handler] at huse
  unfold Lost
  rw [hsame.queue i (hw.inUse huse').1, hsame.handler, hsame.sendFailed, hsame.pending,
    hsame.sends, hsame.wire]
  exact hfifo i huse'

theorem Fifo.send (hfifo : w.Fifo s) {i' : SockId} {s' : SfdId} {buf : Buffer Byte}
    (hok : ∀ e ∈ (w.postAppend i' s' buf).trace, e.inOrder s = true) :
    (w.postAppend i' s' buf).Fifo s := by
  intro i huse
  obtain ⟨hinv, heq⟩ := hfifo i huse
  refine ⟨hinv, fun hlost => ?_⟩
  rw [wire_postAppend, sends_postAppend, ← heq hlost]
  by_cases hs : s' = s
  · subst hs
    have hlast := hok _ (List.mem_append_right _ (List.mem_singleton_self _))
    have hdrained : (w.poller.taskList.all fun t => (t.appends s').isEmpty) = true := by
      simpa [Event.inOrder] using hlast
    rw [if_pos rfl, pending_postAppend_self hdrained]
    simp only [List.append_assoc]
    rfl
  · rw [if_neg hs, pending_postAppend_ne hs, List.append_nil]
    rfl

theorem Fifo.run (hfifo : w.Fifo s) (hw : w.WF) {i' : SockId} {s' : SfdId} {buf : Buffer Byte}
    {rest : List SocketTask} (hswap : w.swapList = .append i' s' buf :: rest)
    (hlocals : w.locals = {}) (hcur' : (w.sockets i').sockfd = some s') (hne : buf.data ≠ []) :
    ((w.pop rest).runAppend i' s' buf).Fifo s := by
  intro i huse
  have hsame := runAppend_same (w.pop rest) i' s' buf
  have hcur : (w.sockets i).sockfd = some s := by
    rcases huse with hcur | hhandler
    · rwa [hsame.sockfd] at hcur
    · rw [runAppend_locals] at hhandler
      exact absurd hhandler (by simp [pop, hlocals])
  have hlost : ¬ w.Lost i s := fun hlost => absurd hlost.1 (by simp [hlocals])
  obtain ⟨hinv, heq⟩ := hfifo i (.inl hcur)
  have heq := heq hlost
  rw [pending_pop hswap] at heq
  rw [runAppend_trace, hsame.pending, runAppend_sockets]
  by_cases hi : i = i'
  · subst hi
    obtain rfl : s = s' := Option.some.inj (hcur.symm.trans hcur')
    rw [Function.update_self]
    refine ⟨SendQueue.append_inv hinv hne, fun _ => ?_⟩
    show wire s w.trace ++ (((w.sockets i).queue.append buf).1.unsent ++ _) = sends s w.trace
    rw [SendQueue.unsent_append, ← heq]
    simp [SocketTask.appends]
  · have hs : s' ≠ s := by
      rintro rfl
      exact hi ((hw.current i s' hcur).2.1.symm.trans (hw.current i' s' hcur').2.1)
    rw [Function.update_of_ne hi]
    refine ⟨hinv, fun _ => ?_⟩
    show wire s w.trace ++ ((w.sockets i).queue.unsent ++ _) = sends s w.trace
    rw [← heq]
    simp [SocketTask.appends, hs]

/-- A task that does nothing is not for a connection that is in use. -/
theorem Fifo.drop (hfifo : w.Fifo s) (hw : w.WF) {i' : SockId} {s' : SfdId} {buf : Buffer Byte}
    {rest : List SocketTask} (hswap : w.swapList = .append i' s' buf :: rest)
    (hgone : ¬ ((w.sockets i').alive ∧ (w.sfds s').alive)) (howner : (w.sfds s').owner = i') :
    (w.pop rest).Fifo s := by
  intro i huse
  have huse' : w.InUse i s := huse
  obtain ⟨hsock, hsfd, howner', -⟩ := hw.inUse huse'
  have hs : s' ≠ s := by
    rintro rfl
    obtain rfl : i' = i := howner.symm.trans howner'
    exact hgone ⟨hsock, hsfd⟩
  obtain ⟨hinv, heq⟩ := hfifo i huse'
  refine ⟨hinv, fun hlost => ?_⟩
  show wire s w.trace ++ ((w.sockets i).queue.unsent ++ (w.pop rest).pending s) = sends s w.trace
  rw [← heq hlost, pending_pop hswap]
  simp [SocketTask.appends, hs]

theorem Fifo.flush (hfifo : w.Fifo s) {i : SockId} {env : SendEnv}
    (hhandler : w.locals.handler = some (i, s)) (hgood : w.locals.sendFailed = false)
    (hok : ∀ e ∈ (w.writeable i s env).1.trace, e.inOrder s = true) :
    (w.writtenQueue i s env).Inv ∧
      ((w.writeable i s env).2.how ≠ .failed → wire s (w.writeable i s env).1.trace ++
        ((w.writtenQueue i s env).unsent ++ w.pending s) = sends s w.trace) ∧
      wire s (w.writeable i s env).1.trace <+: sends s w.trace := by
  have hlost : ¬ w.Lost i s := fun hlost => absurd hlost.2 (by simp [hgood])
  obtain ⟨hinv, heq⟩ := hfifo i (.inr hhandler)
  have hwaiting := hok
    (.writeable i s ((w.sockets i).queue.sendBufWaiting.flatMap Buffer.data).length)
    (by rw [writeable_trace]; simp)
  have hspec := writeable_spec w i s env hinv (by simpa [Event.inOrder] using hwaiting)
  have heq := heq hlost
  rw [wire_writeable, if_pos rfl, writtenQueue_unsent]
  refine ⟨writtenQueue_inv hspec.inv, fun hhow => ?_, ?_⟩
  · rw [← heq, ← hspec.conserved hhow]
    simp only [List.append_assoc]
  · rw [← heq]
    exact (List.prefix_append_right_inj _).2
      (hspec.sent_prefix.trans (List.prefix_append _ _))

theorem Fifo.write (hfifo : w.Fifo s) (hw : w.WF) (hother : w.OtherHandler s) {i' : SockId}
    {s' : SfdId} {env : SendEnv} (hhandler : w.locals.handler = some (i', s'))
    (hgood : w.locals.sendFailed = false)
    (hok : ∀ e ∈ (w.writeable i' s' env).1.trace, e.inOrder s = true) :
    (w.writeable i' s' env).1.Fifo s := by
  intro i huse
  have hsame := writeable_same w i' s' env
  have hlocals := writeable_locals w i' s' env
  have huse' : w.InUse i s := by
    unfold InUse at huse ⊢
    rwa [hsame.sockfd, hlocals] at huse
  obtain ⟨hinv, heq⟩ := hfifo i huse'
  have heq := heq fun hlost => absurd hlost.2 (by simp [hgood])
  rw [sends_writeable, hsame.pending, writeable_sockets]
  by_cases hs : s' = s
  · subst hs
    have hi : i' = i := (hw.handlerLive i' s' hhandler).2.2.1.symm.trans (hw.inUse huse').2.2.1
    subst hi
    obtain ⟨hinv', heq', -⟩ := hfifo.flush hhandler hgood hok
    rw [Function.update_self]
    refine ⟨hinv', fun hlost => heq' fun hfailed => hlost ?_⟩
    unfold Lost
    rw [hlocals]
    exact ⟨hhandler, by rw [hfailed]; rfl⟩
  · rw [wire_writeable, if_neg hs, List.append_nil]
    by_cases hi : i = i'
    · -- the event of an earlier connection finds nothing to flush
      subst hi
      have hcur : (w.sockets i).sockfd = some s := by
        rcases huse' with hcur | hno
        · exact hcur
        · rw [hhandler] at hno
          cases hno
          exact absurd rfl hs
      have hflushed := hother i s' hhandler hcur hs
      have hflushed' := writeable_flushed s' env hflushed
      rw [← writeable_sockets]
      refine ⟨hflushed'.inv, fun _ => ?_⟩
      rw [hflushed'.unsent, ← heq, hflushed.unsent]
    · rw [Function.update_of_ne hi]
      exact ⟨hinv, fun _ => heq⟩

theorem Fifo.clear (hfifo : w.Fifo s) (i' : SockId) : (w.clearSockfd i').Fifo s := by
  intro i huse
  have huse' : w.InUse i s := by
    refine huse.imp_left fun hcur => ?_
    by_cases hi : i = i'
    · subst hi
      simp [clearSockfd, setSocket] at hcur
    · simpa [clearSockfd, setSocket, hi] using hcur
  have hqueue : ((w.clearSockfd i').sockets i).queue = (w.sockets i).queue :=
    update_keeps Socket.queue (by rfl) i
  rw [hqueue]
  exact hfifo i huse'

theorem Fifo.put (hfifo : w.Fifo s) (hw : w.WF) (hunused : w.Unused s) {i' : SockId} {s' : SfdId}
    (hnew : (w.sfds s').installed = false)
    (hok : ∀ e ∈ (w.putSockfd i' s').trace, e.inOrder s = true) : (w.putSockfd i' s').Fifo s := by
  intro i huse
  have hsends : sends s (w.putSockfd i' s').trace = sends s w.trace := sends_log s rfl
  have hwire : wire s (w.putSockfd i' s').trace = wire s w.trace := wire_log s rfl
  have hpending : (w.putSockfd i' s').pending s = w.pending s := rfl
  rw [hsends, hwire, hpending, putSockfd_queue]
  by_cases hold : w.InUse i s
  · exact hfifo i hold
  · have hcur : i = i' ∧ s' = s := by
      rcases huse with hcur | hhandler
      · by_cases hi : i = i'
        · subst hi
          exact ⟨rfl, by simpa [putSockfd, log, setSfd, setSocket] using hcur⟩
        · exact absurd (Or.inl (by simpa [putSockfd, log, setSfd, setSocket, hi] using hcur)) hold
      · exact absurd (Or.inr hhandler) hold
    obtain ⟨rfl, rfl⟩ := hcur
    have hidle := hok _ (List.mem_append_right _ (List.mem_singleton_self _))
    have hflushed : w.Flushed i := flushed_of_idle (by simpa [Event.inOrder] using hidle)
    obtain ⟨hnosends, hnowire⟩ := hunused (by rw [hnew]; simp)
    refine ⟨hflushed.inv, fun _ => ?_⟩
    rw [hnosends, hnowire, hw.pending_of_unused hnew, hflushed.unsent]
    rfl

theorem micro_fifo (h : Micro d w w') (hw : w.WF) (hok : ∀ e ∈ w'.trace, e.inOrder s = true)
    (hunused : w.Unused s) (hother : w.OtherHandler s) (hfifo : w.Fifo s) : w'.Fifo s := by
  cases micro_sendStep h hw with
  | same hsame => exact hfifo.same hw hsame
  | send i' s' buf hcur => exact hfifo.send hok
  | run i' s' buf rest hswap hlocals hcur hne => exact hfifo.run hw hswap hlocals hcur hne
  | drop i' s' buf rest hswap hgone howner => exact hfifo.drop hw hswap hgone howner
  | write i' s' env hhandler hcur hgood => exact hfifo.write hw hother hhandler hgood hok
  | clear i' => exact hfifo.clear i'
  | put i' s' hnew => exact hfifo.put hw hunused hnew hok
  | lock i' s' hlocals hcur' =>
      intro i huse
      have hcur : (w.sockets i).sockfd = some s := by
        rcases huse with hcur | hhandler
        · exact hcur
        · cases hhandler
          exact hcur'
      obtain ⟨hinv, heq⟩ := hfifo i (.inl hcur)
      exact ⟨hinv, fun _ => heq fun hlost => absurd hlost.1 (by simp [hlocals])⟩
  | unlock hfailed =>
      intro i huse
      have hcur : (w.sockets i).sockfd = some s := by
        rcases huse with hcur | hhandler
        · exact hcur
        · cases hhandler
      obtain ⟨hinv, heq⟩ := hfifo i (.inl hcur)
      refine ⟨hinv, fun _ => heq fun hlost => ?_⟩
      have hnone := hfailed hlost.2 i s hlost.1
      rw [hcur] at hnone
      cases hnone

theorem micro_wirePrefix (h : Micro d w w') (hw : w.WF)
    (hok : ∀ e ∈ w'.trace, e.inOrder s = true) (hfifo : w.Fifo s) (hpre : w.WirePrefix s) :
    w'.WirePrefix s := by
  unfold WirePrefix at hpre ⊢
  cases micro_sendStep h hw with
  | same hsame =>
      rw [hsame.wire, hsame.sends]
      exact hpre
  | send i' s' buf hcur =>
      rw [wire_postAppend, sends_postAppend]
      exact hpre.trans (List.prefix_append _ _)
  | run i' s' buf rest hswap hlocals hcur hne =>
      rw [runAppend_trace]
      exact hpre
  | drop i' s' buf rest hswap hgone howner => exact hpre
  | write i' s' env hhandler hcur hgood =>
      rw [sends_writeable]
      by_cases hs : s' = s
      · subst hs
        exact (hfifo.flush hhandler hgood hok).2.2
      · rw [wire_writeable, if_neg hs, List.append_nil]
        exact hpre
  | clear i' => exact hpre
  | put i' s' hnew =>
      have hsends : sends s (w.putSockfd i' s').trace = sends s w.trace := sends_log s rfl
      have hwire : wire s (w.putSockfd i' s').trace = wire s w.trace := wire_log s rfl
      rw [hsends, hwire]
      exact hpre
  | lock i' s' hlocals hcur' => exact hpre
  | unlock hfailed => exact hpre

theorem micro_unused (h : Micro d w w') (hw : w.WF) (hunused : w.Unused s) : w'.Unused s := by
  intro hnot
  have hnot' : ¬ (w.Made s ∧ (w.sfds s).installed) := fun hold =>
    hnot ⟨micro_made h hold.1, (micro_sameMade h hold.1).installed hold.2⟩
  have hold := hunused hnot'
  cases micro_sendStep h hw with
  | same hsame =>
      rw [hsame.sends, hsame.wire]
      exact hold
  | send i' s' buf hcur =>
      have hlive := hw.current i' s' hcur
      have hs : s' ≠ s := by
        rintro rfl
        exact hnot' ⟨hw.made hlive.1, hlive.2.2⟩
      rw [sends_postAppend, wire_postAppend, if_neg hs, List.append_nil]
      exact hold
  | run i' s' buf rest hswap hlocals hcur hne =>
      rw [runAppend_trace]
      exact hold
  | drop i' s' buf rest hswap hgone howner => exact hold
  | write i' s' env hhandler hcur hgood =>
      have hlive := hw.inUse (.inr hhandler)
      have hs : s' ≠ s := by
        rintro rfl
        exact hnot' ⟨hw.made hlive.2.1, hlive.2.2.2⟩
      rw [sends_writeable, wire_writeable, if_neg hs, List.append_nil]
      exact hold
  | clear i' => exact hold
  | put i' s' hnew => exact ⟨(sends_log s rfl).trans hold.1, (wire_log s rfl).trans hold.2⟩
  | lock i' s' hlocals hcur' => exact hold
  | unlock hfailed => exact hold

theorem micro_otherHandler (h : Micro d w w') (hw : w.WF)
    (hok : ∀ e ∈ w'.trace, e.inOrder s = true) (hother : w.OtherHandler s) :
    w'.OtherHandler s := by
  intro i s₁ hhandler hcur hne
  cases micro_sendStep h hw with
  | same hsame =>
      rw [hsame.handler] at hhandler
      rw [hsame.sockfd] at hcur
      unfold Flushed
      rw [hsame.queue i (hw.inUse (.inl hcur)).1]
      exact hother i s₁ hhandler hcur hne
  | send i' s' buf hcur' => exact hother i s₁ hhandler hcur hne
  | run i' s' buf rest hswap hlocals hcur' hdata =>
      rw [runAppend_locals] at hhandler
      exact absurd hhandler (by simp [pop, hlocals])
  | drop i' s' buf rest hswap hgone howner => exact hother i s₁ hhandler hcur hne
  | write i' s' env hhandler' hcur' hgood =>
      rw [writeable_locals] at hhandler
      rw [(writeable_same w i' s' env).sockfd] at hcur
      have heq := hhandler'.symm.trans hhandler
      cases heq
      exact writeable_flushed s₁ env (hother i s₁ hhandler hcur hne)
  | clear i' =>
      by_cases hi : i = i'
      · subst hi
        simp [clearSockfd, setSocket] at hcur
      · unfold Flushed
        simp only [clearSockfd, setSocket, Function.update_of_ne hi] at hcur ⊢
        exact hother i s₁ hhandler hcur hne
  | put i' s' hnew =>
      unfold Flushed
      rw [putSockfd_queue]
      by_cases hi : i = i'
      · subst hi
        obtain rfl : s' = s := by simpa [putSockfd, log, setSfd, setSocket] using hcur
        have hidle := hok _ (List.mem_append_right _ (List.mem_singleton_self _))
        exact flushed_of_idle (by simpa [Event.inOrder] using hidle)
      · exact hother i s₁ hhandler (by simpa [putSockfd, log, setSfd, setSocket, hi] using hcur) hne
  | lock i' s' hlocals hcur' =>
      cases hhandler
      exact absurd (Option.some.inj (hcur'.symm.trans hcur)) hne
  | unlock hfailed => cases hhandler

/-! ## The first connection of a socket -/

/-- Until it has had a connection, a socket has nothing queued. -/
def Fresh (w : World) : Prop :=
  ∀ i, (∀ s idle, .install i s idle ∉ w.trace) → w.Flushed i ∧ (w.sockets i).sockfd = none

/-- The first `sockfd_` of a socket finds its queues empty. -/
def FirstIdle (t : List Event) : Event → Prop
  | .install i _ idle => (∀ s' idle', .install i s' idle' ∉ t) → idle = true
  | _ => True

theorem micro_fresh (h : Micro d w w') (hw : w.WF) (hfresh : w.Fresh) : w'.Fresh := by
  intro i hno
  obtain ⟨hflushed, hnone⟩ := hfresh i fun s idle he => hno s idle (micro_trace_mono h he)
  constructor
  · rcases micro_queue h i with heq | ⟨heq, -⟩ | ⟨s, buf, rest, hswap, hlocals, -, hs, -⟩ |
        ⟨s, env, -, hcur, -⟩
    · unfold Flushed
      rwa [heq]
    · unfold Flushed
      rw [heq]
      exact ⟨rfl, rfl⟩
    · have hcur := hw.append_current hlocals hswap hs
      rw [hnone] at hcur
      cases hcur
    · exact absurd hnone hcur
  · rcases micro_sockfd h hw i with heq | ⟨hnone', -⟩ | ⟨s, -, -, -, -, -, rfl⟩
    · rw [heq]
      exact hnone
    · exact hnone'
    · exact absurd (List.mem_append_right _ (List.mem_singleton_self _)) (hno s _)

theorem micro_firstIdle (h : Micro d w w') (hfresh : w.Fresh) (hok : EachOk FirstIdle w.trace) :
    EachOk FirstIdle w'.trace := by
  refine micro_eachOk (fun t e he => ?_) h (fun e he => ?_) hok
  · cases e
    case install => cases he
    all_goals trivial
  · cases e
    case install i s idle =>
      intro hno
      obtain ⟨hsending, hwaiting⟩ := (hfresh i hno).1
      rw [he.2.1, hsending, hwaiting]
      rfl
    all_goals trivial

/-! ## Runs -/

variable {C : World → Action → Prop} {acts : List Action}

/-- `Send` on `s` is called with no task of an earlier `Send` on `s` in `task_list_`,
`on_writeable` never starts with 2 GiB or more waiting, and `s` became `sockfd_` with
empty queues, as the first connection of a socket always does. -/
structure Orderly (s : SfdId) (t : List Event) : Prop where
  drained : ∀ i data drained, .send i s data drained ∈ t → drained = true
  small : ∀ i waiting, .writeable i s waiting ∈ t → waiting < 2 ^ 31
  start : ∀ u v i idle, t = u ++ .install i s idle :: v →
    idle = true ∨ ∀ s' idle', .install i s' idle' ∉ u

theorem Orderly.inOrder {t : List Event} (h : Orderly s t) (hfirst : EachOk FirstIdle t) :
    ∀ e ∈ t, e.inOrder s = true := by
  intro e he
  cases e
  case send i s' data drained =>
    by_cases hs : s' = s
    · subst hs
      simp [Event.inOrder, h.drained i data drained he]
    · simp [Event.inOrder, hs]
  case writeable i s' waiting =>
    by_cases hs : s' = s
    · subst hs
      simpa [Event.inOrder] using h.small i waiting he
    · simp [Event.inOrder, hs]
  case install i s' idle =>
    by_cases hs : s' = s
    · subst hs
      obtain ⟨u, v, heq⟩ := List.append_of_mem he
      rcases h.start u v i idle heq with hidle | hno
      · simp [Event.inOrder, hidle]
      · simp [Event.inOrder, hfirst u _ v heq hno]
    · simp [Event.inOrder, hs]
  all_goals rfl

/-- The invariant of the bytes sent on `s`. -/
def OrderInv (s : SfdId) (w : World) : Prop :=
  w.Fifo s ∧ w.WirePrefix s ∧ w.Unused s ∧ w.OtherHandler s

theorem micro_orderInv (h : Micro d w w') (hw : w.WF)
    (hinv : (∀ e ∈ w.trace, e.inOrder s = true) → OrderInv s w)
    (hok : ∀ e ∈ w'.trace, e.inOrder s = true) : OrderInv s w' := by
  obtain ⟨hfifo, hpre, hunused, hother⟩ := hinv fun e he => hok e (micro_trace_mono h he)
  exact ⟨micro_fifo h hw hok hunused hother hfifo, micro_wirePrefix h hw hok hfifo hpre,
    micro_unused h hw hunused, micro_otherHandler h hw hok hother⟩

theorem init_orderInv : OrderInv s {} := by
  refine ⟨fun i huse => ?_, List.nil_prefix, fun _ => ⟨rfl, rfl⟩, fun i s' hhandler => ?_⟩
  · rcases huse with huse | huse <;> cases huse
  · cases hhandler

theorem run_firstIdle (hrun : Run step C {} acts w) : EachOk FirstIdle w.trace := by
  have hinv : w.Fresh ∧ EachOk FirstIdle w.trace :=
    run_invariant (P := fun w => w.Fresh ∧ EachOk FirstIdle w.trace)
      ⟨fun i _ => ⟨⟨rfl, rfl⟩, rfl⟩, EachOk.nil⟩
      (fun _ _ h hw hinv => ⟨micro_fresh h hw hinv.1, micro_firstIdle h hinv.1 hinv.2⟩) hrun
  exact hinv.2

/-- The bytes that `sendmsg` has accepted on the descriptor of `s` are, in order, a prefix
of the payloads of the calls of `Send` on `s`. -/
theorem sent_in_order (hrun : Run step C {} acts w) (horderly : Orderly s w.trace) :
    wire s w.trace <+: sends s w.trace := by
  have hinv : (∀ e ∈ w.trace, e.inOrder s = true) → OrderInv s w :=
    run_invariant (P := fun w => (∀ e ∈ w.trace, e.inOrder s = true) → OrderInv s w)
      (fun _ => init_orderInv) (fun _ _ => micro_orderInv) hrun
  exact (hinv (horderly.inOrder (run_firstIdle hrun))).2.1

theorem Orderly.of_inOrder {t : List Event} (h : ∀ e ∈ t, e.inOrder s = true) : Orderly s t where
  drained := fun i data drained he => by simpa [Event.inOrder] using h _ he
  small := fun i waiting he => by simpa [Event.inOrder] using h _ he
  start := fun u v i idle heq =>
    .inl (by simpa [Event.inOrder] using h (.install i s idle) (by simp [heq]))

/-- Two sends with a drain between them; three bytes are accepted. -/
theorem sent_in_order_drained :
    ∃ w, Run step (fun _ _ => True) {}
        (connectFirst ++ [.user [.send 0 [1, 2] none], .swap, .task {}, .user [.send 0 [3, 4] none],
          .swap, .task {}, .event 5 EPOLLOUT { send := ⟨[.ok 3], 0⟩ }]) w ∧
      (wire 0 w.trace).length = 3 ∧ (sends 0 w.trace).map Byte.val = [1, 2, 3, 4] ∧
      wire 0 w.trace <+: sends 0 w.trace := by
  have h : (exec step {}
      (connectFirst ++ [.user [.send 0 [1, 2] none], .swap, .task {}, .user [.send 0 [3, 4] none],
        .swap, .task {}, .event 5 EPOLLOUT { send := ⟨[.ok 3], 0⟩ }])).map
        (fun w => ((wire 0 w.trace).length, (sends 0 w.trace).map Byte.val,
          w.trace.all (Event.inOrder 0))) = some (3, [1, 2, 3, 4], true) := by
    decide +kernel
  obtain ⟨w, hexec, hend⟩ := Option.map_eq_some_iff.1 h
  obtain ⟨hlen, hrest⟩ := Prod.mk.inj hend
  obtain ⟨hsends, hok⟩ := Prod.mk.inj hrest
  exact ⟨w, Run.of_exec hexec, hlen, hsends,
    sent_in_order (Run.of_exec hexec) (.of_inOrder (List.all_eq_true.1 hok))⟩

/-- Two sends without a drain between them go out in the opposite order. -/
theorem not_sent_in_order_of_undrained :
    ∃ w, Run step (fun _ _ => True) {}
        (connectFirst ++ [.user [.send 0 [1, 2] none, .send 0 [3, 4] none], .swap, .task {},
          .task {}, .event 5 EPOLLOUT { send := ⟨[.ok 4], 0⟩ }]) w ∧
      (∀ i s idle, .install i s idle ∈ w.trace → s = 0) ∧ (w.sfds 0).type = .tcp ∧
      (wire 0 w.trace).map Byte.val = [3, 4, 1, 2] ∧
      (sends 0 w.trace).map Byte.val = [1, 2, 3, 4] ∧ ¬ wire 0 w.trace <+: sends 0 w.trace := by
  have h : (exec step {}
      (connectFirst ++ [.user [.send 0 [1, 2] none, .send 0 [3, 4] none], .swap, .task {},
        .task {}, .event 5 EPOLLOUT { send := ⟨[.ok 4], 0⟩ }])).map
        (fun w => (w.trace.filterMap Event.installed, (w.sfds 0).type,
          (wire 0 w.trace).map Byte.val, (sends 0 w.trace).map Byte.val)) =
      some ([0], .tcp, [3, 4, 1, 2], [1, 2, 3, 4]) := by
    decide +kernel
  obtain ⟨w, hexec, hend⟩ := Option.map_eq_some_iff.1 h
  obtain ⟨hinst, hrest⟩ := Prod.mk.inj hend
  obtain ⟨htype, hbytes⟩ := Prod.mk.inj hrest
  obtain ⟨hwire, hsends⟩ := Prod.mk.inj hbytes
  refine ⟨w, Run.of_exec hexec, fun i s idle he => ?_, htype, hwire, hsends, fun hpre => ?_⟩
  · have hin : s ∈ w.trace.filterMap Event.installed := List.mem_filterMap.2 ⟨_, he, rfl⟩
    rw [hinst] at hin
    exact List.mem_singleton.1 hin
  · have hmap := hpre.map Byte.val
    rw [hwire, hsends] at hmap
    exact absurd hmap (by decide)

end World

end CommonLibrary.Net
