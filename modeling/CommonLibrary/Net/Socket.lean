import CommonLibrary.Net.World

/-!
# `Socket`

The functions of `Socket` and the steps of the poller thread.  What the kernel answers
and what the user's callbacks do is given to each step from outside: a callback that is
not set, or has been replaced by a default one, is a callback that does nothing.  The
flag next to a resulting `World` tells whether an exception left the function.
-/

namespace CommonLibrary.Net

open Poller Utils

inductive UserOp where
  | create
  | close (i : SockId)
  | connect (i : SockId) (timeoutMs now : Nat)
  | listen (i : SockId) (type : SockType) (fd : Option Fd) (ctlOk : Bool)
  | send (i : SockId) (data : List UInt8) (addr : Option SockAddr)
  /-- the user gives up a reference -/
  | drop (i : SockId)
  | async (first : Bool)
  | shutdown

/-- One call of a user's callback. -/
structure CbRun where
  ops : List UserOp := []
  throws : Bool := false

/-- The outcome of one call of `recvfrom`, with what `read_cb_` does with the data and
what `SO_ERROR` is after an error. -/
inductive RecvItem where
  | err (e : Errno) (soError : Errno)
  | data (bytes : List UInt8) (cb : CbRun)

inductive ReadEnd where
  /-- `recvfrom` said `EAGAIN` -/
  | drained
  /-- it returned 0 on a UDP socket -/
  | empty
  /-- it returned 0 on a TCP socket -/
  | eof
  /-- another error -/
  | failed
  /-- `read_cb_` threw -/
  | threw
  deriving DecidableEq

structure ReadResult where
  world : World
  /-- what `recvfrom` has not been asked for -/
  rest : List RecvItem
  /-- what was given to `read_cb_` -/
  delivered : List (List UInt8)
  how : ReadEnd

/-- The outcome of one call of `accept`, with what `accept_cb_` does with the new socket
and whether the kernel lets it be attached. -/
inductive AcceptItem where
  | err (e : Errno) (soError : Errno)
  | conn (fd : Fd) (cb : CbRun) (ctlOk : Bool)

/-- What the kernel and the user's callbacks do while one event is handled. -/
structure Script where
  reads : List RecvItem := []
  accepts : List AcceptItem := []
  send : SendEnv := {}
  /-- the run of the connect callback or of `flushed_cb_` -/
  cb : CbRun := {}
  soError : Errno := 0
  errno : Errno := 0
  ctlOk : Bool := true

/-- What the kernel and the user's callbacks do while one task runs. -/
structure TaskScript where
  /-- the descriptor that `SocketUtils::Connect` returns -/
  fd : Option Fd := none
  ctlOk : Bool := true
  cb : CbRun := {}

inductive Action where
  /-- user code that runs outside the callbacks of the sockets -/
  | user (ops : List UserOp)
  /-- `on_pipe_event` swaps `task_list_` out -/
  | swap
  | task (script : TaskScript)
  | timer (k now : Nat) (cb : CbRun)
  | event (fd : Fd) (epollEvents : Nat) (script : Script)

namespace World

/-! ## Registration -/

def attachEvent (w : World) (i : SockId) (s : SfdId) (udp ctlOk : Bool) : World × Bool :=
  let add := (w.allocReadBuf i udp).register s (.attached i s udp)
    (PE_READ ||| PE_WRITE ||| PE_ERROR) ctlOk
  if add.2 then (add.1.markAttached s, true) else (add.1, false)

/-- The private `listen`. -/
def listenOn (w : World) (i : SockId) (s : SfdId) (ctlOk : Bool) : World × Bool :=
  match (w.sfds s).type with
  | .tcp =>
      let add := w.register s (.accepting i s) (PE_LT ||| PE_READ ||| PE_ERROR) ctlOk
      if add.2 then (add.1.assignSockfd i s, true) else (add.1, false)
  -- the result of `attach_event` is not looked at
  | .udp => ((w.attachEvent i s true ctlOk).1.assignSockfd i s, true)

/-- `Listen`; `fd` is what `SocketUtils::Listen` returns. -/
def listen (w : World) (i : SockId) (type : SockType) (fd : Option Fd) (ctlOk : Bool) :
    World × Bool :=
  let res := (w.close i).openFd fd
  match res.2 with
  | none => (res.1, false)
  | some s =>
      let r := (res.1.makeSfd s type i none).listenOn i s ctlOk
      (r.1.dropSfd, r.2)

/-- `SetPeerSocket`; the reference it returns is left in the local variables. -/
def setPeerSocket (w : World) (j : SockId) (p : SfdId) : World :=
  ((w.close j).makeSfd p .tcp j none).assignSockfd j p

/-! ## Calls of the user -/

def connect (w : World) (i : SockId) (timeoutMs now : Nat) : World :=
  (w.close i).startConnect i timeoutMs now

/-- `Send`, and what it returns. -/
def send (w : World) (i : SockId) (data : List UInt8) (addr : Option SockAddr) : World × Int :=
  if data = [] then (w, 0)
  else
    match (w.sockets i).sockfd with
    | none => (w, -1)
    | some s =>
        let bytes : List Byte := data.map fun b => ⟨b, s⟩
        let buf : Buffer Byte :=
          match (w.sfds s).type with
          | .udp => .sock bytes addr
          | .tcp => .raw bytes
        (w.postAppend i s buf, 0)

def drop (w : World) (i : SockId) : World := ((w.holdSock i).dropUserRef i).dropSock

/-- A call of the user, who cannot call an object that is gone. -/
def execOp (w : World) : UserOp → World
  | .create => w.create
  | .close i => if (w.sockets i).alive then w.close i else w
  | .connect i timeoutMs now => if (w.sockets i).alive then w.connect i timeoutMs now else w
  | .listen i type fd ctlOk =>
      if (w.sockets i).alive then (w.listen i type fd ctlOk).1 else w
  | .send i data addr => if (w.sockets i).alive then (w.send i data addr).1 else w
  | .drop i => if (w.sockets i).alive then w.drop i else w
  | .async first => w.post .user first
  | .shutdown => w.post .exit true

def execOps (w : World) (ops : List UserOp) : World := ops.foldl execOp w

/-! ## Connect -/

def connectCb (w : World) (i : SockId) (a : ConnId) (err : SockErrCode) (cb : CbRun) :
    World × Bool :=
  if (w.sockets i).alive then
    let w := ((w.holdSock i).enterReport i a).dropConnect i
    let w := if err = .success then w else w.resetSockfd i
    (((w.logReport i a err).execOps cb.ops).dropSock, cb.throws)
  else (w, false)

def asyncConnectCb (w : World) (i : SockId) (a : ConnId) (fd : Option SfdId) (ctlOk : Bool)
    (cb : CbRun) : World × Bool :=
  if (w.sockets i).alive then
    let w := w.holdSock i
    match fd with
    | none =>
        let r := w.connectCb i a .unreachable cb
        (r.1.dropSock, r.2)
    | some s =>
        let w := (w.makeSfd s .tcp i (some a)).assignSockfd i s
        let add := w.register s (.connecting i a s) PE_WRITE ctlOk
        let r := if add.2 then (add.1, false) else add.1.connectCb i a .other cb
        (r.1.dropSfd.dropSock, r.2)
  else
    match fd with
    | none => (w, false)
    | some s => (w.closeLoose s, false)

/-- The task that `Connect` leaves for the outcome of `SocketUtils::Connect`:
`async_connect_cb_` is the only owner of the function it calls. -/
def runConnected (w : World) (i : SockId) (a : ConnId) (fd : Option SfdId) (ctlOk : Bool)
    (cb : CbRun) : World :=
  if (w.sockets i).asyncConnectCb = some a then (w.asyncConnectCb i a fd ctlOk cb).1
  else
    match fd with
    | none => w
    | some s => w.closeLoose s

def onConnected (w : World) (i : SockId) (a : ConnId) (s : SfdId) (err : SockErrCode)
    (ctlOk : Bool) (cb : CbRun) : World × Bool :=
  if err = .success then
    let w := ((w.enterReport i a).setConnected s).unregister s
    let add := w.attachEvent i s false ctlOk
    if add.2 then add.1.connectCb i a .success cb else add.1.connectCb i a .other cb
  else w.connectCb i a err cb

/-! ## Errors -/

/-- `emit_error`, for an error on `s`. -/
def emitError (w : World) (i : SockId) (s : SfdId) (err : SockErrCode) : World :=
  match (w.sockets i).sockfd with
  | none => w
  | some cur => ((w.log (.raised i s cur err)).close i).post (.error i err) false

/-! ## Reading -/

/-- `on_read`.  Behind the listed answers `recvfrom` says `EAGAIN`. -/
def onRead (i : SockId) (s : SfdId) (udp : Bool) (capacity : Nat) :
    World → List RecvItem → ReadResult
  | w, [] => ⟨w, [], [], .drained⟩
  | w, .err e soError :: rest =>
      if uvTranslatePosixError e = EINTR then onRead i s udp capacity w rest
      else if uvTranslatePosixError e = EAGAIN then ⟨w, rest, [], .drained⟩
      else ⟨w.emitError i s (getSocketError soError e), rest, [], .failed⟩
  | w, .data bytes cb :: rest =>
      let data := bytes.take capacity
      if data = [] then
        if udp then ⟨w, rest, [], .empty⟩ else ⟨w.emitError i s .eof, rest, [], .eof⟩
      else
        let w := (w.log (.read i s data)).execOps cb.ops
        if cb.throws then ⟨w, rest, [data], .threw⟩
        else
          let r := onRead i s udp capacity w rest
          { r with delivered := data :: r.delivered }

def readCapacity (w : World) (i : SockId) : Nat := (w.sockets i).readBuf.getD 0 - 1

/-! ## Writing -/

def onWriteable (w : World) (i : SockId) (s : SfdId) (env : SendEnv) (soError : Errno)
    (cb : CbRun) : World × Bool :=
  let r := w.writeable i s env
  match r.2.how with
  | .flushed => ((r.1.log (.flushed i)).execOps cb.ops, cb.throws)
  | .failed => (r.1.emitError i s (getSocketError soError r.2.env.errno), false)
  | _ => (r.1, false)

/-! ## Accepting -/

/-- The body of the loop of `on_accept` for a connection `p`. -/
def acceptPeer (w : World) (i : SockId) (s p : SfdId) (cb : CbRun) (ctlOk : Bool) :
    World × Bool :=
  let j := w.nextSock
  let w := ((w.create.holdSock j).setPeerSocket j p).setConnected p
  let w := (w.log (.accept i s j)).execOps cb.ops
  if cb.throws then ((w.logAcceptThrew p).dropSfd.dropSock, true)
  else
    let add := w.attachEvent j p false ctlOk
    let w := if add.2 then add.1 else add.1.emitError j p .other
    (w.dropSfd.dropSock, false)

/-- The loop of `on_accept` for an event with `PE_READ`. -/
def acceptLoop (i : SockId) (s : SfdId) (isError : Bool) (err : SockErrCode) :
    World → List AcceptItem → World × Bool
  | w, [] => (w, false)
  | w, .err e soError :: rest =>
      if uvTranslatePosixError e = EINTR then acceptLoop i s isError err w rest
      else if uvTranslatePosixError e = EAGAIN then (w, false)
      else (w.emitError i s (getSocketError soError e), false)
  | w, .conn fd cb ctlOk :: rest =>
      let res := w.openFd (some fd)
      match res.2 with
      | none => (w, false)
      | some p =>
          let r := res.1.acceptPeer i s p cb ctlOk
          if r.2 then r
          else if isError then (r.1.emitError i s err, false)
          else acceptLoop i s isError err r.1 rest

/-- `on_accept`; `none`: the loop neither accepts nor ends. -/
def onAccept (w : World) (i : SockId) (s : SfdId) (event : Nat) (err : SockErrCode)
    (items : List AcceptItem) : Option (World × Bool) :=
  if has event PE_READ then some (acceptLoop i s (has event PE_ERROR) err w items)
  else if has event PE_ERROR then some (w.emitError i s err, false)
  else none

/-! ## Events -/

/-- The function that `attach_event` registers. -/
def attachedEvent (w : World) (i : SockId) (s : SfdId) (udp : Bool) (event : Nat)
    (script : Script) : World × Bool :=
  let r :=
    if has event PE_READ then onRead i s udp (w.readCapacity i) w script.reads
    else ⟨w, script.reads, [], .drained⟩
  if r.how = .threw then (r.world, true)
  else
    let r :=
      if (r.world.sockets i).sockfd.isSome && has event PE_WRITE then
        r.world.onWriteable i s script.send script.soError script.cb
      else (r.world, false)
    if r.2 then r
    else if (r.1.sockets i).sockfd.isSome && has event PE_ERROR then
      (r.1.emitError i s (getSocketError script.soError script.errno), false)
    else r

def handle (w : World) (cb : PollEventCB) (event : Nat) (script : Script) : Option World :=
  match cb with
  | .connecting i a s =>
      some (w.onConnected i a s (getSocketError script.soError script.errno) script.ctlOk
        script.cb).1
  | .attached i s udp => some (w.attachedEvent i s udp event script).1
  | .accepting i s =>
      (w.onAccept i s event (getSocketError script.soError script.errno)
        script.accepts).map Prod.fst

/-- `RunLoop` handles one event; an exception ends there. -/
def dispatch (w : World) (fd : Fd) (epollEvents : Nat) (script : Script) : Option World :=
  match w.poller.eventMap fd with
  | none => some { w with poller := w.poller.dropInterest fd }
  | some cb =>
      if (w.sockets cb.sock).alive ∧ (w.sfds cb.sfd).alive then
        ((w.lock cb.sock cb.sfd).handle cb (toPoller epollEvents) script).map fun w =>
          w.unlock.dropSfd.dropSock
      else some w

/-! ## Tasks and timers -/

/-- Both pointers of the task of `send` are locked, or it does nothing. -/
def runSend (w : World) (i : SockId) (s : SfdId) (buf : Buffer Byte) : World :=
  if (w.sockets i).alive ∧ (w.sfds s).alive then w.runAppend i s buf else w

def runConnect (w : World) (i : SockId) (a : ConnId) (fd : Option Fd) : World :=
  let res := w.openFd fd
  match res.2 with
  | none => res.1.post (.connected i a none) false
  | some s =>
      { res.1 with locals := { res.1.locals with fds := res.1.locals.fds.erase s } }.post
        (.connected i a (some s)) false

def runError (w : World) (i : SockId) (err : SockErrCode) (cb : CbRun) : World :=
  if (w.sockets i).alive then
    (((w.holdSock i).log (.error i err)).execOps cb.ops).dropSock
  else w

/-- `on_pipe_event` runs the next task of `swap_list`. -/
def runTask (w : World) (t : SocketTask) (script : TaskScript) : World :=
  match t with
  | .connect i a => w.runConnect i a script.fd
  | .connected i a fd =>
      { w with locals := { w.locals with fds := fd.toList ++ w.locals.fds } }.runConnected
        i a fd script.ctlOk script.cb
  | .append i s buf => w.runSend i s buf
  | .error i err => w.runError i err script.cb
  | .insertDelay timeline a => w.setDelayTasks (emplace timeline a w.poller.delayTasks)
  | .user => w.execOps script.cb.ops
  | .exit => w.setExit

/-- `flush_delay_tasks` runs the connect timer `a`, which it has taken out: `connect_cb`,
and once more after the timeout if that throws. -/
def runTimer (w : World) (a : ConnId) (now : Nat) (cb : CbRun) : World :=
  if (w.conns a).cancelled then w
  else
    let r := w.connectCb (w.conns a).owner a .timeout cb
    if r.2 && (w.conns a).timeoutMs > 0 then
      r.1.setDelayTasks
        (emplace (((w.conns a).timeoutMs + now) % 2 ^ 64) a r.1.poller.delayTasks)
    else r.1

/-- One step of the poller thread; `none`: it is not possible, or never ends. -/
def step (w : World) : Action → Option World
  | .user ops => some (w.execOps ops)
  | .swap =>
      match w.swapList with
      | [] => some { w with
          swapList := w.poller.taskList
          poller := { w.poller with taskList := [] } }
      | _ :: _ => none
  | .task script =>
      match w.swapList with
      | [] => none
      | t :: tasks => some ((w.pop tasks).runTask t script)
  | .timer k now cb =>
      match w.swapList, w.poller.delayTasks[k]? with
      | [], some e =>
          if e.1 ≤ now then
            some ((w.setDelayTasks (w.poller.delayTasks.eraseIdx k)).runTimer e.2 now cb)
          else none
      | _, _ => none
  | .event fd epollEvents script =>
      match w.swapList with
      | [] => w.dispatch fd epollEvents script
      | _ :: _ => none

end World

end CommonLibrary.Net
