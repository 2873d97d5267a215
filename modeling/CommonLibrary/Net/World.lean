import CommonLibrary.Net.SendQueue
import CommonLibrary.Poller.EventPoller

/-!
# Sockets, descriptors and the poller

One poller, the sockets that use it, and the kernel's open descriptors.  Everything
runs on the poller thread, so the state between two atomic pieces of code is a `World`.

A `shared_ptr` that is a local variable of a running function is listed in `Locals`;
the others are fields of the sockets.  An object is destroyed when the last of them
goes.  Fields and events that the program does not have, and that only say what has
happened, are marked as history.
-/

namespace CommonLibrary.Net

open Poller Utils

abbrev SockId := Nat

/-- A descriptor from the time the kernel opens it, and the `SocketFD` made for it.
Descriptor numbers are reused, these are not. -/
abbrev SfdId := Nat

/-- A call of `Socket::Connect`. -/
abbrev ConnId := Nat

inductive SockType where
  | udp | tcp
  deriving DecidableEq

inductive SockErrCode where
  | success | eof | timeout | refused | unreachable | shutdown | other
  deriving DecidableEq

/-- `get_socket_error`, with what `getsockopt` reports and the thread's `errno`. -/
def getSocketError (soError errno : Errno) : SockErrCode :=
  let error :=
    if soError = 0 then uvTranslatePosixError errno else uvTranslatePosixError soError
  if error = 0 ∨ error = EAGAIN then .success
  else if error = ETIMEDOUT then .timeout
  else if error = ECONNREFUSED then .refused
  else .other

/-- A byte given to `Send`.  History: what `sockfd_` was at that call. -/
structure Byte where
  val : UInt8
  origin : SfdId
  deriving DecidableEq

structure SocketFD where
  fd : Fd := 0
  type : SockType := .tcp
  connected : Bool := false
  /-- made, and not destroyed yet -/
  alive : Bool := false
  /-- history: the socket and the call of `Connect` it was made for -/
  owner : SockId := 0
  attempt : Option ConnId := none
  /-- history: it has been `sockfd_`; `attach_event` has registered it -/
  installed : Bool := false
  attached : Bool := false

structure Socket where
  alive : Bool := false
  /-- the user holds a reference -/
  userRef : Bool := false
  connectTimer : Option ConnId := none
  asyncConnectCb : Option ConnId := none
  sockfd : Option SfdId := none
  /-- the capacity of `read_buf_` -/
  readBuf : Option Nat := none
  queue : SendQueue Byte := {}

/-- A connect timer: its delay task and whether that has been cancelled. -/
structure Conn where
  owner : SockId := 0
  timeoutMs : Nat := 0
  cancelled : Bool := true

/-- The functions `AddEvent` is given. -/
inductive PollEventCB where
  /-- by `Connect`: `on_connected` -/
  | connecting (i : SockId) (a : ConnId) (s : SfdId)
  /-- by `attach_event`: `on_read`, `on_writeable`, `on_error` -/
  | attached (i : SockId) (s : SfdId) (udp : Bool)
  /-- by `listen`: `on_accept` -/
  | accepting (i : SockId) (s : SfdId)
  deriving DecidableEq

namespace PollEventCB

def sock : PollEventCB → SockId
  | connecting i _ _ => i
  | attached i _ _ => i
  | accepting i _ => i

def sfd : PollEventCB → SfdId
  | connecting _ _ s => s
  | attached _ s _ => s
  | accepting _ s => s

def attempt : PollEventCB → Option ConnId
  | connecting _ a _ => some a
  | _ => none

end PollEventCB

inductive SocketTask where
  /-- by `Connect`: opens a descriptor and starts to connect it -/
  | connect (i : SockId) (a : ConnId)
  /-- by the task above: calls `async_connect_cb` with the descriptor, `none` for -1 -/
  | connected (i : SockId) (a : ConnId) (fd : Option SfdId)
  /-- by `send` -/
  | append (i : SockId) (s : SfdId) (buf : Buffer Byte)
  /-- by `emit_error` -/
  | error (i : SockId) (err : SockErrCode)
  /-- by `DoDelayTask`, for the timer of a `Connect` -/
  | insertDelay (timeline : Nat) (a : ConnId)
  /-- a task of the user -/
  | user
  /-- by `Shutdown` -/
  | exit

namespace SocketTask

/-- The descriptor a task is the only one to know. -/
def loose : SocketTask → Option SfdId
  | connected _ _ fd => fd
  | _ => none

/-- The bytes a task will append for `s`. -/
def appends (s : SfdId) : SocketTask → List Byte
  | append _ s' buf => if s' = s then buf.data else []
  | _ => []

end SocketTask

/-- What a callback finds when it is told the outcome of `Connect`. -/
structure Entry where
  connectTimer : Option ConnId
  asyncConnectCb : Option ConnId
  sockfd : Option SfdId
  /-- the call of `Connect` that `sockfd` was made for -/
  attempt : Option ConnId
  connected : Bool
  deriving DecidableEq

inductive Event where
  | connect (i : SockId) (a : ConnId)
  /-- `Close` has returned; it dropped `old` -/
  | close (i : SockId) (old : Option SfdId)
  | destroyed (i : SockId)
  /-- the callback of a `Connect` is called -/
  | report (i : SockId) (a : ConnId) (err : SockErrCode) (entry : Entry)
  /-- `send`; `drained`: no append of an earlier one for `s` is in `task_list_` -/
  | send (i : SockId) (s : SfdId) (data : List Byte) (drained : Bool)
  /-- `on_writeable` starts with `waiting` bytes in `send_buf_waiting_` -/
  | writeable (i : SockId) (s : SfdId) (waiting : Nat)
  | sendmsg (s : SfdId) (sent : Sent Byte)
  /-- `sockfd_` becomes `s`; `idle`: both send queues are empty -/
  | install (i : SockId) (s : SfdId) (idle : Bool)
  /-- `epoll_ctl(EPOLL_CTL_ADD)` is asked for; `ctlOk`: the kernel has no objection -/
  | addEvent (s : SfdId) (ctlOk : Bool)
  | opened (s : SfdId)
  /-- `::close` on the number of `s`, `none` if that number is not open -/
  | closed (s : Option SfdId) (shut : Bool)
  /-- `read_cb_` is called with data received on `s` -/
  | read (i : SockId) (s : SfdId) (data : List UInt8)
  /-- `accept_cb_` is called with the socket `j` of a connection accepted on `s` -/
  | accept (i : SockId) (s : SfdId) (j : SockId)
  /-- `accept_cb_` threw for the new connection `s` -/
  | acceptThrew (s : SfdId)
  /-- `emit_error` for `s` is about to close `cur` and to post `error_cb_` -/
  | raised (i : SockId) (s cur : SfdId) (err : SockErrCode)
  | flushed (i : SockId)
  | error (i : SockId) (err : SockErrCode)

/-- The local variables of the functions that are running. -/
structure Locals where
  sfds : List SfdId := []
  socks : List SockId := []
  /-- descriptors in `int` variables -/
  fds : List SfdId := []
  /-- history: a `SocketFD` made or taken out of the poller, whose `AddEvent` is to come -/
  unattached : List SfdId := []
  /-- history: the call of `Connect` whose outcome is being determined -/
  conn : Option (SockId × ConnId) := none
  /-- the pair whose event is being handled -/
  handler : Option (SockId × SfdId) := none
  /-- history: `flush_data` of this handler met a hard error -/
  sendFailed : Bool := false

structure World where
  poller : EventPoller SocketTask PollEventCB ConnId := {}
  /-- the tasks of `swap_list` that `on_pipe_event` has still to run -/
  swapList : List SocketTask := []
  sockets : SockId → Socket := fun _ => {}
  sfds : SfdId → SocketFD := fun _ => {}
  conns : ConnId → Conn := fun _ => {}
  nextSock : SockId := 0
  nextSfd : SfdId := 0
  nextConn : ConnId := 0
  /-- the kernel's table of open descriptors -/
  openFds : Fd → Option SfdId := fun _ => none
  locals : Locals := {}
  trace : List Event := []

namespace World

def log (w : World) (e : Event) : World := { w with trace := w.trace ++ [e] }

def setSocket (w : World) (i : SockId) (sk : Socket) : World :=
  { w with sockets := Function.update w.sockets i sk }

def setSfd (w : World) (s : SfdId) (f : SocketFD) : World :=
  { w with sfds := Function.update w.sfds s f }

/-- `poller_->Async(task)` and `poller_->AsyncFirst(task)`. -/
def post (w : World) (t : SocketTask) (first : Bool) : World :=
  { w with poller := w.poller.async t first }

/-! ## Descriptors -/

def opened (w : World) (fd : Fd) : World :=
  { w with
    nextSfd := w.nextSfd + 1
    sfds := Function.update w.sfds w.nextSfd { fd := fd }
    openFds := Function.update w.openFds fd (some w.nextSfd)
    locals := { w.locals with fds := w.nextSfd :: w.locals.fds }
    trace := w.trace ++ [.opened w.nextSfd] }

/-- `SocketUtils::Connect`, `SocketUtils::Listen` or `accept`: `none` stands for -1.
The kernel does not give out a number that is open. -/
def openFd (w : World) : Option Fd → World × Option SfdId
  | none => (w, none)
  | some fd =>
      if (w.openFds fd).isSome then (w, none) else (w.opened fd, some w.nextSfd)

/-- `::close(fd)`.  A number in the interest set is closed only after `DelEvent` has taken
it out, so the poller has no part in it. -/
def closeFd (w : World) (fd : Fd) (shut : Bool) : World :=
  { w with
    openFds := Function.update w.openFds fd none
    trace := w.trace ++ [.closed (w.openFds fd) shut] }

/-- `CLOSE_SOCKET` on a descriptor that no `SocketFD` was made for. -/
def closeLoose (w : World) (s : SfdId) : World :=
  { w with locals := { w.locals with fds := w.locals.fds.erase s } }.closeFd (w.sfds s).fd false

/-! ## References -/

def holdSfd (w : World) (s : SfdId) : World :=
  { w with locals := { w.locals with sfds := s :: w.locals.sfds } }

def holdSock (w : World) (i : SockId) : World :=
  { w with locals := { w.locals with socks := i :: w.locals.socks } }

/-- `make_shared<SocketFD>` for a descriptor of a local variable. -/
def makeSfd (w : World) (s : SfdId) (type : SockType) (i : SockId) (attempt : Option ConnId) :
    World :=
  { w with
    sfds := Function.update w.sfds s
      { w.sfds s with type := type, alive := true, owner := i, attempt := attempt }
    locals := { w.locals with
      sfds := s :: w.locals.sfds
      fds := w.locals.fds.erase s
      unattached := s :: w.locals.unattached } }

/-- `~SocketFD`: the descriptor is closed by the callback of `DelEvent`. -/
def destroySfd (w : World) (s : SfdId) : World :=
  let f := w.sfds s
  let del := w.poller.delEvent f.fd
  let w := { w with poller := del.1 }.setSfd s { f with alive := false }
  if del.2.isSome then w.closeFd f.fd f.connected else w

def popSfds (w : World) (rest : List SfdId) : World :=
  { w with locals := { w.locals with sfds := rest } }

/-- The innermost local reference to a `SocketFD` goes. -/
def dropSfd (w : World) : World :=
  match w.locals.sfds with
  | [] => w
  | s :: rest =>
      if s ∈ rest ∨ (w.sockets (w.sfds s).owner).sockfd = some s then w.popSfds rest
      else (w.popSfds rest).destroySfd s

def clearSockfd (w : World) (i : SockId) : World :=
  w.setSocket i { w.sockets i with sockfd := none }

def putSockfd (w : World) (i : SockId) (s : SfdId) : World :=
  let sk := w.sockets i
  ((w.setSocket i { sk with sockfd := some s }).setSfd s
    { w.sfds s with installed := true }).log
      (.install i s (sk.queue.sendBufSending.isEmpty && sk.queue.sendBufWaiting.isEmpty))

/-- `sockfd_ = nullptr`: the object goes after the pointer. -/
def resetSockfd (w : World) (i : SockId) : World :=
  match (w.sockets i).sockfd with
  | none => w
  | some s => ((w.holdSfd s).clearSockfd i).dropSfd

/-- `sockfd_ = sockfd`. -/
def assignSockfd (w : World) (i : SockId) (s : SfdId) : World :=
  match (w.sockets i).sockfd with
  | none => w.putSockfd i s
  | some old => ((w.holdSfd old).putSockfd i s).dropSfd

/-- `connect_timer_ = nullptr; async_connect_cb_ = nullptr`: `~Timer` cancels. -/
def dropConnect (w : World) (i : SockId) : World :=
  { w with
    sockets := Function.update w.sockets i
      { w.sockets i with connectTimer := none, asyncConnectCb := none }
    conns :=
      match (w.sockets i).connectTimer with
      | none => w.conns
      | some a => Function.update w.conns a { w.conns a with cancelled := true } }

def close (w : World) (i : SockId) : World :=
  ((w.dropConnect i).resetSockfd i).log (.close i (w.sockets i).sockfd)

def popSocks (w : World) (rest : List SockId) : World :=
  { w with locals := { w.locals with socks := rest } }

/-- `~Socket`, after its `Close`. -/
def killSock (w : World) (i : SockId) (rest : List SockId) : World :=
  ((w.popSocks rest).setSocket i { w.sockets i with alive := false }).log (.destroyed i)

def dropSock (w : World) : World :=
  match w.locals.socks with
  | [] => w
  | i :: rest =>
      if i ∈ rest ∨ (w.sockets i).userRef then w.popSocks rest
      else (w.close i).killSock i rest

/-- `accept_cb_` threw: `attach_event` is not reached for `p`. -/
def logAcceptThrew (w : World) (p : SfdId) : World :=
  { w with
    locals := { w.locals with unattached := w.locals.unattached.erase p }
    trace := w.trace ++ [.acceptThrew p] }

def dropUserRef (w : World) (i : SockId) : World :=
  w.setSocket i { w.sockets i with userRef := false }

def create (w : World) : World :=
  { w.setSocket w.nextSock { alive := true, userRef := true } with nextSock := w.nextSock + 1 }

/-! ## Registration and interest -/

/-- `AddEvent` on the descriptor of `s`, and whether it returned 0. -/
def register (w : World) (s : SfdId) (cb : PollEventCB) (event : Nat) (ctlOk : Bool) :
    World × Bool :=
  let add := w.poller.addEvent (w.sfds s).fd event cb ctlOk
  ({ w with
      poller := add.1
      locals := { w.locals with unattached := w.locals.unattached.erase s }
      trace := w.trace ++ [.addEvent s ctlOk] }, add.2)

/-- `DelEvent` without a callback, in `on_connected`. -/
def unregister (w : World) (s : SfdId) : World :=
  { w with
    poller := (w.poller.delEvent (w.sfds s).fd).1
    locals := { w.locals with unattached := s :: w.locals.unattached } }

def markAttached (w : World) (s : SfdId) : World :=
  w.setSfd s { w.sfds s with attached := true }

def setConnected (w : World) (s : SfdId) : World :=
  w.setSfd s { w.sfds s with connected := true }

/-- `read_buf_` is allocated by the first `attach_event`. -/
def allocReadBuf (w : World) (i : SockId) (udp : Bool) : World :=
  let sk := w.sockets i
  match sk.readBuf with
  | none => w.setSocket i { sk with readBuf := some (if udp then 0xFFFF else 128 * 1024) }
  | some _ => w

def setDelayTasks (w : World) (tasks : List (Nat × ConnId)) : World :=
  { w with poller := { w.poller with delayTasks := tasks } }

def setExit (w : World) : World := { w with poller := { w.poller with exitFlag := true } }

def modify (w : World) (s : SfdId) (event : Nat) : World :=
  { w with poller := (w.poller.modifyEvent (w.sfds s).fd event).1 }

/-- `enable_recv_`; nothing changes it. -/
def enableRecv : Bool := true

def recvEvent : Nat := if enableRecv then PE_READ else 0

def stopWriteableEvent (w : World) (i : SockId) (s : SfdId) : World :=
  let sk := w.sockets i
  (w.modify s (recvEvent ||| PE_ERROR)).setSocket i
    { sk with queue := { sk.queue with sending := false } }

def startWriteableEvent (w : World) (i : SockId) (s : SfdId) : World :=
  let sk := w.sockets i
  (w.modify s (recvEvent ||| PE_ERROR ||| PE_WRITE)).setSocket i
    { sk with queue := { sk.queue with sending := true } }

/-! ## Atomic pieces of the socket functions -/

/-- `Connect` after its `Close`. -/
def startConnect (w : World) (i : SockId) (timeoutMs now : Nat) : World :=
  let a := w.nextConn
  { w with
    nextConn := a + 1
    conns := Function.update w.conns a ⟨i, timeoutMs, false⟩
    sockets := Function.update w.sockets i
      { w.sockets i with connectTimer := some a, asyncConnectCb := some a }
    poller :=
      (w.poller.async (.insertDelay ((timeoutMs + now) % 2 ^ 64) a) true).async (.connect i a) false
    trace := w.trace ++ [.connect i a] }

/-- `send` behind its guards. -/
def postAppend (w : World) (i : SockId) (s : SfdId) (buf : Buffer Byte) : World :=
  (w.post (.append i s buf) true).log
    (.send i s buf.data (w.poller.taskList.all fun t => (t.appends s).isEmpty))

def pop (w : World) (tasks : List SocketTask) : World := { w with swapList := tasks }

/-- The task of `send` with both pointers locked. -/
def runAppend (w : World) (i : SockId) (s : SfdId) (buf : Buffer Byte) : World :=
  let sk := w.sockets i
  let app := sk.queue.append buf
  let w := w.setSocket i { sk with queue := { app.1 with sending := sk.queue.sending } }
  if app.2 then w.startWriteableEvent i s else w

/-- `on_writeable` up to the point where user code or `on_error` is called. -/
def writeable (w : World) (i : SockId) (s : SfdId) (env : SendEnv) :
    World × FlushResult Byte :=
  let sk := w.sockets i
  let r := sk.queue.onWriteable w.poller.exitFlag ((w.sfds s).type = .udp) env
  let w := { w with
    sockets := Function.update w.sockets i { sk with queue := r.queue }
    locals := { w.locals with sendFailed := r.how = .failed }
    trace := w.trace ++
      .writeable i s (sk.queue.sendBufWaiting.flatMap Buffer.data).length ::
        r.calls.map (.sendmsg s) }
  (if r.how = .stopped ∨ r.how = .flushed then w.stopWriteableEvent i s else w, r)

/-- The event of `s` is for `i`: both pointers are locked. -/
def lock (w : World) (i : SockId) (s : SfdId) : World :=
  { w with
    locals := { w.locals with
      sfds := s :: w.locals.sfds
      socks := i :: w.locals.socks
      handler := some (i, s) } }

def unlock (w : World) : World :=
  { w with locals := { w.locals with handler := none, sendFailed := false } }

/-- A connect attempt is about to be reported. -/
def enterReport (w : World) (i : SockId) (a : ConnId) : World :=
  { w with locals := { w.locals with conn := some (i, a) } }

def logReport (w : World) (i : SockId) (a : ConnId) (err : SockErrCode) : World :=
  let sk := w.sockets i
  { w with
    locals := { w.locals with conn := none }
    trace := w.trace ++ [.report i a err
      ⟨sk.connectTimer, sk.asyncConnectCb, sk.sockfd, sk.sockfd.bind fun s => (w.sfds s).attempt,
        sk.sockfd.any fun s => (w.sfds s).connected⟩] }

end World

end CommonLibrary.Net
