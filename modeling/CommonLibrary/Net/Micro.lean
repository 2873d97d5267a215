import CommonLibrary.Net.World
import Mathlib.Logic.Relation

/-!
# Atomic steps

Everything the functions of `Socket` do is a sequence of the steps below, each with
what the code around it ensures.  An invariant is shown for these steps once and then
holds at every point of every function, however deeply user code is nested in it.
-/

namespace CommonLibrary.Net

open Poller

namespace SocketTask

/-- A task that neither owns a descriptor nor carries bytes. -/
def Plain : SocketTask → Prop
  | connected _ _ (some _) => False
  | append _ _ _ => False
  | _ => True

end SocketTask

namespace World

/-- Why the outcome of the call `a` of `Connect` may be reported to `i`. -/
inductive Origin (w : World) (i : SockId) (a : ConnId) : Prop where
  | task (h : (w.sockets i).asyncConnectCb = some a)
  | timer (h : (w.conns a).cancelled = false) (howner : (w.conns a).owner = i)
  | event (s : SfdId) (h : w.poller.eventMap (w.sfds s).fd = some (.connecting i a s))
      (hcur : (w.sockets i).sockfd = some s)
  | entered (h : w.locals.conn = some (i, a))

structure Idle (w : World) (i : SockId) : Prop where
  connectTimer : (w.sockets i).connectTimer = none
  asyncConnectCb : (w.sockets i).asyncConnectCb = none
  sockfd : (w.sockets i).sockfd = none

/-- The registrations that the functions of `Socket` make. -/
def CbOk (w : World) (s : SfdId) (event : Nat) : PollEventCB → Prop
  | .connecting i a s' => s' = s ∧ i = (w.sfds s).owner ∧
      (w.sockets i).asyncConnectCb = some a ∧ (w.sockets i).sockfd = some s ∧
      (w.sfds s).attempt = some a
  | .attached i s' _ => s' = s ∧ i = (w.sfds s).owner ∧ has (toEpoll event) EPOLLOUT = true
  | .accepting i s' => s' = s ∧ i = (w.sfds s).owner

/-- The atomic steps.  The calls of `read_cb_` and `accept_cb_` and the errors raised are
told apart from the others by the flag. -/
inductive Micro : Bool → World → World → Prop where
  | create {d : Bool} (w : World) : Micro d w w.create
  | dropConnect {d : Bool} (w : World) (i : SockId) : Micro d w (w.dropConnect i)
  | clearSockfd {d : Bool} (w : World) (i : SockId) (s : SfdId)
      (hcur : (w.sockets i).sockfd = some s) (hheld : s ∈ w.locals.sfds) :
      Micro d w (w.clearSockfd i)
  | putSockfd {d : Bool} (w : World) (i : SockId) (s : SfdId)
      (hi : (w.sockets i).alive) (hs : (w.sfds s).alive) (howner : (w.sfds s).owner = i)
      (hnew : (w.sfds s).installed = false)
      (hheld : ∀ old, (w.sockets i).sockfd = some old → old ∈ w.locals.sfds) :
      Micro d w (w.putSockfd i s)
  | logClose {d : Bool} (w : World) (i : SockId) (old : Option SfdId) (hidle : w.Idle i)
      (hconn : w.locals.conn = none)
      (hold : ∀ s, old = some s →
        s < w.nextSfd ∧ (w.sfds s).owner = i ∧ (w.sfds s).installed) :
      Micro d w (w.log (.close i old))
  | startConnect {d : Bool} (w : World) (i : SockId) (timeoutMs now : Nat)
      (hi : (w.sockets i).alive) (hidle : w.Idle i) (hconn : w.locals.conn = none) :
      Micro d w (w.startConnect i timeoutMs now)
  | opened {d : Bool} (w : World) (fd : Fd) (hfree : w.openFds fd = none) :
      Micro d w (w.opened fd)
  | makeSfd {d : Bool} (w : World) (s : SfdId) (type : SockType) (i : SockId)
      (attempt : Option ConnId) (hs : s ∈ w.locals.fds) (hi : (w.sockets i).alive) :
      Micro d w (w.makeSfd s type i attempt)
  | closeLoose {d : Bool} (w : World) (s : SfdId) (hs : s ∈ w.locals.fds) :
      Micro d w (w.closeLoose s)
  | postConnected {d : Bool} (w : World) (i : SockId) (a : ConnId) (s : SfdId)
      (hs : s ∈ w.locals.fds) :
      Micro d w ({ w with locals := { w.locals with fds := w.locals.fds.erase s } }.post
        (.connected i a (some s)) false)
  | post {d : Bool} (w : World) (t : SocketTask) (first : Bool) (ht : t.Plain) :
      Micro d w (w.post t first)
  | postAppend {d : Bool} (w : World) (i : SockId) (s : SfdId) (buf : Buffer Byte)
      (hne : buf.data ≠ []) (horigin : ∀ b ∈ buf.data, b.origin = s)
      (hi : (w.sockets i).alive) (hcur : (w.sockets i).sockfd = some s) :
      Micro d w (w.postAppend i s buf)
  | swap {d : Bool} (w : World) (hnil : w.swapList = []) :
      Micro d w { w with
        swapList := w.poller.taskList
        poller := { w.poller with taskList := [] } }
  | pop {d : Bool} (w : World) (t : SocketTask) (tasks : List SocketTask)
      (ht : t.Plain) (hswap : w.swapList = t :: tasks) : Micro d w (w.pop tasks)
  | popConnected {d : Bool} (w : World) (i : SockId) (a : ConnId) (s : SfdId)
      (tasks : List SocketTask) (hswap : w.swapList = .connected i a (some s) :: tasks) :
      Micro d w { w.pop tasks with
        locals := { w.locals with fds := s :: w.locals.fds } }
  | runAppend {d : Bool} (w : World) (i : SockId) (s : SfdId) (buf : Buffer Byte)
      (tasks : List SocketTask) (hswap : w.swapList = .append i s buf :: tasks)
      (hlocals : w.locals = {}) (hi : (w.sockets i).alive) (hs : (w.sfds s).alive) :
      Micro d w ((w.pop tasks).runAppend i s buf)
  | dropAppend {d : Bool} (w : World) (i : SockId) (s : SfdId) (buf : Buffer Byte)
      (tasks : List SocketTask) (hswap : w.swapList = .append i s buf :: tasks)
      (hgone : ¬ ((w.sockets i).alive ∧ (w.sfds s).alive)) : Micro d w (w.pop tasks)
  | lock {d : Bool} (w : World) (i : SockId) (s : SfdId) (hlocals : w.locals = {})
      (hi : (w.sockets i).alive) (hcur : (w.sockets i).sockfd = some s) :
      Micro d w (w.lock i s)
  | unlock {d : Bool} (w : World)
      (hfailed : w.locals.sendFailed → ∀ i s, w.locals.handler = some (i, s) →
        (w.sockets i).sockfd = none) : Micro d w w.unlock
  | holdSfd {d : Bool} (w : World) (s : SfdId) (hs : (w.sfds s).alive) :
      Micro d w (w.holdSfd s)
  | holdSock {d : Bool} (w : World) (i : SockId) (hi : (w.sockets i).alive) :
      Micro d w (w.holdSock i)
  | popSfds {d : Bool} (w : World) (s : SfdId) (rest : List SfdId)
      (hsfds : w.locals.sfds = s :: rest)
      (hkeep : s ∈ rest ∨ (w.sockets (w.sfds s).owner).sockfd = some s)
      (hatt : s ∈ rest ∨ s ∉ w.locals.unattached)
      (hhandler : ∀ p, w.locals.handler = some p → p.2 ∈ rest) :
      Micro d w (w.popSfds rest)
  | destroySfd {d : Bool} (w : World) (s : SfdId) (rest : List SfdId)
      (hrest : s ∉ rest) (hsfds : w.locals.sfds = s :: rest)
      (hgone : (w.sockets (w.sfds s).owner).sockfd ≠ some s) (hatt : s ∉ w.locals.unattached)
      (hhandler : ∀ p, w.locals.handler = some p → p.2 ∈ rest) :
      Micro d w ((w.popSfds rest).destroySfd s)
  | popSocks {d : Bool} (w : World) (i : SockId) (rest : List SockId)
      (hsocks : w.locals.socks = i :: rest)
      (hhandler : ∀ p, w.locals.handler = some p → p.1 ∈ rest) :
      Micro d w (w.popSocks rest)
  | killSock {d : Bool} (w : World) (i : SockId) (rest : List SockId)
      (hrest : i ∉ rest) (hsocks : w.locals.socks = i :: rest) (hidle : w.Idle i)
      (hconn : w.locals.conn = none)
      (hhandler : ∀ p, w.locals.handler = some p → p.1 ∈ rest) :
      Micro d w (w.killSock i rest)
  | dropUserRef {d : Bool} (w : World) (i : SockId) : Micro d w (w.dropUserRef i)
  | register {d : Bool} (w : World) (s : SfdId) (cb : PollEventCB) (event : Nat) (ctlOk : Bool)
      (hs : (w.sfds s).alive) (hcb : w.CbOk s event cb) (hatt : s ∈ w.locals.unattached) :
      Micro d w (w.register s cb event ctlOk).1
  | unregister {d : Bool} (w : World) (i : SockId) (a : ConnId) (s : SfdId)
      (hheld : s ∈ w.locals.sfds)
      (hreg : w.poller.eventMap (w.sfds s).fd = some (.connecting i a s)) :
      Micro d w (w.unregister s)
  | markAttached {d : Bool} (w : World) (s : SfdId) (udp : Bool)
      (hreg : w.poller.eventMap (w.sfds s).fd = some (.attached (w.sfds s).owner s udp)) :
      Micro d w (w.markAttached s)
  | setConnected {d : Bool} (w : World) (s : SfdId) : Micro d w (w.setConnected s)
  | allocReadBuf {d : Bool} (w : World) (i : SockId) (udp : Bool) :
      Micro d w (w.allocReadBuf i udp)
  | setDelayTasks {d : Bool} (w : World) (tasks : List (Nat × ConnId)) :
      Micro d w (w.setDelayTasks tasks)
  | setExit {d : Bool} (w : World) : Micro d w w.setExit
  | writeable {d : Bool} (w : World) (i : SockId) (s : SfdId) (env : SendEnv)
      (hhandler : w.locals.handler = some (i, s)) (hcur : (w.sockets i).sockfd ≠ none)
      (hok : w.locals.sendFailed = false) :
      Micro d w (w.writeable i s env).1
  | enterReport {d : Bool} (w : World) (i : SockId) (a : ConnId) (horigin : w.Origin i a) :
      Micro d w (w.enterReport i a)
  | logReport {d : Bool} (w : World) (i : SockId) (a : ConnId) (err : SockErrCode)
      (hconn : w.locals.conn = some (i, a))
      (htimer : (w.sockets i).connectTimer = none)
      (hasync : (w.sockets i).asyncConnectCb = none)
      (hfail : err ≠ .success → (w.sockets i).sockfd = none)
      (hok : err = .success → ∃ s udp, (w.sockets i).sockfd = some s ∧
        (w.sfds s).attempt = some a ∧ (w.sfds s).connected ∧
        w.poller.eventMap (w.sfds s).fd = some (.attached i s udp)) :
      Micro d w (w.logReport i a err)
  | logAcceptThrew {d : Bool} (w : World) (p : SfdId) (hatt : p ∈ w.locals.unattached) :
      Micro d w (w.logAcceptThrew p)
  | logFlushed {d : Bool} (w : World) (i : SockId) : Micro d w (w.log (.flushed i))
  | logError {d : Bool} (w : World) (i : SockId) (err : SockErrCode) :
      Micro d w (w.log (.error i err))
  | logRead (w : World) (i : SockId) (s : SfdId) (data : List UInt8) :
      Micro true w (w.log (.read i s data))
  | logAccept (w : World) (i : SockId) (s : SfdId) (j : SockId) :
      Micro true w (w.log (.accept i s j))
  | logRaised (w : World) (i : SockId) (s cur : SfdId) (err : SockErrCode)
      (hcur : (w.sockets i).sockfd = some cur) : Micro true w (w.log (.raised i s cur err))

abbrev Steps (d : Bool) : World → World → Prop := Relation.ReflTransGen (Micro d)

theorem Micro.deliver {d : Bool} {w w' : World} (h : Micro d w w') : Micro true w w' := by
  cases h
  case logRead i s data => exact .logRead w i s data
  case logAccept i s j => exact .logAccept w i s j
  case logRaised i s cur err hcur => exact .logRaised w i s cur err hcur
  case dropAppend i s buf tasks hswap hgone => exact .dropAppend w i s buf tasks hswap hgone
  all_goals constructor <;> assumption

theorem Steps.deliver {d : Bool} {w w' : World} (h : Steps d w w') : Steps true w w' :=
  Relation.ReflTransGen.mono (fun _ _ => Micro.deliver) _ _ h

theorem Steps.invariant {d : Bool} {P : World → Prop}
    (hpres : ∀ w w', Micro d w w' → P w → P w') {w w' : World} (h : Steps d w w')
    (hP : P w) : P w' := by
  induction h with
  | refl => exact hP
  | tail _ hstep ih => exact hpres _ _ hstep ih

end World

end CommonLibrary.Net
