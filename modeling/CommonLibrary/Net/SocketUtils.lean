import CommonLibrary.Foundation.Calls
import CommonLibrary.Foundation.Heap
import CommonLibrary.Net.Interfaces
import CommonLibrary.Net.World

/-!
# Descriptors from the kernel

`SocketUtils` as programs over system calls: `Connect`, `Listen`, `Bind` and the options.  The
kernel may refuse any call, with any `errno`.  What is kept of it are the descriptors of the
process with their sockets, and the blocks and lists that have not been freed.
-/

namespace CommonLibrary.Net

open Foundation Poller Utils

/-- What is set by `setsockopt` or, `nonBlock`, by `ioctl` with `FIONBIO`. -/
inductive SockOpt where
  | nonBlock (enable : Bool)
  | SO_REUSEADDR (enable : Bool)
  | SO_REUSEPORT (enable : Bool)
  | SO_KEEPALIVE (enable : Bool)
  | TCP_NODELAY (enable : Bool)
  | SO_SNDBUF (size : Int32)
  | SO_RCVBUF (size : Int32)
  | SO_LINGER (onoff : Bool) (seconds : Int32)
  | SO_SNDTIMEO (seconds : Int32)
  deriving DecidableEq

def FD_CLOEXEC : Nat := 1

inductive SysCall where
  | socket (family : Family) (type : SockType)
  | setsockopt (fd : Fd) (opt : SockOpt)
  /-- `F_GETFD` -/
  | getfd (fd : Fd)
  /-- `F_SETFD` -/
  | setfd (fd : Fd) (flags : Nat)
  /-- with the address in a block -/
  | bind (fd : Fd) (addr : Addr)
  | connect (fd : Fd) (addr : SockaddrStorage)
  | listen (fd : Fd) (backlog : Int32)
  | close (fd : Fd)
  | getifaddrs
  | freeifaddrs (list : Addr)
  /-- followed by `bzero` -/
  | malloc
  /-- the block is written to -/
  | store (addr : Addr) (a : SockaddrStorage)
  | free (addr : Addr)
  deriving DecidableEq

namespace SysCall

/-- What a call returns, or the `errno` that it has set when it returns -1. -/
@[reducible] def Answer : SysCall → Type
  | socket _ _ => Except Errno Fd
  | getfd _ => Except Errno Nat
  | getifaddrs => Except Errno (Addr × List IfAddr)
  | malloc => Addr
  | freeifaddrs _ | store _ _ | free _ => Unit
  | _ => Except Errno Unit

end SysCall

/-! ## The code -/

namespace SocketUtils

abbrev Code (α : Type) := Prog SysCall SysCall.Answer α

open Prog SysCall

def ok {ε α : Type} : Except ε α → Bool
  | .ok _ => true
  | .error _ => false

def setOption (fd : Fd) (opt : SockOpt) : Code Bool := do
  return ok (← ask (SysCall.setsockopt fd opt))

def createSocket (type : SockType) (isIpv6 : Bool) : Code (Option Fd) := do
  match ← ask (SysCall.socket (if isIpv6 then .AF_INET6 else .AF_INET) type) with
  | .ok fd => return some fd
  | .error _ => return none

def setNoBlocked (fd : Fd) (enable : Bool) : Code Bool := setOption fd (.nonBlock enable)

def setReuseable (fd : Fd) (enable : Bool) : Code Bool := do
  if ← setOption fd (.SO_REUSEADDR enable) then
    setOption fd (.SO_REUSEPORT enable)
  else return false

def setKeepAlive (fd : Fd) (enable : Bool) : Code Bool := setOption fd (.SO_KEEPALIVE enable)

def setNoDelay (fd : Fd) (enable : Bool) : Code Bool := setOption fd (.TCP_NODELAY enable)

def setSendBuf (fd : Fd) (size : Int32) : Code Bool := setOption fd (.SO_SNDBUF size)

def setRecvBuf (fd : Fd) (size : Int32) : Code Bool := setOption fd (.SO_RCVBUF size)

def setCloExec (fd : Fd) (enable : Bool) : Code Bool := do
  match ← ask (SysCall.getfd fd) with
  | .error _ => return false
  | .ok flags =>
      let flags := if enable then flags ||| FD_CLOEXEC else flags - (flags &&& FD_CLOEXEC)
      return ok (← ask (SysCall.setfd fd flags))

def setCloseWait (fd : Fd) (seconds : Int32) : Code Bool :=
  setOption fd (.SO_LINGER (seconds > 0) seconds)

def setSendTimeout (fd : Fd) (seconds : Int32) : Code Bool :=
  setOption fd (.SO_SNDTIMEO seconds)

/-- `get_addr_by_if`, with the block that it writes to. -/
def getAddrByIf (pton : InetPton) (family : Family) (adapterName : String) (port : UInt16)
    (addr : Addr) : Code Bool := do
  match ← ask SysCall.getifaddrs with
  | .error _ => return false
  | .ok (list, ifs) =>
      match Net.getAddrByIf pton ifs family adapterName port with
      | some a =>
          let _ ← ask (SysCall.store addr a)
          let _ ← ask (SysCall.freeifaddrs list)
          return true
      | none =>
          let _ ← ask (SysCall.freeifaddrs list)
          return false

def bind (pton : InetPton) (fd : Fd) (localIpOrIntf : String) (port : UInt16) (isIpv6 : Bool) :
    Code Bool := do
  let family := if isIpv6 then Family.AF_INET6 else Family.AF_INET
  let addr : Addr ← ask SysCall.malloc
  if ← getAddrByIf pton family localIpOrIntf port addr then
    let ret := ok (← ask (SysCall.bind fd addr))
    let _ ← ask (SysCall.free addr)
    return ret
  else
    let _ ← ask (SysCall.free addr)
    return false

/-- `Connect`, from what `DNSCache::Parse` has made of the host. -/
def connect (pton : InetPton) (parsed : Option SockaddrStorage) (port : UInt16)
    (localIpOrIntf : String) (localPort : UInt16) (async : Bool) : Code (Option Fd) := do
  match parsed with
  | none => return none
  | some addr =>
      let isIpv6 : Bool := addr.family = .AF_INET6
      match ← createSocket .tcp isIpv6 with
      | none => return none
      | some fd =>
          let _ ← setReuseable fd true
          let _ ← setNoBlocked fd async
          let _ ← setNoDelay fd true
          let _ ← setRecvBuf fd (256 * 1024)
          let _ ← setSendBuf fd (256 * 1024)
          let _ ← setCloseWait fd 0
          let _ ← setCloExec fd true
          if ← bind pton fd localIpOrIntf localPort isIpv6 then
            match ← ask (SysCall.connect fd (addr.setPort port)) with
            | .ok _ => return some fd
            | .error errno =>
                if async && uvTranslatePosixError errno = EAGAIN then return some fd
                else
                  let _ ← ask (SysCall.close fd)
                  return none
          else
            let _ ← ask (SysCall.close fd)
            return none

def listen (pton : InetPton) (type : SockType) (port : UInt16) (isIpv6 : Bool) (localIp : String)
    (backlog : Int32) : Code (Option Fd) := do
  match ← createSocket type isIpv6 with
  | none => return none
  | some fd =>
      let _ ← setReuseable fd true
      let _ ← setNoBlocked fd true
      let _ ← setCloExec fd true
      if ← bind pton fd localIp port isIpv6 then
        if type = .tcp then
          if ok (← ask (SysCall.listen fd backlog)) then return some fd
          else
            let _ ← ask (SysCall.close fd)
            return none
        else return some fd
      else
        let _ ← ask (SysCall.close fd)
        return none

end SocketUtils

/-! ## The kernel -/

/-- What a call has set for a socket. -/
structure SockState where
  family : Family
  type : SockType
  /-- the options that have been set, in order -/
  opts : List SockOpt := []
  /-- `F_GETFD` -/
  flags : Nat := 0
  bound : Option SockaddrStorage := none
  /-- the last `connect`, and the `errno` that it has set if it has failed -/
  attempt : Option (SockaddrStorage × Option Errno) := none
  backlog : Option Int32 := none
  deriving DecidableEq

structure Kernel where
  /-- the open descriptors -/
  sockets : Fd → Option SockState := fun _ => none
  blocks : Heap SockaddrStorage := {}
  /-- the lists of `getifaddrs` that have not been freed -/
  lists : Heap Unit := {}
  interfaces : List IfAddr := []
  /-- history: the calls that have been refused, the last one first -/
  refused : List (SysCall × Errno) := []

namespace Kernel

def setSocket (k : Kernel) (fd : Fd) (s : Option SockState) : Kernel :=
  { k with sockets := Function.update k.sockets fd s }

def refuse (k : Kernel) (c : SysCall) (errno : Errno) : Kernel :=
  { k with refused := (c, errno) :: k.refused }

def change (k : Kernel) (c : SysCall) (fd : Fd) (f : SockState → SockState) :
    Except Errno Unit → Option Kernel
  | .ok _ => (k.sockets fd).map fun s => k.setSocket fd (some (f s))
  | .error errno => some (k.refuse c errno)

/-- The descriptor is open, and the block or the list has not been freed. -/
def Allows (k : Kernel) : SysCall → Prop
  | .setsockopt fd _ | .getfd fd | .setfd fd _ | .connect fd _ | .listen fd _ | .close fd =>
      (k.sockets fd).isSome
  | .bind fd addr => (k.sockets fd).isSome ∧ (k.blocks.blocks addr).isSome
  | .freeifaddrs list => (k.lists.blocks list).isSome
  | .store addr _ | .free addr => (k.blocks.blocks addr).isSome
  | .socket _ _ | .getifaddrs | .malloc => True

/-- A new descriptor has a number that is not open, and a new block or list an address that is
not in use.  `close` frees the descriptor also when it reports an error. -/
def answer (k : Kernel) : (c : SysCall) → c.Answer → Option Kernel
  | .socket family type, .ok fd =>
      if (k.sockets fd).isSome then none
      else some (k.setSocket fd (some { family := family, type := type }))
  | .socket family type, .error errno => some (k.refuse (.socket family type) errno)
  | .setsockopt fd opt, ans =>
      k.change (.setsockopt fd opt) fd (fun s => { s with opts := s.opts ++ [opt] }) ans
  | .getfd fd, .ok flags => if (k.sockets fd).map SockState.flags = some flags then some k else none
  | .getfd fd, .error errno => some (k.refuse (.getfd fd) errno)
  | .setfd fd flags, ans => k.change (.setfd fd flags) fd (fun s => { s with flags := flags }) ans
  | .bind fd addr, ans =>
      (k.blocks.blocks addr).bind fun a =>
        k.change (.bind fd addr) fd (fun s => { s with bound := some a }) ans
  | .connect fd addr, .ok _ =>
      (k.sockets fd).map fun s => k.setSocket fd (some { s with attempt := some (addr, none) })
  | .connect fd addr, .error errno =>
      (k.sockets fd).map fun s =>
        (k.setSocket fd (some { s with attempt := some (addr, some errno) })).refuse
          (.connect fd addr) errno
  | .listen fd backlog, ans =>
      k.change (.listen fd backlog) fd (fun s => { s with backlog := some backlog }) ans
  | .close fd, .ok _ => some (k.setSocket fd none)
  | .close fd, .error errno => some ((k.setSocket fd none).refuse (.close fd) errno)
  | .getifaddrs, .ok (list, ifs) =>
      if list = k.lists.next ∧ ifs = k.interfaces then
        some { k with lists := (k.lists.alloc ()).1 }
      else none
  | .getifaddrs, .error errno => some (k.refuse .getifaddrs errno)
  | .freeifaddrs list, _ => (k.lists.free list).map fun lists => { k with lists := lists }
  | .malloc, addr =>
      if addr = k.blocks.next then some { k with blocks := (k.blocks.alloc .other).1 } else none
  | .store addr a, _ => (k.blocks.store addr a).map fun blocks => { k with blocks := blocks }
  | .free addr, _ => (k.blocks.free addr).map fun blocks => { k with blocks := blocks }

end Kernel

def kernel : Env SysCall SysCall.Answer Kernel where
  allows := Kernel.Allows
  answer := Kernel.answer

/-! ## What the calls change -/

namespace Kernel

/-- A call without which there is no socket that is connected, or listens, has been refused. -/
def Fatal (async : Bool) : SysCall × Errno → Bool
  | (.socket _ _, _) | (.getifaddrs, _) | (.bind _ _, _) | (.listen _ _, _) => true
  | (.connect _ _, errno) => !(async && uvTranslatePosixError errno = EAGAIN)
  | _ => false

def failures (async : Bool) (k : Kernel) : Nat := k.refused.countP (Fatal async)

/-- Only the sockets have changed, and `n` fatal calls have been refused. -/
structure Same (async : Bool) (n : Nat) (k k' : Kernel) : Prop where
  blocks : k'.blocks.blocks = k.blocks.blocks
  lists : k'.lists.blocks = k.lists.blocks
  interfaces : k'.interfaces = k.interfaces
  failures : k'.failures async = k.failures async + n

/-- Only the socket `fd` has changed, and is `s` now. -/
structure Turned (async : Bool) (fd : Fd) (s : SockState) (k k' : Kernel) : Prop
    extends Same async 0 k k' where
  sockets : k'.sockets = Function.update k.sockets fd (some s)

variable {async : Bool} {m n : Nat} {fd : Fd} {s s' : SockState} {k k' k'' : Kernel}

theorem Same.trans (h : Same async m k k') (h' : Same async n k' k'') :
    Same async (m + n) k k'' where
  blocks := h'.blocks.trans h.blocks
  lists := h'.lists.trans h.lists
  interfaces := h'.interfaces.trans h.interfaces
  failures := by rw [h'.failures, h.failures, Nat.add_assoc]

theorem Turned.trans (h : Turned async fd s k k') (h' : Turned async fd s' k' k'') :
    Turned async fd s' k k'' where
  toSame := h.toSame.trans h'.toSame
  sockets := by rw [h'.sockets, h.sockets, Function.update_idem]

theorem Turned.self (h : Turned async fd s k k') : k'.sockets fd = some s := by
  rw [h.sockets, Function.update_self]

theorem same_refl (async : Bool) (k : Kernel) : Same async 0 k k := ⟨rfl, rfl, rfl, rfl⟩

theorem turned_refl (async : Bool) (hs : k.sockets fd = some s) : Turned async fd s k k where
  toSame := same_refl async k
  sockets := by rw [← hs, Function.update_eq_self]

theorem refuse_same (async : Bool) (k : Kernel) (c : SysCall) (errno : Errno) :
    Same async (if Fatal async (c, errno) then 1 else 0) k (k.refuse c errno) where
  blocks := rfl
  lists := rfl
  interfaces := rfl
  failures := List.countP_cons

theorem change_cases {c : SysCall} {f : SockState → SockState} {ans : Except Errno Unit}
    (async : Bool) (hs : k.sockets fd = some s) (h : k.change c fd f ans = some k') :
    (SocketUtils.ok ans = true ∧ Turned async fd (f s) k k') ∨
      ∃ errno, SocketUtils.ok ans = false ∧ k' = k.refuse c errno := by
  cases ans with
  | ok _ =>
      simp only [change, hs, Option.map_some, Option.some.injEq] at h
      cases h
      exact .inl ⟨rfl, ⟨rfl, rfl, rfl, rfl⟩, rfl⟩
  | error errno =>
      cases h
      exact .inr ⟨errno, rfl, rfl⟩

end Kernel

end CommonLibrary.Net
