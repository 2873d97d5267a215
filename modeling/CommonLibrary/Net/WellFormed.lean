import CommonLibrary.Net.Micro
import Mathlib.Data.List.Nodup
import Mathlib.Tactic.Common

/-!
# References, registrations and descriptors

The invariant of `World`: who may refer to what, and what the poller and the kernel
know.  Each part is shown for the atomic steps; most of them touch none of its fields.
-/

namespace CommonLibrary.Net

open Poller

namespace World

variable {d : Bool} {w w' : World}

/-! ## Fields of the composed pieces -/

@[simp, grind =] theorem destroySfd_sfds (w : World) (s : SfdId) :
    (w.destroySfd s).sfds = Function.update w.sfds s { w.sfds s with alive := false } := by
  unfold destroySfd
  dsimp only
  split <;> rfl

@[simp, grind =] theorem destroySfd_poller (w : World) (s : SfdId) :
    (w.destroySfd s).poller = (w.poller.delEvent (w.sfds s).fd).1 := by
  unfold destroySfd
  dsimp only
  split <;> rfl

/-- What `~SocketFD` leaves alone. -/
structure SameButFds (w w' : World) : Prop where
  sockets : w'.sockets = w.sockets
  conns : w'.conns = w.conns
  locals : w'.locals = w.locals
  swapList : w'.swapList = w.swapList
  nextSock : w'.nextSock = w.nextSock
  nextSfd : w'.nextSfd = w.nextSfd
  nextConn : w'.nextConn = w.nextConn

theorem destroySfd_same (w : World) (s : SfdId) : SameButFds w (w.destroySfd s) := by
  unfold destroySfd
  dsimp only
  split <;> exact ⟨rfl, rfl, rfl, rfl, rfl, rfl, rfl⟩

@[simp, grind =] theorem destroySfd_sockets (w : World) (s : SfdId) :
    (w.destroySfd s).sockets = w.sockets := (destroySfd_same w s).sockets

@[simp, grind =] theorem destroySfd_locals (w : World) (s : SfdId) :
    (w.destroySfd s).locals = w.locals := (destroySfd_same w s).locals

@[simp, grind =] theorem destroySfd_openFds (w : World) (s : SfdId) :
    (w.destroySfd s).openFds =
      if (w.poller.eventMap (w.sfds s).fd).isSome then
        Function.update w.openFds (w.sfds s).fd none
      else w.openFds := by
  unfold destroySfd EventPoller.delEvent
  dsimp only
  split_ifs <;> simp_all [closeFd, setSfd]

@[simp, grind =] theorem modify_eventMap (w : World) (s : SfdId) (event : Nat) :
    (w.modify s event).poller.eventMap = w.poller.eventMap :=
  EventPoller.eventMap_modifyEvent _ _

theorem modify_agree {s : SfdId} {event : Nat} (h : w.poller.Agree) :
    (w.modify s event).poller.Agree :=
  EventPoller.modifyEvent_agree h _ _

@[simp, grind =] theorem modify_taskList (w : World) (s : SfdId) (event : Nat) :
    (w.modify s event).poller.taskList = w.poller.taskList := by
  simp only [modify, EventPoller.modifyEvent]
  split <;> rfl

/-- The parts of the world that the work on a send queue leaves alone. -/
structure SameButQueue (w w' : World) : Prop where
  eventMap : w'.poller.eventMap = w.poller.eventMap
  agree : w.poller.Agree → w'.poller.Agree
  taskList : w'.poller.taskList = w.poller.taskList
  swapList : w'.swapList = w.swapList
  sfds : w'.sfds = w.sfds
  openFds : w'.openFds = w.openFds
  conns : w'.conns = w.conns
  nextSock : w'.nextSock = w.nextSock
  nextSfd : w'.nextSfd = w.nextSfd
  nextConn : w'.nextConn = w.nextConn
  sockets : ∀ j, ∃ q r, w'.sockets j = { w.sockets j with queue := q, readBuf := r }

theorem update_queue (f : SockId → Socket) (i : SockId) (q : SendQueue Byte) (j : SockId) :
    ∃ q' r, Function.update f i { f i with queue := q } j =
      { f j with queue := q', readBuf := r } := by
  by_cases hj : j = i
  · subst hj
    exact ⟨q, (f j).readBuf, by simp⟩
  · exact ⟨(f j).queue, (f j).readBuf, by simp [hj]⟩

theorem stopWriteableEvent_same (w : World) (i : SockId) (s : SfdId) :
    SameButQueue w (w.stopWriteableEvent i s) :=
  ⟨modify_eventMap _ _ _, modify_agree, modify_taskList _ _ _, rfl, rfl, rfl, rfl, rfl, rfl,
    rfl, update_queue _ _ _⟩

theorem startWriteableEvent_same (w : World) (i : SockId) (s : SfdId) :
    SameButQueue w (w.startWriteableEvent i s) :=
  ⟨modify_eventMap _ _ _, modify_agree, modify_taskList _ _ _, rfl, rfl, rfl, rfl, rfl, rfl,
    rfl, update_queue _ _ _⟩

theorem SameButQueue.trans {w₁ w₂ w₃ : World} (h : SameButQueue w₁ w₂)
    (h' : SameButQueue w₂ w₃) : SameButQueue w₁ w₃ where
  eventMap := h'.eventMap.trans h.eventMap
  agree := fun ha => h'.agree (h.agree ha)
  taskList := h'.taskList.trans h.taskList
  swapList := h'.swapList.trans h.swapList
  sfds := h'.sfds.trans h.sfds
  openFds := h'.openFds.trans h.openFds
  conns := h'.conns.trans h.conns
  nextSock := h'.nextSock.trans h.nextSock
  nextSfd := h'.nextSfd.trans h.nextSfd
  nextConn := h'.nextConn.trans h.nextConn
  sockets := by
    intro j
    obtain ⟨q, r, hq⟩ := h.sockets j
    obtain ⟨q', r', hq'⟩ := h'.sockets j
    exact ⟨q', r', by rw [hq', hq]⟩

theorem runAppend_same (w : World) (i : SockId) (s : SfdId) (buf : Buffer Byte) :
    SameButQueue w (w.runAppend i s buf) := by
  unfold runAppend
  dsimp only
  split
  · refine SameButQueue.trans ?_ (startWriteableEvent_same _ _ _)
    exact ⟨rfl, id, rfl, rfl, rfl, rfl, rfl, rfl, rfl, rfl, update_queue _ _ _⟩
  · exact ⟨rfl, id, rfl, rfl, rfl, rfl, rfl, rfl, rfl, rfl, update_queue _ _ _⟩

theorem writeable_same (w : World) (i : SockId) (s : SfdId) (env : SendEnv) :
    SameButQueue w (w.writeable i s env).1 := by
  unfold writeable
  dsimp only
  split
  · refine SameButQueue.trans ?_ (stopWriteableEvent_same _ _ _)
    exact ⟨rfl, id, rfl, rfl, rfl, rfl, rfl, rfl, rfl, rfl, update_queue _ _ _⟩
  · exact ⟨rfl, id, rfl, rfl, rfl, rfl, rfl, rfl, rfl, rfl, update_queue _ _ _⟩

theorem allocReadBuf_same (w : World) (i : SockId) (udp : Bool) :
    SameButQueue w (w.allocReadBuf i udp) := by
  unfold allocReadBuf
  dsimp only
  split
  · refine ⟨rfl, id, rfl, rfl, rfl, rfl, rfl, rfl, rfl, rfl, fun j => ?_⟩
    by_cases hj : j = i
    · subst hj
      exact ⟨(w.sockets j).queue, some (if udp then 0xFFFF else 128 * 1024), by simp [setSocket]⟩
    · exact ⟨(w.sockets j).queue, (w.sockets j).readBuf, by simp [setSocket, hj]⟩
  · exact ⟨rfl, id, rfl, rfl, rfl, rfl, rfl, rfl, rfl, rfl, fun j => ⟨_, _, rfl⟩⟩

theorem allocReadBuf_poller (w : World) (i : SockId) (udp : Bool) :
    (w.allocReadBuf i udp).poller = w.poller := by
  unfold allocReadBuf
  dsimp only
  split <;> rfl

@[simp, grind =] theorem allocReadBuf_locals (w : World) (i : SockId) (udp : Bool) :
    (w.allocReadBuf i udp).locals = w.locals := by
  unfold allocReadBuf
  dsimp only
  split <;> rfl

@[simp, grind =] theorem runAppend_locals (w : World) (i : SockId) (s : SfdId)
    (buf : Buffer Byte) : (w.runAppend i s buf).locals = w.locals := by
  unfold runAppend
  dsimp only
  split <;> rfl

@[simp, grind =] theorem writeable_locals (w : World) (i : SockId) (s : SfdId)
    (env : SendEnv) :
    (w.writeable i s env).1.locals =
      { w.locals with sendFailed := (w.writeable i s env).2.how = .failed } := by
  unfold writeable
  dsimp only
  split <;> rfl

/-! ## The invariant -/

/-- A registration is one of a live `SocketFD`, for its number and its socket; the one
of a connect attempt is for the `SocketFD` of that attempt. -/
def RegLive (w : World) : Prop :=
  ∀ fd cb, w.poller.eventMap fd = some cb →
    (w.sfds cb.sfd).alive ∧ (w.sfds cb.sfd).fd = fd ∧ (w.sfds cb.sfd).owner = cb.sock ∧
      ∀ a, cb.attempt = some a → (w.sfds cb.sfd).attempt = some a ∧ (w.sfds cb.sfd).installed

def OpenLive (w : World) : Prop :=
  ∀ s, (w.sfds s).alive → w.openFds (w.sfds s).fd = some s ∧ s < w.nextSfd

/-- `sockfd_` is alive and was made for this socket. -/
def Current (w : World) : Prop :=
  ∀ i s, (w.sockets i).sockfd = some s →
    (w.sfds s).alive ∧ (w.sfds s).owner = i ∧ (w.sfds s).installed

def Referred (w : World) : Prop :=
  ∀ s, (w.sfds s).alive →
    s ∈ w.locals.sfds ∨ (w.sockets (w.sfds s).owner).sockfd = some s

def LocalsLive (w : World) : Prop :=
  (∀ s ∈ w.locals.sfds, (w.sfds s).alive) ∧ (∀ s ∈ w.locals.unattached, s ∈ w.locals.sfds) ∧
    ∀ i ∈ w.locals.socks, (w.sockets i).alive

def HandlerLive (w : World) : Prop :=
  ∀ i s, w.locals.handler = some (i, s) →
    s ∈ w.locals.sfds ∧ i ∈ w.locals.socks ∧ (w.sfds s).owner = i ∧ (w.sfds s).installed

/-- A socket that is gone has nothing left. -/
def DeadIdle (w : World) : Prop :=
  ∀ i, (w.sockets i).alive = false → w.Idle i

def SockBound (w : World) : Prop := ∀ i, (w.sockets i).alive → i < w.nextSock

/-- The descriptors that no `SocketFD` has been made for. -/
def looseFds (w : World) : List SfdId :=
  w.locals.fds ++ (w.poller.taskList ++ w.swapList).filterMap SocketTask.loose

def LooseOpen (w : World) : Prop :=
  w.looseFds.Nodup ∧ ∀ s ∈ w.looseFds,
    (w.sfds s).alive = false ∧ (w.sfds s).installed = false ∧
      w.openFds (w.sfds s).fd = some s ∧ s < w.nextSfd

/-- The descriptor has been opened and has left the hands that only know its number. -/
def Made (w : World) (s : SfdId) : Prop := s < w.nextSfd ∧ s ∉ w.looseFds

/-- The tasks in the order in which they will run, unless more are put in front. -/
def tasks (w : World) : List SocketTask := w.swapList ++ w.poller.taskList

/-- A task of `send` carries bytes given to `Send` while `s` was `sockfd_`. -/
def AppendsOwned (w : World) : Prop :=
  ∀ i s buf, .append i s buf ∈ w.tasks →
    w.Made s ∧ (w.sfds s).owner = i ∧ (w.sfds s).installed ∧ buf.data ≠ [] ∧
      ∀ b ∈ buf.data, b.origin = s

structure WF (w : World) : Prop where
  agree : w.poller.Agree
  regLive : w.RegLive
  openLive : w.OpenLive
  current : w.Current
  referred : w.Referred
  localsLive : w.LocalsLive
  handlerLive : w.HandlerLive
  deadIdle : w.DeadIdle
  sockBound : w.SockBound
  looseOpen : w.LooseOpen
  appendsOwned : w.AppendsOwned

theorem SameButQueue.current (h : SameButQueue w w') (hcurrent : w.Current) : w'.Current := by
  intro j s hcur
  obtain ⟨q, r, hq⟩ := h.sockets j
  rw [hq] at hcur
  rw [h.sfds]
  exact hcurrent j s hcur

theorem SameButQueue.referred (h : SameButQueue w w')
    (hsfds : w'.locals.sfds = w.locals.sfds) (hreferred : w.Referred) : w'.Referred := by
  intro s hs
  rw [h.sfds] at hs ⊢
  obtain ⟨q, r, hq⟩ := h.sockets (w.sfds s).owner
  rw [hsfds, hq]
  exact hreferred s hs

theorem SameButQueue.localsLive (h : SameButQueue w w')
    (hsfds : w'.locals.sfds = w.locals.sfds)
    (hatt : w'.locals.unattached = w.locals.unattached)
    (hsocks : w'.locals.socks = w.locals.socks) (hlive : w.LocalsLive) : w'.LocalsLive := by
  unfold LocalsLive
  rw [hsfds, hatt, hsocks, h.sfds]
  refine ⟨hlive.1, hlive.2.1, fun i hi => ?_⟩
  obtain ⟨q, r, hq⟩ := h.sockets i
  rw [hq]
  exact hlive.2.2 i hi

/-! ## The atomic steps keep it -/

theorem WF.loose_dead (hw : w.WF) {s : SfdId} (hs : s ∈ w.locals.fds) :
    (w.sfds s).alive = false :=
  (hw.looseOpen.2 s (List.mem_append_left _ hs)).1

theorem WF.nextSock_dead (hw : w.WF) : (w.sockets w.nextSock).alive = false := by
  by_contra hlive
  exact absurd (hw.sockBound w.nextSock (by simpa using hlive)) (lt_irrefl _)

theorem WF.head_alive (hw : w.WF) {s : SfdId} {rest : List SfdId}
    (h : w.locals.sfds = s :: rest) : (w.sfds s).alive :=
  hw.localsLive.1 s (by simp [h])

theorem micro_agree (h : Micro d w w') (hw : w.WF) : w'.poller.Agree := by
  have hagree := hw.agree
  cases h
  case destroySfd =>
    rw [destroySfd_poller]
    exact EventPoller.delEvent_agree hagree _
  case register => exact EventPoller.addEvent_agree hagree _ _ _ _
  case unregister => exact EventPoller.delEvent_agree hagree _
  case runAppend i s buf tasks _ _ _ _ =>
    exact (runAppend_same (w.pop tasks) i s buf).agree hagree
  case writeable i s env _ _ _ => exact (writeable_same w i s env).agree hagree
  case allocReadBuf i udp => exact (allocReadBuf_same w i udp).agree hagree
  all_goals exact hagree

theorem micro_regLive (h : Micro d w w') (hw : w.WF) : w'.RegLive := by
  have hreg := hw.regLive
  cases h
  case opened fd hfree =>
    intro fd' cb hcb
    have hold := hreg fd' cb hcb
    have hbound := hw.openLive cb.sfd
    simp only [opened, Function.update_apply]
    grind
  case makeSfd s type i att hs hi =>
    intro fd' cb hcb
    have hold := hreg fd' cb hcb
    have hdead := hw.loose_dead hs
    simp only [makeSfd, Function.update_apply]
    grind
  case putSockfd i s _ _ _ _ _ =>
    intro fd' cb hcb
    have hold := hreg fd' cb hcb
    simp only [putSockfd, log, setSfd, setSocket, Function.update_apply]
    grind
  case destroySfd s rest hrest hsfds hgone hatt hhandler =>
    -- the registration that goes is the one of `s`: its number is open for `s` only
    intro fd cb hcb
    rw [destroySfd_poller, EventPoller.eventMap_delEvent] at hcb
    rw [destroySfd_sfds, Function.update_apply]
    have hold := hreg fd cb
    have hopen := hw.openLive cb.sfd
    have hin := hw.agree fd
    dsimp only [popSfds] at hcb ⊢
    grind
  case register s cb event ctlOk hs hcb _ =>
    intro fd cb' hcb'
    simp only [register, EventPoller.eventMap_addEvent] at hcb' ⊢
    have hold := hreg fd cb'
    have hcurrent := hw.current
    unfold Current at hcurrent
    cases cb <;> simp only [CbOk] at hcb <;>
      grind [PollEventCB.sfd, PollEventCB.sock, PollEventCB.attempt]
  case unregister i a s _ _ =>
    intro fd cb' hcb'
    simp only [unregister, EventPoller.eventMap_delEvent] at hcb' ⊢
    have hold := hreg fd cb'
    grind
  case markAttached s _ _ =>
    intro fd' cb hcb
    have hold := hreg fd' cb hcb
    simp only [markAttached, setSfd, Function.update_apply]
    grind
  case setConnected s =>
    intro fd' cb hcb
    have hold := hreg fd' cb hcb
    simp only [setConnected, setSfd, Function.update_apply]
    grind
  case runAppend i s buf tasks _ _ _ _ =>
    have hsame := runAppend_same (w.pop tasks) i s buf
    unfold RegLive
    rw [hsame.eventMap, hsame.sfds]
    exact hreg
  case writeable i s env _ _ _ =>
    have hsame := writeable_same w i s env
    unfold RegLive
    rw [hsame.eventMap, hsame.sfds]
    exact hreg
  case allocReadBuf i udp =>
    have hsame := allocReadBuf_same w i udp
    unfold RegLive
    rw [hsame.eventMap, hsame.sfds]
    exact hreg
  all_goals exact hreg

theorem micro_openLive (h : Micro d w w') (hw : w.WF) : w'.OpenLive := by
  have hopen := hw.openLive
  cases h
  case opened fd hfree =>
    intro s hs
    have hold := hopen s
    simp only [opened, Function.update_apply] at hs ⊢
    grind
  case makeSfd s type i att hs hi =>
    intro s' hs'
    have hold := hopen s'
    have hloose := hw.looseOpen.2 s (List.mem_append_left _ hs)
    simp only [makeSfd, Function.update_apply] at hs' ⊢
    grind
  case closeLoose s hs =>
    intro s' hs'
    have hlive : (w.sfds s').alive := hs'
    have hold := hopen s' hlive
    have hloose := hw.looseOpen.2 s (List.mem_append_left _ hs)
    simp only [closeLoose, closeFd, Function.update_apply]
    grind
  case putSockfd i s _ _ _ _ _ =>
    intro s' hs'
    have hold := hopen s'
    simp only [putSockfd, log, setSfd, setSocket, Function.update_apply] at hs' ⊢
    grind
  case destroySfd s rest hrest hsfds hgone hatt hhandler =>
    intro s' hs'
    have hold := hopen s'
    have hown := hopen s (hw.head_alive hsfds)
    have hnext := (destroySfd_same (w.popSfds rest) s).nextSfd
    rw [destroySfd_sfds, Function.update_apply] at hs' ⊢
    rw [destroySfd_openFds, hnext]
    dsimp only [popSfds] at hs' ⊢
    grind [Function.update_apply]
  case markAttached s _ _ =>
    intro s' hs'
    have hold := hopen s'
    simp only [markAttached, setSfd, Function.update_apply] at hs' ⊢
    grind
  case setConnected s =>
    intro s' hs'
    have hold := hopen s'
    simp only [setConnected, setSfd, Function.update_apply] at hs' ⊢
    grind
  case runAppend i s buf tasks _ _ _ _ =>
    have hsame := runAppend_same (w.pop tasks) i s buf
    unfold OpenLive
    rw [hsame.sfds, hsame.openFds, hsame.nextSfd]
    exact hopen
  case writeable i s env _ _ _ =>
    have hsame := writeable_same w i s env
    unfold OpenLive
    rw [hsame.sfds, hsame.openFds, hsame.nextSfd]
    exact hopen
  case allocReadBuf i udp =>
    have hsame := allocReadBuf_same w i udp
    unfold OpenLive
    rw [hsame.sfds, hsame.openFds, hsame.nextSfd]
    exact hopen
  all_goals exact hopen

theorem micro_current (h : Micro d w w') (hw : w.WF) : w'.Current := by
  have hcurrent := hw.current
  cases h
  case create =>
    intro j s hcur
    have hold := hcurrent j s
    simp only [create, setSocket, Function.update_apply] at hcur ⊢
    grind
  case dropConnect i =>
    intro j s hcur
    have hold := hcurrent j s
    simp only [dropConnect, Function.update_apply] at hcur ⊢
    grind
  case clearSockfd i s _ _ =>
    intro j s' hcur
    have hold := hcurrent j s'
    simp only [clearSockfd, setSocket, Function.update_apply] at hcur ⊢
    grind
  case putSockfd i s hi hs howner hnew hheld =>
    intro j s' hcur
    have hold := hcurrent j s'
    simp only [putSockfd, log, setSfd, setSocket, Function.update_apply] at hcur ⊢
    grind
  case startConnect i timeoutMs now hi hidle _ =>
    intro j s hcur
    have hold := hcurrent j s
    simp only [startConnect, Function.update_apply] at hcur ⊢
    grind
  case opened fd hfree =>
    intro j s hcur
    have hold := hcurrent j s hcur
    have hbound := hw.openLive s
    simp only [World.opened, Function.update_apply]
    grind
  case makeSfd s type i attempt hs hi =>
    intro j s' hcur
    have hold := hcurrent j s' hcur
    have hdead := hw.loose_dead hs
    simp only [makeSfd, Function.update_apply]
    grind
  case destroySfd s rest hrest hsfds hgone hatt hhandler =>
    intro j s' hcur
    rw [destroySfd_sockets] at hcur
    have hold := hcurrent j s' hcur
    rw [destroySfd_sfds, Function.update_apply]
    dsimp only [popSfds] at hcur ⊢
    grind
  case killSock i rest _ _ hidle _ _ =>
    intro j s hcur
    have hold := hcurrent j s
    simp only [killSock, popSocks, log, setSocket, Function.update_apply] at hcur ⊢
    grind
  case dropUserRef i =>
    intro j s hcur
    have hold := hcurrent j s
    simp only [dropUserRef, setSocket, Function.update_apply] at hcur ⊢
    grind
  case markAttached s _ _ =>
    intro j s' hcur
    have hold := hcurrent j s' hcur
    simp only [markAttached, setSfd, Function.update_apply]
    grind
  case setConnected s =>
    intro j s' hcur
    have hold := hcurrent j s' hcur
    simp only [setConnected, setSfd, Function.update_apply]
    grind
  case runAppend i s buf tasks _ _ _ _ =>
    exact (runAppend_same (w.pop tasks) i s buf).current hcurrent
  case writeable i s env _ _ _ => exact (writeable_same w i s env).current hcurrent
  case allocReadBuf i udp => exact (allocReadBuf_same w i udp).current hcurrent
  all_goals exact hcurrent

theorem micro_referred (h : Micro d w w') (hw : w.WF) : w'.Referred := by
  have hreferred := hw.referred
  cases h
  case create =>
    intro s hs
    have hold := hreferred s hs
    have hcur := hw.current w.nextSock s
    simp only [create, setSocket, Function.update_apply]
    have hbound := hw.sockBound w.nextSock
    have hdead := hw.deadIdle w.nextSock
    grind [Idle]
  case dropConnect i =>
    intro s hs
    have hold := hreferred s hs
    simp only [dropConnect, Function.update_apply]
    grind
  case clearSockfd i s hcur hheld =>
    intro s' hs'
    have hold := hreferred s' hs'
    simp only [clearSockfd, setSocket, Function.update_apply]
    grind
  case putSockfd i s hi hs howner hnew hheld =>
    intro s' hs'
    have hold := hreferred s'
    simp only [putSockfd, log, setSfd, setSocket, Function.update_apply] at hs' ⊢
    grind
  case startConnect i timeoutMs now hi hidle _ =>
    intro s hs
    have hold := hreferred s hs
    simp only [startConnect, Function.update_apply]
    grind
  case opened fd hfree =>
    intro s hs
    have hold := hreferred s
    simp only [World.opened, Function.update_apply] at hs ⊢
    grind
  case makeSfd s type i attempt hs hi =>
    intro s' hs'
    have hold := hreferred s'
    simp only [makeSfd, Function.update_apply] at hs' ⊢
    grind
  case lock i s hlocals hi hcur =>
    intro s' hs'
    have hold := hreferred s' hs'
    simp only [World.lock]
    grind
  case holdSfd s hs =>
    intro s' hs'
    have hold := hreferred s' hs'
    simp only [World.holdSfd]
    grind
  case popSfds s rest hsfds hkeep hatt hhandler =>
    intro s' hs'
    have hold := hreferred s' hs'
    simp only [World.popSfds]
    grind
  case destroySfd s rest hrest hsfds hgone hatt hhandler =>
    intro s' hs'
    have hold := hreferred s'
    rw [destroySfd_sfds, Function.update_apply] at hs' ⊢
    rw [destroySfd_sockets, destroySfd_locals]
    dsimp only [World.popSfds] at hs' ⊢
    grind
  case killSock i rest _ _ hidle _ _ =>
    intro s hs
    have hold := hreferred s hs
    simp only [World.killSock, World.popSocks, log, setSocket, Function.update_apply]
    grind
  case dropUserRef i =>
    intro s hs
    have hold := hreferred s hs
    simp only [dropUserRef, setSocket, Function.update_apply]
    grind
  case markAttached s _ _ =>
    intro s' hs'
    have hold := hreferred s'
    simp only [markAttached, setSfd, Function.update_apply] at hs' ⊢
    grind
  case setConnected s =>
    intro s' hs'
    have hold := hreferred s'
    simp only [setConnected, setSfd, Function.update_apply] at hs' ⊢
    grind
  case runAppend i s buf tasks _ _ _ _ =>
    exact (runAppend_same (w.pop tasks) i s buf).referred (by rw [runAppend_locals])
      hreferred
  case writeable i s env _ _ _ =>
    exact (writeable_same w i s env).referred (by rw [writeable_locals]) hreferred
  case allocReadBuf i udp =>
    exact (allocReadBuf_same w i udp).referred (by rw [allocReadBuf_locals]) hreferred
  all_goals exact hreferred

theorem micro_localsLive (h : Micro d w w') (hw : w.WF) : w'.LocalsLive := by
  have hlive := hw.localsLive
  obtain ⟨hsfds, hatt, hsocks⟩ := id hlive
  cases h
  case create =>
    refine ⟨hsfds, hatt, fun i hi => ?_⟩
    have hold := hsocks i hi
    simp only [World.create, setSocket, Function.update_apply]
    grind
  case dropConnect i =>
    refine ⟨hsfds, hatt, fun j hj => ?_⟩
    have hold := hsocks j hj
    simp only [World.dropConnect, Function.update_apply]
    grind
  case clearSockfd i s _ _ =>
    refine ⟨hsfds, hatt, fun j hj => ?_⟩
    have hold := hsocks j hj
    simp only [World.clearSockfd, setSocket, Function.update_apply]
    grind
  case putSockfd i s hi hs howner hnew hheld =>
    refine ⟨fun s' hs' => ?_, hatt, fun j hj => ?_⟩
    · have hold := hsfds s' hs'
      simp only [World.putSockfd, log, setSfd, setSocket, Function.update_apply]
      grind
    · have hold := hsocks j hj
      simp only [World.putSockfd, log, setSfd, setSocket, Function.update_apply]
      grind
  case startConnect i timeoutMs now hi hidle _ =>
    refine ⟨hsfds, hatt, fun j hj => ?_⟩
    have hold := hsocks j hj
    simp only [World.startConnect, Function.update_apply]
    grind
  case opened fd hfree =>
    refine ⟨fun s hs => ?_, hatt, hsocks⟩
    have hold := hsfds s hs
    have hbound := hw.openLive s hold
    simp only [World.opened, Function.update_apply]
    grind
  case makeSfd s type i attempt hs hi =>
    refine ⟨fun s' hs' => ?_, fun s' hs' => ?_, hsocks⟩
    · have hold := hsfds s'
      simp only [World.makeSfd, Function.update_apply] at hs' ⊢
      grind
    · have hold := hatt s'
      simp only [World.makeSfd] at hs' ⊢
      grind
  case lock i s hlocals hi hcur =>
    have hs := hw.current i s hcur
    simp only [World.lock, hlocals, LocalsLive]
    grind
  case holdSfd s hs =>
    simp only [World.holdSfd, LocalsLive]
    grind
  case holdSock i hi =>
    simp only [World.holdSock, LocalsLive]
    grind
  case popSfds s rest hsfds' hkeep hatt' hhandler =>
    simp only [World.popSfds, LocalsLive]
    grind
  case destroySfd s rest hrest hsfds' hgone hatt' hhandler =>
    unfold LocalsLive
    rw [destroySfd_sfds, destroySfd_sockets, destroySfd_locals]
    simp only [World.popSfds, Function.update_apply]
    grind
  case popSocks i rest hsocks' hhandler =>
    simp only [World.popSocks, LocalsLive]
    grind
  case killSock i rest hrest hsocks' hidle hconn hhandler =>
    simp only [World.killSock, World.popSocks, log, setSocket, LocalsLive, Function.update_apply]
    grind
  case dropUserRef i =>
    refine ⟨hsfds, hatt, fun j hj => ?_⟩
    have hold := hsocks j hj
    simp only [World.dropUserRef, setSocket, Function.update_apply]
    grind
  case register s cb event ctlOk hs hcb _ =>
    exact ⟨hsfds, fun s' hs' => hatt s' (List.mem_of_mem_erase hs'), hsocks⟩
  case unregister i a s hheld hreg =>
    simp only [World.unregister, LocalsLive]
    grind
  case markAttached s _ _ =>
    refine ⟨fun s' hs' => ?_, hatt, hsocks⟩
    have hold := hsfds s' hs'
    simp only [World.markAttached, setSfd, Function.update_apply]
    grind
  case setConnected s =>
    refine ⟨fun s' hs' => ?_, hatt, hsocks⟩
    have hold := hsfds s' hs'
    simp only [World.setConnected, setSfd, Function.update_apply]
    grind
  case logAcceptThrew p _ =>
    exact ⟨hsfds, fun s' hs' => hatt s' (List.mem_of_mem_erase hs'), hsocks⟩
  case runAppend i s buf tasks _ _ _ _ =>
    exact (runAppend_same (w.pop tasks) i s buf).localsLive (by rw [runAppend_locals])
      (by rw [runAppend_locals]) (by rw [runAppend_locals]) hlive
  case writeable i s env _ _ _ =>
    exact (writeable_same w i s env).localsLive (by rw [writeable_locals])
      (by rw [writeable_locals]) (by rw [writeable_locals]) hlive
  case allocReadBuf i udp =>
    exact (allocReadBuf_same w i udp).localsLive (by rw [allocReadBuf_locals])
      (by rw [allocReadBuf_locals]) (by rw [allocReadBuf_locals]) hlive
  all_goals exact hlive

theorem micro_handlerLive (h : Micro d w w') (hw : w.WF) : w'.HandlerLive := by
  have hhandlerLive := hw.handlerLive
  cases h
  case putSockfd i s hi hs howner hnew hheld =>
    intro j s' hhandler
    have hold := hhandlerLive j s' hhandler
    simp only [World.putSockfd, log, setSfd, setSocket, Function.update_apply]
    grind
  case opened fd hfree =>
    intro j s hhandler
    have hold := hhandlerLive j s hhandler
    have hlive := hw.localsLive.1 s hold.1
    have hbound := hw.openLive s hlive
    simp only [World.opened, Function.update_apply]
    grind
  case makeSfd s type i attempt hs hi =>
    intro j s' hhandler
    have hold := hhandlerLive j s' hhandler
    have hlive := hw.localsLive.1 s' hold.1
    have hdead := hw.loose_dead hs
    simp only [World.makeSfd, Function.update_apply]
    grind
  case lock i s hlocals hi hcur =>
    have hs := hw.current i s hcur
    simp only [World.lock, hlocals, HandlerLive]
    grind
  case unlock =>
    intro j s hhandler
    cases hhandler
  case holdSfd s hs =>
    intro j s' hhandler
    have hold := hhandlerLive j s' hhandler
    simp only [World.holdSfd]
    grind
  case holdSock i hi =>
    intro j s' hhandler
    have hold := hhandlerLive j s' hhandler
    simp only [World.holdSock]
    grind
  case popSfds s rest hsfds hkeep hatt hhandler =>
    intro j s' hjs
    have hold := hhandlerLive j s' hjs
    have hrest := hhandler (j, s') hjs
    exact ⟨hrest, hold.2⟩
  case destroySfd s rest hrest hsfds hgone hatt hhandler =>
    intro j s' hjs
    rw [destroySfd_locals] at hjs ⊢
    rw [destroySfd_sfds, Function.update_apply]
    have hold := hhandlerLive j s' hjs
    have hin := hhandler (j, s') hjs
    dsimp only [World.popSfds]
    grind
  case popSocks i rest hsocks hhandler =>
    intro j s' hjs
    have hold := hhandlerLive j s' hjs
    have hrest := hhandler (j, s') hjs
    exact ⟨hold.1, hrest, hold.2.2⟩
  case killSock i rest hrest hsocks hidle hconn hhandler =>
    intro j s' hjs
    have hold := hhandlerLive j s' hjs
    have hin := hhandler (j, s') hjs
    exact ⟨hold.1, hin, hold.2.2⟩
  case markAttached s _ _ =>
    intro j s' hhandler
    have hold := hhandlerLive j s' hhandler
    simp only [World.markAttached, setSfd, Function.update_apply]
    grind
  case setConnected s =>
    intro j s' hhandler
    have hold := hhandlerLive j s' hhandler
    simp only [World.setConnected, setSfd, Function.update_apply]
    grind
  case runAppend i s buf tasks _ _ _ _ =>
    unfold HandlerLive
    rw [runAppend_locals, (runAppend_same (w.pop tasks) i s buf).sfds]
    exact hhandlerLive
  case writeable i s env _ _ _ =>
    unfold HandlerLive
    rw [writeable_locals, (writeable_same w i s env).sfds]
    exact hhandlerLive
  case allocReadBuf i udp =>
    unfold HandlerLive
    rw [allocReadBuf_locals, (allocReadBuf_same w i udp).sfds]
    exact hhandlerLive
  all_goals exact hhandlerLive

theorem idle_iff {i : SockId} :
    w.Idle i ↔ (w.sockets i).connectTimer = none ∧ (w.sockets i).asyncConnectCb = none ∧
      (w.sockets i).sockfd = none :=
  ⟨fun h => ⟨h.connectTimer, h.asyncConnectCb, h.sockfd⟩, fun h => ⟨h.1, h.2.1, h.2.2⟩⟩

theorem micro_deadIdle (h : Micro d w w') (hw : w.WF) : w'.DeadIdle := by
  have hdead := hw.deadIdle
  unfold DeadIdle at hdead ⊢
  simp only [idle_iff] at hdead ⊢
  cases h
  case create =>
    intro j
    have hold := hdead j
    simp only [World.create, setSocket, Function.update_apply]
    grind
  case dropConnect i =>
    intro j
    have hold := hdead j
    simp only [World.dropConnect, Function.update_apply]
    grind
  case clearSockfd i s _ _ =>
    intro j
    have hold := hdead j
    simp only [World.clearSockfd, setSocket, Function.update_apply]
    grind
  case putSockfd i s hi hs howner hnew hheld =>
    intro j
    have hold := hdead j
    simp only [World.putSockfd, log, setSfd, setSocket, Function.update_apply]
    grind
  case startConnect i timeoutMs now hi hidle _ =>
    intro j
    have hold := hdead j
    simp only [World.startConnect, Function.update_apply]
    grind
  case destroySfd s rest hrest hsfds hgone hatt hhandler =>
    rw [destroySfd_sockets]
    exact hdead
  case killSock i rest hrest hsocks hidle hconn hhandler =>
    intro j
    have hold := hdead j
    rw [idle_iff] at hidle
    simp only [World.killSock, World.popSocks, log, setSocket, Function.update_apply]
    grind
  case dropUserRef i =>
    intro j
    have hold := hdead j
    simp only [World.dropUserRef, setSocket, Function.update_apply]
    grind
  case runAppend i s buf tasks _ _ _ _ =>
    intro j
    obtain ⟨q, r, hq⟩ := (runAppend_same (w.pop tasks) i s buf).sockets j
    rw [hq]
    exact hdead j
  case writeable i s env _ _ _ =>
    intro j
    obtain ⟨q, r, hq⟩ := (writeable_same w i s env).sockets j
    rw [hq]
    exact hdead j
  case allocReadBuf i udp =>
    intro j
    obtain ⟨q, r, hq⟩ := (allocReadBuf_same w i udp).sockets j
    rw [hq]
    exact hdead j
  all_goals exact hdead

theorem micro_sockBound (h : Micro d w w') (hw : w.WF) : w'.SockBound := by
  have hbound := hw.sockBound
  cases h
  case create =>
    intro j
    have hold := hbound j
    simp only [World.create, setSocket, Function.update_apply]
    grind
  case dropConnect i =>
    intro j
    have hold := hbound j
    simp only [World.dropConnect, Function.update_apply]
    grind
  case clearSockfd i s _ _ =>
    intro j
    have hold := hbound j
    simp only [World.clearSockfd, setSocket, Function.update_apply]
    grind
  case putSockfd i s hi hs howner hnew hheld =>
    intro j
    have hold := hbound j
    simp only [World.putSockfd, log, setSfd, setSocket, Function.update_apply]
    grind
  case startConnect i timeoutMs now hi hidle _ =>
    intro j
    have hold := hbound j
    simp only [World.startConnect, Function.update_apply]
    grind
  case destroySfd s rest hrest hsfds hgone hatt hhandler =>
    unfold SockBound
    rw [destroySfd_sockets, (destroySfd_same _ _).nextSock]
    exact hbound
  case killSock i rest hrest hsocks hidle hconn hhandler =>
    intro j
    have hold := hbound j
    simp only [World.killSock, World.popSocks, log, setSocket, Function.update_apply]
    grind
  case dropUserRef i =>
    intro j
    have hold := hbound j
    simp only [World.dropUserRef, setSocket, Function.update_apply]
    grind
  case runAppend i s buf tasks _ _ _ _ =>
    have hsame := runAppend_same (w.pop tasks) i s buf
    intro j
    obtain ⟨q, r, hq⟩ := hsame.sockets j
    rw [hq, hsame.nextSock]
    exact hbound j
  case writeable i s env _ _ _ =>
    have hsame := writeable_same w i s env
    intro j
    obtain ⟨q, r, hq⟩ := hsame.sockets j
    rw [hq, hsame.nextSock]
    exact hbound j
  case allocReadBuf i udp =>
    have hsame := allocReadBuf_same w i udp
    intro j
    obtain ⟨q, r, hq⟩ := hsame.sockets j
    rw [hq, hsame.nextSock]
    exact hbound j
  all_goals exact hbound

/-! ## Descriptors without a `SocketFD` -/

theorem loose_of_plain {t : SocketTask} (ht : t.Plain) : t.loose = none := by
  cases t with
  | connected i a fd =>
      cases fd with
      | none => rfl
      | some s => exact ht.elim
  | _ => rfl

theorem looseFds_post {t : SocketTask} (ht : t.loose = none) (first : Bool) :
    (w.post t first).looseFds = w.looseFds := by
  cases first <;>
    simp [looseFds, World.post, EventPoller.async, ht, List.filterMap_append]

theorem looseFds_pop {t : SocketTask} {tasks : List SocketTask}
    (hswap : w.swapList = t :: tasks) (ht : t.loose = none) :
    (w.pop tasks).looseFds = w.looseFds := by
  simp [looseFds, World.pop, hswap, ht, List.filterMap_append]

theorem looseFds_destroySfd (w : World) (s : SfdId) :
    (w.destroySfd s).looseFds = w.looseFds := by
  simp only [looseFds, (destroySfd_same w s).swapList, destroySfd_locals, destroySfd_poller,
    EventPoller.taskList_delEvent]

theorem LooseOpen.of_perm {w₀ : World} (h : w₀.LooseOpen)
    (hperm : w₀.looseFds.Perm w.looseFds)
    (hsame : ∀ s ∈ w₀.looseFds, (w.sfds s).alive = (w₀.sfds s).alive ∧
      (w.sfds s).installed = (w₀.sfds s).installed ∧
      w.openFds (w.sfds s).fd = w₀.openFds (w₀.sfds s).fd)
    (hnext : w₀.nextSfd ≤ w.nextSfd) : w.LooseOpen := by
  refine ⟨hperm.nodup_iff.1 h.1, fun s hs => ?_⟩
  rw [← hperm.mem_iff] at hs
  obtain ⟨halive, hinst, hopen⟩ := hsame s hs
  obtain ⟨h1, h2, h3, h4⟩ := h.2 s hs
  rw [halive, hinst, hopen]
  exact ⟨h1, h2, h3, lt_of_lt_of_le h4 hnext⟩

theorem LooseOpen.of_erase {w₀ : World} (h : w₀.LooseOpen) {s : SfdId}
    (hs : s ∈ w₀.locals.fds) (hfds : w.locals.fds = w₀.locals.fds.erase s)
    (htasks : w.poller.taskList = w₀.poller.taskList) (hswap : w.swapList = w₀.swapList)
    (hsame : ∀ s' ∈ w₀.looseFds, s' ≠ s → w.sfds s' = w₀.sfds s' ∧
      w.openFds (w.sfds s').fd = w₀.openFds (w₀.sfds s').fd)
    (hnext : w.nextSfd = w₀.nextSfd) : w.LooseOpen := by
  have herase : w.looseFds = w₀.looseFds.erase s := by
    rw [looseFds, hfds, htasks, hswap, looseFds, List.erase_append_left _ hs]
  refine ⟨by rw [herase]; exact h.1.erase s, fun s' hs' => ?_⟩
  rw [herase, h.1.mem_erase_iff] at hs'
  obtain ⟨hne, hin⟩ := hs'
  obtain ⟨hsfd, hopen⟩ := hsame s' hin hne
  have hold := h.2 s' hin
  rw [hopen, hsfd, hnext]
  exact hold

theorem SameButQueue.looseOpen (h : SameButQueue w w') (hfds : w'.locals.fds = w.locals.fds)
    (hloose : w.LooseOpen) : w'.LooseOpen := by
  unfold LooseOpen looseFds
  rw [hfds, h.taskList, h.swapList, h.sfds, h.openFds, h.nextSfd]
  exact hloose

theorem micro_looseOpen (h : Micro d w w') (hw : w.WF) : w'.LooseOpen := by
  have hloose := hw.looseOpen
  cases h
  case putSockfd i s hi hs howner hnew hheld =>
    refine hloose.of_perm (List.Perm.refl _) (fun s' hs' => ?_) (le_refl _)
    have hdead := (hloose.2 s' hs').1
    simp only [World.putSockfd, log, setSfd, setSocket, Function.update_apply]
    grind
  case opened fd hfree =>
    refine ⟨List.nodup_cons.2 ⟨fun hin => ?_, hloose.1⟩, fun s hs => ?_⟩
    · exact absurd (hloose.2 _ hin).2.2.2 (lt_irrefl _)
    · have hold := hloose.2 s
      simp only [World.opened, Function.update_apply, looseFds] at hs ⊢
      grind [looseFds]
  case makeSfd s type i attempt hs hi =>
    refine hloose.of_erase hs rfl rfl rfl (fun s' _ hne => ?_) rfl
    simp only [World.makeSfd, Function.update_apply]
    grind
  case closeLoose s hs =>
    refine hloose.of_erase hs rfl rfl rfl (fun s' hs' hne => ⟨rfl, ?_⟩) rfl
    have hown := hloose.2 s (List.mem_append_left _ hs)
    have hother := hloose.2 s' hs'
    simp only [World.closeLoose, closeFd, Function.update_apply]
    grind
  case postConnected i a s hs =>
    refine hloose.of_perm ?_ (fun s' _ => ⟨rfl, rfl, rfl⟩) (le_refl _)
    have hperm := List.perm_cons_erase hs
    simp only [looseFds, World.post, EventPoller.async, List.filterMap_append,
      List.filterMap_cons, SocketTask.loose, Bool.false_eq_true, if_false,
      List.append_assoc, List.cons_append, List.nil_append]
    refine (hperm.append_right _).trans ?_
    rw [List.cons_append, ← List.append_assoc, ← List.append_assoc]
    exact List.perm_middle.symm
  case post t first ht =>
    unfold LooseOpen
    rw [looseFds_post (loose_of_plain ht)]
    exact hloose
  case postAppend i s buf hne horigin hi hcur =>
    have hfds := looseFds_post (w := w) (t := .append i s buf) rfl true
    exact hloose.of_perm (List.Perm.of_eq hfds.symm) (fun s' _ => ⟨rfl, rfl, rfl⟩) (le_refl _)
  case startConnect i timeoutMs now hi hidle _ =>
    refine hloose.of_perm (List.Perm.of_eq ?_) (fun s' _ => ⟨rfl, rfl, rfl⟩) (le_refl _)
    simp [looseFds, World.startConnect, EventPoller.async, List.filterMap_append,
      List.filterMap_cons, SocketTask.loose]
  case swap hnil =>
    refine hloose.of_perm (List.Perm.of_eq ?_) (fun s' _ => ⟨rfl, rfl, rfl⟩) (le_refl _)
    simp [looseFds, hnil]
  case pop t tasks ht hswap =>
    unfold LooseOpen
    rw [looseFds_pop hswap (loose_of_plain ht)]
    exact hloose
  case popConnected i a s tasks hswap =>
    refine hloose.of_perm ?_ (fun s' _ => ⟨rfl, rfl, rfl⟩) (le_refl _)
    simp only [looseFds, World.pop, hswap, List.filterMap_append, List.filterMap_cons,
      SocketTask.loose, List.cons_append]
    rw [← List.append_assoc, ← List.append_assoc]
    exact List.perm_middle
  case runAppend i s buf tasks hswap hlocals hi hs =>
    refine (runAppend_same (w.pop tasks) i s buf).looseOpen (by rw [runAppend_locals]) ?_
    unfold LooseOpen
    rw [looseFds_pop hswap rfl]
    exact hloose
  case dropAppend i s buf tasks hswap hgone =>
    unfold LooseOpen
    rw [looseFds_pop hswap rfl]
    exact hloose
  case destroySfd s rest hrest hsfds hgone hatt hhandler =>
    have hsame := destroySfd_same (w.popSfds rest) s
    have hlive := hw.head_alive hsfds
    have hown := hw.openLive s hlive
    have hfds : ((w.popSfds rest).destroySfd s).looseFds = w.looseFds := looseFds_destroySfd _ s
    refine hloose.of_perm (List.Perm.of_eq hfds.symm) (fun s' hs' => ?_)
      (le_of_eq hsame.nextSfd.symm)
    have hother := hloose.2 s' hs'
    rw [destroySfd_openFds, destroySfd_sfds]
    simp only [World.popSfds, Function.update_apply]
    grind [Function.update_apply]
  case register s cb event ctlOk hs hcb _ =>
    refine hloose.of_perm (List.Perm.of_eq ?_) (fun s' _ => ⟨rfl, rfl, rfl⟩) (le_refl _)
    simp [looseFds, World.register]
  case unregister i a s hheld hreg =>
    refine hloose.of_perm (List.Perm.of_eq ?_) (fun s' _ => ⟨rfl, rfl, rfl⟩) (le_refl _)
    simp [looseFds, World.unregister]
  case markAttached s _ hreg =>
    refine hloose.of_perm (List.Perm.refl _) (fun s' hs' => ?_) (le_refl _)
    simp only [World.markAttached, setSfd, Function.update_apply]
    grind
  case setConnected s =>
    refine hloose.of_perm (List.Perm.refl _) (fun s' hs' => ?_) (le_refl _)
    simp only [World.setConnected, setSfd, Function.update_apply]
    grind
  case writeable i s env _ _ _ =>
    exact (writeable_same w i s env).looseOpen (by rw [writeable_locals]) hloose
  case allocReadBuf i udp =>
    exact (allocReadBuf_same w i udp).looseOpen (by rw [allocReadBuf_locals]) hloose
  all_goals exact hloose

/-! ## What is fixed once a `SocketFD` is made -/

theorem WF.made (hw : w.WF) {s : SfdId} (hs : (w.sfds s).alive) : w.Made s := by
  refine ⟨(hw.openLive s hs).2, fun hin => ?_⟩
  have hdead := (hw.looseOpen.2 s hin).1
  rw [hs] at hdead
  cases hdead

theorem SameButQueue.looseFds_eq (h : SameButQueue w w')
    (hfds : w'.locals.fds = w.locals.fds) : w'.looseFds = w.looseFds := by
  rw [looseFds, hfds, h.taskList, h.swapList, looseFds]

/-- A descriptor becomes loose when it is opened, and is not loose any more when its
`SocketFD` is made or it is closed. -/
theorem micro_looseFds (h : Micro d w w') (s : SfdId) :
    (s ∈ w'.looseFds ↔ s ∈ w.looseFds) ∨
    (s = w.nextSfd ∧ ∃ fd, w' = w.opened fd) ∨
    (s ∈ w.locals.fds ∧
      ((∃ type i attempt, w' = w.makeSfd s type i attempt) ∨ w' = w.closeLoose s)) := by
  cases h
  case opened fd hfree =>
    by_cases hs : s = w.nextSfd
    · exact .inr (.inl ⟨hs, fd, rfl⟩)
    · left
      simp [looseFds, World.opened, hs]
  case makeSfd s' type i attempt hs' hi =>
    by_cases hs : s = s'
    · subst hs
      exact .inr (.inr ⟨hs', .inl ⟨type, i, attempt, rfl⟩⟩)
    · left
      simp [looseFds, World.makeSfd, List.mem_erase_of_ne hs]
  case closeLoose s' hs' =>
    by_cases hs : s = s'
    · subst hs
      exact .inr (.inr ⟨hs', .inr rfl⟩)
    · left
      simp [looseFds, World.closeLoose, closeFd, List.mem_erase_of_ne hs]
  case postConnected i a s' hs' =>
    left
    by_cases hs : s = s'
    · subst hs
      simp [looseFds, World.post, EventPoller.async, SocketTask.loose, hs']
    · simp [looseFds, World.post, EventPoller.async, SocketTask.loose,
        List.mem_erase_of_ne hs, hs]
  case post t first ht =>
    left
    rw [looseFds_post (loose_of_plain ht)]
  case postAppend i s' buf hne horigin hi hcur =>
    left
    have heq := looseFds_post (w := w) (t := .append i s' buf) rfl true
    exact iff_of_eq (congrArg (s ∈ ·) heq)
  case startConnect i timeoutMs now hi hidle _ =>
    left
    simp [looseFds, World.startConnect, EventPoller.async, List.filterMap_append,
      List.filterMap_cons, SocketTask.loose]
  case swap hnil =>
    left
    simp [looseFds, hnil]
  case pop t tasks ht hswap =>
    left
    rw [looseFds_pop hswap (loose_of_plain ht)]
  case popConnected i a s' tasks hswap =>
    left
    simp only [looseFds, World.pop, hswap, List.filterMap_append, List.filterMap_cons,
      SocketTask.loose, List.mem_append, List.mem_cons]
    tauto
  case runAppend i s' buf tasks hswap hlocals hi hs' =>
    left
    rw [(runAppend_same (w.pop tasks) i s' buf).looseFds_eq (by rw [runAppend_locals]),
      looseFds_pop hswap rfl]
  case dropAppend i s' buf tasks hswap hgone =>
    left
    rw [looseFds_pop hswap rfl]
  case destroySfd s' rest hrest hsfds hgone hatt hhandler =>
    left
    rw [looseFds_destroySfd]
    exact Iff.rfl
  case register s' cb event ctlOk hs' hcb _ =>
    left
    simp [looseFds, World.register]
  case unregister i a s' hheld hreg =>
    left
    simp [looseFds, World.unregister]
  case writeable i s' env _ _ _ =>
    left
    rw [(writeable_same w i s' env).looseFds_eq (by rw [writeable_locals])]
  case allocReadBuf i udp =>
    left
    rw [(allocReadBuf_same w i udp).looseFds_eq (by rw [allocReadBuf_locals])]
  all_goals exact .inl Iff.rfl

/-- What a `SocketFD` was made with. -/
structure SameMade (f f' : SocketFD) : Prop where
  fd : f'.fd = f.fd
  type : f'.type = f.type
  owner : f'.owner = f.owner
  attempt : f'.attempt = f.attempt
  installed : f.installed → f'.installed

theorem SameMade.refl (f : SocketFD) : SameMade f f := ⟨rfl, rfl, rfl, rfl, id⟩

theorem micro_nextSfd (h : Micro d w w') :
    w'.nextSfd = w.nextSfd ∨ ∃ fd, w' = w.opened fd := by
  cases h
  case opened fd hfree => exact .inr ⟨fd, rfl⟩
  case destroySfd s rest _ _ _ _ _ => exact .inl (destroySfd_same (w.popSfds rest) s).nextSfd
  case runAppend i s buf tasks _ _ _ _ =>
    exact .inl (runAppend_same (w.pop tasks) i s buf).nextSfd
  case writeable i s env _ _ _ => exact .inl (writeable_same w i s env).nextSfd
  case allocReadBuf i udp => exact .inl (allocReadBuf_same w i udp).nextSfd
  all_goals exact .inl rfl

theorem micro_nextSfd_le (h : Micro d w w') : w.nextSfd ≤ w'.nextSfd := by
  rcases micro_nextSfd h with hsame | ⟨fd, rfl⟩
  · exact hsame.ge
  · exact Nat.le_succ _

theorem micro_sameMade (h : Micro d w w') {s : SfdId} (hm : w.Made s) :
    SameMade (w.sfds s) (w'.sfds s) := by
  cases h
  case opened fd hfree =>
    have hne : s ≠ w.nextSfd := Nat.ne_of_lt hm.1
    simp only [World.opened, Function.update_of_ne hne]
    exact .refl _
  case makeSfd s' type i attempt hs' hi =>
    have hne : s ≠ s' := fun heq => hm.2 (List.mem_append_left _ (heq ▸ hs'))
    simp only [World.makeSfd, Function.update_of_ne hne]
    exact .refl _
  case putSockfd i s' _ _ _ _ _ =>
    simp only [World.putSockfd, log, setSfd, setSocket, Function.update_apply]
    split
    · next heq => rw [heq]; exact ⟨rfl, rfl, rfl, rfl, fun _ => rfl⟩
    · exact .refl _
  case destroySfd s' rest _ _ _ _ _ =>
    rw [destroySfd_sfds, Function.update_apply]
    split
    · next heq => rw [heq]; exact ⟨rfl, rfl, rfl, rfl, id⟩
    · exact .refl _
  case markAttached s' _ _ =>
    simp only [World.markAttached, setSfd, Function.update_apply]
    split
    · next heq => rw [heq]; exact ⟨rfl, rfl, rfl, rfl, id⟩
    · exact .refl _
  case setConnected s' =>
    simp only [World.setConnected, setSfd, Function.update_apply]
    split
    · next heq => rw [heq]; exact ⟨rfl, rfl, rfl, rfl, id⟩
    · exact .refl _
  case runAppend i s' buf tasks _ _ _ _ =>
    rw [(runAppend_same (w.pop tasks) i s' buf).sfds]
    exact .refl _
  case writeable i s' env _ _ _ =>
    rw [(writeable_same w i s' env).sfds]
    exact .refl _
  case allocReadBuf i udp =>
    rw [(allocReadBuf_same w i udp).sfds]
    exact .refl _
  all_goals exact .refl _

theorem micro_made (h : Micro d w w') {s : SfdId} (hm : w.Made s) : w'.Made s := by
  refine ⟨lt_of_lt_of_le hm.1 (micro_nextSfd_le h), fun hin => ?_⟩
  rcases micro_looseFds h s with hsame | ⟨rfl, -⟩ | ⟨hfds, -⟩
  · exact hm.2 (hsame.1 hin)
  · exact absurd hm.1 (lt_irrefl _)
  · exact hm.2 (List.mem_append_left _ hfds)

theorem SameMade.trans {f f' f'' : SocketFD} (h : SameMade f f') (h' : SameMade f' f'') :
    SameMade f f'' where
  fd := h'.fd.trans h.fd
  type := h'.type.trans h.type
  owner := h'.owner.trans h.owner
  attempt := h'.attempt.trans h.attempt
  installed := fun hi => h'.installed (h.installed hi)

theorem Steps.sameMade (h : Steps d w w') {s : SfdId} (hm : w.Made s) :
    w'.Made s ∧ SameMade (w.sfds s) (w'.sfds s) := by
  induction h with
  | refl => exact ⟨hm, .refl _⟩
  | tail _ hstep ih =>
      exact ⟨micro_made hstep ih.1, ih.2.trans (micro_sameMade hstep ih.1)⟩

/-! ## The tasks of `send` -/

theorem mem_tasks_post {t t' : SocketTask} {first : Bool} (h : t ∈ (w.post t' first).tasks) :
    t ∈ w.tasks ∨ t = t' := by
  cases first <;>
    simp only [tasks, World.post, EventPoller.async, Bool.false_eq_true, if_false, if_true,
      List.mem_append, List.mem_cons, List.not_mem_nil, or_false] at h ⊢ <;> tauto

theorem SameButQueue.tasks_eq (h : SameButQueue w w') : w'.tasks = w.tasks := by
  rw [tasks, h.swapList, h.taskList, tasks]

theorem tasks_pop {t : SocketTask} {rest : List SocketTask} (hswap : w.swapList = t :: rest) :
    w.tasks = t :: (w.pop rest).tasks := by
  simp [tasks, World.pop, hswap]

theorem tasks_destroySfd (w : World) (s : SfdId) : (w.destroySfd s).tasks = w.tasks := by
  simp only [tasks, (destroySfd_same w s).swapList, destroySfd_poller,
    EventPoller.taskList_delEvent]

theorem micro_append_mem (h : Micro d w w') {i : SockId} {s : SfdId} {buf : Buffer Byte}
    (hin : .append i s buf ∈ w'.tasks) :
    .append i s buf ∈ w.tasks ∨
      ((w.sockets i).sockfd = some s ∧ buf.data ≠ [] ∧ (∀ b ∈ buf.data, b.origin = s) ∧
        w' = w.postAppend i s buf) := by
  cases h
  case postConnected i' a s' hs' =>
    rcases mem_tasks_post hin with hin | heq
    · exact .inl hin
    · cases heq
  case post t first ht =>
    rcases mem_tasks_post hin with hin | rfl
    · exact .inl hin
    · exact ht.elim
  case postAppend i' s' buf' hne horigin hi hcur =>
    rcases mem_tasks_post (show _ ∈ (w.post _ true).tasks from hin) with hin | heq
    · exact .inl hin
    · cases heq
      exact .inr ⟨hcur, hne, horigin, rfl⟩
  case startConnect i' timeoutMs now hi hidle _ =>
    left
    simpa [tasks, World.startConnect, EventPoller.async] using hin
  case swap hnil =>
    left
    simpa [tasks, hnil] using hin
  case pop t rest ht hswap =>
    rw [tasks_pop hswap]
    exact .inl (List.mem_cons_of_mem _ hin)
  case popConnected i' a s' rest hswap =>
    rw [tasks_pop hswap]
    exact .inl (List.mem_cons_of_mem _ hin)
  case runAppend i' s' buf' rest hswap hlocals hi hs' =>
    rw [(runAppend_same (w.pop rest) i' s' buf').tasks_eq] at hin
    rw [tasks_pop hswap]
    exact .inl (List.mem_cons_of_mem _ hin)
  case dropAppend i' s' buf' rest hswap hgone =>
    rw [tasks_pop hswap]
    exact .inl (List.mem_cons_of_mem _ hin)
  case destroySfd s' rest hrest hsfds hgone hatt hhandler =>
    rw [tasks_destroySfd] at hin
    exact .inl hin
  case register s' cb event ctlOk hs' hcb _ =>
    left
    simpa [tasks, World.register] using hin
  case unregister i' a s' hheld hreg =>
    left
    simpa [tasks, World.unregister] using hin
  case writeable i' s' env _ _ _ =>
    rw [(writeable_same w i' s' env).tasks_eq] at hin
    exact .inl hin
  case allocReadBuf i' udp =>
    rw [(allocReadBuf_same w i' udp).tasks_eq] at hin
    exact .inl hin
  all_goals exact .inl hin

theorem micro_appendsOwned (h : Micro d w w') (hw : w.WF) : w'.AppendsOwned := by
  have hold : ∀ i s buf, .append i s buf ∈ w'.tasks →
      w.Made s ∧ (w.sfds s).owner = i ∧ (w.sfds s).installed ∧ buf.data ≠ [] ∧
        ∀ b ∈ buf.data, b.origin = s := by
    intro i s buf hin
    rcases micro_append_mem h hin with hin | ⟨hcur, hne, horigin, -⟩
    · exact hw.appendsOwned i s buf hin
    · have hlive := hw.current i s hcur
      exact ⟨hw.made hlive.1, hlive.2.1, hlive.2.2, hne, horigin⟩
  intro i s buf hin
  obtain ⟨hm, howner, hinst, hdata⟩ := hold i s buf hin
  have hsame := micro_sameMade h hm
  exact ⟨micro_made h hm, hsame.owner.trans howner, hsame.installed hinst, hdata⟩

/-! ## The invariant holds -/

theorem micro_wf (h : Micro d w w') (hw : w.WF) : w'.WF where
  agree := micro_agree h hw
  regLive := micro_regLive h hw
  openLive := micro_openLive h hw
  current := micro_current h hw
  referred := micro_referred h hw
  localsLive := micro_localsLive h hw
  handlerLive := micro_handlerLive h hw
  deadIdle := micro_deadIdle h hw
  sockBound := micro_sockBound h hw
  looseOpen := micro_looseOpen h hw
  appendsOwned := micro_appendsOwned h hw

theorem Steps.wf (h : Steps d w w') (hw : w.WF) : w'.WF :=
  h.invariant (fun _ _ hstep => micro_wf hstep) hw

theorem init_wf : ({} : World).WF where
  agree := fun _ => rfl
  regLive := fun _ _ h => by cases h
  openLive := fun _ h => by cases h
  current := fun _ _ h => by cases h
  referred := fun _ h => by cases h
  localsLive := by simp [LocalsLive]
  handlerLive := fun _ _ h => by cases h
  deadIdle := fun _ _ => ⟨rfl, rfl, rfl⟩
  sockBound := fun _ h => by cases h
  looseOpen := by simp [LooseOpen, looseFds]
  appendsOwned := fun _ _ _ h => by cases h

end World

end CommonLibrary.Net
