import CommonLibrary.Net.Socket
import CommonLibrary.Net.WellFormed

/-!
# The functions of `Socket` as sequences of atomic steps

Bottom up along the source: each function is shown to consist of atomic steps and to
leave the local variables of its callers as they were.
-/

namespace CommonLibrary.Net

open Foundation Poller

namespace World

variable {d : Bool} {w w' : World}

theorem Micro.steps (h : Micro d w w') : Steps d w w' := Relation.ReflTransGen.single h

theorem WF.handler_sfd (hw : w.WF) (p : SockId × SfdId) (hp : w.locals.handler = some p) :
    p.2 ∈ w.locals.sfds := (hw.handlerLive p.1 p.2 hp).1

theorem WF.handler_sock (hw : w.WF) (p : SockId × SfdId) (hp : w.locals.handler = some p) :
    p.1 ∈ w.locals.socks := (hw.handlerLive p.1 p.2 hp).2.1

/-! ## References that go -/

theorem dropSfd_steps {s : SfdId} {rest : List SfdId} (h : w.locals.sfds = s :: rest)
    (hatt : s ∈ rest ∨ s ∉ w.locals.unattached)
    (hhandler : ∀ p, w.locals.handler = some p → p.2 ∈ rest) : Steps d w w.dropSfd := by
  unfold dropSfd
  simp only [h]
  split
  · next hkeep => exact (Micro.popSfds w s rest h hkeep hatt hhandler).steps
  · next hgone =>
    push Not at hgone
    exact (Micro.destroySfd w s rest hgone.1 h hgone.2 (hatt.resolve_left hgone.1)
      hhandler).steps

theorem dropSfd_locals {s : SfdId} {rest : List SfdId} (h : w.locals.sfds = s :: rest) :
    w.dropSfd.locals = { w.locals with sfds := rest } := by
  unfold dropSfd
  simp only [h]
  split
  · rfl
  · rw [destroySfd_locals]
    rfl

@[simp] theorem dropSfd_sockets (w : World) : w.dropSfd.sockets = w.sockets := by
  unfold dropSfd
  split
  · rfl
  · split
    · rfl
    · rw [destroySfd_sockets]
      rfl

theorem dropSfd_sfds (w : World) (s : SfdId) :
    ∃ b, w.dropSfd.sfds s = { w.sfds s with alive := b } := by
  unfold dropSfd
  split
  · exact ⟨_, rfl⟩
  · dsimp only
    split
    · exact ⟨_, rfl⟩
    · rw [destroySfd_sfds, Function.update_apply]
      split
      · next heq => exact ⟨false, by rw [heq]; rfl⟩
      · exact ⟨_, rfl⟩

@[simp] theorem dropSfd_nextSfd (w : World) : w.dropSfd.nextSfd = w.nextSfd := by
  unfold dropSfd
  split
  · rfl
  · split
    · rfl
    · exact (destroySfd_same _ _).nextSfd

@[simp] theorem dropSfd_nextSock (w : World) : w.dropSfd.nextSock = w.nextSock := by
  unfold dropSfd
  split
  · rfl
  · split
    · rfl
    · exact (destroySfd_same _ _).nextSock

@[simp] theorem resetSockfd_locals (w : World) (i : SockId) :
    (w.resetSockfd i).locals = w.locals := by
  unfold resetSockfd
  split
  · rfl
  · rw [dropSfd_locals rfl]
    rfl

@[simp] theorem resetSockfd_nextSfd (w : World) (i : SockId) :
    (w.resetSockfd i).nextSfd = w.nextSfd := by
  unfold resetSockfd
  split
  · rfl
  · exact dropSfd_nextSfd _

theorem resetSockfd_sockets (w : World) (i : SockId) :
    (w.resetSockfd i).sockets =
      Function.update w.sockets i { w.sockets i with sockfd := none } := by
  unfold resetSockfd
  split
  · next hnone =>
    rw [← hnone]
    exact (Function.update_eq_self i w.sockets).symm
  · rw [dropSfd_sockets]
    rfl

theorem resetSockfd_sfds (w : World) (i : SockId) (s : SfdId) :
    ∃ b, (w.resetSockfd i).sfds s = { w.sfds s with alive := b } := by
  unfold resetSockfd
  split
  · exact ⟨_, rfl⟩
  · exact dropSfd_sfds _ s

theorem resetSockfd_steps (hw : w.WF) (i : SockId) : Steps d w (w.resetSockfd i) := by
  unfold resetSockfd
  split
  · exact .refl
  · next s hcur =>
    have hs := hw.current i s hcur
    have hhold : Micro d w (w.holdSfd s) := .holdSfd w s hs.1
    have hclear : Micro d (w.holdSfd s) ((w.holdSfd s).clearSockfd i) :=
      .clearSockfd _ i s hcur (List.mem_cons_self)
    have hatt : s ∈ w.locals.sfds ∨ s ∉ w.locals.unattached := by
      by_contra hno
      push Not at hno
      exact hno.1 (hw.localsLive.2.1 s hno.2)
    exact hhold.steps.trans (hclear.steps.trans (dropSfd_steps rfl hatt hw.handler_sfd))

@[simp] theorem assignSockfd_locals (w : World) (i : SockId) (s : SfdId) :
    (w.assignSockfd i s).locals = w.locals := by
  unfold assignSockfd
  split
  · rfl
  · rw [dropSfd_locals rfl]
    rfl

theorem assignSockfd_sockets (w : World) (i : SockId) (s : SfdId) :
    (w.assignSockfd i s).sockets =
      Function.update w.sockets i { w.sockets i with sockfd := some s } := by
  unfold assignSockfd
  split
  · rfl
  · rw [dropSfd_sockets]
    rfl

theorem assignSockfd_sfds (w : World) (i : SockId) (s s' : SfdId) :
    ∃ b b', (w.assignSockfd i s).sfds s' = { w.sfds s' with alive := b, installed := b' } := by
  have hput : ∀ v : World, ∃ b', (v.putSockfd i s).sfds s' =
      { v.sfds s' with installed := b' } := by
    intro v
    by_cases heq : s' = s
    · subst heq
      exact ⟨true, by simp [putSockfd, log, setSfd, setSocket]⟩
    · exact ⟨(v.sfds s').installed, by simp [putSockfd, log, setSfd, setSocket, heq]⟩
  unfold assignSockfd
  split
  · obtain ⟨b', hb'⟩ := hput w
    exact ⟨(w.sfds s').alive, b', hb'⟩
  · next old _ =>
    obtain ⟨b, hb⟩ := dropSfd_sfds ((w.holdSfd old).putSockfd i s) s'
    obtain ⟨b', hb'⟩ := hput (w.holdSfd old)
    exact ⟨b, b', by rw [hb, hb']; rfl⟩

theorem assignSockfd_steps (hw : w.WF) {i : SockId} {s : SfdId} (hi : (w.sockets i).alive)
    (hs : (w.sfds s).alive) (howner : (w.sfds s).owner = i)
    (hnew : (w.sfds s).installed = false) : Steps d w (w.assignSockfd i s) := by
  unfold assignSockfd
  split
  · next hnone =>
    exact (Micro.putSockfd w i s hi hs howner hnew (by simp [hnone])).steps
  · next old hcur =>
    have hold := hw.current i old hcur
    have hhold : Micro d w (w.holdSfd old) := .holdSfd w old hold.1
    have hput : Micro d (w.holdSfd old) ((w.holdSfd old).putSockfd i s) := by
      refine .putSockfd _ i s hi hs howner hnew (fun old' hcur' => ?_)
      have heq : old' = old := Option.some.inj (hcur'.symm.trans hcur)
      rw [heq]
      exact List.mem_cons_self
    have hatt : old ∈ w.locals.sfds ∨ old ∉ w.locals.unattached := by
      by_contra hno
      push Not at hno
      exact hno.1 (hw.localsLive.2.1 old hno.2)
    exact hhold.steps.trans (hput.steps.trans (dropSfd_steps rfl hatt hw.handler_sfd))

/-! ## `Close` and the end of a socket -/

@[simp] theorem close_locals (w : World) (i : SockId) : (w.close i).locals = w.locals := by
  simp only [close, log]
  rw [resetSockfd_locals]
  rfl

@[simp] theorem close_nextSfd (w : World) (i : SockId) : (w.close i).nextSfd = w.nextSfd :=
  resetSockfd_nextSfd (w.dropConnect i) i

theorem close_sockets (w : World) (i : SockId) :
    (w.close i).sockets = Function.update w.sockets i
      { w.sockets i with connectTimer := none, asyncConnectCb := none, sockfd := none } := by
  simp only [close, log]
  rw [resetSockfd_sockets]
  simp [dropConnect]

theorem close_idle (w : World) (i : SockId) : (w.close i).Idle i := by
  rw [idle_iff, close_sockets]
  simp

theorem close_alive (w : World) (i j : SockId) :
    ((w.close i).sockets j).alive = (w.sockets j).alive := by
  rw [close_sockets, Function.update_apply]
  split
  · next heq => rw [heq]
  · rfl

theorem close_steps (hw : w.WF) (i : SockId) (hconn : w.locals.conn = none) :
    Steps d w (w.close i) := by
  have hdrop : Steps d w (w.dropConnect i) := (Micro.dropConnect w i).steps
  have hreset : Steps d (w.dropConnect i) ((w.dropConnect i).resetSockfd i) :=
    resetSockfd_steps (hdrop.wf hw) i
  refine hdrop.trans (hreset.trans (Micro.steps ?_))
  refine .logClose _ i _ ?_ (by rw [resetSockfd_locals]; exact hconn) (fun s hold => ?_)
  · have hidle := close_idle w i
    rw [idle_iff] at hidle ⊢
    exact hidle
  · obtain ⟨b, hb⟩ := resetSockfd_sfds (w.dropConnect i) i s
    have hcur := hw.current i s hold
    rw [hb, resetSockfd_nextSfd]
    exact ⟨(hw.openLive s hcur.1).2, hcur.2⟩

theorem dropSock_locals {i : SockId} {rest : List SockId} (h : w.locals.socks = i :: rest) :
    w.dropSock.locals = { w.locals with socks := rest } := by
  unfold dropSock
  simp only [h]
  split
  · rfl
  · simp only [killSock, log, setSocket, popSocks]
    rw [close_locals]

theorem dropSock_steps (hw : w.WF) {i : SockId} {rest : List SockId}
    (h : w.locals.socks = i :: rest) (hconn : w.locals.conn = none)
    (hhandler : ∀ p, w.locals.handler = some p → p.1 ∈ rest) : Steps d w w.dropSock := by
  unfold dropSock
  simp only [h]
  split
  · exact (Micro.popSocks w i rest h hhandler).steps
  · next hgone =>
    push Not at hgone
    refine (close_steps hw i hconn).trans (Micro.steps ?_)
    refine .killSock _ i rest hgone.1 (by rw [close_locals, h]) (close_idle w i) ?_ ?_
    · rw [close_locals]
      exact hconn
    · rw [close_locals]
      exact hhandler

/-! ## Registration -/

theorem openFd_steps (w : World) (fd : Option Fd) : Steps d w (w.openFd fd).1 := by
  cases fd with
  | none => exact .refl
  | some fd =>
      unfold openFd
      dsimp only
      split
      · exact .refl
      · next hfree => exact (Micro.opened w fd (by simpa using hfree)).steps

theorem openFd_none {fd : Option Fd} (h : (w.openFd fd).2 = none) : (w.openFd fd).1 = w := by
  cases fd with
  | none => rfl
  | some fd =>
      unfold openFd at h ⊢
      dsimp only at h ⊢
      split
      · rfl
      · next hfree => simp [hfree] at h

theorem openFd_some {fd : Option Fd} {s : SfdId} (h : (w.openFd fd).2 = some s) :
    ∃ n, (w.openFd fd).1 = w.opened n ∧ s = w.nextSfd := by
  cases fd with
  | none => cases h
  | some fd =>
      unfold openFd at h ⊢
      dsimp only at h ⊢
      split at h
      · cases h
      · next hfree =>
        rw [if_neg hfree]
        exact ⟨fd, rfl, (Option.some.inj h).symm⟩

theorem openFd_isSome {fd : Option Fd} {s : SfdId} (h : (w.openFd fd).2 = some s) :
    fd.isSome := by
  cases fd with
  | none => cases h
  | some fd => rfl

@[simp] theorem register_locals (w : World) (s : SfdId) (cb : PollEventCB) (event : Nat)
    (ctlOk : Bool) :
    (w.register s cb event ctlOk).1.locals =
      { w.locals with unattached := w.locals.unattached.erase s } := rfl

theorem register_ok (hw : w.WF) {s : SfdId} {cb : PollEventCB} {event : Nat} {ctlOk : Bool}
    (h : (w.register s cb event ctlOk).2 = true) :
    (w.register s cb event ctlOk).1.poller.eventMap (w.sfds s).fd = some cb := by
  have hok : (ctlOk && (w.poller.epollSet (w.sfds s).fd).isNone) = true := by
    rw [← EventPoller.addEvent_ok (w.sfds s).fd event cb ctlOk]
    exact h
  rw [Bool.and_eq_true, Option.isNone_iff_eq_none] at hok
  have hmap := (hw.agree.epollSet_eq_none (w.sfds s).fd).1 hok.2
  simp only [register]
  rw [EventPoller.eventMap_addEvent, if_pos ⟨rfl, hok.1, hok.2, hmap⟩]

theorem attachEvent_locals (w : World) (i : SockId) (s : SfdId) (udp ctlOk : Bool) :
    (w.attachEvent i s udp ctlOk).1.locals =
      { w.locals with unattached := w.locals.unattached.erase s } := by
  unfold attachEvent
  dsimp only
  split <;> simp [markAttached, setSfd]

theorem attachEvent_sfds (w : World) (i : SockId) (s : SfdId) (udp ctlOk : Bool) (s' : SfdId) :
    ∃ b, (w.attachEvent i s udp ctlOk).1.sfds s' = { w.sfds s' with attached := b } := by
  have hsame := (allocReadBuf_same w i udp).sfds
  unfold attachEvent
  dsimp only
  split
  · by_cases heq : s' = s
    · exact ⟨true, by simp [markAttached, setSfd, register, hsame, heq]⟩
    · exact ⟨(w.sfds s').attached, by simp [markAttached, setSfd, register, hsame, heq]⟩
  · exact ⟨(w.sfds s').attached, by simp [register, hsame]⟩

theorem attachEvent_sockets (w : World) (i : SockId) (s : SfdId) (udp ctlOk : Bool)
    (j : SockId) :
    ∃ q r, (w.attachEvent i s udp ctlOk).1.sockets j =
      { w.sockets j with queue := q, readBuf := r } := by
  obtain ⟨q, r, hq⟩ := (allocReadBuf_same w i udp).sockets j
  unfold attachEvent
  dsimp only
  split <;> exact ⟨q, r, hq⟩

theorem attachEvent_ok (hw : w.WF) {i : SockId} {s : SfdId} {udp ctlOk : Bool}
    (h : (w.attachEvent i s udp ctlOk).2 = true) :
    (w.attachEvent i s udp ctlOk).1.poller.eventMap (w.sfds s).fd =
      some (.attached i s udp) := by
  have hsame := allocReadBuf_same w i udp
  have hwf : (w.allocReadBuf i udp).WF := micro_wf (.allocReadBuf w i udp : Micro true _ _) hw
  unfold attachEvent at h ⊢
  dsimp only at h ⊢
  split at h
  · next hok =>
    rw [if_pos hok]
    have hreg := register_ok hwf hok
    rw [hsame.sfds] at hreg
    exact hreg
  · cases h

theorem attachEvent_steps (hw : w.WF) {i : SockId} {s : SfdId} (hs : (w.sfds s).alive)
    (howner : (w.sfds s).owner = i) (hatt : s ∈ w.locals.unattached) (udp ctlOk : Bool) :
    Steps d w (w.attachEvent i s udp ctlOk).1 := by
  have hsame := allocReadBuf_same w i udp
  have halloc : Steps d w (w.allocReadBuf i udp) := (Micro.allocReadBuf w i udp).steps
  have hwf := halloc.wf hw
  have hcb : (w.allocReadBuf i udp).CbOk s (PE_READ ||| PE_WRITE ||| PE_ERROR)
      (.attached i s udp) := ⟨rfl, by rw [hsame.sfds, howner], by decide⟩
  have hreg : Steps d (w.allocReadBuf i udp) _ :=
    (Micro.register _ s _ _ ctlOk (by rw [hsame.sfds]; exact hs) hcb
      (by rw [allocReadBuf_locals]; exact hatt)).steps
  unfold attachEvent
  dsimp only
  split
  · next hok =>
    refine halloc.trans (hreg.trans (Micro.markAttached _ s udp ?_).steps)
    have howner' : (((w.allocReadBuf i udp).sfds s).owner) = i := by rw [hsame.sfds, howner]
    show _ = some (PollEventCB.attached (((w.allocReadBuf i udp).sfds s).owner) s udp)
    rw [howner']
    exact register_ok hwf hok
  · exact halloc.trans hreg

theorem listenOn_locals (w : World) (i : SockId) (s : SfdId) (ctlOk : Bool) :
    (w.listenOn i s ctlOk).1.locals =
      { w.locals with unattached := w.locals.unattached.erase s } := by
  unfold listenOn
  split
  · dsimp only
    split
    · rw [assignSockfd_locals, register_locals]
    · rw [register_locals]
  · rw [assignSockfd_locals, attachEvent_locals]

theorem listenOn_steps (hw : w.WF) {i : SockId} {s : SfdId} (hi : (w.sockets i).alive)
    (hs : (w.sfds s).alive) (howner : (w.sfds s).owner = i)
    (hnew : (w.sfds s).installed = false) (hunatt : s ∈ w.locals.unattached) (ctlOk : Bool) :
    Steps d w (w.listenOn i s ctlOk).1 := by
  unfold listenOn
  split
  · dsimp only
    have hreg : Steps d w (w.register s (.accepting i s) (PE_LT ||| PE_READ ||| PE_ERROR)
        ctlOk).1 :=
      (Micro.register w s (.accepting i s) _ ctlOk hs ⟨rfl, howner.symm⟩ hunatt).steps
    split
    · exact hreg.trans (assignSockfd_steps (hreg.wf hw) hi hs howner hnew)
    · exact hreg
  · have hatt : Steps d w (w.attachEvent i s true ctlOk).1 :=
      attachEvent_steps hw hs howner hunatt true ctlOk
    obtain ⟨b, hb⟩ := attachEvent_sfds w i s true ctlOk s
    obtain ⟨q, r, hq⟩ := attachEvent_sockets w i s true ctlOk i
    refine hatt.trans (assignSockfd_steps (hatt.wf hw) ?_ ?_ ?_ ?_)
    · rw [hq]; exact hi
    · rw [hb]; exact hs
    · rw [hb]; exact howner
    · rw [hb]; exact hnew

/-! ## Calls of the user -/

theorem makeSfd_opened_locals (w : World) (n : Fd) (type : SockType) (i : SockId)
    (attempt : Option ConnId) :
    ((w.opened n).makeSfd w.nextSfd type i attempt).locals =
      { w.locals with
        sfds := w.nextSfd :: w.locals.sfds
        unattached := w.nextSfd :: w.locals.unattached } := by
  simp [makeSfd, opened]

@[simp] theorem listen_locals (w : World) (i : SockId) (type : SockType) (fd : Option Fd)
    (ctlOk : Bool) : (w.listen i type fd ctlOk).1.locals = w.locals := by
  unfold listen
  dsimp only
  split
  · next hnone => rw [openFd_none hnone, close_locals]
  · next s hsome =>
    obtain ⟨n, hopened, rfl⟩ := openFd_some hsome
    have hmade := makeSfd_opened_locals (w.close i) n type i none
    rw [hopened, dropSfd_locals (by rw [listenOn_locals, hmade]), listenOn_locals, hmade]
    simp

theorem listen_steps (hw : w.WF) {i : SockId} (hi : (w.sockets i).alive) (type : SockType)
    (fd : Option Fd) (ctlOk : Bool) (hconn : w.locals.conn = none) :
    Steps d w (w.listen i type fd ctlOk).1 := by
  have hclose : Steps d w (w.close i) := close_steps hw i hconn
  unfold listen
  dsimp only
  split
  · next hnone => rw [openFd_none hnone]; exact hclose
  · next s hsome =>
    have hopen : Steps d (w.close i) ((w.close i).openFd fd).1 := openFd_steps _ fd
    obtain ⟨n, hopened, rfl⟩ := openFd_some hsome
    rw [hopened] at hopen ⊢
    have hi' : (((w.close i).opened n).sockets i).alive := by
      show ((w.close i).sockets i).alive = true
      rw [close_alive, hi]
    have hmake : Micro d ((w.close i).opened n)
        (((w.close i).opened n).makeSfd (w.close i).nextSfd type i none) :=
      .makeSfd _ _ type i none List.mem_cons_self hi'
    have hwf := hmake.steps.wf (hopen.wf (hclose.wf hw))
    have hmade := makeSfd_opened_locals (w.close i) n type i none
    have hnew : (((w.close i).opened n).makeSfd (w.close i).nextSfd type i none).sfds
        (w.close i).nextSfd = { fd := n, type := type, alive := true, owner := i } := by
      simp [makeSfd, opened]
    have hlisten := listenOn_steps (d := d) hwf (i := i) hi' (by rw [hnew]) (by rw [hnew])
      (by rw [hnew]) (by rw [hmade]; exact List.mem_cons_self) ctlOk
    refine hclose.trans (hopen.trans (hmake.steps.trans (hlisten.trans
      (dropSfd_steps (by rw [listenOn_locals, hmade]) ?_ ?_))))
    · right
      rw [listenOn_locals, hmade]
      simp only [List.erase_cons_head]
      intro hin
      -- the id is new, so nothing refers to it yet
      have hlive := (hclose.wf hw).localsLive
      exact absurd ((hclose.wf hw).openLive _ (hlive.1 _ (hlive.2.1 _ hin))).2 (lt_irrefl _)
    · rw [listenOn_locals, hmade]
      exact (hclose.wf hw).handler_sfd

@[simp] theorem connect_locals (w : World) (i : SockId) (timeoutMs now : Nat) :
    (w.connect i timeoutMs now).locals = w.locals := close_locals w i

theorem connect_steps (hw : w.WF) {i : SockId} (hi : (w.sockets i).alive)
    (timeoutMs now : Nat) (hconn : w.locals.conn = none) :
    Steps d w (w.connect i timeoutMs now) := by
  have hclose : Steps d w (w.close i) := close_steps hw i hconn
  have hi' : ((w.close i).sockets i).alive := by rw [close_alive, hi]
  refine hclose.trans (Micro.startConnect _ i timeoutMs now hi' (close_idle w i) ?_).steps
  rw [close_locals]
  exact hconn

@[simp] theorem send_locals (w : World) (i : SockId) (data : List UInt8)
    (addr : Option SockAddr) : (w.send i data addr).1.locals = w.locals := by
  unfold send
  split
  · rfl
  · split <;> rfl

theorem send_steps {i : SockId} (hi : (w.sockets i).alive) (data : List UInt8)
    (addr : Option SockAddr) : Steps d w (w.send i data addr).1 := by
  unfold send
  split
  · exact .refl
  · next hne =>
    split
    · exact .refl
    · next s hcur =>
      refine (Micro.postAppend w i s _ ?_ ?_ hi hcur).steps
      · cases (w.sfds s).type <;> simpa [Buffer.data] using hne
      · cases (w.sfds s).type <;>
          simp [Buffer.data]

@[simp] theorem drop_locals (w : World) (i : SockId) : (w.drop i).locals = w.locals := by
  unfold drop
  rw [dropSock_locals rfl]
  rfl

theorem drop_steps (hw : w.WF) {i : SockId} (hi : (w.sockets i).alive)
    (hconn : w.locals.conn = none) : Steps d w (w.drop i) := by
  have hhold : Steps d w (w.holdSock i) := (Micro.holdSock w i hi).steps
  have hdrop : Steps d (w.holdSock i) ((w.holdSock i).dropUserRef i) :=
    (Micro.dropUserRef _ i).steps
  have hwf := hdrop.wf (hhold.wf hw)
  exact hhold.trans (hdrop.trans (dropSock_steps hwf rfl hconn hw.handler_sock))

@[simp] theorem execOp_locals (w : World) (op : UserOp) : (w.execOp op).locals = w.locals := by
  cases op <;> unfold execOp <;> dsimp only
  case close i => split <;> simp
  case connect i timeoutMs now => split <;> simp
  case listen i type fd ctlOk => split <;> simp
  case send i data addr => split <;> simp
  case drop i => split <;> simp
  all_goals rfl

theorem execOp_steps (hw : w.WF) (op : UserOp) (hconn : w.locals.conn = none) :
    Steps d w (w.execOp op) := by
  cases op <;> unfold execOp <;> dsimp only
  case create => exact (Micro.create w).steps
  case close i =>
    split
    · exact close_steps hw i hconn
    · exact .refl
  case connect i timeoutMs now =>
    split
    · next hi => exact connect_steps hw hi timeoutMs now hconn
    · exact .refl
  case listen i type fd ctlOk =>
    split
    · next hi => exact listen_steps hw hi type fd ctlOk hconn
    · exact .refl
  case send i data addr =>
    split
    · next hi => exact send_steps hi data addr
    · exact .refl
  case drop i =>
    split
    · next hi => exact drop_steps hw hi hconn
    · exact .refl
  case async first => exact (Micro.post w .user first trivial).steps
  case shutdown => exact (Micro.post w .exit true trivial).steps

@[simp] theorem execOps_locals (ops : List UserOp) (w : World) :
    (w.execOps ops).locals = w.locals := by
  induction ops generalizing w with
  | nil => rfl
  | cons op ops ih => exact (ih _).trans (execOp_locals w op)

theorem execOps_steps (ops : List UserOp) (hw : w.WF) (hconn : w.locals.conn = none) :
    Steps d w (w.execOps ops) := by
  induction ops generalizing w with
  | nil => exact .refl
  | cons op ops ih =>
      have hop : Steps d w (w.execOp op) := execOp_steps hw op hconn
      exact hop.trans (ih (hop.wf hw) (by rw [execOp_locals]; exact hconn))

/-! ## Connect -/

theorem connectCb_locals (w : World) {i : SockId} (a : ConnId) (err : SockErrCode)
    (cb : CbRun) (hi : (w.sockets i).alive) :
    (w.connectCb i a err cb).1.locals = { w.locals with conn := none } := by
  unfold connectCb
  rw [if_pos hi]
  dsimp only
  have hreset : (if err = .success then ((w.holdSock i).enterReport i a).dropConnect i
      else (((w.holdSock i).enterReport i a).dropConnect i).resetSockfd i).locals =
        ((w.holdSock i).enterReport i a).locals := by
    split
    · rfl
    · rw [resetSockfd_locals]; rfl
  have hops : ∀ v : World, v.locals = ((w.holdSock i).enterReport i a).locals →
      ((v.logReport i a err).execOps cb.ops).dropSock.locals =
        { w.locals with conn := none } := by
    intro v hv
    have hlocals : ((v.logReport i a err).execOps cb.ops).locals =
        { w.locals with socks := i :: w.locals.socks, conn := none } := by
      rw [execOps_locals]
      simp only [logReport, hv]
      rfl
    rw [dropSock_locals (by rw [hlocals]), hlocals]
  exact hops _ hreset

theorem connectCb_steps (hw : w.WF) {i : SockId} {a : ConnId} (err : SockErrCode) (cb : CbRun)
    (horigin : (w.sockets i).alive → w.Origin i a)
    (hok : err = .success → ∃ s udp, (w.sockets i).sockfd = some s ∧
      (w.sfds s).attempt = some a ∧ (w.sfds s).connected ∧
      w.poller.eventMap (w.sfds s).fd = some (.attached i s udp)) :
    Steps d w (w.connectCb i a err cb).1 := by
  unfold connectCb
  split
  · next hi =>
    dsimp only
    have hhold : Steps d w (w.holdSock i) := (Micro.holdSock w i hi).steps
    have horigin' : (w.holdSock i).Origin i a := by
      cases horigin hi with
      | task h => exact .task h
      | timer h howner => exact .timer h howner
      | event s h hcur => exact .event s h hcur
      | entered h => exact .entered h
    have henter : Steps d (w.holdSock i) ((w.holdSock i).enterReport i a) :=
      (Micro.enterReport _ i a horigin').steps
    have hdrop : Steps d ((w.holdSock i).enterReport i a)
        (((w.holdSock i).enterReport i a).dropConnect i) := (Micro.dropConnect _ i).steps
    have hpre := hhold.trans (henter.trans hdrop)
    have htimer : ((((w.holdSock i).enterReport i a).dropConnect i).sockets i) =
        { w.sockets i with connectTimer := none, asyncConnectCb := none } := by
      simp [dropConnect, enterReport, holdSock]
    -- the user is told once the attempt is over
    have hreport : ∀ v : World, Steps d w v → v.locals = ((w.holdSock i).enterReport i a).locals →
        (v.sockets i).connectTimer = none → (v.sockets i).asyncConnectCb = none →
        (err ≠ .success → (v.sockets i).sockfd = none) →
        (err = .success → ∃ s udp, (v.sockets i).sockfd = some s ∧
          (v.sfds s).attempt = some a ∧ (v.sfds s).connected ∧
          v.poller.eventMap (v.sfds s).fd = some (.attached i s udp)) →
        Steps d w ((v.logReport i a err).execOps cb.ops).dropSock := by
      intro v hv hlocals ht ha hfail hsucc
      have hlog : Steps d v (v.logReport i a err) :=
        (Micro.logReport v i a err (by rw [hlocals]; rfl) ht ha hfail hsucc).steps
      have hwf := Steps.wf (hv.trans hlog) hw
      have hrun : Steps d (v.logReport i a err) ((v.logReport i a err).execOps cb.ops) :=
        execOps_steps cb.ops hwf rfl
      have hall := hv.trans (hlog.trans hrun)
      have hafter : ((v.logReport i a err).execOps cb.ops).locals =
          { w.locals with socks := i :: w.locals.socks, conn := none } := by
        rw [execOps_locals]
        simp only [logReport, hlocals]
        rfl
      refine hall.trans (dropSock_steps (Steps.wf hall hw) (by rw [hafter]) (by rw [hafter]) ?_)
      rw [hafter]
      exact hw.handler_sock
    split
    · next hsucc =>
      refine hreport _ hpre rfl (by rw [htimer]) (by rw [htimer]) (fun hne => absurd hsucc hne) ?_
      intro _
      obtain ⟨s, udp, hcur, hatt, hdone, hmap⟩ := hok hsucc
      exact ⟨s, udp, by rw [htimer]; exact hcur, hatt, hdone, hmap⟩
    · next hfail =>
      refine hreport _ (hpre.trans (resetSockfd_steps (Steps.wf hpre hw) i))
        (resetSockfd_locals _ _) ?_ ?_ (fun _ => ?_) (fun hsucc => absurd hsucc hfail)
      all_goals rw [resetSockfd_sockets, Function.update_self]
      · rw [htimer]
      · rw [htimer]
  · exact .refl

theorem closeLoose_locals (w : World) (s : SfdId) :
    (w.closeLoose s).locals = { w.locals with fds := w.locals.fds.erase s } := rfl

theorem dropBoth_steps (hw : w.WF) {i : SockId} {s : SfdId}
    (hlocals : w.locals = { sfds := [s], socks := [i] }) :
    Steps d w w.dropSfd.dropSock ∧ w.dropSfd.dropSock.locals = {} := by
  have hdrop : Steps d w w.dropSfd :=
    dropSfd_steps (by rw [hlocals]) (.inr (by simp [hlocals])) (by simp [hlocals])
  have hafter : w.dropSfd.locals = { socks := [i] } := by
    rw [dropSfd_locals (by rw [hlocals]), hlocals]
  refine ⟨hdrop.trans (dropSock_steps (hdrop.wf hw) (by rw [hafter]) (by rw [hafter])
    (by simp [hafter])), ?_⟩
  rw [dropSock_locals (by rw [hafter]), hafter]

theorem connecting_steps (hw : w.WF) {i : SockId} {a : ConnId} {s : SfdId} (ctlOk : Bool)
    (hi : (w.sockets i).alive) (hasync : (w.sockets i).asyncConnectCb = some a)
    (hlocals : w.locals = { fds := [s] }) :
    let add := (((w.holdSock i).makeSfd s .tcp i (some a)).assignSockfd i s).register s
      (.connecting i a s) PE_WRITE ctlOk
    Steps d w add.1 ∧ add.1.locals = { sfds := [s], socks := [i] } ∧
      (add.1.sockets i).alive ∧ (add.1.sockets i).asyncConnectCb = some a := by
  intro add
  have hhold : Steps d w (w.holdSock i) := (Micro.holdSock w i hi).steps
  have hloose : s ∈ w.locals.fds := by simp [hlocals]
  have hmake : Steps d (w.holdSock i) ((w.holdSock i).makeSfd s .tcp i (some a)) :=
    (Micro.makeSfd (w.holdSock i) s .tcp i (some a) hloose hi).steps
  have hmade : ((w.holdSock i).makeSfd s .tcp i (some a)).sfds s =
      { w.sfds s with type := .tcp, alive := true, owner := i, attempt := some a } := by
    simp [makeSfd, holdSock]
  have hnew := (hw.looseOpen.2 s (List.mem_append_left _ hloose)).2.1
  have hwf := hmake.wf (hhold.wf hw)
  have hassign : Steps d ((w.holdSock i).makeSfd s .tcp i (some a))
      (((w.holdSock i).makeSfd s .tcp i (some a)).assignSockfd i s) :=
    assignSockfd_steps hwf hi (by rw [hmade]) (by rw [hmade]) (by rw [hmade]; exact hnew)
  have hsock : (((w.holdSock i).makeSfd s .tcp i (some a)).assignSockfd i s).sockets i =
      { w.sockets i with sockfd := some s } := by
    rw [assignSockfd_sockets, Function.update_self]
    rfl
  have hend : (((w.holdSock i).makeSfd s .tcp i (some a)).assignSockfd i s).locals =
      { sfds := [s], socks := [i], unattached := [s] } := by
    rw [assignSockfd_locals]
    simp [makeSfd, holdSock, hlocals]
  have hcurrent := (hassign.wf hwf).current i s (by rw [hsock])
  obtain ⟨b, b', hsfd⟩ := assignSockfd_sfds ((w.holdSock i).makeSfd s .tcp i (some a)) i s s
  have hcb : (((w.holdSock i).makeSfd s .tcp i (some a)).assignSockfd i s).CbOk s PE_WRITE
      (.connecting i a s) :=
    ⟨rfl, hcurrent.2.1.symm, by rw [hsock]; exact hasync, by rw [hsock], by rw [hsfd, hmade]⟩
  have hreg : Micro d _ add.1 := .register _ s (.connecting i a s) PE_WRITE ctlOk hcurrent.1 hcb
    (by rw [hend]; exact List.mem_singleton_self s)
  have hsock' : add.1.sockets i = { w.sockets i with sockfd := some s } := hsock
  refine ⟨hhold.trans (hmake.trans (hassign.trans hreg.steps)), ?_, by rw [hsock']; exact hi,
    by rw [hsock']; exact hasync⟩
  show (register _ _ _ _ _).1.locals = _
  rw [register_locals, hend]
  simp

/-- The number that the outcome of a connect attempt is the last to hold. -/
theorem closeLoose_steps {s : SfdId} (hlocals : w.locals = { fds := [s] }) :
    Steps d w (w.closeLoose s) ∧ (w.closeLoose s).locals = {} := by
  refine ⟨(Micro.closeLoose w s (by simp [hlocals])).steps, ?_⟩
  rw [closeLoose_locals, hlocals]
  simp

/-- The descriptor of the finished task is a local variable; it is used up. -/
theorem asyncConnectCb_steps (hw : w.WF) {i : SockId} {a : ConnId} {fd : Option SfdId}
    {ctlOk : Bool} {cb : CbRun} (hasync : (w.sockets i).asyncConnectCb = some a)
    (hlocals : w.locals = { fds := fd.toList }) :
    Steps d w (w.asyncConnectCb i a fd ctlOk cb).1 ∧
      (w.asyncConnectCb i a fd ctlOk cb).1.locals = {} := by
  unfold asyncConnectCb
  split
  · next hi =>
    cases fd with
    | none =>
        have hhold : Steps d w (w.holdSock i) := (Micro.holdSock w i hi).steps
        have hrun : Steps d (w.holdSock i) ((w.holdSock i).connectCb i a .unreachable cb).1 :=
          connectCb_steps (hhold.wf hw) .unreachable cb (fun _ => .task hasync)
            fun h => by cases h
        have hafter : ((w.holdSock i).connectCb i a .unreachable cb).1.locals =
            { socks := [i] } := by
          rw [connectCb_locals (w.holdSock i) a .unreachable cb hi]
          simp [holdSock, hlocals]
        have hwf := hrun.wf (hhold.wf hw)
        refine ⟨hhold.trans (hrun.trans (dropSock_steps hwf (by rw [hafter]) (by rw [hafter])
          (by simp [hafter]))), ?_⟩
        show (World.dropSock _).locals = _
        rw [dropSock_locals (by rw [hafter]), hafter]
    | some s =>
        obtain ⟨hsteps, hafter, hi', hasync'⟩ :=
          connecting_steps (d := d) hw ctlOk hi hasync hlocals
        dsimp only at hsteps hafter hi' hasync' ⊢
        have hwf := hsteps.wf hw
        split
        · obtain ⟨hdrop, hend⟩ := dropBoth_steps (d := d) hwf hafter
          exact ⟨hsteps.trans hdrop, hend⟩
        · have hrun := connectCb_steps (d := d) hwf .other cb
            (fun _ => .task hasync') (fun h => by cases h)
          have hend := connectCb_locals _ a .other cb hi'
          rw [hafter] at hend
          obtain ⟨hdrop, hempty⟩ := dropBoth_steps (d := d) (hrun.wf hwf) hend
          exact ⟨hsteps.trans (hrun.trans hdrop), hempty⟩
  · cases fd with
    | none => exact ⟨.refl, hlocals⟩
    | some s => exact closeLoose_steps hlocals

theorem onConnected_steps (hw : w.WF) {i : SockId} {a : ConnId} {s : SfdId} (err : SockErrCode)
    (ctlOk : Bool) (cb : CbRun) (hhandler : w.locals.handler = some (i, s))
    (hcur : (w.sockets i).sockfd = some s)
    (hreg : w.poller.eventMap (w.sfds s).fd = some (.connecting i a s))
    (hconn : w.locals.conn = none) :
    Steps d w (w.onConnected i a s err ctlOk cb).1 ∧
      (w.onConnected i a s err ctlOk cb).1.locals = w.locals := by
  have hhandlerLive := hw.handlerLive i s hhandler
  have hi : (w.sockets i).alive := hw.localsLive.2.2 i hhandlerLive.2.1
  have hsame : ∀ v : World, v.locals = w.locals → { v.locals with conn := none } = w.locals := by
    intro v hv
    rw [hv, ← hconn]
  unfold onConnected
  split
  · dsimp only
    have henter : Steps d w (w.enterReport i a) :=
      (Micro.enterReport w i a (.event s hreg hcur)).steps
    have hset : Steps d (w.enterReport i a) ((w.enterReport i a).setConnected s) :=
      (Micro.setConnected _ s).steps
    have hfd : ((w.enterReport i a).setConnected s).sfds s =
        { w.sfds s with connected := true } := by
      simp [setConnected, setSfd, enterReport]
    have hreg' : ((w.enterReport i a).setConnected s).poller.eventMap
        (((w.enterReport i a).setConnected s).sfds s).fd = some (.connecting i a s) := by
      rw [hfd]
      exact hreg
    have hdel : Steps d ((w.enterReport i a).setConnected s)
        (((w.enterReport i a).setConnected s).unregister s) :=
      (Micro.unregister ((w.enterReport i a).setConnected s) i a s hhandlerLive.1 hreg').steps
    have hpre := henter.trans (hset.trans hdel)
    have hwf := Steps.wf hpre hw
    have hv : (((w.enterReport i a).setConnected s).unregister s).sfds s =
        { w.sfds s with connected := true } := hfd
    have hlive := hw.current i s hcur
    have hattach : Steps d (((w.enterReport i a).setConnected s).unregister s)
        ((((w.enterReport i a).setConnected s).unregister s).attachEvent i s false ctlOk).1 :=
      attachEvent_steps hwf (by rw [hv]; exact hlive.1) (by rw [hv]; exact hlive.2.1)
        List.mem_cons_self false ctlOk
    have hall := hpre.trans hattach
    have hwf' := Steps.wf hall hw
    have hlocals : ((((w.enterReport i a).setConnected s).unregister s).attachEvent i s false
        ctlOk).1.locals = { w.locals with conn := some (i, a) } := by
      rw [attachEvent_locals]
      simp [unregister, setConnected, setSfd, enterReport]
    obtain ⟨q, r, hq⟩ := attachEvent_sockets (((w.enterReport i a).setConnected s).unregister s) i
      s false ctlOk i
    have hi' : (((((w.enterReport i a).setConnected s).unregister s).attachEvent i s false
        ctlOk).1.sockets i).alive := by
      rw [hq]
      exact hi
    have hentered : World.Origin ((((w.enterReport i a).setConnected s).unregister s).attachEvent i
        s false ctlOk).1 i a := .entered (by rw [hlocals])
    split
    · next hok =>
      refine ⟨hall.trans (connectCb_steps hwf' .success cb (fun _ => hentered) (fun _ => ?_)), ?_⟩
      · obtain ⟨b, hb⟩ := attachEvent_sfds (((w.enterReport i a).setConnected s).unregister s) i s
          false ctlOk s
        have hmap := attachEvent_ok hwf hok
        refine ⟨s, false, by rw [hq]; exact hcur, ?_, ?_, ?_⟩
        · rw [hb, hv]
          exact ((hw.regLive _ _ hreg).2.2.2 a rfl).1
        · rw [hb, hv]
        · rw [hb]
          exact hmap
      · rw [connectCb_locals _ a .success cb hi', hlocals, ← hconn]
    · refine ⟨hall.trans (connectCb_steps hwf' .other cb (fun _ => hentered)
        fun h => by cases h), ?_⟩
      rw [connectCb_locals _ a .other cb hi', hlocals, ← hconn]
  · next hfail =>
    refine ⟨connectCb_steps hw err cb (fun _ => .event s hreg hcur) (fun h => absurd h hfail), ?_⟩
    rw [connectCb_locals w a err cb hi]
    exact hsame w rfl

/-! ## Errors and reading -/

@[simp] theorem emitError_locals (w : World) (i : SockId) (s : SfdId) (err : SockErrCode) :
    (w.emitError i s err).locals = w.locals := by
  unfold emitError
  split
  · rfl
  · exact close_locals _ i

theorem emitError_sockfd (w : World) (i : SockId) (s : SfdId) (err : SockErrCode) :
    ((w.emitError i s err).sockets i).sockfd = none := by
  unfold emitError
  split
  · next hnone => exact hnone
  · exact (close_idle _ i).sockfd

theorem emitError_steps (hw : w.WF) (i : SockId) (s : SfdId) (err : SockErrCode)
    (hconn : w.locals.conn = none) : Steps true w (w.emitError i s err) := by
  unfold emitError
  split
  · exact .refl
  · next cur hcur =>
    have hlog : Steps true w (w.log (.raised i s cur err)) :=
      (Micro.logRaised w i s cur err hcur).steps
    exact hlog.trans ((close_steps (hlog.wf hw) i hconn).trans
      (Micro.post _ (.error i err) false trivial).steps)

theorem readCb_steps (hw : w.WF) (hconn : w.locals.conn = none) (i : SockId) (s : SfdId)
    (data : List UInt8) (ops : List UserOp) :
    (w.log (.read i s data)).WF ∧ Steps true w ((w.log (.read i s data)).execOps ops) ∧
      ((w.log (.read i s data)).execOps ops).locals = w.locals := by
  have hlog : Steps true w (w.log (.read i s data)) := (Micro.logRead w i s data).steps
  have hwf := hlog.wf hw
  have hops : Steps true (w.log (.read i s data)) ((w.log (.read i s data)).execOps ops) :=
    execOps_steps ops hwf hconn
  exact ⟨hwf, hlog.trans hops, execOps_locals ops _⟩

theorem onRead_steps {i : SockId} {s : SfdId} {udp : Bool} {capacity : Nat}
    (items : List RecvItem) (hw : w.WF) (hconn : w.locals.conn = none) :
    Steps true w (onRead i s udp capacity w items).world ∧
      (onRead i s udp capacity w items).world.locals = w.locals := by
  induction items generalizing w with
  | nil => exact ⟨.refl, rfl⟩
  | cons item items ih =>
      cases item with
      | err e soError =>
          rw [onRead]
          split
          · exact ih hw hconn
          · split
            · exact ⟨.refl, rfl⟩
            · exact ⟨emitError_steps hw i s _ hconn, emitError_locals w i s _⟩
      | data bytes cb =>
          rw [onRead]
          dsimp only
          split
          · split
            · exact ⟨.refl, rfl⟩
            · exact ⟨emitError_steps hw i s _ hconn, emitError_locals w i s _⟩
          · obtain ⟨-, hread, hlocals⟩ := readCb_steps hw hconn i s (bytes.take capacity) cb.ops
            split
            · exact ⟨hread, hlocals⟩
            · obtain ⟨hrest, hend⟩ := ih (hread.wf hw) (by rw [hlocals]; exact hconn)
              exact ⟨hread.trans hrest, hend.trans hlocals⟩

/-! ## Writing -/

/-- `on_writeable` only leaves the flag behind that it met a hard error, and then the
connection is closed. -/
theorem onWriteable_steps (hw : w.WF) {i : SockId} {s : SfdId} (env : SendEnv)
    (soError : Utils.Errno) (cb : CbRun) (hhandler : w.locals.handler = some (i, s))
    (hcur : (w.sockets i).sockfd ≠ none) (hconn : w.locals.conn = none)
    (hok : w.locals.sendFailed = false) :
    Steps true w (w.onWriteable i s env soError cb).1 ∧
      ∃ b, (w.onWriteable i s env soError cb).1.locals = { w.locals with sendFailed := b } ∧
        (b = true → ((w.onWriteable i s env soError cb).1.sockets i).sockfd = none) := by
  have hwrite : Steps true w (w.writeable i s env).1 :=
    (Micro.writeable w i s env hhandler hcur hok).steps
  have hwf := hwrite.wf hw
  have hlocals := writeable_locals w i s env
  unfold onWriteable
  dsimp only
  split
  · next hhow =>
    have hlog : Steps true (w.writeable i s env).1 ((w.writeable i s env).1.log (.flushed i)) :=
      (Micro.logFlushed _ i).steps
    refine ⟨hwrite.trans (hlog.trans (execOps_steps cb.ops (hlog.wf hwf) ?_)), false, ?_,
      fun h => by cases h⟩
    · show (w.writeable i s env).1.locals.conn = none
      rw [hlocals]
      exact hconn
    · rw [execOps_locals]
      show (w.writeable i s env).1.locals = _
      rw [hlocals, hhow]
      rfl
  · next hhow =>
    refine ⟨hwrite.trans (emitError_steps hwf i s _ (by rw [hlocals]; exact hconn)), true, ?_,
      fun _ => emitError_sockfd _ i s _⟩
    rw [emitError_locals, hlocals, hhow]
    rfl
  · next hfailed =>
    refine ⟨hwrite, false, ?_, fun h => by cases h⟩
    show (w.writeable i s env).1.locals = _
    rw [hlocals, decide_eq_false]
    exact hfailed

def readPart (w : World) (i : SockId) (s : SfdId) (udp : Bool) (event : Nat) (script : Script) :
    ReadResult :=
  if has event PE_READ then onRead i s udp (w.readCapacity i) w script.reads
  else ⟨w, script.reads, [], .drained⟩

def writePart (w : World) (i : SockId) (s : SfdId) (event : Nat) (script : Script) :
    World × Bool :=
  if (w.sockets i).sockfd.isSome && has event PE_WRITE then
    w.onWriteable i s script.send script.soError script.cb
  else (w, false)

theorem attachedEvent_eq (w : World) (i : SockId) (s : SfdId) (udp : Bool) (event : Nat)
    (script : Script) :
    w.attachedEvent i s udp event script =
      let r := w.readPart i s udp event script
      let r' := r.world.writePart i s event script
      if r.how = .threw then (r.world, true)
      else if r'.2 then r'
      else if (r'.1.sockets i).sockfd.isSome && has event PE_ERROR then
        (r'.1.emitError i s (getSocketError script.soError script.errno), false)
      else r' := rfl

theorem attachedEvent_cases (w : World) (i : SockId) (s : SfdId) (udp : Bool) (event : Nat)
    (script : Script) :
    let r := w.readPart i s udp event script
    let r' := r.world.writePart i s event script
    (r.how = .threw ∧ (w.attachedEvent i s udp event script).1 = r.world) ∨
      r.how ≠ .threw ∧ ((w.attachedEvent i s udp event script).1 = r'.1 ∨
        r'.2 = false ∧ has event PE_ERROR = true ∧
          (w.attachedEvent i s udp event script).1 =
            r'.1.emitError i s (getSocketError script.soError script.errno)) := by
  intro r r'
  rw [attachedEvent_eq]
  dsimp only
  split
  · next hthrew => exact .inl ⟨hthrew, rfl⟩
  · next hhow =>
    refine .inr ⟨hhow, ?_⟩
    split
    · exact .inl rfl
    · next hno =>
      split
      · next hcond =>
        rw [Bool.and_eq_true] at hcond
        exact .inr ⟨by simpa using hno, hcond.2, rfl⟩
      · exact .inl rfl

theorem readPart_steps (hw : w.WF) (i : SockId) (s : SfdId) (udp : Bool) (event : Nat)
    (script : Script) (hconn : w.locals.conn = none) :
    Steps true w (w.readPart i s udp event script).world ∧
      (w.readPart i s udp event script).world.locals = w.locals := by
  unfold readPart
  split
  · exact onRead_steps script.reads hw hconn
  · exact ⟨.refl, rfl⟩

theorem writePart_steps (hw : w.WF) {i : SockId} {s : SfdId} (event : Nat) (script : Script)
    (hhandler : w.locals.handler = some (i, s)) (hconn : w.locals.conn = none)
    (hok : w.locals.sendFailed = false) :
    Steps true w (w.writePart i s event script).1 ∧
      ∃ b, (w.writePart i s event script).1.locals = { w.locals with sendFailed := b } ∧
        (b = true → ((w.writePart i s event script).1.sockets i).sockfd = none) := by
  unfold writePart
  split
  · next hcond =>
    rw [Bool.and_eq_true] at hcond
    exact onWriteable_steps hw script.send script.soError script.cb hhandler
      (Option.isSome_iff_ne_none.1 hcond.1) hconn hok
  · exact ⟨.refl, false, by rw [← hok], fun h => by cases h⟩

theorem attachedEvent_steps (hw : w.WF) {i : SockId} {s : SfdId} (udp : Bool) (event : Nat)
    (script : Script) (hhandler : w.locals.handler = some (i, s))
    (hconn : w.locals.conn = none) (hfailed : w.locals.sendFailed = false) :
    Steps true w (w.attachedEvent i s udp event script).1 ∧
      ∃ b, (w.attachedEvent i s udp event script).1.locals = { w.locals with sendFailed := b } ∧
        (b = true → ((w.attachedEvent i s udp event script).1.sockets i).sockfd = none) := by
  obtain ⟨hread, hlocals⟩ := readPart_steps hw i s udp event script hconn
  have hcases := attachedEvent_cases w i s udp event script
  dsimp only at hcases
  generalize w.readPart i s udp event script = r at hread hlocals hcases
  obtain ⟨hwrite, b, hb, hclosed⟩ := writePart_steps (hread.wf hw) event script
    (by rw [hlocals]; exact hhandler) (by rw [hlocals]; exact hconn)
    (by rw [hlocals]; exact hfailed)
  have hboth : Steps true w (r.world.writePart i s event script).1 := hread.trans hwrite
  rw [hlocals] at hb
  rcases hcases with ⟨-, hend⟩ | ⟨-, hend | ⟨-, -, hend⟩⟩
  · rw [hend]
    exact ⟨hread, false, by rw [hlocals, ← hfailed], fun h => by cases h⟩
  · rw [hend]
    exact ⟨hboth, b, hb, hclosed⟩
  · rw [hend]
    exact ⟨hboth.trans (emitError_steps (hboth.wf hw) i s _ (by rw [hb]; exact hconn)), b,
      by rw [emitError_locals, hb], fun _ => emitError_sockfd _ i s _⟩

/-! ## Accepting -/

@[simp] theorem setPeerSocket_locals (w : World) (j : SockId) (p : SfdId) :
    (w.setPeerSocket j p).locals =
      { w.locals with
        sfds := p :: w.locals.sfds
        fds := w.locals.fds.erase p
        unattached := p :: w.locals.unattached } := by
  unfold setPeerSocket
  rw [assignSockfd_locals]
  simp [makeSfd]

theorem peer_steps (hw : w.WF) {p : SfdId} (hp : p ∈ w.locals.fds)
    (hconn : w.locals.conn = none) :
    let v := ((w.create.holdSock w.nextSock).setPeerSocket w.nextSock p).setConnected p
    Steps d w v ∧ v.locals = { w.locals with
        sfds := p :: w.locals.sfds
        socks := w.nextSock :: w.locals.socks
        fds := w.locals.fds.erase p
        unattached := p :: w.locals.unattached } ∧
      (v.sfds p).alive ∧ (v.sfds p).owner = w.nextSock := by
  intro v
  have hcreate : Steps d w w.create := (Micro.create w).steps
  have hj : (w.create.sockets w.nextSock).alive := by simp [create, setSocket]
  have hhold : Steps d w.create (w.create.holdSock w.nextSock) := (Micro.holdSock _ _ hj).steps
  have hwf := hhold.wf (hcreate.wf hw)
  have hclose : Steps d (w.create.holdSock w.nextSock)
      ((w.create.holdSock w.nextSock).close w.nextSock) := close_steps hwf _ hconn
  have hloose : p ∈ ((w.create.holdSock w.nextSock).close w.nextSock).locals.fds := by
    rw [close_locals]
    exact hp
  have hj' : (((w.create.holdSock w.nextSock).close w.nextSock).sockets w.nextSock).alive := by
    rw [close_alive]
    exact hj
  have hmake : Steps d ((w.create.holdSock w.nextSock).close w.nextSock)
      (((w.create.holdSock w.nextSock).close w.nextSock).makeSfd p .tcp w.nextSock none) :=
    (Micro.makeSfd _ p .tcp w.nextSock none hloose hj').steps
  have hwf' := hclose.wf hwf
  have hmade : (((w.create.holdSock w.nextSock).close w.nextSock).makeSfd p .tcp w.nextSock
      none).sfds p = { ((w.create.holdSock w.nextSock).close w.nextSock).sfds p with
        type := .tcp, alive := true, owner := w.nextSock, attempt := none } := by
    simp [makeSfd]
  have hnew := (hwf'.looseOpen.2 p (List.mem_append_left _ hloose)).2.1
  have hassign : Steps d
      (((w.create.holdSock w.nextSock).close w.nextSock).makeSfd p .tcp w.nextSock none)
      ((w.create.holdSock w.nextSock).setPeerSocket w.nextSock p) :=
    assignSockfd_steps (hmake.wf hwf') hj' (by rw [hmade]) (by rw [hmade])
      (by rw [hmade]; exact hnew)
  have hset : Steps d ((w.create.holdSock w.nextSock).setPeerSocket w.nextSock p) v :=
    (Micro.setConnected _ p).steps
  have hcur : (((w.create.holdSock w.nextSock).setPeerSocket w.nextSock p).sockets
      w.nextSock).sockfd = some p := by
    unfold setPeerSocket
    rw [assignSockfd_sockets, Function.update_self]
  have hwf'' := hset.wf (hassign.wf (hmake.wf hwf'))
  have hlive := hwf''.current w.nextSock p hcur
  refine ⟨hcreate.trans (hhold.trans (hclose.trans (hmake.trans (hassign.trans hset)))), ?_,
    hlive.1, hlive.2.1⟩
  show ((w.create.holdSock w.nextSock).setPeerSocket w.nextSock p).locals = _
  rw [setPeerSocket_locals]
  rfl

def peerWorld (w : World) (i : SockId) (s p : SfdId) : World :=
  (((w.create.holdSock w.nextSock).setPeerSocket w.nextSock p).setConnected p).log
    (.accept i s w.nextSock)

/-- The references that `on_accept` holds while it deals with a new connection. -/
def peerLocals (w : World) (p : SfdId) : Locals :=
  { w.locals with
    sfds := p :: w.locals.sfds
    socks := w.nextSock :: w.locals.socks
    fds := w.locals.fds.erase p }

theorem dropPeer_steps (hw : w.WF) {p : SfdId} {y : World} (hy : y.WF)
    (hlocals : y.locals = w.peerLocals p) (hatt : w.locals.unattached = [])
    (hconn : w.locals.conn = none) :
    Steps d y y.dropSfd.dropSock ∧
      y.dropSfd.dropSock.locals = { w.locals with fds := w.locals.fds.erase p } := by
  have hsfds : y.locals.sfds = p :: w.locals.sfds := by rw [hlocals]; rfl
  have hatt' : p ∈ w.locals.sfds ∨ p ∉ y.locals.unattached := by
    rw [hlocals]
    exact .inr (by simp [peerLocals, hatt])
  have hhandler : y.locals.handler = w.locals.handler := by rw [hlocals]; rfl
  have hdrop : Steps d y y.dropSfd :=
    dropSfd_steps hsfds hatt' (by rw [hhandler]; exact hw.handler_sfd)
  have hends := dropSfd_locals hsfds
  have hsocks : y.dropSfd.locals.socks = w.nextSock :: w.locals.socks := by
    rw [hends, hlocals]
    rfl
  have hdrop' : Steps d y.dropSfd y.dropSfd.dropSock := by
    refine dropSock_steps (hdrop.wf hy) hsocks ?_ ?_
    · rw [hends, hlocals]
      exact hconn
    · rw [hends]
      exact fun q hq => hw.handler_sock q (hhandler ▸ hq)
  refine ⟨hdrop.trans hdrop', ?_⟩
  rw [dropSock_locals hsocks, hends, hlocals]
  rfl

/-- A new connection before, while and after `accept_cb_` runs. -/
structure PeerServed (w : World) (i : SockId) (s p : SfdId) (cb : CbRun) (ctlOk : Bool)
    (u x : World) : Prop where
  called : u = (w.peerWorld i s p).execOps cb.ops
  before : Steps true w u
  locals : (w.peerWorld i s p).locals =
    { w.peerLocals p with unattached := p :: w.locals.unattached }
  after : Steps false u x
  held : x.locals = w.peerLocals p
  sockfd : ∀ k, (x.sockets k).sockfd = (u.sockets k).sockfd
  returns : (w.acceptPeer i s p cb ctlOk).1 = x.dropSfd.dropSock ∨
    cb.throws = false ∧ (u.attachEvent w.nextSock p false ctlOk).2 = false ∧
      (w.acceptPeer i s p cb ctlOk).1 = (x.emitError w.nextSock p .other).dropSfd.dropSock

theorem acceptPeer_served (hw : w.WF) (i : SockId) (s : SfdId) {p : SfdId} (cb : CbRun)
    (ctlOk : Bool) (hp : p ∈ w.locals.fds) (hconn : w.locals.conn = none) :
    ∃ u x, w.PeerServed i s p cb ctlOk u x := by
  obtain ⟨hpeer, hlocals, hlive, howner⟩ := peer_steps (d := true) hw hp hconn
  dsimp only at hpeer hlocals hlive howner
  have hlog : Steps true w (w.peerWorld i s p) :=
    hpeer.trans (Micro.logAccept _ i s w.nextSock).steps
  have hlocals' : (w.peerWorld i s p).locals = { w.peerLocals p with
      unattached := p :: w.locals.unattached } := hlocals
  have hwf := Steps.wf hlog hw
  have hrun : Steps true (w.peerWorld i s p) ((w.peerWorld i s p).execOps cb.ops) := by
    refine execOps_steps cb.ops hwf ?_
    rw [hlocals']
    exact hconn
  have hmade := (Steps.sameMade hrun (hwf.made hlive)).2
  have hu : ((w.peerWorld i s p).execOps cb.ops).locals = { w.peerLocals p with
      unattached := p :: w.locals.unattached } := (execOps_locals cb.ops _).trans hlocals'
  have hwf' := hrun.wf hwf
  have hresult : (w.acceptPeer i s p cb ctlOk).1 =
      if cb.throws then
        (((w.peerWorld i s p).execOps cb.ops).logAcceptThrew p).dropSfd.dropSock
      else
        (if (((w.peerWorld i s p).execOps cb.ops).attachEvent w.nextSock p false ctlOk).2 then
          (((w.peerWorld i s p).execOps cb.ops).attachEvent w.nextSock p false ctlOk).1
        else (((w.peerWorld i s p).execOps cb.ops).attachEvent w.nextSock p false ctlOk).1.emitError
          w.nextSock p .other).dropSfd.dropSock := by
    unfold acceptPeer
    split <;> rfl
  generalize hcalled : (w.peerWorld i s p).execOps cb.ops = u at hrun hmade hu hwf' hresult
  have hmem : p ∈ u.locals.unattached := by
    rw [hu]
    exact List.mem_cons_self
  have herase : { u.locals with unattached := u.locals.unattached.erase p } =
      w.peerLocals p := by
    rw [hu]
    simp [peerLocals]
  by_cases hthrows : cb.throws = true
  · rw [if_pos hthrows] at hresult
    exact ⟨u, u.logAcceptThrew p, hcalled.symm, hlog.trans hrun, hlocals',
      (Micro.logAcceptThrew u p hmem).steps, herase, fun k => rfl, .inl hresult⟩
  · rw [if_neg hthrows] at hresult
    have hp' : (u.sfds p).alive :=
      hwf'.localsLive.1 p (by rw [hu]; exact List.mem_cons_self)
    refine ⟨u, (u.attachEvent w.nextSock p false ctlOk).1, hcalled.symm, hlog.trans hrun, hlocals',
      attachEvent_steps hwf' hp' (hmade.owner.trans howner) hmem false ctlOk,
      (attachEvent_locals u w.nextSock p false ctlOk).trans herase, fun k => ?_, ?_⟩
    · obtain ⟨q, r, hq⟩ := attachEvent_sockets u w.nextSock p false ctlOk k
      rw [hq]
    · by_cases hadd : (u.attachEvent w.nextSock p false ctlOk).2 = true
      · rw [if_pos hadd] at hresult
        exact .inl hresult
      · rw [if_neg hadd] at hresult
        rw [Bool.not_eq_true] at hthrows hadd
        exact .inr ⟨hthrows, hadd, hresult⟩

theorem acceptPeer_steps (hw : w.WF) {i : SockId} {s p : SfdId} (cb : CbRun) (ctlOk : Bool)
    (hp : p ∈ w.locals.fds) (hatt : w.locals.unattached = []) (hconn : w.locals.conn = none) :
    Steps true w (w.acceptPeer i s p cb ctlOk).1 ∧
      (w.acceptPeer i s p cb ctlOk).1.locals =
        { w.locals with fds := w.locals.fds.erase p } := by
  obtain ⟨u, x, hserved⟩ := acceptPeer_served hw i s cb ctlOk hp hconn
  have hx : Steps true w x := hserved.before.trans hserved.after.deliver
  have hlast : ∀ y : World, Steps true x y → y.locals = x.locals →
      Steps true w y.dropSfd.dropSock ∧
        y.dropSfd.dropSock.locals = { w.locals with fds := w.locals.fds.erase p } := by
    intro y hy hlocals
    obtain ⟨hdrop, hend⟩ := dropPeer_steps (d := true) hw (hy.wf (hx.wf hw))
      (hlocals.trans hserved.held) hatt hconn
    exact ⟨hx.trans (hy.trans hdrop), hend⟩
  rcases hserved.returns with hend | ⟨-, -, hend⟩
  · rw [hend]
    exact hlast x .refl rfl
  · rw [hend]
    refine hlast _ (emitError_steps (hx.wf hw) _ _ _ ?_) (emitError_locals _ _ _ _)
    rw [hserved.held]
    exact hconn

theorem acceptOpened_steps {n : Fd} (i : SockId) (s : SfdId) (hw : (w.opened n).WF) (cb : CbRun)
    (ctlOk : Bool) (hatt : w.locals.unattached = []) (hconn : w.locals.conn = none) :
    Steps true (w.opened n) ((w.opened n).acceptPeer i s w.nextSfd cb ctlOk).1 ∧
      ((w.opened n).acceptPeer i s w.nextSfd cb ctlOk).1.locals = w.locals := by
  have hp : w.nextSfd ∈ (w.opened n).locals.fds := List.mem_cons_self
  obtain ⟨hpeer, hlocals⟩ := acceptPeer_steps hw cb ctlOk hp hatt hconn
  refine ⟨hpeer, ?_⟩
  rw [hlocals]
  simp [opened]

theorem acceptLoop_steps {i : SockId} {s : SfdId} (isError : Bool) (err : SockErrCode)
    (items : List AcceptItem) (hw : w.WF) (hatt : w.locals.unattached = [])
    (hconn : w.locals.conn = none) :
    Steps true w (acceptLoop i s isError err w items).1 ∧
      (acceptLoop i s isError err w items).1.locals = w.locals := by
  induction items generalizing w with
  | nil => exact ⟨.refl, rfl⟩
  | cons item items ih =>
      cases item with
      | err e soError =>
          rw [acceptLoop]
          split
          · exact ih hw hatt hconn
          · split
            · exact ⟨.refl, rfl⟩
            · exact ⟨emitError_steps hw i s _ hconn, emitError_locals w i s _⟩
      | conn fd cb ctlOk =>
          rw [acceptLoop]
          dsimp only
          split
          · exact ⟨.refl, rfl⟩
          · next p hsome =>
            have hopen : Steps true w (w.openFd (some fd)).1 := openFd_steps w (some fd)
            obtain ⟨n, hopened, rfl⟩ := openFd_some hsome
            rw [hopened] at hopen ⊢
            obtain ⟨hpeer, hback⟩ := acceptOpened_steps i s (hopen.wf hw) cb ctlOk hatt hconn
            have hall := hopen.trans hpeer
            have hwf := Steps.wf hall hw
            split
            · exact ⟨hall, hback⟩
            · split
              · exact ⟨hall.trans (emitError_steps hwf i s err (by rw [hback]; exact hconn)),
                  by rw [emitError_locals, hback]⟩
              · obtain ⟨hrest, hend⟩ := ih hwf (by rw [hback]; exact hatt)
                  (by rw [hback]; exact hconn)
                exact ⟨hall.trans hrest, hend.trans hback⟩

theorem onAccept_steps (hw : w.WF) {i : SockId} {s : SfdId} {event : Nat} {err : SockErrCode}
    {items : List AcceptItem} (hatt : w.locals.unattached = []) (hconn : w.locals.conn = none)
    {r : World × Bool} (hr : w.onAccept i s event err items = some r) :
    Steps true w r.1 ∧ r.1.locals = w.locals := by
  unfold onAccept at hr
  split at hr
  · cases hr
    exact acceptLoop_steps _ err items hw hatt hconn
  · split at hr
    · cases hr
      exact ⟨emitError_steps hw i s err hconn, emitError_locals w i s err⟩
    · cases hr

/-! ## The steps of the poller thread -/

/-- What holds between the steps of the poller thread. -/
structure Quiet (w : World) : Prop where
  wf : w.WF
  locals : w.locals = {}

/-- The world in which the function `cb` of `event_map_` is called. -/
structure Serving (w : World) (cb : PollEventCB) : Prop where
  wf : w.WF
  locals : w.locals =
    { sfds := [cb.sfd], socks := [cb.sock], handler := some (cb.sock, cb.sfd) }
  cur : (w.sockets cb.sock).sockfd = some cb.sfd
  reg : w.poller.eventMap (w.sfds cb.sfd).fd = some cb

theorem WF.current_of_alive (hw : w.WF) (hlocals : w.locals = {}) {s : SfdId}
    (hs : (w.sfds s).alive) : (w.sockets (w.sfds s).owner).sockfd = some s := by
  rcases hw.referred s hs with hheld | hcur
  · rw [hlocals] at hheld
    cases hheld
  · exact hcur

theorem WF.alive_of_current (hw : w.WF) {i : SockId} {s : SfdId}
    (hcur : (w.sockets i).sockfd = some s) : (w.sockets i).alive := by
  by_contra hdead
  rw [(hw.deadIdle i (by simpa using hdead)).sockfd] at hcur
  cases hcur

theorem Quiet.current_of_reg (hq : w.Quiet) {fd : Fd} {cb : PollEventCB}
    (hreg : w.poller.eventMap fd = some cb) : (w.sockets cb.sock).sockfd = some cb.sfd := by
  obtain ⟨hs, -, howner, -⟩ := hq.wf.regLive fd cb hreg
  have hcur := hq.wf.current_of_alive hq.locals hs
  rwa [howner] at hcur

theorem lock_steps (hq : w.Quiet) {fd : Fd} {cb : PollEventCB}
    (hreg : w.poller.eventMap fd = some cb) : Steps d w (w.lock cb.sock cb.sfd) := by
  have hcur := hq.current_of_reg hreg
  exact (Micro.lock w cb.sock cb.sfd hq.locals (hq.wf.alive_of_current hcur) hcur).steps

theorem lock_serving (hq : w.Quiet) {fd : Fd} {cb : PollEventCB}
    (hreg : w.poller.eventMap fd = some cb) : (w.lock cb.sock cb.sfd).Serving cb where
  wf := (lock_steps (d := false) hq hreg).wf hq.wf
  locals := by simp [lock, hq.locals]
  cur := hq.current_of_reg hreg
  reg := by
    show w.poller.eventMap (w.sfds cb.sfd).fd = some cb
    rw [(hq.wf.regLive fd cb hreg).2.1, hreg]

theorem handle_steps {cb : PollEventCB} (hs : w.Serving cb) {event : Nat} {script : Script}
    (h : w.handle cb event script = some w') :
    Steps true w w' ∧ ∃ b, w'.locals = { w.locals with sendFailed := b } ∧
      (b = true → (w'.sockets cb.sock).sockfd = none) := by
  have hhandler : w.locals.handler = some (cb.sock, cb.sfd) := by rw [hs.locals]
  have hconn : w.locals.conn = none := by rw [hs.locals]
  have hfailed : w.locals.sendFailed = false := by rw [hs.locals]
  have hsame : w.locals = { w.locals with sendFailed := false } := by rw [← hfailed]
  have hcur := hs.cur
  have hreg := hs.reg
  unfold handle at h
  split at h
  · cases h
    obtain ⟨hsteps, hlocals⟩ := onConnected_steps (d := true) hs.wf
      (getSocketError script.soError script.errno) script.ctlOk script.cb hhandler hcur hreg hconn
    exact ⟨hsteps, false, hlocals.trans hsame, fun hb => by cases hb⟩
  · cases h
    exact attachedEvent_steps hs.wf _ event script hhandler hconn hfailed
  · obtain ⟨r, hr, rfl⟩ := Option.map_eq_some_iff.1 h
    obtain ⟨hsteps, hlocals⟩ := onAccept_steps hs.wf (by rw [hs.locals]) hconn hr
    exact ⟨hsteps, false, hlocals.trans hsame, fun hb => by cases hb⟩

theorem unlock_steps {cb : PollEventCB} (hs : w.Serving cb) {u : World} (hrun : Steps true w u)
    {b : Bool} (hb : u.locals = { w.locals with sendFailed := b })
    (hclosed : b = true → (u.sockets cb.sock).sockfd = none) :
    Steps d u u.unlock.dropSfd.dropSock ∧ u.unlock.dropSfd.dropSock.locals = {} := by
  rw [hs.locals] at hb
  have hunlock : Steps d u u.unlock := by
    refine (Micro.unlock u fun hf i s his => ?_).steps
    rw [hb] at hf his
    cases his
    exact hclosed hf
  have hend : u.unlock.locals = { sfds := [cb.sfd], socks := [cb.sock] } := by
    simp [unlock, hb]
  obtain ⟨hdrop, hempty⟩ := dropBoth_steps (d := d) (hunlock.wf (hrun.wf hs.wf)) hend
  exact ⟨hunlock.trans hdrop, hempty⟩

theorem dispatch_cases (hq : w.Quiet) {fd : Fd} {epollEvents : Nat} {script : Script}
    (h : w.dispatch fd epollEvents script = some w') :
    w' = w ∨ ∃ cb u, w.poller.eventMap fd = some cb ∧
      (w.lock cb.sock cb.sfd).handle cb (toPoller epollEvents) script = some u ∧
      w' = u.unlock.dropSfd.dropSock := by
  unfold dispatch at h
  split at h
  · next hnone =>
    cases h
    exact .inl (by rw [EventPoller.dropInterest_eq ((hq.wf.agree.epollSet_eq_none fd).2 hnone)])
  · next cb hreg =>
    split at h
    · obtain ⟨u, hu, rfl⟩ := Option.map_eq_some_iff.1 h
      exact .inr ⟨cb, u, hreg, hu, rfl⟩
    · cases h
      exact .inl rfl

theorem dispatch_steps (hq : w.Quiet) {fd : Fd} {epollEvents : Nat} {script : Script}
    (h : w.dispatch fd epollEvents script = some w') : Steps true w w' ∧ w'.locals = {} := by
  rcases dispatch_cases hq h with rfl | ⟨cb, u, hreg, hu, rfl⟩
  · exact ⟨.refl, hq.locals⟩
  · have hs := lock_serving hq hreg
    obtain ⟨hrun, b, hb, hclosed⟩ := handle_steps hs hu
    obtain ⟨hdrop, hempty⟩ := unlock_steps (d := true) hs hrun hb hclosed
    exact ⟨(lock_steps hq hreg).trans (hrun.trans hdrop), hempty⟩

theorem runConnect_steps (i : SockId) (a : ConnId) (fd : Option Fd) (hlocals : w.locals = {}) :
    Steps d w (w.runConnect i a fd) ∧ (w.runConnect i a fd).locals = {} := by
  have hopen : Steps d w (w.openFd fd).1 := openFd_steps w fd
  unfold runConnect
  dsimp only
  split
  · next hnone =>
    rw [openFd_none hnone]
    exact ⟨(Micro.post w (.connected i a none) false trivial).steps, hlocals⟩
  · next s hsome =>
    obtain ⟨n, hopened, rfl⟩ := openFd_some hsome
    rw [hopened] at hopen ⊢
    refine ⟨hopen.trans (Micro.postConnected _ i a w.nextSfd List.mem_cons_self).steps, ?_⟩
    simp [post, opened, hlocals]

theorem runConnected_steps (hw : w.WF) (i : SockId) (a : ConnId) {fd : Option SfdId}
    (ctlOk : Bool) (cb : CbRun) (hlocals : w.locals = { fds := fd.toList }) :
    Steps d w (w.runConnected i a fd ctlOk cb) ∧
      (w.runConnected i a fd ctlOk cb).locals = {} := by
  unfold runConnected
  split
  · next hasync => exact asyncConnectCb_steps hw hasync hlocals
  · cases fd with
    | none => exact ⟨.refl, hlocals⟩
    | some s => exact closeLoose_steps hlocals

theorem runError_steps (hw : w.WF) (i : SockId) (err : SockErrCode) (cb : CbRun)
    (hlocals : w.locals = {}) :
    Steps d w (w.runError i err cb) ∧ (w.runError i err cb).locals = {} := by
  unfold runError
  split
  · next hi =>
    have hhold : Steps d w (w.holdSock i) := (Micro.holdSock w i hi).steps
    have hlog : Steps d (w.holdSock i) ((w.holdSock i).log (.error i err)) :=
      (Micro.logError _ i err).steps
    have hconn : ((w.holdSock i).log (.error i err)).locals.conn = none := by
      simp [holdSock, log, hlocals]
    have hrun := execOps_steps (d := d) cb.ops (hlog.wf (hhold.wf hw)) hconn
    have hend : (((w.holdSock i).log (.error i err)).execOps cb.ops).locals =
        { socks := [i] } := by
      rw [execOps_locals]
      simp [holdSock, log, hlocals]
    refine ⟨hhold.trans (hlog.trans (hrun.trans (dropSock_steps
      (hrun.wf (hlog.wf (hhold.wf hw))) (by rw [hend]) (by rw [hend]) (by rw [hend]; simp)))), ?_⟩
    rw [dropSock_locals (by rw [hend]), hend]
  · exact ⟨.refl, hlocals⟩

theorem runTask_steps (hw : w.WF) (hlocals : w.locals = {}) {t : SocketTask}
    {tasks : List SocketTask} (hswap : w.swapList = t :: tasks) (script : TaskScript) :
    Steps d w ((w.pop tasks).runTask t script) ∧
      ((w.pop tasks).runTask t script).locals = {} := by
  have hpop : t.Plain → Steps d w (w.pop tasks) := fun ht => (Micro.pop w t tasks ht hswap).steps
  unfold runTask
  cases t with
  | connect i a =>
      obtain ⟨hrun, hend⟩ := runConnect_steps (d := d) (w := w.pop tasks) i a script.fd hlocals
      exact ⟨(hpop trivial).trans hrun, hend⟩
  | connected i a fd =>
      have hstart : ({ w.pop tasks with
          locals := { (w.pop tasks).locals with fds := fd.toList ++ (w.pop tasks).locals.fds } } :
            World).locals = { fds := fd.toList } := by
        show ({ w.locals with fds := fd.toList ++ w.locals.fds } : Locals) = _
        rw [hlocals]
        simp
      have htake : Steps d w { w.pop tasks with
          locals := { (w.pop tasks).locals with
            fds := fd.toList ++ (w.pop tasks).locals.fds } } := by
        cases fd with
        | none => exact hpop trivial
        | some s => exact (Micro.popConnected w i a s tasks hswap).steps
      obtain ⟨hrun, hend⟩ := runConnected_steps (d := d) (htake.wf hw) i a script.ctlOk
        script.cb hstart
      exact ⟨htake.trans hrun, hend⟩
  | append i s buf =>
      dsimp only [runSend]
      split
      · next halive =>
        refine ⟨(Micro.runAppend w i s buf tasks hswap hlocals halive.1 halive.2).steps, ?_⟩
        rw [runAppend_locals]
        exact hlocals
      · next hgone => exact ⟨(Micro.dropAppend w i s buf tasks hswap hgone).steps, hlocals⟩
  | error i err =>
      obtain ⟨hrun, hend⟩ := runError_steps (d := d) ((hpop trivial).wf hw) i err script.cb hlocals
      exact ⟨(hpop trivial).trans hrun, hend⟩
  | insertDelay timeline a =>
      exact ⟨(hpop trivial).trans (Micro.setDelayTasks _ _).steps, hlocals⟩
  | user =>
      refine ⟨(hpop trivial).trans (execOps_steps script.cb.ops ((hpop trivial).wf hw) ?_), ?_⟩
      · show w.locals.conn = none
        rw [hlocals]
      · exact (execOps_locals script.cb.ops _).trans hlocals
  | exit => exact ⟨(hpop trivial).trans (Micro.setExit _).steps, hlocals⟩

theorem runTimer_steps (hw : w.WF) (hlocals : w.locals = {}) (a : ConnId) (now : Nat)
    (cb : CbRun) : Steps d w (w.runTimer a now cb) ∧ (w.runTimer a now cb).locals = {} := by
  unfold runTimer
  split
  · exact ⟨.refl, hlocals⟩
  · next hlive =>
    have hrun : Steps d w (w.connectCb (w.conns a).owner a .timeout cb).1 :=
      connectCb_steps hw .timeout cb (fun _ => .timer (by simpa using hlive) rfl)
        fun h => by cases h
    have hend : (w.connectCb (w.conns a).owner a .timeout cb).1.locals = {} := by
      by_cases hi : (w.sockets (w.conns a).owner).alive
      · rw [connectCb_locals w a .timeout cb hi, hlocals]
      · unfold connectCb
        rw [if_neg hi]
        exact hlocals
    dsimp only
    split
    · exact ⟨hrun.trans (Micro.setDelayTasks _ _).steps, hend⟩
    · exact ⟨hrun, hend⟩

theorem stepOther_steps (hq : w.Quiet) {act : Action}
    (hother : ∀ fd epollEvents script, act ≠ .event fd epollEvents script)
    (h : w.step act = some w') : Steps d w w' ∧ w'.locals = {} := by
  have hlocals := hq.locals
  cases act with
  | user ops =>
      cases h
      exact ⟨execOps_steps ops hq.wf (by rw [hlocals]), (execOps_locals ops w).trans hlocals⟩
  | swap =>
      unfold step at h
      dsimp only at h
      split at h
      · next hnil =>
        cases h
        exact ⟨(Micro.swap w hnil).steps, hlocals⟩
      · cases h
  | task script =>
      unfold step at h
      dsimp only at h
      split at h
      · cases h
      · next t tasks hswap =>
        cases h
        exact runTask_steps hq.wf hlocals hswap script
  | timer k now cb =>
      unfold step at h
      dsimp only at h
      split at h
      · split at h
        · cases h
          have hset : Steps d w (w.setDelayTasks (w.poller.delayTasks.eraseIdx k)) :=
            (Micro.setDelayTasks w _).steps
          obtain ⟨hrun, hend⟩ := runTimer_steps (d := d) (hset.wf hq.wf) hlocals _ now cb
          exact ⟨hset.trans hrun, hend⟩
        · cases h
      · cases h
  | event fd epollEvents script => exact absurd rfl (hother fd epollEvents script)

theorem step_event {fd : Fd} {epollEvents : Nat} {script : Script}
    (h : w.step (.event fd epollEvents script) = some w') :
    w.dispatch fd epollEvents script = some w' := by
  unfold step at h
  dsimp only at h
  split at h
  · exact h
  · cases h

/-- Every step of the poller thread is a sequence of atomic steps, after which no
function is running. -/
theorem step_steps (hq : w.Quiet) {act : Action} (h : w.step act = some w') :
    Steps true w w' ∧ w'.locals = {} := by
  cases act with
  | event fd epollEvents script => exact dispatch_steps hq (step_event h)
  | _ => exact stepOther_steps hq (by simp) h

/-! ## Runs -/

variable {C : World → Action → Prop} {acts : List Action}

theorem step_quiet (hq : w.Quiet) {act : Action} (h : w.step act = some w') : w'.Quiet := by
  obtain ⟨hsteps, hlocals⟩ := step_steps hq h
  exact ⟨hsteps.wf hq.wf, hlocals⟩

theorem run_quiet (hrun : Run step C {} acts w) : w.Quiet :=
  hrun.invariant (fun _ _ _ hq _ hstep => step_quiet hq hstep) ⟨init_wf, rfl⟩

theorem run_invariant {P : World → Prop} (hinit : P {})
    (hpres : ∀ w w' : World, Micro true w w' → w.WF → P w → P w')
    (hrun : Run step C {} acts w) : P w := by
  have hboth : w.Quiet ∧ P w := by
    refine hrun.invariant (I := fun w => w.Quiet ∧ P w) ?_ ⟨⟨init_wf, rfl⟩, hinit⟩
    intro v act v' hv _ hstep
    obtain ⟨hsteps, hlocals⟩ := step_steps hv.1 hstep
    have hkeep : v'.WF ∧ P v' := by
      refine Steps.invariant (P := fun u => u.WF ∧ P u) (fun u u' hmicro hu => ?_) hsteps
        ⟨hv.1.wf, hv.2⟩
      exact ⟨micro_wf hmicro hu.1, hpres u u' hmicro hu.1 hu.2⟩
    exact ⟨⟨hkeep.1, hlocals⟩, hkeep.2⟩
  exact hboth.2

def connectFirst : List Action :=
  [.user [.create, .connect 0 5000 0], .swap, .task {}, .task { fd := some 5 }, .swap, .task {},
    .event 5 EPOLLOUT {}]

end World

end CommonLibrary.Net
