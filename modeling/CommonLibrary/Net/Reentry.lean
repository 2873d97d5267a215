import CommonLibrary.Net.Effects

/-!
# User code inside a handler

A callback that runs while an event is handled may close the socket the event is for,
and `Listen` gives it another `sockfd_` at once.  The handler goes on with the
`SocketFD` it has locked.  This module says what user code does to `sockfd_` of a socket
that a handler holds, and what a `Close` means for the rest of the history.
-/

namespace CommonLibrary.Net

open Foundation Poller

namespace UserOp

/-- The call begins with a `Close` of `i`. -/
def closes (i : SockId) : UserOp → Bool
  | close j => j = i
  | connect j _ _ => j = i
  | listen j _ _ _ => j = i
  | _ => false

/-- It is a `Listen` on `i` that the kernel agrees to. -/
def listens (i : SockId) : UserOp → Bool
  | listen j type fd ctlOk => j = i && fd.isSome && (type = .udp || ctlOk)
  | _ => false

def creates : UserOp → Bool
  | create => true
  | _ => false

end UserOp

namespace World

variable {d : Bool} {w w' : World} {i j : SockId} {s : SfdId}

/-! ## `sockfd_` of a socket that is held -/

theorem close_sockfd (w : World) (i j : SockId) :
    ((w.close j).sockets i).sockfd = if i = j then none else (w.sockets i).sockfd := by
  rw [close_sockets, Function.update_apply]
  split <;> rfl

theorem assignSockfd_sockfd (w : World) (i j : SockId) (s : SfdId) :
    ((w.assignSockfd j s).sockets i).sockfd = if i = j then some s else (w.sockets i).sockfd := by
  rw [assignSockfd_sockets, Function.update_apply]
  split <;> rfl

theorem attachEvent_sockfd (w : World) (i j : SockId) (s : SfdId) (udp ctlOk : Bool) :
    ((w.attachEvent j s udp ctlOk).1.sockets i).sockfd = (w.sockets i).sockfd := by
  obtain ⟨q, r, hq⟩ := attachEvent_sockets w j s udp ctlOk i
  rw [hq]

theorem attachEvent_result (w : World) (i : SockId) (s : SfdId) (udp ctlOk : Bool) :
    (w.attachEvent i s udp ctlOk).2 =
      (ctlOk && (w.poller.epollSet (w.sfds s).fd).isNone) := by
  have hadd : ((w.allocReadBuf i udp).register s (.attached i s udp)
      (PE_READ ||| PE_WRITE ||| PE_ERROR) ctlOk).2 =
        (ctlOk && (w.poller.epollSet (w.sfds s).fd).isNone) := by
    show ((w.allocReadBuf i udp).poller.addEvent ((w.allocReadBuf i udp).sfds s).fd
      (PE_READ ||| PE_WRITE ||| PE_ERROR) (.attached i s udp) ctlOk).2 = _
    rw [EventPoller.addEvent_ok, allocReadBuf_poller, (allocReadBuf_same w i udp).sfds]
  unfold attachEvent
  dsimp only
  split
  · next hok => exact hok.symm.trans hadd
  · next hno => exact (Bool.eq_false_of_not_eq_true hno).symm.trans hadd

theorem emitError_sockfd_of_ne (hne : i ≠ j) (w : World) (s : SfdId) (err : SockErrCode) :
    ((w.emitError j s err).sockets i).sockfd = (w.sockets i).sockfd := by
  unfold emitError
  split
  · rfl
  · next cur _ =>
    show (((w.log (.raised j s cur err)).close j).sockets i).sockfd = _
    rw [close_sockfd, if_neg hne]
    rfl

theorem listenOn_sockfd (w : World) (i j : SockId) (s : SfdId) (ctlOk : Bool) :
    ((w.listenOn j s ctlOk).1.sockets i).sockfd = (w.sockets i).sockfd ∨
      i = j ∧ ((w.sfds s).type = .udp ∨ ctlOk = true) ∧
        ((w.listenOn j s ctlOk).1.sockets i).sockfd = some s := by
  unfold listenOn
  split
  · dsimp only
    split
    · next hadd =>
      have hok : (ctlOk && (w.poller.epollSet (w.sfds s).fd).isNone) = true :=
        (EventPoller.addEvent_ok _ _ _ _).symm.trans hadd
      rw [Bool.and_eq_true] at hok
      rw [assignSockfd_sockfd]
      split
      · next heq => exact .inr ⟨heq, .inr hok.1, rfl⟩
      · exact .inl rfl
    · exact .inl rfl
  · next hudp =>
    rw [assignSockfd_sockfd]
    split
    · next heq => exact .inr ⟨heq, .inl hudp, rfl⟩
    · exact .inl (attachEvent_sockfd w i j s true ctlOk)

theorem listen_sockfd (w : World) (i j : SockId) (type : SockType) (fd : Option Fd)
    (ctlOk : Bool) :
    (i ≠ j → ((w.listen j type fd ctlOk).1.sockets i).sockfd = (w.sockets i).sockfd) ∧
      (i = j → ((w.listen j type fd ctlOk).1.sockets i).sockfd = none ∨
        (UserOp.listen j type fd ctlOk).listens i = true ∧
          ((w.listen j type fd ctlOk).1.sockets i).sockfd = some w.nextSfd) := by
  have hclosed : ∀ v : World, v.sockets = (w.close j).sockets →
      (v.sockets i).sockfd = if i = j then none else (w.sockets i).sockfd := by
    intro v hv
    rw [hv, close_sockfd]
  unfold listen
  dsimp only
  split
  · next hnone =>
    rw [openFd_none hnone, close_sockfd]
    exact ⟨fun hne => if_neg hne, fun heq => .inl (if_pos heq)⟩
  · next s hsome =>
    obtain ⟨n, hopened, rfl⟩ := openFd_some hsome
    rw [hopened, dropSfd_sockets]
    have hmade := hclosed (((w.close j).opened n).makeSfd (w.close j).nextSfd type j none) rfl
    have htype : ((((w.close j).opened n).makeSfd (w.close j).nextSfd type j none).sfds
        (w.close j).nextSfd).type = type := by simp [makeSfd]
    rcases listenOn_sockfd (((w.close j).opened n).makeSfd (w.close j).nextSfd type j none) i j
      (w.close j).nextSfd ctlOk with hsame | ⟨heq, hok, hnew⟩
    · rw [hsame, hmade]
      exact ⟨fun hne => if_neg hne, fun heq => .inl (if_pos heq)⟩
    · rw [hnew, close_nextSfd]
      rw [htype] at hok
      have hsome := openFd_isSome hsome
      exact ⟨fun hne => absurd heq hne, fun _ => .inr ⟨by simp [UserOp.listens, heq, hsome, hok],
        rfl⟩⟩

theorem send_sockfd (w : World) (i j : SockId) (data : List UInt8) (addr : Option SockAddr) :
    ((w.send j data addr).1.sockets i).sockfd = (w.sockets i).sockfd := by
  unfold send
  split
  · rfl
  · split <;> rfl

theorem dropSock_sockfd {rest : List SockId} (hsocks : w.locals.socks = j :: rest)
    (hi : i ∈ rest) : (w.dropSock.sockets i).sockfd = (w.sockets i).sockfd := by
  unfold dropSock
  simp only [hsocks]
  split
  · rfl
  · next hgone =>
    have hne : i ≠ j := fun heq => hgone (.inl (heq ▸ hi))
    simp only [killSock, log, setSocket, Function.update_of_ne hne]
    show ((w.close j).sockets i).sockfd = _
    rw [close_sockfd, if_neg hne]

theorem drop_sockfd (hi : i ∈ w.locals.socks) (j : SockId) :
    ((w.drop j).sockets i).sockfd = (w.sockets i).sockfd := by
  have hkeep : (((w.holdSock j).dropUserRef j).sockets i).sockfd = (w.sockets i).sockfd :=
    update_keeps Socket.sockfd (by rfl) i
  exact (dropSock_sockfd rfl hi).trans hkeep

theorem WF.log (hw : w.WF) (e : Event) : (w.log e).WF :=
  ⟨hw.agree, hw.regLive, hw.openLive, hw.current, hw.referred, hw.localsLive, hw.handlerLive,
    fun i hi => ⟨(hw.deadIdle i hi).connectTimer, (hw.deadIdle i hi).asyncConnectCb,
      (hw.deadIdle i hi).sockfd⟩, hw.sockBound, hw.looseOpen, hw.appendsOwned⟩

theorem WF.held_lt (hw : w.WF) (hi : i ∈ w.locals.socks) : i < w.nextSock :=
  hw.sockBound i (hw.localsLive.2.2 i hi)

theorem execOp_sockfd (hw : w.WF) (hi : i ∈ w.locals.socks) (op : UserOp) :
    (op.closes i = false ∧ ((w.execOp op).sockets i).sockfd = (w.sockets i).sockfd) ∨
      (op.closes i = true ∧ (((w.execOp op).sockets i).sockfd = none ∨
        op.listens i = true ∧ ((w.execOp op).sockets i).sockfd = some w.nextSfd)) := by
  have hlive : (w.sockets i).alive := hw.localsLive.2.2 i hi
  cases op with
  | create =>
      left
      have hne : i ≠ w.nextSock := Nat.ne_of_lt (hw.held_lt hi)
      exact ⟨rfl, by simp [execOp, create, setSocket, hne]⟩
  | close j =>
      unfold execOp
      dsimp only
      by_cases hj : i = j
      · subst hj
        rw [if_pos hlive, close_sockfd, if_pos rfl]
        exact .inr ⟨by simp [UserOp.closes], .inl rfl⟩
      · refine .inl ⟨by simp [UserOp.closes, Ne.symm hj], ?_⟩
        split
        · rw [close_sockfd, if_neg hj]
        · rfl
  | connect j timeoutMs now =>
      unfold execOp
      dsimp only
      have hstart : ((w.connect j timeoutMs now).sockets i).sockfd =
          ((w.close j).sockets i).sockfd := update_keeps Socket.sockfd (by rfl) i
      by_cases hj : i = j
      · subst hj
        rw [if_pos hlive, hstart, close_sockfd, if_pos rfl]
        exact .inr ⟨by simp [UserOp.closes], .inl rfl⟩
      · refine .inl ⟨by simp [UserOp.closes, Ne.symm hj], ?_⟩
        split
        · rw [hstart, close_sockfd, if_neg hj]
        · rfl
  | listen j type fd ctlOk =>
      unfold execOp
      dsimp only
      obtain ⟨hother, hself⟩ := listen_sockfd w i j type fd ctlOk
      by_cases hj : i = j
      · subst hj
        rw [if_pos hlive]
        exact .inr ⟨by simp [UserOp.closes], hself rfl⟩
      · refine .inl ⟨by simp [UserOp.closes, Ne.symm hj], ?_⟩
        split
        · exact hother hj
        · rfl
  | send j data addr =>
      left
      refine ⟨rfl, ?_⟩
      unfold execOp
      dsimp only
      split
      · exact send_sockfd w i j data addr
      · rfl
  | drop j =>
      left
      refine ⟨rfl, ?_⟩
      unfold execOp
      dsimp only
      split
      · exact drop_sockfd hi j
      · rfl
  | async first => exact .inl ⟨rfl, rfl⟩
  | shutdown => exact .inl ⟨rfl, rfl⟩

theorem Steps.nextSfd_le (h : Steps d w w') : w.nextSfd ≤ w'.nextSfd := by
  induction h with
  | refl => exact le_refl _
  | tail _ hstep ih => exact ih.trans (micro_nextSfd_le hstep)

/-- User code keeps `sockfd_` of `i`, or closes it; then a descriptor opened later may
have taken its place. -/
theorem execOps_sockfd (ops : List UserOp) (hw : w.WF) (hconn : w.locals.conn = none)
    (hi : i ∈ w.locals.socks) :
    (ops.any (UserOp.closes i) = false ∧
        ((w.execOps ops).sockets i).sockfd = (w.sockets i).sockfd) ∨
      (ops.any (UserOp.closes i) = true ∧ (((w.execOps ops).sockets i).sockfd = none ∨
        ops.any (UserOp.listens i) = true ∧
          ∃ s', w.nextSfd ≤ s' ∧ ((w.execOps ops).sockets i).sockfd = some s')) := by
  induction ops generalizing w with
  | nil => exact .inl ⟨rfl, rfl⟩
  | cons op ops ih =>
      have hop : Steps false w (w.execOp op) := execOp_steps hw op hconn
      have hle := hop.nextSfd_le
      have hfirst := execOp_sockfd hw hi op
      have hrest := ih (hop.wf hw) (by rw [execOp_locals]; exact hconn)
        (by rw [execOp_locals]; exact hi)
      rw [List.any_cons, List.any_cons]
      show (_ ∧ (((w.execOp op).execOps ops).sockets i).sockfd = _) ∨ (_ ∧
        ((((w.execOp op).execOps ops).sockets i).sockfd = none ∨ _ ∧ ∃ s', _ ∧
          (((w.execOp op).execOps ops).sockets i).sockfd = some s'))
      rcases hrest with ⟨hno, hsame⟩ | ⟨hyes, hnone | ⟨hlisten, s', hs', hnew⟩⟩
      · rw [hsame, hno, Bool.or_false]
        rcases hfirst with ⟨hno', hsame'⟩ | ⟨hyes', hnone | ⟨hlisten, hnew⟩⟩
        · exact .inl ⟨hno', hsame'⟩
        · exact .inr ⟨hyes', .inl hnone⟩
        · exact .inr ⟨hyes', .inr ⟨by rw [hlisten, Bool.true_or], _, le_refl _, hnew⟩⟩
      · exact .inr ⟨by rw [hyes, Bool.or_true], .inl hnone⟩
      · exact .inr ⟨by rw [hyes, Bool.or_true],
          .inr ⟨by rw [hlisten, Bool.or_true], s', hle.trans hs', hnew⟩⟩

theorem execOps_not_current (ops : List UserOp) (hw : w.WF) (hconn : w.locals.conn = none)
    (hi : i ∈ w.locals.socks) (hs : (w.sfds s).alive)
    (hcloses : ops.any (UserOp.closes i) = true) :
    ((w.execOps ops).sockets i).sockfd ≠ some s := by
  intro hcur
  rcases execOps_sockfd ops hw hconn hi with ⟨hno, -⟩ | ⟨-, hnone | ⟨-, s', hs', hnew⟩⟩
  · rw [hcloses] at hno
    cases hno
  · rw [hnone] at hcur
    cases hcur
  · obtain rfl : s' = s := Option.some.inj (hnew.symm.trans hcur)
    exact absurd (hw.openLive s' hs).2 (Nat.not_lt_of_le hs')

theorem execOps_keeps (ops : List UserOp) (hw : w.WF) (hconn : w.locals.conn = none)
    (hi : i ∈ w.locals.socks) (hno : ops.any (UserOp.closes i) = false) :
    ((w.execOps ops).sockets i).sockfd = (w.sockets i).sockfd := by
  rcases execOps_sockfd ops hw hconn hi with ⟨-, hsame⟩ | ⟨hyes, -⟩
  · exact hsame
  · rw [hyes] at hno
    cases hno

/-! ## Sockets are numbered as they are created -/

theorem close_nextSock (w : World) (i : SockId) : (w.close i).nextSock = w.nextSock := by
  show ((w.dropConnect i).resetSockfd i).nextSock = _
  unfold resetSockfd
  split
  · rfl
  · exact dropSfd_nextSock _

theorem assignSockfd_nextSock (w : World) (i : SockId) (s : SfdId) :
    (w.assignSockfd i s).nextSock = w.nextSock := by
  unfold assignSockfd
  split
  · rfl
  · exact dropSfd_nextSock _

theorem attachEvent_nextSock (w : World) (i : SockId) (s : SfdId) (udp ctlOk : Bool) :
    (w.attachEvent i s udp ctlOk).1.nextSock = w.nextSock := by
  have hsame := (allocReadBuf_same w i udp).nextSock
  unfold attachEvent
  dsimp only
  split <;> exact hsame

theorem emitError_nextSock (w : World) (i : SockId) (s : SfdId) (err : SockErrCode) :
    (w.emitError i s err).nextSock = w.nextSock := by
  unfold emitError
  split
  · rfl
  · exact close_nextSock _ i

theorem dropSock_nextSock (w : World) : w.dropSock.nextSock = w.nextSock := by
  unfold dropSock
  split
  · rfl
  · next i rest _ =>
    have hkilled : ((w.close i).killSock i rest).nextSock = (w.close i).nextSock := rfl
    split
    · rfl
    · exact hkilled.trans (close_nextSock w i)

theorem listen_nextSock (w : World) (i : SockId) (type : SockType) (fd : Option Fd)
    (ctlOk : Bool) : (w.listen i type fd ctlOk).1.nextSock = w.nextSock := by
  unfold listen
  dsimp only
  split
  · next hnone =>
    rw [openFd_none hnone]
    exact close_nextSock w i
  · next s hsome =>
    obtain ⟨n, hopened, -⟩ := openFd_some hsome
    have hmade : (((w.close i).openFd fd).1.makeSfd s type i none).nextSock = w.nextSock := by
      rw [hopened]
      exact close_nextSock w i
    rw [dropSfd_nextSock]
    unfold listenOn
    split
    · dsimp only
      split
      · exact (assignSockfd_nextSock _ i s).trans hmade
      · exact hmade
    · exact (assignSockfd_nextSock _ i s).trans
        ((attachEvent_nextSock _ i s true ctlOk).trans hmade)

theorem execOp_nextSock (w : World) (op : UserOp) :
    (w.execOp op).nextSock = w.nextSock + if op.creates then 1 else 0 := by
  cases op with
  | create => rfl
  | close i =>
      unfold execOp
      dsimp only
      split
      · exact close_nextSock w i
      · rfl
  | connect i timeoutMs now =>
      unfold execOp
      dsimp only
      split
      · exact close_nextSock w i
      · rfl
  | listen i type fd ctlOk =>
      unfold execOp
      dsimp only
      split
      · exact listen_nextSock w i type fd ctlOk
      · rfl
  | send i data addr =>
      unfold execOp send
      dsimp only
      split
      · split
        · rfl
        · split <;> rfl
      · rfl
  | drop i =>
      unfold execOp
      dsimp only
      split
      · exact dropSock_nextSock _
      · rfl
  | async first => rfl
  | shutdown => rfl

theorem execOps_nextSock (w : World) (ops : List UserOp) :
    (w.execOps ops).nextSock = w.nextSock + ops.countP UserOp.creates := by
  induction ops generalizing w with
  | nil => rfl
  | cons op ops ih =>
      show ((w.execOp op).execOps ops).nextSock = _
      rw [ih, execOp_nextSock, List.countP_cons, Nat.add_assoc,
        Nat.add_comm (List.countP UserOp.creates ops)]

/-! ## Closed for good -/

theorem WF.made_of_installed (hw : w.WF) (hs : s < w.nextSfd) (hinst : (w.sfds s).installed) :
    w.Made s := by
  refine ⟨hs, fun hloose => ?_⟩
  have hnew := (hw.looseOpen.2 s hloose).2.1
  rw [hinst] at hnew
  cases hnew

/-- What `Close` has dropped has been `sockfd_`, and is so of no socket any more. -/
def ClosedGone (w : World) : Prop :=
  ∀ i s, .close i (some s) ∈ w.trace →
    w.Made s ∧ (w.sfds s).installed ∧ ∀ j, (w.sockets j).sockfd ≠ some s

theorem micro_closedGone (h : Micro d w w') (hw : w.WF) (hgone : w.ClosedGone) :
    w'.ClosedGone := by
  intro i s hclose
  obtain ⟨es, heq, hlogs, -⟩ := micro_trace h
  rw [heq, List.mem_append] at hclose
  rcases hclose with hclose | hclose
  · obtain ⟨hm, hinst, hno⟩ := hgone i s hclose
    have hsame := micro_sameMade h hm
    refine ⟨micro_made h hm, hsame.installed hinst, fun j hcur => ?_⟩
    rcases micro_sockfd h hw j with hkeep | ⟨hnone, -⟩ | ⟨s', hput, -, -, -, hnew, -⟩
    · exact hno j (hkeep.symm.trans hcur)
    · rw [hnone] at hcur
      cases hcur
    · obtain rfl : s' = s := Option.some.inj (hput.symm.trans hcur)
      rw [hinst] at hnew
      cases hnew
  · obtain ⟨hidle, -, hold, rfl⟩ := hlogs _ hclose
    obtain ⟨hlt, howner, hinst⟩ := hold s rfl
    refine ⟨hw.made_of_installed hlt hinst, hinst, fun j hcur => ?_⟩
    have hj : (w.sfds s).owner = j := (hw.current j s hcur).2.1
    have hcur' : (w.sockets i).sockfd = some s := by rwa [← howner, hj]
    rw [hidle.sockfd] at hcur'
    cases hcur'

theorem Steps.closedGone (h : Steps d w w') (hw : w.WF) (hgone : w.ClosedGone) :
    w'.ClosedGone := by
  induction h with
  | refl => exact hgone
  | tail hsteps hstep ih => exact micro_closedGone hstep (Steps.wf hsteps hw) ih

theorem init_closedGone : ({} : World).ClosedGone := fun i s hclose => by cases hclose

theorem ClosedGone.not_closed (hgone : w.ClosedGone) (hcur : (w.sockets i).sockfd = some s) :
    ∀ j, .close j (some s) ∉ w.trace := fun j hclose => (hgone j s hclose).2.2 i hcur

/-! ## The history of a handler -/

variable {Q : List Event → Event → Prop}

theorem emitError_trace (hw : w.WF) {cur : SfdId} (hcur : (w.sockets i).sockfd = some cur)
    (s : SfdId) (err : SockErrCode) :
    ∃ es, (w.emitError i s err).trace =
        w.trace ++ .raised i s cur err :: (es ++ [.close i (some cur)]) ∧
      ∀ e ∈ es, ofHandler e = false := by
  have hlog : Steps true w (w.log (.raised i s cur err)) :=
    (Micro.logRaised w i s cur err hcur).steps
  have hdrop : Steps false (w.log (.raised i s cur err))
      ((w.log (.raised i s cur err)).dropConnect i) := (Micro.dropConnect _ i).steps
  have hreset := resetSockfd_steps (d := false) (hdrop.wf (hlog.wf hw)) i
  obtain ⟨es, htrace, hes⟩ := Steps.unhandled (hdrop.trans hreset)
  refine ⟨es, ?_, hes⟩
  have hend : (w.emitError i s err).trace =
      (((w.log (.raised i s cur err)).dropConnect i).resetSockfd i).trace ++
        [.close i (some cur)] := by
    unfold emitError
    rw [hcur]
    show _ ++ [Event.close i (w.sockets i).sockfd] = _
    rw [hcur]
  rw [hend, htrace]
  simp [log]

theorem emitError_eachOk (hQ : ∀ t e, ofHandler e = false → Q t e) (hw : w.WF)
    {err : SockErrCode}
    (hraised : ∀ cur, (w.sockets i).sockfd = some cur → Q w.trace (.raised i s cur err))
    (hok : EachOk Q w.trace) : EachOk Q (w.emitError i s err).trace := by
  cases hcur : (w.sockets i).sockfd with
  | none =>
      unfold emitError
      rw [hcur]
      exact hok
  | some cur =>
      obtain ⟨es, htrace, hes⟩ := emitError_trace hw hcur s err
      rw [htrace, List.append_cons]
      refine (hok.snoc (hraised cur hcur)).append_free fun e he t => hQ t e ?_
      rcases List.mem_append.1 he with he | he
      · exact hes e he
      · rw [List.mem_singleton.1 he]
        rfl

theorem peerWorld_sockfd (hi : i ≠ w.nextSock) (p : SfdId) :
    ((w.peerWorld i s p).sockets i).sockfd = (w.sockets i).sockfd := by
  show (((w.create.holdSock w.nextSock).setPeerSocket w.nextSock p).sockets i).sockfd = _
  unfold setPeerSocket
  rw [assignSockfd_sockfd, if_neg hi]
  show (((w.create.holdSock w.nextSock).close w.nextSock).sockets i).sockfd = _
  rw [close_sockfd, if_neg hi]
  simp [holdSock, create, setSocket, hi]

theorem acceptPeer_nextSock (w : World) (i : SockId) (s p : SfdId) (cb : CbRun) (ctlOk : Bool) :
    (w.acceptPeer i s p cb ctlOk).1.nextSock =
      w.nextSock + (1 + cb.ops.countP UserOp.creates) := by
  have hpeer : (w.peerWorld i s p).nextSock = w.nextSock + 1 := by
    show ((w.create.holdSock w.nextSock).setPeerSocket w.nextSock p).nextSock = _
    unfold setPeerSocket
    rw [assignSockfd_nextSock]
    exact close_nextSock _ w.nextSock
  have hcalled : ((w.peerWorld i s p).execOps cb.ops).nextSock =
      w.nextSock + (1 + cb.ops.countP UserOp.creates) := by
    rw [execOps_nextSock, hpeer, Nat.add_assoc]
  unfold acceptPeer
  dsimp only
  split
  · rw [dropSock_nextSock, dropSfd_nextSock]
    exact hcalled
  · rw [dropSock_nextSock, dropSfd_nextSock]
    split
    · exact (attachEvent_nextSock _ _ _ _ _).trans hcalled
    · rw [emitError_nextSock]
      exact (attachEvent_nextSock _ _ _ _ _).trans hcalled

theorem PeerServed.sockfd_end {p : SfdId} {cb : CbRun} {ctlOk : Bool} {u x : World}
    (h : w.PeerServed i s p cb ctlOk u x) (hi : i ∈ w.locals.socks) (hne : i ≠ w.nextSock) :
    ((w.acceptPeer i s p cb ctlOk).1.sockets i).sockfd = (u.sockets i).sockfd := by
  have hdrop : ∀ y : World, y.locals = x.locals → (y.sockets i).sockfd = (u.sockets i).sockfd →
      (y.dropSfd.dropSock.sockets i).sockfd = (u.sockets i).sockfd := by
    intro y hlocals hy
    have hsfds : y.locals.sfds = p :: w.locals.sfds := by
      rw [hlocals, h.held]
      rfl
    have hsocks : y.dropSfd.locals.socks = w.nextSock :: w.locals.socks := by
      rw [dropSfd_locals hsfds, hlocals, h.held]
      rfl
    rw [dropSock_sockfd hsocks hi, dropSfd_sockets]
    exact hy
  rcases h.returns with hend | ⟨-, -, hend⟩
  · rw [hend]
    exact hdrop x rfl (h.sockfd i)
  · rw [hend]
    refine hdrop _ (emitError_locals _ _ _ _) ?_
    rw [emitError_sockfd_of_ne hne]
    exact h.sockfd i

/-! ## Invariants that only handlers can break

An invariant that every atomic step keeps which delivers nothing and raises no error is kept
by everything but the loops of a handler and `emit_error`.
-/

section Rules

variable {I : World → Prop} (hwf : ∀ v, I v → v.WF)
  (hsteps : ∀ v v', I v → Steps false v v' → I v')

include hwf hsteps in
/-- For a new connection it is enough that the invariant holds when `accept_cb_` is called, and
that the error of a refused registration keeps it. -/
theorem acceptPeer_keeps (hw : w.WF) {p : SfdId} {cb : CbRun} {ctlOk : Bool}
    (hatt : w.locals.unattached = []) (hconn : w.locals.conn = none) {u x : World}
    (hserved : w.PeerServed i s p cb ctlOk u x) (hworld : I (w.peerWorld i s p))
    (hrefused : I u → I x → cb.throws = false →
      (u.attachEvent w.nextSock p false ctlOk).2 = false → I (x.emitError w.nextSock p .other)) :
    I (w.acceptPeer i s p cb ctlOk).1 := by
  have hu : I u := by
    rw [hserved.called]
    refine hsteps _ _ hworld (execOps_steps cb.ops (hwf _ hworld) ?_)
    rw [hserved.locals]
    exact hconn
  have hx := hsteps u x hu hserved.after
  have hlast : ∀ y : World, I y → y.locals = x.locals → I y.dropSfd.dropSock := by
    intro y hy hlocals
    have hlocals' := hlocals.trans hserved.held
    exact hsteps _ _ hy (dropPeer_steps hw (hwf y hy) hlocals' hatt hconn).1
  rcases hserved.returns with hend | ⟨hthrows, hadd, hend⟩
  · rw [hend]
    exact hlast x hx rfl
  · rw [hend]
    exact hlast _ (hrefused hu hx hthrows hadd) (emitError_locals _ _ _ _)

include hsteps in
/-- Of the functions called for an event, that of a connect attempt has no loop. -/
theorem handle_keeps {cb : PollEventCB} (hs : w.Serving cb) (h : I w) {event : Nat}
    {script : Script}
    (hattached : ∀ i s udp, cb = .attached i s udp → I (w.attachedEvent i s udp event script).1)
    (haccepting : ∀ i s err, cb = .accepting i s → has event PE_READ = true →
      I (acceptLoop i s (has event PE_ERROR) err w script.accepts).1)
    (herror : ∀ i s err, cb = .accepting i s → I (w.emitError i s err))
    (hrun : w.handle cb event script = some w') : I w' := by
  have hconn : w.locals.conn = none := by rw [hs.locals]
  unfold handle at hrun
  split at hrun
  · next i a s =>
    cases hrun
    have hhandler : w.locals.handler = some (i, s) := by rw [hs.locals]; rfl
    exact hsteps _ _ h (onConnected_steps (d := false) hs.wf _ script.ctlOk script.cb hhandler
      hs.cur hs.reg hconn).1
  · next i s udp =>
    cases hrun
    exact hattached i s udp rfl
  · next i s =>
    obtain ⟨r, hr, rfl⟩ := Option.map_eq_some_iff.1 hrun
    unfold onAccept at hr
    split at hr
    · next hread =>
      cases hr
      exact haccepting i s _ rfl hread
    · split at hr
      · cases hr
        exact herror i s _ rfl
      · cases hr

include hsteps in
/-- Of the steps of the poller thread, only the handling of an event is not covered. -/
theorem step_keeps (hq : w.Quiet) (h : I w) {act : Action}
    (hhandle : ∀ fd epollEvents script cb u, act = .event fd epollEvents script →
      w.poller.eventMap fd = some cb → (w.lock cb.sock cb.sfd).Serving cb →
      I (w.lock cb.sock cb.sfd) →
      (w.lock cb.sock cb.sfd).handle cb (toPoller epollEvents) script = some u → I u)
    (hrun : w.step act = some w') : I w' := by
  cases act with
  | event fd epollEvents script =>
      rcases dispatch_cases hq (step_event hrun) with rfl | ⟨cb, u, hreg, hhandled, rfl⟩
      · exact h
      · have hs := lock_serving hq hreg
        have hlocked := hsteps _ _ h (lock_steps hq hreg)
        have hu := hhandle fd epollEvents script cb u rfl hreg hs hlocked hhandled
        obtain ⟨hall, b, hb, hclosed⟩ := handle_steps hs hhandled
        exact hsteps _ _ hu (unlock_steps hs hall hb hclosed).1
  | _ => exact hsteps _ _ h (stepOther_steps hq (by simp) hrun).1

end Rules

end World

end CommonLibrary.Net
