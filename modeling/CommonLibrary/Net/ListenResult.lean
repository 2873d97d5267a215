import CommonLibrary.Net.Reentry

/-!
# What `Listen` returns

The TCP branch of `listen` looks at the result of `AddEvent`, the UDP branch does not look
at that of `attach_event`.  A new descriptor has a number that nothing is registered for, so
a registration fails exactly if the kernel refuses it.
-/

namespace CommonLibrary.Net

open Foundation Poller

/-- The function that `Listen` registers. -/
def listenCb (type : SockType) (i : SockId) (s : SfdId) : PollEventCB :=
  match type with
  | .tcp => .accepting i s
  | .udp => .attached i s true

namespace World

variable {w : World} {i : SockId}

/-- `Listen` on `i` left the world and the result `r`: if that is true then the descriptor `fd`
is registered for `i`, and `sockfd_` is set exactly if it is. -/
structure ListenTruthful (i : SockId) (type : SockType) (fd : Option Fd) (r : World × Bool) :
    Prop where
  registered : r.2 = true → ∃ n s, fd = some n ∧ (r.1.sockets i).sockfd = some s ∧
    (r.1.sfds s).fd = n ∧ r.1.poller.eventMap n = some (listenCb type i s)
  sockfd : (r.1.sockets i).sockfd.isSome = r.2

/-! ## The new descriptor -/

theorem WF.close (hw : w.WF) (i : SockId) : (w.close i).WF := by
  have hdrop : (w.dropConnect i).WF := micro_wf (.dropConnect w i : Micro true _ _) hw
  have hreset := (resetSockfd_steps (d := true) hdrop i).wf hdrop
  exact hreset.log _

theorem WF.eventMap_free (hw : w.WF) {fd : Fd} (hfree : w.openFds fd = none) :
    w.poller.eventMap fd = none := by
  cases hreg : w.poller.eventMap fd with
  | none => rfl
  | some cb =>
      obtain ⟨halive, hfd, -⟩ := hw.regLive fd cb hreg
      have hopen := (hw.openLive _ halive).1
      rw [hfd, hfree] at hopen
      cases hopen

theorem WF.epollSet_free (hw : w.WF) {fd : Fd} (hfree : w.openFds fd = none) :
    w.poller.epollSet fd = none :=
  (hw.agree.epollSet_eq_none fd).2 (hw.eventMap_free hfree)

theorem openFd_some_iff {fd : Option Fd} {s : SfdId} :
    (w.openFd fd).2 = some s ↔ s = w.nextSfd ∧ ∃ n, fd = some n ∧ w.openFds n = none ∧
      w.openFd fd = (w.opened n, some w.nextSfd) := by
  constructor
  · intro h
    cases fd with
    | none => cases h
    | some n =>
        unfold openFd at h ⊢
        dsimp only at h ⊢
        split at h
        · cases h
        · next hfree =>
          rw [if_neg hfree]
          exact ⟨(Option.some.inj h).symm, n, rfl, by simpa using hfree, rfl⟩
  · rintro ⟨rfl, n, rfl, -, heq⟩
    rw [heq]

/-- `listen` is about to register the new `SocketFD` `s` of `i`. -/
structure Listening (w : World) (i : SockId) (s : SfdId) (type : SockType) (n : Fd) : Prop where
  wf : w.WF
  idle : (w.sockets i).sockfd = none
  fd : (w.sfds s).fd = n
  type : (w.sfds s).type = type
  owner : (w.sfds s).owner = i
  mapFree : w.poller.eventMap n = none
  setFree : w.poller.epollSet n = none
  held : ∃ rest, w.locals.sfds = s :: rest

theorem makeSfd_listening (hw : w.WF) (hi : (w.sockets i).alive)
    (hidle : (w.sockets i).sockfd = none) {n : Fd} (hfree : w.openFds n = none)
    (type : SockType) :
    ((w.opened n).makeSfd w.nextSfd type i none).Listening i w.nextSfd type n where
  wf := by
    have hopened : (w.opened n).WF := micro_wf (.opened w n hfree : Micro true _ _) hw
    have hmake : Micro true (w.opened n) ((w.opened n).makeSfd w.nextSfd type i none) :=
      .makeSfd _ _ type i none List.mem_cons_self hi
    exact micro_wf hmake hopened
  idle := hidle
  fd := by simp [makeSfd, opened]
  type := by simp [makeSfd]
  owner := by simp [makeSfd]
  mapFree := hw.eventMap_free hfree
  setFree := hw.epollSet_free hfree
  held := ⟨w.locals.sfds, rfl⟩

variable {s : SfdId} {type : SockType} {n : Fd}

theorem Listening.register_eq (h : w.Listening i s type n) (cb : PollEventCB) (event : Nat)
    (ctlOk : Bool) : (w.register s cb event ctlOk).2 = ctlOk := by
  show (w.poller.addEvent (w.sfds s).fd event cb ctlOk).2 = ctlOk
  rw [EventPoller.addEvent_ok, h.fd, h.setFree]
  exact Bool.and_true ctlOk

theorem Listening.attachEvent_eq (h : w.Listening i s type n) (udp ctlOk : Bool) :
    (w.attachEvent i s udp ctlOk).2 = ctlOk := by
  rw [attachEvent_result, h.fd, h.setFree]
  exact Bool.and_true ctlOk

theorem Listening.attachEvent_refused (h : w.Listening i s type n) (udp : Bool) :
    (w.attachEvent i s udp false).1.poller.eventMap n = none := by
  have hno := h.attachEvent_eq udp false
  unfold attachEvent at hno ⊢
  dsimp only at hno ⊢
  split
  · next hok =>
    rw [if_pos hok] at hno
    cases hno
  · show ((w.allocReadBuf i udp).poller.addEvent ((w.allocReadBuf i udp).sfds s).fd
      (PE_READ ||| PE_WRITE ||| PE_ERROR) (.attached i s udp) false).1.eventMap n = none
    rw [EventPoller.eventMap_addEvent, if_neg (by simp), allocReadBuf_poller]
    exact h.mapFree

/-! ## The end of `Listen` -/

theorem dropSfd_poller {rest : List SfdId} (hheld : w.locals.sfds = s :: rest)
    (hcur : (w.sockets (w.sfds s).owner).sockfd = some s) : w.dropSfd.poller = w.poller := by
  unfold dropSfd
  rw [hheld]
  dsimp only
  rw [if_pos (.inr hcur)]
  rfl

theorem assignSockfd_poller (hidle : (w.sockets i).sockfd = none) :
    (w.assignSockfd i s).poller = w.poller := by
  unfold assignSockfd
  rw [hidle]
  rfl

theorem assign_drop {v : World} (hidle : (v.sockets i).sockfd = none)
    (howner : (v.sfds s).owner = i) {rest : List SfdId} (hheld : v.locals.sfds = s :: rest) :
    ((v.assignSockfd i s).dropSfd.sockets i).sockfd = some s ∧
      ((v.assignSockfd i s).dropSfd.sfds s).fd = (v.sfds s).fd ∧
      (v.assignSockfd i s).dropSfd.poller = v.poller := by
  obtain ⟨alive, installed, hassigned⟩ := assignSockfd_sfds v i s s
  obtain ⟨b, hdropped⟩ := dropSfd_sfds (v.assignSockfd i s) s
  have hcur : ((v.assignSockfd i s).sockets i).sockfd = some s := by
    rw [assignSockfd_sockfd, if_pos rfl]
  refine ⟨?_, ?_, ?_⟩
  · rw [dropSfd_sockets]
    exact hcur
  · rw [hdropped, hassigned]
  · have hlast : (v.assignSockfd i s).locals.sfds = s :: rest := by
      rw [assignSockfd_locals]
      exact hheld
    rw [dropSfd_poller hlast (by rw [hassigned, howner]; exact hcur)]
    exact assignSockfd_poller hidle

theorem Listening.listenOn_true (h : w.Listening i s type n) :
    ListenTruthful i type (some n) ((w.listenOn i s true).1.dropSfd, (w.listenOn i s true).2) := by
  have hw := h.wf
  obtain ⟨rest, hheld⟩ := h.held
  unfold listenOn
  rw [h.type]
  cases type with
  | tcp =>
      dsimp only
      have hadd := h.register_eq (.accepting i s) (PE_LT ||| PE_READ ||| PE_ERROR) true
      rw [if_pos hadd]
      obtain ⟨hcur, hfd, hpoller⟩ := assign_drop
        (v := (w.register s (.accepting i s) (PE_LT ||| PE_READ ||| PE_ERROR) true).1)
        h.idle h.owner hheld
      have hreg := register_ok hw hadd
      rw [h.fd] at hreg
      exact ⟨fun _ => ⟨n, s, rfl, hcur, hfd.trans h.fd, by rw [hpoller]; exact hreg⟩,
        by rw [hcur]; rfl⟩
  | udp =>
      dsimp only
      have hadd := h.attachEvent_eq true true
      obtain ⟨q, r, hsock⟩ := attachEvent_sockets w i s true true i
      obtain ⟨b, hsfd⟩ := attachEvent_sfds w i s true true s
      obtain ⟨hcur, hfd, hpoller⟩ := assign_drop (v := (w.attachEvent i s true true).1)
        (by rw [hsock]; exact h.idle) (by rw [hsfd]; exact h.owner)
        (by rw [attachEvent_locals]; exact hheld)
      have hreg := attachEvent_ok hw hadd
      rw [h.fd] at hreg
      rw [hsfd] at hfd
      exact ⟨fun _ => ⟨n, s, rfl, hcur, hfd.trans h.fd, by rw [hpoller]; exact hreg⟩,
        by rw [hcur]; rfl⟩

/-- If the kernel refuses, the TCP branch says so and the UDP branch does not. -/
theorem Listening.listenOn_false (h : w.Listening i s type n) :
    ListenTruthful i type (some n)
      ((w.listenOn i s false).1.dropSfd, (w.listenOn i s false).2) ↔ type = .tcp := by
  obtain ⟨rest, hheld⟩ := h.held
  unfold listenOn
  rw [h.type]
  cases type with
  | tcp =>
      dsimp only
      have hadd := h.register_eq (.accepting i s) (PE_LT ||| PE_READ ||| PE_ERROR) false
      rw [if_neg (by rw [hadd]; exact Bool.false_ne_true)]
      refine iff_of_true ⟨fun hok => absurd hok Bool.false_ne_true, ?_⟩ rfl
      rw [dropSfd_sockets]
      show (w.sockets i).sockfd.isSome = false
      rw [h.idle]
      rfl
  | udp =>
      dsimp only
      obtain ⟨q, r, hsock⟩ := attachEvent_sockets w i s true false i
      obtain ⟨b, hsfd⟩ := attachEvent_sfds w i s true false s
      obtain ⟨-, -, hpoller⟩ := assign_drop (v := (w.attachEvent i s true false).1)
        (by rw [hsock]; exact h.idle) (by rw [hsfd]; exact h.owner)
        (by rw [attachEvent_locals]; exact hheld)
      refine iff_of_false (fun htrue => ?_) (by simp)
      obtain ⟨n', s', hn, -, -, hreg⟩ := htrue.registered rfl
      cases hn
      rw [hpoller, h.attachEvent_refused true] at hreg
      cases hreg

/-- The result of `Listen` is truthful for TCP, and for UDP unless `epoll_ctl` refuses the new
descriptor. -/
theorem listen_truthful_iff (hreached : Steps true {} w) (hi : (w.sockets i).alive)
    (type : SockType) (fd : Option Fd) (ctlOk : Bool) :
    ListenTruthful i type fd (w.listen i type fd ctlOk) ↔
      type = .tcp ∨ ((w.close i).openFd fd).2 = none ∨ ctlOk = true := by
  have hw := (hreached.wf init_wf).close i
  have hidle : ((w.close i).sockets i).sockfd = none := by rw [close_sockfd, if_pos rfl]
  have hi' : ((w.close i).sockets i).alive = true := by rw [close_alive, hi]
  unfold listen
  dsimp only
  cases hopen : ((w.close i).openFd fd).2 with
  | none =>
      refine iff_of_true ⟨fun hok => absurd hok Bool.false_ne_true, ?_⟩ (.inr (.inl rfl))
      rw [openFd_none hopen, hidle]
      rfl
  | some s =>
      obtain ⟨rfl, n, rfl, hfree, heq⟩ := openFd_some_iff.1 hopen
      rw [heq]
      have hlistening := makeSfd_listening hw hi' hidle hfree type
      cases ctlOk with
      | true => exact iff_of_true hlistening.listenOn_true (.inr (.inr rfl))
      | false =>
          refine hlistening.listenOn_false.trans ⟨.inl, fun h => ?_⟩
          rcases h with htcp | hnone | hctl
          · exact htcp
          · cases hnone
          · cases hctl

/-- The first socket listens, and gets the descriptor 5. -/
theorem listen_truthful_five :
    ListenTruthful 0 .udp (some 5) ((({} : World).execOps [.create]).listen 0 .udp (some 5) true) :=
  (listen_truthful_iff (execOps_steps [.create] init_wf rfl) rfl .udp (some 5) true).2
    (.inr (.inr rfl))

/-- `epoll_ctl` refuses the first UDP socket: `Listen` returns true, and nothing is registered. -/
theorem not_listen_truthful_of_refused :
    ∃ w, Steps true {} w ∧ (w.sockets 0).alive ∧
      (w.listen 0 .udp (some 5) false).2 = true ∧
      (w.listen 0 .udp (some 5) false).1.poller.eventMap 5 = none ∧
      ¬ ListenTruthful 0 .udp (some 5) (w.listen 0 .udp (some 5) false) := by
  refine ⟨({} : World).execOps [.create], execOps_steps [.create] init_wf rfl, rfl, rfl, rfl, ?_⟩
  intro htrue
  obtain ⟨n, s, hn, -, -, hreg⟩ := htrue.registered rfl
  cases hn
  cases hreg

end World

end CommonLibrary.Net
