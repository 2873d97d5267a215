import CommonLibrary.Net.ReadDrain

/-!
# No delivery after `Close`

The loops of `on_read` and `on_accept` hold their `SocketFD` and go on with it whatever
the user's callback has done.  Nothing is delivered for a `SocketFD` that has been closed
as long as a callback that closes its own socket is the last that the loop calls.
-/

namespace CommonLibrary.Net

open Foundation Poller Utils

namespace AcceptItem

/-- `accept` is called again behind this answer. -/
def GoesOn (isError : Bool) : AcceptItem → Prop
  | err e _ => uvTranslatePosixError e = EINTR
  | conn _ cb _ => cb.throws = false ∧ isError = false

/-- `accept_cb_` begins a `Close` of `i` at this answer. -/
def closes (i : SockId) : AcceptItem → Bool
  | err _ _ => false
  | conn _ cb _ => cb.ops.any (UserOp.closes i)

end AcceptItem

/-- Where `on_read` comes to data, no `read_cb_` has closed `i` before. -/
def ReadsOpen (i : SockId) (capacity : Nat) (reads : List RecvItem) : Prop :=
  ∀ before bytes cb, Reached (RecvItem.GoesOn capacity) reads before (.data bytes cb) →
    bytes.take capacity ≠ [] → ∀ x ∈ before, x.closes i = false

/-- Where `on_accept` comes to a connection, no `accept_cb_` has closed `i` before. -/
def AcceptsOpen (i : SockId) (isError : Bool) (items : List AcceptItem) : Prop :=
  ∀ before fd cb ctlOk, Reached (AcceptItem.GoesOn isError) items before (.conn fd cb ctlOk) →
    ∀ x ∈ before, x.closes i = false

namespace Event

/-- The `SocketFD` that data or a connection has been received on. -/
def source : Event → Option SfdId
  | read _ s _ => some s
  | accept _ s _ => some s
  | _ => none

/-- The `SocketFD` that a `Close` has dropped. -/
def dropped : Event → Option SfdId
  | close _ old => old
  | _ => none

theorem dropped_eq {e : Event} {s : SfdId} :
    e.dropped = some s ↔ ∃ i, e = .close i (some s) := by
  cases e <;> simp [dropped]

end Event

/-- What is delivered comes from a `SocketFD` that no `Close` has dropped. -/
def FromOpen (t : List Event) (e : Event) : Prop :=
  ∀ s, e.source = some s → ∀ i, .close i (some s) ∉ t

theorem fromOpen_of_unhandled (t : List Event) (e : Event) (he : World.ofHandler e = false) :
    FromOpen t e := by
  intro s hs
  cases e
  case read => cases he
  case accept => cases he
  all_goals cases hs

theorem ReadsOpen.tail {i : SockId} {capacity : Nat} {item : RecvItem} {reads : List RecvItem}
    (h : ReadsOpen i capacity (item :: reads)) (hgoes : item.GoesOn capacity) :
    ReadsOpen i capacity reads := fun before bytes cb hreached hdata x hx =>
  h (item :: before) bytes cb (hreached.cons hgoes) hdata x (List.mem_cons_of_mem _ hx)

theorem AcceptsOpen.tail {i : SockId} {isError : Bool} {item : AcceptItem}
    {items : List AcceptItem} (h : AcceptsOpen i isError (item :: items))
    (hgoes : item.GoesOn isError) : AcceptsOpen i isError items :=
  fun before fd cb ctlOk hreached x hx =>
    h (item :: before) fd cb ctlOk (hreached.cons hgoes) x (List.mem_cons_of_mem _ hx)

namespace World

variable {d : Bool} {w w' : World} {i : SockId} {s : SfdId} {udp : Bool} {capacity : Nat}

structure Delivering (w : World) : Prop where
  wf : w.WF
  closedGone : w.ClosedGone
  delivered : EachOk FromOpen w.trace

theorem Delivering.steps (h : w.Delivering) (hsteps : Steps false w w') : w'.Delivering where
  wf := hsteps.wf h.wf
  closedGone := hsteps.closedGone h.wf h.closedGone
  delivered := hsteps.eachOk fromOpen_of_unhandled h.delivered

theorem Delivering.emitError (h : w.Delivering) (hconn : w.locals.conn = none) (i : SockId)
    (s : SfdId) (err : SockErrCode) : (w.emitError i s err).Delivering where
  wf := (emitError_steps h.wf i s err hconn).wf h.wf
  closedGone := (emitError_steps h.wf i s err hconn).closedGone h.wf h.closedGone
  delivered := emitError_eachOk fromOpen_of_unhandled h.wf
    (fun cur _ s' hs' => by cases hs') h.delivered

/-! ## Reading -/

/-- The invariant of the loop: `s` is `sockfd_`, or no more data comes. -/
theorem onRead_delivering (reads : List RecvItem) (h : w.Delivering)
    (hconn : w.locals.conn = none) (hi : i ∈ w.locals.socks)
    (hnext : (w.sockets i).sockfd = some s ∨ ∀ before bytes cb,
      Reached (RecvItem.GoesOn capacity) reads before (.data bytes cb) → bytes.take capacity = [])
    (hopen : ReadsOpen i capacity reads) :
    (onRead i s udp capacity w reads).world.Delivering := by
  induction reads generalizing w with
  | nil => exact h
  | cons item reads ih =>
      have htail : ∀ hgoes : item.GoesOn capacity,
          (∀ before bytes cb, Reached (RecvItem.GoesOn capacity) (item :: reads) before
            (.data bytes cb) → bytes.take capacity = []) →
          ∀ before bytes cb, Reached (RecvItem.GoesOn capacity) reads before (.data bytes cb) →
            bytes.take capacity = [] := fun hgoes hnone before bytes cb hreached =>
        hnone (item :: before) bytes cb (hreached.cons hgoes)
      cases item with
      | err e soError =>
          rw [onRead]
          split
          · next hintr =>
            exact ih h hconn hi (hnext.imp_right (htail hintr)) (hopen.tail hintr)
          · split
            · exact h
            · exact h.emitError hconn i s _
      | data bytes cb =>
          rw [onRead]
          dsimp only
          split
          · split
            · exact h
            · exact h.emitError hconn i s _
          · next hdata =>
            have hcur : (w.sockets i).sockfd = some s := by
              rcases hnext with hcur | hnone
              · exact hcur
              · exact absurd (hnone [] bytes cb (.head _ _ _)) hdata
            obtain ⟨hwf, hread, hlocals⟩ :=
              readCb_steps h.wf hconn i s (bytes.take capacity) cb.ops
            have hlog : Steps true w (w.log (.read i s (bytes.take capacity))) :=
              (Micro.logRead w i s _).steps
            have hlogged : (w.log (.read i s (bytes.take capacity))).Delivering := by
              refine ⟨hwf, hlog.closedGone h.wf h.closedGone, h.delivered.snoc ?_⟩
              rintro s' ⟨⟩
              exact h.closedGone.not_closed hcur
            have hcalled := hlogged.steps (execOps_steps cb.ops hwf hconn)
            split
            · exact hcalled
            · next hthrows =>
              rw [Bool.not_eq_true] at hthrows
              have hgoes : (RecvItem.data bytes cb).GoesOn capacity := ⟨hdata, hthrows⟩
              refine ih hcalled (by rw [hlocals]; exact hconn) (by rw [hlocals]; exact hi) ?_
                (hopen.tail hgoes)
              by_cases hcloses : cb.ops.any (UserOp.closes i) = true
              · right
                intro before bytes' cb' hreached
                by_contra hdata'
                have hno := hopen _ bytes' cb' (hreached.cons hgoes) hdata' _ List.mem_cons_self
                rw [RecvItem.closes, hcloses] at hno
                cases hno
              · rw [Bool.not_eq_true] at hcloses
                exact .inl ((execOps_keeps cb.ops hwf hconn hi hcloses).trans hcur)

/-! ## Accepting -/

theorem Delivering.peerWorld (h : w.Delivering) {p : SfdId} (hp : p ∈ w.locals.fds)
    (hconn : w.locals.conn = none) (hi : i ≠ w.nextSock)
    (hcur : (w.sockets i).sockfd = some s) : (w.peerWorld i s p).Delivering := by
  have hpeer := h.steps (peer_steps (d := false) h.wf hp hconn).1
  have hcur' : ((((w.create.holdSock w.nextSock).setPeerSocket w.nextSock p).setConnected
      p).sockets i).sockfd = some s := (peerWorld_sockfd (s := s) hi p).trans hcur
  have hlog := (Micro.logAccept (((w.create.holdSock w.nextSock).setPeerSocket w.nextSock
    p).setConnected p) i s w.nextSock).steps
  refine ⟨hlog.wf hpeer.wf, hlog.closedGone hpeer.wf hpeer.closedGone, hpeer.delivered.snoc ?_⟩
  rintro s' ⟨⟩
  exact hpeer.closedGone.not_closed hcur'

/-- What is done for one connection: `sockfd_` of the listening socket afterwards is what
`accept_cb_` has left. -/
theorem acceptPeer_delivering (h : w.Delivering) {p : SfdId} (cb : CbRun) (ctlOk : Bool)
    (hp : p ∈ w.locals.fds) (hatt : w.locals.unattached = []) (hconn : w.locals.conn = none)
    (hi : i ∈ w.locals.socks) (hcur : (w.sockets i).sockfd = some s) :
    (w.acceptPeer i s p cb ctlOk).1.Delivering ∧
      (cb.ops.any (UserOp.closes i) = false →
        ((w.acceptPeer i s p cb ctlOk).1.sockets i).sockfd = some s) := by
  have hne : i ≠ w.nextSock := Nat.ne_of_lt (h.wf.held_lt hi)
  obtain ⟨u, x, hserved⟩ := acceptPeer_served h.wf i s cb ctlOk hp hconn
  have hworld := h.peerWorld hp hconn hne hcur
  have hconn' : (w.peerWorld i s p).locals.conn = none := by
    rw [hserved.locals]
    exact hconn
  have hi' : i ∈ (w.peerWorld i s p).locals.socks := by
    rw [hserved.locals]
    exact List.mem_cons_of_mem _ hi
  refine ⟨?_, fun hcloses => ?_⟩
  · refine acceptPeer_keeps (fun _ hv => hv.wf) (fun _ _ hv => hv.steps) h.wf hatt hconn hserved
      hworld fun _ hx _ _ => hx.emitError ?_ _ _ _
    rw [hserved.held]
    exact hconn
  · rw [hserved.sockfd_end hi hne, hserved.called,
      execOps_keeps cb.ops hworld.wf hconn' hi' hcloses, peerWorld_sockfd hne]
    exact hcur

theorem acceptPeer_threw (w : World) (i : SockId) (s p : SfdId) (cb : CbRun) (ctlOk : Bool) :
    (w.acceptPeer i s p cb ctlOk).2 = cb.throws := by
  unfold acceptPeer
  dsimp only
  split
  · next hthrows => exact hthrows.symm
  · next hthrows => exact (Bool.eq_false_iff.2 hthrows).symm

theorem acceptLoop_delivering {isError : Bool} {err : SockErrCode} (items : List AcceptItem)
    (h : w.Delivering) (hatt : w.locals.unattached = []) (hconn : w.locals.conn = none)
    (hi : i ∈ w.locals.socks)
    (hnext : (w.sockets i).sockfd = some s ∨ ∀ before fd cb ctlOk,
      ¬ Reached (AcceptItem.GoesOn isError) items before (.conn fd cb ctlOk))
    (hopen : AcceptsOpen i isError items) :
    (acceptLoop i s isError err w items).1.Delivering := by
  induction items generalizing w with
  | nil => exact h
  | cons item items ih =>
      cases item with
      | err e soError =>
          rw [acceptLoop]
          split
          · next hintr =>
            refine ih h hatt hconn hi (hnext.imp_right fun hnone before fd cb ctlOk hreached => ?_)
              (hopen.tail hintr)
            exact hnone _ fd cb ctlOk (hreached.cons hintr)
          · split
            · exact h
            · exact h.emitError hconn i s _
      | conn fd cb ctlOk =>
          have hcur : (w.sockets i).sockfd = some s := by
            rcases hnext with hcur | hnone
            · exact hcur
            · exact absurd (.head _ _ _) (hnone [] fd cb ctlOk)
          rw [acceptLoop]
          dsimp only
          split
          · exact h
          · next p hsome =>
            have hopened := h.steps (openFd_steps w (some fd))
            obtain ⟨n, heq, rfl⟩ := openFd_some hsome
            rw [heq] at hopened ⊢
            obtain ⟨hpeer, hkeep⟩ := acceptPeer_delivering hopened cb ctlOk List.mem_cons_self
              hatt hconn hi hcur
            have hback := (acceptOpened_steps i s hopened.wf cb ctlOk hatt hconn).2
            have hconn' : ((w.opened n).acceptPeer i s w.nextSfd cb ctlOk).1.locals.conn =
                none := by
              rw [hback]
              exact hconn
            split
            · exact hpeer
            · next hthrows =>
              rw [acceptPeer_threw, Bool.not_eq_true] at hthrows
              split
              · exact hpeer.emitError hconn' i s err
              · next hmore =>
                have hgoes : (AcceptItem.conn fd cb ctlOk).GoesOn isError :=
                  ⟨hthrows, by simpa using hmore⟩
                refine ih hpeer (by rw [hback]; exact hatt) hconn' (by rw [hback]; exact hi) ?_
                  (hopen.tail hgoes)
                by_cases hcloses : cb.ops.any (UserOp.closes i) = true
                · right
                  intro before fd' cb' ctlOk' hreached
                  have hno := hopen _ fd' cb' ctlOk' (hreached.cons hgoes) _ List.mem_cons_self
                  rw [AcceptItem.closes, hcloses] at hno
                  cases hno
                · rw [Bool.not_eq_true] at hcloses
                  exact .inl (hkeep hcloses)

/-! ## The other functions of an event -/

theorem onWriteable_delivering (h : w.Delivering) (env : SendEnv) (soError : Errno) (cb : CbRun)
    (hhandler : w.locals.handler = some (i, s)) (hcur : (w.sockets i).sockfd ≠ none)
    (hconn : w.locals.conn = none) (hok : w.locals.sendFailed = false) :
    (w.onWriteable i s env soError cb).1.Delivering := by
  have hwrite := h.steps (Micro.writeable w i s env hhandler hcur hok).steps
  have hconn' : (w.writeable i s env).1.locals.conn = none := by
    rw [writeable_locals]
    exact hconn
  unfold onWriteable
  dsimp only
  split
  · have hlog := hwrite.steps (Micro.logFlushed _ i).steps
    exact hlog.steps (execOps_steps cb.ops hlog.wf hconn')
  · exact hwrite.emitError hconn' i s _
  · exact hwrite

theorem attachedEvent_delivering (h : w.Delivering) {event : Nat} {script : Script}
    (hlocals : w.locals = { sfds := [s], socks := [i], handler := some (i, s) })
    (hcur : (w.sockets i).sockfd = some s)
    (hopen : has event PE_READ → ReadsOpen i (w.readCapacity i) script.reads) :
    (w.attachedEvent i s udp event script).1.Delivering := by
  have hconn : w.locals.conn = none := by rw [hlocals]
  have hi : i ∈ w.locals.socks := by rw [hlocals]; exact List.mem_singleton_self i
  have hread : (w.readPart i s udp event script).world.Delivering := by
    unfold readPart
    split
    · next hevent => exact onRead_delivering script.reads h hconn hi (.inl hcur) (hopen hevent)
    · exact h
  have hback := (readPart_steps h.wf i s udp event script hconn).2
  have hcases := attachedEvent_cases w i s udp event script
  dsimp only at hcases
  generalize w.readPart i s udp event script = r at hread hback hcases
  rw [hlocals] at hback
  have hhandler : r.world.locals.handler = some (i, s) := by rw [hback]
  have hconn' : r.world.locals.conn = none := by rw [hback]
  have hok : r.world.locals.sendFailed = false := by rw [hback]
  have hwrite : (r.world.writePart i s event script).1.Delivering := by
    unfold writePart
    split
    · next hcond =>
      rw [Bool.and_eq_true] at hcond
      exact onWriteable_delivering hread _ _ _ hhandler (Option.isSome_iff_ne_none.1 hcond.1)
        hconn' hok
    · exact hread
  obtain ⟨-, b, hb, -⟩ := writePart_steps hread.wf event script hhandler hconn' hok
  rcases hcases with ⟨-, hend⟩ | ⟨-, hend | ⟨-, -, hend⟩⟩
  · rw [hend]
    exact hread
  · rw [hend]
    exact hwrite
  · rw [hend]
    exact hwrite.emitError (by rw [hb]; exact hconn') i s _

/-! ## Runs -/

/-- A callback that closes its socket is the last one that the loop of `cb` calls. -/
def LoopOpen (w : World) (event : Nat) (script : Script) : PollEventCB → Prop
  | .connecting _ _ _ => True
  | .attached i _ _ => has event PE_READ → ReadsOpen i (w.readCapacity i) script.reads
  | .accepting i _ => has event PE_READ → AcceptsOpen i (has event PE_ERROR) script.accepts

/-- That is so for the event that the poller thread handles next. -/
def ClosesLast (w : World) : Action → Prop
  | .event fd epollEvents script =>
      ∀ cb, w.poller.eventMap fd = some cb → w.LoopOpen (toPoller epollEvents) script cb
  | _ => True

theorem handle_delivering {cb : PollEventCB} (hs : w.Serving cb) (h : w.Delivering) {event : Nat}
    {script : Script} (hopen : w.LoopOpen event script cb)
    (hrun : w.handle cb event script = some w') : w'.Delivering := by
  have hconn : w.locals.conn = none := by rw [hs.locals]
  have hcur := hs.cur
  refine handle_keeps (fun _ _ hv => hv.steps) hs h ?_ ?_ ?_ hrun
  · rintro i s udp rfl
    exact attachedEvent_delivering h hs.locals hcur hopen
  · rintro i s err rfl hread
    exact acceptLoop_delivering script.accepts h (by rw [hs.locals]) hconn
      (by rw [hs.locals]; exact List.mem_singleton_self i) (.inl hcur) (hopen hread)
  · intro i s err _
    exact h.emitError hconn i s err

theorem step_delivering (hq : w.Quiet) (h : w.Delivering) {act : Action} (hopen : w.ClosesLast act)
    (hrun : w.step act = some w') : w'.Delivering := by
  refine step_keeps (fun _ _ hv => hv.steps) hq h ?_ hrun
  rintro fd epollEvents script cb u rfl hreg hs hlocked hhandled
  exact handle_delivering hs hlocked (hopen cb hreg) hhandled

variable {acts : List Action}

/-- In every run in which a callback that closes its socket is the last one called for the
event, nothing is delivered from a `SocketFD` that a `Close` has dropped. -/
theorem delivered_from_open (hrun : Run step ClosesLast {} acts w) : EachOk FromOpen w.trace := by
  have hinv : w.Quiet ∧ w.Delivering := by
    have hstart : ({} : World).Delivering := ⟨init_wf, init_closedGone, EachOk.nil⟩
    refine Run.invariant (I := fun v => v.Quiet ∧ v.Delivering)
      (fun v act v' hv hopen hstep => ?_) hrun ⟨⟨init_wf, rfl⟩, hstart⟩
    exact ⟨step_quiet hv.1 hstep, step_delivering hv.1 hv.2 hopen hstep⟩
  exact hinv.2.delivered

/-- One byte is received, and `read_cb_` closes its socket. -/
def readAndClose : Action :=
  .event 5 EPOLLIN { reads := [.data [1] { ops := [.close 0] }] }

theorem delivered_from_open_last :
    ∃ w, Run step ClosesLast {} (listenUdp ++ [readAndClose]) w ∧ EachOk FromOpen w.trace ∧
      w.trace.filterMap Event.source = [0] := by
  have h : (exec step {} (listenUdp ++ [readAndClose])).map
      (fun w => w.trace.filterMap Event.source) = some [0] := by
    decide +kernel
  obtain ⟨w, hexec, hsource⟩ := Option.map_eq_some_iff.1 h
  have hlast : ∀ act ∈ listenUdp ++ [readAndClose], ∀ v : World, v.ClosesLast act := by
    intro act hact v
    rcases List.mem_append.1 hact with hact | hact
    · rw [List.mem_singleton.1 hact]
      trivial
    · rw [List.mem_singleton.1 hact]
      rintro (_ | _ | _) -
      · trivial
      · -- the loop has called nothing before the one datagram
        rintro - before bytes cb hreached - x hx
        rcases hreached.cases_cons with ⟨rfl, -⟩ | ⟨-, before', -, hrest⟩
        · cases hx
        · exact absurd hrest Reached.not_nil
      · exact fun _ before fd cb ctlOk hreached => absurd hreached Reached.not_nil
  have hrun := (Run.of_exec hexec).strengthen hlast
  exact ⟨w, hrun, delivered_from_open hrun, hsource⟩

/-- Two datagrams are there, and `read_cb_` closes its socket when it gets the first: it is
called with the second. -/
theorem not_delivered_from_open_of_more :
    ∃ w, Run step (fun _ _ => True) {}
        (listenUdp ++ [.event 5 EPOLLIN
          { reads := [.data [1] { ops := [.close 0] }, .data [2] {}] }]) w ∧
      ¬ EachOk FromOpen w.trace := by
  have h : (exec step {} (listenUdp ++ [.event 5 EPOLLIN
      { reads := [.data [1] { ops := [.close 0] }, .data [2] {}] }])).map
      (fun w => w.trace.map fun e => (e.source, e.dropped)) =
      some ([(none, none), (none, none), (none, none), (none, none), (some 0, none),
        (none, some 0)] ++ (some 0, none) :: [(none, none)]) := by
    decide +kernel
  obtain ⟨w, hexec, hend⟩ := Option.map_eq_some_iff.1 h
  refine ⟨w, Run.of_exec hexec, fun hok => ?_⟩
  obtain ⟨t, r, htrace, ht, hr⟩ := List.map_eq_append_iff.1 hend
  obtain ⟨e, u, rfl, he, -⟩ := List.map_eq_cons_iff.1 hr
  have hclose : (none, some 0) ∈ t.map fun e => (e.source, e.dropped) := by
    rw [ht]
    simp
  obtain ⟨c, hc, hdropped⟩ := List.mem_map.1 hclose
  obtain ⟨i, rfl⟩ := Event.dropped_eq.1 (Prod.mk.inj hdropped).2
  exact hok t e u htrace 0 (Prod.mk.inj he).1 i hc

end World

end CommonLibrary.Net
