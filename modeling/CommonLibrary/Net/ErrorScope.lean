import CommonLibrary.Net.Delivery
import CommonLibrary.Net.Descriptors

/-!
# Errors and the connection they happened on

`emit_error` closes whatever `sockfd_` is.  It should close the `SocketFD` whose event is
handled, and report an error once for each.  A callback that has put a new one in its
place, which only `Listen` does, makes the difference.
-/

namespace CommonLibrary.Net

open Foundation Poller Utils

/-- Whether `sockfd_` of `i` is one that was put there by the calls `ops`, if before them
it was (`b`). -/
def renews (i : SockId) (b : Bool) (ops : List UserOp) : Bool :=
  ops.foldl (fun b op => if op.closes i then op.listens i else b) b

theorem renews_append (i : SockId) (b : Bool) (ops ops' : List UserOp) :
    renews i b (ops ++ ops') = renews i (renews i b ops) ops' := List.foldl_append

/-- What `read_cb_` does while `on_read` gets these answers. -/
def readCalls (capacity : Nat) : List RecvItem → List UserOp
  | [] => []
  | .err e _ :: rest => if uvTranslatePosixError e = EINTR then readCalls capacity rest else []
  | .data bytes cb :: rest =>
      if bytes.take capacity = [] then []
      else cb.ops ++ if cb.throws then [] else readCalls capacity rest

/-- `on_read` ends with an error or at the end of the stream. -/
def readFails (udp : Bool) (capacity : Nat) : List RecvItem → Bool
  | [] => false
  | .err e _ :: rest =>
      if uvTranslatePosixError e = EINTR then readFails udp capacity rest
      else uvTranslatePosixError e ≠ EAGAIN
  | .data bytes cb :: rest =>
      if bytes.take capacity = [] then !udp
      else !cb.throws && readFails udp capacity rest

/-- What `accept_cb_` does while `on_accept` gets these answers. -/
def acceptCalls (isError : Bool) : List AcceptItem → List UserOp
  | [] => []
  | .err e _ :: rest => if uvTranslatePosixError e = EINTR then acceptCalls isError rest else []
  | .conn _ cb _ :: rest =>
      cb.ops ++ if cb.throws || isError then [] else acceptCalls isError rest

/-- `on_accept` ends with an error. -/
def acceptFails (isError : Bool) : List AcceptItem → Bool
  | [] => false
  | .err e _ :: rest =>
      if uvTranslatePosixError e = EINTR then acceptFails isError rest
      else uvTranslatePosixError e ≠ EAGAIN
  | .conn _ cb _ :: rest => !cb.throws && (isError || acceptFails isError rest)

/-- How many sockets are created for an answer and in its callback. -/
def AcceptItem.creates : AcceptItem → Nat
  | err _ _ => 0
  | conn _ cb _ => 1 + cb.ops.countP UserOp.creates

/-- No callback of an event leaves a new `sockfd_` behind when the function that is called
for the event finds an error, or goes on to look for one. -/
structure AttachedKept (i : SockId) (udp : Bool) (capacity : Nat) (event : Nat)
    (script : Script) : Prop where
  read : has event PE_READ = true → readFails udp capacity script.reads = true →
    renews i false (readCalls capacity script.reads) = false
  more : has event PE_READ = true → has event PE_WRITE = true ∨ has event PE_ERROR = true →
    renews i false (readCalls capacity script.reads) = false
  flushed : has event PE_WRITE = true → has event PE_ERROR = true →
    renews i false script.cb.ops = false

/-- An `accept_cb_` whose socket the kernel then refuses to register does not leave a new
`sockfd_` in it.  `n` sockets have been created before. -/
def PeersKept (isError : Bool) (n : Nat) (items : List AcceptItem) : Prop :=
  ∀ before fd cb, Reached (AcceptItem.GoesOn isError) items before (.conn fd cb false) →
    cb.throws = false → renews (n + (before.map AcceptItem.creates).sum) false cb.ops = false

/-- The `SocketFD` an error is found on, and the one that is closed for it. -/
def Event.raises : Event → Option (SfdId × SfdId)
  | raised _ s cur _ => some (s, cur)
  | _ => none

theorem Event.raises_eq {e : Event} {s cur : SfdId} :
    e.raises = some (s, cur) ↔ ∃ i err, e = .raised i s cur err := by
  cases e <;> simp [raises]

/-- `emit_error` for `s` closes `s`, which no `Close` has dropped yet, and for the first
time. -/
def ErrorOwn (t : List Event) (e : Event) : Prop :=
  ∀ i s cur err, e = .raised i s cur err →
    cur = s ∧ (∀ j, .close j (some s) ∉ t) ∧ ∀ j s' err', .raised j s' s err' ∉ t

theorem errorOwn_of_unhandled (t : List Event) (e : Event) (he : World.ofHandler e = false) :
    ErrorOwn t e := by
  rintro i s cur err rfl
  cases he

namespace World

variable {d : Bool} {w w' : World} {i : SockId} {s : SfdId} {udp : Bool} {capacity : Nat}

/-! ## Between two pieces of code -/

/-- `sockfd_` is `s` or nothing. -/
def Own (w : World) (i : SockId) (s : SfdId) : Prop :=
  (w.sockets i).sockfd = none ∨ (w.sockets i).sockfd = some s

/-- What is known about the history. -/
structure Scoped (w : World) : Prop where
  wf : w.WF
  closedGone : w.ClosedGone
  registered : w.Registered
  raisedClosed : ∀ i s cur err, .raised i s cur err ∈ w.trace → .close i (some cur) ∈ w.trace
  own : EachOk ErrorOwn w.trace

theorem Steps.registered (h : Steps d w w') (hw : w.WF) (hreg : w.Registered) :
    w'.Registered := by
  induction h with
  | refl => exact hreg
  | tail hsteps hstep ih => exact micro_registered hstep (Steps.wf hsteps hw) ih

theorem Scoped.of_steps (h : w.Scoped) (hsteps : Steps d w w') {es : List Event}
    (htrace : w'.trace = w.trace ++ es) (hes : ∀ i s cur err, .raised i s cur err ∉ es) :
    w'.Scoped where
  wf := hsteps.wf h.wf
  closedGone := hsteps.closedGone h.wf h.closedGone
  registered := hsteps.registered h.wf h.registered
  raisedClosed := by
    intro i s cur err hraised
    rw [htrace] at hraised ⊢
    rcases List.mem_append.1 hraised with hold | hnew
    · exact List.mem_append_left _ (h.raisedClosed i s cur err hold)
    · exact absurd hnew (hes i s cur err)
  own := by
    rw [htrace]
    refine h.own.append_free fun e he t => ?_
    rintro i s cur err rfl
    exact absurd he (hes i s cur err)

theorem Scoped.steps (h : w.Scoped) (hsteps : Steps false w w') : w'.Scoped := by
  obtain ⟨es, htrace, hes⟩ := hsteps.unhandled
  refine h.of_steps hsteps htrace fun i s cur err hraised => ?_
  have hfalse := hes _ hraised
  cases hfalse

theorem Scoped.emitError (h : w.Scoped) (hconn : w.locals.conn = none) (hown : w.Own i s)
    (err : SockErrCode) : (w.emitError i s err).Scoped := by
  have hsteps := emitError_steps h.wf i s err hconn
  have howns : EachOk ErrorOwn (w.emitError i s err).trace := by
    refine emitError_eachOk errorOwn_of_unhandled h.wf (fun cur hcur => ?_) h.own
    rintro i' s' cur' err' ⟨⟩
    have hcur' : cur = s := by
      rcases hown with hnone | hsame
      · rw [hnone] at hcur
        cases hcur
      · exact Option.some.inj (hcur.symm.trans hsame)
    subst hcur'
    have hopen := h.closedGone.not_closed hcur
    exact ⟨rfl, hopen, fun j s' err' hraised => hopen j (h.raisedClosed j s' cur err' hraised)⟩
  refine ⟨hsteps.wf h.wf, hsteps.closedGone h.wf h.closedGone,
    hsteps.registered h.wf h.registered, fun i' s' cur' err' hraised => ?_, howns⟩
  cases hcur : (w.sockets i).sockfd with
  | none =>
      unfold World.emitError at hraised ⊢
      rw [hcur] at hraised ⊢
      exact h.raisedClosed i' s' cur' err' hraised
  | some cur =>
      obtain ⟨es, htrace, hes⟩ := emitError_trace h.wf hcur s err
      rw [htrace] at hraised ⊢
      simp only [List.mem_append, List.mem_cons, List.not_mem_nil, or_false, reduceCtorEq]
        at hraised ⊢
      rcases hraised with hold | hnew | hin
      · exact .inl (h.raisedClosed i' s' cur' err' hold)
      · cases hnew
        simp
      · have hfalse := hes _ hin
        cases hfalse

/-! ## What user code leaves in `sockfd_` -/

theorem execOps_own (ops : List UserOp) (hw : w.WF) (hconn : w.locals.conn = none)
    (hi : i ∈ w.locals.socks) {b : Bool} (hown : b = false → w.Own i s)
    (hrenews : renews i b ops = false) : (w.execOps ops).Own i s := by
  induction ops generalizing w b with
  | nil => exact hown hrenews
  | cons op ops ih =>
      have hop : Steps false w (w.execOp op) := execOp_steps hw op hconn
      refine ih (hop.wf hw) (by rw [execOp_locals]; exact hconn) (by rw [execOp_locals]; exact hi)
        (fun hb => ?_) hrenews
      dsimp only at hb
      rcases execOp_sockfd hw hi op with ⟨hno, hsame⟩ | ⟨hyes, hnone | ⟨hlistens, -⟩⟩
      · rw [hno, if_neg Bool.false_ne_true] at hb
        unfold Own
        rw [hsame]
        exact hown hb
      · exact .inl hnone
      · rw [hyes, if_pos rfl, hlistens] at hb
        cases hb

theorem emitError_own (w : World) (i : SockId) (s : SfdId) (err : SockErrCode) :
    (w.emitError i s err).Own i s := .inl (emitError_sockfd w i s err)

/-! ## Reading -/

/-- `b`: a callback has put a new `sockfd_` in place. -/
theorem onRead_scoped (reads : List RecvItem) (h : w.Scoped) (hconn : w.locals.conn = none)
    (hi : i ∈ w.locals.socks) {b : Bool} (hown : b = false → w.Own i s)
    (hfails : readFails udp capacity reads = true →
      renews i b (readCalls capacity reads) = false) :
    (onRead i s udp capacity w reads).world.Scoped ∧
      (renews i b (readCalls capacity reads) = false →
        (onRead i s udp capacity w reads).world.Own i s) := by
  induction reads generalizing w b with
  | nil => exact ⟨h, hown⟩
  | cons item reads ih =>
      cases item with
      | err e soError =>
          rw [onRead, readCalls]
          rw [readFails, readCalls] at hfails
          by_cases hintr : uvTranslatePosixError e = EINTR
          · rw [if_pos hintr] at hfails ⊢
            rw [if_pos hintr] at hfails ⊢
            exact ih h hconn hi hown hfails
          · rw [if_neg hintr] at hfails ⊢
            rw [if_neg hintr] at hfails ⊢
            split
            · exact ⟨h, hown⟩
            · next hagain =>
              exact ⟨h.emitError hconn (hown (hfails (by simpa using hagain))) _,
                fun _ => emitError_own _ _ _ _⟩
      | data bytes cb =>
          rw [onRead, readCalls]
          rw [readFails, readCalls] at hfails
          dsimp only
          by_cases hempty : bytes.take capacity = []
          · rw [if_pos hempty] at hfails ⊢
            rw [if_pos hempty] at hfails ⊢
            cases udp with
            | true => exact ⟨h, hown⟩
            | false =>
                exact ⟨h.emitError hconn (hown (hfails rfl)) _, fun _ => emitError_own _ _ _ _⟩
          · rw [if_neg hempty] at hfails ⊢
            rw [if_neg hempty] at hfails ⊢
            obtain ⟨hwf, hread, hlocals⟩ :=
              readCb_steps h.wf hconn i s (bytes.take capacity) cb.ops
            have hlogged : (w.log (.read i s (bytes.take capacity))).Scoped :=
              h.of_steps (Micro.logRead w i s (bytes.take capacity)).steps rfl (by simp)
            have hcalled := hlogged.steps (execOps_steps cb.ops hwf hconn)
            have hown' : renews i b cb.ops = false →
                ((w.log (.read i s (bytes.take capacity))).execOps cb.ops).Own i s :=
              execOps_own cb.ops hwf hconn hi hown
            by_cases hthrows : cb.throws = true
            · rw [if_pos hthrows, if_pos hthrows, List.append_nil]
              exact ⟨hcalled, hown'⟩
            · rw [if_neg hthrows, renews_append] at hfails
              rw [if_neg hthrows, if_neg hthrows, renews_append]
              rw [Bool.not_eq_true] at hthrows
              rw [hthrows] at hfails
              exact ih hcalled (by rw [hlocals]; exact hconn) (by rw [hlocals]; exact hi) hown'
                hfails

/-! ## Accepting -/

theorem attachEvent_refused (h : w.Scoped) {j : SockId} {ctlOk : Bool}
    (hatt : s ∈ w.locals.unattached) (hno : (w.attachEvent j s udp ctlOk).2 = false) :
    ctlOk = false := by
  have hfree : w.poller.epollSet (w.sfds s).fd = none := by
    rw [h.wf.agree.epollSet_eq_none]
    exact h.registered.waiting s hatt
  rw [attachEvent_result, hfree] at hno
  exact (Bool.and_true ctlOk).symm.trans hno

theorem Scoped.peerWorld (h : w.Scoped) {p : SfdId} (hp : p ∈ w.locals.fds)
    (hconn : w.locals.conn = none) (i : SockId) (s : SfdId) :
    (w.peerWorld i s p).Scoped ∧
      ((w.peerWorld i s p).sockets w.nextSock).sockfd = some p := by
  have hpeer := h.steps (peer_steps (d := false) h.wf hp hconn).1
  refine ⟨hpeer.of_steps (Micro.logAccept _ i s w.nextSock).steps rfl (by simp), ?_⟩
  show (((w.create.holdSock w.nextSock).setPeerSocket w.nextSock p).sockets
    w.nextSock).sockfd = some p
  unfold setPeerSocket
  rw [assignSockfd_sockfd, if_pos rfl]

theorem acceptPeer_scoped (h : w.Scoped) {p : SfdId} (cb : CbRun) (ctlOk : Bool)
    (hp : p ∈ w.locals.fds) (hatt : w.locals.unattached = []) (hconn : w.locals.conn = none)
    (hi : i ∈ w.locals.socks) {b : Bool} (hown : b = false → w.Own i s)
    (hpeer : cb.throws = false → ctlOk = false → renews w.nextSock false cb.ops = false) :
    (w.acceptPeer i s p cb ctlOk).1.Scoped ∧
      (renews i b cb.ops = false → (w.acceptPeer i s p cb ctlOk).1.Own i s) := by
  have hne : i ≠ w.nextSock := Nat.ne_of_lt (h.wf.held_lt hi)
  obtain ⟨u, x, hserved⟩ := acceptPeer_served h.wf i s cb ctlOk hp hconn
  obtain ⟨hworld, hcur⟩ := h.peerWorld hp hconn i s
  have hconn' : (w.peerWorld i s p).locals.conn = none := by
    rw [hserved.locals]
    exact hconn
  have hi' : i ∈ (w.peerWorld i s p).locals.socks := by
    rw [hserved.locals]
    exact List.mem_cons_of_mem _ hi
  have hj' : w.nextSock ∈ (w.peerWorld i s p).locals.socks := by
    rw [hserved.locals]
    exact List.mem_cons_self
  constructor
  · refine acceptPeer_keeps (fun _ hv => hv.wf) (fun _ _ hv => hv.steps) h.wf hatt hconn hserved
      hworld fun hu hx hthrows hadd => ?_
    have hunattached : p ∈ u.locals.unattached := by
      rw [hserved.called, execOps_locals, hserved.locals]
      exact List.mem_cons_self
    have hrenews := hpeer hthrows (attachEvent_refused hu hunattached hadd)
    have hcalled : u.Own w.nextSock p := by
      rw [hserved.called]
      exact execOps_own cb.ops hworld.wf hconn' hj' (fun _ => .inr hcur) hrenews
    have hown' : x.Own w.nextSock p := by
      unfold Own
      rw [hserved.sockfd]
      exact hcalled
    refine hx.emitError ?_ hown' _
    rw [hserved.held]
    exact hconn
  · intro hrenews
    have hcalled : u.Own i s := by
      rw [hserved.called]
      refine execOps_own cb.ops hworld.wf hconn' hi' (fun hb => ?_) hrenews
      unfold Own
      rw [peerWorld_sockfd hne]
      exact hown hb
    unfold Own
    rw [hserved.sockfd_end hi hne]
    exact hcalled

theorem acceptLoop_scoped {isError : Bool} {err : SockErrCode} (items : List AcceptItem)
    (h : w.Scoped) (hatt : w.locals.unattached = []) (hconn : w.locals.conn = none)
    (hi : i ∈ w.locals.socks) {b : Bool} (hown : b = false → w.Own i s)
    (hfails : acceptFails isError items = true → renews i b (acceptCalls isError items) = false)
    (hpeers : PeersKept isError w.nextSock items) :
    (acceptLoop i s isError err w items).1.Scoped := by
  induction items generalizing w b with
  | nil => exact h
  | cons item items ih =>
      cases item with
      | err e soError =>
          rw [acceptLoop]
          rw [acceptFails, acceptCalls] at hfails
          by_cases hintr : uvTranslatePosixError e = EINTR
          · rw [if_pos hintr] at hfails ⊢
            rw [if_pos hintr] at hfails
            refine ih h hatt hconn hi hown hfails fun before fd cb hreached => ?_
            have hkept := hpeers _ fd cb (hreached.cons hintr)
            rwa [List.map_cons, List.sum_cons, AcceptItem.creates, Nat.zero_add] at hkept
          · rw [if_neg hintr] at hfails ⊢
            rw [if_neg hintr] at hfails
            split
            · exact h
            · next hagain =>
              exact h.emitError hconn (hown (hfails (by simpa using hagain))) _
      | conn fd cb ctlOk =>
          rw [acceptLoop]
          dsimp only
          split
          · exact h
          · next p hsome =>
            have hopened := h.steps (openFd_steps w (some fd))
            obtain ⟨n, heq, rfl⟩ := openFd_some hsome
            rw [heq] at hopened ⊢
            have hfirst : cb.throws = false → ctlOk = false →
                renews (w.opened n).nextSock false cb.ops = false := by
              rintro hthrows rfl
              exact hpeers [] fd cb (.head _ _ _) hthrows
            obtain ⟨hpeer, hown'⟩ := acceptPeer_scoped hopened cb ctlOk List.mem_cons_self hatt
              hconn hi hown hfirst
            have hback := (acceptOpened_steps i s hopened.wf cb ctlOk hatt hconn).2
            have hnext := acceptPeer_nextSock (w.opened n) i s w.nextSfd cb ctlOk
            have hthrew := acceptPeer_threw (w.opened n) i s w.nextSfd cb ctlOk
            generalize (w.opened n).acceptPeer i s w.nextSfd cb ctlOk = r
              at hpeer hown' hback hnext hthrew ⊢
            have hconn' : r.1.locals.conn = none := by
              rw [hback]
              exact hconn
            rw [hthrew]
            rw [acceptFails, acceptCalls] at hfails
            by_cases hthrows : cb.throws = true
            · rw [if_pos hthrows]
              exact hpeer
            · rw [if_neg hthrows]
              rw [Bool.not_eq_true] at hthrows
              rw [hthrows, Bool.false_or, Bool.not_false, Bool.true_and] at hfails
              by_cases hmore : isError = true
              · rw [if_pos hmore]
                rw [hmore, if_pos rfl, List.append_nil, Bool.true_or] at hfails
                exact hpeer.emitError hconn' (hown' (hfails rfl)) _
              · rw [if_neg hmore]
                rw [Bool.not_eq_true] at hmore
                rw [hmore, if_neg Bool.false_ne_true, renews_append, Bool.false_or] at hfails
                refine ih hpeer (by rw [hback]; exact hatt) hconn' (by rw [hback]; exact hi) hown'
                  (by rw [hmore]; exact hfails) fun before fd' cb' hreached => ?_
                have hkept := hpeers _ fd' cb' (hreached.cons ⟨hthrows, hmore⟩)
                rw [hnext, Nat.add_assoc]
                rwa [List.map_cons, List.sum_cons, AcceptItem.creates] at hkept

/-! ## The other functions of an event -/

theorem onWriteable_scoped (h : w.Scoped) (env : SendEnv) (soError : Errno) (cb : CbRun)
    (hlocals : w.locals = { sfds := [s], socks := [i], handler := some (i, s) })
    (hcur : (w.sockets i).sockfd ≠ none) (hown : w.Own i s) :
    (w.onWriteable i s env soError cb).1.Scoped ∧
      (renews i false cb.ops = false → (w.onWriteable i s env soError cb).1.Own i s) := by
  have hwrite := h.steps (Micro.writeable w i s env (by rw [hlocals]) hcur (by rw [hlocals])).steps
  have hconn : (w.writeable i s env).1.locals.conn = none := by
    rw [writeable_locals, hlocals]
  have hi : i ∈ (w.writeable i s env).1.locals.socks := by
    rw [writeable_locals, hlocals]
    exact List.mem_singleton_self i
  have hown' : (w.writeable i s env).1.Own i s := by
    unfold Own
    rw [(writeable_same w i s env).sockfd]
    exact hown
  unfold onWriteable
  dsimp only
  split
  · have hlog := hwrite.steps (Micro.logFlushed _ i).steps
    exact ⟨hlog.steps (execOps_steps cb.ops hlog.wf hconn),
      execOps_own cb.ops hlog.wf hconn hi fun _ => hown'⟩
  · exact ⟨hwrite.emitError hconn hown' _, fun _ => emitError_own _ _ _ _⟩
  · exact ⟨hwrite, fun _ => hown'⟩

theorem attachedEvent_scoped (h : w.Scoped) {event : Nat} {script : Script}
    (hlocals : w.locals = { sfds := [s], socks := [i], handler := some (i, s) })
    (hcur : (w.sockets i).sockfd = some s)
    (hkept : AttachedKept i udp (w.readCapacity i) event script) :
    (w.attachedEvent i s udp event script).1.Scoped := by
  have hconn : w.locals.conn = none := by rw [hlocals]
  have hi : i ∈ w.locals.socks := by rw [hlocals]; exact List.mem_singleton_self i
  have hread : (w.readPart i s udp event script).world.Scoped ∧
      (has event PE_WRITE = true ∨ has event PE_ERROR = true →
        (w.readPart i s udp event script).world.Own i s) := by
    unfold readPart
    split
    · next hevent =>
      obtain ⟨hscoped, hown⟩ := onRead_scoped script.reads h hconn hi (b := false)
        (fun _ => .inr hcur) (hkept.read hevent)
      exact ⟨hscoped, fun hmore => hown (hkept.more hevent hmore)⟩
    · exact ⟨h, fun _ => .inr hcur⟩
  have hback := (readPart_steps h.wf i s udp event script hconn).2
  have hcases := attachedEvent_cases w i s udp event script
  dsimp only at hcases
  generalize w.readPart i s udp event script = r at hread hback hcases
  obtain ⟨hdone, hown⟩ := hread
  rw [hlocals] at hback
  have hwrite : (r.world.writePart i s event script).1.Scoped ∧
      (has event PE_ERROR = true → (r.world.writePart i s event script).1.Own i s) := by
    unfold writePart
    split
    · next hcond =>
      rw [Bool.and_eq_true] at hcond
      obtain ⟨hscoped, hown'⟩ := onWriteable_scoped hdone script.send script.soError script.cb
        hback (Option.isSome_iff_ne_none.1 hcond.1) (hown (.inl hcond.2))
      exact ⟨hscoped, fun herror => hown' (hkept.flushed hcond.2 herror)⟩
    · exact ⟨hdone, fun herror => hown (.inr herror)⟩
  obtain ⟨-, b, hb, -⟩ := writePart_steps hdone.wf event script (by rw [hback]) (by rw [hback])
    (by rw [hback])
  rcases hcases with ⟨-, hend⟩ | ⟨-, hend | ⟨-, herror, hend⟩⟩
  · rw [hend]
    exact hdone
  · rw [hend]
    exact hwrite.1
  · rw [hend]
    exact hwrite.1.emitError (by rw [hb, hback]) (hwrite.2 herror) _

/-! ## Runs -/

/-- What the callbacks of an event do to `sockfd_` in the function that is called for it. -/
def EventKept (w : World) (event : Nat) (script : Script) : PollEventCB → Prop
  | .connecting _ _ _ => True
  | .attached i _ udp => AttachedKept i udp (w.readCapacity i) event script
  | .accepting i _ =>
      has event PE_READ →
        (acceptFails (has event PE_ERROR) script.accepts = true →
          renews i false (acceptCalls (has event PE_ERROR) script.accepts) = false) ∧
        PeersKept (has event PE_ERROR) w.nextSock script.accepts

/-- That is so for the event that the poller thread handles next. -/
def KeepsOwn (w : World) : Action → Prop
  | .event fd epollEvents script =>
      ∀ cb, w.poller.eventMap fd = some cb → w.EventKept (toPoller epollEvents) script cb
  | _ => True

theorem handle_scoped {cb : PollEventCB} (hs : w.Serving cb) (h : w.Scoped) {event : Nat}
    {script : Script} (hkept : w.EventKept event script cb)
    (hrun : w.handle cb event script = some w') : w'.Scoped := by
  have hconn : w.locals.conn = none := by rw [hs.locals]
  have hcur := hs.cur
  refine handle_keeps (fun _ _ hv => hv.steps) hs h ?_ ?_ ?_ hrun
  · rintro i s udp rfl
    exact attachedEvent_scoped h hs.locals hcur hkept
  · rintro i s err rfl hread
    obtain ⟨hfails, hpeers⟩ := hkept hread
    exact acceptLoop_scoped script.accepts h (by rw [hs.locals]) hconn
      (by rw [hs.locals]; exact List.mem_singleton_self i) (fun _ => .inr hcur) hfails hpeers
  · rintro i s err rfl
    exact h.emitError hconn (.inr hcur) _

theorem step_scoped (hq : w.Quiet) (h : w.Scoped) {act : Action} (hkept : w.KeepsOwn act)
    (hrun : w.step act = some w') : w'.Scoped := by
  refine step_keeps (fun _ _ hv => hv.steps) hq h ?_ hrun
  rintro fd epollEvents script cb u rfl hreg hs hlocked hhandled
  exact handle_scoped hs hlocked (hkept cb hreg) hhandled

variable {acts : List Action}

/-- In every run in which no callback leaves a new `sockfd_` behind for an error that is
found in the same event, an error closes the `SocketFD` it was found on, which is open, and
is reported once for it. -/
theorem errors_own (hrun : Run step KeepsOwn {} acts w) : EachOk ErrorOwn w.trace := by
  have hinv : w.Quiet ∧ w.Scoped := by
    have hstart : ({} : World).Scoped :=
      ⟨init_wf, init_closedGone, init_closeInv.1, fun _ _ _ _ h => (by cases h), EachOk.nil⟩
    refine Run.invariant (I := fun v => v.Quiet ∧ v.Scoped)
      (fun v act v' hv hkept hstep => ?_) hrun ⟨⟨init_wf, rfl⟩, hstart⟩
    exact ⟨step_quiet hv.1 hstep, step_scoped hv.1 hv.2 hkept hstep⟩
  exact hinv.2.own

/-- `recvfrom` says `ECONNRESET`. -/
def readFailure : Action := .event 5 EPOLLIN { reads := [.err 104 0] }

theorem errors_own_reset :
    ∃ w, Run step KeepsOwn {} (listenUdp ++ [readFailure]) w ∧ EachOk ErrorOwn w.trace ∧
      w.trace.filterMap Event.raises = [(0, 0)] := by
  have h : (exec step {} (listenUdp ++ [readFailure])).map
      (fun w => w.trace.filterMap Event.raises) = some [(0, 0)] := by
    decide +kernel
  obtain ⟨w, hexec, hraises⟩ := Option.map_eq_some_iff.1 h
  have hkept : ∀ act ∈ listenUdp ++ [readFailure], ∀ v : World, v.KeepsOwn act := by
    intro act hact v
    rcases List.mem_append.1 hact with hact | hact
    · rw [List.mem_singleton.1 hact]
      trivial
    · rw [List.mem_singleton.1 hact]
      rintro (_ | _ | _) -
      · trivial
      · exact ⟨fun _ _ => rfl, fun _ _ => rfl, fun _ _ => rfl⟩
      · exact fun _ => ⟨fun _ => rfl, fun before fd cb hreached => absurd hreached Reached.not_nil⟩
  have hrun := (Run.of_exec hexec).strengthen hkept
  exact ⟨w, hrun, errors_own hrun, hraises⟩

/-- `read_cb_` listens on a new descriptor, and then `recvfrom` on the old one fails: the
new one is closed. -/
theorem not_errors_own_of_listen :
    ∃ w, Run step (fun _ _ => True) {}
        (listenUdp ++ [.event 5 EPOLLIN
          { reads := [.data [1] { ops := [.listen 0 .udp (some 6) true] }, .err 104 0] }]) w ∧
      (w.sockets 0).sockfd = none ∧ ¬ EachOk ErrorOwn w.trace := by
  have h : (exec step {} (listenUdp ++ [.event 5 EPOLLIN
      { reads := [.data [1] { ops := [.listen 0 .udp (some 6) true] }, .err 104 0] }])).map
      (fun w => ((w.sockets 0).sockfd, w.trace.filterMap Event.raises)) =
      some (none, [(0, 1)]) := by
    decide +kernel
  obtain ⟨w, hexec, hend⟩ := Option.map_eq_some_iff.1 h
  obtain ⟨hcur, hraises⟩ := Prod.mk.inj hend
  refine ⟨w, Run.of_exec hexec, hcur, fun hok => ?_⟩
  have hraise : (0, 1) ∈ w.trace.filterMap Event.raises := by
    rw [hraises]
    exact List.mem_singleton_self _
  obtain ⟨e, he, hpair⟩ := List.mem_filterMap.1 hraise
  obtain ⟨i, err, rfl⟩ := Event.raises_eq.1 hpair
  obtain ⟨t, u, htrace⟩ := List.append_of_mem he
  have hsame := (hok t _ u htrace i 0 1 err rfl).1
  cases hsame

end World

end CommonLibrary.Net
