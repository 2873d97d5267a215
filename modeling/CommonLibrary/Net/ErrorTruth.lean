import CommonLibrary.Net.ReadDrain
import CommonLibrary.Net.Reentry

/-!
# The code of an error

`on_error` asks `SO_ERROR` and then `errno` what has gone wrong, long after the call that
failed.  If they do not know, the connection is closed and `error_cb_` is told `ERR_SUCCESS`.
-/

namespace CommonLibrary.Net

open Foundation Poller Utils

/-- The codes that `get_socket_error` takes for a success. -/
theorem getSocketError_eq_success {soError errno : Errno} :
    getSocketError soError errno = .success ↔
      if soError = 0 then errno = 0 ∨ uvTranslatePosixError errno = EAGAIN
      else uvTranslatePosixError soError = EAGAIN := by
  have hcode : ∀ error : Errno,
      (if error = 0 ∨ error = EAGAIN then SockErrCode.success
        else if error = ETIMEDOUT then .timeout
        else if error = ECONNREFUSED then .refused
        else .other) = .success ↔ error = 0 ∨ error = EAGAIN := by
    intro error
    split_ifs with hok
    · exact iff_of_true rfl hok
    all_goals exact iff_of_false (by simp) hok
  have hzero : ∀ e : Errno, uvTranslatePosixError e = 0 ↔ e = 0 := by
    intro e
    unfold uvTranslatePosixError
    split
    · next hagain =>
      refine iff_of_false (by decide) ?_
      rintro rfl
      revert hagain
      decide
    · exact Iff.rfl
  unfold getSocketError
  rw [hcode]
  split
  · rw [hzero]
  · next hset => rw [hzero, or_iff_right hset]

/-- `get_socket_error` finds the code of an error, in `SO_ERROR` or else in `errno`. -/
def ErrorKnown (soError errno : Errno) : Prop :=
  if soError = 0 then errno ≠ 0 ∧ uvTranslatePosixError errno ≠ EAGAIN
  else uvTranslatePosixError soError ≠ EAGAIN

instance (soError errno : Errno) : Decidable (ErrorKnown soError errno) :=
  inferInstanceAs (Decidable (ite _ _ _))

theorem getSocketError_ne_success {soError errno : Errno} :
    getSocketError soError errno ≠ .success ↔ ErrorKnown soError errno := by
  rw [Ne, getSocketError_eq_success, ErrorKnown]
  split
  · exact not_or
  · exact Iff.rfl

/-- What `error_cb_` is called with. -/
def Event.told : Event → Option (SockId × SockErrCode)
  | error i err => some (i, err)
  | _ => none

namespace World

variable {d : Bool} {w w' : World} {i : SockId} {s : SfdId} {udp : Bool} {capacity : Nat}

/-- Every error that closed a connection was one. -/
def AllErrors (w : World) : Prop :=
  ∀ i s cur err, .raised i s cur err ∈ w.trace → err ≠ .success

/-- `on_error` finds the code of an error, if it closes a connection. -/
def Tells (w : World) (i : SockId) (soError errno : Errno) : Prop :=
  (w.sockets i).sockfd ≠ none → ErrorKnown soError errno

def ReadTells (i : SockId) (s : SfdId) (capacity : Nat) : World → List RecvItem → Prop
  | _, [] => True
  | w, .err e soError :: rest =>
      if uvTranslatePosixError e = EINTR then ReadTells i s capacity w rest
      else uvTranslatePosixError e ≠ EAGAIN → w.Tells i soError e
  | w, .data bytes cb :: rest =>
      bytes.take capacity ≠ [] → cb.throws = false →
        ReadTells i s capacity ((w.log (.read i s (bytes.take capacity))).execOps cb.ops) rest

def WriteTells (w : World) (i : SockId) (s : SfdId) (env : SendEnv) (soError : Errno) : Prop :=
  let r := w.writeable i s env
  r.2.how = .failed → r.1.Tells i soError r.2.env.errno

def AttachedTells (w : World) (i : SockId) (s : SfdId) (udp : Bool) (event : Nat)
    (script : Script) : Prop :=
  let r := w.readPart i s udp event script
  let r' := r.world.writePart i s event script
  (has event PE_READ → ReadTells i s (w.readCapacity i) w script.reads) ∧
    (r.how ≠ .threw →
      (has event PE_WRITE → (r.world.sockets i).sockfd ≠ none →
        r.world.WriteTells i s script.send script.soError) ∧
      (r'.2 = false → has event PE_ERROR → r'.1.Tells i script.soError script.errno))

def AcceptTells (i : SockId) (s : SfdId) (isError : Bool) (soError errno : Errno) :
    World → List AcceptItem → Prop
  | _, [] => True
  | w, .err e soError' :: rest =>
      if uvTranslatePosixError e = EINTR then AcceptTells i s isError soError errno w rest
      else uvTranslatePosixError e ≠ EAGAIN → w.Tells i soError' e
  | w, .conn fd cb ctlOk :: rest =>
      let res := w.openFd (some fd)
      match res.2 with
      | none => True
      | some p =>
          let r := res.1.acceptPeer i s p cb ctlOk
          if r.2 then True
          else if isError then r.1.Tells i soError errno
          else AcceptTells i s isError soError errno r.1 rest

def HandlerTells (w : World) (event : Nat) (script : Script) : PollEventCB → Prop
  | .connecting _ _ _ => True
  | .attached i s udp => w.AttachedTells i s udp event script
  | .accepting i s =>
      if has event PE_READ then
        AcceptTells i s (has event PE_ERROR) script.soError script.errno w script.accepts
      else has event PE_ERROR → w.Tells i script.soError script.errno

/-- `on_error` tells an error wherever it is called in the next step. -/
def ErrorsTell (w : World) : Action → Prop
  | .event fd epollEvents script =>
      ∀ cb, w.poller.eventMap fd = some cb →
        (w.lock cb.sock cb.sfd).HandlerTells (toPoller epollEvents) script cb
  | _ => True

/-! ## Pieces of code -/

theorem AllErrors.of_steps (h : w'.AllErrors) (hsteps : Steps d w w') : w.AllErrors := by
  intro i s cur err hraised
  refine h i s cur err ?_
  exact hsteps.invariant (P := fun v => Event.raised i s cur err ∈ v.trace)
    (fun _ _ hstep he => micro_trace_mono hstep he) hraised

theorem Steps.allErrors_iff (hsteps : Steps false w w') : w'.AllErrors ↔ w.AllErrors := by
  refine ⟨fun h => h.of_steps hsteps, fun h i s cur err hraised => ?_⟩
  obtain ⟨es, htrace, hes⟩ := hsteps.unhandled
  rw [htrace] at hraised
  rcases List.mem_append.1 hraised with hold | hnew
  · exact h i s cur err hold
  · have hfalse := hes _ hnew
    cases hfalse

theorem emitError_allErrors_iff (hw : w.WF) (i : SockId) (s : SfdId) (err : SockErrCode) :
    (w.emitError i s err).AllErrors ↔
      w.AllErrors ∧ ((w.sockets i).sockfd ≠ none → err ≠ .success) := by
  cases hcur : (w.sockets i).sockfd with
  | none =>
      have hsame : w.emitError i s err = w := by
        unfold emitError
        rw [hcur]
      rw [hsame]
      exact ⟨fun h => ⟨h, fun hset => absurd rfl hset⟩, And.left⟩
  | some cur =>
      obtain ⟨es, htrace, hes⟩ := emitError_trace hw hcur s err
      unfold AllErrors
      rw [htrace]
      constructor
      · intro h
        refine ⟨fun i' s' cur' err' he => h i' s' cur' err' (List.mem_append_left _ he),
          fun _ => h i s cur err (by simp)⟩
      · rintro ⟨hold, htells⟩ i' s' cur' err' hraised
        simp only [List.mem_append, List.mem_cons, List.not_mem_nil, or_false, reduceCtorEq]
          at hraised
        rcases hraised with hbefore | hthis | hclosing
        · exact hold i' s' cur' err' hbefore
        · cases hthis
          exact htells (Option.some_ne_none cur)
        · have hfalse := hes _ hclosing
          cases hfalse

theorem onError_allErrors_iff (hw : w.WF) (i : SockId) (s : SfdId) (soError errno : Errno) :
    (w.emitError i s (getSocketError soError errno)).AllErrors ↔
      w.AllErrors ∧ w.Tells i soError errno := by
  rw [emitError_allErrors_iff hw, getSocketError_ne_success, Tells]

theorem onRead_allErrors_iff (items : List RecvItem) (hw : w.WF) (hconn : w.locals.conn = none) :
    (onRead i s udp capacity w items).world.AllErrors ↔
      w.AllErrors ∧ ReadTells i s capacity w items := by
  induction items generalizing w with
  | nil => exact ⟨fun h => ⟨h, trivial⟩, And.left⟩
  | cons item items ih =>
      cases item with
      | err e soError =>
          rw [onRead, ReadTells]
          split
          · exact ih hw hconn
          · split
            · next hagain => exact ⟨fun h => ⟨h, fun hne => absurd hagain hne⟩, And.left⟩
            · next hagain =>
              rw [onError_allErrors_iff hw, forall_prop_of_true hagain]
      | data bytes cb =>
          rw [onRead, ReadTells]
          dsimp only
          split
          · next hempty =>
            have hnone : ∀ v : World, v.AllErrors ↔ v.AllErrors ∧ (bytes.take capacity ≠ [] →
                cb.throws = false → ReadTells i s capacity
                  ((w.log (.read i s (bytes.take capacity))).execOps cb.ops) items) :=
              fun v => ⟨fun h => ⟨h, fun hne => absurd hempty hne⟩, And.left⟩
            split
            · exact hnone w
            · rw [← hnone w, emitError_allErrors_iff hw]
              exact and_iff_left (fun _ => by decide)
          · next hdata =>
            obtain ⟨hwf, hread, hlocals⟩ := readCb_steps hw hconn i s (bytes.take capacity) cb.ops
            have hlogged : (w.log (.read i s (bytes.take capacity))).AllErrors ↔ w.AllErrors := by
              unfold AllErrors
              simp [World.log]
            have hcalled := (execOps_steps cb.ops hwf hconn).allErrors_iff.trans hlogged
            rw [forall_prop_of_true hdata]
            split
            · next hthrows =>
              refine hcalled.trans ⟨fun h => ⟨h, fun hno => ?_⟩, And.left⟩
              rw [hthrows] at hno
              cases hno
            · next hthrows =>
              rw [forall_prop_of_true (Bool.eq_false_of_not_eq_true hthrows), ← hcalled]
              exact ih (hread.wf hw) (by rw [hlocals]; exact hconn)

theorem acceptPeer_allErrors_iff (hw : w.WF) {p : SfdId} (cb : CbRun) (ctlOk : Bool)
    (hp : p ∈ w.locals.fds) (hatt : w.locals.unattached = []) (hconn : w.locals.conn = none) :
    (w.acceptPeer i s p cb ctlOk).1.AllErrors ↔ w.AllErrors := by
  refine ⟨fun h => h.of_steps (acceptPeer_steps hw cb ctlOk hp hatt hconn).1, fun h => ?_⟩
  obtain ⟨u, x, hserved⟩ := acceptPeer_served hw i s cb ctlOk hp hconn
  have hpeer := (peer_steps (d := false) hw hp hconn).1
  have hworld : (w.peerWorld i s p).WF ∧ (w.peerWorld i s p).AllErrors := by
    refine ⟨(hpeer.wf hw).log _, ?_⟩
    have hbefore := hpeer.allErrors_iff.2 h
    unfold AllErrors at hbefore ⊢
    simpa [World.peerWorld, World.log] using hbefore
  have hkeeps : ∀ v v' : World, v.WF ∧ v.AllErrors → Steps false v v' → v'.WF ∧ v'.AllErrors :=
    fun v v' hv hsteps => ⟨hsteps.wf hv.1, hsteps.allErrors_iff.2 hv.2⟩
  refine (acceptPeer_keeps (I := fun v => v.WF ∧ v.AllErrors) (fun _ hv => hv.1) hkeeps hw hatt
    hconn hserved hworld fun _ hx _ _ => ?_).2
  have hconn' : x.locals.conn = none := by
    rw [hserved.held]
    exact hconn
  exact ⟨(emitError_steps hx.1 _ _ _ hconn').wf hx.1,
    (emitError_allErrors_iff hx.1 _ _ _).2 ⟨hx.2, fun _ => by decide⟩⟩

theorem acceptLoop_allErrors_iff {isError : Bool} {soError errno : Errno}
    (items : List AcceptItem) (hw : w.WF) (hatt : w.locals.unattached = [])
    (hconn : w.locals.conn = none) :
    (acceptLoop i s isError (getSocketError soError errno) w items).1.AllErrors ↔
      w.AllErrors ∧ AcceptTells i s isError soError errno w items := by
  induction items generalizing w with
  | nil => exact ⟨fun h => ⟨h, trivial⟩, And.left⟩
  | cons item items ih =>
      cases item with
      | err e soError' =>
          rw [acceptLoop, AcceptTells]
          split
          · exact ih hw hatt hconn
          · split
            · next hagain => exact ⟨fun h => ⟨h, fun hne => absurd hagain hne⟩, And.left⟩
            · next hagain =>
              rw [onError_allErrors_iff hw, forall_prop_of_true hagain]
      | conn fd cb ctlOk =>
          rw [acceptLoop, AcceptTells]
          dsimp only
          cases hres : (w.openFd (some fd)).2 with
          | none => exact ⟨fun h => ⟨h, trivial⟩, And.left⟩
          | some p =>
              have hopen : Steps false w (w.openFd (some fd)).1 := openFd_steps w (some fd)
              obtain ⟨n, hopened, rfl⟩ := openFd_some hres
              rw [hopened] at hopen ⊢
              dsimp only
              have hwf := hopen.wf hw
              obtain ⟨hpeer, hback⟩ := acceptOpened_steps i s hwf cb ctlOk hatt hconn
              have hserved := (acceptPeer_allErrors_iff (i := i) (s := s) hwf cb ctlOk
                List.mem_cons_self hatt hconn).trans hopen.allErrors_iff
              generalize (w.opened n).acceptPeer i s w.nextSfd cb ctlOk = r
                at hpeer hback hserved ⊢
              have hwf' := hpeer.wf hwf
              rw [← hserved]
              by_cases hthrew : r.2 = true
              · rw [if_pos hthrew, if_pos hthrew]
                exact ⟨fun h => ⟨h, trivial⟩, And.left⟩
              · rw [if_neg hthrew, if_neg hthrew]
                split
                · exact onError_allErrors_iff hwf' i s soError errno
                · exact ih hwf' (by rw [hback]; exact hatt) (by rw [hback]; exact hconn)

theorem onWriteable_allErrors_iff (hw : w.WF) (env : SendEnv) (soError : Errno) (cb : CbRun)
    (hhandler : w.locals.handler = some (i, s)) (hcur : (w.sockets i).sockfd ≠ none)
    (hconn : w.locals.conn = none) (hok : w.locals.sendFailed = false) :
    (w.onWriteable i s env soError cb).1.AllErrors ↔
      w.AllErrors ∧ w.WriteTells i s env soError := by
  have hwrite : Steps false w (w.writeable i s env).1 :=
    (Micro.writeable w i s env hhandler hcur hok).steps
  have hwf := hwrite.wf hw
  have hconn' : (w.writeable i s env).1.locals.conn = none := by
    rw [writeable_locals]
    exact hconn
  unfold onWriteable WriteTells
  dsimp only
  rw [← hwrite.allErrors_iff]
  split
  · next hhow =>
    have hlog : Steps false (w.writeable i s env).1 ((w.writeable i s env).1.log (.flushed i)) :=
      (Micro.logFlushed _ i).steps
    have hops := execOps_steps (d := false) cb.ops (hlog.wf hwf) hconn'
    rw [hops.allErrors_iff, hlog.allErrors_iff, hhow]
    exact ⟨fun h => ⟨h, fun hno => by cases hno⟩, And.left⟩
  · next hhow =>
    rw [onError_allErrors_iff hwf, forall_prop_of_true hhow]
  · next hhow => exact ⟨fun h => ⟨h, fun hfailed => absurd hfailed hhow⟩, And.left⟩

/-! ## The functions of an event -/

theorem readPart_allErrors_iff (hw : w.WF) (event : Nat) (script : Script)
    (hconn : w.locals.conn = none) :
    (w.readPart i s udp event script).world.AllErrors ↔
      w.AllErrors ∧
        (has event PE_READ → ReadTells i s (w.readCapacity i) w script.reads) := by
  unfold readPart
  split
  · next hread =>
    rw [forall_prop_of_true hread]
    exact onRead_allErrors_iff script.reads hw hconn
  · next hread => exact ⟨fun h => ⟨h, fun hyes => absurd hyes hread⟩, And.left⟩

theorem writePart_allErrors_iff (hw : w.WF) (event : Nat) (script : Script)
    (hhandler : w.locals.handler = some (i, s)) (hconn : w.locals.conn = none)
    (hok : w.locals.sendFailed = false) :
    (w.writePart i s event script).1.AllErrors ↔
      w.AllErrors ∧ (has event PE_WRITE → (w.sockets i).sockfd ≠ none →
        w.WriteTells i s script.send script.soError) := by
  unfold writePart
  split
  · next hcond =>
    rw [Bool.and_eq_true, Option.isSome_iff_ne_none] at hcond
    rw [forall_prop_of_true hcond.2, forall_prop_of_true hcond.1]
    exact onWriteable_allErrors_iff hw script.send script.soError script.cb hhandler hcond.1
      hconn hok
  · next hcond =>
    rw [Bool.and_eq_true, Option.isSome_iff_ne_none] at hcond
    exact ⟨fun h => ⟨h, fun hwrite hset => absurd ⟨hset, hwrite⟩ hcond⟩, And.left⟩

theorem attachedEvent_allErrors_iff (hw : w.WF) {event : Nat} {script : Script}
    (hlocals : w.locals = { sfds := [s], socks := [i], handler := some (i, s) }) :
    (w.attachedEvent i s udp event script).1.AllErrors ↔
      w.AllErrors ∧ w.AttachedTells i s udp event script := by
  have hconn : w.locals.conn = none := by rw [hlocals]
  have hread : (w.readPart i s udp event script).world.AllErrors ↔ _ :=
    readPart_allErrors_iff hw event script hconn
  obtain ⟨hsteps, hback⟩ := readPart_steps hw i s udp event script hconn
  rw [attachedEvent_eq]
  unfold AttachedTells
  dsimp only
  generalize w.readPart i s udp event script = r at hread hsteps hback ⊢
  rw [hlocals] at hback
  rw [← and_assoc, ← hread]
  have hwf := hsteps.wf hw
  have hwrite := writePart_allErrors_iff (i := i) (s := s) hwf event script (by rw [hback])
    (by rw [hback]) (by rw [hback])
  have hwf' := (writePart_steps hwf event script (by rw [hback]) (by rw [hback])
    (by rw [hback])).1.wf hwf
  generalize r.world.writePart i s event script = r' at hwrite hwf' ⊢
  split
  · next hthrew => exact ⟨fun h => ⟨h, fun hno => absurd hthrew hno⟩, And.left⟩
  · next hhow =>
    rw [forall_prop_of_true hhow, ← and_assoc, ← hwrite]
    split
    · next hthrew =>
      refine ⟨fun h => ⟨h, fun hno => ?_⟩, And.left⟩
      rw [hthrew] at hno
      cases hno
    · next hno =>
      rw [forall_prop_of_true (Bool.eq_false_of_not_eq_true hno)]
      split
      · next hcond =>
        rw [Bool.and_eq_true] at hcond
        rw [forall_prop_of_true hcond.2]
        exact onError_allErrors_iff hwf' i s _ _
      · next hcond =>
        rw [Bool.and_eq_true, Option.isSome_iff_ne_none] at hcond
        exact ⟨fun h => ⟨h, fun herror hset => absurd ⟨hset, herror⟩ hcond⟩, And.left⟩

theorem handle_allErrors_iff {cb : PollEventCB} (hs : w.Serving cb) {event : Nat}
    {script : Script} (hrun : w.handle cb event script = some w') :
    w'.AllErrors ↔ w.AllErrors ∧ w.HandlerTells event script cb := by
  have hconn : w.locals.conn = none := by rw [hs.locals]
  have hatt : w.locals.unattached = [] := by rw [hs.locals]
  cases cb with
  | connecting i a s =>
      cases hrun
      have hhandler : w.locals.handler = some (i, s) := by rw [hs.locals]; rfl
      have hsteps := (onConnected_steps (d := false) hs.wf
        (getSocketError script.soError script.errno) script.ctlOk script.cb hhandler
        hs.cur hs.reg hconn).1
      rw [hsteps.allErrors_iff]
      exact ⟨fun h => ⟨h, trivial⟩, And.left⟩
  | attached i s udp =>
      cases hrun
      exact attachedEvent_allErrors_iff hs.wf hs.locals
  | accepting i s =>
      obtain ⟨r, hr, rfl⟩ := Option.map_eq_some_iff.1 hrun
      unfold onAccept at hr
      unfold HandlerTells
      dsimp only
      by_cases hread : has event PE_READ = true
      · rw [if_pos hread] at hr ⊢
        cases hr
        exact acceptLoop_allErrors_iff script.accepts hs.wf hatt hconn
      · rw [if_neg hread] at hr ⊢
        by_cases herror : has event PE_ERROR = true
        · rw [if_pos herror] at hr
          cases hr
          rw [forall_prop_of_true herror]
          exact onError_allErrors_iff hs.wf i s _ _
        · rw [if_neg herror] at hr
          cases hr

/-! ## Runs -/

theorem step_allErrors_iff (hq : w.Quiet) {act : Action} (hrun : w.step act = some w') :
    w'.AllErrors ↔ w.AllErrors ∧ w.ErrorsTell act := by
  cases act with
  | event fd epollEvents script =>
      have hdispatch := step_event hrun
      cases hreg : w.poller.eventMap fd with
      | none =>
          rcases dispatch_cases hq hdispatch with rfl | ⟨cb, u, hcb, -⟩
          · refine ⟨fun h => ⟨h, fun cb hcb => ?_⟩, And.left⟩
            rw [hreg] at hcb
            cases hcb
          · rw [hreg] at hcb
            cases hcb
      | some cb =>
          -- what is registered is alive, so its function is called
          have hcur := hq.current_of_reg hreg
          have halive := hq.wf.alive_of_current hcur
          unfold dispatch at hdispatch
          rw [hreg] at hdispatch
          dsimp only at hdispatch
          rw [if_pos ⟨halive, (hq.wf.current _ _ hcur).1⟩] at hdispatch
          obtain ⟨u, hhandled, rfl⟩ := Option.map_eq_some_iff.1 hdispatch
          have hs := lock_serving hq hreg
          obtain ⟨hall, b, hb, hclosed⟩ := handle_steps hs hhandled
          have hunlock := (unlock_steps (d := false) hs hall hb hclosed).1
          have hlock : Steps false w (w.lock cb.sock cb.sfd) := lock_steps hq hreg
          rw [hunlock.allErrors_iff, handle_allErrors_iff hs hhandled, hlock.allErrors_iff]
          refine and_congr_right fun _ => ⟨fun h cb' hcb' => ?_, fun h => h cb hreg⟩
          obtain rfl : cb = cb' := Option.some.inj (hreg.symm.trans hcb')
          exact h
  | _ =>
      rw [(stepOther_steps hq (by simp) hrun).1.allErrors_iff]
      exact ⟨fun h => ⟨h, trivial⟩, And.left⟩

variable {acts : List Action}

/-- In the runs in which `on_error` finds a code whenever it is to close a connection, and in no
others, every error that closed a connection is one. -/
theorem all_errors_iff (hrun : Run step (fun _ _ => True) {} acts w) :
    w.AllErrors ↔ Run step ErrorsTell {} acts w := by
  have hstart : ({} : World).AllErrors := fun _ _ _ _ h => by cases h
  have hiff := Run.keeps_iff (I := AllErrors) (J := Quiet) (C := ErrorsTell)
    (fun v act v' hv hstep => ⟨step_quiet hv hstep, step_allErrors_iff hv hstep⟩) hrun
    ⟨init_wf, rfl⟩
  exact hiff.trans (and_iff_right hstart)

/-- `recvfrom` says `ECONNRESET`. -/
theorem all_errors_reset :
    ∃ w : World, w.AllErrors ∧ w.trace.filterMap Event.told = [(0, .other)] := by
  let acts : List Action := listenUdp ++ [.event 5 EPOLLIN { reads := [.err 104 0] }, .swap,
    .task {}]
  have h : (exec step {} acts).map (fun w => w.trace.filterMap Event.told) =
      some [(0, .other)] := by
    decide +kernel
  obtain ⟨w, hexec, htold⟩ := Option.map_eq_some_iff.1 h
  have htells : ∀ act ∈ acts, ∀ v : World, v.ErrorsTell act := by
    intro act hact v
    simp only [acts, listenUdp, List.cons_append, List.nil_append, List.mem_cons,
      List.not_mem_nil, or_false] at hact
    rcases hact with rfl | rfl | rfl | rfl
    · trivial
    · rintro (_ | _ | _) -
      · trivial
      · exact ⟨fun _ _ _ => by decide, fun _ => ⟨fun hno => absurd hno (by decide),
          fun _ hno => absurd hno (by decide)⟩⟩
      · trivial
    · trivial
    · trivial
  have hrun := Run.of_exec hexec
  exact ⟨w, (all_errors_iff hrun).2 (hrun.strengthen htells), htold⟩

/-- The call of `emit_error` with `ERR_SUCCESS`. -/
def Event.raisesSuccess : Event → Bool
  | .raised _ _ _ .success => true
  | _ => false

/-- A connection is accepted, and `on_accept` goes on to the `EAGAIN` of the next `accept`.  Then
`EPOLLHUP` comes with nothing in `SO_ERROR`: the connection is closed for the error
`ERR_SUCCESS`. -/
theorem not_all_errors_of_hup :
    ∃ w, exec step {} [.user [.create, .listen 0 .tcp (some 4) true],
        .event 4 EPOLLIN { accepts := [.conn 5 {} true, .err EAGAIN 0] },
        .event 5 EPOLLHUP { soError := 0, errno := EAGAIN }, .swap, .task {}] = some w ∧
      (w.sockets 1).sockfd = none ∧ w.trace.filterMap Event.told = [(1, .success)] ∧
      ¬ w.AllErrors := by
  have h : (exec step {} [.user [.create, .listen 0 .tcp (some 4) true],
        .event 4 EPOLLIN { accepts := [.conn 5 {} true, .err EAGAIN 0] },
        .event 5 EPOLLHUP { soError := 0, errno := EAGAIN }, .swap, .task {}]).map
      (fun w => ((w.sockets 1).sockfd, w.trace.filterMap Event.told,
        w.trace.any Event.raisesSuccess)) =
      some (none, [(1, .success)], true) := by
    decide +kernel
  obtain ⟨w, hexec, hend⟩ := Option.map_eq_some_iff.1 h
  obtain ⟨hcur, hrest⟩ := Prod.mk.inj hend
  obtain ⟨htold, hany⟩ := Prod.mk.inj hrest
  refine ⟨w, hexec, hcur, htold, fun herrors => ?_⟩
  obtain ⟨e, he, hraised⟩ := List.any_eq_true.1 hany
  cases e with
  | raised i s cur err =>
      cases err with
      | success => exact herrors i s cur .success he rfl
      | _ => cases hraised
  | _ => cases hraised

end World

end CommonLibrary.Net
