import CommonLibrary.Net.ConnectReport
import CommonLibrary.Net.Reentry

/-!
# What a connect attempt is told

`on_connected` asks `get_socket_error` with `try_errno` at its default, so where `SO_ERROR`
has nothing to say it is `errno` that decides, whatever has set it.  `strerror` stands for
the function of the C library.
-/

namespace CommonLibrary.Net

open Foundation Poller Utils

structure SocketException where
  code : SockErrCode := .success
  msg : String := ""
  deriving DecidableEq

section Outcome

variable (strerror : Errno → String)

/-- `get_socket_error`, with what `getsockopt` reports and the thread's `errno`. -/
def getSocketException (soError errno : Errno) (tryErrno : Bool) : SocketException :=
  let error :=
    if soError = 0 then
      if tryErrno then uvTranslatePosixError errno else 0
    else uvTranslatePosixError soError
  if error = 0 ∨ error = EAGAIN then ⟨.success, "OK"⟩
  else if error = ETIMEDOUT then ⟨.timeout, "TIMEOUT"⟩
  else if error = ECONNREFUSED then ⟨.refused, "REFUESD"⟩
  else ⟨.other, strerror error⟩

theorem getSocketException_code (soError errno : Errno) :
    (getSocketException strerror soError errno true).code = getSocketError soError errno := by
  unfold getSocketException getSocketError
  rw [if_pos rfl]
  dsimp only
  split_ifs <;> rfl

theorem getSocketException_of_ne {soError : Errno} (h : soError ≠ 0) (errno errno' : Errno)
    (tryErrno : Bool) :
    getSocketException strerror soError errno tryErrno =
      getSocketException strerror soError errno' tryErrno := by
  unfold getSocketException
  rw [if_neg h, if_neg h]

namespace World

variable {w : World} {i : SockId} {a : ConnId} {s : SfdId}

def reportWorld (w : World) (i : SockId) (a : ConnId) (err : SockErrCode) : World :=
  let w := ((w.holdSock i).enterReport i a).dropConnect i
  if err = .success then w else w.resetSockfd i

theorem connectCb_eq (hi : (w.sockets i).alive) (a : ConnId) (err : SockErrCode) (cb : CbRun) :
    w.connectCb i a err cb =
      ((((w.reportWorld i a err).logReport i a err).execOps cb.ops).dropSock, cb.throws) :=
  if_pos hi

/-- What `on_connected` calls the user's callback with, and the state in which it does. -/
def connectOutcome (w : World) (i : SockId) (a : ConnId) (s : SfdId) (soError errno : Errno)
    (ctlOk : Bool) : SocketException × World :=
  let err := getSocketException strerror soError errno true
  if err.code = .success then
    let add := (((w.enterReport i a).setConnected s).unregister s).attachEvent i s false ctlOk
    let err := if add.2 then err else ⟨.other, "attach to poller failed when connected."⟩
    (err, add.1.reportWorld i a err.code)
  else (err, w.reportWorld i a err.code)

/-- `onConnected` calls the callback with that. -/
theorem onConnected_eq (hi : (w.sockets i).alive) (soError errno : Errno) (ctlOk : Bool)
    (cb : CbRun) :
    w.onConnected i a s (getSocketError soError errno) ctlOk cb =
      let out := w.connectOutcome strerror i a s soError errno ctlOk
      (((out.2.logReport i a out.1.code).execOps cb.ops).dropSock, cb.throws) := by
  unfold onConnected connectOutcome
  dsimp only
  rw [getSocketException_code]
  split
  · next hok =>
    dsimp only
    have hi' : (((((w.enterReport i a).setConnected s).unregister s).attachEvent i s false
        ctlOk).1.sockets i).alive := by
      obtain ⟨q, r, hq⟩ := attachEvent_sockets (((w.enterReport i a).setConnected s).unregister s)
        i s false ctlOk i
      rw [hq]
      exact hi
    split
    · rw [connectCb_eq hi', getSocketException_code, hok]
    · rw [connectCb_eq hi']
  · dsimp only
    rw [connectCb_eq hi, getSocketException_code]

/-- The outcome of an attempt does not depend on `errno`; if the kernel reports no error and
agrees to the registration, it is a success and `s` stays `sockfd_`. -/
structure ErrnoFree (w : World) (i : SockId) (a : ConnId) (s : SfdId) (soError : Errno)
    (ctlOk : Bool) : Prop where
  same : ∀ errno errno', (w.connectOutcome strerror i a s soError errno ctlOk).1 =
    (w.connectOutcome strerror i a s soError errno' ctlOk).1
  connected : soError = 0 → ctlOk = true → ∀ errno,
    (w.connectOutcome strerror i a s soError errno ctlOk).1.code = .success ∧
      ((w.connectOutcome strerror i a s soError errno ctlOk).2.sockets i).sockfd = some s

theorem connectOutcome_refused (w : World) (i : SockId) (a : ConnId) (s : SfdId) (ctlOk : Bool) :
    (w.connectOutcome strerror i a s 0 ECONNREFUSED ctlOk).1 = ⟨.refused, "REFUESD"⟩ := rfl

theorem connectOutcome_not_refused (w : World) (i : SockId) (a : ConnId) (s : SfdId)
    (ctlOk : Bool) : (w.connectOutcome strerror i a s 0 0 ctlOk).1.code ≠ .refused := by
  have hexc : getSocketException strerror 0 0 true = ⟨.success, "OK"⟩ := rfl
  unfold connectOutcome
  rw [hexc]
  dsimp only
  rw [if_pos rfl]
  dsimp only
  split <;> simp

/-- The outcome of a connect attempt is free of `errno` exactly if the kernel reports an error. -/
theorem errno_free_iff (w : World) (i : SockId) (a : ConnId) (s : SfdId) (soError : Errno)
    (ctlOk : Bool) : w.ErrnoFree strerror i a s soError ctlOk ↔ soError ≠ 0 := by
  constructor
  · rintro hfree rfl
    have hsame := congrArg SocketException.code (hfree.same ECONNREFUSED 0)
    rw [connectOutcome_refused] at hsame
    exact connectOutcome_not_refused strerror w i a s ctlOk hsame.symm
  · intro hne
    refine ⟨fun errno errno' => ?_, fun hzero => absurd hzero hne⟩
    unfold connectOutcome
    rw [getSocketException_of_ne strerror hne errno errno']

end World

end Outcome

namespace World

/-- The first socket connects; its descriptor 5 is to become writable. -/
def connectStarted : List Action :=
  [.user [.create, .connect 0 5000 0], .swap, .task {}, .task { fd := some 5 }, .swap, .task {}]

/-- The connection is there, `SO_ERROR` is 0 and the registration succeeds.  What the callback is
told depends on an `errno` of 0 or `ECONNREFUSED`. -/
theorem not_errno_free_of_refused :
    ∃ w, exec step {} connectStarted = some w ∧
      w.poller.eventMap 5 = some (.connecting 0 0 0) ∧
      (w.step (.event 5 EPOLLOUT { errno := 0 })).map
        (fun v => (v.trace.filterMap Event.outcome, (v.sockets 0).sockfd)) =
          some ([(0, 0, .success)], some 0) ∧
      (w.step (.event 5 EPOLLOUT { errno := ECONNREFUSED })).map
        (fun v => (v.trace.filterMap Event.outcome, (v.sockets 0).sockfd)) =
          some ([(0, 0, .refused)], none) ∧
      ∀ strerror, ¬ (w.lock 0 0).ErrnoFree strerror 0 0 0 0 true := by
  refine ⟨_, rfl, rfl, by decide +kernel, by decide +kernel, fun strerror hfree => ?_⟩
  have hcode := (hfree.connected rfl rfl ECONNREFUSED).1
  rw [connectOutcome_refused] at hcode
  cases hcode

end World

end CommonLibrary.Net
