import CommonLibrary.Foundation.Loop
import CommonLibrary.Net.Compose

/-!
# The end of `on_accept`

The only exits of its `while (true)` stand under the tests for `PE_READ` and `PE_ERROR`.
Here the loop is given by its body; `onAccept` is what it comes to.
-/

namespace CommonLibrary.Net

open Foundation Poller Utils

/-- `do { accept } while (fd == -1 && EINTR)`: the answer it ends with and the answers that
are left.  Behind the listed answers `accept` says `EAGAIN`. -/
def nextAccept : List AcceptItem → AcceptItem × List AcceptItem
  | [] => (.err EAGAIN 0, [])
  | .err e soError :: rest =>
      if uvTranslatePosixError e = EINTR then nextAccept rest else (.err e soError, rest)
  | .conn fd cb ctlOk :: rest => (.conn fd cb ctlOk, rest)

theorem nextAccept_conn {items rest : List AcceptItem} {fd : Fd} {cb : CbRun} {ctlOk : Bool}
    (h : nextAccept items = (.conn fd cb ctlOk, rest)) : rest.length < items.length := by
  induction items with
  | nil => cases h
  | cons item items ih =>
      cases item with
      | err e soError =>
          rw [nextAccept] at h
          split at h
          · exact Nat.lt_succ_of_lt (ih h)
          · cases h
      | conn fd' cb' ctlOk' =>
          cases h
          exact Nat.lt_succ_self _

theorem has_toPoller_read (epollEvents : Nat) :
    has (toPoller epollEvents) PE_READ = has epollEvents EPOLLIN := by
  unfold toPoller
  cases has epollEvents EPOLLIN <;> cases has epollEvents EPOLLOUT <;>
    cases has epollEvents EPOLLHUP <;> cases has epollEvents EPOLLERR <;> rfl

theorem has_toPoller_error (epollEvents : Nat) :
    has (toPoller epollEvents) PE_ERROR =
      (has epollEvents EPOLLHUP || has epollEvents EPOLLERR) := by
  unfold toPoller
  cases has epollEvents EPOLLIN <;> cases has epollEvents EPOLLOUT <;>
    cases has epollEvents EPOLLHUP <;> cases has epollEvents EPOLLERR <;> rfl

namespace World

variable {i : SockId} {s : SfdId} {event : Nat} {err : SockErrCode}

/-- The part of a round of `on_accept` under `PE_READ`: `on_accept` returns, or goes on with
the answers that are left. -/
def acceptRead (i : SockId) (s : SfdId) (w : World) (items : List AcceptItem) :
    (World × Bool) ⊕ (World × List AcceptItem) :=
  match nextAccept items with
  | (.err e soError, _) =>
      if uvTranslatePosixError e = EAGAIN then .inl (w, false)
      else .inl (w.emitError i s (getSocketError soError e), false)
  | (.conn fd cb ctlOk, rest) =>
      let res := w.openFd (some fd)
      match res.2 with
      | none => .inl (w, false)
      | some p =>
          let r := res.1.acceptPeer i s p cb ctlOk
          if r.2 then .inl r else .inr (r.1, rest)

/-- The body of the `while (true)` of `on_accept`. -/
def acceptRound (i : SockId) (s : SfdId) (event : Nat) (err : SockErrCode)
    (state : World × List AcceptItem) : (World × Bool) ⊕ (World × List AcceptItem) :=
  match if has event PE_READ then acceptRead i s state.1 state.2 else .inr state with
  | .inl r => .inl r
  | .inr (w, items) =>
      if has event PE_ERROR then .inl (w.emitError i s err, false) else .inr (w, items)

theorem acceptRead_shorter {w w' : World} {items rest : List AcceptItem}
    (h : acceptRead i s w items = .inr (w', rest)) : rest.length < items.length := by
  unfold acceptRead at h
  split at h
  · split at h <;> cases h
  · next hnext =>
    dsimp only at h
    split at h
    · cases h
    · split at h
      · cases h
      · cases h
        exact nextAccept_conn hnext

theorem acceptRead_eintr {w : World} {items : List AcceptItem} {e soError : Errno}
    (he : uvTranslatePosixError e = EINTR) :
    acceptRead i s w (.err e soError :: items) = acceptRead i s w items := by
  unfold acceptRead
  rw [nextAccept, if_pos he]

theorem acceptRead_err {w : World} {items : List AcceptItem} {e soError : Errno}
    (he : uvTranslatePosixError e ≠ EINTR) :
    acceptRead i s w (.err e soError :: items) =
      .inl (if uvTranslatePosixError e = EAGAIN then (w, false)
        else (w.emitError i s (getSocketError soError e), false)) := by
  unfold acceptRead
  rw [nextAccept, if_neg he]
  dsimp only
  split <;> rfl

theorem acceptRead_conn (w : World) (items : List AcceptItem) (fd : Fd) (cb : CbRun)
    (ctlOk : Bool) :
    acceptRead i s w (.conn fd cb ctlOk :: items) =
      match (w.openFd (some fd)).2 with
      | none => .inl (w, false)
      | some p =>
          let r := (w.openFd (some fd)).1.acceptPeer i s p cb ctlOk
          if r.2 then .inl r else .inr (r.1, items) := rfl

theorem acceptRound_leave {w : World} {items : List AcceptItem} {r : World × Bool}
    (hread : has event PE_READ = true) (h : acceptRead i s w items = .inl r) :
    acceptRound i s event err (w, items) = .inl r := by
  rw [acceptRound, if_pos hread, h]

theorem acceptRound_again (err : SockErrCode) {w v : World} {items rest : List AcceptItem}
    (hread : has event PE_READ = true) (h : acceptRead i s w items = .inr (v, rest)) :
    acceptRound i s event err (w, items) =
      if has event PE_ERROR then .inl (v.emitError i s err, false) else .inr (v, rest) := by
  rw [acceptRound, if_pos hread, h]

theorem rounds_acceptLoop (hread : has event PE_READ = true) (w : World)
    {items : List AcceptItem} {fuel : Nat} (hfuel : items.length < fuel) :
    rounds (acceptRound i s event err) fuel (w, items) =
      some (acceptLoop i s (has event PE_ERROR) err w items) := by
  induction items generalizing w fuel with
  | nil =>
      obtain ⟨fuel, rfl⟩ := Nat.exists_eq_succ_of_ne_zero (Nat.ne_zero_of_lt hfuel)
      exact rounds_leave (acceptRound_leave hread rfl) fuel
  | cons item items ih =>
      obtain ⟨fuel, rfl⟩ := Nat.exists_eq_succ_of_ne_zero (Nat.ne_zero_of_lt hfuel)
      have hless : items.length < fuel := Nat.lt_of_succ_lt_succ hfuel
      rw [acceptLoop.eq_def]
      dsimp only
      cases item with
      | err e soError =>
          by_cases heintr : uvTranslatePosixError e = EINTR
          · -- `accept` is called again in the same round
            have hsame : acceptRound i s event err (w, .err e soError :: items) =
                acceptRound i s event err (w, items) := by
              rw [acceptRound, acceptRound, acceptRead_eintr heintr, if_pos hread, if_pos hread]
            rw [rounds_congr hsame]
            dsimp only
            rw [if_pos heintr]
            exact ih w (Nat.lt_succ_of_lt hless)
          · rw [rounds_leave (acceptRound_leave hread (acceptRead_err heintr))]
            dsimp only
            rw [if_neg heintr]
      | conn fd cb ctlOk =>
          have hround := acceptRead_conn (i := i) (s := s) w items fd cb ctlOk
          dsimp only
          cases hopen : (w.openFd (some fd)).2 with
          | none =>
              rw [hopen] at hround
              exact rounds_leave (acceptRound_leave hread hround) fuel
          | some p =>
              rw [hopen] at hround
              dsimp only at hround ⊢
              split at hround
              · next hthrew =>
                rw [if_pos hthrew]
                exact rounds_leave (acceptRound_leave hread hround) fuel
              · next hthrew =>
                rw [if_neg hthrew]
                have hagain := acceptRound_again err hread hround
                split at hagain
                · next herror =>
                  rw [if_pos herror]
                  exact rounds_leave hagain fuel
                · next herror =>
                  rw [if_neg herror, rounds_again hagain]
                  exact ih _ hless

/-- With more fuel than answers the loop is `onAccept`. -/
theorem rounds_onAccept (w : World) {items : List AcceptItem} {fuel : Nat}
    (hfuel : items.length < fuel) :
    rounds (acceptRound i s event err) fuel (w, items) = w.onAccept i s event err items := by
  unfold onAccept
  by_cases hread : has event PE_READ = true
  · rw [if_pos hread]
    exact rounds_acceptLoop hread w hfuel
  · rw [if_neg hread]
    have hround : acceptRound i s event err (w, items) =
        if has event PE_ERROR then .inl (w.emitError i s err, false) else .inr (w, items) := by
      rw [acceptRound, if_neg hread]
    split at hround
    · next herror =>
      obtain ⟨fuel, rfl⟩ := Nat.exists_eq_succ_of_ne_zero (Nat.ne_zero_of_lt hfuel)
      rw [if_pos herror]
      exact rounds_leave hround fuel
    · next herror =>
      rw [if_neg herror]
      exact rounds_none hround fuel

/-- `on_accept` returns exactly if the event says that there is something to accept or an
error. -/
theorem accept_ends_iff (w : World) (i : SockId) (s : SfdId) (epollEvents : Nat)
    (err : SockErrCode) (items : List AcceptItem) :
    Ends (acceptRound i s (toPoller epollEvents) err) (w, items) ↔
      has epollEvents EPOLLIN = true ∨ has epollEvents EPOLLHUP = true ∨
        has epollEvents EPOLLERR = true := by
  rw [← Bool.or_eq_true (has epollEvents EPOLLHUP), ← has_toPoller_error, ← has_toPoller_read]
  generalize toPoller epollEvents = event
  constructor
  · intro hends
    by_contra hneither
    rw [not_or] at hneither
    refine not_ends (I := fun _ => True) (fun state _ => ⟨state, ?_, trivial⟩) trivial hends
    unfold acceptRound
    rw [if_neg hneither.1]
    exact if_neg hneither.2
  · intro hevent
    -- a round that goes on has taken an answer
    refine ends_of_measure (I := fun _ => True) (fun state => state.2.length) ?_ trivial
    rintro ⟨v, items⟩ ⟨v', rest⟩ - hround
    refine ⟨trivial, ?_⟩
    unfold acceptRound at hround
    by_cases hread : has event PE_READ = true
    · rw [if_pos hread] at hround
      dsimp only at hround
      cases hpart : acceptRead i s v items with
      | inl r =>
          rw [hpart] at hround
          cases hround
      | inr state =>
          obtain ⟨u, left⟩ := state
          rw [hpart] at hround
          dsimp only at hround
          split at hround
          · cases hround
          · cases hround
            exact acceptRead_shorter hpart
    · rw [if_neg hread] at hround
      dsimp only at hround
      rw [if_pos (hevent.resolve_left hread)] at hround
      cases hround

/-- A connection with the number 5 is open, and one `epoll_wait` reports 4 readable and 5
writable.  `accept_cb_` for 4 closes the connection and listens on another socket, which gets
the number 5; then the event of 5 is looked at. -/
theorem not_accept_ends_of_writable :
    ∃ w v, exec step {} [.user [.create, .listen 0 .tcp (some 4) true],
        .event 4 EPOLLIN { accepts := [.conn 5 {} true] }] = some w ∧
      w.poller.eventMap 5 = some (.attached 1 1 false) ∧
      exec step w [.event 4 EPOLLIN { accepts :=
        [.conn 6 { ops := [.close 1, .create, .listen 3 .tcp (some 5) true] } true] }] = some v ∧
      v.poller.eventMap 5 = some (.accepting 3 3) ∧
      ∀ err, ¬ Ends (acceptRound 3 3 (toPoller EPOLLOUT) err) (v, []) := by
  refine ⟨_, _, rfl, rfl, rfl, rfl, fun err => not_ends (I := fun _ => True) ?_ trivial⟩
  exact fun state _ => ⟨state, rfl, trivial⟩

end World

end CommonLibrary.Net
