import CommonLibrary.Net.Effects

/-!
# The report of a connect attempt

Four places can call the callback of a `Connect`: the task that has opened the
descriptor, a registration that failed, the event of the descriptor, and the timer.
Each of them is switched off by the report itself and by whatever supersedes the attempt.
-/

namespace CommonLibrary.Net

open Foundation Poller

namespace Event

/-- The event ends every connect attempt of `i` that is in progress. -/
def supersedes (i : SockId) : Event → Bool
  | connect j _ => j = i
  | close j _ => j = i
  | destroyed j => j = i
  | _ => false

def reports (a : ConnId) : Event → Bool
  | report _ b _ _ => b = a
  | _ => false

def outcome : Event → Option (SockId × ConnId × SockErrCode)
  | report i a err _ => some (i, a, err)
  | _ => none

end Event

namespace World

variable {d : Bool} {w w' : World} {i : SockId} {a : ConnId}

/-- Since the call `a` of `Connect` on `i` there was no `Close`, no other `Connect` and no
destruction of `i`. -/
def Pending (t : List Event) (i : SockId) (a : ConnId) : Prop :=
  ∃ u v, t = u ++ .connect i a :: v ∧ ∀ e ∈ v, e.supersedes i = false

/-- The attempt is pending and has not been reported. -/
structure Open (t : List Event) (i : SockId) (a : ConnId) : Prop where
  pending : Pending t i a
  unreported : ∀ e ∈ t, e.reports a = false

theorem Pending.mem {t : List Event} (h : Pending t i a) : .connect i a ∈ t := by
  obtain ⟨u, v, rfl, -⟩ := h
  simp

/-! ## The four places -/

/-- The attempts in the history are numbered in order. -/
def Numbered (w : World) : Prop :=
  (∀ i a, .connect i a ∈ w.trace → a < w.nextConn) ∧
    (∀ i j a, .connect i a ∈ w.trace → .connect j a ∈ w.trace → i = j) ∧
    ∀ a, ∀ e ∈ w.trace, e.reports a = true → a < w.nextConn

def TaskOpen (w : World) : Prop :=
  ∀ i a, (w.sockets i).asyncConnectCb = some a → Open w.trace i a

def TimerOpen (w : World) : Prop :=
  ∀ a, (w.conns a).cancelled = false →
    (w.sockets (w.conns a).owner).connectTimer = some a ∧ Open w.trace (w.conns a).owner a

def EventOpen (w : World) : Prop :=
  ∀ fd i a s, w.poller.eventMap fd = some (.connecting i a s) → (w.sockets i).sockfd = some s →
    Open w.trace i a

def EnteredOpen (w : World) : Prop :=
  ∀ i a, w.locals.conn = some (i, a) → Open w.trace i a

theorem logs_supersedes {e : Event} (he : w.Logs w' e) (hsup : e.supersedes i = true) :
    w.Idle i ∧ w.locals.conn = none := by
  cases e
  case connect j a =>
    obtain rfl : j = i := by simpa [Event.supersedes] using hsup
    exact ⟨he.2.1, he.2.2.1⟩
  case close j old =>
    obtain rfl : j = i := by simpa [Event.supersedes] using hsup
    exact ⟨he.1, he.2.1⟩
  case destroyed j =>
    obtain rfl : j = i := by simpa [Event.supersedes] using hsup
    exact ⟨he.1, he.2.1⟩
  all_goals cases hsup

theorem Open.keep (hopen : Open w.trace i a) (h : Micro d w w')
    (hsup : ∀ e, w.Logs w' e → e.supersedes i = false)
    (hrep : ∀ e, w.Logs w' e → e.reports a = false) : Open w'.trace i a := by
  obtain ⟨es, heq, hlogs, -⟩ := micro_trace h
  obtain ⟨u, v, hsplit, hquiet⟩ := hopen.pending
  rw [heq]
  refine ⟨⟨u, v ++ es, by rw [hsplit]; simp, fun e he => ?_⟩, fun e he => ?_⟩
  · rcases List.mem_append.1 he with he | he
    · exact hquiet e he
    · exact hsup e (hlogs e he)
  · rcases List.mem_append.1 he with he | he
    · exact hopen.unreported e he
    · exact hrep e (hlogs e he)

/-- A report is about the attempt whose outcome is being determined. -/
theorem EnteredOpen.reported (hentered : w.EnteredOpen) (hnum : w.Numbered) {e : Event}
    (he : w.Logs w' e) (hrep : e.reports a = true) (hopen : Open w.trace i a) :
    ∃ err entry, w.Logs w' (.report i a err entry) := by
  cases e
  case report j b err entry =>
    obtain rfl : b = a := by simpa [Event.reports] using hrep
    obtain rfl : j = i := hnum.2.1 j i b (hentered j b he.1).pending.mem hopen.pending.mem
    exact ⟨err, entry, he⟩
  all_goals cases hrep

theorem Open.keep_of_busy (hopen : Open w.trace i a) (h : Micro d w w') (hnum : w.Numbered)
    (hentered : w.EnteredOpen) (hbusy : ¬ w.Idle i)
    (hrep : ∀ err entry, ¬ w.Logs w' (.report i a err entry)) : Open w'.trace i a := by
  refine hopen.keep h (fun e he => ?_) (fun e he => ?_)
  · by_contra hsup
    exact hbusy (logs_supersedes he (by simpa using hsup)).1
  · by_contra hno
    obtain ⟨err, entry, hreport⟩ := hentered.reported hnum he (by simpa using hno) hopen
    exact hrep err entry hreport

theorem open_startConnect (hnum : w.Numbered) (i : SockId) (timeoutMs now : Nat) :
    Open (w.startConnect i timeoutMs now).trace i w.nextConn := by
  refine ⟨⟨w.trace, [], rfl, by simp⟩, fun e he => ?_⟩
  rcases List.mem_append.1 he with he | he
  · by_contra hno
    exact absurd (hnum.2.2 w.nextConn e he (by simpa using hno)) (lt_irrefl _)
  · rw [List.mem_singleton.1 he]
    rfl

theorem micro_numbered (h : Micro d w w') (hw : w.WF) (hnum : w.Numbered)
    (hentered : w.EnteredOpen) : w'.Numbered := by
  obtain ⟨hbound, huniq, hreports⟩ := hnum
  have hmono : w.nextConn ≤ w'.nextConn := by
    rcases micro_connect h hw with hsame | ⟨j, rfl⟩ | ⟨j, timeoutMs, now, -, rfl⟩
    · exact hsame.2.1.ge
    · exact le_refl _
    · exact Nat.le_succ _
  obtain ⟨es, heq, hlogs, -⟩ := micro_trace h
  have hnew : ∀ j b, .connect j b ∈ es → b = w.nextConn ∧ w'.nextConn = w.nextConn + 1 ∧
      w'.trace = w.trace ++ [.connect j b] := by
    intro j b he
    obtain ⟨rfl, -, -, timeoutMs, now, rfl⟩ := hlogs _ he
    exact ⟨rfl, rfl, rfl⟩
  refine ⟨fun j b he => ?_, fun j k b hj hk => ?_, fun c e he hrep => ?_⟩
  · rw [heq] at he
    rcases List.mem_append.1 he with he | he
    · exact lt_of_lt_of_le (hbound j b he) hmono
    · obtain ⟨rfl, hnext, -⟩ := hnew j b he
      rw [hnext]
      exact Nat.lt_succ_self _
  · rw [heq] at hj hk
    rcases List.mem_append.1 hj with hj | hj
    · rcases List.mem_append.1 hk with hk | hk
      · exact huniq j k b hj hk
      · have hlt := hbound j b hj
        rw [(hnew k b hk).1] at hlt
        exact absurd hlt (lt_irrefl _)
    · obtain ⟨hbn, -, htrace⟩ := hnew j b hj
      have hes : es = [.connect j b] := List.append_cancel_left (heq.symm.trans htrace)
      rcases List.mem_append.1 hk with hk | hk
      · have hlt := hbound k b hk
        rw [hbn] at hlt
        exact absurd hlt (lt_irrefl _)
      · rw [hes] at hk
        cases List.mem_singleton.1 hk
        rfl
  · rw [heq, List.mem_append] at he
    rcases he with he | he
    · exact lt_of_lt_of_le (hreports c e he hrep) hmono
    · cases e
      case report j b err entry =>
        have hbc : b = c := by simpa [Event.reports] using hrep
        have hconn : w.locals.conn = some (j, b) := (hlogs _ he).1
        rw [← hbc]
        exact lt_of_lt_of_le (hbound j b (hentered j b hconn).pending.mem) hmono
      all_goals cases hrep

theorem micro_taskOpen (h : Micro d w w') (hw : w.WF) (hnum : w.Numbered)
    (hentered : w.EnteredOpen) (htask : w.TaskOpen) : w'.TaskOpen := by
  intro i a hasync
  have hkeep : (w.sockets i).asyncConnectCb = some a → Open w'.trace i a := by
    intro hold
    refine (htask i a hold).keep_of_busy h hnum hentered (fun hidle => ?_) fun err entry he => ?_
    · rw [hidle.asyncConnectCb] at hold
      cases hold
    · rw [he.2.2.1] at hold
      cases hold
  rcases micro_connect h hw with hsame | ⟨j, rfl⟩ | ⟨j, timeoutMs, now, -, rfl⟩
  · exact hkeep ((hsame.2.2.2 i).symm.trans hasync)
  · by_cases hj : i = j
    · subst hj
      simp [dropConnect] at hasync
    · exact hkeep (by simpa [dropConnect, hj] using hasync)
  · by_cases hj : i = j
    · subst hj
      obtain rfl : w.nextConn = a := by simpa [startConnect] using hasync
      exact open_startConnect hnum i timeoutMs now
    · exact hkeep (by simpa [startConnect, hj] using hasync)

theorem micro_timerOpen (h : Micro d w w') (hw : w.WF) (hnum : w.Numbered)
    (hentered : w.EnteredOpen) (htimer : w.TimerOpen) : w'.TimerOpen := by
  intro a hlive
  have hkeep : (w.conns a).cancelled = false → Open w'.trace (w.conns a).owner a := by
    intro hold
    obtain ⟨hcur, hopen⟩ := htimer a hold
    refine hopen.keep_of_busy h hnum hentered (fun hidle => ?_) fun err entry he => ?_
    · rw [hidle.connectTimer] at hcur
      cases hcur
    · rw [he.2.1] at hcur
      cases hcur
  rcases micro_connect h hw with
    ⟨hconns, -, htimers, -⟩ | ⟨j, rfl⟩ | ⟨j, timeoutMs, now, hidle, rfl⟩
  · rw [hconns] at hlive ⊢
    rw [htimers]
    exact ⟨(htimer a hlive).1, hkeep hlive⟩
  · -- the timer that goes is cancelled
    have hconns : (w.sockets j).connectTimer ≠ some a ∧ (w.dropConnect j).conns a = w.conns a := by
      unfold dropConnect at hlive ⊢
      cases hb : (w.sockets j).connectTimer with
      | none => exact ⟨by simp, by simp⟩
      | some b =>
          have hab : a ≠ b := by
            rintro rfl
            simp [hb] at hlive
          exact ⟨fun heq => hab (Option.some.inj heq).symm, by simp [hab]⟩
    rw [hconns.2] at hlive ⊢
    have hcur := (htimer a hlive).1
    have hne : (w.conns a).owner ≠ j := fun heq => hconns.1 (heq ▸ hcur)
    exact ⟨by simpa [dropConnect, hne] using hcur, hkeep hlive⟩
  · by_cases ha : a = w.nextConn
    · subst ha
      have hown : ((w.startConnect j timeoutMs now).conns w.nextConn).owner = j := by
        simp [startConnect]
      rw [hown]
      exact ⟨by simp [startConnect], open_startConnect hnum j timeoutMs now⟩
    · have hconns : (w.startConnect j timeoutMs now).conns a = w.conns a := by
        simp [startConnect, ha]
      rw [hconns] at hlive ⊢
      have hcur := (htimer a hlive).1
      have hne : (w.conns a).owner ≠ j := by
        rintro rfl
        rw [hidle.connectTimer] at hcur
        cases hcur
      exact ⟨by simpa [startConnect, hne] using hcur, hkeep hlive⟩

theorem micro_eventOpen (h : Micro d w w') (hw : w.WF) (hnum : w.Numbered)
    (hentered : w.EnteredOpen) (htask : w.TaskOpen) (hevent : w.EventOpen) : w'.EventOpen := by
  intro fd i a s hreg hcur
  rcases micro_connecting h hreg with hold | ⟨hasync, hasync'⟩
  · obtain ⟨-, hfd, -, hmade⟩ := hw.regLive fd _ hold
    have hcur' : (w.sockets i).sockfd = some s := by
      rcases micro_sockfd h hw i with hsame | ⟨hnone, -⟩ | ⟨s', hput, -, -, -, hnew, -⟩
      · exact hsame.symm.trans hcur
      · rw [hnone] at hcur
        cases hcur
      · -- what is registered has been `sockfd_` before
        obtain rfl : s' = s := Option.some.inj (hput.symm.trans hcur)
        have hinst := (hmade a rfl).2
        rw [PollEventCB.sfd, hnew] at hinst
        cases hinst
    refine (hevent fd i a s hold hcur').keep_of_busy h hnum hentered (fun hidle => ?_) ?_
    · rw [hidle.sockfd] at hcur'
      cases hcur'
    · intro err entry he
      by_cases herr : err = .success
      · obtain ⟨s', udp, hs', -, -, hmap⟩ := he.2.2.2.2.1 herr
        obtain rfl : s = s' := Option.some.inj (hcur'.symm.trans hs')
        rw [PollEventCB.sfd] at hfd
        rw [hfd, hold] at hmap
        cases hmap
      · rw [he.2.2.2.1 herr] at hcur'
        cases hcur'
  · refine (htask i a hasync).keep_of_busy h hnum hentered (fun hidle => ?_) fun err entry he => ?_
    · rw [hidle.asyncConnectCb] at hasync
      cases hasync
    · rw [he.2.2.1] at hasync
      cases hasync

theorem micro_enteredOpen (h : Micro d w w') (hnum : w.Numbered) (htask : w.TaskOpen)
    (htimer : w.TimerOpen) (hevent : w.EventOpen) (hentered : w.EnteredOpen) :
    w'.EnteredOpen := by
  intro i a hconn
  rcases micro_conn h with hsame | hnone | ⟨j, b, horigin, rfl⟩
  · have hold : w.locals.conn = some (i, a) := hsame.symm.trans hconn
    refine (hentered i a hold).keep h (fun e he => ?_) (fun e he => ?_)
    · by_contra hsup
      rw [(logs_supersedes he (by simpa using hsup)).2] at hold
      cases hold
    · by_contra hno
      obtain ⟨err, entry, hreport⟩ :=
        hentered.reported hnum he (by simpa using hno) (hentered i a hold)
      obtain ⟨-, -, -, -, -, -, rfl⟩ := hreport
      cases hconn
  · rw [hnone] at hconn
    cases hconn
  · cases hconn
    cases horigin with
    | task hasync => exact htask i a hasync
    | timer hlive howner =>
        have hopen := (htimer a hlive).2
        rwa [howner] at hopen
    | event s hreg hcur => exact hevent _ i a s hreg hcur
    | entered hold => exact hentered i a hold

/-! ## Runs -/

variable {C : World → Action → Prop} {acts : List Action}

/-- What the callback of a `Connect` finds. -/
structure EntryOk (a : ConnId) (err : SockErrCode) (entry : Entry) : Prop where
  connectTimer : entry.connectTimer = none
  asyncConnectCb : entry.asyncConnectCb = none
  failed : err ≠ .success → entry.sockfd = none
  connected : err = .success →
    entry.sockfd.isSome ∧ entry.attempt = some a ∧ entry.connected = true

def ReportOk (t : List Event) : Event → Prop
  | .report i a err entry => Open t i a ∧ EntryOk a err entry
  | _ => True

theorem micro_reportOk (h : Micro d w w') (hentered : w.EnteredOpen)
    (hok : EachOk ReportOk w.trace) : EachOk ReportOk w'.trace := by
  refine micro_eachOk (fun t e he => ?_) h (fun e he => ?_) hok
  · cases e
    case report => cases he
    all_goals trivial
  · cases e
    case report i a err entry =>
      obtain ⟨hconn, htimer, hasync, hfail, hsucc, rfl, -⟩ := he
      refine ⟨hentered i a hconn, htimer, hasync, hfail, fun herr => ?_⟩
      obtain ⟨s, udp, hcur, hatt, hdone, -⟩ := hsucc herr
      exact ⟨by simp [hcur], by simp [hcur, hatt], by simp [hcur, hdone]⟩
    all_goals trivial

def ConnectInv (w : World) : Prop :=
  w.Numbered ∧ w.TaskOpen ∧ w.TimerOpen ∧ w.EventOpen ∧ w.EnteredOpen ∧ EachOk ReportOk w.trace

theorem micro_connectInv (h : Micro d w w') (hw : w.WF) (hinv : w.ConnectInv) :
    w'.ConnectInv := by
  obtain ⟨hnum, htask, htimer, hevent, hentered, hok⟩ := hinv
  exact ⟨micro_numbered h hw hnum hentered, micro_taskOpen h hw hnum hentered htask,
    micro_timerOpen h hw hnum hentered htimer, micro_eventOpen h hw hnum hentered htask hevent,
    micro_enteredOpen h hnum htask htimer hevent hentered, micro_reportOk h hentered hok⟩

theorem init_connectInv : ({} : World).ConnectInv := by
  refine ⟨⟨fun i a h => ?_, fun i j a h => ?_, fun a e h => ?_⟩, fun i a h => ?_, fun a h => ?_,
    fun fd i a s h => ?_, fun i a h => ?_, EachOk.nil⟩ <;> cases h

/-- Each call of `Connect` is reported at most once, never after a `Close`, a later
`Connect` or the destruction of the socket, and with the attempt cleared away. -/
theorem connect_reported_once (hrun : Run step C {} acts w) :
    (∀ a, w.trace.countP (Event.reports a) ≤ 1) ∧
    ∀ t u i a err entry, w.trace = t ++ .report i a err entry :: u →
      Pending t i a ∧ EntryOk a err entry := by
  obtain ⟨-, -, -, -, -, hok⟩ := run_invariant init_connectInv (fun _ _ => micro_connectInv) hrun
  constructor
  · intro a
    apply EachOk.countP_le_one
    intro t e u heq hrep
    cases e
    case report i b err entry =>
      obtain rfl : b = a := by simpa [Event.reports] using hrep
      exact (hok t _ u heq).1.unreported
    all_goals cases hrep
  · intro t u i a err entry heq
    obtain ⟨hopen, hentry⟩ := hok t _ u heq
    exact ⟨hopen.pending, hentry⟩

/-- A connect attempt that succeeds. -/
theorem connect_reported_once_first :
    ∃ w t u entry, Run step (fun _ _ => True) {} connectFirst w ∧
      w.trace = t ++ .report 0 0 .success entry :: u ∧
      w.trace.countP (Event.reports 0) ≤ 1 ∧ Pending t 0 0 ∧ EntryOk 0 .success entry := by
  have h : (exec step {} connectFirst).map (fun w => w.trace.filterMap Event.outcome) =
      some [(0, 0, .success)] := by decide +kernel
  obtain ⟨w, hexec, hend⟩ := Option.map_eq_some_iff.1 h
  have hin : ((0 : SockId), (0 : ConnId), SockErrCode.success) ∈
      w.trace.filterMap Event.outcome := by
    rw [hend]
    exact List.mem_singleton_self _
  obtain ⟨e, he, hout⟩ := List.mem_filterMap.1 hin
  obtain ⟨t, u, htrace⟩ := List.append_of_mem he
  obtain ⟨hcount, hreports⟩ := connect_reported_once (Run.of_exec hexec)
  cases e
  case report i a err entry =>
    cases hout
    exact ⟨w, t, u, entry, Run.of_exec hexec, htrace, hcount 0, hreports t u 0 0 _ entry htrace⟩
  all_goals cases hout

end World

end CommonLibrary.Net
