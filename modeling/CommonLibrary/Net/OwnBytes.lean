import CommonLibrary.Net.Effects

/-!
# Bytes and the connections they were given to

The send queues belong to the socket, a descriptor to one connection.  If the queues were
empty when a connection became `sockfd_`, what `sendmsg` is handed on its descriptor was
given to `Send` while that connection was `sockfd_`.
-/

namespace CommonLibrary.Net

open Foundation Poller

/-! ## The bytes in a queue -/

variable {β : Type} {p : β → Prop}

theorem Iovec.mem_block {v : Iovec β} {b : β} (h : b ∈ v.bytes) : b ∈ v.block :=
  List.mem_of_mem_drop (List.mem_of_mem_take h)

namespace BufferList

def AllBytes (p : β → Prop) (bl : BufferList β) : Prop := ∀ v ∈ bl.iovec, ∀ b ∈ v.block, p b

theorem ofList_allBytes {list : List (Buffer β)} (h : ∀ buf ∈ list, ∀ b ∈ buf.data, p b) :
    (ofList list).AllBytes p := by
  intro v hv b hb
  obtain ⟨buf, hbuf, rfl⟩ := List.mem_map.1 hv
  exact h buf hbuf b hb

theorem reoffsetScan_block {n o : Int} {i : Nat} {vs : List (Iovec β)} {v : Iovec β}
    (hv : v ∈ (reoffsetScan n o i vs).1) : ∃ u ∈ vs, v.block = u.block := by
  induction vs generalizing o i with
  | nil => simp [reoffsetScan] at hv
  | cons u vs ih =>
      rw [reoffsetScan] at hv
      dsimp only at hv
      split at hv
      · rcases List.mem_cons.1 hv with rfl | hv
        · exact ⟨v, List.mem_cons_self, rfl⟩
        · obtain ⟨u', hu', heq⟩ := ih hv
          exact ⟨u', List.mem_cons_of_mem _ hu', heq⟩
      · rcases List.mem_cons.1 hv with rfl | hv
        · exact ⟨u, List.mem_cons_self, rfl⟩
        · exact ⟨v, List.mem_cons_of_mem _ hv, rfl⟩

theorem reoffset_allBytes {bl : BufferList β} (h : bl.AllBytes p) (n : Int) :
    (bl.reoffset n).AllBytes p := by
  intro v hv b hb
  rcases List.mem_append.1 hv with hv | hv
  · exact h v (List.mem_of_mem_take hv) b hb
  · obtain ⟨u, hu, heq⟩ := reoffsetScan_block hv
    exact h u (List.mem_of_mem_drop hu) b (heq ▸ hb)

theorem sendL_allBytes {bl : BufferList β} (h : bl.AllBytes p) (udp : Bool) (env : SendEnv) :
    (bl.sendL udp env).1.AllBytes p ∧ ∀ b ∈ (bl.sendL udp env).2.1.msg.bytes, p b := by
  constructor
  · unfold sendL
    dsimp only
    split_ifs
    · exact h
    · exact reoffset_allBytes h _
    · exact h
  · intro b hb
    obtain ⟨v, hv, hb⟩ := List.mem_flatMap.1 hb
    exact h v (List.mem_of_mem_drop (List.mem_of_mem_take hv)) b (Iovec.mem_block hb)

theorem sendLoop_allBytes {udp : Bool} {fuel : Nat} {bl : BufferList β} (h : bl.AllBytes p)
    (env : SendEnv) :
    (sendLoop udp fuel bl env).1.AllBytes p ∧
      ∀ sent ∈ (sendLoop udp fuel bl env).2.1, ∀ b ∈ sent.msg.bytes, p b := by
  induction fuel generalizing bl env with
  | zero => exact ⟨h, by simp [sendLoop]⟩
  | succ fuel ih =>
      obtain ⟨hlist, hmsg⟩ := sendL_allBytes h udp env
      rw [sendLoop]
      split
      · exact ⟨h, by simp⟩
      · dsimp only
        split
        · exact ⟨hlist, by simpa using hmsg⟩
        · obtain ⟨hlist', hmsg'⟩ := ih hlist (bl.sendL udp env).2.2
          exact ⟨hlist', List.forall_mem_cons.2 ⟨hmsg, hmsg'⟩⟩

theorem send_allBytes {bl : BufferList β} (h : bl.AllBytes p) (udp : Bool) (env : SendEnv) :
    (bl.send udp env).list.AllBytes p ∧
      ∀ sent ∈ (bl.send udp env).calls, ∀ b ∈ sent.msg.bytes, p b :=
  sendLoop_allBytes h env

end BufferList

namespace SendQueue

def AllBytes (p : β → Prop) (q : SendQueue β) : Prop :=
  (∀ bl ∈ q.sendBufSending, bl.AllBytes p) ∧ ∀ buf ∈ q.sendBufWaiting, ∀ b ∈ buf.data, p b

theorem allBytes_of_nil {q : SendQueue β} (hs : q.sendBufSending = [])
    (hw : q.sendBufWaiting = []) : q.AllBytes p := by
  constructor
  · rw [hs]
    simp
  · rw [hw]
    simp

theorem AllBytes.mono {p' : β → Prop} {q : SendQueue β} (h : q.AllBytes p)
    (hp : ∀ b, p b → p' b) : q.AllBytes p' :=
  ⟨fun bl hbl v hv b hb => hp b (h.1 bl hbl v hv b hb),
    fun buf hbuf b hb => hp b (h.2 buf hbuf b hb)⟩

theorem append_allBytes {q : SendQueue β} (h : q.AllBytes p) {buf : Buffer β}
    (hbuf : ∀ b ∈ buf.data, p b) : (q.append buf).1.AllBytes p := by
  refine ⟨h.1, fun buf' hbuf' => ?_⟩
  rcases List.mem_append.1 hbuf' with hold | hnew
  · exact h.2 buf' hold
  · rw [List.mem_singleton.1 hnew]
    exact hbuf

theorem pump_allBytes (udp : Bool) {tmp : List (BufferList β)}
    (h : ∀ bl ∈ tmp, bl.AllBytes p) (env : SendEnv) :
    (∀ bl ∈ (pump udp tmp env).tmp, bl.AllBytes p) ∧
      ∀ sent ∈ (pump udp tmp env).calls, ∀ b ∈ sent.msg.bytes, p b := by
  induction tmp generalizing env with
  | nil => simp [pump]
  | cons pkt tmp ih =>
      have htmp : ∀ bl ∈ tmp, bl.AllBytes p := fun bl hbl => h bl (List.mem_cons_of_mem _ hbl)
      obtain ⟨hlist, hcalls⟩ := BufferList.send_allBytes (h pkt List.mem_cons_self) udp env
      have hkept : ∀ bl ∈ (pkt.send udp env).list :: tmp, bl.AllBytes p :=
        List.forall_mem_cons.2 ⟨hlist, htmp⟩
      rw [pump]
      dsimp only
      split
      · split
        · obtain ⟨hrest, hcalls'⟩ := ih htmp (pkt.send udp env).env
          refine ⟨hrest, fun sent hsent => ?_⟩
          rcases List.mem_append.1 hsent with hsent | hsent
          · exact hcalls sent hsent
          · exact hcalls' sent hsent
        · exact ⟨hkept, hcalls⟩
      · exact ⟨hkept, hcalls⟩

theorem toSend_allBytes {q : SendQueue β} (h : q.AllBytes p) :
    (∀ bl ∈ q.toSend, bl.AllBytes p) ∧ ∀ buf ∈ q.stillWaiting, ∀ b ∈ buf.data, p b := by
  refine ⟨?_, fun buf hbuf => h.2 buf (stillWaiting_subset q buf hbuf)⟩
  unfold toSend
  split
  · intro bl hbl
    rw [List.mem_singleton.1 hbl]
    exact BufferList.ofList_allBytes h.2
  · exact h.1

theorem flushData_allBytes {isClose udp : Bool} {fuel : Nat} {q : SendQueue β}
    (h : q.AllBytes p) {env : SendEnv} {r : FlushResult β}
    (hr : flushData isClose udp fuel q env = some r) :
    r.queue.AllBytes p ∧ ∀ sent ∈ r.calls, ∀ b ∈ sent.msg.bytes, p b := by
  induction fuel generalizing q env r with
  | zero => simp [flushData] at hr
  | succ fuel ih =>
      obtain ⟨hsend, hwait⟩ := toSend_allBytes h
      obtain ⟨htmp, hcalls⟩ := pump_allBytes udp hsend env
      rw [flushData] at hr
      split at hr
      · cases hr
        exact ⟨h, by simp⟩
      split at hr
      · cases hr
        exact ⟨h, by simp⟩
      dsimp only at hr
      split at hr
      · cases hr
        exact ⟨⟨by simp, hwait⟩, hcalls⟩
      split at hr
      · cases hr
        exact ⟨⟨htmp, hwait⟩, hcalls⟩
      · obtain ⟨r', hr', rfl⟩ := Option.map_eq_some_iff.1 hr
        obtain ⟨hqueue, hcalls'⟩ := ih (q := { q with
          sendBufSending := [], sendBufWaiting := q.stillWaiting }) ⟨by simp, hwait⟩ hr'
        refine ⟨hqueue, fun sent hsent => ?_⟩
        rcases List.mem_append.1 hsent with hsent | hsent
        · exact hcalls sent hsent
        · exact hcalls' sent hsent

theorem onWriteable_allBytes {q : SendQueue β} (h : q.AllBytes p) (isClose udp : Bool)
    (env : SendEnv) :
    (q.onWriteable isClose udp env).queue.AllBytes p ∧
      ∀ sent ∈ (q.onWriteable isClose udp env).calls, ∀ b ∈ sent.msg.bytes, p b := by
  unfold onWriteable
  split
  · exact ⟨h, by simp⟩
  · exact flushData_allBytes h (flushData_eq_flush q isClose udp env le_rfl)

end SendQueue

/-! ## The bytes of a connection -/

namespace Event

/-- If `sockfd_` is assigned, then with empty send queues. -/
def idleInstall : Event → Bool
  | install _ _ idle => idle
  | _ => true

/-- The descriptor and the bytes of a call of `sendmsg`. -/
def offered : Event → Option (SfdId × List Byte)
  | sendmsg s sent => some (s, sent.msg.bytes)
  | _ => none

theorem of_offered {e : Event} {s : SfdId} {bytes : List Byte} (h : e.offered = some (s, bytes)) :
    ∃ sent, e = .sendmsg s sent ∧ sent.msg.bytes = bytes := by
  cases e
  case sendmsg s' sent =>
    cases h
    exact ⟨sent, rfl, rfl⟩
  all_goals cases h

end Event

namespace World

variable {d : Bool} {w w' : World}

/-- In the history `t` the byte was given to `Send` while `s` was `sockfd_`. -/
def GivenIn (t : List Event) (s : SfdId) (b : Byte) : Prop :=
  b.origin = s ∧ ∃ i data drained, .send i s data drained ∈ t ∧ b ∈ data

/-- When `s` became `sockfd_`, both send queues were empty. -/
def IdleInstall (t : List Event) (s : SfdId) : Prop :=
  ∀ i idle, .install i s idle ∈ t → idle = true

/-- What is handed to `sendmsg` was given to `Send` before, for the same connection. -/
def SentGiven (t : List Event) : Event → Prop
  | .sendmsg s sent => IdleInstall t s → ∀ b ∈ sent.msg.bytes, GivenIn t s b
  | _ => True

def AppendsGiven (w : World) : Prop :=
  ∀ i s buf, .append i s buf ∈ w.tasks → ∀ b ∈ buf.data, GivenIn w.trace s b

/-- While the event of `s` is handled, the queues are still those of `s`, even if `sockfd_` is
another connection by then: tasks do not run meanwhile. -/
def QueueGiven (w : World) : Prop :=
  ∀ i s, w.InUse i s → IdleInstall w.trace s →
    (w.sockets i).queue.AllBytes (GivenIn w.trace s)

theorem GivenIn.mono {t u : List Event} {s : SfdId} {b : Byte} (h : GivenIn t s b)
    (hsub : ∀ e ∈ t, e ∈ u) : GivenIn u s b := by
  obtain ⟨horigin, i, data, drained, hsend, hb⟩ := h
  exact ⟨horigin, i, data, drained, hsub _ hsend, hb⟩

theorem IdleInstall.mono {t u : List Event} {s : SfdId} (h : IdleInstall u s)
    (hsub : ∀ e ∈ t, e ∈ u) : IdleInstall t s :=
  fun i idle hin => h i idle (hsub _ hin)

theorem micro_appendsGiven (h : Micro d w w') (hgiven : w.AppendsGiven) : w'.AppendsGiven := by
  intro i s buf hin b hb
  rcases micro_append_mem h hin with hold | ⟨-, -, horigin, rfl⟩
  · exact (hgiven i s buf hold b hb).mono fun e he => micro_trace_mono h he
  · exact ⟨horigin b hb, i, buf.data, _, List.mem_append_right _ (List.mem_singleton_self _), hb⟩

theorem micro_inUse (h : Micro d w w') (hw : w.WF) {i : SockId} {s : SfdId}
    (huse : w'.InUse i s) : w.InUse i s ∨ w' = w.putSockfd i s := by
  rcases huse with hcur | hhandler
  · rcases micro_sockfd h hw i with heq | ⟨hnone, -⟩ | ⟨s', hput, -, -, -, -, rfl⟩
    · exact .inl (.inl (heq.symm.trans hcur))
    · cases hnone.symm.trans hcur
    · obtain rfl : s' = s := Option.some.inj (hput.symm.trans hcur)
      exact .inr rfl
  · rcases micro_handler h with heq | hnone | ⟨i', s', -, hcur, rfl⟩
    · exact .inl (.inr (heq.symm.trans hhandler))
    · cases hnone.symm.trans hhandler
    · cases hhandler
      exact .inl (.inl hcur)

theorem putSockfd_flushed {i : SockId} {s : SfdId}
    (hidle : IdleInstall (w.putSockfd i s).trace s) : w.Flushed i :=
  flushed_of_idle (hidle i _ (List.mem_append_right _ (List.mem_singleton_self _)))

theorem micro_queueGiven (h : Micro d w w') (hw : w.WF) (happ : w.AppendsGiven)
    (hgiven : w.QueueGiven) : w'.QueueGiven := by
  intro i s huse' hidle
  have hgrow : ∀ b, GivenIn w.trace s b → GivenIn w'.trace s b :=
    fun b hb => hb.mono fun e he => micro_trace_mono h he
  rcases micro_inUse h hw huse' with huse | rfl
  · have hold := hgiven i s huse (hidle.mono fun e he => micro_trace_mono h he)
    rcases micro_queue h i with hsame | ⟨hnew, -⟩ | ⟨s', buf, tasks, hswap, hlocals, -, hs', rfl⟩ |
        ⟨s', env, -, -, rfl⟩
    · rw [hsame]
      exact hold.mono hgrow
    · rw [hnew]
      exact SendQueue.allBytes_of_nil rfl rfl
    · -- the buffer was given to the connection that is `sockfd_`
      have hin : .append i s' buf ∈ w.tasks := by simp [World.tasks, hswap]
      have hcur' := hw.append_current hlocals hswap hs'
      have hcur : (w.sockets i).sockfd = some s := by
        refine huse.resolve_right fun hhandler => ?_
        rw [hlocals] at hhandler
        cases hhandler
      obtain rfl : s' = s := Option.some.inj (hcur'.symm.trans hcur)
      rw [runAppend_sockets, Function.update_self]
      exact SendQueue.append_allBytes (hold.mono hgrow) fun b hb => hgrow b (happ i s' buf hin b hb)
    · rw [writeable_sockets, Function.update_self]
      have hsent := (SendQueue.onWriteable_allBytes (hold.mono hgrow) w.poller.exitFlag
        ((w.sfds s').type = .udp) env).1
      unfold writtenQueue
      dsimp only
      split
      · exact hsent
      · exact hsent
  · have hflushed := putSockfd_flushed hidle
    rw [putSockfd_queue]
    exact SendQueue.allBytes_of_nil hflushed.1 hflushed.2

theorem micro_sentGiven (h : Micro d w w') (hgiven : w.QueueGiven)
    (hok : EachOk SentGiven w.trace) : EachOk SentGiven w'.trace := by
  refine micro_eachOk_mono (fun t u e hQ => ?_) h (fun e he => ?_) hok
  · cases e
    case sendmsg s sent =>
      intro hidle b hb
      have hsub : ∀ e ∈ t, e ∈ t ++ u := fun e he => List.mem_append_left u he
      exact (hQ (hidle.mono hsub) b hb).mono hsub
    all_goals trivial
  · cases e
    case sendmsg s sent =>
      intro hidle
      obtain ⟨i, env, hhandler, -, hsent, -⟩ := he
      have hall := hgiven i s (.inr hhandler) hidle
      exact (SendQueue.onWriteable_allBytes hall w.poller.exitFlag _ env).2 sent hsent
    all_goals trivial

/-! ## Runs -/

variable {C : World → Action → Prop} {acts : List Action}

/-- What links the bytes of the queues to the connections. -/
def OwnInv (w : World) : Prop :=
  w.AppendsGiven ∧ w.QueueGiven ∧ EachOk SentGiven w.trace

theorem micro_ownInv (h : Micro d w w') (hw : w.WF) (hinv : w.OwnInv) : w'.OwnInv := by
  obtain ⟨happ, hgiven, hok⟩ := hinv
  exact ⟨micro_appendsGiven h happ, micro_queueGiven h hw happ hgiven,
    micro_sentGiven h hgiven hok⟩

theorem init_ownInv : ({} : World).OwnInv := by
  refine ⟨fun i s buf h => ?_, fun i s huse => ?_, EachOk.nil⟩
  · cases h
  · rcases huse with h | h <;> cases h

/-- If both queues were empty when `s` became `sockfd_`, then every byte handed to `sendmsg` on the
descriptor of `s` was given to `Send` before, while `s` was `sockfd_`. -/
theorem sent_bytes_given (hrun : Run step C {} acts w) {t u : List Event} {s : SfdId}
    {sent : Sent Byte} (htrace : w.trace = t ++ .sendmsg s sent :: u) (hidle : IdleInstall t s) :
    ∀ b ∈ sent.msg.bytes, GivenIn t s b := by
  have hinv : w.OwnInv :=
    run_invariant (P := OwnInv) init_ownInv (fun _ _ => micro_ownInv) hrun
  exact hinv.2.2 t (.sendmsg s sent) u htrace hidle

/-- A connection sends two bytes. -/
theorem sent_bytes_given_first :
    ∃ w t u sent, Run step (fun _ _ => True) {}
        (connectFirst ++ [.user [.send 0 [1, 2] none], .swap, .task {}, .event 5 EPOLLOUT {}]) w ∧
      w.trace = t ++ .sendmsg 0 sent :: u ∧ sent.msg.bytes = [⟨1, 0⟩, ⟨2, 0⟩] ∧
      ∀ b ∈ sent.msg.bytes, GivenIn t 0 b := by
  have h : (exec step {}
      (connectFirst ++ [.user [.send 0 [1, 2] none], .swap, .task {}, .event 5 EPOLLOUT {}])).map
        (fun w => (w.trace.filterMap Event.offered, w.trace.all Event.idleInstall)) =
      some ([(0, [⟨1, 0⟩, ⟨2, 0⟩])], true) := by
    decide +kernel
  obtain ⟨w, hexec, hend⟩ := Option.map_eq_some_iff.1 h
  obtain ⟨hoffered, hidle⟩ := Prod.mk.inj hend
  have hin : ((0 : SfdId), ([⟨1, 0⟩, ⟨2, 0⟩] : List Byte)) ∈ w.trace.filterMap Event.offered := by
    rw [hoffered]
    exact List.mem_singleton_self _
  obtain ⟨e, he, hbytes⟩ := List.mem_filterMap.1 hin
  obtain ⟨sent, rfl, hmsg⟩ := Event.of_offered hbytes
  obtain ⟨t, u, htrace⟩ := List.append_of_mem he
  have hstart : IdleInstall t 0 := fun i idle hin =>
    List.all_eq_true.1 hidle (.install i 0 idle) (htrace ▸ List.mem_append_left _ hin)
  exact ⟨w, t, u, sent, Run.of_exec hexec, htrace, hmsg,
    sent_bytes_given (Run.of_exec hexec) htrace hstart⟩

/-- The kernel takes one of two bytes, the socket is closed and connects again: the
other byte goes out on the new connection. -/
theorem not_sent_bytes_given_of_reconnect :
    ∃ w sent, Run step (fun _ _ => True) {}
        (connectFirst ++ [.user [.send 0 [1, 2] none], .swap, .task {},
          .event 5 EPOLLOUT { send := ⟨[.ok 1], 0⟩ }, .user [.connect 0 5000 0], .swap, .task {},
          .task { fd := some 6 }, .swap, .task {}, .event 6 EPOLLOUT {}, .event 6 EPOLLOUT {}]) w ∧
      .sendmsg 1 sent ∈ w.trace ∧ ∃ b ∈ sent.msg.bytes, ¬ GivenIn w.trace 1 b := by
  have h : (exec step {}
      (connectFirst ++ [.user [.send 0 [1, 2] none], .swap, .task {},
        .event 5 EPOLLOUT { send := ⟨[.ok 1], 0⟩ }, .user [.connect 0 5000 0], .swap, .task {},
        .task { fd := some 6 }, .swap, .task {}, .event 6 EPOLLOUT {}, .event 6 EPOLLOUT {}])).map
        (fun w => w.trace.filterMap Event.offered) =
      some [(0, [⟨1, 0⟩, ⟨2, 0⟩]), (0, [⟨2, 0⟩]), (1, [⟨2, 0⟩])] := by
    decide +kernel
  obtain ⟨w, hexec, hend⟩ := Option.map_eq_some_iff.1 h
  have hin : ((1 : SfdId), ([⟨2, 0⟩] : List Byte)) ∈ w.trace.filterMap Event.offered := by
    rw [hend]
    simp
  obtain ⟨e, he, hbytes⟩ := List.mem_filterMap.1 hin
  obtain ⟨sent, rfl, hmsg⟩ := Event.of_offered hbytes
  refine ⟨w, sent, Run.of_exec hexec, he, ⟨2, 0⟩, by rw [hmsg]; simp, fun hgiven => ?_⟩
  exact absurd hgiven.1 (by decide)

end World

end CommonLibrary.Net
