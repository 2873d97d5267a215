import CommonLibrary.Foundation.Answers
import CommonLibrary.Net.Reentry

/-!
# `on_read` and the receive queue

The descriptor is registered edge-triggered, so what `on_read` leaves in the receive
queue stays there until more arrives.  It should end at `EAGAIN`; an empty datagram ends
it too.
-/

namespace CommonLibrary.Net

open Foundation Poller Utils

namespace RecvItem

/-- `recvfrom` is called again behind this answer. -/
def GoesOn (capacity : Nat) : RecvItem → Prop
  | err e _ => uvTranslatePosixError e = EINTR
  | data bytes cb => bytes.take capacity ≠ [] ∧ cb.throws = false

/-- `read_cb_` begins a `Close` of `i` at this answer. -/
def closes (i : SockId) : RecvItem → Bool
  | err _ _ => false
  | data _ cb => cb.ops.any (UserOp.closes i)

def again : RecvItem → Bool
  | err e _ => uvTranslatePosixError e = EAGAIN
  | data _ _ => false

/-- The data of an answer, which `read_cb_` is to get unless it is empty. -/
def payload (capacity : Nat) : RecvItem → List (List UInt8)
  | err _ _ => []
  | data bytes _ => if bytes.take capacity = [] then [] else [bytes.take capacity]

instance (capacity : Nat) (item : RecvItem) : Decidable (item.GoesOn capacity) := by
  cases item
  · exact inferInstanceAs (Decidable (_ = _))
  · exact inferInstanceAs (Decidable (_ ∧ _))

end RecvItem

/-- If `on_read` returns and `sockfd_` still is `s`, then `recvfrom` has said `EAGAIN`, and
all data of the answers before that has been given to `read_cb_`. -/
def Drained (i : SockId) (s : SfdId) (capacity : Nat) (reads : List RecvItem)
    (r : ReadResult) : Prop :=
  r.how ≠ .threw → (r.world.sockets i).sockfd = some s →
    r.how = .drained ∧
      r.delivered = (reads.takeWhile fun x => !x.again).flatMap (RecvItem.payload capacity)

/-- `on_read` comes to an empty datagram, and no `read_cb_` before it has closed `i`. -/
def StopsEarly (i : SockId) (udp : Bool) (capacity : Nat) (reads : List RecvItem) : Prop :=
  udp = true ∧ ∃ before bytes cb,
    Reached (RecvItem.GoesOn capacity) reads before (.data bytes cb) ∧
      bytes.take capacity = [] ∧ ∀ x ∈ before, x.closes i = false

namespace World

variable {d : Bool} {w w' : World} {i : SockId} {s : SfdId} {udp : Bool} {capacity : Nat}

/-! ## A `SocketFD` that is `sockfd_` no more -/

theorem Steps.not_current (h : Steps d w w') (hw : w.WF) (hm : w.Made s)
    (hinst : (w.sfds s).installed) (hno : (w.sockets i).sockfd ≠ some s) :
    (w'.sockets i).sockfd ≠ some s := by
  induction h with
  | refl => exact hno
  | tail hsteps hstep ih =>
      have hinst' := (Steps.sameMade hsteps hm).2.installed hinst
      rcases micro_sockfd hstep (Steps.wf hsteps hw) i with
        hkeep | ⟨hnone, -⟩ | ⟨s', hput, -, -, -, hnew, -⟩
      · rw [hkeep]
        exact ih
      · rw [hnone]
        exact Option.some_ne_none s ∘ Eq.symm
      · rw [hput]
        rintro heq
        rw [Option.some.inj heq, hinst'] at hnew
        cases hnew

/-! ## What stops the loop -/

theorem stopsEarly_err {e soError : Errno} {reads : List RecvItem} :
    StopsEarly i udp capacity (.err e soError :: reads) ↔
      uvTranslatePosixError e = EINTR ∧ StopsEarly i udp capacity reads := by
  constructor
  · rintro ⟨hudp, before, bytes, cb, hreached, hempty, hno⟩
    rcases hreached.cases_cons with ⟨-, heq⟩ | ⟨hgoes, before', rfl, hrest⟩
    · cases heq
    · exact ⟨hgoes, hudp, before', bytes, cb, hrest, hempty,
        fun x hx => hno x (List.mem_cons_of_mem _ hx)⟩
  · rintro ⟨hgoes, hudp, before, bytes, cb, hrest, hempty, hno⟩
    refine ⟨hudp, _, bytes, cb, hrest.cons hgoes, hempty, fun x hx => ?_⟩
    rcases List.mem_cons.1 hx with rfl | hx
    · rfl
    · exact hno x hx

theorem stopsEarly_data {bytes : List UInt8} {cb : CbRun} {reads : List RecvItem} :
    StopsEarly i udp capacity (.data bytes cb :: reads) ↔
      if bytes.take capacity = [] then udp = true
      else cb.throws = false ∧ cb.ops.any (UserOp.closes i) = false ∧
        StopsEarly i udp capacity reads := by
  constructor
  · rintro ⟨hudp, before, bytes', cb', hreached, hempty, hno⟩
    rcases hreached.cases_cons with ⟨-, heq⟩ | ⟨hgoes, before', rfl, hrest⟩
    · cases heq
      rw [if_pos hempty]
      exact hudp
    · rw [if_neg hgoes.1]
      exact ⟨hgoes.2, hno _ List.mem_cons_self, hudp, before', bytes', cb', hrest, hempty,
        fun x hx => hno x (List.mem_cons_of_mem _ hx)⟩
  · split
    · next hempty =>
      intro hudp
      exact ⟨hudp, [], bytes, cb, .head _ _ _, hempty, fun x hx => by cases hx⟩
    · next hdata =>
      rintro ⟨hthrows, hcloses, hudp, before, bytes', cb', hrest, hempty, hno⟩
      refine ⟨hudp, _, bytes', cb', hrest.cons ⟨hdata, hthrows⟩, hempty, fun x hx => ?_⟩
      rcases List.mem_cons.1 hx with rfl | hx
      · exact hcloses
      · exact hno x hx

/-! ## The loop -/

theorem onRead_drained_iff (reads : List RecvItem) (hw : w.WF) (hconn : w.locals.conn = none)
    (hi : i ∈ w.locals.socks) (hcur : (w.sockets i).sockfd = some s) :
    Drained i s capacity reads (onRead i s udp capacity w reads) ↔
      ¬ StopsEarly i udp capacity reads := by
  have hlive := hw.current i s hcur
  induction reads generalizing w with
  | nil =>
      refine iff_of_true (fun _ _ => ⟨rfl, rfl⟩) ?_
      rintro ⟨-, before, bytes, cb, hreached, -⟩
      exact hreached.not_nil
  | cons item reads ih =>
      cases item with
      | err e soError =>
          rw [onRead, stopsEarly_err]
          by_cases hintr : uvTranslatePosixError e = EINTR
          · have hagain : (RecvItem.err e soError).again = false := by
              simp [RecvItem.again, hintr, EINTR, EAGAIN]
            have hsame : Drained i s capacity (.err e soError :: reads)
                  (onRead i s udp capacity w reads) ↔
                Drained i s capacity reads (onRead i s udp capacity w reads) := by
              simp [Drained, hagain, RecvItem.payload]
            rw [if_pos hintr, hsame, and_iff_right hintr]
            exact ih hw hconn hi hcur hlive
          · rw [if_neg hintr]
            refine iff_of_true ?_ fun hstop => hintr hstop.1
            split
            · next hagain =>
              exact fun _ _ => ⟨rfl, by simp [RecvItem.again, hagain]⟩
            · intro _ hcur'
              rw [emitError_sockfd] at hcur'
              cases hcur'
      | data bytes cb =>
          rw [onRead, stopsEarly_data]
          dsimp only
          by_cases hempty : bytes.take capacity = []
          · rw [if_pos hempty, if_pos hempty]
            cases udp with
            | true =>
                refine iff_of_false (fun hdrained => ?_) fun hno => hno rfl
                obtain ⟨hhow, -⟩ := hdrained (fun heq => by cases heq) hcur
                cases hhow
            | false =>
                refine iff_of_true (fun _ hcur' => ?_) Bool.false_ne_true
                rw [if_neg Bool.false_ne_true, emitError_sockfd] at hcur'
                cases hcur'
          · rw [if_neg hempty, if_neg hempty]
            by_cases hthrows : cb.throws = true
            · rw [if_pos hthrows, hthrows]
              exact iff_of_true (fun hno => absurd rfl hno) fun hstop => by cases hstop.1
            · rw [if_neg hthrows]
              obtain ⟨hwf, hread, hlocals⟩ := readCb_steps hw hconn i s (bytes.take capacity) cb.ops
              have hmade := Steps.sameMade hread (hw.made hlive.1)
              have hconn' := hconn
              have hi' := hi
              rw [← hlocals] at hconn' hi'
              by_cases hcloses : cb.ops.any (UserOp.closes i) = true
              · -- the loop goes on with a `SocketFD` that is not current any more
                have hgone := execOps_not_current cb.ops hwf hconn hi hlive.1 hcloses
                obtain ⟨hrest, -⟩ := @onRead_steps _ i s udp capacity reads (hread.wf hw) hconn'
                refine iff_of_true (fun _ hcur' => ?_) fun hstop => ?_
                · exact absurd hcur' (hrest.not_current (hread.wf hw) hmade.1
                    (hmade.2.installed hlive.2.2) hgone)
                · rw [hcloses] at hstop
                  cases hstop.2.1
              · rw [Bool.not_eq_true] at hcloses hthrows
                have hkeep := (execOps_keeps cb.ops hwf hconn hi hcloses).trans hcur
                have hloop := ih (hread.wf hw) hconn' hi' hkeep ((hread.wf hw).current i s hkeep)
                rw [hthrows, hcloses, and_iff_right rfl, and_iff_right rfl]
                refine Iff.trans ?_ hloop
                simp [Drained, RecvItem.again, RecvItem.payload, hempty]

variable {C : World → Action → Prop} {acts : List Action}

/-- An event of `s` in any reachable state: `on_read` ends at `EAGAIN` with all data given
to `read_cb_`, or without `s` as `sockfd_`, if and only if it comes to no empty datagram
first. -/
theorem read_drained_iff (hrun : Run step C {} acts w) {fd : Fd}
    (hreg : w.poller.eventMap fd = some (.attached i s udp)) (reads : List RecvItem) :
    Drained i s (w.readCapacity i) reads
        (onRead i s udp (w.readCapacity i) (w.lock i s) reads) ↔
      ¬ StopsEarly i udp (w.readCapacity i) reads := by
  have hs : (w.lock i s).Serving (.attached i s udp) := lock_serving (run_quiet hrun) hreg
  refine onRead_drained_iff reads hs.wf ?_ ?_ hs.cur
  · rw [hs.locals]
  · rw [hs.locals]
    exact List.mem_singleton_self i

/-- A UDP socket on descriptor 5. -/
def listenUdp : List Action := [.user [.create, .listen 0 .udp (some 5) true]]

theorem listenUdp_run :
    ∃ w, Run step (fun _ _ => True) {} listenUdp w ∧
      w.poller.eventMap 5 = some (.attached 0 0 true) ∧ (w.sockets 0).sockfd = some 0 ∧
        w.readCapacity 0 = 0xFFFE := by
  have h : (exec step {} listenUdp).map
      (fun w => (w.poller.eventMap 5, (w.sockets 0).sockfd, w.readCapacity 0)) =
      some (some (.attached 0 0 true), some 0, 0xFFFE) := by
    decide +kernel
  obtain ⟨w, hexec, hend⟩ := Option.map_eq_some_iff.1 h
  obtain ⟨hreg, hrest⟩ := Prod.mk.inj hend
  obtain ⟨hcur, hcapacity⟩ := Prod.mk.inj hrest
  exact ⟨w, Run.of_exec hexec, hreg, hcur, hcapacity⟩

/-- A datagram of one byte. -/
theorem read_drained_one :
    ∃ w, Run step (fun _ _ => True) {} listenUdp w ∧
      Drained 0 0 (w.readCapacity 0) [.data [1] {}]
        (onRead 0 0 true (w.readCapacity 0) (w.lock 0 0) [.data [1] {}]) := by
  obtain ⟨w, hrun, hreg, -, hcapacity⟩ := listenUdp_run
  refine ⟨w, hrun, (read_drained_iff hrun hreg [.data [1] {}]).2 ?_⟩
  rw [hcapacity, stopsEarly_data, if_neg (by decide)]
  rintro ⟨-, -, -, before, bytes, cb, hreached, -⟩
  exact hreached.not_nil

/-- An empty datagram in front of one with a byte: `on_read` returns at the first. -/
theorem not_read_drained_of_empty :
    ∃ w, Run step (fun _ _ => True) {} listenUdp w ∧
      w.poller.eventMap 5 = some (.attached 0 0 true) ∧
      ¬ Drained 0 0 (w.readCapacity 0) [.data [] {}, .data [1] {}]
        (onRead 0 0 true (w.readCapacity 0) (w.lock 0 0) [.data [] {}, .data [1] {}]) := by
  obtain ⟨w, hrun, hreg, hcur, -⟩ := listenUdp_run
  refine ⟨w, hrun, hreg, fun hdrained => ?_⟩
  have hend : onRead 0 0 true (w.readCapacity 0) (w.lock 0 0) [.data [] {}, .data [1] {}] =
      ⟨w.lock 0 0, [.data [1] {}], [], .empty⟩ := by simp [onRead]
  rw [hend] at hdrained
  have hhow := (hdrained (fun heq => by cases heq) hcur).1
  cases hhow

end World

end CommonLibrary.Net
