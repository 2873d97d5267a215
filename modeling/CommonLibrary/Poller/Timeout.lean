import CommonLibrary.Poller.DeadlinesLeft
import Mathlib.Algebra.Group.Int.Defs

/-!
# The timeout of `epoll_wait`

`RunLoop` passes `delay_ms ? delay_ms : -1`.  The `uint64_t` delay makes `-1` a
`uint64_t` too, and the value is then cut down to the `int` that `epoll_wait` takes: a
delay of `2 ^ 31` ms becomes negative, which means to wait for ever.
-/

namespace CommonLibrary.Poller

open Foundation

/-- The `int` that `epoll_wait` gets for the delay `delayMs`. -/
def epollTimeout (delayMs : Nat) : Int :=
  Int.bmod (if delayMs ≠ 0 then delayMs else 2 ^ 64 - 1 : Nat) (2 ^ 32)

/-- `epoll_wait` returns before any of the `pending` tasks is due, and waits for ever only
if there is none. -/
def OnTime (now : Nat) (pending : List (Nat × DelayId)) (timeout : Int) : Prop :=
  (∀ e ∈ pending, 0 < timeout ∧ timeout ≤ (e.1 : Int) - now) ∧ (timeout = -1 → pending = [])

/-- The deadline is still to come, and what is left until then is a positive `int` when
it is taken modulo `2 ^ 32`. -/
def Representable (now deadline : Nat) : Prop :=
  now < deadline ∧ 0 < (deadline - now) % 2 ^ 32 ∧ (deadline - now) % 2 ^ 32 < 2 ^ 31

theorem epollTimeout_pos {delayMs : Nat} (hpos : 0 < delayMs) :
    0 < epollTimeout delayMs ↔ 0 < delayMs % 2 ^ 32 ∧ delayMs % 2 ^ 32 < 2 ^ 31 := by
  unfold epollTimeout
  rw [if_pos (Nat.ne_of_gt hpos), Int.bmod_eq_emod]
  split <;> omega

theorem epollTimeout_le (delayMs : Nat) (hpos : 0 < delayMs) :
    epollTimeout delayMs ≤ delayMs := by
  unfold epollTimeout
  rw [if_pos (Nat.ne_of_gt hpos), Int.bmod_eq_emod]
  split <;> omega

theorem onTime_cons {now : Nat} {e : Nat × DelayId} {m : List (Nat × DelayId)}
    (hord : DelayState.Ordered (e :: m)) (hnow : now < 2 ^ 64) (hwidth : e.1 < 2 ^ 64) :
    OnTime now (e :: m) (epollTimeout ((e.1 + 2 ^ 64 - now) % 2 ^ 64)) ↔
      Representable now e.1 := by
  by_cases hlate : now < e.1
  · have hdelay : (e.1 + 2 ^ 64 - now) % 2 ^ 64 = e.1 - now := by omega
    have hpos : 0 < e.1 - now := by omega
    have hle := epollTimeout_le (e.1 - now) hpos
    rw [hdelay, Representable, and_iff_right hlate, ← epollTimeout_pos hpos]
    constructor
    · intro hon
      exact (hon.1 e List.mem_cons_self).1
    · intro htimeout
      refine ⟨fun e' he' => ⟨htimeout, ?_⟩, fun hforever => by omega⟩
      have hfirst : e.1 ≤ e'.1 := by
        rcases List.mem_cons.1 he' with rfl | he'
        · exact le_refl _
        · exact (List.pairwise_cons.1 hord).1 e' he'
      omega
  · refine iff_of_false (fun hon => ?_) fun hrep => hlate hrep.1
    obtain ⟨hpos, hle⟩ := hon.1 e List.mem_cons_self
    omega

/-- The least of the deadlines is representable, if there is one. -/
def EarliestFits (now : Nat) (deadlines : List Nat) : Prop :=
  ∀ e ∈ deadlines, (∀ e' ∈ deadlines, e ≤ e') → Representable now e

/-- The delay that `flush_delay_tasks` returns for what is pending. -/
def delayOf (now : Nat) (pending : List (Nat × DelayId)) : Nat :=
  match pending with
  | [] => 0
  | e :: _ => (e.1 + 2 ^ 64 - now) % 2 ^ 64

theorem onTime_iff {now : Nat} {pending : List (Nat × DelayId)}
    (hord : DelayState.Ordered pending) (hnow : now < 2 ^ 64)
    (hwidth : ∀ e ∈ pending, e.1 < 2 ^ 64) :
    OnTime now pending (epollTimeout (delayOf now pending)) ↔
      EarliestFits now (pending.map Prod.fst) := by
  cases pending with
  | nil => exact iff_of_true ⟨fun e he => (by cases he), fun _ => rfl⟩ fun e he => (by cases he)
  | cons e m =>
      have hfirst : ∀ key ∈ (e :: m).map Prod.fst, e.1 ≤ key := by
        rw [List.map_cons, List.forall_mem_cons]
        refine ⟨le_refl _, fun key hkey => ?_⟩
        obtain ⟨e', he', rfl⟩ := List.mem_map.1 hkey
        exact (List.pairwise_cons.1 hord).1 e' he'
      have hin : e.1 ∈ (e :: m).map Prod.fst := List.mem_map_of_mem List.mem_cons_self
      rw [delayOf, onTime_cons hord hnow (hwidth e List.mem_cons_self)]
      constructor
      · intro hrep key hkey hleast
        rw [le_antisymm (hleast e.1 hin) (hfirst key hkey)]
        exact hrep
      · intro hfits
        exact hfits e.1 hin hfirst

namespace DelayState

/-- No delay is as long as `2 ^ 31` ms. -/
structure Short (st : DelayState) (now : Nat) (script : List TaskRun) : Prop where
  clock : now + 2 ^ 31 ≤ 2 ^ 64
  pending : ∀ e ∈ st.poller.delayTasks, e.1 < now + 2 ^ 31
  renewed : ∀ run ∈ script, ∀ n, run.outcome = .ret n → n < 2 ^ 31

theorem Short.earliestFits {st : DelayState} {now : Nat} {script : List TaskRun}
    (h : st.Short now script) :
    EarliestFits now (deadlinesLeft now st st.poller.delayTasks script) := by
  have hclock := h.clock
  have hnew : ∀ e ∈ newDeadlines now st (due now st.poller.delayTasks) script,
      now < e ∧ e < now + 2 ^ 31 := by
    refine newDeadlines_of fun run hrun key hkey => ?_
    cases houtcome : run.outcome with
    | throws =>
        rw [houtcome] at hkey
        cases hkey
    | ret n =>
        have hlt := h.renewed run hrun n houtcome
        rw [houtcome, Outcome.deadline] at hkey
        split at hkey
        · cases hkey
          omega
        · cases hkey
  intro e he hleast
  have hbounds : now < e ∧ e < now + 2 ^ 31 := by
    rcases mem_deadlinesLeft.1 he with ⟨hin, hlate⟩ | hin
    · obtain ⟨e', he', rfl⟩ := List.mem_map.1 hin
      exact ⟨hlate, h.pending e' he'⟩
    · exact hnew e hin
  exact ⟨hbounds.1, by omega, by omega⟩

/-- What `get_min_delay_ms` leaves is in order, and it returns the delay of that. -/
structure MinDelaySpec (now : Nat) (deadlines : List Nat) (out : DelayState × Nat) : Prop where
  ordered : Ordered out.1.poller.delayTasks
  keys : ∀ key, key ∈ out.1.poller.delayTasks.map Prod.fst ↔ key ∈ deadlines
  delay : out.2 = delayOf now out.1.poller.delayTasks

theorem flushDelayTasks_spec (st : DelayState) (now : Nat) (script : List TaskRun)
    (hord : Ordered st.poller.delayTasks) :
    MinDelaySpec now (deadlinesLeft now st st.poller.delayTasks script)
      (st.flushDelayTasks now script) where
  ordered := by
    have hnil : Ordered ([] ++ st.poller.delayTasks) := hord
    exact flushLoop_ordered _ hnil
  keys := by
    intro key
    have hleft := @flushLoop_left now (st.poller.delayTasks.length + script.length)
      { st with poller := { st.poller with delayTasks := [] } } [] _ script hord (le_refl _) key
    have hsame : SameTasks { st with poller := { st.poller with delayTasks := [] } } st :=
      ⟨rfl, rfl⟩
    rw [hsame.deadlinesLeft] at hleft
    exact hleft.trans (or_iff_right (List.not_mem_nil))
  delay := rfl

theorem getMinDelayMs_spec (st : DelayState) {now : Nat} (script : List TaskRun)
    (hord : Ordered st.poller.delayTasks) (hwidth : ∀ e ∈ st.poller.delayTasks, e.1 < 2 ^ 64) :
    MinDelaySpec now (deadlinesLeft now st st.poller.delayTasks script)
      (st.getMinDelayMs now script) := by
  have hflush := flushDelayTasks_spec st now script hord
  unfold getMinDelayMs
  cases hpending : st.poller.delayTasks with
  | nil =>
      rw [deadlinesLeft_late (by simp)]
      exact ⟨by rw [hpending]; exact List.Pairwise.nil, fun key => by rw [hpending],
        by rw [hpending, delayOf]⟩
  | cons e m =>
      dsimp only
      split
      · next hlate =>
        have hbound := hwidth e (by rw [hpending]; exact List.mem_cons_self)
        have hafter : ∀ e' ∈ e :: m, now < e'.1 := by
          rw [hpending] at hord
          refine List.forall_mem_cons.2 ⟨hlate, fun e' he' => ?_⟩
          exact lt_of_lt_of_le hlate ((List.pairwise_cons.1 hord).1 e' he')
        rw [deadlinesLeft_late hafter]
        refine ⟨hord, fun key => by rw [hpending], ?_⟩
        show e.1 - now = delayOf now st.poller.delayTasks
        rw [hpending, delayOf]
        omega
      · rw [← hpending]
        exact hflush

/-- The timeout fits the deadlines that are left exactly if the earliest of them is
representable, which it is where no delay is as long as `2 ^ 31` ms. -/
theorem getMinDelayMs_onTime_iff (st : DelayState) {now : Nat} (script : List TaskRun)
    (hord : Ordered st.poller.delayTasks) (hnow : now < 2 ^ 64)
    (hwidth : ∀ e ∈ st.poller.delayTasks, e.1 < 2 ^ 64) :
    (OnTime now (st.getMinDelayMs now script).1.poller.delayTasks
        (epollTimeout (st.getMinDelayMs now script).2) ↔
      EarliestFits now (deadlinesLeft now st st.poller.delayTasks script)) ∧
    (st.Short now script →
      EarliestFits now (deadlinesLeft now st st.poller.delayTasks script)) := by
  refine ⟨?_, Short.earliestFits⟩
  obtain ⟨hordered, hkeys, hdelay⟩ := getMinDelayMs_spec st script hord hwidth
  have hleft : ∀ e ∈ (st.getMinDelayMs now script).1.poller.delayTasks, e.1 < 2 ^ 64 := by
    intro e he
    rcases mem_deadlinesLeft.1 ((hkeys e.1).1 (List.mem_map_of_mem he)) with ⟨hin, _⟩ | hin
    · obtain ⟨e', he', heq⟩ := List.mem_map.1 hin
      rw [← heq]
      exact hwidth e' he'
    · exact newDeadlines_lt e.1 hin
  rw [hdelay, onTime_iff hordered hnow hleft]
  simp only [EarliestFits, hkeys]

/-- A task registered for 105, asked for at 100. -/
theorem getMinDelayMs_onTime_five :
    ∃ st : DelayState,
      Run step (fun _ _ => True) {} [.call (.doDelayTask 5 100), .swap, .task []] st ∧
      st.poller.delayTasks = [(105, 0)] ∧
      OnTime 100 (st.getMinDelayMs 100 []).1.poller.delayTasks
        (epollTimeout (st.getMinDelayMs 100 []).2) := by
  have hrun : Run step (fun _ _ => True) {} [.call (.doDelayTask 5 100), .swap, .task []] _ :=
    .cons trivial rfl (.cons trivial rfl (.cons trivial rfl (.nil _)))
  refine ⟨_, hrun, rfl, ?_⟩
  obtain ⟨hiff, hshort⟩ := getMinDelayMs_onTime_iff
    { poller := { delayTasks := [(105, 0)] }, nextDelay := 1 } []
    (List.pairwise_singleton _ _) (by decide : 100 < 2 ^ 64) (by simp)
  exact hiff.2 (hshort ⟨by decide, by simp, by simp⟩)

/-- A delay of `2 ^ 31` ms: the timeout is negative, and `epoll_wait` waits for ever. -/
theorem not_getMinDelayMs_onTime_of_long :
    ∃ st : DelayState,
      Run step (fun _ _ => True) {} [.call (.doDelayTask (2 ^ 31) 100), .swap, .task []] st ∧
      epollTimeout (st.getMinDelayMs 100 []).2 = -2 ^ 31 ∧
      ¬ OnTime 100 (st.getMinDelayMs 100 []).1.poller.delayTasks
        (epollTimeout (st.getMinDelayMs 100 []).2) := by
  have hrun : Run step (fun _ _ => True) {}
      [.call (.doDelayTask (2 ^ 31) 100), .swap, .task []] _ :=
    .cons trivial rfl (.cons trivial rfl (.cons trivial rfl (.nil _)))
  refine ⟨_, hrun, by decide, fun hon => ?_⟩
  have hpos := (hon.1 (2 ^ 31 + 100, 0) (by decide)).1
  exact absurd hpos (by decide)

end DelayState

end CommonLibrary.Poller
