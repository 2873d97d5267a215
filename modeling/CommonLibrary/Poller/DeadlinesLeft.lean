import CommonLibrary.Poller.DelayTask

/-!
# The deadlines that a flush leaves

What is pending after `flush_delay_tasks`, said in terms of what was pending before and
of what the due tasks return, without the copy of the multimap and its iterator.
-/

namespace CommonLibrary.Poller

open Foundation

/-- The deadline at which a task that ends so is to run again. -/
def Outcome.deadline (now : Nat) : Outcome → Option Nat
  | .ret nextDelay => if nextDelay > 0 then some ((nextDelay + now) % 2 ^ 64) else none
  | .throws => none

namespace DelayState

theorem invoke_length (st : DelayState) (d : DelayId) (script : List TaskRun) :
    (st.invoke d script).2.2.length ≤ script.length ∧
      ∀ now key, (st.invoke d script).2.1.deadline now = some key →
        (st.invoke d script).2.2.length < script.length := by
  unfold invoke
  split
  · exact ⟨le_refl _, fun now key hkey => by cases hkey⟩
  · cases script with
    | nil => exact ⟨le_refl _, fun now key hkey => by cases hkey⟩
    | cons run script => exact ⟨Nat.le_succ _, fun _ _ _ => Nat.lt_succ_self _⟩

/-- The deadlines that the due `tasks` ask for, called in turn.  A task whose new deadline
is due too, and not before the one it replaces, is called again. -/
def newDeadlines (now : Nat) (st : DelayState) (tasks : List (Nat × DelayId))
    (script : List TaskRun) : List Nat :=
  match tasks with
  | [] => []
  | (deadline, d) :: tasks =>
      match _h : (st.invoke d script).2.1.deadline now with
      | none => newDeadlines now (st.invoke d script).1 tasks (st.invoke d script).2.2
      | some key =>
          if now < key ∨ key < deadline then
            key :: newDeadlines now (st.invoke d script).1 tasks (st.invoke d script).2.2
          else
            -- the sum has wrapped to a deadline that the loop has still to reach
            newDeadlines now (st.invoke d script).1 (Poller.emplace key d tasks)
              (st.invoke d script).2.2
termination_by tasks.length + script.length
decreasing_by
  all_goals obtain ⟨hle, hlt⟩ := invoke_length st d script
  · simp only [List.length_cons]
    omega
  · simp only [List.length_cons]
    omega
  · have hitem := hlt now key _h
    have hentries := (emplace_perm key d tasks).length_eq
    simp only [List.length_cons] at hentries ⊢
    omega

/-- The deadlines that are pending once the due ones of the `tasks` have been dealt with. -/
def deadlinesLeft (now : Nat) (st : DelayState) (tasks : List (Nat × DelayId))
    (script : List TaskRun) : List Nat :=
  (tasks.map Prod.fst).filter (now < ·) ++ newDeadlines now st (due now tasks) script

theorem newDeadlines_none {now deadline : Nat} {st : DelayState} {d : DelayId}
    {tasks : List (Nat × DelayId)} {script : List TaskRun}
    (houtcome : (st.invoke d script).2.1.deadline now = none) :
    newDeadlines now st ((deadline, d) :: tasks) script =
      newDeadlines now (st.invoke d script).1 tasks (st.invoke d script).2.2 := by
  rw [newDeadlines]
  split
  · rfl
  · next key hsome =>
    rw [houtcome] at hsome
    cases hsome

theorem newDeadlines_some {now deadline key : Nat} {st : DelayState} {d : DelayId}
    {tasks : List (Nat × DelayId)} {script : List TaskRun}
    (houtcome : (st.invoke d script).2.1.deadline now = some key) :
    newDeadlines now st ((deadline, d) :: tasks) script =
      if now < key ∨ key < deadline then
        key :: newDeadlines now (st.invoke d script).1 tasks (st.invoke d script).2.2
      else
        newDeadlines now (st.invoke d script).1 (Poller.emplace key d tasks)
          (st.invoke d script).2.2 := by
  rw [newDeadlines]
  split
  · next hnone =>
    rw [houtcome] at hnone
    cases hnone
  · next key' hsome =>
    rw [houtcome] at hsome
    cases hsome
    rfl

theorem invoke_outcome (st : DelayState) (d : DelayId) (script : List TaskRun) :
    ((st.invoke d script).2.1 = .ret 0 ∨
        ∃ run ∈ script, (st.invoke d script).2.1 = run.outcome) ∧
      ∀ run ∈ (st.invoke d script).2.2, run ∈ script := by
  unfold invoke
  split
  · exact ⟨.inl rfl, fun run hrun => hrun⟩
  · cases script with
    | nil => exact ⟨.inl rfl, fun run hrun => hrun⟩
    | cons run script =>
        exact ⟨.inr ⟨run, List.mem_cons_self, rfl⟩, fun run' hrun' => List.mem_cons_of_mem _ hrun'⟩

theorem newDeadlines_of {P : Nat → Prop} {now : Nat} {st : DelayState}
    {tasks : List (Nat × DelayId)} {script : List TaskRun}
    (hscript : ∀ run ∈ script, ∀ key, run.outcome.deadline now = some key → P key) :
    ∀ e ∈ newDeadlines now st tasks script, P e := by
  induction st, tasks, script using newDeadlines.induct now with
  | case1 st script =>
      rw [newDeadlines]
      intro e he
      cases he
  | case2 st script deadline d tasks houtcome ih =>
      rw [newDeadlines_none houtcome]
      exact ih fun run hrun => hscript run ((invoke_outcome st d script).2 run hrun)
  | case3 st script deadline d tasks key houtcome hout ih =>
      rw [newDeadlines_some houtcome, if_pos hout]
      obtain ⟨hret, hmem⟩ := invoke_outcome st d script
      refine List.forall_mem_cons.2 ⟨?_, ih fun run hrun => hscript run (hmem run hrun)⟩
      rcases hret with hzero | ⟨run, hrun, hret⟩
      · rw [hzero] at houtcome
        cases houtcome
      · rw [hret] at houtcome
        exact hscript run hrun key houtcome
  | case4 st script deadline d tasks key houtcome hagain ih =>
      rw [newDeadlines_some houtcome, if_neg hagain]
      exact ih fun run hrun => hscript run ((invoke_outcome st d script).2 run hrun)

theorem newDeadlines_lt {now : Nat} {st : DelayState} {tasks : List (Nat × DelayId)}
    {script : List TaskRun} : ∀ e ∈ newDeadlines now st tasks script, e < 2 ^ 64 := by
  refine newDeadlines_of fun run _ key hkey => ?_
  unfold Outcome.deadline at hkey
  split at hkey
  · split at hkey
    · cases hkey
      exact Nat.mod_lt _ (by decide)
    · cases hkey
  · cases hkey

/-- Two states with the same tasks in them, as far as a task can tell. -/
structure SameTasks (st st' : DelayState) : Prop where
  cancelled : st.cancelled = st'.cancelled
  nextDelay : st.nextDelay = st'.nextDelay

theorem SameTasks.call {st st' : DelayState} (h : SameTasks st st') (c : Call) :
    SameTasks (st.call c) (st'.call c) := by
  cases c with
  | async => exact ⟨h.cancelled, h.nextDelay⟩
  | asyncFirst => exact ⟨h.cancelled, h.nextDelay⟩
  | doDelayTask delayMs now => exact ⟨h.cancelled, congrArg (· + 1) h.nextDelay⟩
  | cancel d =>
      unfold DelayState.call
      dsimp only
      rw [← h.nextDelay]
      split
      · exact ⟨congrArg (Function.update · d true) h.cancelled, rfl⟩
      · exact h

theorem SameTasks.calls {st st' : DelayState} (h : SameTasks st st') (cs : List Call) :
    SameTasks (st.calls cs) (st'.calls cs) := by
  induction cs generalizing st st' with
  | nil => exact h
  | cons c cs ih => exact ih (h.call c)

theorem SameTasks.invoke {st st' : DelayState} (h : SameTasks st st') (d : DelayId)
    (script : List TaskRun) :
    (st.invoke d script).2 = (st'.invoke d script).2 ∧
      SameTasks (st.invoke d script).1 (st'.invoke d script).1 := by
  unfold DelayState.invoke
  rw [← h.cancelled]
  split
  · exact ⟨rfl, h⟩
  · cases script with
    | nil => exact ⟨rfl, h⟩
    | cons run script => exact ⟨rfl, h.calls run.calls⟩

theorem SameTasks.newDeadlines {now : Nat} {st st' : DelayState} {tasks : List (Nat × DelayId)}
    {script : List TaskRun} (h : SameTasks st st') :
    newDeadlines now st tasks script = newDeadlines now st' tasks script := by
  induction st, tasks, script using newDeadlines.induct now generalizing st' with
  | case1 st script => rw [DelayState.newDeadlines, DelayState.newDeadlines]
  | case2 st script deadline d tasks houtcome ih =>
      obtain ⟨hsame, hleft⟩ := h.invoke d script
      have houtcome' := hsame ▸ houtcome
      rw [newDeadlines_none houtcome, newDeadlines_none houtcome', ih hleft, hsame]
  | case3 st script deadline d tasks key houtcome hout ih =>
      obtain ⟨hsame, hleft⟩ := h.invoke d script
      have houtcome' := hsame ▸ houtcome
      rw [newDeadlines_some houtcome, newDeadlines_some houtcome', if_pos hout, if_pos hout,
        ih hleft, hsame]
  | case4 st script deadline d tasks key houtcome hagain ih =>
      obtain ⟨hsame, hleft⟩ := h.invoke d script
      have houtcome' := hsame ▸ houtcome
      rw [newDeadlines_some houtcome, newDeadlines_some houtcome', if_neg hagain, if_neg hagain,
        ih hleft, hsame]

/-! ## The loop leaves these deadlines -/

theorem due_emplace_le {key now : Nat} (hkey : key ≤ now) (d : DelayId)
    (m : List (Nat × DelayId)) :
    due now (Poller.emplace key d m) = Poller.emplace key d (due now m) := by
  induction m with
  | nil => simp [due, Poller.emplace, List.orderedInsert, hkey]
  | cons e m ih =>
      unfold Poller.emplace at ih ⊢
      by_cases hlt : key < e.1
      · by_cases he : e.1 ≤ now
        · simp [due, List.orderedInsert, hlt, hkey, he]
        · simp [due, List.orderedInsert, hlt, hkey, he]
      · have he : e.1 ≤ now := le_trans (Nat.le_of_not_lt hlt) hkey
        simpa [due, List.orderedInsert, hlt, he] using ih

theorem mem_emplace_keys {e key : Nat} {d : DelayId} {m : List (Nat × DelayId)} :
    e ∈ (Poller.emplace key d m).map Prod.fst ↔ e = key ∨ e ∈ m.map Prod.fst := by
  rw [((emplace_perm key d m).map Prod.fst).mem_iff, List.map_cons, List.mem_cons]

theorem SameTasks.deadlinesLeft {now : Nat} {st st' : DelayState}
    {tasks : List (Nat × DelayId)} {script : List TaskRun} (h : SameTasks st st') :
    deadlinesLeft now st tasks script = deadlinesLeft now st' tasks script := by
  rw [DelayState.deadlinesLeft, DelayState.deadlinesLeft, h.newDeadlines]

theorem deadlinesLeft_finish (now : Nat) (st : DelayState) (d : DelayId)
    (tasks : List (Nat × DelayId)) (script : List TaskRun) :
    deadlinesLeft now (st.finish d) tasks script = deadlinesLeft now st tasks script :=
  SameTasks.deadlinesLeft ⟨rfl, rfl⟩

theorem mem_deadlinesLeft {now e : Nat} {st : DelayState} {tasks : List (Nat × DelayId)}
    {script : List TaskRun} :
    e ∈ deadlinesLeft now st tasks script ↔
      (e ∈ tasks.map Prod.fst ∧ now < e) ∨ e ∈ newDeadlines now st (due now tasks) script := by
  simp [deadlinesLeft]

theorem deadlinesLeft_late {now : Nat} {st : DelayState} {tasks : List (Nat × DelayId)}
    {script : List TaskRun} (hlate : ∀ e ∈ tasks, now < e.1) :
    deadlinesLeft now st tasks script = tasks.map Prod.fst := by
  have hdue : due now tasks = [] := by
    cases tasks with
    | nil => rfl
    | cons e tasks => simp [due, hlate e List.mem_cons_self]
  have hfilter : (tasks.map Prod.fst).filter (now < ·) = tasks.map Prod.fst := by
    rw [List.filter_eq_self]
    intro key hkey
    obtain ⟨e, he, rfl⟩ := List.mem_map.1 hkey
    simpa using hlate e he
  rw [deadlinesLeft, hdue, hfilter, newDeadlines, List.append_nil]

theorem mem_deadlinesLeft_cons {now deadline e : Nat} {d : DelayId} {st : DelayState}
    {tasks : List (Nat × DelayId)} {script : List TaskRun} (hdue : deadline ≤ now) :
    e ∈ deadlinesLeft now st ((deadline, d) :: tasks) script ↔
      (e ∈ tasks.map Prod.fst ∧ now < e) ∨
        e ∈ newDeadlines now st ((deadline, d) :: due now tasks) script := by
  have hhead : due now ((deadline, d) :: tasks) = (deadline, d) :: due now tasks := by
    simp [due, hdue]
  have hskip : (e ∈ ((deadline, d) :: tasks).map Prod.fst ∧ now < e) ↔
      (e ∈ tasks.map Prod.fst ∧ now < e) := by
    rw [List.map_cons, List.mem_cons]
    constructor
    · rintro ⟨rfl | he, hlate⟩
      · exact absurd hlate (Nat.not_lt_of_le hdue)
      · exact ⟨he, hlate⟩
    · rintro ⟨he, hlate⟩
      exact ⟨.inr he, hlate⟩
  rw [mem_deadlinesLeft, hhead, hskip]

section Head

variable {now deadline e : Nat} {d : DelayId} {st st' : DelayState} {outcome : Outcome}
  {tasks : List (Nat × DelayId)} {script script' : List TaskRun}

theorem mem_deadlinesLeft_done (hdue : deadline ≤ now)
    (hinvoke : st.invoke d script = (st', outcome, script'))
    (houtcome : outcome.deadline now = none) :
    e ∈ deadlinesLeft now st ((deadline, d) :: tasks) script ↔
      e ∈ deadlinesLeft now st' tasks script' := by
  have hnone : (st.invoke d script).2.1.deadline now = none := by rw [hinvoke, houtcome]
  rw [mem_deadlinesLeft_cons hdue, newDeadlines_none hnone, hinvoke, mem_deadlinesLeft]

theorem mem_deadlinesLeft_passed {key : Nat} (hdue : deadline ≤ now)
    (hinvoke : st.invoke d script = (st', outcome, script'))
    (houtcome : outcome.deadline now = some key) (hwrap : key < deadline) :
    e ∈ deadlinesLeft now st ((deadline, d) :: tasks) script ↔
      e = key ∨ e ∈ deadlinesLeft now st' tasks script' := by
  have hsome : (st.invoke d script).2.1.deadline now = some key := by rw [hinvoke, houtcome]
  rw [mem_deadlinesLeft_cons hdue, newDeadlines_some hsome, if_pos (.inr hwrap), hinvoke,
    mem_deadlinesLeft, List.mem_cons]
  tauto

theorem mem_deadlinesLeft_ahead {key : Nat} (hdue : deadline ≤ now)
    (hinvoke : st.invoke d script = (st', outcome, script'))
    (houtcome : outcome.deadline now = some key) (hahead : deadline ≤ key) :
    e ∈ deadlinesLeft now st ((deadline, d) :: tasks) script ↔
      e ∈ deadlinesLeft now st' (Poller.emplace key d tasks) script' := by
  have hsome : (st.invoke d script).2.1.deadline now = some key := by rw [hinvoke, houtcome]
  rw [mem_deadlinesLeft_cons hdue, newDeadlines_some hsome, hinvoke, mem_deadlinesLeft,
    mem_emplace_keys]
  by_cases hlate : now < key
  · rw [if_pos (.inl hlate), due_emplace hlate, List.mem_cons]
    constructor
    · rintro (he | rfl | he)
      · exact .inl ⟨.inr he.1, he.2⟩
      · exact .inl ⟨.inl rfl, hlate⟩
      · exact .inr he
    · rintro (⟨rfl | he, hafter⟩ | he)
      · exact .inr (.inl rfl)
      · exact .inl ⟨he, hafter⟩
      · exact .inr (.inr he)
  · rw [if_neg (by omega), due_emplace_le (Nat.le_of_not_lt hlate)]
    constructor
    · rintro (he | he)
      · exact .inl ⟨.inr he.1, he.2⟩
      · exact .inr he
    · rintro (⟨rfl | he, hafter⟩ | he)
      · exact absurd hafter hlate
      · exact .inl ⟨he, hafter⟩
      · exact .inr he

end Head

/-- The loop of `flush_delay_tasks` keeps the multimap in order, whatever the sums of
delays wrap to. -/
theorem flushLoop_ordered {now : Nat} (fuel : Nat) {st : DelayState}
    {passed todo : List (Nat × DelayId)} {script : List TaskRun}
    (hord : Ordered (passed ++ todo)) :
    Ordered (flushLoop now fuel st passed todo script).copy := by
  induction fuel generalizing st passed todo script with
  | zero => exact hord
  | succ fuel ih =>
      cases todo with
      | nil =>
          rw [List.append_nil] at hord
          exact hord
      | cons e todo =>
          obtain ⟨deadline, d⟩ := e
          obtain ⟨hpassed, htodo, hbetween⟩ := List.pairwise_append.1 hord
          obtain ⟨hhead, htail⟩ := List.pairwise_cons.1 htodo
          have hskip : Ordered (passed ++ todo) := List.pairwise_append.2
            ⟨hpassed, htail, fun p hp t ht => hbetween p hp t (List.mem_cons_of_mem _ ht)⟩
          rw [flushLoop]
          split
          · dsimp only
            generalize st.invoke d script = res
            obtain ⟨st', outcome, script'⟩ := res
            dsimp only
            cases outcome with
            | throws => exact ih hskip
            | ret n =>
                dsimp only
                split
                · split
                  · next hlt =>
                    -- the new key comes before the iterator
                    refine ih (List.pairwise_append.2 ⟨emplace_ordered hpassed _ _, htail, ?_⟩)
                    intro p hp t ht
                    rcases List.mem_cons.1 ((emplace_perm _ _ _).mem_iff.1 hp) with rfl | hp
                    · exact le_of_lt (lt_of_lt_of_le hlt (hhead t ht))
                    · exact hbetween p hp t (List.mem_cons_of_mem _ ht)
                  · next hge =>
                    refine ih (List.pairwise_append.2 ⟨hpassed, emplace_ordered htail _ _, ?_⟩)
                    intro p hp t ht
                    have hle := hbetween p hp _ List.mem_cons_self
                    rcases List.mem_cons.1 ((emplace_perm _ _ _).mem_iff.1 ht) with rfl | ht
                    · exact hle.trans (Nat.le_of_not_lt hge)
                    · exact hbetween p hp t (List.mem_cons_of_mem _ ht)
                · exact ih hskip
          · exact hord

theorem flushLoop_left {now : Nat} (fuel : Nat) {st : DelayState}
    {passed todo : List (Nat × DelayId)} {script : List TaskRun} (hord : Ordered todo)
    (hfuel : todo.length + script.length ≤ fuel) (key : Nat) :
    key ∈ (flushLoop now fuel st passed todo script).copy.map Prod.fst ↔
      key ∈ passed.map Prod.fst ∨ key ∈ deadlinesLeft now st todo script := by
  induction fuel generalizing st passed todo script with
  | zero =>
      obtain rfl : todo = [] := List.length_eq_zero_iff.1 (by omega)
      simp [flushLoop, deadlinesLeft, due, newDeadlines]
  | succ fuel ih =>
      cases todo with
      | nil => simp [flushLoop, deadlinesLeft, due, newDeadlines]
      | cons e todo =>
          obtain ⟨deadline, d⟩ := e
          obtain ⟨hhead, htail⟩ := List.pairwise_cons.1 hord
          rw [List.length_cons] at hfuel
          rw [flushLoop]
          split
          · next hdue =>
            obtain ⟨hle, hlt⟩ := invoke_length st d script
            obtain ⟨st', outcome, script', hinvoke⟩ :
                ∃ st' outcome script', st.invoke d script = (st', outcome, script') :=
              ⟨_, _, _, rfl⟩
            rw [hinvoke] at hle hlt ⊢
            dsimp only at hle hlt ⊢
            have hdone : outcome.deadline now = none →
                (key ∈ (flushLoop now fuel (st'.finish d) passed todo script').copy.map Prod.fst ↔
                  key ∈ passed.map Prod.fst ∨
                    key ∈ deadlinesLeft now st ((deadline, d) :: todo) script) := by
              intro houtcome
              rw [mem_deadlinesLeft_done hdue hinvoke houtcome, ih htail (by omega),
                deadlinesLeft_finish]
            cases outcome with
            | throws => exact hdone rfl
            | ret n =>
                dsimp only
                split
                · next hpos =>
                  have houtcome : (Outcome.ret n).deadline now = some ((n + now) % 2 ^ 64) :=
                    if_pos hpos
                  have hitem := hlt now _ houtcome
                  split
                  · next hwrap =>
                    rw [mem_deadlinesLeft_passed hdue hinvoke houtcome hwrap,
                      ih htail (by omega), mem_emplace_keys]
                    tauto
                  · next hahead =>
                    have hentries := (emplace_perm ((n + now) % 2 ^ 64) d todo).length_eq
                    rw [List.length_cons] at hentries
                    rw [mem_deadlinesLeft_ahead hdue hinvoke houtcome (Nat.le_of_not_lt hahead)]
                    exact ih (emplace_ordered htail _ _) (by rw [hentries]; omega)
                · next hzero => exact hdone (if_neg hzero)
          · next hlate =>
            have hafter : ∀ e ∈ (deadline, d) :: todo, now < e.1 := by
              intro e he
              rcases List.mem_cons.1 he with rfl | he
              · exact Nat.lt_of_not_le hlate
              · exact lt_of_lt_of_le (Nat.lt_of_not_le hlate) (hhead e he)
            rw [deadlinesLeft_late hafter, List.map_append, List.mem_append]

end DelayState
end CommonLibrary.Poller
