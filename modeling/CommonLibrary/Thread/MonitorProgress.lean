import CommonLibrary.Thread.Monitor

/-!
# Progress of a program with a semaphore

When the threads of a program begin nothing new, the calls of `Post` and `Wait` that they are in
come to an end: all are left but those of `Wait` that find `count_` 0.
-/

namespace CommonLibrary.Thread

open Foundation

/-- `cond_.wait` comes back for no reason. -/
def MonitorAction.isSpurious {τ α : Type} : MonitorAction τ α → Bool
  | spurious _ => true
  | _ => false

namespace Monitor

variable {τ σ α : Type} {P : SemProgram τ σ α} {m m' : Monitor τ σ α} {act : MonitorAction τ α}
  {threads : Finset τ} {t u : τ}

/-- `fresh` tells which actions of the program begin something new.  `todo` bounds the number
of the others that can follow, as long as these are actions of `threads`. -/
structure Settles (P : SemProgram τ σ α) (fresh : α → Bool) (threads : Finset τ) (I : σ → Prop)
    (todo : σ → Nat) : Prop where
  actor : ∀ {s : σ} {a : α}, I s → fresh a = false → P.op s a ≠ none ∨ P.step s a ≠ none →
    P.thread a ∈ threads
  less : ∀ {s s' : σ} {a : α}, I s → fresh a = false → P.step s a = some s' →
    I s' ∧ todo s' + 1 ≤ todo s
  /-- a call that had been begun before -/
  call : ∀ {s s' : σ} {a : α}, I s → fresh a = true → P.op s a ≠ none → P.step s a = some s' →
    I s' ∧ todo s' ≤ todo s

def Quiet (fresh : α → Bool) (_ : Monitor τ σ α) : MonitorAction τ α → Prop
  | .own a | .call a => fresh a = false
  | _ => True

/-- The steps that a thread at this point may take before it needs one of the program. -/
def cost (fresh : α → Bool) (n : Nat) : SemPc α → Nat
  | .out => 3
  | .lock a _ => 2 + if fresh a then 2 * n + 5 else 0
  | .locked a _ => 1 + if fresh a then 2 * n + 5 else 0
  | .notify _ => 2 * n + 5
  | .asleep a => if fresh a then 2 * n + 5 else 0
  | .unlock => 4

/-- A bound on the number of steps, if nothing new is begun. -/
def stepsLeft (fresh : α → Bool) (threads : Finset τ) (todo : σ → Nat) (m : Monitor τ σ α) : Nat :=
  (2 * threads.card + 5) * todo m.base + weight threads (cost fresh threads.card) m.pc

variable [DecidableEq τ] {fresh : α → Bool} {I : σ → Prop} {todo : σ → Nat}

theorem cost_wakened_le (fresh : α → Bool) (n : Nat) (pc : SemPc α) :
    cost fresh n pc.wakened ≤ cost fresh n pc + 2 := by
  cases pc with
  | asleep a =>
      show 2 + (if fresh a then 2 * n + 5 else 0) ≤ (if fresh a then 2 * n + 5 else 0) + 2
      omega
  | _ => exact Nat.le_add_right _ _

theorem cost_goTo (fresh : α → Bool) (ht : t ∈ threads) (pc : SemPc α) (n : Nat) :
    weight threads (cost fresh n) (m.goTo t pc).pc + cost fresh n (m.pc t) =
      weight threads (cost fresh n) m.pc + cost fresh n pc := weight_update _ _ _ ht

theorem cost_wake (fresh : α → Bool) (h : Ok P threads m) (ht : t ∈ m.waiters) (n : Nat) :
    weight threads (cost fresh n) (m.wake t).pc ≤ weight threads (cost fresh n) m.pc + 2 := by
  have hasleep := (h.waiters t).1 ht
  have hin : t ∈ threads := by
    apply h.mem
    rintro hout
    rw [hout] at hasleep
    cases hasleep
  have hsum := cost_goTo (m := m) fresh hin (m.pc t).wakened n
  have hone := cost_wakened_le fresh n (m.pc t)
  show weight threads (cost fresh n) (m.goTo t (m.pc t).wakened).pc ≤ _
  omega

omit [DecidableEq τ] in
theorem Ok.call_keeps (h : Ok P threads m) (hset : Settles P fresh threads I todo) (hI : I m.base)
    {a : α} {op : SemOp} {s : σ} (hpc : m.pc t = .locked a op) (hs : P.step m.base a = some s) :
    I s ∧ (2 * threads.card + 5) * todo s + (2 * threads.card + 5) ≤
      (2 * threads.card + 5) * todo m.base + if fresh a then 2 * threads.card + 5 else 0 := by
  have hat := h.inside t
  rw [hpc] at hat
  cases hfresh : fresh a with
  | true =>
      obtain ⟨hI', hle⟩ := hset.call hI hfresh (hat.2 ▸ Option.some_ne_none op) hs
      exact ⟨hI', Nat.add_le_add_right (Nat.mul_le_mul_left _ hle) _⟩
  | false =>
      obtain ⟨hI', hle⟩ := hset.less hI hfresh hs
      exact ⟨hI', Nat.mul_le_mul_left (2 * threads.card + 5) hle⟩

omit [DecidableEq τ] in
theorem Ok.mem_of_pc (h : Ok P threads m) {pc : SemPc α} (hpc : m.pc t = pc) (hne : pc ≠ .out) :
    t ∈ threads := h.mem (hpc ▸ hne)

theorem Stepped.mem (hstep : Stepped P m act m') (h : Ok P threads m)
    (hset : Settles P fresh threads I todo) (hI : I m.base) (hquiet : Quiet fresh m act) :
    act.who P ∈ threads := by
  cases hstep with
  | own hop hout hs => exact hset.actor hI hquiet (.inr (hs ▸ Option.some_ne_none _))
  | call hop hout => exact hset.actor hI hquiet (.inl (hop ▸ Option.some_ne_none _))
  | lock hpc hfree => exact h.mem_of_pc hpc nofun
  | post hpc hs => exact h.mem_of_pc hpc nofun
  | sleep hpc hzero => exact h.mem_of_pc hpc nofun
  | pass hpc hs => exact h.mem_of_pc hpc nofun
  | notifyNobody hpc hempty => exact h.mem_of_pc hpc nofun
  | notifyOne hpc hu => exact h.mem_of_pc hpc nofun
  | notifyAll hpc hn => exact h.mem_of_pc hpc nofun
  | unlock hpc => exact h.mem_of_pc hpc nofun
  | @spurious t ht =>
      have hasleep := (h.waiters t).1 ht
      apply h.mem (t := t)
      intro hout
      rw [hout] at hasleep
      cases hasleep

theorem stepsLeft_goTo (ht : t ∈ threads) {p q : SemPc α} (hpc : m.pc t = p) {s s₁ : σ}
    {n k : Nat}
    (hcost : n * todo s + cost fresh threads.card q + 1 ≤
      n * todo s₁ + cost fresh threads.card p + k) :
    n * todo s + weight threads (cost fresh threads.card) (m.goTo t q).pc + 1 ≤
      n * todo s₁ + weight threads (cost fresh threads.card) m.pc + k := by
  have hsum := cost_goTo (m := m) fresh ht q threads.card
  rw [hpc] at hsum
  omega

/-- Those that are woken up cost no more than the thread that notifies them has saved. -/
theorem stepsLeft_notified (ht : t ∈ threads) {n k : Nat} (hpc : m'.pc t = .notify n)
    (hwoken : weight threads (cost fresh threads.card) m'.pc ≤
      weight threads (cost fresh threads.card) m.pc + 2 * threads.card) :
    k + weight threads (cost fresh threads.card) (m'.goTo t .unlock).pc + 1 ≤
      k + weight threads (cost fresh threads.card) m.pc := by
  have hsum := cost_goTo (m := m') fresh ht .unlock threads.card
  rw [hpc] at hsum
  dsimp only [cost] at hsum
  omega

theorem Stepped.descends (hstep : Stepped P m act m') (h : Ok P threads m)
    (hset : Settles P fresh threads I todo) (hI : I m.base) (hquiet : Quiet fresh m act) :
    I m'.base ∧ stepsLeft fresh threads todo m' + 1 ≤
      stepsLeft fresh threads todo m + if act.isSpurious then 3 else 0 := by
  have hmem := hstep.mem h hset hI hquiet
  cases hstep with
  | own hop hout hs =>
      obtain ⟨hI', hless⟩ := hset.less hI hquiet hs
      have hmul := Nat.mul_le_mul_left (2 * threads.card + 5) hless
      rw [Nat.mul_add] at hmul
      refine ⟨hI', ?_⟩
      unfold stepsLeft
      dsimp only
      omega
  | @call a op hop hout =>
      have hfresh : fresh a = false := hquiet
      refine ⟨hI, stepsLeft_goTo hmem hout ?_⟩
      dsimp only [cost, goTo]
      rw [hfresh, if_neg Bool.false_ne_true]
      omega
  | lock hpc hfree =>
      refine ⟨hI, stepsLeft_goTo hmem hpc ?_⟩
      dsimp only [cost, goTo]
      omega
  | post hpc hs =>
      obtain ⟨hI', hbase⟩ := h.call_keeps hset hI hpc hs
      refine ⟨hI', stepsLeft_goTo hmem hpc ?_⟩
      dsimp only [cost, goTo]
      omega
  | sleep hpc hzero =>
      refine ⟨hI, stepsLeft_goTo hmem hpc ?_⟩
      dsimp only [cost, goTo]
      omega
  | pass hpc hs =>
      obtain ⟨hI', hbase⟩ := h.call_keeps hset hI hpc hs
      refine ⟨hI', stepsLeft_goTo hmem hpc ?_⟩
      dsimp only [cost, goTo]
      omega
  | notifyNobody hpc hempty =>
      refine ⟨hI, stepsLeft_goTo hmem hpc ?_⟩
      dsimp only [cost, goTo]
      omega
  | @notifyOne t u hpc hu =>
      have hsame : (m.wake u).pc t = .notify 1 := by
        rw [← hpc]
        apply Function.update_of_ne
        rintro rfl
        have hasleep := (h.waiters t).1 hu
        rw [hpc] at hasleep
        cases hasleep
      have hwake := cost_wake fresh h hu threads.card
      have hcard : 0 < threads.card := Finset.card_pos.2 ⟨t, hmem⟩
      refine ⟨hI, stepsLeft_notified hmem hsame ?_⟩
      omega
  | @notifyAll t n woken hpc hn =>
      have hsame : m.notifyAll.pc t = .notify n := congrArg SemPc.wakened hpc
      exact ⟨hI, stepsLeft_notified hmem hsame (weight_le_add fun u _ => cost_wakened_le _ _ _)⟩
  | unlock hpc =>
      refine ⟨hI, stepsLeft_goTo hmem hpc ?_⟩
      dsimp only [cost, goTo]
      omega
  | spurious ht =>
      have hwake := cost_wake fresh h ht threads.card
      refine ⟨hI, ?_⟩
      show (2 * threads.card + 5) * todo m.base + _ + 1 ≤ _ + 3
      unfold stepsLeft
      omega

theorem quiet_run_length {acts : List (MonitorAction τ α)}
    (hrun : Run (step P) (Quiet fresh) m acts m') (h : Ok P threads m)
    (hset : Settles P fresh threads I todo) (hI : I m.base) :
    (Ok P threads m' ∧ I m'.base) ∧
      acts.length ≤ stepsLeft fresh threads todo m + 3 * acts.countP MonitorAction.isSpurious := by
  have hstep : ∀ m act m', (Ok P threads m ∧ I m.base) → Quiet fresh m act →
      step P m act = some m' → (Ok P threads m' ∧ I m'.base) ∧
        stepsLeft fresh threads todo m' + 1 ≤
          stepsLeft fresh threads todo m + if act.isSpurious then 3 else 0 := by
    rintro m act m' ⟨h, hI⟩ hquiet htaken
    have hstepped := step_stepped htaken
    obtain ⟨hI', hless⟩ := hstepped.descends h hset hI hquiet
    exact ⟨⟨hstepped.ok h (hstepped.mem h hset hI hquiet), hI'⟩, hless⟩
  refine ⟨hrun.invariant (fun m act m' h hq hs => (hstep m act m' h hq hs).1) ⟨h, hI⟩, ?_⟩
  have hlength := hrun.length_le hstep ⟨h, hI⟩
  omega

/-- Nobody can take a step, unless something new is begun or a blocked thread wakes up for no
reason. -/
def Stuck (P : SemProgram τ σ α) (fresh : α → Bool) (m : Monitor τ σ α) : Prop :=
  ∀ act, Quiet fresh m act → act.isSpurious = false → step P m act = none

theorem countStep_isSome {a : α} {op : SemOp} (hpc : m.pc t = .locked a op)
    (hop : P.op m.base a = some op) : (m.countStep P t).isSome := by
  have hsem := P.call hop
  unfold countStep
  rw [hpc]
  cases op with
  | post n =>
      dsimp only
      rw [Option.isSome_map, ← Option.isSome_map (f := P.sem), hsem]
      rfl
  | wait =>
      dsimp only
      split
      · rfl
      · next hcount =>
        rw [Option.isSome_map, ← Option.isSome_map (f := P.sem), hsem]
        dsimp only [SemOp.run]
        rw [Semaphore.wait, if_neg hcount]
        rfl

theorem notify_isSome {n : Nat} (hpc : m.pc t = .notify n) :
    ∃ woken, (step P m (.notify t woken)).isSome := by
  by_cases hn : n = 1
  · cases hwaiters : m.waiters with
    | nil =>
        refine ⟨none, ?_⟩
        simp only [step, hpc, if_pos hn, notifyOne, if_pos hwaiters]
        rfl
    | cons u waiters =>
        refine ⟨some u, ?_⟩
        have hu : u ∈ m.waiters := hwaiters ▸ List.mem_cons_self
        simp only [step, hpc, if_pos hn, notifyOne, if_pos hu]
        rfl
  · refine ⟨none, ?_⟩
    simp only [step, hpc, if_neg hn]
    rfl

theorem Stuck.unowned (hstuck : Stuck P fresh m) (h : Ok P threads m) : m.owner = none := by
  cases howner : m.owner with
  | none => rfl
  | some t =>
      have hholds := (h.owner t).1 howner
      have hat := h.inside t
      cases hpc : m.pc t with
      | locked a op =>
          rw [hpc] at hat
          have hsome := countStep_isSome hpc hat.2
          have hnone : m.countStep P t = none := hstuck (.count t) trivial rfl
          rw [hnone] at hsome
          cases hsome
      | notify n =>
          obtain ⟨woken, hsome⟩ := notify_isSome (P := P) hpc
          rw [hstuck (.notify t woken) trivial rfl] at hsome
          cases hsome
      | unlock =>
          have hnone := hstuck (.unlock t) trivial rfl
          simp only [step, hpc] at hnone
          cases hnone
      | out | lock _ _ | asleep _ =>
          rw [hpc] at hholds
          cases hholds

/-- Where nobody can take a step, every thread is out of the semaphore or blocked at 0, and the
program itself cannot take a step without it. -/
theorem Stuck.settled (hstuck : Stuck P fresh m) (h : Ok P threads m) :
    (∀ t, m.pc t = .out ∨
      ∃ a, m.pc t = .asleep a ∧ P.thread a = t ∧ P.op m.base a = some .wait ∧
        (P.sem m.base).count = 0) ∧
      ∀ a, fresh a = false → m.pc (P.thread a) = .out →
        P.op m.base a = none ∧ P.step m.base a = none := by
  have howner := hstuck.unowned h
  have hplaces : ∀ t, m.pc t = .out ∨ ∃ a, m.pc t = .asleep a := by
    intro t
    have hnot : ¬ (m.pc t).holds := by
      rw [← h.owner t, howner]
      exact Option.some_ne_none t ∘ Eq.symm
    cases hpc : m.pc t with
    | out => exact .inl rfl
    | asleep a => exact .inr ⟨a, rfl⟩
    | lock a op =>
        have hnone := hstuck (.lock t) trivial rfl
        simp only [step, hpc, howner] at hnone
        cases hnone
    | locked _ _ | notify _ | unlock =>
        rw [hpc] at hnot
        exact absurd rfl hnot
  have hzero : m.waiters ≠ [] → (P.sem m.base).count = 0 := by
    intro hne
    have hle := h.noLoss hne
    by_contra hcount
    have hpos : 0 < weight threads SemPc.coming m.pc := by omega
    obtain ⟨t, -, hcoming⟩ := exists_of_weight_pos hpos
    rcases hplaces t with hpc | ⟨a, hpc⟩
    · rw [hpc] at hcoming
      exact absurd hcoming (Nat.lt_irrefl 0)
    · rw [hpc] at hcoming
      exact absurd hcoming (Nat.lt_irrefl 0)
  refine ⟨fun t => ?_, fun a hfresh hout => ?_⟩
  · rcases hplaces t with hpc | ⟨a, hpc⟩
    · exact .inl hpc
    · have hat := h.inside t
      have hin : t ∈ m.waiters := by
        rw [h.waiters t, hpc]
        rfl
      rw [hpc] at hat
      exact .inr ⟨a, hpc, hat.1, hat.2, hzero (List.ne_nil_of_mem hin)⟩
  · have hop : P.op m.base a = none := by
      cases hop : P.op m.base a with
      | none => rfl
      | some op =>
          have hnone := hstuck (.call a) hfresh rfl
          rw [step, hout, hop] at hnone
          cases hnone
    have hnone := hstuck (.own a) hfresh rfl
    rw [step, if_pos ⟨hop, by rw [hout]; rfl⟩, Option.map_eq_none_iff] at hnone
    exact ⟨hop, hnone⟩

theorem stuck_of_settled (hplaces : ∀ t, m.pc t = .out ∨ ∃ a, m.pc t = .asleep a)
    (hcan : ∀ a, fresh a = false → m.pc (P.thread a) = .out →
      P.op m.base a = none ∧ P.step m.base a = none) : Stuck P fresh m := by
  intro act hquiet hspurious
  have hnot : ∀ t, (m.pc t).isOut = false → (m.pc t).isAsleep = true := by
    intro t hin
    rcases hplaces t with hout | ⟨a, hasleep⟩
    · rw [hout] at hin
      cases hin
    · rw [hasleep]
      rfl
  have hplace : ∀ {t pc}, m.pc t = pc → pc.isOut = false → pc.isAsleep = true := by
    rintro t _ rfl
    exact hnot t
  cases htaken : step P m act with
  | none => rfl
  | some m' =>
      exfalso
      cases step_stepped htaken with
      | @own a s hop hout hs =>
          have hnone := (hcan a hquiet hout).2
          cases hs.symm.trans hnone
      | @call a op hop hout =>
          have hnone := (hcan a hquiet hout).1
          cases hop.symm.trans hnone
      | lock hpc hfree => cases hplace hpc rfl
      | post hpc hs => cases hplace hpc rfl
      | sleep hpc hzero => cases hplace hpc rfl
      | pass hpc hs => cases hplace hpc rfl
      | notifyNobody hpc hempty => cases hplace hpc rfl
      | notifyOne hpc hu => cases hplace hpc rfl
      | notifyAll hpc hn => cases hplace hpc rfl
      | unlock hpc => cases hplace hpc rfl
      | spurious ht => cases hspurious

end Monitor

end CommonLibrary.Thread
