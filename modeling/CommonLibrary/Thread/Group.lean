import CommonLibrary.Foundation.Run
import Mathlib.Data.List.Basic
import Mathlib.Logic.Function.Basic

/-!
# Thread groups

`ThreadGroup` keeps its threads in `threads_`, under the ids that they had when they were
created, and the id of the last one in `thread_id_`.  A `std::thread` has an id only as long
as it is joinable, and the id of a thread that has ended may be given to another one.
-/

namespace CommonLibrary.Thread

open Foundation

/-- The number of a thread in the system. -/
abbrev Tid := Nat

/-- `std::thread` objects are numbered in the order in which they are made. -/
abbrev ThreadNum := Nat

structure StdThread where
  native : Tid
  joinable : Bool := true

/-- `get_id()`; `none` is the default id. -/
def StdThread.getId (t : StdThread) : Option Tid := if t.joinable then some t.native else none

/-- The thread that runs under an id. -/
inductive Runner where
  /-- the thread of an object that `CreateThread` has made -/
  | created (n : ThreadNum)
  | outside
  deriving DecidableEq

structure ThreadGroup where
  /-- `threads_`, with the numbers of the objects -/
  threads : List (Option Tid × ThreadNum) := []
  threadId : Option Tid := none
  /-- the objects, also those that are no longer there -/
  objects : List StdThread := []
  /-- the objects that `JoinAll` has not come to yet, while it is under way -/
  joining : Option (List ThreadNum) := none
  running : Tid → Option Runner := fun _ => none
  /-- History: the threads created and since then neither removed nor cleared. -/
  members : List ThreadNum := []

inductive GroupAction where
  /-- `CreateThread`; the system gives the new thread the id `tid` -/
  | createThread (tid : Tid)
  | removeThread (n : ThreadNum)
  /-- `join` through the pointer that `CreateThread` has returned -/
  | join (n : ThreadNum)
  | detach (n : ThreadNum)
  /-- the thread that runs under `tid` ends -/
  | ends (tid : Tid)
  /-- a thread that the group has not created starts -/
  | outsideStarts (tid : Tid)
  /-- `JoinAll` is called -/
  | joinAll (caller : Tid)
  /-- its loop is done with one object -/
  | joinNext (n : ThreadNum)
  /-- it is done with all, and clears `threads_` -/
  | joinDone

namespace ThreadGroup

/-! ## The code -/

/-- The system may give `tid` to a new thread. -/
def Free (g : ThreadGroup) (tid : Tid) : Prop :=
  g.running tid = none ∧ ∀ t ∈ g.objects, t.joinable = true → t.native ≠ tid

instance (g : ThreadGroup) (tid : Tid) : Decidable (g.Free tid) :=
  inferInstanceAs (Decidable (_ ∧ _))

def keys (g : ThreadGroup) : List (Option Tid) := g.threads.map Prod.fst

/-- The objects that `threads_` owns; to these the pointers are valid. -/
def owned (g : ThreadGroup) : List ThreadNum := g.threads.map Prod.snd

def joinable (g : ThreadGroup) (n : ThreadNum) : Bool :=
  g.objects[n]?.any StdThread.joinable

def release (g : ThreadGroup) (n : ThreadNum) : ThreadGroup :=
  { g with objects := g.objects.modify n fun t => { t with joinable := false } }

def assign (threads : List (Option Tid × ThreadNum)) (key : Option Tid) (n : ThreadNum) :
    List (Option Tid × ThreadNum) :=
  if key ∈ threads.map Prod.fst then threads.map fun e => if e.1 = key then (key, n) else e
  else threads ++ [(key, n)]

/-- An object that was in `threads_` under the same id is not joinable, since `tid` is free. -/
def createThread (g : ThreadGroup) (tid : Tid) : ThreadGroup :=
  { g with
    threads := assign g.threads (some tid) g.objects.length
    threadId := some tid
    objects := g.objects ++ [{ native := tid }]
    running := Function.update g.running tid (some (.created g.objects.length))
    members := g.members ++ [g.objects.length] }

/-- `none`: a joinable thread is destroyed, which terminates the program. -/
def removeThread (g : ThreadGroup) (n : ThreadNum) : Option ThreadGroup :=
  g.objects[n]?.bind fun t =>
    if g.threads.any fun e => e.1 = t.getId && g.joinable e.2 then none
    else
      some { g with
        threads := g.threads.filter fun e => e.1 ≠ t.getId
        members := g.members.erase n }

/-- `join` returns when the thread has ended. -/
def join (g : ThreadGroup) (n : ThreadNum) : Option ThreadGroup :=
  g.objects[n]?.bind fun t =>
    if t.joinable = true ∧ g.running t.native ≠ some (.created n) then some (g.release n)
    else none

def detach (g : ThreadGroup) (n : ThreadNum) : Option ThreadGroup :=
  if g.joinable n then some (g.release n) else none

def isSelfThreadIn (g : ThreadGroup) (self : Tid) : Bool :=
  g.threadId = some self || g.keys.contains (some self)

def size (g : ThreadGroup) : Nat := g.threads.length

/-- How `JoinAll` begins. -/
def joinAll (g : ThreadGroup) (self : Tid) : Except String ThreadGroup :=
  if g.isSelfThreadIn self then .error "thread_group: trying joining itself"
  else .ok { g with joining := some g.owned }

def joinNext (g : ThreadGroup) (n : ThreadNum) : Option ThreadGroup :=
  g.joining.bind fun rest =>
    if n ∈ rest then
      (if g.joinable n then g.join n else some g).map fun g =>
        { g with joining := some (rest.erase n) }
    else none

def clear (g : ThreadGroup) : ThreadGroup :=
  { g with threads := [], joining := none, members := [] }

/-- While `JoinAll` is under way, nobody else calls the group. -/
def step (g : ThreadGroup) : GroupAction → Option ThreadGroup
  | .createThread tid =>
      if g.joining = none ∧ g.Free tid then some (g.createThread tid) else none
  | .removeThread n => if g.joining = none ∧ n ∈ g.owned then g.removeThread n else none
  | .join n => if n ∈ g.owned then g.join n else none
  | .detach n => if n ∈ g.owned then g.detach n else none
  | .ends tid =>
      if (g.running tid).isSome then
        some { g with running := Function.update g.running tid none }
      else none
  | .outsideStarts tid =>
      if g.Free tid then
        some { g with running := Function.update g.running tid (some .outside) }
      else none
  | .joinAll caller =>
      if g.joining = none ∧ (g.running caller).isSome then
        match g.joinAll caller with
        | .error _ => some g
        | .ok g => some g
      else none
  | .joinNext n => g.joinNext n
  | .joinDone => if g.joining = some [] then some g.clear else none

/-! ## Membership -/

/-- The group knows its members: it counts them right, and takes a thread that runs for one of
them, also in `JoinAll`, exactly if it is. -/
structure Exact (g : ThreadGroup) : Prop where
  size : g.size = g.members.length
  isSelfThreadIn : ∀ tid r, g.running tid = some r →
    (g.isSelfThreadIn tid = true ↔ ∃ n ∈ g.members, r = .created n)
  joinAll : ∀ tid r e, g.running tid = some r → g.joinAll tid = .error e →
    ∃ n ∈ g.members, r = .created n

/-- The steps that the group can follow: no member is removed, no new thread gets an id that is
still a key of `threads_`, none from outside the id in `thread_id_`, and the thread created last
has ended when `JoinAll` clears `threads_`. -/
def Keeps (g : ThreadGroup) : GroupAction → Prop
  | .createThread tid => some tid ∉ g.keys
  | .removeThread n => n ∉ g.members
  | .outsideStarts tid => some tid ∉ g.keys ∧ g.threadId ≠ some tid
  | .joinDone => ∀ tid, g.threadId = some tid → g.running tid = none
  | _ => True

/-! ## The invariant -/

variable {g g' : ThreadGroup} {n : ThreadNum} {tid : Tid}

def natives (g : ThreadGroup) : List Tid := g.objects.map StdThread.native

structure Good (g : ThreadGroup) : Prop where
  owned : g.owned = g.members
  /-- the keys are the ids of the threads -/
  keyed : ∀ e ∈ g.threads, ∃ tid, e.1 = some tid ∧ g.natives[e.2]? = some tid
  created : ∀ tid n, g.running tid = some (.created n) → g.natives[n]? = some tid
  /-- nobody else runs under a key -/
  own : ∀ tid n, (some tid, n) ∈ g.threads →
    g.running tid = none ∨ g.running tid = some (.created n)
  last : ∀ tid, g.threadId = some tid → g.running tid = none ∨ some tid ∈ g.keys

theorem init_good : ({} : ThreadGroup).Good where
  owned := rfl
  keyed := fun _ he => by cases he
  created := fun _ _ hrun => by cases hrun
  own := fun _ _ he => by cases he
  last := fun _ hlast => by cases hlast

theorem mem_keys_iff : some tid ∈ g.keys ↔ ∃ n, (some tid, n) ∈ g.threads := by
  rw [keys, List.mem_map]
  constructor
  · rintro ⟨⟨key, n⟩, he, rfl⟩
    exact ⟨n, he⟩
  · exact fun ⟨n, he⟩ => ⟨_, he, rfl⟩

theorem mem_owned_iff : n ∈ g.owned ↔ ∃ key, (key, n) ∈ g.threads := by
  rw [owned, List.mem_map]
  constructor
  · rintro ⟨⟨key, n⟩, he, rfl⟩
    exact ⟨key, he⟩
  · exact fun ⟨key, he⟩ => ⟨_, he, rfl⟩

theorem isSelfThreadIn_iff :
    g.isSelfThreadIn tid = true ↔ g.threadId = some tid ∨ some tid ∈ g.keys := by
  rw [isSelfThreadIn, Bool.or_eq_true, decide_eq_true_iff, List.contains_iff_mem]

theorem joinAll_eq_error_iff {e : String} (h : g.joinAll tid = .error e) :
    g.isSelfThreadIn tid = true := by
  rw [joinAll] at h
  split at h
  · next hin => exact hin
  · cases h

theorem Good.exact (h : g.Good) : g.Exact := by
  have hself : ∀ tid r, g.running tid = some r →
      (g.isSelfThreadIn tid = true ↔ ∃ n ∈ g.members, r = .created n) := by
    intro tid r hrun
    rw [isSelfThreadIn_iff]
    constructor
    · intro hin
      have hkey : some tid ∈ g.keys := by
        rcases hin with hlast | hkey
        · apply (h.last tid hlast).resolve_left
          rw [hrun]
          exact Option.some_ne_none r
        · exact hkey
      obtain ⟨n, he⟩ := mem_keys_iff.1 hkey
      refine ⟨n, ?_, ?_⟩
      · rw [← h.owned]
        exact mem_owned_iff.2 ⟨_, he⟩
      · rcases h.own tid n he with hnone | hown
        · cases hrun.symm.trans hnone
        · exact Option.some.inj (hrun.symm.trans hown)
    · rintro ⟨n, hn, rfl⟩
      rw [← h.owned] at hn
      obtain ⟨key, he⟩ := mem_owned_iff.1 hn
      obtain ⟨tid', rfl, hnative⟩ := h.keyed _ he
      obtain rfl : tid = tid' := Option.some.inj ((h.created tid n hrun).symm.trans hnative)
      exact .inr (mem_keys_iff.2 ⟨n, he⟩)
  constructor
  · calc g.size = g.owned.length := (List.length_map _).symm
      _ = g.members.length := congrArg List.length h.owned
  · exact hself
  · intro tid r e hrun herror
    exact (hself tid r hrun).1 (joinAll_eq_error_iff herror)

/-- Steps that leave the group alone, and after which at most fewer threads run. -/
theorem Good.of_same (h : g.Good) (hthreads : g'.threads = g.threads)
    (hmembers : g'.members = g.members) (hlast : g'.threadId = g.threadId)
    (hnatives : g'.natives = g.natives)
    (hrunning : ∀ tid, g'.running tid = g.running tid ∨ g'.running tid = none) : g'.Good := by
  constructor
  · rw [ThreadGroup.owned, hthreads, hmembers]
    exact h.owned
  · rw [hthreads, hnatives]
    exact h.keyed
  · intro tid n hrun
    rw [hnatives]
    rcases hrunning tid with hsame | hnone
    · exact h.created tid n (hsame.symm.trans hrun)
    · cases hnone.symm.trans hrun
  · intro tid n he
    rw [hthreads] at he
    rcases hrunning tid with hsame | hnone
    · rw [hsame]
      exact h.own tid n he
    · exact .inl hnone
  · intro tid htid
    rw [hlast] at htid
    rw [keys, hthreads]
    rcases hrunning tid with hsame | hnone
    · rw [hsame]
      exact h.last tid htid
    · exact .inl hnone

theorem natives_release (g : ThreadGroup) (n : ThreadNum) : (g.release n).natives = g.natives := by
  apply List.ext_getElem?
  intro m
  rw [natives, natives, List.getElem?_map, List.getElem?_map, release, List.getElem?_modify]
  cases g.objects[m]? with
  | none => rfl
  | some t => by_cases hm : n = m <;> simp [hm]

theorem Good.release (h : g.Good) (n : ThreadNum) : (g.release n).Good :=
  h.of_same rfl rfl rfl (natives_release g n) fun _ => .inl rfl

theorem join_eq_some (h : g.join n = some g') : g' = g.release n := by
  obtain ⟨t, -, hjoin⟩ := Option.bind_eq_some_iff.1 h
  exact (Option.some.inj (Option.ite_none_right_eq_some.1 hjoin).2).symm

theorem detach_eq_some (h : g.detach n = some g') : g' = g.release n :=
  (Option.some.inj (Option.ite_none_right_eq_some.1 h).2).symm

theorem joinAll_good (h : g.Good) (hok : g.joinAll tid = .ok g') : g'.Good := by
  rw [joinAll] at hok
  split at hok
  · cases hok
  · cases hok
    exact h.of_same rfl rfl rfl rfl fun _ => .inl rfl

theorem joinNext_good (h : g.Good) (hnext : g.joinNext n = some g') : g'.Good := by
  obtain ⟨rest, -, hloop⟩ := Option.bind_eq_some_iff.1 hnext
  obtain ⟨-, hdone⟩ := Option.ite_none_right_eq_some.1 hloop
  obtain ⟨g₁, hjoin, rfl⟩ := Option.map_eq_some_iff.1 hdone
  have hgood : g₁.Good := by
    split at hjoin
    · rw [join_eq_some hjoin]
      exact h.release n
    · cases hjoin
      exact h
  exact hgood.of_same rfl rfl rfl rfl fun _ => .inl rfl

theorem createThread_good (h : g.Good) (hkey : some tid ∉ g.keys) : (g.createThread tid).Good := by
  have hthreads : (g.createThread tid).threads = g.threads ++ [(some tid, g.objects.length)] :=
    if_neg hkey
  have hnatives : (g.createThread tid).natives = g.natives ++ [tid] := List.map_append
  have hlength : g.natives.length = g.objects.length := List.length_map _
  have hkept : ∀ (m : ThreadNum) t, g.natives[m]? = some t →
      (g.createThread tid).natives[m]? = some t := by
    intro m t hm
    obtain ⟨hlt, -⟩ := List.getElem?_eq_some_iff.1 hm
    rw [hnatives, List.getElem?_append_left hlt, hm]
  have hnew : (g.createThread tid).natives[g.objects.length]? = some tid := by
    rw [hnatives, ← hlength, List.getElem?_concat_length]
  have hother : ∀ t, t ≠ tid → (g.createThread tid).running t = g.running t :=
    fun t ht => Function.update_of_ne ht _ _
  have hself : (g.createThread tid).running tid = some (.created g.objects.length) :=
    Function.update_self _ _ _
  constructor
  · rw [owned, hthreads, List.map_append]
    exact congrArg (· ++ [g.objects.length]) h.owned
  · intro e he
    rw [hthreads, List.mem_append, List.mem_singleton] at he
    rcases he with he | rfl
    · obtain ⟨t, htid, hnative⟩ := h.keyed e he
      exact ⟨t, htid, hkept _ t hnative⟩
    · exact ⟨tid, rfl, hnew⟩
  · intro t n hrun
    by_cases ht : t = tid
    · rw [ht] at hrun ⊢
      cases hself.symm.trans hrun
      exact hnew
    · rw [hother t ht] at hrun
      exact hkept n t (h.created t n hrun)
  · intro t n he
    rw [hthreads, List.mem_append, List.mem_singleton] at he
    rcases he with he | he
    · have ht : t ≠ tid := by
        rintro rfl
        exact hkey (mem_keys_iff.2 ⟨n, he⟩)
      rw [hother t ht]
      exact h.own t n he
    · cases he
      exact .inr hself
  · intro t ht
    cases ht
    refine .inr (mem_keys_iff.2 ⟨g.objects.length, ?_⟩)
    rw [hthreads]
    exact List.mem_append_right _ (List.mem_singleton_self _)

theorem outsideStarts_good (h : g.Good) (hkey : some tid ∉ g.keys) (hlast : g.threadId ≠ some tid) :
    ({ g with running := Function.update g.running tid (some .outside) } : ThreadGroup).Good := by
  have hother : ∀ t, t ≠ tid →
      Function.update g.running tid (some .outside) t = g.running t :=
    fun t ht => Function.update_of_ne ht _ _
  refine ⟨h.owned, h.keyed, ?_, ?_, ?_⟩
  · intro t n hrun
    dsimp only at hrun
    by_cases ht : t = tid
    · rw [ht, Function.update_self] at hrun
      cases hrun
    · rw [hother t ht] at hrun
      exact h.created t n hrun
  · intro t n he
    have ht : t ≠ tid := by
      rintro rfl
      exact hkey (mem_keys_iff.2 ⟨n, he⟩)
    dsimp only
    rw [hother t ht]
    exact h.own t n he
  · intro t ht
    have hne : t ≠ tid := by
      rintro rfl
      exact hlast ht
    dsimp only
    rw [hother t hne]
    exact h.last t ht

theorem clear_good (h : g.Good) (hlast : ∀ tid, g.threadId = some tid → g.running tid = none) :
    g.clear.Good where
  owned := rfl
  keyed := fun _ he => by cases he
  created := h.created
  own := fun _ _ he => by cases he
  last := fun tid htid => .inl (hlast tid htid)

theorem step_good (h : g.Good) {a : GroupAction} (hkeeps : g.Keeps a)
    (hstep : g.step a = some g') : g'.Good := by
  cases a with
  | createThread tid =>
      obtain ⟨-, hdone⟩ := Option.ite_none_right_eq_some.1 hstep
      cases hdone
      exact createThread_good h hkeeps
  | removeThread n =>
      obtain ⟨⟨-, hvalid⟩, -⟩ := Option.ite_none_right_eq_some.1 hstep
      rw [h.owned] at hvalid
      exact absurd hvalid hkeeps
  | join n =>
      obtain ⟨-, hjoin⟩ := Option.ite_none_right_eq_some.1 hstep
      rw [join_eq_some hjoin]
      exact h.release n
  | detach n =>
      obtain ⟨-, hdetach⟩ := Option.ite_none_right_eq_some.1 hstep
      rw [detach_eq_some hdetach]
      exact h.release n
  | ends tid =>
      obtain ⟨-, hdone⟩ := Option.ite_none_right_eq_some.1 hstep
      cases hdone
      refine h.of_same rfl rfl rfl rfl fun t => ?_
      dsimp only
      rw [Function.update_apply]
      split
      · exact .inr rfl
      · exact .inl rfl
  | outsideStarts tid =>
      obtain ⟨-, hdone⟩ := Option.ite_none_right_eq_some.1 hstep
      cases hdone
      exact outsideStarts_good h hkeeps.1 hkeeps.2
  | joinAll caller =>
      obtain ⟨-, hcall⟩ := Option.ite_none_right_eq_some.1 hstep
      split at hcall
      · cases hcall
        exact h
      · next hok =>
        cases hcall
        exact joinAll_good h hok
  | joinNext n => exact joinNext_good h hstep
  | joinDone =>
      obtain ⟨-, hdone⟩ := Option.ite_none_right_eq_some.1 hstep
      cases hdone
      exact clear_good h hkeeps

theorem length_assign_of_mem {threads : List (Option Tid × ThreadNum)} {key : Option Tid}
    (hkey : key ∈ threads.map Prod.fst) (n : ThreadNum) :
    (assign threads key n).length = threads.length := by
  rw [assign, if_pos hkey, List.length_map]

/-- `RemoveThread` removes nothing: the object is not joinable, and no key is the default id. -/
theorem removeThread_threads (h : g.Good) (hn : n ∈ g.owned)
    (hremove : g.removeThread n = some g') :
    g'.threads = g.threads ∧ g'.members = g.members.erase n := by
  obtain ⟨t, ht, hend⟩ := Option.bind_eq_some_iff.1 hremove
  split at hend
  · cases hend
  · next hjoinable =>
    cases hend
    refine ⟨List.filter_eq_self.2 fun e he => decide_eq_true fun heq => ?_, rfl⟩
    obtain ⟨tid, htid, -⟩ := h.keyed e he
    have hid : t.getId = some tid := heq.symm.trans htid
    have hjoin : t.joinable = true := by
      by_contra hno
      rw [StdThread.getId, if_neg hno] at hid
      cases hid
    -- the entry of `n` would be erased with a joinable thread
    obtain ⟨key, hentry⟩ := mem_owned_iff.1 hn
    obtain ⟨tid', hkey, hnative⟩ := h.keyed _ hentry
    have hnative' : t.native = tid' := by
      rw [natives, List.getElem?_map, ht] at hnative
      exact Option.some.inj hnative
    apply hjoinable
    refine List.any_eq_true.2 ⟨_, hentry, ?_⟩
    rw [Bool.and_eq_true, decide_eq_true_iff, joinable, ht]
    refine ⟨?_, hjoin⟩
    rw [StdThread.getId, if_pos hjoin, hnative']
    exact hkey

theorem step_not_exact (h : g.Good) {a : GroupAction} (hkeeps : ¬ g.Keeps a)
    (hstep : g.step a = some g') : ¬ g'.Exact := by
  intro hexact
  have hsize : g.threads.length = g.members.length := h.exact.size
  have hsize' : g'.threads.length = g'.members.length := hexact.size
  cases a with
  | createThread tid =>
      obtain ⟨-, hdone⟩ := Option.ite_none_right_eq_some.1 hstep
      cases hdone
      -- the entry of a thread that has ended is overwritten
      have hthreads : (g.createThread tid).threads.length = g.threads.length :=
        length_assign_of_mem (Classical.not_not.1 hkeeps) _
      have hmembers : (g.createThread tid).members.length = g.members.length + 1 :=
        List.length_append
      omega
  | removeThread n =>
      obtain ⟨⟨-, hvalid⟩, hremove⟩ := Option.ite_none_right_eq_some.1 hstep
      have hmem : n ∈ g.members := Classical.not_not.1 hkeeps
      obtain ⟨hthreads, hmembers⟩ := removeThread_threads h hvalid hremove
      have hshorter : g'.members.length = g.members.length - 1 := by
        rw [hmembers, List.length_erase_of_mem hmem]
      have hpos : 0 < g.members.length := List.length_pos_of_mem hmem
      rw [hthreads] at hsize'
      omega
  | outsideStarts tid =>
      obtain ⟨-, hdone⟩ := Option.ite_none_right_eq_some.1 hstep
      cases hdone
      have hin : g.isSelfThreadIn tid = true := by
        rw [isSelfThreadIn_iff]
        by_contra hno
        exact hkeeps ⟨fun hkey => hno (.inr hkey), fun hlast => hno (.inl hlast)⟩
      obtain ⟨n, -, hrunner⟩ :=
        (hexact.isSelfThreadIn tid .outside (Function.update_self _ _ _)).1 hin
      cases hrunner
  | joinDone =>
      obtain ⟨-, hdone⟩ := Option.ite_none_right_eq_some.1 hstep
      cases hdone
      apply hkeeps
      intro tid hlast
      -- what runs under `thread_id_` is still taken for a member
      cases hrun : g.running tid with
      | none => rfl
      | some r =>
          have hin : g.clear.isSelfThreadIn tid = true := isSelfThreadIn_iff.2 (.inl hlast)
          obtain ⟨n, hn, -⟩ := (hexact.isSelfThreadIn tid r hrun).1 hin
          cases hn
  | _ => exact hkeeps trivial

/-! ## Runs -/

/-- The group knows its members all along a run exactly if it can follow all steps of it. -/
theorem exact_iff_keeps {acts : List GroupAction}
    (hrun : Run step (fun _ _ => True) {} acts g) :
    (∀ before u, before <+: acts → exec step {} before = some u → u.Exact) ↔
      Run step Keeps {} acts g := by
  apply hrun.always_iff (J := Good)
  · intro g a g' h _ hkeeps hstep
    have h' := step_good h hkeeps hstep
    exact ⟨h', h'.exact⟩
  · exact fun g a g' h _ hkeeps hstep => step_not_exact h hkeeps hstep
  · exact init_good
  · exact init_good.exact

/-- The thread 2 is created from the thread 1, which joins the group. -/
def joinedActions : List GroupAction :=
  [.outsideStarts 1, .createThread 2, .joinAll 1, .ends 2, .joinNext 0, .joinDone]

theorem exact_iff_keeps_joined :
    ∃ g, Run step (fun _ _ => True) {} joinedActions g ∧
      ∀ before u, before <+: joinedActions → exec step {} before = some u → u.Exact := by
  have hkeeps : ∃ g, Run step Keeps {} joinedActions g := by
    refine ⟨_, .cons ⟨List.not_mem_nil, nofun⟩ rfl <| .cons List.not_mem_nil rfl <|
      .cons trivial rfl <|
      .cons trivial rfl <| .cons trivial rfl <| .cons ?_ rfl <| .nil _⟩
    intro tid htid
    cases htid
    rfl
  obtain ⟨g, hkeeps⟩ := hkeeps
  have hrun : Run step (fun _ _ => True) {} joinedActions g :=
    hkeeps.strengthen fun _ _ _ => trivial
  exact ⟨g, hrun, (exact_iff_keeps hrun).2 hkeeps⟩

/-- A thread that has been joined and removed is still counted. -/
theorem not_exact_of_removed :
    ∃ g, Run step (fun _ _ => True) {}
      [.createThread 2, .ends 2, .join 0, .removeThread 0] g ∧
      g.members = [] ∧ g.size = 1 ∧ ¬ g.Exact := by
  refine ⟨_, .cons trivial rfl <| .cons trivial rfl <| .cons trivial rfl <|
    .cons trivial rfl <| .nil _, rfl, rfl, fun hexact => ?_⟩
  cases hexact.size

end ThreadGroup

end CommonLibrary.Thread
