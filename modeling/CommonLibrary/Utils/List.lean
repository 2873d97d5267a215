import CommonLibrary.Foundation.Chain
import CommonLibrary.Foundation.Run
import Mathlib.Logic.Equiv.Basic

/-!
# Lists

A `List<T>` owns a chain of nodes.  It keeps pointers to the first node and to the last one,
and their number.  The objects share a heap, and nodes pass from one to the other.
-/

namespace CommonLibrary.Utils

open Foundation

abbrev ListId := Nat

/-- The fields of a `List<T>`.  `size_` counts nodes, each of which has an address of its own,
so it does not come to `2 ^ 64`. -/
structure ListObject where
  front : Option Addr := none
  tail : Option Addr := none
  size : Nat := 0

structure Lists (α : Type) where
  heap : Heap (Node α) := {}
  /-- the objects that there are -/
  lists : ListId → Option ListObject := fun _ => none
  /-- History: the nodes that have been deleted. -/
  deleted : List Addr := []

inductive ListAction (α : Type) where
  /-- `List()` -/
  | construct (l : ListId)
  /-- `List(List&&)` -/
  | move (l that : ListId)
  /-- `~List` -/
  | destroy (l : ListId)
  | emplaceFront (l : ListId) (x : α)
  | emplaceBack (l : ListId) (x : α)
  | popFront (l : ListId)
  | clear (l : ListId)
  | swap (l that : ListId)
  | append (l that : ListId)

namespace Lists

variable {α : Type}

/-! ## The code

`none` stands for what has no defined outcome: a null pointer or the pointer of a deleted node
is followed, or there is no such object. -/

def put (st : Lists α) (l : ListId) (o : ListObject) : Lists α :=
  { st with lists := Function.update st.lists l (some o) }

def construct (st : Lists α) (l : ListId) : Option (Lists α) :=
  if (st.lists l).isNone then some (st.put l {}) else none

def emplaceFront (st : Lists α) (l : ListId) (x : α) : Option (Lists α) :=
  (st.lists l).bind fun o =>
    let (heap, node) := st.heap.alloc { data := x }
    match o.front with
    | none =>
        some ({ st with heap := heap }.put l
          { front := some node, tail := some node, size := o.size + 1 })
    | some _ =>
        (setNext heap node o.front).map fun heap =>
          { st with heap := heap }.put l { o with front := some node, size := o.size + 1 }

def emplaceBack (st : Lists α) (l : ListId) (x : α) : Option (Lists α) :=
  (st.lists l).bind fun o =>
    let (heap, node) := st.heap.alloc { data := x }
    match o.tail with
    | none =>
        some ({ st with heap := heap }.put l
          { front := some node, tail := some node, size := o.size + 1 })
    | some last =>
        (setNext heap last (some node)).map fun heap =>
          { st with heap := heap }.put l { o with tail := some node, size := o.size + 1 }

def popFront (st : Lists α) (l : ListId) : Option (Lists α) :=
  (st.lists l).bind fun o =>
    match o.front with
    | none => some st
    | some node =>
        (st.heap.blocks node).bind fun n =>
          (st.heap.free node).map fun heap =>
            { st with heap := heap, deleted := st.deleted ++ [node] }.put l
              { front := n.next
                tail := if n.next.isNone then none else o.tail
                size := o.size - 1 }

/-- The loop of `clear` comes to no more nodes than have been made. -/
def clear (st : Lists α) (l : ListId) : Option (Lists α) :=
  (st.lists l).bind fun o =>
    (freeAll st.heap.next st.heap o.front).map fun r =>
      { st with heap := r.1, deleted := st.deleted ++ r.2 }.put l {}

def destroy (st : Lists α) (l : ListId) : Option (Lists α) :=
  (st.clear l).map fun st => { st with lists := Function.update st.lists l none }

def swap (st : Lists α) (l that : ListId) : Option (Lists α) :=
  (st.lists l).bind fun o => (st.lists that).map fun o' => (st.put l o').put that o

def move (st : Lists α) (l that : ListId) : Option (Lists α) :=
  (st.construct l).bind fun st => st.swap l that

def append (st : Lists α) (l that : ListId) : Option (Lists α) :=
  (st.lists l).bind fun o =>
    (st.lists that).bind fun o' =>
      if o'.size = 0 then some st
      else
        match o.tail with
        | some last =>
            (setNext st.heap last o'.front).map fun heap =>
              ({ st with heap := heap }.put l
                { o with tail := o'.tail, size := o.size + o'.size }).put that {}
        | none =>
            some ((st.put l
              { front := o'.front, tail := o'.tail, size := o.size + o'.size }).put that {})

def front (st : Lists α) (l : ListId) : Option α :=
  (st.lists l).bind fun o => o.front.bind fun a => (st.heap.blocks a).map Node.data

def back (st : Lists α) (l : ListId) : Option α :=
  (st.lists l).bind fun o => o.tail.bind fun a => (st.heap.blocks a).map Node.data

def forEach (st : Lists α) (l : ListId) : Option (List α) :=
  (st.lists l).bind fun o => visit st.heap st.heap.next o.front

def index (st : Lists α) (l : ListId) (pos : Nat) : Option α :=
  (st.lists l).bind fun o => nth st.heap pos o.front

def size (st : Lists α) (l : ListId) : Option Nat := (st.lists l).map ListObject.size

def empty (st : Lists α) (l : ListId) : Option Bool :=
  (st.lists l).map fun o => decide (o.size = 0)

def step (st : Lists α) : ListAction α → Option (Lists α)
  | .construct l => st.construct l
  | .move l that => st.move l that
  | .destroy l => st.destroy l
  | .emplaceFront l x => st.emplaceFront l x
  | .emplaceBack l x => st.emplaceBack l x
  | .popFront l => st.popFront l
  | .clear l => st.clear l
  | .swap l that => st.swap l that
  | .append l that => st.append l that

end Lists

/-! ## Sequences -/

/-- What a call does to the sequences that the lists stand for. -/
def ListAction.apply {α : Type} (contents : ListId → List α) : ListAction α → ListId → List α
  | construct l | destroy l | clear l => Function.update contents l []
  | emplaceFront l x => Function.update contents l (x :: contents l)
  | emplaceBack l x => Function.update contents l (contents l ++ [x])
  | popFront l => Function.update contents l (contents l).tail
  | swap l that =>
      Function.update (Function.update contents l (contents that)) that (contents l)
  | move l that => Function.update (Function.update contents l (contents that)) that []
  | append l that =>
      Function.update (Function.update contents l (contents l ++ contents that)) that []

/-! ## The shape of the heap -/

namespace Lists

variable {α : Type} {st st' : Lists α} {l m that : ListId} {o o' : ListObject}
  {heap : Heap (Node α)} {cells : ListId → List (Addr × α)} {cs : List (Addr × α)}
  {a : Addr} {x : α}

/-- Following `next_` from `front_` leads over `cs` to null; `tail_` is the last node on the
way, and `size_` the number of nodes. -/
structure Rep (heap : Heap (Node α)) (o : ListObject) (cs : List (Addr × α)) : Prop where
  linked : Chain heap o.front none cs
  tail : o.tail = (cs.map Prod.fst).getLast?
  size : o.size = cs.length

/-- `cells l` are the nodes of `l` with what they hold. -/
structure Inv (st : Lists α) (cells : ListId → List (Addr × α)) : Prop where
  rep : ∀ l o, st.lists l = some o → Rep st.heap o (cells l)
  gone : ∀ l, st.lists l = none → cells l = []
  distinct : ∀ l, ((cells l).map Prod.fst).Nodup
  disjoint : ∀ l m, l ≠ m → ((cells l).map Prod.fst).Disjoint ((cells m).map Prod.fst)
  /-- a node that is there belongs to a list -/
  owned : ∀ a, (st.heap.blocks a).isSome → ∃ l, a ∈ (cells l).map Prod.fst
  /-- a node is deleted at most once -/
  once : st.deleted.Nodup
  deleted : ∀ a, a ∈ st.deleted ↔ a < st.heap.next ∧ st.heap.blocks a = none

namespace Rep

theorem nil (heap : Heap (Node α)) : Rep heap {} [] := ⟨rfl, rfl, rfl⟩

theorem frame (h : Rep st.heap o cs) (hsame : ∀ c ∈ cs, heap.blocks c.1 = st.heap.blocks c.1) :
    Rep heap o cs :=
  ⟨h.linked.frame hsame, h.tail, h.size⟩

theorem front_eq_none_iff (h : Rep heap o cs) : o.front = none ↔ cs = [] := h.linked.eq_none_iff

theorem tail_eq_none_iff (h : Rep heap o cs) : o.tail = none ↔ cs = [] := by
  rw [h.tail, List.getLast?_eq_none_iff, List.map_eq_nil_iff]

theorem size_eq_zero_iff (h : Rep heap o cs) : o.size = 0 ↔ cs = [] := by
  rw [h.size, List.length_eq_zero_iff]

theorem live (h : Rep heap o cs) (ha : a ∈ cs.map Prod.fst) : (heap.blocks a).isSome := by
  obtain ⟨c, hc, rfl⟩ := List.mem_map.1 ha
  obtain ⟨next, hlive⟩ := h.linked.live hc
  rw [hlive]
  rfl

theorem eq_snoc (h : Rep heap o cs) (htail : o.tail = some a) :
    ∃ ds x, cs = ds ++ [(a, x)] ∧ Chain heap o.front (some a) ds ∧
      heap.blocks a = some ⟨x, none⟩ := by
  have hlast := h.tail
  rcases List.eq_nil_or_concat cs with rfl | ⟨ds, c, rfl⟩
  · rw [htail] at hlast
    cases hlast
  · rw [htail, List.concat_eq_append, List.map_append, List.map_singleton,
      List.getLast?_concat] at hlast
    obtain rfl : a = c.1 := Option.some.inj hlast
    have hlinked := h.linked
    rw [List.concat_eq_append, Chain.snoc_iff] at hlinked
    exact ⟨ds, c.2, List.concat_eq_append, hlinked.1, hlinked.2⟩

end Rep

theorem Inv.live (h : st.Inv cells) (ha : a ∈ (cells l).map Prod.fst) :
    (st.heap.blocks a).isSome := by
  cases hl : st.lists l with
  | none =>
      rw [h.gone l hl] at ha
      cases ha
  | some o => exact (h.rep l o hl).live ha

theorem Inv.lt_next (h : st.Inv cells) (ha : a ∈ (cells l).map Prod.fst) :
    a < st.heap.next := by
  obtain ⟨n, hn⟩ := Option.isSome_iff_exists.1 (h.live ha)
  exact Heap.lt_next hn

theorem Inv.other (h : st.Inv cells) (hne : m ≠ l) {c : Addr × α} (hc : c ∈ cells m)
    (ha : a ∈ (cells l).map Prod.fst) : c.1 ≠ a := by
  rintro rfl
  exact h.disjoint m l hne (List.mem_map_of_mem hc) ha

theorem init_inv : ({} : Lists α).Inv fun _ => [] where
  rep := fun l o hl => by cases hl
  gone := fun _ _ => rfl
  distinct := fun _ => List.nodup_nil
  disjoint := fun _ _ _ a ha => by cases ha
  owned := fun a ha => by cases ha
  once := List.nodup_nil
  deleted := fun a => by
    refine iff_of_false (fun ha => by cases ha) fun ha => ?_
    exact absurd ha.1 (Nat.not_lt_zero a)

theorem update_cases {β γ : Type} {f : ListId → β} {g : ListId → γ} {b : β} {c : γ}
    {P : ListId → β → γ → Prop} (hl : P l b c) (hother : ∀ m, m ≠ l → P m (f m) (g m))
    (m : ListId) : P m (Function.update f l b m) (Function.update g l c m) := by
  by_cases hml : m = l
  · rw [hml, Function.update_self, Function.update_self]
    exact hl
  · rw [Function.update_of_ne hml, Function.update_of_ne hml]
    exact hother m hml

/-- One list gets other nodes, and the nodes of the others are left alone. -/
theorem Inv.change (h : st.Inv cells) {lists : Option ListObject} {deleted : List Addr}
    (hrep : ∀ o, lists = some o → Rep heap o cs) (hgone : lists = none → cs = [])
    (hframe : ∀ m, m ≠ l → ∀ c ∈ cells m, heap.blocks c.1 = st.heap.blocks c.1)
    (hdistinct : (cs.map Prod.fst).Nodup)
    (hdisjoint : ∀ m, m ≠ l → (cs.map Prod.fst).Disjoint ((cells m).map Prod.fst))
    (howned : ∀ a, (heap.blocks a).isSome → a ∈ cs.map Prod.fst ∨
      ∃ m, m ≠ l ∧ a ∈ (cells m).map Prod.fst)
    (honce : deleted.Nodup)
    (hdeleted : ∀ a, a ∈ deleted ↔ a < heap.next ∧ heap.blocks a = none) :
    (⟨heap, Function.update st.lists l lists, deleted⟩ : Lists α).Inv
      (Function.update cells l cs) where
  rep := by
    apply update_cases (P := fun _ list cs => ∀ o, list = some o → Rep heap o cs)
    · exact hrep
    · exact fun m hml o hm => (h.rep m o hm).frame (hframe m hml)
  gone := by
    apply update_cases (P := fun _ list cs => list = none → cs = [])
    · exact hgone
    · exact fun m _ => h.gone m
  distinct := by
    apply (Function.forall_update_iff cells fun _ cs => (cs.map Prod.fst).Nodup).2
    exact ⟨hdistinct, fun m _ => h.distinct m⟩
  disjoint := by
    intro m m' hne
    by_cases hml : m = l
    · subst hml
      rw [Function.update_self, Function.update_of_ne (Ne.symm hne)]
      exact hdisjoint m' (Ne.symm hne)
    · rw [Function.update_of_ne hml]
      by_cases hml' : m' = l
      · subst hml'
        rw [Function.update_self]
        exact fun a ha ha' => hdisjoint m hml ha' ha
      · rw [Function.update_of_ne hml']
        exact h.disjoint m m' hne
  owned := by
    intro a ha
    rcases howned a ha with hin | ⟨m, hml, hin⟩
    · refine ⟨l, ?_⟩
      rw [Function.update_self]
      exact hin
    · refine ⟨m, ?_⟩
      rw [Function.update_of_ne hml]
      exact hin
  once := honce
  deleted := hdeleted

theorem Inv.elsewhere (h : st.Inv cells) (l : ListId) (ha : (st.heap.blocks a).isSome) :
    a ∈ (cells l).map Prod.fst ∨ ∃ m, m ≠ l ∧ a ∈ (cells m).map Prod.fst := by
  obtain ⟨m, hm⟩ := h.owned a ha
  by_cases hml : m = l
  · exact .inl (hml ▸ hm)
  · exact .inr ⟨m, hml, hm⟩

/-! ## One call -/

theorem construct_inv (h : st.Inv cells) (hl : st.lists l = none) :
    ∃ st', st.construct l = some st' ∧ st'.Inv (Function.update cells l []) ∧
      st'.lists = Function.update st.lists l (some {}) := by
  refine ⟨st.put l {}, ?_, ?_, rfl⟩
  · rw [construct, hl]
    rfl
  · apply h.change
    · intro o ho
      cases ho
      exact Rep.nil _
    · intro _
      rfl
    · exact fun _ _ _ _ => rfl
    · exact List.nodup_nil
    · exact fun _ _ a ha => by cases ha
    · intro a ha
      refine (h.elsewhere l ha).imp_left fun hin => ?_
      rw [h.gone l hl] at hin
      exact hin
    · exact h.once
    · exact h.deleted

theorem Inv.emplace (h : st.Inv cells) (hrep : Rep heap o' cs)
    (hnext : heap.next = st.heap.next + 1)
    (hcs : ∀ a, a ∈ cs.map Prod.fst ↔ a = st.heap.next ∨ a ∈ (cells l).map Prod.fst)
    (hdistinct : (cs.map Prod.fst).Nodup)
    (hsome : ∀ a, (heap.blocks a).isSome ↔ a = st.heap.next ∨ (st.heap.blocks a).isSome)
    (hframe : ∀ a, a ≠ st.heap.next → a ∉ (cells l).map Prod.fst →
      heap.blocks a = st.heap.blocks a) :
    ({ st with heap := heap }.put l o').Inv (Function.update cells l cs) := by
  apply h.change
  · intro o ho
    cases ho
    exact hrep
  · intro hnone
    cases hnone
  · intro m hml c hc
    apply hframe
    · exact Nat.ne_of_lt (h.lt_next (List.mem_map_of_mem hc))
    · exact fun hin => h.other hml hc hin rfl
  · exact hdistinct
  · intro m hml a ha ha'
    rcases (hcs a).1 ha with rfl | hin
    · exact absurd (h.lt_next ha') (Nat.lt_irrefl _)
    · exact h.disjoint m l hml ha' hin
  · intro a ha
    rcases (hsome a).1 ha with hnew | hold
    · exact .inl ((hcs a).2 (.inl hnew))
    · exact (h.elsewhere l hold).imp_left fun hin => (hcs a).2 (.inr hin)
  · exact h.once
  · intro a
    have hnone : heap.blocks a = none ↔ a ≠ st.heap.next ∧ st.heap.blocks a = none := by
      rw [← Option.not_isSome_iff_eq_none, hsome, not_or, Option.not_isSome_iff_eq_none]
    rw [h.deleted, hnext, hnone]
    constructor
    · exact fun ha => ⟨Nat.lt_succ_of_lt ha.1, Nat.ne_of_lt ha.1, ha.2⟩
    · exact fun ha => ⟨Nat.lt_of_le_of_ne (Nat.le_of_lt_succ ha.1) ha.2.1, ha.2.2⟩

theorem Inv.next_notMem (h : st.Inv cells) (l : ListId) :
    st.heap.next ∉ (cells l).map Prod.fst :=
  fun hin => absurd (h.lt_next hin) (Nat.lt_irrefl _)

theorem emplaceFront_inv (h : st.Inv cells) (hl : st.lists l = some o) (x : α) :
    ∃ st', st.emplaceFront l x = some st' ∧
      st'.Inv (Function.update cells l ((st.heap.next, x) :: cells l)) := by
  have hrep := h.rep l o hl
  -- what both branches leave
  have hcode : ∃ heap tail, st.emplaceFront l x = some ({ st with heap := heap }.put l
        { front := some st.heap.next, tail := tail, size := o.size + 1 }) ∧
      tail = (((st.heap.next, x) :: cells l).map Prod.fst).getLast? ∧
      heap.next = st.heap.next + 1 ∧
      ∀ b, heap.blocks b = if b = st.heap.next then some ⟨x, o.front⟩ else st.heap.blocks b := by
    rw [emplaceFront, hl, Option.bind_some]
    dsimp only
    cases hfront : o.front with
    | none =>
        refine ⟨_, _, rfl, ?_, rfl, fun b => Function.update_apply _ _ _ _⟩
        rw [hrep.front_eq_none_iff.1 hfront]
        rfl
    | some first =>
        have hnew := Heap.blocks_alloc_self st.heap (⟨x, none⟩ : Node α)
        obtain ⟨heap, hset, hnext, hblocks⟩ := setNext_eq_some hnew (some first)
        refine ⟨heap, o.tail, congrArg (Option.map _) hset, ?_, hnext, fun b => ?_⟩
        · have hne : cells l ≠ [] := fun hnil => by
            rw [hrep.front_eq_none_iff.2 hnil] at hfront
            cases hfront
          obtain ⟨c, cs, hcells⟩ := List.exists_cons_of_ne_nil hne
          rw [hrep.tail, hcells]
          exact List.getLast?_cons_cons.symm
        · rw [hblocks]
          by_cases hb : b = st.heap.next
          · rw [if_pos hb]
            exact if_pos hb
          · rw [if_neg hb]
            exact (if_neg hb).trans (Heap.blocks_alloc_of_ne _ hb)
  obtain ⟨heap, tail, hcode, htail, hnext, hblocks⟩ := hcode
  refine ⟨_, hcode, ?_⟩
  apply h.emplace
  · refine ⟨Chain.cons ?_ (hrep.linked.frame ?_), htail, congrArg (· + 1) hrep.size⟩
    · rw [hblocks, if_pos rfl]
    · intro c hc
      rw [hblocks, if_neg (Nat.ne_of_lt (h.lt_next (List.mem_map_of_mem hc)))]
  · exact hnext
  · intro a
    exact List.mem_cons
  · exact List.nodup_cons.2 ⟨h.next_notMem l, h.distinct l⟩
  · intro a
    rw [hblocks]
    by_cases ha : a = st.heap.next <;> simp [ha]
  · intro a ha _
    rw [hblocks, if_neg ha]

theorem emplaceBack_inv (h : st.Inv cells) (hl : st.lists l = some o) (x : α) :
    ∃ st', st.emplaceBack l x = some st' ∧
      st'.Inv (Function.update cells l (cells l ++ [(st.heap.next, x)])) := by
  have hrep := h.rep l o hl
  have hnew : (st.heap.alloc ⟨x, none⟩).1.blocks st.heap.next = some ⟨x, none⟩ :=
    Heap.blocks_alloc_self _ _
  have hids : ∀ a, a ∈ (cells l ++ [(st.heap.next, x)]).map Prod.fst ↔
      a = st.heap.next ∨ a ∈ (cells l).map Prod.fst := by
    intro a
    rw [List.map_append, List.mem_append, or_comm]
    exact or_congr_left List.mem_singleton
  have hdistinct : ((cells l ++ [(st.heap.next, x)]).map Prod.fst).Nodup := by
    rw [List.map_append]
    refine (h.distinct l).append (List.nodup_singleton _) fun a ha ha' => ?_
    rw [List.mem_singleton.1 ha'] at ha
    exact h.next_notMem l ha
  have hlast : some st.heap.next =
      ((cells l ++ [(st.heap.next, x)]).map Prod.fst).getLast? := by
    rw [List.map_append]
    exact List.getLast?_concat.symm
  have hsize : o.size + 1 = (cells l ++ [(st.heap.next, x)]).length := by
    rw [List.length_append, hrep.size]
    rfl
  rw [emplaceBack, hl, Option.bind_some]
  dsimp only
  cases htail : o.tail with
  | none =>
      have hnil : cells l = [] := hrep.tail_eq_none_iff.1 htail
      refine ⟨_, rfl, ?_⟩
      apply h.emplace _ rfl hids hdistinct
      · intro a
        by_cases ha : a = st.heap.next
        · rw [ha]
          exact iff_of_true (by rw [hnew]; rfl) (.inl rfl)
        · rw [Heap.blocks_alloc_of_ne _ ha]
          exact (or_iff_right ha).symm
      · exact fun a ha _ => Heap.blocks_alloc_of_ne _ ha
      · refine ⟨?_, hlast, hsize⟩
        rw [hnil]
        exact Chain.cons hnew rfl
  | some last =>
      obtain ⟨ds, y, hcells, hlinked, hlive⟩ := hrep.eq_snoc htail
      have hold : last ≠ st.heap.next := Nat.ne_of_lt (Heap.lt_next hlive)
      have hlive' : (st.heap.alloc ⟨x, none⟩).1.blocks last = some ⟨y, none⟩ :=
        (Heap.blocks_alloc_of_ne _ hold).trans hlive
      obtain ⟨heap, hset, hnext, hblocks⟩ := setNext_eq_some hlive' (some st.heap.next)
      have hkept : ∀ a, a ≠ st.heap.next → a ≠ last → heap.blocks a = st.heap.blocks a := by
        intro a ha hlast
        rw [hblocks, if_neg hlast]
        exact Heap.blocks_alloc_of_ne _ ha
      have hmem : last ∈ (cells l).map Prod.fst := by
        rw [hcells]
        simp
      refine ⟨_, congrArg (Option.map _) hset, ?_⟩
      apply h.emplace _ hnext hids hdistinct
      · intro a
        rw [hblocks]
        by_cases ha : a = st.heap.next
        · rw [ha, if_neg hold.symm, hnew]
          exact iff_of_true rfl (.inl rfl)
        · rw [or_iff_right ha, Heap.blocks_alloc_of_ne _ ha]
          split
          · next hlast =>
            rw [hlast, hlive]
            exact Iff.rfl
          · exact Iff.rfl
      · intro a ha hout
        exact hkept a ha fun hlast => hout (hlast ▸ hmem)
      · refine ⟨?_, hlast, hsize⟩
        have hnodup := h.distinct l
        rw [hcells, List.map_append, List.nodup_append] at hnodup
        rw [hcells, Chain.snoc_iff, Chain.snoc_iff]
        refine ⟨⟨hlinked.frame fun c hc => hkept c.1 ?_ ?_, ?_⟩, ?_⟩
        · apply Nat.ne_of_lt (h.lt_next (l := l) _)
          rw [hcells]
          exact List.mem_map_of_mem (List.mem_append_left _ hc)
        · exact hnodup.2.2 c.1 (List.mem_map_of_mem hc) last (List.mem_singleton_self _)
        · rw [hblocks, if_pos rfl]
        · rw [hblocks, if_neg hold.symm]
          exact hnew

theorem Inv.delete (h : st.Inv cells) {lists : Option ListObject} {gone : List (Addr × α)}
    (hcells : cells l = gone ++ cs) (hrep : ∀ o, lists = some o → Rep heap o cs)
    (hgone : lists = none → cs = []) (hnext : heap.next = st.heap.next)
    (hblocks : ∀ a, heap.blocks a =
      if a ∈ gone.map Prod.fst then none else st.heap.blocks a) :
    (⟨heap, Function.update st.lists l lists, st.deleted ++ gone.map Prod.fst⟩ : Lists α).Inv
      (Function.update cells l cs) := by
  have hnodup := h.distinct l
  rw [hcells, List.map_append, List.nodup_append] at hnodup
  have hmem : ∀ a, a ∈ (cells l).map Prod.fst ↔ a ∈ gone.map Prod.fst ∨ a ∈ cs.map Prod.fst := by
    intro a
    rw [hcells, List.map_append, List.mem_append]
  have hlive : ∀ a, a ∈ gone.map Prod.fst → (st.heap.blocks a).isSome :=
    fun a ha => h.live ((hmem a).2 (.inl ha))
  apply h.change hrep hgone
  · intro m hml c hc
    rw [hblocks, if_neg]
    exact fun ha => h.other hml hc ((hmem _).2 (.inl ha)) rfl
  · exact hnodup.2.1
  · exact fun m hml a ha ha' => h.disjoint m l hml ha' ((hmem a).2 (.inr ha))
  · intro a ha
    rw [hblocks] at ha
    split at ha
    · cases ha
    · next hkept =>
      refine (h.elsewhere l ha).imp_left fun hin => ?_
      exact ((hmem a).1 hin).resolve_left hkept
  · refine h.once.append hnodup.1 fun a ha ha' => ?_
    have hthere := hlive a ha'
    rw [((h.deleted a).1 ha).2] at hthere
    cases hthere
  · intro a
    rw [List.mem_append, h.deleted, hblocks, hnext]
    split
    · next hin =>
      obtain ⟨n, hn⟩ := Option.isSome_iff_exists.1 (hlive a hin)
      exact iff_of_true (.inr hin) ⟨Heap.lt_next hn, rfl⟩
    · next hout => exact or_iff_left hout

theorem popFront_inv (h : st.Inv cells) (hl : st.lists l = some o) :
    ∃ st', st.popFront l = some st' ∧ st'.Inv (Function.update cells l (cells l).tail) := by
  have hrep := h.rep l o hl
  rw [popFront, hl, Option.bind_some]
  cases hfront : o.front with
  | none =>
      have hnil := hrep.front_eq_none_iff.1 hfront
      refine ⟨st, rfl, ?_⟩
      rw [hnil, List.tail_nil, ← hnil, Function.update_eq_self]
      exact h
  | some node =>
      have hlinked := hrep.linked
      rw [hfront] at hlinked
      cases hcells : cells l with
      | nil =>
          rw [hcells] at hlinked
          cases hlinked
      | cons c cs =>
          rw [hcells] at hlinked
          obtain ⟨hc, next, hlive, hrest⟩ := hlinked
          obtain rfl : node = c.1 := Option.some.inj hc
          obtain ⟨heap, hfree, hblocks⟩ := Heap.free_eq_some hlive
          dsimp only
          rw [hlive, Option.bind_some, hfree, Option.map_some]
          refine ⟨_, rfl, ?_⟩
          have hnodup := h.distinct l
          rw [hcells] at hnodup
          have hgone : cells l = [c] ++ cs := hcells
          apply h.delete hgone _ (fun hnone => by cases hnone) (Heap.next_free hfree)
          · intro a
            rw [hblocks]
            simp only [List.map_cons, List.map_nil, List.mem_singleton]
          · intro o' ho'
            cases ho'
            refine ⟨hrest.frame fun d hd => ?_, ?_, ?_⟩
            · rw [hblocks, if_neg]
              intro heq
              exact (List.nodup_cons.1 hnodup).1 (heq ▸ List.mem_map_of_mem hd)
            · have htail := hrep.tail
              rw [hcells] at htail
              dsimp only
              cases next with
              | none =>
                  rw [hrest.eq_none_iff.1 rfl]
                  rfl
              | some q =>
                  obtain ⟨d, ds, hds⟩ := List.exists_cons_of_ne_nil
                    fun hnil => absurd (hrest.eq_none_iff.2 hnil) (Option.some_ne_none q)
                  rw [htail, hds]
                  exact List.getLast?_cons_cons
            · have hsize := hrep.size
              rw [hcells, List.length_cons] at hsize
              exact Nat.sub_eq_of_eq_add hsize

theorem clear_inv (h : st.Inv cells) (hl : st.lists l = some o) :
    ∃ st', st.clear l = some st' ∧ st'.Inv (Function.update cells l []) ∧
      ({ st' with lists := Function.update st'.lists l none } : Lists α).Inv
        (Function.update cells l []) := by
  have hrep := h.rep l o hl
  obtain ⟨heap, hall, hnext, hblocks⟩ :=
    freeAll_eq_some hrep.linked (h.distinct l) (hrep.linked.length_le (h.distinct l))
  have hgone : cells l = cells l ++ [] := (List.append_nil _).symm
  rw [clear, hl, Option.bind_some, hall]
  refine ⟨_, rfl, ?_, ?_⟩
  · apply h.delete hgone _ (fun _ => rfl) hnext hblocks
    intro o' ho'
    cases ho'
    exact Rep.nil heap
  · have hlists : Function.update (Function.update st.lists l (some {})) l none =
        Function.update st.lists l none := Function.update_idem _ _ _
    show (⟨heap, Function.update (Function.update st.lists l (some {})) l none, _⟩ : Lists α).Inv _
    rw [hlists]
    exact h.delete hgone (fun _ hnone => by cases hnone) (fun _ => rfl) hnext hblocks

/-! ## Two lists -/

theorem Inv.comp (h : st.Inv cells) (σ : Equiv.Perm ListId) :
    ({ st with lists := st.lists ∘ σ } : Lists α).Inv (cells ∘ σ) where
  rep := fun m o hm => h.rep (σ m) o hm
  gone := fun m hm => h.gone (σ m) hm
  distinct := fun m => h.distinct (σ m)
  disjoint := fun m m' hne => h.disjoint (σ m) (σ m') fun heq => hne (σ.injective heq)
  owned := by
    intro a ha
    obtain ⟨m, hm⟩ := h.owned a ha
    refine ⟨σ.symm m, ?_⟩
    rw [Function.comp_apply, Equiv.apply_symm_apply]
    exact hm
  once := h.once
  deleted := h.deleted

theorem swap_inv (h : st.Inv cells) (hl : st.lists l = some o) (hthat : st.lists that = some o') :
    ∃ st', st.swap l that = some st' ∧
      st'.Inv (Function.update (Function.update cells l (cells that)) that (cells l)) := by
  rw [swap, hl, Option.bind_some, hthat, Option.map_some]
  refine ⟨_, rfl, ?_⟩
  have hswapped := h.comp (Equiv.swap that l)
  rw [Equiv.comp_swap_eq_update, Equiv.comp_swap_eq_update, hl, hthat] at hswapped
  exact hswapped

theorem Inv.join (h : st.Inv cells) (hne : l ≠ that) (hnext : heap.next = st.heap.next)
    (hrep : Rep heap o (cells l ++ cells that))
    (hsome : ∀ a, (heap.blocks a).isSome = (st.heap.blocks a).isSome)
    (hframe : ∀ a, a ∉ (cells l).map Prod.fst → heap.blocks a = st.heap.blocks a) :
    (({ st with heap := heap }.put l o).put that {}).Inv
      (Function.update (Function.update cells l (cells l ++ cells that)) that []) := by
  set joined := Function.update (Function.update cells l (cells l ++ cells that)) that []
    with hjoined
  have hl : joined l = cells l ++ cells that := by
    rw [hjoined, Function.update_of_ne hne, Function.update_self]
  have hother : ∀ m, m ≠ l → m ≠ that → joined m = cells m := by
    intro m hml hmthat
    rw [hjoined, Function.update_of_ne hmthat, Function.update_of_ne hml]
  -- where the nodes of `m` come from
  have hfrom : ∀ m a, a ∈ (joined m).map Prod.fst →
      a ∈ (cells m).map Prod.fst ∧ m ≠ that ∨ a ∈ (cells that).map Prod.fst ∧ m = l := by
    intro m a ha
    by_cases hmthat : m = that
    · rw [hmthat, hjoined, Function.update_self] at ha
      cases ha
    · by_cases hml : m = l
      · rw [hml, hl, List.map_append, List.mem_append] at ha
        rw [hml]
        exact ha.imp (fun ha => ⟨ha, hne⟩) fun ha => ⟨ha, rfl⟩
      · rw [hother m hml hmthat] at ha
        exact .inl ⟨ha, hmthat⟩
  refine ⟨?_, ?_, ?_, ?_, ?_, h.once, ?_⟩
  · apply update_cases (P := fun _ list cs => ∀ o, list = some o → Rep heap o cs)
    · intro o ho
      cases ho
      exact Rep.nil heap
    · intro m _
      apply update_cases (P := fun _ list cs => ∀ o, list = some o → Rep heap o cs)
      · intro o ho
        cases ho
        exact hrep
      · intro m hml o hm
        apply (h.rep m o hm).frame
        exact fun c hc => hframe c.1 fun hin => h.other hml hc hin rfl
  · apply update_cases (P := fun _ list cs => list = none → cs = [])
    · exact fun _ => rfl
    · intro m _
      apply update_cases (P := fun _ list cs => list = none → cs = [])
      · intro hnone
        cases hnone
      · exact fun m _ => h.gone m
  · intro m
    by_cases hmthat : m = that
    · rw [hmthat, hjoined, Function.update_self]
      exact List.nodup_nil
    · by_cases hml : m = l
      · rw [hml, hl, List.map_append]
        exact (h.distinct l).append (h.distinct that) (h.disjoint l that hne)
      · rw [hother m hml hmthat]
        exact h.distinct m
  · intro m m' hmm a ha ha'
    rcases hfrom m a ha with ⟨hm, hmthat⟩ | ⟨hm, hml⟩
    · rcases hfrom m' a ha' with ⟨hm', -⟩ | ⟨hm', -⟩
      · exact h.disjoint m m' hmm hm hm'
      · exact h.disjoint m that hmthat hm hm'
    · rcases hfrom m' a ha' with ⟨hm', hmthat'⟩ | ⟨-, hml'⟩
      · exact h.disjoint m' that hmthat' hm' hm
      · exact hmm (hml.trans hml'.symm)
  · intro a ha
    have hold : (st.heap.blocks a).isSome := by
      rw [← hsome]
      exact ha
    rcases h.elsewhere that hold with hin | ⟨m, hmthat, hin⟩
    · refine ⟨l, ?_⟩
      rw [hl, List.map_append, List.mem_append]
      exact .inr hin
    · refine ⟨m, ?_⟩
      by_cases hml : m = l
      · rw [hml, hl, List.map_append, List.mem_append]
        exact .inl (hml ▸ hin)
      · rw [hother m hml hmthat]
        exact hin
  · intro a
    have hnone : heap.blocks a = none ↔ st.heap.blocks a = none := by
      rw [← Option.isNone_iff_eq_none, ← Option.isNone_iff_eq_none, ← Option.not_isSome,
        ← Option.not_isSome, hsome]
    show a ∈ st.deleted ↔ a < heap.next ∧ heap.blocks a = none
    rw [h.deleted, hnext, hnone]

theorem append_inv (h : st.Inv cells) (hne : l ≠ that) (hl : st.lists l = some o)
    (hthat : st.lists that = some o') :
    ∃ st', st.append l that = some st' ∧
      st'.Inv (Function.update (Function.update cells l (cells l ++ cells that)) that []) := by
  have hrep := h.rep l o hl
  have hrep' := h.rep that o' hthat
  rw [append, hl, Option.bind_some, hthat, Option.bind_some]
  by_cases hempty : o'.size = 0
  · have hnil : cells that = [] := hrep'.size_eq_zero_iff.1 hempty
    refine ⟨st, if_pos hempty, ?_⟩
    rw [hnil, List.append_nil, Function.update_eq_self, ← hnil, Function.update_eq_self]
    exact h
  · rw [if_neg hempty]
    have hsize : o.size + o'.size = (cells l ++ cells that).length := by
      rw [List.length_append, hrep.size, hrep'.size]
    have htail : o'.tail = ((cells l ++ cells that).map Prod.fst).getLast? := by
      obtain ⟨c, cs, hcells⟩ := List.exists_cons_of_ne_nil
        fun hnil => hempty (hrep'.size_eq_zero_iff.2 hnil)
      rw [List.map_append, List.getLast?_append, ← hrep'.tail]
      cases hlast : o'.tail with
      | none => exact absurd (hrep'.tail_eq_none_iff.1 hlast) (hcells ▸ List.cons_ne_nil c cs)
      | some last => rfl
    cases hlast : o.tail with
    | none =>
        refine ⟨_, rfl, h.join hne rfl ⟨?_, htail, hsize⟩ (fun _ => rfl) fun _ _ => rfl⟩
        rw [hrep.tail_eq_none_iff.1 hlast]
        exact hrep'.linked
    | some last =>
        obtain ⟨ds, x, hcells, hlinked, hlive⟩ := hrep.eq_snoc hlast
        obtain ⟨heap, hset, hnext, hblocks⟩ := setNext_eq_some hlive o'.front
        have hmem : last ∈ (cells l).map Prod.fst := by
          rw [hcells]
          simp
        have hnodup := h.distinct l
        rw [hcells, List.map_append, List.nodup_append] at hnodup
        have hfirst : Chain heap o.front o'.front (cells l) := by
          rw [hcells, Chain.snoc_iff]
          refine ⟨hlinked.frame fun c hc => ?_, ?_⟩
          · rw [hblocks, if_neg]
            exact hnodup.2.2 c.1 (List.mem_map_of_mem hc) last (List.mem_singleton_self _)
          · rw [hblocks, if_pos rfl]
        have hsecond : Chain heap o'.front none (cells that) := by
          apply hrep'.linked.frame
          intro c hc
          rw [hblocks, if_neg (h.other hne.symm hc hmem)]
        refine ⟨_, congrArg (Option.map _) hset, h.join hne hnext ⟨?_, htail, hsize⟩ ?_ ?_⟩
        · exact Chain.append_iff.2 ⟨o'.front, hfirst, hsecond⟩
        · intro a
          rw [hblocks]
          split
          · next ha =>
            rw [ha, hlive]
            rfl
          · rfl
        · intro a hout
          rw [hblocks, if_neg]
          exact fun ha => hout (ha ▸ hmem)

theorem move_inv (h : st.Inv cells) (hl : st.lists l = none) (hthat : st.lists that = some o') :
    ∃ st', st.move l that = some st' ∧
      st'.Inv (Function.update (Function.update cells l (cells that)) that []) := by
  have hne : that ≠ l := by
    rintro rfl
    rw [hl] at hthat
    cases hthat
  obtain ⟨st₁, hconstruct, h₁, hlists⟩ := construct_inv h hl
  have hl₁ : st₁.lists l = some {} := by rw [hlists, Function.update_self]
  have hthat₁ : st₁.lists that = some o' := by rw [hlists, Function.update_of_ne hne, hthat]
  obtain ⟨st₂, hswap, h₂⟩ := swap_inv h₁ hl₁ hthat₁
  refine ⟨st₂, ?_, ?_⟩
  · rw [move, hconstruct, Option.bind_some, hswap]
  · rw [Function.update_self, Function.update_of_ne hne, Function.update_idem] at h₂
    exact h₂

/-! ## Runs -/

/-- The calls that a program may make: a list is constructed before it is used, and `append` is
given two lists. -/
def Admissible (st : Lists α) : ListAction α → Prop
  | .construct l => st.lists l = none
  | .move l that => st.lists l = none ∧ (st.lists that).isSome
  | .destroy l | .emplaceFront l _ | .emplaceBack l _ | .popFront l | .clear l =>
      (st.lists l).isSome
  | .swap l that => (st.lists l).isSome ∧ (st.lists that).isSome
  | .append l that => (st.lists l).isSome ∧ (st.lists that).isSome ∧ l ≠ that

def contents (cells : ListId → List (Addr × α)) : ListId → List α := List.map Prod.snd ∘ cells

theorem contents_update (cells : ListId → List (Addr × α)) (l : ListId)
    (cs : List (Addr × α)) :
    contents (Function.update cells l cs) =
      Function.update (contents cells) l (cs.map Prod.snd) :=
  Function.comp_update _ _ _ _

/-- No admissible call goes wrong, and it does to the sequences what it should. -/
theorem step_inv (h : st.Inv cells) {act : ListAction α} (hadm : st.Admissible act) :
    ∃ st' cells', st.step act = some st' ∧ st'.Inv cells' ∧
      contents cells' = act.apply (contents cells) := by
  cases act with
  | construct l =>
      obtain ⟨st', hstep, h', -⟩ := construct_inv h hadm
      exact ⟨st', _, hstep, h', contents_update _ _ _⟩
  | move l that =>
      obtain ⟨o', hthat⟩ := Option.isSome_iff_exists.1 hadm.2
      obtain ⟨st', hstep, h'⟩ := move_inv h hadm.1 hthat
      refine ⟨st', _, hstep, h', ?_⟩
      rw [contents_update, contents_update]
      rfl
  | destroy l =>
      obtain ⟨o, hl⟩ := Option.isSome_iff_exists.1 hadm
      obtain ⟨st', hclear, -, h'⟩ := clear_inv h hl
      exact ⟨_, _, congrArg (Option.map _) hclear, h', contents_update _ _ _⟩
  | emplaceFront l x =>
      obtain ⟨o, hl⟩ := Option.isSome_iff_exists.1 hadm
      obtain ⟨st', hstep, h'⟩ := emplaceFront_inv h hl x
      exact ⟨st', _, hstep, h', contents_update _ _ _⟩
  | emplaceBack l x =>
      obtain ⟨o, hl⟩ := Option.isSome_iff_exists.1 hadm
      obtain ⟨st', hstep, h'⟩ := emplaceBack_inv h hl x
      refine ⟨st', _, hstep, h', ?_⟩
      rw [contents_update, List.map_append]
      rfl
  | popFront l =>
      obtain ⟨o, hl⟩ := Option.isSome_iff_exists.1 hadm
      obtain ⟨st', hstep, h'⟩ := popFront_inv h hl
      refine ⟨st', _, hstep, h', ?_⟩
      rw [contents_update, List.map_tail]
      rfl
  | clear l =>
      obtain ⟨o, hl⟩ := Option.isSome_iff_exists.1 hadm
      obtain ⟨st', hstep, h', -⟩ := clear_inv h hl
      exact ⟨st', _, hstep, h', contents_update _ _ _⟩
  | swap l that =>
      obtain ⟨o, hl⟩ := Option.isSome_iff_exists.1 hadm.1
      obtain ⟨o', hthat⟩ := Option.isSome_iff_exists.1 hadm.2
      obtain ⟨st', hstep, h'⟩ := swap_inv h hl hthat
      refine ⟨st', _, hstep, h', ?_⟩
      rw [contents_update, contents_update]
      rfl
  | append l that =>
      obtain ⟨o, hl⟩ := Option.isSome_iff_exists.1 hadm.1
      obtain ⟨o', hthat⟩ := Option.isSome_iff_exists.1 hadm.2.1
      obtain ⟨st', hstep, h'⟩ := append_inv h hadm.2.2 hl hthat
      refine ⟨st', _, hstep, h', ?_⟩
      rw [contents_update, contents_update, List.map_append]
      rfl

/-- What a user of `l` sees of it. -/
structure Sees (st : Lists α) (l : ListId) (xs : List α) : Prop where
  forEach : st.forEach l = some xs
  front : st.front l = xs.head?
  back : st.back l = xs.getLast?
  index : ∀ pos, st.index l pos = xs[pos]?
  size : st.size l = some xs.length
  empty : st.empty l = some xs.isEmpty

theorem Inv.sees (h : st.Inv cells) (hl : st.lists l = some o) :
    st.Sees l (contents cells l) := by
  have hrep := h.rep l o hl
  have hlinked := hrep.linked
  have hlength : (contents cells l).length = o.size := by
    rw [hrep.size]
    exact List.length_map _
  refine ⟨?_, ?_, ?_, fun pos => ?_, ?_, ?_⟩
  · rw [Lists.forEach, hl, Option.bind_some]
    exact visit_eq_some hlinked (hlinked.length_le (h.distinct l))
  · rw [Lists.front, hl, Option.bind_some, List.head?_eq_getElem?]
    refine Eq.trans ?_ (nth_eq hlinked 0)
    cases o.front <;> rfl
  · rw [Lists.back, hl, Option.bind_some]
    cases hlast : o.tail with
    | none =>
        rw [contents, Function.comp_apply, hrep.tail_eq_none_iff.1 hlast]
        rfl
    | some last =>
        obtain ⟨ds, x, hcells, -, hlive⟩ := hrep.eq_snoc hlast
        rw [Option.bind_some, hlive, contents, Function.comp_apply, hcells, List.map_append]
        exact List.getLast?_concat.symm
  · rw [Lists.index, hl, Option.bind_some]
    exact nth_eq hlinked pos
  · rw [Lists.size, hl, Option.map_some, hlength]
  · rw [Lists.empty, hl, Option.map_some, ← hlength]
    cases contents cells l <;> rfl

variable {acts : List (ListAction α)}

theorem run_inv (hrun : Run step Admissible ({} : Lists α) acts st) :
    ∃ cells, st.Inv cells ∧ contents cells = acts.foldl ListAction.apply fun _ => [] := by
  refine hrun.simulates (R := fun st xs => ∃ cells, st.Inv cells ∧ contents cells = xs) ?_ ?_
  · rintro st _ act st' ⟨cells, h, rfl⟩ hadm hstep
    obtain ⟨next, cells', hnext, h', hcontents⟩ := step_inv h hadm
    obtain rfl : st' = next := Option.some.inj (hstep.symm.trans hnext)
    exact ⟨cells', h', hcontents⟩
  · exact ⟨fun _ => [], init_inv, rfl⟩

/-- The lists stand for sequences: after every run their nodes lie in disjoint chains from
`front_` to `tail_`, whoever looks at a list sees the sequence that the calls have made of it,
no node is lost or deleted twice, and no further call goes wrong. -/
theorem lists_refine_sequences (hrun : Run step Admissible ({} : Lists α) acts st) :
    ∃ cells, st.Inv cells ∧
      contents cells = (acts.foldl ListAction.apply fun _ => []) ∧
      (∀ l o, st.lists l = some o → st.Sees l (contents cells l) ∧
        (o.front = none ↔ o.size = 0) ∧ (o.tail = none ↔ o.size = 0)) ∧
      ∀ act, st.Admissible act → ∃ st', st.step act = some st' := by
  obtain ⟨cells, h, hcontents⟩ := run_inv hrun
  refine ⟨cells, h, hcontents, fun l o hl => ?_, fun act hadm => ?_⟩
  · have hrep := h.rep l o hl
    refine ⟨h.sees hl, ?_, ?_⟩
    · rw [hrep.front_eq_none_iff, hrep.size_eq_zero_iff]
    · rw [hrep.tail_eq_none_iff, hrep.size_eq_zero_iff]
  · obtain ⟨st', -, hstep, -⟩ := step_inv h hadm
    exact ⟨st', hstep⟩

/-- Two lists, of which one gets the node of the other and is then moved from. -/
def movedActions : List (ListAction Nat) :=
  [.construct 0, .emplaceBack 0 1, .construct 1, .emplaceFront 1 2, .append 0 1, .popFront 0,
    .move 2 0]

theorem lists_refine_sequences_moved :
    ∃ st cells o, Run step Admissible ({} : Lists Nat) movedActions st ∧ st.Inv cells ∧
      st.lists 2 = some o ∧ st.Sees 2 [2] ∧ (o.front = none ↔ o.size = 0) := by
  have hrun : ∃ st o, Run step Admissible ({} : Lists Nat) movedActions st ∧
      st.lists 2 = some o :=
    ⟨_, _, .cons rfl rfl <| .cons rfl rfl <| .cons rfl rfl <| .cons rfl rfl <|
      .cons ⟨rfl, rfl, by decide⟩ rfl <| .cons rfl rfl <| .cons ⟨rfl, rfl⟩ rfl <| .nil _, rfl⟩
  obtain ⟨st, o, hrun, hl⟩ := hrun
  obtain ⟨cells, h, hcontents, hlists, -⟩ := lists_refine_sequences hrun
  obtain ⟨hsees, hfront, -⟩ := hlists 2 o hl
  rw [hcontents] at hsees
  exact ⟨st, cells, o, hrun, h, hl, hsees, hfront⟩

end Lists

end CommonLibrary.Utils
