import Mathlib.Data.List.Sort
import Mathlib.Logic.Function.Basic
import Mathlib.Tactic.SplitIfs

/-!
# The event poller

The state of `EventPoller` together with the kernel's interest set of its epoll
descriptor.  What a task, an event callback or a delay task does is not decided here,
so their types are parameters.  Everything runs on the poller thread.  Errors are the numbers that
Linux gives to `errno`, read through `uv_translate_posix_error`.
-/

namespace CommonLibrary.Utils

abbrev Errno := Nat

def EINTR : Errno := 4
def EAGAIN : Errno := 11
def EWOULDBLOCK : Errno := EAGAIN
def ENOBUFS : Errno := 105
def ETIMEDOUT : Errno := 110
def ECONNREFUSED : Errno := 111
def EINPROGRESS : Errno := 115

/-- The codes that mean "try again later" are folded into `EAGAIN`. -/
def uvTranslatePosixError (err : Errno) : Errno :=
  if err = ENOBUFS ∨ err = EINPROGRESS ∨ err = EWOULDBLOCK then EAGAIN else err

end CommonLibrary.Utils

namespace CommonLibrary.Poller

/-- Descriptor numbers; `-1` is `none` where it can occur. -/
abbrev Fd := Nat

def PE_READ : Nat := 1 <<< 0
def PE_WRITE : Nat := 1 <<< 1
def PE_ERROR : Nat := 1 <<< 2
def PE_LT : Nat := 1 <<< 3

def EPOLLIN : Nat := 0x001
def EPOLLOUT : Nat := 0x004
def EPOLLERR : Nat := 0x008
def EPOLLHUP : Nat := 0x010
def EPOLLET : Nat := 1 <<< 31

/-- `event & bit` as a condition. -/
def has (event bit : Nat) : Bool := event &&& bit ≠ 0

def toEpoll (event : Nat) : Nat :=
  (if has event PE_READ then EPOLLIN else 0) ||| (if has event PE_WRITE then EPOLLOUT else 0) |||
    (if has event PE_ERROR then EPOLLHUP ||| EPOLLERR else 0) |||
    (if has event PE_LT then 0 else EPOLLET)

def toPoller (epollEvent : Nat) : Nat :=
  (if has epollEvent EPOLLIN then PE_READ else 0) |||
    (if has epollEvent EPOLLOUT then PE_WRITE else 0) |||
    (if has epollEvent EPOLLHUP then PE_ERROR else 0) |||
    (if has epollEvent EPOLLERR then PE_ERROR else 0)

structure EventPoller (τ κ δ : Type) where
  eventMap : Fd → Option κ := fun _ => none
  /-- the kernel's interest set of `epoll_fd_`, with the events asked for -/
  epollSet : Fd → Option Nat := fun _ => none
  taskList : List τ := []
  /-- the multimap, in key order; equal keys in order of insertion -/
  delayTasks : List (Nat × δ) := []
  exitFlag : Bool := false

/-- `std::multimap::emplace`: behind the entries with the same key. -/
def emplace {δ : Type} (key : Nat) (d : δ) (m : List (Nat × δ)) : List (Nat × δ) :=
  m.orderedInsert (fun a b => a.1 < b.1) (key, d)

namespace EventPoller

variable {τ κ δ : Type}

/-- `async`; `first` tells `AsyncFirst` from `Async`. -/
def async (p : EventPoller τ κ δ) (task : τ) (first : Bool) : EventPoller τ κ δ :=
  { p with taskList := if first then task :: p.taskList else p.taskList ++ [task] }

/-- `AddEvent`, and whether it returned 0.  `epoll_ctl(EPOLL_CTL_ADD)` fails on a
descriptor that is in the set, and whenever the kernel refuses (`ctlOk = false`). -/
def addEvent (p : EventPoller τ κ δ) (fd : Fd) (event : Nat) (cb : κ) (ctlOk : Bool) :
    EventPoller τ κ δ × Bool :=
  if ctlOk && (p.epollSet fd).isNone then
    ({ p with
        epollSet := Function.update p.epollSet fd (some (toEpoll event))
        -- `emplace` keeps an entry that is there
        eventMap := if (p.eventMap fd).isSome then p.eventMap
          else Function.update p.eventMap fd (some cb) }, true)
  else (p, false)

/-- `DelEvent`; the second component is the argument its callback was called with. -/
def delEvent (p : EventPoller τ κ δ) (fd : Fd) : EventPoller τ κ δ × Option Bool :=
  if (p.eventMap fd).isSome then
    if (p.epollSet fd).isSome then
      ({ p with
          epollSet := Function.update p.epollSet fd none
          eventMap := Function.update p.eventMap fd none }, some true)
    else (p, some false)
  else (p, none)

/-- `ModifyEvent`, and whether it returned 0. -/
def modifyEvent (p : EventPoller τ κ δ) (fd : Fd) (event : Nat) : EventPoller τ κ δ × Bool :=
  if (p.epollSet fd).isSome then
    ({ p with epollSet := Function.update p.epollSet fd (some (toEpoll event)) }, true)
  else (p, false)

/-- What `RunLoop` does with an event whose descriptor is not in `event_map_`, and what
the kernel does when a descriptor is closed. -/
def dropInterest (p : EventPoller τ κ δ) (fd : Fd) : EventPoller τ κ δ :=
  { p with epollSet := Function.update p.epollSet fd none }

variable {p : EventPoller τ κ δ}

theorem eventMap_addEvent (fd fd' : Fd) (event : Nat) (cb : κ) (ctlOk : Bool) :
    (p.addEvent fd event cb ctlOk).1.eventMap fd' =
      if fd' = fd ∧ ctlOk ∧ p.epollSet fd = none ∧ p.eventMap fd = none then some cb
      else p.eventMap fd' := by
  by_cases hmap : p.eventMap fd = none
  · by_cases hset : ctlOk = true ∧ p.epollSet fd = none
    · simp [addEvent, hset, hmap, Function.update_apply]
    · rw [if_neg (by tauto)]
      unfold addEvent
      rw [if_neg (by simpa using hset)]
  · rw [if_neg (by tauto)]
    unfold addEvent
    split
    · simp [Option.isSome_iff_ne_none, hmap]
    · rfl

theorem epollSet_addEvent (fd fd' : Fd) (event : Nat) (cb : κ) (ctlOk : Bool) :
    (p.addEvent fd event cb ctlOk).1.epollSet fd' =
      if fd' = fd ∧ ctlOk ∧ p.epollSet fd = none then some (toEpoll event)
      else p.epollSet fd' := by
  by_cases hset : ctlOk = true ∧ p.epollSet fd = none
  · simp [addEvent, hset, Function.update_apply]
  · rw [if_neg (by tauto)]
    unfold addEvent
    rw [if_neg (by simpa using hset)]

theorem addEvent_ok (fd : Fd) (event : Nat) (cb : κ) (ctlOk : Bool) :
    (p.addEvent fd event cb ctlOk).2 = (ctlOk && (p.epollSet fd).isNone) := by
  unfold addEvent
  split
  · next h => exact h.symm
  · next h => exact (Bool.eq_false_of_not_eq_true h).symm

theorem delEvent_called (fd : Fd) : (p.delEvent fd).2.isSome = (p.eventMap fd).isSome := by
  unfold delEvent
  split
  · next hmap =>
    rw [hmap]
    split <;> rfl
  · next hmap => exact (Bool.eq_false_of_not_eq_true hmap).symm

theorem eventMap_delEvent (fd fd' : Fd) :
    (p.delEvent fd).1.eventMap fd' =
      if fd' = fd ∧ (p.epollSet fd).isSome then none else p.eventMap fd' := by
  unfold delEvent
  split
  · split
    · next hset => simp [hset, Function.update_apply]
    · next hset => rw [if_neg (by tauto)]
  · next hmap =>
    split
    · next heq => rw [heq.1]; simpa using hmap
    · rfl

theorem epollSet_delEvent (fd fd' : Fd) :
    (p.delEvent fd).1.epollSet fd' =
      if fd' = fd ∧ (p.eventMap fd).isSome then none else p.epollSet fd' := by
  unfold delEvent
  split
  · next hmap =>
    split
    · simp [hmap, Function.update_apply]
    · next hset =>
      split
      · next heq => rw [heq.1]; simpa using hset
      · rfl
  · next hmap => rw [if_neg (by tauto)]

@[simp] theorem eventMap_modifyEvent (fd : Fd) (event : Nat) :
    (p.modifyEvent fd event).1.eventMap = p.eventMap := by
  unfold modifyEvent
  split <;> rfl

theorem epollSet_modifyEvent (fd fd' : Fd) (event : Nat) :
    (p.modifyEvent fd event).1.epollSet fd' =
      if fd' = fd ∧ (p.epollSet fd).isSome then some (toEpoll event) else p.epollSet fd' := by
  unfold modifyEvent
  split
  · next hset => simp [hset, Function.update_apply]
  · next hset => rw [if_neg (by tauto)]

theorem isSome_epollSet_modifyEvent (fd fd' : Fd) (event : Nat) :
    ((p.modifyEvent fd event).1.epollSet fd').isSome = (p.epollSet fd').isSome := by
  rw [epollSet_modifyEvent]
  split
  · next h => rw [h.1, h.2]; rfl
  · rfl

@[simp] theorem epollSet_dropInterest (fd fd' : Fd) :
    (p.dropInterest fd).epollSet fd' = if fd' = fd then none else p.epollSet fd' := by
  simp [dropInterest, Function.update_apply]

@[simp] theorem taskList_addEvent (fd : Fd) (event : Nat) (cb : κ) (ctlOk : Bool) :
    (p.addEvent fd event cb ctlOk).1.taskList = p.taskList := by
  unfold addEvent
  split <;> rfl

@[simp] theorem taskList_delEvent (fd : Fd) : (p.delEvent fd).1.taskList = p.taskList := by
  unfold delEvent
  split_ifs <;> rfl

/-! ## `event_map_` and the interest set -/

/-- The keys of `event_map_` are the descriptors of the interest set. -/
def Agree (p : EventPoller τ κ δ) : Prop :=
  ∀ fd, (p.eventMap fd).isSome = (p.epollSet fd).isSome

theorem Agree.epollSet_eq_none (h : p.Agree) (fd : Fd) :
    p.epollSet fd = none ↔ p.eventMap fd = none := by
  rw [← Option.not_isSome_iff_eq_none, ← Option.not_isSome_iff_eq_none, h fd]

theorem addEvent_agree (h : p.Agree) (fd : Fd) (event : Nat) (cb : κ) (ctlOk : Bool) :
    (p.addEvent fd event cb ctlOk).1.Agree := by
  intro fd'
  have hfree := h.epollSet_eq_none fd
  rw [eventMap_addEvent, epollSet_addEvent]
  by_cases hadd : fd' = fd ∧ ctlOk = true ∧ p.epollSet fd = none
  · rw [if_pos ⟨hadd.1, hadd.2.1, hadd.2.2, hfree.1 hadd.2.2⟩, if_pos hadd]
    rfl
  · rw [if_neg (by tauto), if_neg hadd]
    exact h fd'

theorem delEvent_agree (h : p.Agree) (fd : Fd) : (p.delEvent fd).1.Agree := by
  intro fd'
  rw [eventMap_delEvent, epollSet_delEvent, h fd]
  split
  · rfl
  · exact h fd'

theorem modifyEvent_agree (h : p.Agree) (fd : Fd) (event : Nat) :
    (p.modifyEvent fd event).1.Agree := by
  intro fd'
  rw [isSome_epollSet_modifyEvent, eventMap_modifyEvent]
  exact h fd'

theorem dropInterest_eq {fd : Fd} (hset : p.epollSet fd = none) : p.dropInterest fd = p := by
  simp [dropInterest, ← hset]

end EventPoller

end CommonLibrary.Poller
