import CommonLibrary.Foundation.Answers
import Mathlib.Tactic.Common

/-!
# Socket addresses

What `sockaddr_storage` holds, and how `get_addr_by_if` finds the address of an interface by
its name or by the text of its address.  How `inet_pton` reads a text is a parameter.
-/

namespace CommonLibrary.Net

open Foundation

inductive Family where
  | AF_INET
  | AF_INET6
  | other
  deriving DecidableEq

theorem Family.inet_or_inet6 {family : Family} (h : family ≠ .other) :
    family = .AF_INET ∨ family = .AF_INET6 := by
  cases family with
  | AF_INET => exact .inl rfl
  | AF_INET6 => exact .inr rfl
  | other => exact absurd rfl h

/-- `sockaddr_in`, `sockaddr_in6` and the rest.  Ports and addresses are in network byte
order. -/
inductive SockaddrStorage where
  | inet (port : UInt16) (addr : BitVec 32)
  | inet6 (port : UInt16) (flowInfo : BitVec 32) (addr : BitVec 128) (scopeId : BitVec 32)
  | other
  deriving DecidableEq

/-- An entry of the list that `getifaddrs` makes. -/
structure IfAddr where
  ifaName : Option String := none
  ifaAddr : Option SockaddrStorage := none
  deriving DecidableEq

structure InetPton where
  inet : String → Option (BitVec 32)
  inet6 : String → Option (BitVec 128)

/-- On a machine that stores the low byte first. -/
def htons (port : UInt16) : UInt16 := port <<< 8 ||| port >>> 8

def ntohs (port : UInt16) : UInt16 := port <<< 8 ||| port >>> 8

theorem ntohs_htons (port : UInt16) : ntohs (htons port) = port := by
  apply UInt16.toBitVec_inj.1
  apply BitVec.eq_of_getLsbD_eq
  intro i hi
  have hover : port.toBitVec.getLsbD (8 + (8 + i)) = false := by
    apply BitVec.getLsbD_of_ge
    omega
  by_cases hlow : i < 8
  · have hin : 8 + i < 16 := by omega
    simp [ntohs, htons, hlow, hi, hover, hin]
  · have hback : 8 + (i - 8) = i := by omega
    have hlow' : i - 8 < 8 := by omega
    have hout : ¬ 8 + i < 16 := by omega
    simp [ntohs, htons, hlow, hi, hover, hback, hlow', hout]

namespace SockaddrStorage

def family : SockaddrStorage → Family
  | inet _ _ => .AF_INET
  | inet6 _ _ _ _ => .AF_INET6
  | other => .other

/-- `sin_port = htons(port)` or `sin6_port = htons(port)`. -/
def setPort (port : UInt16) : SockaddrStorage → SockaddrStorage
  | inet _ addr => inet (htons port) addr
  | inet6 _ flowInfo addr scopeId => inet6 (htons port) flowInfo addr scopeId
  | other => other

def getPortFromAddr : SockaddrStorage → UInt16
  | inet port _ => ntohs port
  | inet6 port _ _ _ => ntohs port
  | other => 0

/-- `inet_pton` reads the bytes of the address from `text`. -/
def HasText (pton : InetPton) (text : String) : SockaddrStorage → Prop
  | inet _ addr => pton.inet text = some addr
  | inet6 _ _ addr _ => pton.inet6 text = some addr
  | other => False

instance (pton : InetPton) (text : String) (a : SockaddrStorage) :
    Decidable (a.HasText pton text) :=
  match a with
  | inet _ addr => inferInstanceAs (Decidable (pton.inet text = some addr))
  | inet6 _ _ addr _ => inferInstanceAs (Decidable (pton.inet6 text = some addr))
  | other => inferInstanceAs (Decidable False)

@[simp] theorem family_setPort (port : UInt16) (a : SockaddrStorage) :
    (a.setPort port).family = a.family := by
  cases a <;> rfl

theorem getPortFromAddr_setPort (port : UInt16) {a : SockaddrStorage} (ha : a.family ≠ .other) :
    (a.setPort port).getPortFromAddr = port := by
  cases a with
  | inet _ addr => exact ntohs_htons port
  | inet6 _ flowInfo addr scopeId => exact ntohs_htons port
  | other => exact absurd rfl ha

end SockaddrStorage

/-! ## `get_addr_by_if` -/

/-- `get_default_addr`.  The bytes of the address are 0 before `inet_pton` is called. -/
def getDefaultAddr (pton : InetPton) (isIpv6 : Bool) (port : UInt16) : SockaddrStorage :=
  if isIpv6 then .inet6 (htons port) 0 ((pton.inet6 "::").getD 0) 0
  else .inet (htons port) ((pton.inet "0.0.0.0").getD 0)

/-- A condition on an entry and its address. -/
abbrev IfCond := IfAddr → SockaddrStorage → Prop

/-- A loop over the list, which looks at entries with an address of the family only. -/
def findIf (family : Family) (P : IfCond) [∀ cur a, Decidable (P cur a)] :
    List IfAddr → Option SockaddrStorage
  | [] => none
  | cur :: rest =>
      match cur.ifaAddr with
      | some a => if a.family = family ∧ P cur a then some a else findIf family P rest
      | none => findIf family P rest

def ByName (adapterName : String) : IfCond := fun cur _ => cur.ifaName = some adapterName

def ByText (pton : InetPton) (adapterName : String) : IfCond := fun _ a =>
  a.HasText pton adapterName

instance (adapterName : String) (cur : IfAddr) (a : SockaddrStorage) :
    Decidable (ByName adapterName cur a) :=
  inferInstanceAs (Decidable (cur.ifaName = some adapterName))

instance (pton : InetPton) (adapterName : String) (cur : IfAddr) (a : SockaddrStorage) :
    Decidable (ByText pton adapterName cur a) :=
  inferInstanceAs (Decidable (a.HasText pton adapterName))

/-- What `get_addr_by_if` writes to `addr` when `getifaddrs` has made the list; `none` stands
for -1. -/
def getAddrByIf (pton : InetPton) (list : List IfAddr) (family : Family) (adapterName : String)
    (port : UInt16) : Option SockaddrStorage :=
  let found :=
    match findIf family (ByName adapterName) list with
    | some a => some a
    | none =>
        if family = Family.AF_INET ∨ family = Family.AF_INET6 then
          findIf family (ByText pton adapterName) list
        else none
  match found with
  | some a => some (a.setPort port)
  | none =>
      if adapterName = "0.0.0.0" then some (getDefaultAddr pton (family = Family.AF_INET6) port)
      else none

variable {family : Family} {P : IfCond} [∀ cur a, Decidable (P cur a)] {pton : InetPton}
  {list : List IfAddr} {adapterName : String} {port : UInt16} {a : SockaddrStorage}

def IfAddr.Stops (family : Family) (P : IfCond) (cur : IfAddr) (a : SockaddrStorage) : Prop :=
  cur.ifaAddr = some a ∧ a.family = family ∧ P cur a

def IfAddr.Passed (family : Family) (P : IfCond) (cur : IfAddr) : Prop :=
  ∀ a, ¬ cur.Stops family P a

/-- The first entry at which a loop over the list stops. -/
def FirstIf (family : Family) (P : IfCond) (list : List IfAddr) (a : SockaddrStorage) : Prop :=
  ∃ before cur, Reached (IfAddr.Passed family P) list before cur ∧ cur.Stops family P a

theorem findIf_cons (family : Family) (P : IfCond) [∀ cur a, Decidable (P cur a)] (cur : IfAddr)
    (rest : List IfAddr) :
    (∃ a, cur.Stops family P a ∧ findIf family P (cur :: rest) = some a) ∨
      cur.Passed family P ∧ findIf family P (cur :: rest) = findIf family P rest := by
  rw [findIf]
  cases haddr : cur.ifaAddr with
  | none =>
      refine .inr ⟨fun a hstops => ?_, rfl⟩
      have hsome := hstops.1
      rw [haddr] at hsome
      cases hsome
  | some a =>
      by_cases hcond : a.family = family ∧ P cur a
      · exact .inl ⟨a, ⟨haddr, hcond⟩, if_pos hcond⟩
      · refine .inr ⟨fun b hstops => hcond ?_, if_neg hcond⟩
        obtain rfl : a = b := Option.some.inj (haddr.symm.trans hstops.1)
        exact hstops.2

theorem findIf_eq_none_iff :
    findIf family P list = none ↔ ∀ cur ∈ list, cur.Passed family P := by
  induction list with
  | nil => exact iff_of_true rfl fun _ hcur => by cases hcur
  | cons cur rest ih =>
      rw [List.forall_mem_cons, ← ih]
      rcases findIf_cons family P cur rest with ⟨a, hstops, heq⟩ | ⟨hpassed, heq⟩
      · rw [heq]
        exact iff_of_false (fun h => by cases h) fun h => h.1 a hstops
      · rw [heq]
        exact (and_iff_right hpassed).symm

theorem findIf_eq_some_iff : findIf family P list = some a ↔ FirstIf family P list a := by
  induction list with
  | nil =>
      refine iff_of_false (fun h => by cases h) ?_
      rintro ⟨before, cur, hreached, -⟩
      exact Reached.not_nil hreached
  | cons cur rest ih =>
      rcases findIf_cons family P cur rest with ⟨b, hstops, heq⟩ | ⟨hpassed, heq⟩
      · rw [heq]
        constructor
        · intro h
          cases h
          exact ⟨[], cur, Reached.head _ cur rest, hstops⟩
        · rintro ⟨before, cur', hreached, hstops'⟩
          rcases hreached.cases_cons with ⟨-, rfl⟩ | ⟨hpassed, -⟩
          · exact congrArg some (Option.some.inj (hstops.1.symm.trans hstops'.1))
          · exact absurd hstops (hpassed b)
      · rw [heq, ih]
        constructor
        · rintro ⟨before, cur', hreached, hstops⟩
          exact ⟨cur :: before, cur', hreached.cons hpassed, hstops⟩
        · rintro ⟨before, cur', hreached, hstops⟩
          rcases hreached.cases_cons with ⟨-, rfl⟩ | ⟨-, before', -, hrest⟩
          · exact absurd hstops (hpassed a)
          · exact ⟨before', cur', hrest, hstops⟩

/-- No entry has the name, and none has the address that the text is of. -/
def NoIf (pton : InetPton) (list : List IfAddr) (family : Family) (adapterName : String) : Prop :=
  (∀ cur ∈ list, cur.Passed family (ByName adapterName)) ∧
    ∀ cur ∈ list, cur.Passed family (ByText pton adapterName)

/-- What the text stands for: an interface by its name, then one by its address; only then does
"0.0.0.0" stand for any address, of either family. -/
def StandsFor (pton : InetPton) (list : List IfAddr) (family : Family) (adapterName : String)
    (port : UInt16) (a : SockaddrStorage) : Prop :=
  (∃ b, FirstIf family (ByName adapterName) list b ∧ a = b.setPort port) ∨
    (∀ cur ∈ list, cur.Passed family (ByName adapterName)) ∧
      (∃ b, FirstIf family (ByText pton adapterName) list b ∧ a = b.setPort port) ∨
    NoIf pton list family adapterName ∧ adapterName = "0.0.0.0" ∧
      a = getDefaultAddr pton (family = Family.AF_INET6) port

theorem getAddrByIf_eq_some_iff (hfamily : family ≠ .other) :
    getAddrByIf pton list family adapterName port = some a ↔
      StandsFor pton list family adapterName port a := by
  simp only [StandsFor, NoIf, ← findIf_eq_some_iff, ← findIf_eq_none_iff, getAddrByIf,
    if_pos (Family.inet_or_inet6 hfamily)]
  cases findIf family (ByName adapterName) list with
  | some b => simp [eq_comm]
  | none =>
      cases findIf family (ByText pton adapterName) list with
      | some b => simp [eq_comm]
      | none => simp [eq_comm]

theorem getAddrByIf_eq_none_iff (hfamily : family ≠ .other) :
    getAddrByIf pton list family adapterName port = none ↔
      NoIf pton list family adapterName ∧ adapterName ≠ "0.0.0.0" := by
  simp only [NoIf, ← findIf_eq_none_iff, getAddrByIf, if_pos (Family.inet_or_inet6 hfamily)]
  cases findIf family (ByName adapterName) list with
  | some b => simp
  | none =>
      cases findIf family (ByText pton adapterName) list with
      | some b => simp
      | none => simp

/-- The text of "any address" is one for IPv6 too, but not in its own notation. -/
example : getAddrByIf ⟨fun _ => none, fun _ => some 0⟩ [] .AF_INET6 "::" 80 = none := by decide

theorem getAddrByIf_fits (hfamily : family ≠ .other)
    (h : getAddrByIf pton list family adapterName port = some a) :
    a.family = family ∧ a.getPortFromAddr = port := by
  have hset : ∀ {P : IfCond} {b}, FirstIf family P list b →
      (b.setPort port).family = family ∧ (b.setPort port).getPortFromAddr = port := by
    rintro P b ⟨before, cur, -, -, hb, -⟩
    refine ⟨(SockaddrStorage.family_setPort port b).trans hb, ?_⟩
    apply SockaddrStorage.getPortFromAddr_setPort
    rwa [hb]
  rcases (getAddrByIf_eq_some_iff hfamily).1 h with
    ⟨b, hfirst, rfl⟩ | ⟨-, b, hfirst, rfl⟩ | ⟨-, -, rfl⟩
  · exact hset hfirst
  · exact hset hfirst
  · cases family with
    | AF_INET => exact ⟨rfl, ntohs_htons port⟩
    | AF_INET6 => exact ⟨rfl, ntohs_htons port⟩
    | other => exact absurd rfl hfamily

end CommonLibrary.Net
