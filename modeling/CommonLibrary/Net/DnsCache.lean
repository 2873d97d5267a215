import CommonLibrary.Foundation.Loop
import CommonLibrary.Foundation.Run
import CommonLibrary.Poller.EventPoller
import Mathlib.Algebra.Group.Nat.Defs
import Mathlib.Data.Nat.Find
import Mathlib.Logic.Function.Basic

/-!
# The DNS cache

`DNSCache::Parse` answers from `dns_map_` while the entry of the host is fresh, and asks
`getaddrinfo` otherwise.  What the clock and `getaddrinfo` say is given with each call.
-/

namespace CommonLibrary.Net

open Foundation Utils

/-- One call of `getaddrinfo`: the code that it returns, what it sets `errno` to, if it does,
and the first address behind `answer`, if `answer` is not null then. -/
structure Attempt (α : Type) where
  ret : Int
  errno : Option Errno := none
  answer : Option α := none

def EAI_NONAME : Int := -2
def EAI_SYSTEM : Int := -11

variable {α : Type}

namespace Attempt

/-- It is in `errno` what went wrong only if the code is `EAI_SYSTEM`. -/
def Interrupted (a : Attempt α) : Prop := a.ret = EAI_SYSTEM ∧ a.errno = some EINTR

def RealError (a : Attempt α) : Prop := a.ret ≠ 0 ∧ ¬ a.Interrupted

end Attempt

structure DNSItem (α : Type) where
  addr : α
  /-- unix seconds -/
  createTime : UInt64

structure DNSCache (α : Type) where
  dnsMap : String → Option (DNSItem α) := fun _ => none
  /-- History: what `getaddrinfo` has resolved, the latest first. -/
  resolved : List (String × DNSItem α) := []

structure ParseCall (α : Type) where
  host : String
  expireSec : Int32 := 60
  /-- the clock in microseconds when the entry is looked at -/
  checkedAt : UInt64
  /-- the clock in microseconds when the host has been resolved -/
  resolvedAt : UInt64
  /-- `errno` before the call -/
  errno : Errno := 0
  /-- the attempts that the call may make, by number -/
  resolver : Nat → Attempt α
  /-- how many of them are followed -/
  fuel : Nat

/-- The seconds are computed from the microseconds. -/
def getCurrentSeconds (microseconds : UInt64) : UInt64 := microseconds / 1000000

/-! ## The retries -/

variable {resolver : Nat → Attempt α} {errno : Errno} {fuel k : Nat}

/-- A round of the `do … while`, with the number of the attempt and `errno` before it. -/
def retry (resolver : Nat → Attempt α) (state : Nat × Errno) : Nat ⊕ (Nat × Errno) :=
  let attempt := resolver state.1
  let errno := attempt.errno.getD state.2
  if attempt.ret ≠ 0 ∧ uvTranslatePosixError errno = EINTR then .inr (state.1 + 1, errno)
  else .inl state.1

/-- The number of the attempt that the loop leaves with. -/
def lookup (fuel : Nat) (errno : Errno) (resolver : Nat → Attempt α) : Option Nat :=
  rounds (retry resolver) fuel (0, errno)

/-- What is in `errno` before the attempt `k`. -/
def errnoBefore (errno : Errno) (resolver : Nat → Attempt α) : Nat → Errno
  | 0 => errno
  | k + 1 => (resolver k).errno.getD (errnoBefore errno resolver k)

/-- The attempt `k` succeeds, or `errno` is not `EINTR` behind it. -/
def Leaves (errno : Errno) (resolver : Nat → Attempt α) (k : Nat) : Prop :=
  (resolver k).ret = 0 ∨ errnoBefore errno resolver (k + 1) ≠ EINTR

theorem uvTranslatePosixError_eq_eintr {e : Errno} :
    uvTranslatePosixError e = EINTR ↔ e = EINTR := by
  unfold uvTranslatePosixError
  split
  · next hagain =>
    refine iff_of_false (by decide) ?_
    rintro rfl
    exact absurd hagain (by decide)
  · exact Iff.rfl

/-- The loop leaves with the first attempt that allows it. -/
theorem lookup_eq_some_iff :
    lookup fuel errno resolver = some k ↔
      k < fuel ∧ Leaves errno resolver k ∧ ∀ j, j < k → ¬ Leaves errno resolver j := by
  have hround : ∀ k, retry resolver (k, errnoBefore errno resolver k) =
      if (resolver k).ret ≠ 0 ∧ errnoBefore errno resolver (k + 1) = EINTR then
        .inr (k + 1, errnoBefore errno resolver (k + 1))
      else .inl k := by
    intro k
    simp only [retry, uvTranslatePosixError_eq_eintr]
    rfl
  have hfirst : lookup fuel errno resolver = some k ↔ ∃ m, m < fuel ∧ Leaves errno resolver m ∧
      (∀ j, j < m → ¬ Leaves errno resolver j) ∧ k = id m := by
    apply rounds_eq_some_iff (f := fun k => (k, errnoBefore errno resolver k))
    · intro k hk
      rw [hround, if_neg]
      · rfl
      · exact fun hagain => hk.elim hagain.1 fun hother => hother hagain.2
    · intro k hk
      rw [hround, if_pos]
      exact ⟨fun hret => hk (.inl hret), Classical.byContradiction fun hne => hk (.inr hne)⟩
  rw [hfirst]
  constructor
  · rintro ⟨m, hm, hleaves, hbefore, rfl⟩
    exact ⟨hm, hleaves, hbefore⟩
  · exact fun ⟨hm, hleaves, hbefore⟩ => ⟨k, hm, hleaves, hbefore, rfl⟩

theorem Attempt.Interrupted.not_leaves (h : (resolver k).Interrupted) :
    ¬ Leaves errno resolver k := by
  rintro (hret | herrno)
  · rw [h.1] at hret
    cases hret
  · apply herrno
    rw [errnoBefore, h.2]
    rfl

namespace DNSCache

/-! ## The cache -/

variable {c c' : DNSCache α} {host other : String} {item : DNSItem α} {now : UInt64}
  {expireSec : Int32} {call : ParseCall α} {r : Option α}

def erase (c : DNSCache α) (host : String) : DNSCache α :=
  { c with dnsMap := Function.update c.dnsMap host none }

def insert (c : DNSCache α) (host : String) (item : DNSItem α) : DNSCache α where
  dnsMap := Function.update c.dnsMap host (some item)
  resolved := (host, item) :: c.resolved

def latest (c : DNSCache α) (host : String) : Option (DNSItem α) := c.resolved.lookup host

/-- `item.create_time + expire_sec < now`, in `uint64_t`. -/
def timeout (item : DNSItem α) (expireSec : Int32) (now : UInt64) : Bool :=
  item.createTime + expireSec.toInt64.toUInt64 < now

def getCacheDomainIp (c : DNSCache α) (host : String) (expireSec : Int32) (now : UInt64) :
    DNSCache α × Option (DNSItem α) :=
  match c.dnsMap host with
  | none => (c, none)
  | some item => if timeout item expireSec now then (c.erase host, none) else (c, some item)

/-- `none`: the attempts that are followed have not come to an end. -/
def getSystemDomainIp (c : DNSCache α) (fuel : Nat) (host : String) (now : UInt64)
    (errno : Errno) (resolver : Nat → Attempt α) : Option (DNSCache α × Option (DNSItem α)) :=
  (lookup fuel errno resolver).map fun k =>
    match (resolver k).answer with
    | none => (c, none)
    | some addr =>
        if (resolver k).ret ≠ 0 then (c, none)
        else (c.insert host ⟨addr, now⟩, some ⟨addr, now⟩)

/-- What `Parse` leaves, and the address if it returns `true`. -/
def parse (c : DNSCache α) (call : ParseCall α) : Option (DNSCache α × Option α) :=
  match c.getCacheDomainIp call.host call.expireSec (getCurrentSeconds call.checkedAt) with
  | (c, some item) => some (c, some item.addr)
  | (c, none) =>
      (c.getSystemDomainIp call.fuel call.host (getCurrentSeconds call.resolvedAt) call.errno
        call.resolver).map fun r => (r.1, r.2.map DNSItem.addr)

def step (c : DNSCache α) (call : ParseCall α) : Option (DNSCache α) :=
  (c.parse call).map Prod.fst

/-- The last attempt, `k`, has failed. -/
def Failed (resolver : Nat → Attempt α) (k : Nat) : Prop :=
  (resolver k).ret ≠ 0 ∨ (resolver k).answer = none

theorem getSystemDomainIp_cases {r : Option (DNSItem α)}
    (h : c.getSystemDomainIp fuel host now errno resolver = some (c', r)) :
    ∃ k, lookup fuel errno resolver = some k ∧
      ((Failed resolver k ∧ c' = c ∧ r = none) ∨
        ∃ addr, (resolver k).ret = 0 ∧ (resolver k).answer = some addr ∧
          c' = c.insert host ⟨addr, now⟩ ∧ r = some ⟨addr, now⟩) := by
  obtain ⟨k, hk, hend⟩ := Option.map_eq_some_iff.1 h
  refine ⟨k, hk, ?_⟩
  cases hanswer : (resolver k).answer with
  | none =>
      rw [hanswer] at hend
      cases hend
      exact .inl ⟨.inr hanswer, rfl, rfl⟩
  | some addr =>
      simp only [hanswer] at hend
      split at hend
      · next hret =>
        cases hend
        exact .inl ⟨.inl hret, rfl, rfl⟩
      · next hret =>
        cases hend
        exact .inr ⟨addr, Classical.byContradiction hret, rfl, rfl, rfl⟩

theorem getCacheDomainIp_cases {r : Option (DNSItem α)}
    (h : c.getCacheDomainIp host expireSec now = (c', r)) :
    (∃ item, c.dnsMap host = some item ∧ timeout item expireSec now = false ∧ c' = c ∧
      r = some item) ∨
    (∀ item, c.dnsMap host = some item → timeout item expireSec now = true) ∧
      c' = c.erase host ∧ r = none := by
  rw [getCacheDomainIp] at h
  cases hentry : c.dnsMap host with
  | none =>
      rw [hentry] at h
      cases h
      refine .inr ⟨?_, ?_, rfl⟩
      · intro item hitem
        cases hitem
      · rw [erase, ← hentry, Function.update_eq_self]
  | some item =>
      simp only [hentry] at h
      split at h
      · next hout =>
        cases h
        exact .inr ⟨fun item' hitem => Option.some.inj hitem ▸ hout, rfl, rfl⟩
      · next hfresh =>
        cases h
        exact .inl ⟨item, rfl, Bool.eq_false_iff.2 hfresh, rfl, rfl⟩

theorem parse_cases (h : c.parse call = some (c', r)) :
    (∃ item, c.dnsMap call.host = some item ∧
      timeout item call.expireSec (getCurrentSeconds call.checkedAt) = false ∧ c' = c ∧
      r = some item.addr) ∨
    (∀ item, c.dnsMap call.host = some item →
      timeout item call.expireSec (getCurrentSeconds call.checkedAt) = true) ∧
    ∃ k, lookup call.fuel call.errno call.resolver = some k ∧
      ((Failed call.resolver k ∧ c' = c.erase call.host ∧ r = none) ∨
        ∃ addr, (call.resolver k).ret = 0 ∧ (call.resolver k).answer = some addr ∧
          c' = (c.erase call.host).insert call.host
            ⟨addr, getCurrentSeconds call.resolvedAt⟩ ∧ r = some addr) := by
  rw [parse] at h
  split at h
  · next c₁ item hcache =>
    cases h
    rcases getCacheDomainIp_cases hcache with ⟨item', hentry, hfresh, hsame, hr⟩ | ⟨-, -, hr⟩
    · cases hr
      exact .inl ⟨item, hentry, hfresh, hsame, rfl⟩
    · cases hr
  · next c₁ hcache =>
    rcases getCacheDomainIp_cases hcache with ⟨item, -, -, -, hr⟩ | ⟨hout, rfl, -⟩
    · cases hr
    · obtain ⟨⟨c₂, r₂⟩, hsystem, hend⟩ := Option.map_eq_some_iff.1 h
      cases hend
      obtain ⟨k, hk, ⟨hfailed, rfl, rfl⟩ | ⟨addr, hret, hanswer, rfl, rfl⟩⟩ :=
        getSystemDomainIp_cases hsystem
      · exact .inr ⟨hout, k, hk, .inl ⟨hfailed, rfl, rfl⟩⟩
      · exact .inr ⟨hout, k, hk, .inr ⟨addr, hret, hanswer, rfl, rfl⟩⟩

/-! ## The retry loop -/

/-- The call returns, `false` unless an attempt has succeeded, and has repeated none but
interrupted attempts. -/
def EndsRight (c : DNSCache α) (host : String) (now : UInt64) (errno : Errno)
    (resolver : Nat → Attempt α) : Prop :=
  ∃ fuel k r, lookup fuel errno resolver = some k ∧
    c.getSystemDomainIp fuel host now errno resolver = some r ∧
    ((resolver k).ret ≠ 0 → r.2 = none) ∧ ∀ j, j < k → (resolver j).Interrupted

/-- The first attempt that is not interrupted succeeds or leaves something other than `EINTR`
in `errno`. -/
def FirstErrorShown (errno : Errno) (resolver : Nat → Attempt α) : Prop :=
  ∀ k, ¬ (resolver k).Interrupted → (∀ j, j < k → (resolver j).Interrupted) →
    (resolver k).ret = 0 ∨ errnoBefore errno resolver (k + 1) ≠ EINTR

/-- If the attempts end with errors of their own, the first of them decides: the call does what
it should exactly if that attempt succeeds or does not leave `EINTR` in `errno`. -/
theorem resolve_ends_iff (c : DNSCache α) (host : String) (now : UInt64) (errno : Errno)
    (resolver : Nat → Attempt α) (hreal : ∃ n, ∀ k, n ≤ k → (resolver k).RealError) :
    c.EndsRight host now errno resolver ↔ FirstErrorShown errno resolver := by
  constructor
  · rintro ⟨fuel, k, r, hlookup, -, -, hinterrupted⟩ m hm hbefore
    obtain ⟨-, hleaves, hstays⟩ := lookup_eq_some_iff.1 hlookup
    -- the loop does not go past `m`, and not end before it
    have hle : k ≤ m := by
      apply Nat.le_of_not_lt
      exact fun hlt => hm (hinterrupted m hlt)
    have hge : m ≤ k := by
      apply Nat.le_of_not_lt
      exact fun hlt => (hbefore k hlt).not_leaves hleaves
    rw [Nat.le_antisymm hge hle]
    exact hleaves
  · intro hshown
    obtain ⟨n, hn⟩ := hreal
    have hexists : ∃ m, ¬ (resolver m).Interrupted := ⟨n, (hn n (Nat.le_refl n)).2⟩
    classical
    have hbefore : ∀ j, j < Nat.find hexists → (resolver j).Interrupted := fun j hj =>
      Classical.not_not.1 (Nat.find_min hexists hj)
    have hlookup : lookup (Nat.find hexists + 1) errno resolver = some (Nat.find hexists) := by
      apply lookup_eq_some_iff.2
      refine ⟨Nat.lt_succ_self _, hshown _ (Nat.find_spec hexists) hbefore, ?_⟩
      exact fun j hj => (hbefore j hj).not_leaves
    cases hend : c.getSystemDomainIp (Nat.find hexists + 1) host now errno resolver with
    | none =>
        rw [getSystemDomainIp, hlookup] at hend
        cases hend
    | some r =>
        refine ⟨_, _, r, hlookup, hend, fun hret => ?_, hbefore⟩
        obtain ⟨k, hk, hcases⟩ := getSystemDomainIp_cases hend
        obtain rfl : Nat.find hexists = k := Option.some.inj (hlookup.symm.trans hk)
        rcases hcases with ⟨-, -, hr⟩ | ⟨addr, hret', -⟩
        · exact hr
        · exact absurd hret' hret

/-- There is no such host, and `getaddrinfo` says so without a word in `errno`. -/
def unknownHost : Nat → Attempt Nat := fun _ => { ret := EAI_NONAME }

theorem unknownHost_realError (k : Nat) : (unknownHost k).RealError := by
  have hret : EAI_NONAME ≠ 0 := by decide
  exact ⟨hret, fun h => by cases h.1⟩

theorem resolve_ends_iff_unknown :
    ({} : DNSCache Nat).EndsRight "host" 0 0 unknownHost := by
  have hreal : ∃ n, ∀ k, n ≤ k → (unknownHost k).RealError :=
    ⟨0, fun k _ => unknownHost_realError k⟩
  apply (resolve_ends_iff {} "host" 0 0 unknownHost hreal).2
  rintro k - hbefore
  cases k with
  | zero => exact .inr (by decide)
  | succ k => exact absurd (hbefore k (Nat.lt_succ_self k)) (unknownHost_realError k).2

/-- `errno` is still `EINTR` from something else. -/
theorem not_resolve_ends :
    (∃ n, ∀ k, n ≤ k → (unknownHost k).RealError) ∧
      ∀ fuel, ({} : DNSCache Nat).getSystemDomainIp fuel "host" 0 EINTR unknownHost = none := by
  refine ⟨⟨0, fun k _ => unknownHost_realError k⟩, fun fuel => ?_⟩
  have herrno : ∀ k, errnoBefore EINTR unknownHost k = EINTR := by
    intro k
    induction k with
    | zero => rfl
    | succ k ih => exact ih
  rw [getSystemDomainIp, Option.map_eq_none_iff, Option.eq_none_iff_forall_ne_some]
  intro k hk
  obtain ⟨-, hleaves, -⟩ := lookup_eq_some_iff.1 hk
  rcases hleaves with hret | hother
  · exact (unknownHost_realError k).1 hret
  · exact hother (herrno (k + 1))

/-! ## Runs -/

theorem getCurrentSeconds_lt (microseconds : UInt64) :
    (getCurrentSeconds microseconds).toNat < 2 ^ 45 := by
  have hdiv : (getCurrentSeconds microseconds).toNat = microseconds.toNat / 1000000 :=
    UInt64.toNat_div _ _
  have hlt := microseconds.toNat_lt
  omega

theorem getCurrentSeconds_mono {t u : UInt64} (h : t ≤ u) :
    (getCurrentSeconds t).toNat ≤ (getCurrentSeconds u).toNat := by
  have ht : (getCurrentSeconds t).toNat = t.toNat / 1000000 := UInt64.toNat_div _ _
  have hu : (getCurrentSeconds u).toNat = u.toNat / 1000000 := UInt64.toNat_div _ _
  have hle := UInt64.le_iff_toNat_le.1 h
  omega

theorem toNat_expireSec (hexpire : 0 ≤ expireSec) :
    (expireSec.toInt64.toUInt64.toNat : Int) = expireSec.toInt := by
  have hnonneg : 0 ≤ expireSec.toInt := Int32.le_iff_toInt_le.1 hexpire
  have hnonneg' : 0 ≤ expireSec.toInt64 := by
    rw [Int64.le_iff_toInt_le, Int32.toInt_toInt64]
    exact hnonneg
  calc (expireSec.toInt64.toUInt64.toNat : Int)
      = (expireSec.toInt64.toNatClampNeg : Int) := by rw [Int64.toNat_toUInt64_of_le hnonneg']
    _ = (expireSec.toInt.toNat : Int) := by
        rw [Int64.toNatClampNeg, Int32.toInt_toInt64]
    _ = expireSec.toInt := Int.toNat_of_nonneg hnonneg

theorem timeout_eq_false_iff (hcreated : item.createTime.toNat < 2 ^ 45)
    (hexpire : 0 ≤ expireSec) :
    timeout item expireSec now = false ↔
      (now.toNat : Int) ≤ item.createTime.toNat + expireSec.toInt := by
  have hnat := toNat_expireSec hexpire
  have hlt := expireSec.toInt_lt
  have hadd : (item.createTime + expireSec.toInt64.toUInt64).toNat =
      item.createTime.toNat + expireSec.toInt64.toUInt64.toNat := by
    rw [UInt64.toNat_add]
    apply Nat.mod_eq_of_lt
    omega
  rw [timeout, decide_eq_false_iff_not, UInt64.lt_iff_toNat_lt, hadd]
  omega

/-- An entry is the latest resolution of its host. -/
structure Inv (c : DNSCache α) : Prop where
  latest : ∀ host item, c.dnsMap host = some item → c.latest host = some item
  created : ∀ host item, c.dnsMap host = some item → item.createTime.toNat < 2 ^ 45

theorem erase_self (c : DNSCache α) (host : String) : (c.erase host).dnsMap host = none :=
  Function.update_self _ _ _

theorem erase_of_ne (c : DNSCache α) (hne : other ≠ host) :
    (c.erase host).dnsMap other = c.dnsMap other := Function.update_of_ne hne _ _

theorem insert_of_ne (c : DNSCache α) (item : DNSItem α) (hne : other ≠ host) :
    (c.insert host item).dnsMap other = c.dnsMap other := Function.update_of_ne hne _ _

theorem erase_inv (h : c.Inv) (host : String) : (c.erase host).Inv := by
  have hold : ∀ other item, (c.erase host).dnsMap other = some item →
      c.dnsMap other = some item := by
    intro other item hitem
    by_cases hne : other = host
    · rw [hne, erase_self] at hitem
      cases hitem
    · rw [← erase_of_ne c hne]
      exact hitem
  constructor
  · exact fun other item hitem => h.latest other item (hold other item hitem)
  · exact fun other item hitem => h.created other item (hold other item hitem)

theorem latest_insert (c : DNSCache α) (host : String) (item : DNSItem α) :
    (c.insert host item).latest host = some item := List.lookup_cons_self

theorem insert_inv (h : c.Inv) (host : String) (hcreated : item.createTime.toNat < 2 ^ 45) :
    (c.insert host item).Inv := by
  have hself : (c.insert host item).dnsMap host = some item := Function.update_self _ _ _
  constructor
  · intro other item' hitem
    by_cases hne : other = host
    · rw [hne] at hitem ⊢
      rw [latest_insert, ← hself]
      exact hitem
    · rw [insert_of_ne c item hne] at hitem
      rw [DNSCache.latest, insert, List.lookup_cons, beq_false_of_ne hne]
      exact h.latest other item' hitem
  · intro other item' hitem
    by_cases hne : other = host
    · rw [hne, hself] at hitem
      cases hitem
      exact hcreated
    · rw [insert_of_ne c item hne] at hitem
      exact h.created other item' hitem

theorem parse_inv (h : c.Inv) (hparse : c.parse call = some (c', r)) : c'.Inv := by
  rcases parse_cases hparse with
    ⟨item, -, -, rfl, -⟩ | ⟨-, k, -, ⟨-, rfl, -⟩ | ⟨addr, -, -, rfl, -⟩⟩
  · exact h
  · exact erase_inv h call.host
  · exact insert_inv (erase_inv h call.host) call.host (getCurrentSeconds_lt _)

theorem run_inv {C : DNSCache α → ParseCall α → Prop} {calls : List (ParseCall α)}
    (hrun : Run step C {} calls c) : c.Inv := by
  refine hrun.invariant (fun c call c' h _ hstep => ?_) ⟨fun _ _ h => ?_, fun _ _ h => ?_⟩
  · obtain ⟨r, hparse, rfl⟩ := Option.map_eq_some_iff.1 hstep
    exact parse_inv h hparse
  · cases h
  · cases h

/-- What holds of the result `r` of a call that leads from `c` to `c'`, with `now` for the time of
the call: an address is that of the latest resolution of the host, which is fresh; there is none
only if the entry of the host is not fresh, and resolving the host has failed; the entries of
other hosts are left alone. -/
structure ParseOk (c : DNSCache α) (call : ParseCall α) (now : Nat) (c' : DNSCache α)
    (r : Option α) : Prop where
  fresh : ∀ addr, r = some addr → ∃ item, c'.latest call.host = some item ∧
    c'.dnsMap call.host = some item ∧ item.addr = addr ∧
    (now : Int) ≤ item.createTime.toNat + call.expireSec.toInt
  stale : r = none → ∀ item, c.dnsMap call.host = some item →
    c.latest call.host = some item ∧ item.createTime.toNat + call.expireSec.toInt < now
  failed : r = none →
    ∃ k, lookup call.fuel call.errno call.resolver = some k ∧ Failed call.resolver k
  others : ∀ host, host ≠ call.host → c'.dnsMap host = c.dnsMap host

/-- After any calls of `Parse`, the next one gives a fresh address of the right host or has
tried to get one. -/
theorem parse_fresh {C : DNSCache α → ParseCall α → Prop} {calls : List (ParseCall α)}
    (hrun : Run step C {} calls c) (hparse : c.parse call = some (c', r))
    (hexpire : 0 ≤ call.expireSec) (hclock : call.checkedAt ≤ call.resolvedAt) :
    ParseOk c call (getCurrentSeconds call.checkedAt).toNat c' r := by
  have hinv := run_inv hrun
  have hcases := parse_cases hparse
  have hstale : (∀ item, c.dnsMap call.host = some item →
        timeout item call.expireSec (getCurrentSeconds call.checkedAt) = true) →
      ∀ item, c.dnsMap call.host = some item → c.latest call.host = some item ∧
        item.createTime.toNat + call.expireSec.toInt <
          ((getCurrentSeconds call.checkedAt).toNat : Int) := by
    intro hout item hitem
    refine ⟨hinv.latest _ item hitem, ?_⟩
    apply Int.not_le.1
    rw [← timeout_eq_false_iff (hinv.created _ item hitem) hexpire, hout item hitem]
    decide
  rcases hcases with
    ⟨item, hitem, hfresh, rfl, rfl⟩ | ⟨hout, k, hk, ⟨hfailed, rfl, rfl⟩ | ⟨addr, -, -, rfl, rfl⟩⟩
  · constructor
    · intro addr haddr
      cases haddr
      refine ⟨item, hinv.latest _ item hitem, hitem, rfl, ?_⟩
      exact (timeout_eq_false_iff (hinv.created _ item hitem) hexpire).1 hfresh
    · intro hnone
      cases hnone
    · intro hnone
      cases hnone
    · exact fun _ _ => rfl
  · constructor
    · intro addr haddr
      cases haddr
    · exact fun _ => hstale hout
    · exact fun _ => ⟨k, hk, hfailed⟩
    · exact fun host hne => erase_of_ne c hne
  · constructor
    · intro addr' haddr
      cases haddr
      refine ⟨_, latest_insert _ _ _, Function.update_self _ _ _, rfl, ?_⟩
      have hmono := getCurrentSeconds_mono hclock
      have hnonneg : 0 ≤ call.expireSec.toInt := Int32.le_iff_toInt_le.1 hexpire
      dsimp only
      omega
    · intro hnone
      cases hnone
    · intro hnone
      cases hnone
    · intro host hne
      exact (insert_of_ne _ _ hne).trans (erase_of_ne c hne)

/-- A host that is resolved in the second 10, and asked for again in the second `second`. -/
def exampleCall (second : UInt64) : ParseCall Nat where
  host := "example.org"
  checkedAt := second * 1000000
  resolvedAt := second * 1000000
  resolver := fun _ => { ret := 0, answer := some 7 }
  fuel := 1

theorem parse_fresh_hit :
    ∃ c c', Run step (fun _ _ => True) ({} : DNSCache Nat) [exampleCall 10] c ∧
      c.parse (exampleCall 70) = some (c', some 7) ∧
      ParseOk c (exampleCall 70) (getCurrentSeconds (exampleCall 70).checkedAt).toNat c'
        (some 7) := by
  have hcalls : ∃ c c', Run step (fun _ _ => True) ({} : DNSCache Nat) [exampleCall 10] c ∧
      c.parse (exampleCall 70) = some (c', some 7) :=
    ⟨_, _, .cons trivial rfl <| .nil _, rfl⟩
  obtain ⟨c, c', hrun, hparse⟩ := hcalls
  exact ⟨c, c', hrun, hparse, parse_fresh hrun hparse (by decide) (by decide)⟩

end DNSCache

end CommonLibrary.Net
