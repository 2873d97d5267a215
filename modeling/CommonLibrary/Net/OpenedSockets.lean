import CommonLibrary.Net.SocketUtils

/-!
# What `Connect` and `Listen` open

Whatever the kernel refuses, `Connect` and `Listen` use descriptors and memory only while they
have them, free what they have allocated, and return the one descriptor that they have opened
or have closed it.
-/

namespace CommonLibrary.Net

open Foundation Poller Utils

variable {α β : Type} {async : Bool} {fd : Fd} {k k' : Kernel} {s s' s₀ : SockState}
  {L L' : List SockOpt}

/-- Options have been set, some of `L` in this order. -/
structure Tuned (L : List SockOpt) (s s' : SockState) : Prop where
  opts : ∃ more, more.Sublist L ∧ s'.opts = s.opts ++ more
  flags : s'.flags = s.flags ∨ s'.flags = s.flags ||| FD_CLOEXEC
  rest : s' = { s with opts := s'.opts, flags := s'.flags }

theorem tuned_refl (s : SockState) : Tuned [] s s where
  opts := ⟨[], List.Sublist.refl [], (List.append_nil _).symm⟩
  flags := .inl rfl
  rest := rfl

theorem Tuned.trans {s'' : SockState} (h : Tuned L s s') (h' : Tuned L' s' s'') :
    Tuned (L ++ L') s s'' where
  opts := by
    obtain ⟨more, hmore, heq⟩ := h.opts
    obtain ⟨more', hmore', heq'⟩ := h'.opts
    refine ⟨more ++ more', hmore.append hmore', ?_⟩
    rw [heq', heq, List.append_assoc]
  flags := by
    rcases h.flags with heq | heq <;> rcases h'.flags with heq' | heq' <;> rw [heq', heq]
    · exact .inl rfl
    · exact .inr rfl
    · exact .inr rfl
    · refine .inr ?_
      rw [Nat.or_assoc, Nat.or_self]
  rest := by
    have hrest := h.rest
    have hrest' := h'.rest
    rw [hrest] at hrest'
    exact hrest'

namespace SocketUtils

open Prog

/-- The code sets some of the options `L` of the socket, and nothing else. -/
def Tunes (fd : Fd) (L : List SockOpt) (p : Code α) : Prop :=
  ∀ async k s, k.sockets fd = some s →
    p.Always kernel k fun k' _ => ∃ s', Tuned L s s' ∧ Kernel.Turned async fd s' k k'

theorem pure_tunes (fd : Fd) (a : α) : Tunes fd [] (pure a : Code α) :=
  fun async _ s hs => ⟨s, tuned_refl s, Kernel.turned_refl async hs⟩

theorem Tunes.then {p : Code α} {f : α → Code β} {Q : Kernel → β → Prop} {k₀ : Kernel}
    (hp : Tunes fd L p) (hs : Tuned L' s₀ s) (hk : Kernel.Turned async fd s k₀ k)
    (hrest : ∀ k' s' a, Tuned (L' ++ L) s₀ s' → Kernel.Turned async fd s' k₀ k' →
      (f a).Always kernel k' Q) : (p >>= f).Always kernel k Q := by
  refine (hp async k s hk.self).then fun k' a h => ?_
  obtain ⟨s', hs', hk'⟩ := h
  exact hrest k' s' a (hs.trans hs') (hk.trans hk')

theorem Tunes.seq {p : Code α} {f : α → Code β} (hp : Tunes fd L p)
    (hf : ∀ a, Tunes fd L' (f a)) : Tunes fd (L ++ L') (p >>= f) := by
  intro async k s hs
  refine hp.then (tuned_refl s) (Kernel.turned_refl async hs) fun k' s' a hs' hk' => ?_
  refine (hf a async k' s' hk'.self).mono fun k'' _ h => ?_
  obtain ⟨s'', hs'', hk''⟩ := h
  exact ⟨s'', hs'.trans hs'', hk'.trans hk''⟩

theorem Tunes.widen {p : Code α} (hp : Tunes fd L p) (hL : L.Sublist L') : Tunes fd L' p := by
  intro async k s hs
  refine (hp async k s hs).mono fun k' _ h => ?_
  obtain ⟨s', ⟨⟨more, hmore, heq⟩, hflags, hrest⟩, hk'⟩ := h
  exact ⟨s', ⟨⟨more, hmore.trans hL, heq⟩, hflags, hrest⟩, hk'⟩

theorem turned_setSocket (async : Bool) (k : Kernel) (fd : Fd) (s : SockState) :
    Kernel.Turned async fd s k (k.setSocket fd (some s)) := ⟨⟨rfl, rfl, rfl, rfl⟩, rfl⟩

theorem turned_refuse {c : SysCall} {errno : Errno} {k₀ : Kernel}
    (h : Kernel.Turned async fd s k₀ k) (hc : Kernel.Fatal async (c, errno) = false) :
    Kernel.Turned async fd s k₀ (k.refuse c errno) where
  toSame := by
    have hsame := h.toSame.trans (Kernel.refuse_same async k c errno)
    rwa [hc] at hsame
  sockets := h.sockets

theorem setOption_tunes (fd : Fd) (opt : SockOpt) : Tunes fd [opt] (setOption fd opt) := by
  intro async k s hs
  refine always_ask.2 ⟨Option.isSome_of_eq_some hs, fun ans k' hans => ?_⟩
  rcases Kernel.change_cases async hs hans with ⟨-, hturned⟩ | ⟨errno, -, rfl⟩
  · refine ⟨_, ?_, hturned⟩
    exact ⟨⟨[opt], List.Sublist.refl _, rfl⟩, .inl rfl, rfl⟩
  · refine ⟨s, ?_, turned_refuse (Kernel.turned_refl async hs) rfl⟩
    exact ⟨⟨[], List.nil_sublist _, (List.append_nil _).symm⟩, .inl rfl, rfl⟩

theorem setReuseable_tunes (fd : Fd) (enable : Bool) :
    Tunes fd [.SO_REUSEADDR enable, .SO_REUSEPORT enable] (setReuseable fd enable) := by
  refine (setOption_tunes fd (.SO_REUSEADDR enable)).seq fun accepted => ?_
  cases accepted with
  | true => exact setOption_tunes fd (.SO_REUSEPORT enable)
  | false => exact (pure_tunes fd false).widen (List.nil_sublist _)

theorem setCloExec_tunes (fd : Fd) : Tunes fd [] (setCloExec fd true) := by
  intro async k s hs
  refine always_ask.2 ⟨Option.isSome_of_eq_some hs, fun ans k' hans => ?_⟩
  cases ans with
  | error errno =>
      cases hans
      exact ⟨s, tuned_refl s, turned_refuse (Kernel.turned_refl async hs) rfl⟩
  | ok flags =>
      obtain ⟨hflags, heq⟩ := Option.ite_none_right_eq_some.1 hans
      cases heq
      rw [hs] at hflags
      cases hflags
      refine always_ask.2 ⟨Option.isSome_of_eq_some hs, fun ans k' hans => ?_⟩
      rcases Kernel.change_cases async hs hans with ⟨-, hturned⟩ | ⟨errno, -, rfl⟩
      · refine ⟨_, ?_, hturned⟩
        exact ⟨⟨[], List.nil_sublist _, (List.append_nil _).symm⟩, .inr rfl, rfl⟩
      · exact ⟨s, tuned_refl s, turned_refuse (Kernel.turned_refl async hs) rfl⟩

/-! ## `Bind` -/

theorem getAddrByIf_always (async : Bool) {pton : InetPton} {family : Family} {adapterName : String}
    {port : UInt16} {addr : Addr} (haddr : (k.blocks.blocks addr).isSome) :
    (getAddrByIf pton family adapterName port addr).Always kernel k fun k' found =>
      k'.sockets = k.sockets ∧ k'.lists.blocks = k.lists.blocks ∧
        k'.interfaces = k.interfaces ∧
        if found then
          ∃ a, Net.getAddrByIf pton k.interfaces family adapterName port = some a ∧
            k'.blocks.blocks = Function.update k.blocks.blocks addr (some a) ∧
            k'.failures async = k.failures async
        else
          k'.blocks.blocks = k.blocks.blocks ∧
            ∃ n, k'.failures async = k.failures async + n ∧
              (Net.getAddrByIf pton k.interfaces family adapterName port = none ∨ 0 < n) := by
  refine always_ask.2 ⟨trivial, fun ans k' hans => ?_⟩
  cases ans with
  | error errno =>
      cases hans
      have hsame := Kernel.refuse_same async k .getifaddrs errno
      exact ⟨rfl, rfl, rfl, rfl, 1, hsame.failures, .inr Nat.one_pos⟩
  | ok ans =>
      obtain ⟨list, ifs⟩ := ans
      obtain ⟨⟨rfl, rfl⟩, heq⟩ := Option.ite_none_right_eq_some.1 hans
      cases heq
      -- the list is freed again, at an address that was not in use
      have hlist : ((k.lists.alloc ()).1.blocks k.lists.next).isSome := by
        rw [show k.lists.next = (k.lists.alloc ()).2 from rfl, Heap.blocks_alloc_self]
        rfl
      have hfreed : ∀ lists, (k.lists.alloc ()).1.free k.lists.next = some lists →
          lists.blocks = k.lists.blocks := by
        intro lists hfree
        rw [Heap.blocks_free hfree]
        show Function.update (Function.update k.lists.blocks k.lists.next (some ())) _ none = _
        rw [Function.update_idem, ← k.lists.unused _ (Nat.le_refl _), Function.update_eq_self]
      dsimp only
      cases hfound : Net.getAddrByIf pton k.interfaces family adapterName port with
      | some a =>
          refine always_ask.2 ⟨haddr, fun _ k' hans => ?_⟩
          obtain ⟨blocks, hstore, rfl⟩ := Option.map_eq_some_iff.1 hans
          refine always_ask.2 ⟨hlist, fun _ k' hans => ?_⟩
          obtain ⟨lists, hfree, rfl⟩ := Option.map_eq_some_iff.1 hans
          exact ⟨rfl, hfreed lists hfree, rfl, a, rfl, Heap.blocks_store hstore, rfl⟩
      | none =>
          refine always_ask.2 ⟨hlist, fun _ k' hans => ?_⟩
          obtain ⟨lists, hfree, rfl⟩ := Option.map_eq_some_iff.1 hans
          exact ⟨rfl, hfreed lists hfree, rfl, rfl, 0, rfl, .inl rfl⟩

/-- The address that `Bind` is to use. -/
def localAddr (pton : InetPton) (k : Kernel) (isIpv6 : Bool) (localIpOrIntf : String)
    (port : UInt16) : Option SockaddrStorage :=
  Net.getAddrByIf pton k.interfaces (if isIpv6 then .AF_INET6 else .AF_INET) localIpOrIntf port

theorem bind_always (async : Bool) {pton : InetPton} {localIpOrIntf : String} {port : UInt16}
    {isIpv6 : Bool}
    (hs : k.sockets fd = some s) :
    (bind pton fd localIpOrIntf port isIpv6).Always kernel k fun k' done =>
      if done then
        ∃ a, localAddr pton k isIpv6 localIpOrIntf port = some a ∧
          Kernel.Turned async fd { s with bound := some a } k k'
      else
        ∃ n, k'.sockets = k.sockets ∧ Kernel.Same async n k k' ∧
          (localAddr pton k isIpv6 localIpOrIntf port = none ∨ 0 < n) := by
  refine always_ask.2 ⟨trivial, fun addr k₁ hans => ?_⟩
  obtain ⟨rfl, heq⟩ := Option.ite_none_right_eq_some.1 hans
  cases heq
  have hunused : k.blocks.blocks k.blocks.next = none := k.blocks.unused _ (Nat.le_refl _)
  have hfreed : ∀ b : Option SockaddrStorage,
      Function.update (Function.update k.blocks.blocks k.blocks.next b) k.blocks.next none =
        k.blocks.blocks := by
    intro b
    rw [Function.update_idem, ← hunused, Function.update_eq_self]
  have hblock : ((k.blocks.alloc .other).1.blocks k.blocks.next).isSome := by
    rw [show k.blocks.next = (k.blocks.alloc .other).2 from rfl, Heap.blocks_alloc_self]
    rfl
  refine (getAddrByIf_always async hblock).then fun k₂ found h => ?_
  obtain ⟨hsockets, hlists, hinterfaces, hfound⟩ := h
  cases found with
  | true =>
      obtain ⟨a, ha, hblocks, hfailures⟩ := hfound
      have hs₂ : k₂.sockets fd = some s := by rw [hsockets, ← hs]
      have ha₂ : k₂.blocks.blocks k.blocks.next = some a := by rw [hblocks, Function.update_self]
      have hfreed₂ : Function.update k₂.blocks.blocks k.blocks.next none = k.blocks.blocks := by
        rw [hblocks]
        show Function.update (Function.update (Function.update k.blocks.blocks _ _) _ _) _ none = _
        rw [Function.update_idem, hfreed]
      refine always_ask.2 ⟨⟨Option.isSome_of_eq_some hs₂, Option.isSome_of_eq_some ha₂⟩,
        fun ans k₃ hans => ?_⟩
      obtain ⟨b, hb, hans⟩ := Option.bind_eq_some_iff.1 hans
      obtain rfl : a = b := Option.some.inj (ha₂.symm.trans hb)
      rcases Kernel.change_cases async hs₂ hans with ⟨hok, hturned⟩ | ⟨errno, hok, rfl⟩
      · refine always_ask.2 ⟨?_, fun _ k₄ hans => ?_⟩
        · show (k₃.blocks.blocks _).isSome
          rw [hturned.blocks]
          exact Option.isSome_of_eq_some ha₂
        · obtain ⟨blocks, hfree, rfl⟩ := Option.map_eq_some_iff.1 hans
          show if ok ans = true then _ else _
          rw [if_pos hok]
          refine ⟨a, ha, ⟨?_, hturned.lists.trans hlists, hturned.interfaces.trans hinterfaces,
            hturned.failures.trans hfailures⟩, ?_⟩
          · rw [Heap.blocks_free hfree, hturned.blocks]
            exact hfreed₂
          · show k₃.sockets = _
            rw [hturned.sockets, hsockets]
      · refine always_ask.2 ⟨Option.isSome_of_eq_some ha₂, fun _ k₄ hans => ?_⟩
        obtain ⟨blocks, hfree, rfl⟩ := Option.map_eq_some_iff.1 hans
        show if ok ans = true then _ else _
        rw [if_neg (Bool.eq_false_iff.1 hok)]
        have hrefused := Kernel.refuse_same async k₂ (.bind fd k.blocks.next) errno
        refine ⟨1, hsockets, ⟨?_, hlists, hinterfaces, ?_⟩, .inr Nat.one_pos⟩
        · exact (Heap.blocks_free hfree).trans hfreed₂
        · exact hrefused.failures.trans (congrArg (· + 1) hfailures)
  | false =>
      obtain ⟨hblocks, n, hfailures, hwhy⟩ := hfound
      refine always_ask.2 ⟨?_, fun _ k₃ hans => ?_⟩
      · show (k₂.blocks.blocks _).isSome
        rw [hblocks]
        exact hblock
      · obtain ⟨blocks, hfree, rfl⟩ := Option.map_eq_some_iff.1 hans
        refine ⟨n, hsockets, ⟨?_, hlists, hinterfaces, hfailures⟩, hwhy⟩
        rw [Heap.blocks_free hfree, hblocks]
        exact hfreed _

/-! ## `Connect` and `Listen` -/

/-- The descriptor that is returned was not open before, and its socket meets `P`.  When none is
returned, nothing has been opened, because of `why` or because a fatal call has been refused. -/
def Opens (async : Bool) (P : SockState → Prop) (why : Prop) (k k' : Kernel) : Option Fd → Prop
  | some fd => k.sockets fd = none ∧ ∃ s, P s ∧ Kernel.Turned async fd s k k'
  | none => k'.sockets = k.sockets ∧ ∃ n, Kernel.Same async n k k' ∧ (why ∨ 0 < n)

theorem createSocket_always (async : Bool) (type : SockType) (isIpv6 : Bool) (k : Kernel) :
    (createSocket type isIpv6).Always kernel k fun k' r =>
      Opens async (· = ⟨if isIpv6 then .AF_INET6 else .AF_INET, type, [], 0, none, none, none⟩)
        False k k' r := by
  refine always_ask.2 ⟨trivial, fun ans k' hans => ?_⟩
  cases ans with
  | ok fd =>
      obtain ⟨hfree, heq⟩ := Option.ite_none_left_eq_some.1 hans
      cases heq
      refine ⟨Option.not_isSome_iff_eq_none.1 hfree, _, rfl, ⟨rfl, rfl, rfl, rfl⟩, rfl⟩
  | error errno =>
      cases hans
      exact ⟨rfl, 1, Kernel.refuse_same async k (.socket _ type) errno, .inr Nat.one_pos⟩

theorem close_always {n : Nat} {P : SockState → Prop} {why : Prop} {k₀ : Kernel}
    (hfd : k₀.sockets fd = none) (hs : k.sockets = Function.update k₀.sockets fd (some s))
    (hsame : Kernel.Same async n k₀ k) (hwhy : why ∨ 0 < n) :
    (ask (SysCall.close fd) >>= fun _ => pure (none : Option Fd)).Always kernel k fun k' r =>
      Opens async P why k₀ k' r := by
  have hopen : k.sockets fd = some s := by rw [hs, Function.update_self]
  have hclosed : Function.update k.sockets fd none = k₀.sockets := by
    rw [hs, Function.update_idem, ← hfd, Function.update_eq_self]
  refine always_ask.2 ⟨Option.isSome_of_eq_some hopen, fun ans k' hans => ?_⟩
  cases ans with
  | ok =>
      cases hans
      exact ⟨hclosed, n, ⟨hsame.blocks, hsame.lists, hsame.interfaces, hsame.failures⟩, hwhy⟩
  | error errno =>
      cases hans
      exact ⟨hclosed, n, ⟨hsame.blocks, hsame.lists, hsame.interfaces, hsame.failures⟩, hwhy⟩

/-- A socket of `Connect`: bound to `a`, with `connect` to `addr` done or, if `async`, begun. -/
structure Connecting (async : Bool) (addr a : SockaddrStorage) (s : SockState) : Prop where
  family : s.family = if addr.family = .AF_INET6 then .AF_INET6 else .AF_INET
  type : s.type = .tcp
  bound : s.bound = some a
  attempt : s.attempt = some (addr, none) ∨ ∃ errno, s.attempt = some (addr, some errno) ∧
    async = true ∧ uvTranslatePosixError errno = EAGAIN
  backlog : s.backlog = none
  opts : s.opts.Sublist [.SO_REUSEADDR true, .SO_REUSEPORT true, .nonBlock async,
    .TCP_NODELAY true, .SO_RCVBUF (256 * 1024), .SO_SNDBUF (256 * 1024), .SO_LINGER false 0]
  flags : s.flags = 0 ∨ s.flags = FD_CLOEXEC

/-- A socket of `Listen`: bound to `a` and, for TCP, listening. -/
structure Listened (sockType : SockType) (isIpv6 : Bool) (backlog : Int32) (a : SockaddrStorage)
    (s : SockState) : Prop where
  family : s.family = if isIpv6 then .AF_INET6 else .AF_INET
  type : s.type = sockType
  bound : s.bound = some a
  attempt : s.attempt = none
  backlog : s.backlog = if sockType = .tcp then some backlog else none
  opts : s.opts.Sublist [.SO_REUSEADDR true, .SO_REUSEPORT true, .nonBlock true]
  flags : s.flags = 0 ∨ s.flags = FD_CLOEXEC

variable {pton : InetPton}

/-- Whatever the kernel refuses: the descriptor that `Listen` returns is new and of a socket that
is bound and listens; when it returns none, it leaves nothing open, and there is no such address
or a call that it needs has been refused.  No memory is left, and nothing is used that has been
closed or freed. -/
theorem listen_always (type : SockType) (port : UInt16) (isIpv6 : Bool) (localIp : String)
    (backlog : Int32) (k : Kernel) :
    (listen pton type port isIpv6 localIp backlog).Always kernel k fun k' r =>
      Opens false (fun s => ∃ a, localAddr pton k isIpv6 localIp port = some a ∧
        Listened type isIpv6 backlog a s) (localAddr pton k isIpv6 localIp port = none) k k' r := by
  refine (createSocket_always false type isIpv6 k).then fun k₁ r h => ?_
  cases r with
  | none =>
      obtain ⟨hsockets, n, hsame, hwhy⟩ := h
      exact ⟨hsockets, n, hsame, .inr (hwhy.resolve_left id)⟩
  | some fd =>
      obtain ⟨hfd, s, rfl, hk₁⟩ := h
      refine (setReuseable_tunes fd true).then (tuned_refl _) hk₁ fun k₂ s₂ _ hs₂ hk₂ => ?_
      refine (setOption_tunes fd (.nonBlock true)).then hs₂ hk₂ fun k₃ s₃ _ hs₃ hk₃ => ?_
      refine (setCloExec_tunes fd).then hs₃ hk₃ fun k₄ s₄ _ hs₄ hk₄ => ?_
      refine (bind_always false hk₄.self).then fun k₅ done h => ?_
      have hsame : localAddr pton k₄ isIpv6 localIp port =
          localAddr pton k isIpv6 localIp port := by
        rw [localAddr, hk₄.interfaces, localAddr]
      rw [hsame] at h
      cases done with
      | false =>
          obtain ⟨n, hsockets, hsame, hwhy⟩ := h
          refine close_always hfd (hsockets.trans hk₄.sockets) (hk₄.toSame.trans hsame) ?_
          rwa [Nat.zero_add]
      | true =>
          obtain ⟨a, ha, hk₅⟩ := h
          have hlistened : ∀ b, b = (if type = .tcp then some backlog else none) →
              Listened type isIpv6 backlog a { s₄ with bound := some a, backlog := b } := by
            rintro b rfl
            obtain ⟨⟨more, hmore, hopts⟩, hflags, hrest⟩ := hs₄
            rw [hrest]
            refine ⟨rfl, rfl, rfl, rfl, rfl, ?_, ?_⟩
            · rw [hopts]
              exact hmore
            · rw [Nat.zero_or] at hflags
              exact hflags
          rw [if_pos rfl]
          split
          · next htcp =>
            refine always_ask.2 ⟨Option.isSome_of_eq_some hk₅.self, fun ans k₆ hans => ?_⟩
            rcases Kernel.change_cases false hk₅.self hans with ⟨hok, hk₆⟩ | ⟨errno, hok, rfl⟩
            · rw [if_pos hok]
              refine ⟨hfd, _, ⟨a, ha, hlistened _ ?_⟩, hk₄.trans (hk₅.trans hk₆)⟩
              rw [if_pos htcp]
            · rw [if_neg (Bool.eq_false_iff.1 hok)]
              have hrefused := Kernel.refuse_same false k₅ (.listen fd backlog) errno
              refine close_always hfd ((hk₄.trans hk₅).sockets)
                ((hk₄.trans hk₅).toSame.trans hrefused) (.inr Nat.one_pos)
          · next hudp =>
            refine ⟨hfd, _, ⟨a, ha, hlistened s₄.backlog ?_⟩, hk₄.trans hk₅⟩
            rw [if_neg hudp]
            exact congrArg SockState.backlog hs₄.rest

/-- Whatever the kernel refuses: the descriptor that `Connect` returns is new and of a socket that
is bound and connected or, if `async`, of which `connect` has said that it is to be waited for;
when it returns none, it leaves nothing open, and there is no such address or a call that it
needs has been refused.  No memory is left, and nothing is used that has been closed or freed. -/
theorem connect_always (parsed : Option SockaddrStorage) (port : UInt16) (localIpOrIntf : String)
    (localPort : UInt16) (async : Bool) (k : Kernel) :
    (connect pton parsed port localIpOrIntf localPort async).Always kernel k fun k' r =>
      Opens async
        (fun s => ∃ addr ∈ parsed, ∃ a ∈ localAddr pton k (addr.family = .AF_INET6) localIpOrIntf
          localPort, Connecting async (addr.setPort port) a s)
        (∀ addr ∈ parsed, localAddr pton k (addr.family = .AF_INET6) localIpOrIntf localPort = none)
        k k' r := by
  cases parsed with
  | none => exact ⟨rfl, 0, Kernel.same_refl async k, .inl fun addr haddr => by cases haddr⟩
  | some addr =>
      refine (createSocket_always async .tcp _ k).then fun k₁ r h => ?_
      cases r with
      | none =>
          obtain ⟨hsockets, n, hsame, hwhy⟩ := h
          exact ⟨hsockets, n, hsame, .inr (hwhy.resolve_left id)⟩
      | some fd =>
          obtain ⟨hfd, s, rfl, hk₁⟩ := h
          refine (setReuseable_tunes fd true).then (tuned_refl _) hk₁ fun k₂ s₂ _ hs₂ hk₂ => ?_
          refine (setOption_tunes fd (.nonBlock async)).then hs₂ hk₂ fun k₃ s₃ _ hs₃ hk₃ => ?_
          refine (setOption_tunes fd (.TCP_NODELAY true)).then hs₃ hk₃ fun k₄ s₄ _ hs₄ hk₄ => ?_
          refine (setOption_tunes fd (.SO_RCVBUF _)).then hs₄ hk₄ fun k₅ s₅ _ hs₅ hk₅ => ?_
          refine (setOption_tunes fd (.SO_SNDBUF _)).then hs₅ hk₅ fun k₆ s₆ _ hs₆ hk₆ => ?_
          refine (setOption_tunes fd (.SO_LINGER _ 0)).then hs₆ hk₆ fun k₇ s₇ _ hs₇ hk₇ => ?_
          refine (setCloExec_tunes fd).then hs₇ hk₇ fun k₈ s₈ _ hs₈ hk₈ => ?_
          refine (bind_always async hk₈.self).then fun k₉ done h => ?_
          have hlocal : localAddr pton k₈ (addr.family = .AF_INET6) localIpOrIntf localPort =
              localAddr pton k (addr.family = .AF_INET6) localIpOrIntf localPort := by
            rw [localAddr, hk₈.interfaces, localAddr]
          rw [hlocal] at h
          cases done with
          | false =>
              obtain ⟨n, hsockets, hsame, hwhy⟩ := h
              refine close_always hfd (hsockets.trans hk₈.sockets) (hk₈.toSame.trans hsame) ?_
              rw [Nat.zero_add]
              refine hwhy.imp_left fun hnone addr' haddr' => ?_
              cases haddr'
              exact hnone
          | true =>
              obtain ⟨a, ha, hk₉⟩ := h
              have hconnecting : ∀ errno, (∀ e, errno = some e → async = true ∧
                  uvTranslatePosixError e = EAGAIN) → Connecting async (addr.setPort port) a
                    { s₈ with bound := some a, attempt := some (addr.setPort port, errno) } := by
                intro errno herrno
                obtain ⟨⟨more, hmore, hopts⟩, hflags, hrest⟩ := hs₈
                rw [hrest]
                refine ⟨?_, rfl, rfl, ?_, rfl, ?_, ?_⟩
                · rw [SockaddrStorage.family_setPort]
                  simp only [decide_eq_true_eq]
                · cases errno with
                  | none => exact .inl rfl
                  | some e => exact .inr ⟨e, rfl, herrno e rfl⟩
                · rw [hopts]
                  exact hmore
                · rw [Nat.zero_or] at hflags
                  exact hflags
              rw [if_pos rfl]
              refine always_ask.2 ⟨Option.isSome_of_eq_some hk₉.self, fun ans k' hans => ?_⟩
              cases ans with
              | ok =>
                  simp only [kernel, Kernel.answer, hk₉.self, Option.map_some,
                    Option.some.injEq] at hans
                  cases hans
                  refine ⟨hfd, _, ⟨addr, rfl, a, ha, hconnecting none fun e he => by cases he⟩,
                    hk₈.trans (hk₉.trans (turned_setSocket async k₉ fd _))⟩
              | error errno =>
                  simp only [kernel, Kernel.answer, hk₉.self, Option.map_some,
                    Option.some.injEq] at hans
                  cases hans
                  -- `connect` has been tried, and has set `errno`
                  have hk₁₀ := hk₈.trans (hk₉.trans
                    (turned_setSocket async k₉ fd { s₈ with
                      bound := some a, attempt := some (addr.setPort port, some errno) }))
                  dsimp only
                  split
                  · next hwait =>
                    have hagain : async = true ∧ uvTranslatePosixError errno = EAGAIN := by
                      rwa [Bool.and_eq_true, decide_eq_true_eq] at hwait
                    refine ⟨hfd, _, ⟨addr, rfl, a, ha, hconnecting (some errno) fun e he => ?_⟩,
                      turned_refuse hk₁₀ ?_⟩
                    · cases he
                      exact hagain
                    · rw [Kernel.Fatal, hwait]
                      rfl
                  · next hfails =>
                    refine close_always hfd hk₁₀.sockets
                      (hk₁₀.toSame.trans (Kernel.refuse_same async _ _ errno)) (.inr ?_)
                    rw [Kernel.Fatal, Bool.eq_false_iff.2 hfails]
                    exact Nat.one_pos

/-! ## What the results mean -/

/-- What is left behind by a function that returns `r`. -/
structure Result (async : Bool) (P : SockState → Prop) (why : Prop) (k k' : Kernel)
    (r : Option Fd) : Prop where
  /-- every block has been freed -/
  blocks : k'.blocks.blocks = k.blocks.blocks
  /-- and every list of `getifaddrs` -/
  lists : k'.lists.blocks = k.lists.blocks
  opened : ∀ fd, r = some fd → k.sockets fd = none ∧
    ∃ s, P s ∧ k'.sockets = Function.update k.sockets fd (some s)
  closed : r = none → k'.sockets = k.sockets
  refused : r = none ↔ why ∨ k.failures async < k'.failures async

theorem Opens.result {P : SockState → Prop} {why : Prop} {r : Option Fd}
    (h : Opens async P why k k' r) (hP : ∀ s, P s → ¬ why) : Result async P why k k' r := by
  cases r with
  | none =>
      obtain ⟨hsockets, n, hsame, hwhy⟩ := h
      refine ⟨hsame.blocks, hsame.lists, fun fd hfd => (by cases hfd),
        fun _ => hsockets, ?_⟩
      refine iff_of_true rfl (hwhy.imp_right fun hn => ?_)
      rw [hsame.failures]
      exact Nat.lt_add_of_pos_right hn
  | some fd =>
      obtain ⟨hfd, s, hs, hk'⟩ := h
      refine ⟨hk'.blocks, hk'.lists, fun fd' heq => ?_, fun hnone => (by cases hnone), ?_⟩
      · cases heq
        exact ⟨hfd, s, hs, hk'.sockets⟩
      · refine iff_of_false (fun hnone => by cases hnone) ?_
        rintro (hwhy | hless)
        · exact hP s hs hwhy
        · rw [hk'.failures] at hless
          exact Nat.lt_irrefl _ hless

theorem localAddr_fits {isIpv6 : Bool} {localIpOrIntf : String} {port : UInt16}
    {a : SockaddrStorage} (h : localAddr pton k isIpv6 localIpOrIntf port = some a) :
    a.family = (if isIpv6 then .AF_INET6 else .AF_INET) ∧ a.getPortFromAddr = port := by
  apply getAddrByIf_fits _ h
  cases isIpv6 <;> simp

/-- `Connect`, whatever the kernel refuses and with whatever `errno`.  Nothing is used that is
closed or has been freed, and no memory is left.  A descriptor that is returned is new, and it is
of a socket that is bound to the local address and port, and connected or, if `async`, one of
which `connect` has said that it is to be waited for.  Otherwise nothing is left open; and that is
so exactly if the host or the local address is not there or a call that is needed is refused. -/
theorem connect_result (pton : InetPton) (parsed : Option SockaddrStorage) (port : UInt16)
    (localIpOrIntf : String) (localPort : UInt16) (async : Bool) (k : Kernel) :
    (connect pton parsed port localIpOrIntf localPort async).Always kernel k fun k' r =>
      Result async
        (fun s => ∃ addr ∈ parsed, ∃ a,
          localAddr pton k (addr.family = .AF_INET6) localIpOrIntf localPort = some a ∧
            a.family = s.family ∧ a.getPortFromAddr = localPort ∧
              Connecting async (addr.setPort port) a s)
        (∀ addr ∈ parsed, localAddr pton k (addr.family = .AF_INET6) localIpOrIntf localPort = none)
        k k' r := by
  refine (connect_always parsed port localIpOrIntf localPort async k).mono fun k' r h => ?_
  have hopens := h.result fun s hs hwhy => by
    obtain ⟨addr, haddr, a, ha, -⟩ := hs
    rw [Option.mem_def, hwhy addr haddr] at ha
    cases ha
  refine { hopens with opened := fun fd hfd => ?_ }
  obtain ⟨hfree, s, ⟨addr, haddr, a, ha, hs⟩, hsockets⟩ := hopens.opened fd hfd
  obtain ⟨hfamily, hport⟩ := localAddr_fits ha
  refine ⟨hfree, s, ⟨addr, haddr, a, ha, ?_, hport, hs⟩, hsockets⟩
  rw [hfamily, hs.family, SockaddrStorage.family_setPort]
  simp only [decide_eq_true_eq]

/-- `Listen`, in the same way: the socket that it returns is bound and, for TCP, listens. -/
theorem listen_result (pton : InetPton) (type : SockType) (port : UInt16) (isIpv6 : Bool)
    (localIp : String) (backlog : Int32) (k : Kernel) :
    (listen pton type port isIpv6 localIp backlog).Always kernel k fun k' r =>
      Result false
        (fun s => ∃ a, localAddr pton k isIpv6 localIp port = some a ∧
          a.family = s.family ∧ a.getPortFromAddr = port ∧ Listened type isIpv6 backlog a s)
        (localAddr pton k isIpv6 localIp port = none) k k' r := by
  refine (listen_always type port isIpv6 localIp backlog k).mono fun k' r h => ?_
  have hopens := h.result fun s hs hwhy => by
    obtain ⟨a, ha, -⟩ := hs
    rw [hwhy] at ha
    cases ha
  refine { hopens with opened := fun fd hfd => ?_ }
  obtain ⟨hfree, s, ⟨a, ha, hs⟩, hsockets⟩ := hopens.opened fd hfd
  obtain ⟨hfamily, hport⟩ := localAddr_fits ha
  exact ⟨hfree, s, ⟨a, ha, hfamily.trans hs.family.symm, hport, hs⟩, hsockets⟩

/-- What `Bind` binds to.  The address that its text stands for depends on the interfaces alone;
there is none exactly if no interface has the name or the address, and the text is not
"0.0.0.0". -/
theorem bind_result (pton : InetPton) (localIpOrIntf : String) (port : UInt16) (isIpv6 : Bool)
    (hs : k.sockets fd = some s) :
    (bind pton fd localIpOrIntf port isIpv6).Always kernel k fun k' done =>
      let family := if isIpv6 then Family.AF_INET6 else Family.AF_INET
      k'.blocks.blocks = k.blocks.blocks ∧ k'.lists.blocks = k.lists.blocks ∧
        (done = true → ∃ a, StandsFor pton k.interfaces family localIpOrIntf port a ∧
          a.family = family ∧ a.getPortFromAddr = port ∧
          k'.sockets = Function.update k.sockets fd (some { s with bound := some a })) ∧
        (done = false → k'.sockets = k.sockets) ∧
        (done = false ↔
          (NoIf pton k.interfaces family localIpOrIntf ∧ localIpOrIntf ≠ "0.0.0.0") ∨
            k.failures true < k'.failures true) := by
  have hfamily : (if isIpv6 then Family.AF_INET6 else Family.AF_INET) ≠ .other := by
    cases isIpv6 <;> simp
  refine (bind_always true hs).mono fun k' done h => ?_
  cases done with
  | true =>
      obtain ⟨a, ha, hk'⟩ := h
      obtain ⟨hfits, hport⟩ := localAddr_fits ha
      refine ⟨hk'.blocks, hk'.lists, fun _ => ⟨a, (getAddrByIf_eq_some_iff hfamily).1 ha, hfits,
        hport, hk'.sockets⟩, fun hfalse => (by cases hfalse), ?_⟩
      refine iff_of_false (fun hfalse => by cases hfalse) ?_
      rintro (hnone | hless)
      · rw [localAddr, (getAddrByIf_eq_none_iff hfamily).2 hnone] at ha
        cases ha
      · rw [hk'.failures] at hless
        exact Nat.lt_irrefl _ hless
  | false =>
      obtain ⟨n, hsockets, hsame, hwhy⟩ := h
      refine ⟨hsame.blocks, hsame.lists, fun htrue => (by cases htrue), fun _ => hsockets, ?_⟩
      refine iff_of_true rfl ?_
      refine hwhy.imp (getAddrByIf_eq_none_iff hfamily).1 fun hn => ?_
      rw [hsame.failures]
      exact Nat.lt_add_of_pos_right hn

/-- The first interface has the name, and the second one has the address as its name. -/
theorem bind_result_name :
    let lo : SockaddrStorage := .inet 0 0x7f000001
    let k : Kernel := {
      sockets := fun n => if n = 5 then some ⟨.AF_INET, .tcp, [], 0, none, none, none⟩ else none
      interfaces := [⟨some "lo", some lo⟩, ⟨some "127.0.0.1", some (.inet 0 7)⟩] }
    (bind ⟨fun _ => some 0x7f000001, fun _ => none⟩ 5 "127.0.0.1" 80 false).Always kernel k
      fun k' done => done = true → ∃ a, a.getPortFromAddr = 80 ∧
        k'.sockets 5 = some ⟨.AF_INET, .tcp, [], 0, some a, none, none⟩ := by
  refine (bind_result _ _ _ _ rfl).mono fun k' done h hdone => ?_
  obtain ⟨a, -, -, hport, hsockets⟩ := h.2.2.1 hdone
  refine ⟨a, hport, ?_⟩
  rw [hsockets, Function.update_self]

/-! ## `openFd` -/

/-- The world has the descriptors of the process open. -/
def Agrees (w : World) (k : Kernel) : Prop := ∀ n, (w.openFds n).isSome = (k.sockets n).isSome

theorem Opens.openFd {P : SockState → Prop} {why : Prop} {w : World} {r : Option Fd}
    (h : Opens async P why k k' r) (hw : Agrees w k) :
    (w.openFd r).2.isSome = r.isSome ∧ Agrees (w.openFd r).1 k' := by
  cases r with
  | none =>
      refine ⟨rfl, fun n => ?_⟩
      rw [h.1]
      exact hw n
  | some fd =>
      obtain ⟨hfd, s, -, hk'⟩ := h
      have hfree : ¬ (w.openFds fd).isSome = true := by
        rw [hw fd, hfd]
        exact Bool.false_ne_true
      rw [World.openFd, if_neg hfree]
      refine ⟨rfl, fun n => ?_⟩
      rw [hk'.sockets]
      show (Function.update w.openFds fd _ n).isSome = _
      rw [Function.update_apply, Function.update_apply]
      split
      · rfl
      · exact hw n

/-- What the sockets of `World` take `Connect` and `Listen` for, an answer that is a number that
is not open, or -1, is what they are. -/
theorem opened_as_openFd {w : World} (hw : Agrees w k) (port : UInt16)
    (localIpOrIntf : String) :
    (∀ parsed localPort async,
      (connect pton parsed port localIpOrIntf localPort async).Always kernel k fun k' r =>
        (w.openFd r).2.isSome = r.isSome ∧ Agrees (w.openFd r).1 k') ∧
    ∀ type isIpv6 backlog,
      (listen pton type port isIpv6 localIpOrIntf backlog).Always kernel k fun k' r =>
        (w.openFd r).2.isSome = r.isSome ∧ Agrees (w.openFd r).1 k' :=
  ⟨fun parsed localPort async =>
      (connect_always parsed port localIpOrIntf localPort async k).mono fun _ _ h => h.openFd hw,
    fun type isIpv6 backlog =>
      (listen_always type port isIpv6 localIpOrIntf backlog k).mono fun _ _ h => h.openFd hw⟩

/-- A kernel that refuses nothing but `connect`, which is to be waited for. -/
def obliging (fd : Fd) (k : Kernel) : (c : SysCall) → c.Answer
  | .socket _ _ => .ok fd
  | .getfd _ => .ok 0
  | .getifaddrs => .ok (k.lists.next, k.interfaces)
  | .malloc => k.blocks.next
  | .freeifaddrs _ | .store _ _ | .free _ => ()
  | .connect _ _ => .error EINPROGRESS
  | .setsockopt _ _ | .setfd _ _ | .bind _ _ | .listen _ _ | .close _ => .ok ()

/-- `Connect` to 127.0.0.1, with `async`. -/
theorem opened_as_openFd_waited : ∃ k', (connect ⟨fun _ => none, fun _ => none⟩
    (some (.inet 0 0x7f000001)) 80 "0.0.0.0" 0 true).run kernel (obliging 5) {} =
      some (k', some 5) ∧ Agrees (({} : World).openFd (some 5)).1 k' := by
  have h : ((connect ⟨fun _ => none, fun _ => none⟩ (some (.inet 0 0x7f000001)) 80 "0.0.0.0" 0
      true).run kernel (obliging 5) {}).map Prod.snd = some (some 5) := by decide +kernel
  obtain ⟨⟨k', r⟩, hrun, rfl⟩ := Option.map_eq_some_iff.1 h
  refine ⟨k', hrun, ?_⟩
  exact (((opened_as_openFd (fun _ => rfl) 80 "0.0.0.0").1 _ 0 true).run hrun).2

end SocketUtils

end CommonLibrary.Net
