import CommonLibrary.Utils.Logger
import CommonLibrary.Utils.LogWriterProgress

/-!
# What becomes of a record

Every record is held by one capturer until it is written, cleared or given up for want of a
writer.  From then on it does not change, so what the writer's thread formats is what the
capturers have put into it.
-/

namespace CommonLibrary.Utils

open Foundation Thread

namespace Logger

variable {env : LogEnv} {l l' : Logger} {a : LoggerAction} {c : CapId} {x : CtxId}

/-! ## The parts of a step -/

theorem setChannelLevel_channel (l : Logger) (level : LogLevel) (id id' : ChannelId) :
    (l.setChannelLevel level id').channel id =
      if id = id' then { l.channel id' with level := level } else l.channel id :=
  Function.update_apply _ _ _ _

theorem setLevel_eq (l : Logger) (level : LogLevel) :
    ∃ channel, l.setLevel level = { l with channel := channel } ∧
      ∀ id, channel id =
        if id ∈ l.channels.toList.map Prod.snd then { l.channel id with level := level }
        else l.channel id := by
  have hfold : ∀ (entries : List (String × ChannelId)) (l : Logger),
      ∃ channel, entries.foldl (fun l entry => l.setChannelLevel level entry.2) l =
          { l with channel := channel } ∧
        ∀ id, channel id =
          if id ∈ entries.map Prod.snd then { l.channel id with level := level }
          else l.channel id := by
    intro entries
    induction entries with
    | nil => exact fun l => ⟨l.channel, rfl, fun id => rfl⟩
    | cons entry entries ih =>
        intro l
        obtain ⟨channel, heq, hchannel⟩ := ih (l.setChannelLevel level entry.2)
        refine ⟨channel, heq, fun id => ?_⟩
        rw [hchannel, List.map_cons, setChannelLevel_channel]
        by_cases hid : id = entry.2
        · rw [if_pos hid, if_pos (List.mem_cons.2 (.inl hid)), hid]
          split <;> rfl
        · rw [if_neg hid]
          simp only [List.mem_cons, hid, false_or]
  exact hfold l.channels.toList l

theorem post_step {w w' : AsyncLogWriter CtxId} {t : ThreadId}
    (hstep : w.step (.post t) = some w') :
    w'.appended = w.appended ∧ w'.delivered = w.delivered ∧ w'.worker = w.worker ∧
      w'.destructor = w.destructor := by
  obtain ⟨-, heq⟩ := Option.ite_none_right_eq_some.1 hstep
  rw [← Option.some.inj heq]
  exact ⟨rfl, rfl, rfl, rfl⟩

theorem append_step {w w' : AsyncLogWriter CtxId} {t : ThreadId}
    (hstep : w.step (.append t x) = some w') :
    w'.appended = w.appended ++ [x] ∧ w'.delivered = w.delivered ∧ w'.worker = w.worker ∧
      w'.destructor = w.destructor := by
  obtain ⟨-, heq⟩ := Option.ite_none_left_eq_some.1 hstep
  rw [← Option.some.inj heq]
  exact ⟨rfl, rfl, rfl, rfl⟩

/-- It is in `for_each`, with a record that it has passed on. -/
def Delivering (w : AsyncLogWriter CtxId) : Printer → Prop
  | .worker => ∃ tmp, w.worker = .deliver tmp
  | .destructor => ∃ tmp, w.destructor = .deliver tmp

theorem Delivering.congr {w w' : AsyncLogWriter CtxId} {who : Printer} (h : Delivering w who)
    (hworker : w'.worker = w.worker) (hdestructor : w'.destructor = w.destructor) :
    Delivering w' who := by
  cases who with
  | worker =>
      obtain ⟨tmp, hpc⟩ := h
      exact ⟨tmp, hworker.trans hpc⟩
  | destructor =>
      obtain ⟨tmp, hpc⟩ := h
      exact ⟨tmp, hdestructor.trans hpc⟩

/-- A step of the writer passes the first record of a batch on, or none. -/
theorem writer_step {w w' : AsyncLogWriter CtxId} {who : Printer}
    (hstep : w.step who.action = some w') :
    w'.appended = w.appended ∧ w'.delivered = w.delivered ++ (who.batch w).head?.toList ∧
      (who.batch w ≠ [] → Delivering w who ∧ Delivering w' who) := by
  cases who with
  | worker =>
      cases AsyncLogWriter.step_stepped hstep with
      | deliver hpc =>
          rw [Printer.batch, hpc]
          exact ⟨rfl, rfl, fun _ => ⟨⟨_, hpc⟩, _, rfl⟩⟩
      | goOn hpc | exit hpc | wait hpc | flush hpc | delivered hpc =>
          rw [Printer.batch, hpc]
          exact ⟨rfl, (List.append_nil _).symm, fun hne => absurd rfl hne⟩
  | destructor =>
      cases AsyncLogWriter.step_stepped hstep with
      | lastDeliver hpc =>
          rw [Printer.batch, hpc]
          exact ⟨rfl, rfl, fun _ => ⟨⟨_, hpc⟩, _, rfl⟩⟩
      | destroy hpc | lastPost hpc | join hpc | lastFlush hpc | lastDelivered hpc =>
          rw [Printer.batch, hpc]
          exact ⟨rfl, (List.append_nil _).symm, fun hne => absurd rfl hne⟩

theorem writer_step_other {w w' : AsyncLogWriter CtxId} {who other : Printer} (hne : other ≠ who)
    (hstep : w.step who.action = some w') (hother : Delivering w other) : Delivering w' other := by
  cases who with
  | worker =>
      cases other with
      | worker => exact absurd rfl hne
      | destructor => cases AsyncLogWriter.step_stepped hstep <;> exact hother
  | destructor =>
      cases other with
      | destructor => exact absurd rfl hne
      | worker => cases AsyncLogWriter.step_stepped hstep <;> exact hother

inductive Stepped (env : LogEnv) (l : Logger) : Logger → Prop
  | configure {channel : ChannelId → LogChannel} {nextChannel : ChannelId}
      {channels : Std.TreeMap String ChannelId}
      (hstill : channels = l.channels ∨ ∀ who, l.printing who = none)
      (hnext : l.nextChannel ≤ nextChannel)
      (hname : ∀ id < l.nextChannel, (channel id).name = (l.channel id).name)
      (hentries : ∀ entry ∈ channels.toList, entry ∈ l.channels.toList ∨
        entry.2 < l.nextChannel ∧ (l.channel entry.2).name = entry.1) :
      Stepped env l
        { l with channel := channel, nextChannel := nextChannel, channels := channels }
  | setWriter (hnone : l.writer = none) : Stepped env l { l with writer := some {} }
  | capture (ctx : LogContext) :
      Stepped env l { l with
        context := Function.update l.context l.nextContext ctx
        nextContext := l.nextContext + 1
        capturer := Function.update l.capturer l.nextCapturer
          { pctx := some l.nextContext, alive := true }
        nextCapturer := l.nextCapturer + 1 }
  | copy {c : CapId} (hready : (l.capturer c).Ready) :
      Stepped env l { l with
        capturer := Function.update
          (Function.update l.capturer c { l.capturer c with pctx := none })
          l.nextCapturer { pctx := (l.capturer c).pctx, alive := true }
        nextCapturer := l.nextCapturer + 1 }
  | putNothing : Stepped env l l
  | put {c : CapId} {x : CtxId} {data : String} (hx : (l.capturer c).Holds x) :
      Stepped env l { l with
        context := Function.update l.context x
          { l.context x with str := (l.context x).str ++ data } }
  | nothing {c : CapId} {alive : Bool} (hready : (l.capturer c).Ready)
      (hnone : (l.capturer c).pctx = none) : Stepped env l (l.setCapturer c { alive := alive })
  | clear {c : CapId} {x : CtxId} (hready : (l.capturer c).Ready)
      (hx : (l.capturer c).Holds x) :
      Stepped env l { l.setCapturer c { alive := true } with cleared := l.cleared ++ [x] }
  | giveUp {c : CapId} {x : CtxId} {alive : Bool} (hready : (l.capturer c).Ready)
      (hx : (l.capturer c).Holds x) :
      Stepped env l { l.setCapturer c { alive := alive } with unwritten := l.unwritten ++ [x] }
  | append {c : CapId} {x : CtxId} {alive : Bool} {t : ThreadId} {w w' : AsyncLogWriter CtxId}
      (hready : (l.capturer c).Ready) (hx : (l.capturer c).Holds x) (hw : l.writer = some w)
      (hidle : w.destructor = .idle) (happend : w.step (.append t x) = some w') :
      Stepped env l
        { l.setCapturer c { pctx := some x, writing := some t, alive := alive } with
          writer := some w' }
  | post {c : CapId} {t : ThreadId} {w w' : AsyncLogWriter CtxId}
      (hwriting : (l.capturer c).writing = some t) (hw : l.writer = some w)
      (hpost : w.step (.post t) = some w') :
      Stepped env l { l.setCapturer c { alive := (l.capturer c).alive } with writer := some w' }
  | writer {w w' : AsyncLogWriter CtxId} {who : Printer} (hfree : l.printing who = none)
      (hw : l.writer = some w) (hstep : w.step who.action = some w')
      (hlast : w.DestroyedLast who.action) :
      Stepped env l { l with
        writer := some w'
        printing := Function.update l.printing who <| (who.batch w).head?.map fun x =>
          { ctx := x, registered := l.names } }
  | channel {who : Printer} {p : Printing} {it : String × ChannelId}
      (hp : l.printing who = some p) (hit : l.channels.toList[p.visited.length]? = some it) :
      Stepped env l { l with
        stdout := l.stdout ++ ((l.channel it.2).write env (l.context p.ctx)).toList
        printing := Function.update l.printing who
          (some { p with visited := p.visited ++ [l.channel it.2] }) }
  | channelsEnd {who : Printer} {p : Printing} (hp : l.printing who = some p)
      (hend : l.channels.toList[p.visited.length]? = none) :
      Stepped env l { l with
        printing := Function.update l.printing who none
        passed := l.passed ++ [p] }

theorem endLine_stepped {t : ThreadId} {alive : Bool} (hready : (l.capturer c).Ready)
    (hadm : ∀ x, (l.capturer c).pctx = some x → ∀ w, l.writer = some w → w.destructor = .idle)
    (hstep : l.endLine t c alive = some l') : l.Stepped env l' := by
  unfold endLine at hstep
  split at hstep
  · next hnone =>
    cases hstep
    exact .nothing hready hnone
  · next x hx =>
    split at hstep
    · cases hstep
      exact .giveUp hready ⟨hx, hready.2⟩
    · next w hw =>
      obtain ⟨w', happend, rfl⟩ := Option.map_eq_some_iff.1 hstep
      exact .append hready ⟨hx, hready.2⟩ hw (hadm x hx w hw) happend

theorem writerStep_stepped {who : Printer}
    (hadm : ∀ w, l.writer = some w → w.DestroyedLast who.action)
    (hstep : l.writerStep who = some l') : l.Stepped env l' := by
  obtain ⟨hfree, hmoved⟩ := Option.ite_none_left_eq_some.1 hstep
  obtain ⟨w, hw, hmoved⟩ := Option.bind_eq_some_iff.1 hmoved
  obtain ⟨w', hstep', rfl⟩ := Option.map_eq_some_iff.1 hmoved
  exact .writer (Option.not_isSome_iff_eq_none.1 hfree) hw hstep' (hadm w hw)

theorem writeChannel_stepped {who : Printer} (hstep : l.writeChannel env who = some l') :
    l.Stepped env l' := by
  obtain ⟨p, hp, rfl⟩ := Option.map_eq_some_iff.1 hstep
  cases hit : l.channels.toList[p.visited.length]? with
  | some it => exact .channel hp hit
  | none => exact .channelsEnd hp hit

theorem step_stepped (hadm : l.Admissible a) (hstep : l.step env a = some l') :
    l.Stepped env l' := by
  cases a with
  | newChannel name level =>
      cases hstep
      refine .configure (.inl rfl) (Nat.le_succ _) (fun id hid => ?_) fun entry => .inl
      rw [Function.update_of_ne (Nat.ne_of_lt hid)]
  | addChannel id =>
      obtain ⟨hid, heq⟩ := Option.ite_none_right_eq_some.1 hstep
      cases heq
      refine .configure (.inr hadm) (Nat.le_refl _) (fun _ _ => rfl) fun entry hentry => ?_
      rw [Std.TreeMap.mem_toList_iff_getElem?_eq_some, Std.TreeMap.getElem?_insert] at hentry
      split at hentry
      · next hname =>
        cases hentry
        exact .inr ⟨hid, Std.LawfulEqCmp.eq_of_compare hname⟩
      · rw [← Std.TreeMap.mem_toList_iff_getElem?_eq_some] at hentry
        exact .inl hentry
  | removeChannel name =>
      cases hstep
      refine .configure (.inr hadm) (Nat.le_refl _) (fun _ _ => rfl) fun entry hentry => .inl ?_
      rw [Std.TreeMap.mem_toList_iff_getElem?_eq_some, Std.TreeMap.getElem?_erase] at hentry
      split at hentry
      · cases hentry
      · rwa [← Std.TreeMap.mem_toList_iff_getElem?_eq_some] at hentry
  | setLevel level =>
      obtain ⟨channel, heq, hchannel⟩ := setLevel_eq l level
      rw [step, heq] at hstep
      cases hstep
      refine .configure (.inl rfl) (Nat.le_refl _) (fun id _ => ?_) fun entry => .inl
      rw [hchannel]
      split <;> rfl
  | setChannelLevel id level =>
      obtain ⟨-, heq⟩ := Option.ite_none_right_eq_some.1 hstep
      cases heq
      refine .configure (.inl rfl) (Nat.le_refl _) (fun id' _ => ?_) fun entry => .inl
      rw [Function.update_apply]
      split
      · next hid => rw [hid]
      · rfl
  | setWriter =>
      cases hstep
      exact .setWriter hadm
  | capture level file tid function line tv =>
      cases hstep
      exact .capture _
  | copy that =>
      obtain ⟨hready, heq⟩ := Option.ite_none_right_eq_some.1 hstep
      cases heq
      exact .copy hready
  | put c data =>
      obtain ⟨hready, heq⟩ := Option.ite_none_right_eq_some.1 hstep
      split at heq
      · cases heq
        exact .putNothing
      · next x hx =>
        cases heq
        exact .put ⟨hx, hready.2⟩
  | endLine t c =>
      obtain ⟨hready, hend⟩ := Option.ite_none_right_eq_some.1 hstep
      exact endLine_stepped hready hadm hend
  | post t c =>
      obtain ⟨hwriting, heq⟩ := Option.ite_none_right_eq_some.1 hstep
      obtain ⟨w', hpost, rfl⟩ := Option.map_eq_some_iff.1 heq
      obtain ⟨w, hw, hpost⟩ := Option.bind_eq_some_iff.1 hpost
      exact .post hwriting hw hpost
  | clear c =>
      obtain ⟨hready, heq⟩ := Option.ite_none_right_eq_some.1 hstep
      cases heq
      cases hpctx : (l.capturer c).pctx with
      | none =>
          rw [Option.toList_none, List.append_nil]
          exact .nothing hready hpctx
      | some x => exact .clear hready ⟨hpctx, hready.2⟩
  | destroy t c =>
      obtain ⟨hready, hend⟩ := Option.ite_none_right_eq_some.1 hstep
      exact endLine_stepped hready hadm hend
  | writer who => exact writerStep_stepped hadm hstep
  | channel who => exact writeChannel_stepped hstep

/-! ## Who has a record -/

structure Owned (l : Logger) : Prop where
  fresh : ∀ c, l.nextCapturer ≤ c → l.capturer c = {}
  known : ∀ c x, (l.capturer c).pctx = some x → x < l.nextContext
  unique : ∀ c c' x, (l.capturer c).pctx = some x → (l.capturer c').pctx = some x → c = c'
  held : ∀ c x, (l.capturer c).Holds x → x ∉ l.settled
  writing : ∀ c t, (l.capturer c).writing = some t →
    ∃ x ∈ l.appended, (l.capturer c).pctx = some x
  settled_known : ∀ x ∈ l.settled, x < l.nextContext
  once : l.settled.Nodup
  somewhere : ∀ x, x < l.nextContext → (∃ c, (l.capturer c).Holds x) ∨ x ∈ l.settled
  dead : ∀ c, (l.capturer c).alive = false → (l.capturer c).writing = none →
    (l.capturer c).pctx = none

theorem settled_congr (happended : l'.appended = l.appended) (hcleared : l'.cleared = l.cleared)
    (hunwritten : l'.unwritten = l.unwritten) : l'.settled = l.settled := by
  rw [settled, happended, hcleared, hunwritten, settled]

theorem settled_of_writer {w : AsyncLogWriter CtxId} (happended : w.appended = l.appended)
    (hx : x ∈ l.settled) : x ∈ w.appended ++ (l.cleared ++ l.unwritten) := by
  rwa [happended]

theorem init_owned : ({} : Logger).Owned where
  fresh _ _ := rfl
  known _ _ h := nomatch h
  unique _ _ _ h := nomatch h
  held _ _ h := nomatch h.1
  writing _ _ h := nomatch h
  settled_known _ h := (List.not_mem_nil h).elim
  once := List.nodup_nil
  somewhere _ h := (Nat.not_lt_zero _ h).elim
  dead _ _ _ := rfl

theorem Owned.of_same (h : l.Owned) (hcapturer : l'.capturer = l.capturer)
    (hnext : l'.nextCapturer = l.nextCapturer) (hcontext : l'.nextContext = l.nextContext)
    (happended : l'.appended = l.appended) (hsettled : l'.settled = l.settled) : l'.Owned where
  fresh := by
    rw [hcapturer, hnext]
    exact h.fresh
  known := by
    rw [hcapturer, hcontext]
    exact h.known
  unique := by
    rw [hcapturer]
    exact h.unique
  held := by
    rw [hcapturer, hsettled]
    exact h.held
  writing := by
    rw [hcapturer, happended]
    exact h.writing
  settled_known := by
    rw [hsettled, hcontext]
    exact h.settled_known
  once := by
    rw [hsettled]
    exact h.once
  somewhere := by
    rw [hcapturer, hcontext, hsettled]
    exact h.somewhere
  dead := by
    rw [hcapturer]
    exact h.dead

theorem Owned.capture (h : l.Owned) {context : CtxId → LogContext} :
    ({ l with
      context := context
      nextContext := l.nextContext + 1
      capturer := Function.update l.capturer l.nextCapturer
        { pctx := some l.nextContext, alive := true }
      nextCapturer := l.nextCapturer + 1 } : Logger).Owned := by
  have hother : ∀ c', c' ≠ l.nextCapturer → Function.update l.capturer l.nextCapturer
      { pctx := some l.nextContext, alive := true } c' = l.capturer c' :=
    fun c' hc' => Function.update_of_ne hc' _ _
  have hthis : Function.update l.capturer l.nextCapturer
      { pctx := some l.nextContext, alive := true } l.nextCapturer =
        { pctx := some l.nextContext, alive := true } := Function.update_self _ _ _
  have hnew : l.nextContext ∉ l.settled :=
    fun hin => Nat.lt_irrefl _ (h.settled_known _ hin)
  refine ⟨fun c' hc' => ?_, fun c' y hy => ?_, fun c' c'' y hy hy' => ?_, fun c' y hy => ?_,
    fun c' t ht => ?_, fun y hy => Nat.lt_succ_of_lt (h.settled_known y hy), h.once,
    fun y hy => ?_, fun c' halive hwriting => ?_⟩
  · dsimp only at hc' ⊢
    rw [hother c' (Nat.ne_of_gt hc')]
    exact h.fresh c' (Nat.le_of_succ_le hc')
  · dsimp only at hy ⊢
    by_cases hc' : c' = l.nextCapturer
    · rw [hc', hthis] at hy
      cases hy
      exact Nat.lt_succ_self _
    · rw [hother c' hc'] at hy
      exact Nat.lt_succ_of_lt (h.known c' y hy)
  · dsimp only at hy hy'
    by_cases hc' : c' = l.nextCapturer <;> by_cases hc'' : c'' = l.nextCapturer
    · rw [hc', hc'']
    · rw [hc', hthis] at hy
      cases hy
      rw [hother c'' hc''] at hy'
      exact absurd (h.known c'' _ hy') (Nat.lt_irrefl _)
    · rw [hc'', hthis] at hy'
      cases hy'
      rw [hother c' hc'] at hy
      exact absurd (h.known c' _ hy) (Nat.lt_irrefl _)
    · rw [hother c' hc'] at hy
      rw [hother c'' hc''] at hy'
      exact h.unique c' c'' y hy hy'
  · dsimp only at hy
    by_cases hc' : c' = l.nextCapturer
    · rw [hc', hthis] at hy
      cases hy.1
      exact hnew
    · rw [hother c' hc'] at hy
      exact h.held c' y hy
  · dsimp only at ht ⊢
    by_cases hc' : c' = l.nextCapturer
    · rw [hc', hthis] at ht
      cases ht
    · rw [hother c' hc'] at ht ⊢
      exact h.writing c' t ht
  · dsimp only at hy ⊢
    rcases Nat.lt_succ_iff_lt_or_eq.1 hy with hold | rfl
    · refine (h.somewhere y hold).imp_left ?_
      rintro ⟨c', hholds⟩
      refine ⟨c', ?_⟩
      rw [hother c' fun hc' => ?_]
      · exact hholds
      · rw [hc', h.fresh _ (Nat.le_refl _)] at hholds
        cases hholds.1
    · refine .inl ⟨l.nextCapturer, ?_⟩
      rw [hthis]
      exact ⟨rfl, rfl⟩
  · dsimp only at halive hwriting ⊢
    by_cases hc' : c' = l.nextCapturer
    · rw [hc', hthis] at halive
      cases halive
    · rw [hother c' hc'] at halive hwriting ⊢
      exact h.dead c' halive hwriting

theorem Owned.copy (h : l.Owned) (hready : (l.capturer c).Ready) :
    ({ l with
      capturer := Function.update
        (Function.update l.capturer c { l.capturer c with pctx := none })
        l.nextCapturer { pctx := (l.capturer c).pctx, alive := true }
      nextCapturer := l.nextCapturer + 1 } : Logger).Owned := by
  have hc : c ≠ l.nextCapturer := by
    rintro rfl
    have hdead := hready.1
    rw [h.fresh _ (Nat.le_refl _)] at hdead
    cases hdead
  -- what each capturer has now
  have hcap : ∀ c', Function.update (Function.update l.capturer c
      { l.capturer c with pctx := none }) l.nextCapturer
        { pctx := (l.capturer c).pctx, alive := true } c' =
      if c' = l.nextCapturer then { pctx := (l.capturer c).pctx, alive := true }
      else if c' = c then { l.capturer c with pctx := none } else l.capturer c' := fun c' => by
    rw [Function.update_apply, Function.update_apply]
  have hfrom : ∀ c' y, (if c' = l.nextCapturer then
        ({ pctx := (l.capturer c).pctx, alive := true } : LogContextCapturer)
      else if c' = c then { l.capturer c with pctx := none } else l.capturer c').pctx = some y →
      (c' = l.nextCapturer ∧ (l.capturer c).pctx = some y) ∨
        (c' ≠ l.nextCapturer ∧ c' ≠ c ∧ (l.capturer c').pctx = some y) := by
    intro c' y hy
    by_cases hc' : c' = l.nextCapturer
    · rw [if_pos hc'] at hy
      exact .inl ⟨hc', hy⟩
    · rw [if_neg hc'] at hy
      by_cases hold : c' = c
      · rw [if_pos hold] at hy
        cases hy
      · rw [if_neg hold] at hy
        exact .inr ⟨hc', hold, hy⟩
  refine ⟨fun c' hc' => ?_, fun c' y hy => ?_, fun c' c'' y hy hy' => ?_, fun c' y hy => ?_,
    fun c' t ht => ?_, h.settled_known, h.once, fun y hy => ?_, fun c' halive hwriting => ?_⟩
  · dsimp only at hc' ⊢
    rw [hcap, if_neg (Nat.ne_of_gt hc'), if_neg]
    · exact h.fresh c' (Nat.le_of_succ_le hc')
    · rintro rfl
      have hdead := hready.1
      rw [h.fresh _ (Nat.le_of_succ_le hc')] at hdead
      cases hdead
  · dsimp only at hy
    rw [hcap] at hy
    rcases hfrom c' y hy with ⟨-, hy⟩ | ⟨-, -, hy⟩
    · exact h.known c y hy
    · exact h.known c' y hy
  · dsimp only at hy hy'
    rw [hcap] at hy hy'
    rcases hfrom c' y hy with ⟨rfl, hold⟩ | ⟨-, hne, hold⟩ <;>
      rcases hfrom c'' y hy' with ⟨rfl, hold'⟩ | ⟨-, hne', hold'⟩
    · rfl
    · exact absurd (h.unique c'' c y hold' hold) hne'
    · exact absurd (h.unique c' c y hold hold') hne
    · exact h.unique c' c'' y hold hold'
  · obtain ⟨hy, hwriting⟩ := hy
    dsimp only at hy hwriting
    rw [hcap] at hy hwriting
    rcases hfrom c' y hy with ⟨-, hy⟩ | ⟨hne, hne', hy⟩
    · exact h.held c y ⟨hy, hready.2⟩
    · rw [if_neg hne, if_neg hne'] at hwriting
      exact h.held c' y ⟨hy, hwriting⟩
  · dsimp only at ht ⊢
    rw [hcap] at ht ⊢
    by_cases hnew : c' = l.nextCapturer
    · rw [if_pos hnew] at ht
      cases ht
    · rw [if_neg hnew] at ht ⊢
      by_cases hold : c' = c
      · rw [if_pos hold] at ht
        rw [hready.2] at ht
        cases ht
      · rw [if_neg hold] at ht ⊢
        exact h.writing c' t ht
  · refine (h.somewhere y hy).imp_left ?_
    rintro ⟨c', hholds⟩
    by_cases hold : c' = c
    · refine ⟨l.nextCapturer, ?_⟩
      dsimp only
      rw [hcap, if_pos rfl, ← hold]
      exact ⟨hholds.1, rfl⟩
    · refine ⟨c', ?_⟩
      dsimp only
      rw [hcap, if_neg ?_, if_neg hold]
      · exact hholds
      · rintro rfl
        rw [h.fresh _ (Nat.le_refl _)] at hholds
        cases hholds.1
  · dsimp only at halive hwriting ⊢
    rw [hcap] at halive hwriting ⊢
    by_cases hnew : c' = l.nextCapturer
    · rw [if_pos hnew] at halive
      cases halive
    · rw [if_neg hnew] at halive hwriting ⊢
      by_cases hold : c' = c
      · rw [if_pos hold]
      · rw [if_neg hold] at halive hwriting ⊢
        exact h.dead c' halive hwriting

theorem Owned.change (h : l.Owned) {capturer : LogContextCapturer}
    (hready : (l.capturer c).alive = true ∨ (l.capturer c).writing ≠ none)
    (hcapturer : l'.capturer = Function.update l.capturer c capturer)
    (hnext : l'.nextCapturer = l.nextCapturer) (hcontext : l'.nextContext = l.nextContext)
    (happended : ∀ x ∈ l.appended, x ∈ l'.appended) (hgrow : ∀ x ∈ l.settled, x ∈ l'.settled)
    (hnew : ∀ x ∈ l'.settled, x ∈ l.settled ∨ (l.capturer c).pctx = some x)
    (hall : ∀ x, (l.capturer c).pctx = some x → x ∈ l'.settled) (honce : l'.settled.Nodup)
    (hgiven : capturer.pctx = none ∧ capturer.writing = none ∨
      ∃ t, ∃ x ∈ l'.appended, capturer.pctx = some x ∧ capturer.writing = some t ∧
        (l.capturer c).pctx = some x) : l'.Owned := by
  have hother : ∀ c', c' ≠ c → l'.capturer c' = l.capturer c' := fun c' hc' => by
    rw [hcapturer, Function.update_of_ne hc']
  have hthis : l'.capturer c = capturer := by rw [hcapturer, Function.update_self]
  have hfrom : ∀ c' y, (l'.capturer c').pctx = some y → (l.capturer c').pctx = some y := by
    intro c' y hy
    by_cases hc' : c' = c
    · rw [hc', hthis] at hy
      rcases hgiven with ⟨hnone, -⟩ | ⟨t, x, -, hx, -, hold⟩
      · rw [hnone] at hy
        cases hy
      · rw [hx] at hy
        cases hy
        rw [hc']
        exact hold
    · rwa [hother c' hc'] at hy
  have hholds : ∀ c' y, (l'.capturer c').Holds y → c' ≠ c ∧ (l.capturer c').Holds y := by
    intro c' y hy
    have hc' : c' ≠ c := by
      rintro rfl
      rw [hthis] at hy
      rcases hgiven with ⟨hnone, -⟩ | ⟨t, x, -, -, hwriting, -⟩
      · exact nomatch hnone.symm.trans hy.1
      · exact nomatch hwriting.symm.trans hy.2
    rw [hother c' hc'] at hy
    exact ⟨hc', hy⟩
  refine ⟨fun c' hc' => ?_, fun c' y hy => ?_, fun c' c'' y hy hy' => ?_, fun c' y hy hin => ?_,
    fun c' t ht => ?_, fun y hy => ?_, honce, fun y hy => ?_, fun c' halive hwriting => ?_⟩
  · rw [hnext] at hc'
    rw [hother c' ?_]
    · exact h.fresh c' hc'
    · rintro rfl
      rw [h.fresh c' hc'] at hready
      rcases hready with halive | hwriting
      · cases halive
      · exact hwriting rfl
  · rw [hcontext]
    exact h.known c' y (hfrom c' y hy)
  · exact h.unique c' c'' y (hfrom c' y hy) (hfrom c'' y hy')
  · obtain ⟨hc', hy⟩ := hholds c' y hy
    rcases hnew y hin with hin | hpctx
    · exact h.held c' y hy hin
    · exact hc' (h.unique c' c y hy.1 hpctx)
  · by_cases hc' : c' = c
    · rw [hc', hthis] at ht ⊢
      rcases hgiven with ⟨-, hnone⟩ | ⟨t', x, hx, hpctx, -, -⟩
      · rw [hnone] at ht
        cases ht
      · exact ⟨x, hx, hpctx⟩
    · rw [hother c' hc'] at ht ⊢
      obtain ⟨x, hx, hpctx⟩ := h.writing c' t ht
      exact ⟨x, happended x hx, hpctx⟩
  · rw [hcontext]
    rcases hnew y hy with hold | hpctx
    · exact h.settled_known y hold
    · exact h.known c y hpctx
  · rw [hcontext] at hy
    rcases h.somewhere y hy with ⟨c', hy'⟩ | hin
    · by_cases hc' : c' = c
      · exact .inr (hall y (hc' ▸ hy'.1))
      · refine .inl ⟨c', ?_⟩
        rwa [hother c' hc']
    · exact .inr (hgrow y hin)
  · by_cases hc' : c' = c
    · rw [hc', hthis] at hwriting ⊢
      rcases hgiven with ⟨hnone, -⟩ | ⟨t, x, -, -, hsome, -⟩
      · exact hnone
      · exact nomatch hsome.symm.trans hwriting
    · rw [hother c' hc'] at halive hwriting ⊢
      exact h.dead c' halive hwriting

theorem Owned.release (h : l.Owned) {alive : Bool}
    (hready : (l.capturer c).alive = true ∨ (l.capturer c).writing ≠ none)
    (hcapturer : l'.capturer = Function.update l.capturer c { alive := alive })
    (hnext : l'.nextCapturer = l.nextCapturer) (hcontext : l'.nextContext = l.nextContext)
    (happended : l'.appended = l.appended) (hsettled : l'.settled = l.settled)
    (hnone : ∀ x, (l.capturer c).pctx = some x → x ∈ l.settled) : l'.Owned := by
  refine h.change hready hcapturer hnext hcontext (fun x hx => ?_) (fun x hx => ?_)
    (fun x hx => .inl ?_) (fun x hx => ?_) ?_ (.inl ⟨rfl, rfl⟩)
  · rwa [happended]
  · rwa [hsettled]
  · rwa [← hsettled]
  · rw [hsettled]
    exact hnone x hx
  · rw [hsettled]
    exact h.once

/-- The capturer had `x`, and it has become of it what `l'` says. -/
theorem Owned.settle (h : l.Owned) {capturer : LogContextCapturer}
    (halive : (l.capturer c).alive = true) (hx : (l.capturer c).Holds x)
    (hcapturer : l'.capturer = Function.update l.capturer c capturer)
    (hnext : l'.nextCapturer = l.nextCapturer) (hcontext : l'.nextContext = l.nextContext)
    (happended : ∀ x ∈ l.appended, x ∈ l'.appended) (hperm : l'.settled.Perm (x :: l.settled))
    (hgiven : capturer.pctx = none ∧ capturer.writing = none ∨
      ∃ t, x ∈ l'.appended ∧ capturer.pctx = some x ∧ capturer.writing = some t) :
    l'.Owned := by
  have hmem : ∀ y, y ∈ l'.settled ↔ y = x ∨ y ∈ l.settled := fun y => by
    rw [hperm.mem_iff, List.mem_cons]
  refine h.change (.inl halive) hcapturer hnext hcontext happended
    (fun y hy => (hmem y).2 (.inr hy)) (fun y hy => ?_) (fun y hy => ?_) ?_ ?_
  · rcases (hmem y).1 hy with rfl | hold
    · exact .inr hx.1
    · exact .inl hold
  · rw [hx.1] at hy
    cases hy
    exact (hmem x).2 (.inl rfl)
  · rw [hperm.nodup_iff, List.nodup_cons]
    exact ⟨h.held c x hx, h.once⟩
  · refine hgiven.imp_right ?_
    rintro ⟨t, hin, hpctx, hwriting⟩
    exact ⟨t, x, hin, hpctx, hwriting, hx.1⟩

theorem appended_eq {w : AsyncLogWriter CtxId} (hw : l.writer = some w) :
    l.appended = w.appended := by
  rw [appended, hw, Option.elim_some]

theorem Stepped.owned (h : l.Owned) (hstep : l.Stepped env l') : l'.Owned := by
  cases hstep with
  | configure | put | channel | channelsEnd => exact h.of_same rfl rfl rfl rfl rfl
  | putNothing => exact h
  | setWriter hnone =>
      have hnil : l.appended = [] := by
        rw [appended, hnone]
        rfl
      exact h.of_same rfl rfl rfl hnil.symm (settled_congr hnil.symm rfl rfl)
  | capture ctx => exact h.capture
  | copy hready => exact h.copy hready
  | nothing hready hnone =>
      refine h.release (.inl hready.1) rfl rfl rfl rfl rfl fun x hx => ?_
      rw [hnone] at hx
      cases hx
  | clear hready hx =>
      refine h.settle hready.1 hx rfl rfl rfl (fun _ => id) ?_ (.inl ⟨rfl, rfl⟩)
      simp only [settled, appended, setCapturer, List.append_assoc, List.singleton_append]
      rw [← List.append_assoc, ← List.append_assoc]
      exact List.perm_middle
  | giveUp hready hx =>
      refine h.settle hready.1 hx rfl rfl rfl (fun _ => id) ?_ (.inl ⟨rfl, rfl⟩)
      simp only [settled, appended, setCapturer, ← List.append_assoc]
      exact List.perm_append_singleton _ _
  | @append c x alive t w w' hready hx hw hidle happend =>
      have hnew : w'.appended = l.appended ++ [x] := by
        rw [(append_step happend).1, appended_eq hw]
      have hmem : ∀ y, y ∈ w'.appended ↔ y ∈ l.appended ++ [x] := fun y => by rw [hnew]
      refine h.settle hready.1 hx rfl rfl rfl (fun y hy => ?_) ?_ (.inr ⟨t, ?_, rfl, rfl⟩)
      · exact (hmem y).2 (List.mem_append_left _ hy)
      · have hsettled : w'.appended ++ (l.cleared ++ l.unwritten) =
            l.appended ++ x :: (l.cleared ++ l.unwritten) := by
          rw [hnew, List.append_assoc, List.singleton_append]
        exact (List.Perm.of_eq hsettled).trans List.perm_middle
      · exact (hmem x).2 (List.mem_append_right _ (List.mem_singleton_self x))
  | @post c t w w' hwriting hw hpost =>
      obtain ⟨happended, -⟩ := post_step hpost
      rw [← appended_eq hw] at happended
      obtain ⟨x, hx, hpctx⟩ := h.writing c t hwriting
      refine h.release (.inr ?_) rfl rfl rfl happended (settled_congr happended rfl rfl)
        fun y hy => ?_
      · rw [hwriting]
        exact Option.some_ne_none t
      · rw [hpctx] at hy
        cases hy
        exact List.mem_append_left _ hx
  | writer hfree hw hstep hlast =>
      obtain ⟨happended, -⟩ := writer_step hstep
      rw [← appended_eq hw] at happended
      exact h.of_same rfl rfl rfl happended (settled_congr happended rfl rfl)

theorem Stepped.kept (h : l.Owned) (hstep : l.Stepped env l') :
    ∀ x ∈ l.settled, x ∈ l'.settled ∧ l'.context x = l.context x := by
  intro x hx
  cases hstep with
  | configure | putNothing | copy | nothing | channel | channelsEnd => exact ⟨hx, rfl⟩
  | setWriter hnone =>
      refine ⟨?_, rfl⟩
      rw [settled, appended, hnone] at hx
      exact hx
  | capture ctx =>
      refine ⟨hx, Function.update_of_ne ?_ _ _⟩
      exact Nat.ne_of_lt (h.settled_known x hx)
  | put hy =>
      refine ⟨hx, Function.update_of_ne ?_ _ _⟩
      rintro rfl
      exact h.held _ _ hy hx
  | clear hready hy =>
      refine ⟨?_, rfl⟩
      simp only [settled, List.mem_append] at hx ⊢
      exact hx.imp_right fun hx => hx.imp_left .inl
  | giveUp hready hy =>
      refine ⟨?_, rfl⟩
      simp only [settled, List.mem_append] at hx ⊢
      exact hx.imp_right fun hx => hx.imp_right .inl
  | @append c y alive t w w' hready hy hw hidle happend =>
      have hnew : w'.appended = l.appended ++ [y] := by
        rw [(append_step happend).1, appended_eq hw]
      refine ⟨?_, rfl⟩
      have hgrow : x ∈ w'.appended ++ (l.cleared ++ l.unwritten) := by
        rw [hnew, List.append_assoc]
        rcases List.mem_append.1 hx with hin | hin
        · exact List.mem_append_left _ hin
        · exact List.mem_append_right _ (List.mem_append_right _ hin)
      exact hgrow
  | @post c t w w' hwriting hw hpost =>
      obtain ⟨happended, -⟩ := post_step hpost
      rw [← appended_eq hw] at happended
      have hstill := settled_of_writer happended hx
      exact ⟨hstill, rfl⟩
  | @writer w w' who hfree hw hstep hlast =>
      obtain ⟨happended, -⟩ := writer_step hstep
      rw [← appended_eq hw] at happended
      have hstill := settled_of_writer happended hx
      exact ⟨hstill, rfl⟩

/-! ## What is printed -/

def lines (env : LogEnv) (l : Logger) (p : Printing) : List String :=
  p.visited.filterMap fun channel => channel.write env (l.context p.ctx)

structure Printed (env : LogEnv) (l : Logger) : Prop where
  named : ∀ entry ∈ l.channels.toList,
    entry.2 < l.nextChannel ∧ (l.channel entry.2).name = entry.1
  writer : ∀ w, l.writer = some w → w.Conserved
  busy : ∀ who p, l.printing who = some p → ∃ w, l.writer = some w ∧ Delivering w who
  passed : (l.passed ++ l.current).map Printing.ctx = l.delivered
  whole : ∀ p ∈ l.passed, p.visited.map LogChannel.name = p.registered
  sorted : ∀ p ∈ l.passed, p.registered.Pairwise fun m n => compare m n = .lt
  part : ∀ who p, l.printing who = some p →
    p.registered = l.names ∧ p.visited.map LogChannel.name = l.names.take p.visited.length
  stdout : l.stdout = (l.passed ++ l.current).flatMap (l.lines env)

theorem init_printed : ({} : Logger).Printed env where
  named _ h := by
    nomatch h
  writer _ h := nomatch h
  busy _ _ h := nomatch h
  passed := rfl
  whole _ h := nomatch h
  sorted _ h := nomatch h
  part _ _ h := nomatch h
  stdout := rfl

theorem delivered_eq {w : AsyncLogWriter CtxId} (hw : l.writer = some w) :
    l.delivered = w.delivered := by
  rw [delivered, hw, Option.elim_some]

theorem mem_current {p : Printing} : p ∈ l.current ↔ ∃ who, l.printing who = some p := by
  simp only [current, List.mem_append, Option.mem_toList]
  refine ⟨fun h => h.elim (⟨.worker, ·⟩) (⟨.destructor, ·⟩), ?_⟩
  rintro ⟨who, hp⟩
  cases who with
  | worker => exact .inl hp
  | destructor => exact .inr hp

theorem current_congr (h : l'.printing = l.printing) : l'.current = l.current := by
  rw [current, h, current]

theorem names_sorted (l : Logger) : l.names.Pairwise fun m n => compare m n = .lt :=
  List.pairwise_map.2 Std.TreeMap.ordered_keys_toList

/-- The destructor passes a record on when it has joined the thread, so the two do not do that at
one time. -/
theorem Printed.unique (h : l.Printed env) {w : AsyncLogWriter CtxId} (hw : l.writer = some w)
    {who : Printer} {other : Printer} (hwho : Delivering w who) (hother : Delivering w other) :
    other = who := by
  have hnot : ¬ (Delivering w .worker ∧ Delivering w .destructor) := by
    rintro ⟨⟨tmp, hworker⟩, tmp', hdestructor⟩
    have hexited := (h.writer w hw).joined (by rw [hdestructor]; trivial)
    rw [hworker] at hexited
    cases hexited
  cases who with
  | worker =>
      cases other with
      | worker => rfl
      | destructor => exact absurd ⟨hwho, hother⟩ hnot
  | destructor =>
      cases other with
      | worker => exact absurd ⟨hother, hwho⟩ hnot
      | destructor => rfl

theorem current_of_alone (who : Printer) (h : ∀ other, other ≠ who → l.printing other = none) :
    l.current = (l.printing who).toList := by
  cases who with
  | worker => rw [current, h .destructor (by decide), Option.toList_none, List.append_nil]
  | destructor => rw [current, h .worker (by decide), Option.toList_none, List.nil_append]

theorem Printed.alone (h : l.Printed env) {w : AsyncLogWriter CtxId} (hw : l.writer = some w)
    {who : Printer} (hwho : Delivering w who) :
    ∀ other, other ≠ who → l.printing other = none := by
  intro other hne
  refine Option.eq_none_iff_forall_ne_some.2 fun p hp => hne ?_
  obtain ⟨w', hw', hother⟩ := h.busy other p hp
  cases hw.symm.trans hw'
  exact h.unique hw hwho hother

theorem Printed.delivered_settled (h : l.Printed env) : ∀ x ∈ l.delivered, x ∈ l.settled := by
  intro x hx
  cases hw : l.writer with
  | none =>
      rw [delivered, hw] at hx
      cases hx
  | some w =>
      have horder := (h.writer w hw).order
      rw [delivered_eq hw] at hx
      refine List.mem_append_left _ ?_
      rw [appended_eq hw, ← horder]
      simp only [List.mem_append]
      exact .inl (.inl (.inl hx))

theorem lines_congr (hcontext : ∀ x ∈ l.delivered, l'.context x = l.context x) {ps : List Printing}
    (hps : ps.map Printing.ctx <+: l.delivered) :
    ps.flatMap (l'.lines env) = ps.flatMap (l.lines env) := by
  refine List.flatMap_congr fun p hp => ?_
  rw [lines, lines, hcontext p.ctx (hps.subset (List.mem_map_of_mem hp))]

theorem Printed.of_same (h : l.Printed env) (hchannel : l'.channel = l.channel)
    (hnext : l'.nextChannel = l.nextChannel) (hchannels : l'.channels = l.channels)
    (hprinting : l'.printing = l.printing) (hpassed : l'.passed = l.passed)
    (hstdout : l'.stdout = l.stdout) (hdelivered : l'.delivered = l.delivered)
    (hwriter : ∀ w, l'.writer = some w → w.Conserved)
    (hbusy : ∀ who p w, l.printing who = some p → l.writer = some w → Delivering w who →
      ∃ w', l'.writer = some w' ∧ Delivering w' who)
    (hcontext : ∀ x ∈ l.delivered, l'.context x = l.context x) : l'.Printed env where
  named := by
    rw [hchannel, hnext, hchannels]
    exact h.named
  writer := hwriter
  busy := by
    rw [hprinting]
    intro who p hp
    obtain ⟨w, hw, hwho⟩ := h.busy who p hp
    exact hbusy who p w hp hw hwho
  passed := by
    rw [hpassed, current_congr hprinting, hdelivered]
    exact h.passed
  whole := by
    rw [hpassed]
    exact h.whole
  sorted := by
    rw [hpassed]
    exact h.sorted
  part := by
    rw [hprinting, names, hchannels]
    exact h.part
  stdout := by
    rw [hstdout, hpassed, current_congr hprinting, h.stdout]
    exact (lines_congr hcontext (h.passed ▸ List.prefix_refl _)).symm

theorem Printed.configure (h : l.Printed env) {channel : ChannelId → LogChannel}
    {nextChannel : ChannelId} {channels : Std.TreeMap String ChannelId}
    (hstill : channels = l.channels ∨ ∀ who, l.printing who = none)
    (hnext : l.nextChannel ≤ nextChannel)
    (hname : ∀ id < l.nextChannel, (channel id).name = (l.channel id).name)
    (hentries : ∀ entry ∈ channels.toList, entry ∈ l.channels.toList ∨
      entry.2 < l.nextChannel ∧ (l.channel entry.2).name = entry.1) :
    Printed env { l with
      channel := channel
      nextChannel := nextChannel
      channels := channels } where
  named := by
    intro entry hentry
    have hold : entry.2 < l.nextChannel ∧ (l.channel entry.2).name = entry.1 :=
      (hentries entry hentry).elim (h.named entry) id
    exact ⟨Nat.lt_of_lt_of_le hold.1 hnext, (hname entry.2 hold.1).trans hold.2⟩
  writer := h.writer
  busy := h.busy
  passed := h.passed
  whole := h.whole
  sorted := h.sorted
  part := by
    intro who p hp
    rcases hstill with rfl | hnone
    · exact h.part who p hp
    · cases (hnone who).symm.trans hp
  stdout := h.stdout

theorem Printed.writerStep (h : l.Printed env) {w w' : AsyncLogWriter CtxId} {who : Printer}
    (hfree : l.printing who = none) (hw : l.writer = some w) (hstep : w.step who.action = some w')
    (hlast : w.DestroyedLast who.action) :
    Printed env { l with
      writer := some w'
      printing := Function.update l.printing who <| (who.batch w).head?.map fun x =>
        { ctx := x, registered := l.names } } := by
  obtain ⟨-, hdelivered, hbegins⟩ := writer_step hstep
  have hconserved : ∀ w'', some w' = some w'' → w''.Conserved := by
    rintro w'' heq
    cases heq
    exact AsyncLogWriter.step_conserved (h.writer w hw) hlast hstep
  cases hbatch : who.batch w with
  | nil =>
      have hsame : Function.update l.printing who none = l.printing :=
        Function.update_eq_self_iff.2 hfree.symm
      rw [hbatch] at hdelivered
      have hold : w'.delivered = l.delivered := by
        rw [hdelivered, delivered_eq hw]
        exact List.append_nil _
      refine h.of_same rfl rfl rfl hsame rfl rfl hold hconserved ?_ fun _ _ => rfl
      intro other p w₀ hp hw₀ hother
      cases hw.symm.trans hw₀
      refine ⟨w', rfl, writer_step_other ?_ hstep hother⟩
      rintro rfl
      cases hfree.symm.trans hp
  | cons x tmp =>
      rw [hbatch] at hdelivered hbegins
      obtain ⟨hwho, hwho'⟩ := hbegins (List.cons_ne_nil _ _)
      have halone := h.alone hw hwho
      have hbefore : l.current = [] := by
        rw [current_of_alone who halone, hfree, Option.toList_none]
      have hself : Function.update l.printing who (some { ctx := x, registered := l.names }) who =
          some { ctx := x, registered := l.names } := Function.update_self _ _ _
      have hother : ∀ other, other ≠ who → Function.update l.printing who
          (some { ctx := x, registered := l.names }) other = none := fun other hne => by
        rw [Function.update_of_ne hne]
        exact halone other hne
      have hafter : current { l with
          writer := some w'
          printing := Function.update l.printing who
            (some { ctx := x, registered := l.names }) } = [{ ctx := x, registered := l.names }] :=
        (current_of_alone who hother).trans (congrArg Option.toList hself)
      have hpassed := h.passed
      have hstdout := h.stdout
      rw [hbefore, List.append_nil] at hpassed hstdout
      have honly : ∀ other p, Function.update l.printing who
          (some { ctx := x, registered := l.names }) other = some p →
          other = who ∧ p = { ctx := x, registered := l.names } := by
        intro other p hp
        by_cases hne : other = who
        · rw [hne, hself] at hp
          exact ⟨hne, (Option.some.inj hp).symm⟩
        · rw [hother other hne] at hp
          cases hp
      refine ⟨h.named, hconserved, fun other p hp => ?_, ?_, h.whole, h.sorted,
        fun other p hp => ?_, ?_⟩
      · rw [(honly other p hp).1]
        exact ⟨w', rfl, hwho'⟩
      · refine (congrArg (List.map Printing.ctx) (congrArg (l.passed ++ ·) hafter)).trans ?_
        rw [List.map_append, hpassed, delivered_eq hw]
        exact hdelivered.symm
      · rw [(honly other p hp).2]
        exact ⟨rfl, rfl⟩
      · refine Eq.trans ?_ (congrArg (List.flatMap _) (congrArg (l.passed ++ ·) hafter)).symm
        rw [List.flatMap_append]
        exact hstdout.trans (List.append_nil _).symm

theorem Printed.current_eq (h : l.Printed env) {who : Printer} {p : Printing}
    (hp : l.printing who = some p) :
    l.current = [p] ∧ ∀ other, other ≠ who → l.printing other = none := by
  obtain ⟨w, hw, hwho⟩ := h.busy who p hp
  have halone := h.alone hw hwho
  exact ⟨by rw [current_of_alone who halone, hp, Option.toList_some], halone⟩

theorem Printed.channel (h : l.Printed env) {who : Printer} {p : Printing}
    {it : String × ChannelId} (hp : l.printing who = some p)
    (hit : l.channels.toList[p.visited.length]? = some it) :
    Printed env { l with
      stdout := l.stdout ++ ((l.channel it.2).write env (l.context p.ctx)).toList
      printing := Function.update l.printing who
        (some { p with visited := p.visited ++ [l.channel it.2] }) } := by
  obtain ⟨hbefore, halone⟩ := h.current_eq hp
  obtain ⟨p', hp'⟩ : ∃ p', p' = { p with visited := p.visited ++ [l.channel it.2] } := ⟨_, rfl⟩
  rw [← hp']
  have hself : Function.update l.printing who (some p') who = some p' := Function.update_self _ _ _
  have hother : ∀ other, other ≠ who → Function.update l.printing who (some p') other = none :=
    fun other hne => by
      rw [Function.update_of_ne hne]
      exact halone other hne
  have hafter : current { l with
      stdout := l.stdout ++ ((l.channel it.2).write env (l.context p.ctx)).toList
      printing := Function.update l.printing who (some p') } = [p'] :=
    (current_of_alone who hother).trans (congrArg Option.toList hself)
  have honly : ∀ other q, Function.update l.printing who (some p') other = some q →
      other = who ∧ q = p' := by
    intro other q hq
    by_cases hne : other = who
    · rw [hne, hself] at hq
      exact ⟨hne, (Option.some.inj hq).symm⟩
    · rw [hother other hne] at hq
      cases hq
  have hpassed := h.passed
  have hstdout := h.stdout
  rw [hbefore] at hpassed hstdout
  refine ⟨h.named, h.writer, fun other q hq => ?_, ?_, h.whole, h.sorted, fun other q hq => ?_, ?_⟩
  · rw [(honly other q hq).1]
    exact h.busy who p hp
  · refine (congrArg (List.map Printing.ctx) (congrArg (l.passed ++ ·) hafter)).trans ?_
    rw [List.map_append] at hpassed ⊢
    rw [hp']
    exact hpassed
  · obtain ⟨hregistered, hvisited⟩ := h.part who p hp
    have hname : l.names[p.visited.length]? = some it.1 := by
      rw [names, List.getElem?_map, hit]
      rfl
    rw [(honly other q hq).2, hp']
    refine ⟨hregistered, ?_⟩
    dsimp only
    rw [List.map_append, hvisited, List.length_append, List.length_singleton, List.take_add_one]
    have hit' : (l.channel it.2).name = it.1 := (h.named it (List.mem_of_getElem? hit)).2
    rw [List.map_singleton, hit']
    exact congrArg _ (congrArg Option.toList hname).symm
  · refine Eq.trans ?_ (congrArg (List.flatMap _) (congrArg (l.passed ++ ·) hafter)).symm
    have hlines : l.lines env p' =
        l.lines env p ++ ((l.channel it.2).write env (l.context p.ctx)).toList := by
      rw [hp', lines, List.filterMap_append, List.filterMap_cons]
      cases (l.channel it.2).write env (l.context p.ctx) <;> rfl
    rw [List.flatMap_append, List.flatMap_singleton] at hstdout ⊢
    refine Eq.trans ?_ (congrArg (l.passed.flatMap (l.lines env) ++ ·) hlines).symm
    rw [← List.append_assoc]
    exact congrArg (· ++ _) hstdout

theorem Printed.channelsEnd (h : l.Printed env) {who : Printer} {p : Printing}
    (hp : l.printing who = some p) (hend : l.channels.toList[p.visited.length]? = none) :
    Printed env { l with
      printing := Function.update l.printing who none
      passed := l.passed ++ [p] } := by
  obtain ⟨hbefore, halone⟩ := h.current_eq hp
  have hnone : ∀ other, Function.update l.printing who none other = none := by
    intro other
    by_cases hne : other = who
    · rw [hne, Function.update_self]
    · rw [Function.update_of_ne hne]
      exact halone other hne
  have hafter : current { l with
      printing := Function.update l.printing who none
      passed := l.passed ++ [p] } = [] :=
    (current_of_alone who fun other _ => hnone other).trans
      (congrArg Option.toList (hnone who))
  have hpassed := h.passed
  have hstdout := h.stdout
  rw [hbefore] at hpassed hstdout
  have hsame : l.passed ++ [p] ++ current { l with
      printing := Function.update l.printing who none
      passed := l.passed ++ [p] } = l.passed ++ [p] := by
    rw [hafter, List.append_nil]
  obtain ⟨hregistered, hvisited⟩ := h.part who p hp
  refine ⟨h.named, h.writer, fun other q hq => ?_, ?_, fun q hq => ?_, fun q hq => ?_,
    fun other q hq => ?_, ?_⟩
  · cases (hnone other).symm.trans hq
  · exact (congrArg (List.map Printing.ctx) hsame).trans hpassed
  · rcases List.mem_append.1 hq with hold | hnew
    · exact h.whole q hold
    · rw [List.mem_singleton.1 hnew, hvisited, hregistered]
      apply List.take_of_length_le
      rw [names, List.length_map]
      exact List.getElem?_eq_none_iff.1 hend
  · rcases List.mem_append.1 hq with hold | hnew
    · exact h.sorted q hold
    · rw [List.mem_singleton.1 hnew, hregistered]
      exact names_sorted l
  · cases (hnone other).symm.trans hq
  · exact hstdout.trans (congrArg (List.flatMap _) hsame).symm

theorem Stepped.printed (hp : l.Printed env) (h : l.Owned) (hstep : l.Stepped env l') :
    l'.Printed env := by
  have hkept : ∀ x ∈ l.delivered, l'.context x = l.context x :=
    fun x hx => (hstep.kept h x (hp.delivered_settled x hx)).2
  cases hstep with
  | configure hstill hnext hname hentries => exact hp.configure hstill hnext hname hentries
  | setWriter hnone =>
      have hnil : l.delivered = [] := by
        rw [delivered, hnone]
        rfl
      refine hp.of_same rfl rfl rfl rfl rfl rfl hnil.symm (fun w hw => ?_) (fun who p w _ hw => ?_)
        hkept
      · rw [← Option.some.inj hw]
        exact AsyncLogWriter.init_conserved
      · cases hnone.symm.trans hw
  | capture | copy | putNothing | put | nothing | clear | giveUp =>
      exact hp.of_same rfl rfl rfl rfl rfl rfl rfl hp.writer (fun _ _ w _ hw hwho => ⟨w, hw, hwho⟩)
        hkept
  | @append c x alive t w w' hready hx hw hidle happend =>
      obtain ⟨-, hdelivered, hworker, hdestructor⟩ := append_step happend
      rw [← delivered_eq hw] at hdelivered
      refine hp.of_same rfl rfl rfl rfl rfl rfl hdelivered (fun w'' hw'' => ?_)
        (fun who p w₀ _ hw₀ hwho => ⟨w', rfl, ?_⟩) hkept
      · cases hw''
        exact AsyncLogWriter.step_conserved (hp.writer w hw) (a := .append t x) hidle happend
      · cases hw.symm.trans hw₀
        exact hwho.congr hworker hdestructor
  | @post c t w w' hwriting hw hpost =>
      obtain ⟨-, hdelivered, hworker, hdestructor⟩ := post_step hpost
      rw [← delivered_eq hw] at hdelivered
      refine hp.of_same rfl rfl rfl rfl rfl rfl hdelivered (fun w'' hw'' => ?_)
        (fun who p w₀ _ hw₀ hwho => ⟨w', rfl, ?_⟩) hkept
      · cases hw''
        exact AsyncLogWriter.step_conserved (hp.writer w hw) (a := .post t) trivial hpost
      · cases hw.symm.trans hw₀
        exact hwho.congr hworker hdestructor
  | writer hfree hw hstep hlast => exact hp.writerStep hfree hw hstep hlast
  | channel hprinting hit => exact hp.channel hprinting hit
  | channelsEnd hprinting hend => exact hp.channelsEnd hprinting hend

/-! ## Runs -/

variable {acts : List LoggerAction}

theorem run_inv (hrun : Run (step env) Admissible {} acts l) : l.Owned ∧ l.Printed env :=
  hrun.invariant (I := fun l => l.Owned ∧ l.Printed env)
    (fun _ _ _ h hadm hstep =>
      have hstepped := step_stepped hadm hstep
      ⟨hstepped.owned h.1, hstepped.printed h.2 h.1⟩)
    ⟨init_owned, init_printed⟩

/-- Every record that has been made is held by one capturer, or it has been written, cleared or
given up for want of a writer, one of that and once.  When no capturer holds it any more, it
stays as it is, and when all capturers are gone, there are no others. -/
theorem records_settle_once (hrun : Run (step env) Admissible {} acts l) :
    l.settled.Nodup ∧
      (∀ x, x < l.nextContext ↔ (∃ c, (l.capturer c).Holds x) ∨ x ∈ l.settled) ∧
      (∀ c x, (l.capturer c).Holds x →
        x ∉ l.settled ∧ ∀ c', (l.capturer c').pctx = some x → c' = c) ∧
      (∀ more l', Run (step env) Admissible l more l' →
        ∀ x ∈ l.settled, x ∈ l'.settled ∧ l'.context x = l.context x) ∧
      ((∀ c, (l.capturer c).alive = false ∧ (l.capturer c).writing = none) →
        ∀ x, x < l.nextContext → x ∈ l.settled) := by
  obtain ⟨h, -⟩ := run_inv hrun
  refine ⟨h.once, fun x => ⟨h.somewhere x, ?_⟩, fun c x hx => ?_, fun more l' hmore x hx => ?_,
    fun hgone x hx => ?_⟩
  · rintro (⟨c, hx⟩ | hx)
    · exact h.known c x hx.1
    · exact h.settled_known x hx
  · exact ⟨h.held c x hx, fun c' hx' => h.unique c' c x hx' hx.1⟩
  · have hall : l'.Owned ∧ x ∈ l'.settled ∧ l'.context x = l.context x :=
      hmore.invariant (I := fun s => s.Owned ∧ x ∈ s.settled ∧ s.context x = l.context x)
        (fun _ _ _ ⟨hs, hin, hsame⟩ hadm hstep =>
          have hstepped := step_stepped hadm hstep
          have hkept := hstepped.kept hs x hin
          ⟨hstepped.owned hs, hkept.1, hkept.2.trans hsame⟩)
        ⟨h, hx, rfl⟩
    exact hall.2
  · refine (h.somewhere x hx).resolve_left ?_
    rintro ⟨c, hheld⟩
    have hnone := h.dead c (hgone c).1 (hgone c).2
    exact nomatch hnone.symm.trans hheld.1

/-- A record that goes over to a second capturer, is written when that is destroyed and passed to
the one channel. -/
def oneRecord : List LoggerAction :=
  [.newChannel "console" .info, .addChannel 0, .setWriter, .capture .warn "f.cpp" 7 "f" 12 {},
    .copy 0, .destroy 7 0, .put 1 "text", .destroy 7 1, .post 7 1, .writer .worker,
    .writer .worker, .writer .worker, .writer .worker, .setChannelLevel 0 .trace,
    .channel .worker, .channel .worker]

theorem oneRecord_run (env : LogEnv) :
    ∃ l, Run (step env) Admissible {} oneRecord l ∧ l.nextContext = 1 ∧ l.appended = [0] ∧
      (∀ c, (l.capturer c).alive = false ∧ (l.capturer c).writing = none) ∧
      l.delivered = [0] ∧ l.stdout.length = 1 := by
  have hrun : Run (step env) Admissible ({} : Logger) oneRecord _ :=
    .cons trivial rfl <| .cons (fun _ => rfl) rfl <| .cons rfl rfl <| .cons trivial rfl <|
    .cons trivial rfl <| .cons (fun _ h => nomatch h) rfl <| .cons trivial rfl <|
    .cons (fun _ _ w hw => by cases hw; rfl) rfl <| .cons trivial rfl <|
    .cons (fun _ _ => trivial) rfl <| .cons (fun _ _ => trivial) rfl <|
    .cons (fun _ _ => trivial) rfl <| .cons (fun _ _ => trivial) rfl <| .cons trivial rfl <|
    .cons trivial rfl <| .cons trivial rfl <| .nil _
  refine ⟨_, hrun, rfl, rfl, fun c => ?_, rfl, rfl⟩
  by_cases h1 : c = 1
  · rw [h1]
    exact ⟨rfl, rfl⟩
  · by_cases h0 : c = 0
    · rw [h0]
      exact ⟨rfl, rfl⟩
    · rw [(run_inv hrun).1.fresh c ((Nat.two_le_iff c).2 ⟨h0, h1⟩)]
      exact ⟨rfl, rfl⟩

theorem records_settle_once_written :
    ∃ (env : LogEnv) (l : Logger), Run (step env) Admissible {} oneRecord l ∧ l.settled.Nodup ∧
      0 ∈ l.settled := by
  obtain ⟨l, hrun, hnext, -, hgone, -, -⟩ := oneRecord_run ⟨"app", 1, fun _ => {}⟩
  obtain ⟨honce, -, -, -, hall⟩ := records_settle_once hrun
  exact ⟨_, l, hrun, honce, hall hgone 0 (hnext ▸ Nat.one_pos)⟩

/-- What has been printed are the records in the order in which they were written, each as it
is now, in one line for every channel that lets its level pass at its turn: of the records that have
been passed on, for all channels that were registered, by their names, and of the one that is being
passed on, for the first of them.  When the destructor of the writer has returned, these are all
records that were written. -/
theorem console_output (hrun : Run (step env) Admissible {} acts l) :
    l.stdout = (l.passed ++ l.current).flatMap (l.lines env) ∧
      (l.passed ++ l.current).map Printing.ctx = l.delivered ∧ l.current.length ≤ 1 ∧
      (∀ p ∈ l.passed, p.visited.map LogChannel.name = p.registered ∧
        p.registered.Pairwise fun m n => compare m n = .lt) ∧
      (∀ p ∈ l.current, p.registered = l.names ∧
        p.visited.map LogChannel.name <+: l.names) ∧
      l.delivered <+: l.appended ∧
      (∀ w, l.writer = some w → w.destructor = .returned →
        l.current = [] ∧ l.delivered = l.appended) := by
  obtain ⟨-, h⟩ := run_inv hrun
  refine ⟨h.stdout, h.passed, ?_, fun p hp => ⟨h.whole p hp, h.sorted p hp⟩, fun p hp => ?_, ?_,
    fun w hw hreturned => ⟨?_, ?_⟩⟩
  · cases hcurrent : l.current with
    | nil => exact Nat.zero_le 1
    | cons p ps =>
        obtain ⟨who, hp⟩ := mem_current.1 (hcurrent ▸ List.mem_cons_self)
        rw [← hcurrent, (h.current_eq hp).1]
        exact Nat.le_refl 1
  · obtain ⟨who, hp⟩ := mem_current.1 hp
    obtain ⟨hregistered, hvisited⟩ := h.part who p hp
    rw [hvisited]
    exact ⟨hregistered, List.take_prefix _ _⟩
  · cases hw : l.writer with
    | none =>
        rw [delivered, appended, hw]
        exact List.prefix_refl _
    | some w =>
        rw [delivered_eq hw, appended_eq hw, ← (h.writer w hw).order, List.append_assoc,
          List.append_assoc]
        exact List.prefix_append _ _
  · refine List.eq_nil_iff_forall_not_mem.2 fun p hp => ?_
    obtain ⟨who, hp⟩ := mem_current.1 hp
    obtain ⟨w', hw', hwho⟩ := h.busy who p hp
    cases hw.symm.trans hw'
    have hexited := (h.writer w hw).joined (by rw [hreturned]; trivial)
    cases who with
    | worker =>
        obtain ⟨tmp, hpc⟩ := hwho
        cases hexited.symm.trans hpc
    | destructor =>
        obtain ⟨tmp, hpc⟩ := hwho
        cases hreturned.symm.trans hpc
  · rw [delivered_eq hw, appended_eq hw, (h.writer w hw).all_delivered hreturned]

theorem console_output_one :
    ∃ (env : LogEnv) (l : Logger), Run (step env) Admissible {} oneRecord l ∧
      l.stdout.length = 1 ∧ l.stdout = (l.passed ++ l.current).flatMap (l.lines env) := by
  obtain ⟨l, hrun, -, -, -, -, hone⟩ := oneRecord_run ⟨"app", 1, fun _ => {}⟩
  exact ⟨_, l, hrun, hone, (console_output hrun).1⟩

end Logger

end CommonLibrary.Utils
