import NativeProxies.Proofs.Bridge.Recording
import NativeProxies.Proofs.Order

/-!
# Registrations

Only objects of the base kind have toggle registrations (`World.regular_run`), so the cache keeps alive
no proxies but theirs.  A bridge registers nothing else, and an object that a bridge has an entry for
does not change its type as long as its address is spared (`World.isObject_next`).  With balanced accounts
every registration in a cache is also in the list of its object (`World.attached`).
-/

namespace NativeProxies

namespace Machine

variable {c c' : Machine} {a : Address} {e : CachedProxy}

/-- Every registration in the cache is one of an object of the base kind. -/
def Regular (c : Machine) : Prop :=
  ∀ a e, c.cache.weak[a]? = some e → e.toggle.isSome → c.types.isObject (c.host.typeOf a)

/-- Entries that are new in the second machine have registrations only for objects of the base kind. -/
def Enters (c c' : Machine) : Prop :=
  ∀ a e, c'.cache.weak[a]? = some e →
    c.cache.weak[a]? = some e ∨ (e.toggle.isSome → c'.types.isObject (c'.host.typeOf a))

theorem enters_of_weak (hw : c'.cache.weak = c.cache.weak) : c.Enters c' :=
  fun _ _ he => .inl (hw ▸ he)

theorem enters_collect (c : Machine) : c.Enters c.collect :=
  fun _ _ he => .inl (weak_collect.1 he).1

theorem enters_leave (c : Machine) : c.Enters c.leave := by
  rcases c.leave_eq with he | he <;> rw [he]
  · exact enters_of_weak c.weak_catchUp
  · exact fun _ _ hw => .inl (c.weak_catchUp ▸ (weak_collect.1 hw).1)

theorem enters_dismiss (c : Machine) (v : Value) : c.Enters (c.dismiss v).1 := by
  cases hv : c.heap.heldProxy? v with
  | none => exact dismiss_of_none hv ▸ enters_of_weak rfl
  | some found =>
    obtain ⟨p, r⟩ := found
    intro a e he
    rw [weak_dismiss_of_some hv] at he
    exact .inl (by grind)

theorem isObject_of_registerProxy (h : (c.registerProxy a).2.isSome) :
    c.types.isObject (c.host.typeOf a) := by
  by_contra ho
  simp [registerProxy, ho] at h

theorem enters_wrap (h : c.Sound) (a : Address) (handedOver : Bool) :
    c.Enters (c.wrap a handedOver).1 := by
  have hk := alike_wrap h a handedOver
  rcases proxyOf?_or h.memory a with ⟨p, hp⟩ | hw
  · exact enters_of_weak (congrArg (fun m => m.cache.weak) (memory_wrap_of_some hp handedOver))
  · intro b e hb
    rw [weak_wrap_of_none h.memory hw] at hb
    rw [hk.types, hk.typeOf]
    split_ifs at hb with hba
    · cases hb
      exact .inr (hba ▸ isObject_of_registerProxy)
    · exact .inl hb

end Machine

theorem Action.enters_run {s : Scope} (h : s.Sound) (a : Action) :
    s.machine.Enters (a.run s).1.machine := by
  rcases run_cases h a with ⟨hq, -⟩ | ⟨n, rfl⟩ | rfl | ⟨b, handedOver, name, rfl, -, he⟩ |
    ⟨e, s', v, rfl, hq, he⟩ | ⟨t, rfl⟩
  · exact Machine.enters_of_weak (congrArg ProxyCache.weak hq.machine.cache)
  · exact Machine.enters_of_weak (s.machine.toggles_applyNotification n).weak
  · exact Machine.enters_of_weak s.machine.weak_catchUp
  · rw [he, machine_afterValue]
    exact Machine.enters_wrap h.machine b handedOver
  · intro a x hx
    rw [he] at hx ⊢
    rw [← hq.machine.cache]
    exact s'.machine.enters_dismiss v a x hx
  · exact Machine.enters_of_weak rfl

namespace World

variable {w : World} {m : Move} {name : String} {c c' : Machine} {a : Address} {e : CachedProxy}

/-- Every registration of a bridge is one of an object of the base kind. -/
def Regular (w : World) : Prop :=
  ∀ name c, w.session.machine? name = some c → c.Regular

theorem enters_tends {t : Step} (ht : Tends c t c') : c.Enters c' := by
  cases ht with
  | catchUp name => exact Machine.enters_of_weak c.weak_catchUp
  | collect name => exact c.enters_collect
  | unstash name stash => exact Machine.enters_of_weak rfl
  | register name d => exact Machine.enters_of_weak rfl
  | catalog name q =>
    exact Machine.enters_of_weak
      (congrArg ProxyCache.weak (Machine.recalls_catalogStep c q).quiet.cache)

/-- A bridge had its entry of an object before a move, or the move made the entry. -/
def Retains (w : World) (s : Session) : Prop :=
  ∀ name c', s.machine? name = some c' → ∀ a e, c'.cache.weak[a]? = some e →
    (∃ c, w.session.machine? name = some c ∧ c.cache.weak[a]? = some e) ∨
      (e.toggle.isSome → s.outside.host.types.isObject (s.outside.host.typeOf a))

theorem retains_put (hc : w.session.machine? name = some c) (he : c.Enters c') :
    w.Retains (w.session.put name c') := by
  intro n x hx a e hw
  obtain ⟨b, hb, rfl⟩ := Option.map_eq_some_iff.1 hx
  by_cases hn : n = name
  · subst hn
    cases (Std.ExtTreeMap.getElem?_insert_self.symm.trans hb : some c'.bridge = some b)
    rcases he a e hw with hw | hf
    · exact .inl ⟨c, hc, hw⟩
    · exact .inr hf
  · have hb' : w.session.bridges[n]? = some b := by
      simp only [Session.put] at hb
      grind
    exact .inl ⟨_, Option.map_eq_some_iff.2 ⟨b, hb', rfl⟩, hw⟩

/-- Bridges that are left alone retain their entries. -/
theorem retains_of_sub {s : Session}
    (hs : ∀ (n : String) (b : Bridge), s.bridges[n]? = some b → b.memory.cache.weak = ∅ ∨
      w.session.bridges[n]? = some b) : w.Retains s := by
  intro n x hx a e hw
  obtain ⟨b, hb, rfl⟩ := Option.map_eq_some_iff.1 hx
  rcases hs n b hb with he | hb'
  · simp [Machine.cache, he] at hw
  · exact .inl ⟨_, Option.map_eq_some_iff.2 ⟨b, hb', rfl⟩, hw⟩

theorem retains_next (h : w.Sound) (m : Move) : w.Retains (w.next m).session := by
  have hb := w.becomes_next m
  generalize w.next m = w' at hb
  cases hb with
  | idle => exact retains_of_sub fun n b hb => .inr hb
  | enter hc => exact retains_put hc (Machine.enters_of_weak (Machine.weak_catchUp _))
  | act action hs => exact retains_put (machine?_of_scope? hs) (Action.enters_run (h.scope hs) action)
  | leave hs => exact retains_put (machine?_of_scope? hs) (Machine.enters_leave _)
  | tend hn hc hv ht => exact retains_put hc (enters_tends ht)
  | @«open» name settings responder ancestorsOnly hn =>
    refine retains_of_sub fun n b hb => ?_
    by_cases hname : n = name
    · subst hname
      rw [Std.ExtTreeMap.getElem?_insert_self] at hb
      exact .inl (Option.some.inj hb ▸ rfl)
    · exact .inr (by grind)
  | close hc hv => exact retains_of_sub fun n b hb => .inr (by grind)
  | host t => exact retains_of_sub fun n b hb => .inr hb
  | reuse t floating ha => exact retains_of_sub fun n b hb => .inr hb

/-- A move makes no instance at an address that a bridge has an entry for. -/
def Spares (w : World) (m : Move) : Prop :=
  ∀ a, (w.session.outside.host.tag? a = none ∨
    ∃ t floating, m = .reuse a t floating ∧ w.session.outside.host.isAlive a = false) →
    w.session.holdings a = []

theorem spares_of_vacant (ht : w.session.outside.host.Typed) (hw : w.Balanced) (hm : w.Vacant m) :
    w.Spares m := by
  rintro a (hn | ⟨t, floating, rfl, hdead⟩)
  · have ho : w.session.outside.host.types.isObject (w.session.outside.host.typeOf a) := by
      rw [Host.typeOf_eq, hn]
      exact ht.isObject
    exact (hw a ho).holdings_eq_nil (Host.counts?_of_tag? hn)
  · exact List.eq_nil_of_length_eq_zero ((length_holdings w a).trans (hm a rfl hdead))

/-- An object that a bridge has an entry for keeps its type. -/
theorem tag?_next (h : w.Sound) (hm : w.Spares m) (hne : w.session.holdings a ≠ []) :
    (w.next m).session.outside.host.tag? a = w.session.outside.host.tag? a := by
  cases develops_next h m with
  | types hx htag => exact htag a
  | @made b t hmade htypes htag hnew =>
    have hb : a ≠ b := by
      rintro rfl
      refine hne (hm a ?_)
      exact hnew.imp_right fun ⟨floating, hx⟩ => ⟨t, floating, hx⟩
    rw [htag, if_neg hb]

theorem holdings_ne_nil (hc : w.session.machine? name = some c) (he : c.cache.weak[a]? = some e) :
    w.session.holdings a ≠ [] := by
  have hh : c.holding? a = some ⟨c.bridge.serial, e.toggle, c.cache.isStrong a⟩ := by
    rw [Machine.holding?, he, Option.map_some]
  exact List.ne_nil_of_mem (Session.mem_holdings.2 ⟨name, c, hc, hh⟩)

theorem isObject_next (h : w.Sound) (hm : w.Spares m) (hne : w.session.holdings a ≠ [])
    (hd : (w.session.outside.host.types.get? (w.session.outside.host.typeOf a)).isSome) :
    (w.next m).session.outside.host.types.isObject ((w.next m).session.outside.host.typeOf a) =
      w.session.outside.host.types.isObject (w.session.outside.host.typeOf a) := by
  rw [Host.typeOf_eq, tag?_next h hm hne, ← Host.typeOf_eq, (develops_next h m).extends.isObject hd]

theorem regular_next (h : w.Sound) (ho : (w.session.outside.host.types.get? .object).isSome)
    (hr : w.Regular) (hm : w.Spares m) : (w.next m).Regular := by
  intro name c' hc' a e he hg
  have ho' := Session.outside_of_machine? hc'
  rw [Machine.types, Machine.host, ho']
  rcases retains_next h m name c' hc' a e he with ⟨c, hc, hce⟩ | hf
  · have hobj := hr name c hc a e hce hg
    rw [Machine.types, Machine.host, Session.outside_of_machine? hc] at hobj
    rwa [isObject_next h hm (holdings_ne_nil hc hce) (TypeTable.defined_of_isObject ho hobj)]
  · exact hf hg

theorem regular_empty : Regular { } := by
  intro name c hc
  simp [Session.machine?] at hc

/-- Every candid move keeps registrations to objects of the base kind. -/
theorem regular_run {ms : List Move} (h : Along Candid { } ms) : (run { } ms).Regular := by
  have hp := h.preserves
    (P := fun w => w.Sound ∧ w.session.outside.host.Typed ∧ w.Watched ∧ w.Regular)
    (fun w m hw hm => ⟨hw.1.next m, (develops_next hw.1 m).typed hm.defined hw.2.1,
      watched_next hw.1 hw.2.1 hw.2.2.1 hm, regular_next hw.1 hw.2.1.object hw.2.2.2
        (spares_of_vacant hw.2.1 hw.2.2.1.balanced hm.vacant)⟩)
    ⟨sound_empty, typed_empty, fun a _ => kept_empty true a, regular_empty⟩
  exact hp.2.2.2

/-- Every registration of a bridge is in the list of its object. -/
theorem attached (hw : w.Balanced) (hr : w.Regular) (hc : w.session.machine? name = some c) :
    c.Attached := by
  intro a e g he hg
  have hobj := hr name c hc a e he (by rw [hg, Option.isSome_some])
  have ho := Session.outside_of_machine? hc
  have hh : c.holding? a = some ⟨c.bridge.serial, some g, c.cache.isStrong a⟩ := by
    rw [Machine.holding?, he, Option.map_some, hg]
  refine ⟨hobj, ?_⟩
  rw [Machine.types, Machine.host, ho] at hobj
  rw [Machine.host, ho]
  exact (hw a hobj).registered _ (Session.mem_holdings.2 ⟨name, c, hc, hh⟩) g rfl

end World

end NativeProxies
