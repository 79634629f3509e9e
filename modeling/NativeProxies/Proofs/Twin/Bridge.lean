import NativeProxies.Proofs.Bridge.Release
import NativeProxies.Proofs.Bridge.Wrap
import NativeProxies.Proofs.Twin.Outside

/-!
# Twin bridges

Two bridges are twins if they differ only by notifications that a filter leaves out and, where that is
allowed, by how strict they are (`Machine.Twins`).  All that a bridge does makes twins of twins, as long
as the bridge ignores what the filter leaves out (`Machine.Ignores`): it catches up with the same
notifications, and an entry is never in the way of a new one, so it does not matter what a strict bridge
would do about that.
-/

namespace NativeProxies

/-- The settings, but as strict as asked for. -/
def Settings.asStrict (s : Settings) (strict : Option Bool) : Settings :=
  { s with strict := strict.getD s.strict }

/-- The bridge, but as strict as asked for. -/
def Bridge.asStrict (b : Bridge) (strict : Option Bool) : Bridge :=
  { b with settings := b.settings.asStrict strict }

@[simp] theorem Bridge.asStrict_none (b : Bridge) : b.asStrict none = b := rfl

namespace Machine

variable {P Q : Nat → Notification → Bool} {strict : Option Bool} {c c' : Machine} {a : Address}

/-- The second machine is the first one, but as strict as asked for, and with other notifications where
`P` leaves them out. -/
def Twins (P : Nat → Notification → Bool) (strict : Option Bool) (c c' : Machine) : Prop :=
  ∃ o, c.outside.Twins P o ∧ c' = ⟨c.bridge.asStrict strict, o⟩

/-- No entry of the cache has a registration that `p` leaves out. -/
def Ignores (p : Notification → Bool) (c : Machine) : Prop :=
  ∀ n, p n = false → c.cache.generation n.object ≠ some n.generation

theorem Ignores.of_sub {p : Notification → Bool} (hi : c.Ignores p)
    (hw : ∀ (a : Address) (e : CachedProxy), c'.cache.weak[a]? = some e → c.cache.weak[a]? = some e) :
    c'.Ignores p := by
  intro n hn hg
  obtain ⟨e, he, ht⟩ := Option.bind_eq_some_iff.1 hg
  exact hi n hn (Option.bind_eq_some_iff.2 ⟨e, hw _ _ he, ht⟩)

theorem Ignores.of_weak {p : Notification → Bool} (hi : c.Ignores p)
    (hw : c'.cache.weak = c.cache.weak) : c'.Ignores p :=
  hi.of_sub fun _ _ he => hw ▸ he

theorem applyNotification_of_ne {n : Notification}
    (hn : c.cache.generation n.object ≠ some n.generation) : c.applyNotification n = c := by
  rw [applyNotification, ProxyCache.applyNotification, if_neg hn]
  rfl

/-- What a bridge ignores makes no difference. -/
theorem foldl_applyNotification_filter {p : Notification → Bool} (hi : c.Ignores p)
    (ns : List Notification) :
    ns.foldl applyNotification c = (ns.filter p).foldl applyNotification c := by
  induction ns generalizing c with
  | nil => rfl
  | cons n ns ih =>
    cases hn : p n with
    | false =>
      rw [List.foldl_cons, applyNotification_of_ne (hi n hn), List.filter_cons, hn,
        if_neg Bool.false_ne_true]
      exact ih hi
    | true =>
      rw [List.foldl_cons, List.filter_cons, hn, if_pos rfl, List.foldl_cons]
      exact ih (hi.of_weak (toggles_applyNotification c n).weak)

namespace Twins

variable (h : c.Twins P strict c')
include h

theorem outside : c.outside.Twins P c'.outside := by
  obtain ⟨o, ho, rfl⟩ := h
  exact ho

theorem bridge : c'.bridge = c.bridge.asStrict strict := by
  obtain ⟨o, ho, rfl⟩ := h
  rfl

theorem serial : c'.bridge.serial = c.bridge.serial := by
  rw [h.bridge]
  rfl

theorem memory : c'.memory = c.memory := by
  rw [Machine.memory, h.bridge]
  rfl

theorem heap : c'.heap = c.heap := congrArg Memory.heap h.memory

theorem cache : c'.cache = c.cache := congrArg Memory.cache h.memory

theorem catalog : c'.bridge.catalog = c.bridge.catalog := by
  rw [h.bridge]
  rfl

theorem host : c'.host = c.host := h.outside.host

theorem types : c'.types = c.types := congrArg Host.types h.host

theorem proxyOf? (a : Address) : c'.proxyOf? a = c.proxyOf? a := by
  rw [Machine.proxyOf?, h.memory, Machine.proxyOf?]

theorem ignores {p : Notification → Bool} (hi : c.Ignores p) : c'.Ignores p :=
  hi.of_weak (by rw [h.cache])

theorem mono (hq : ∀ s n, Q s n → P s n) : c.Twins Q strict c' := by
  obtain ⟨o, ho, rfl⟩ := h
  exact ⟨o, ho.mono hq, rfl⟩

/-! ## Parts of the state -/

theorem setMemory (m : NativeProxies.Memory) : (c.setMemory m).Twins P strict (c'.setMemory m) := by
  obtain ⟨o, ho, rfl⟩ := h
  exact ⟨o, ho, rfl⟩

theorem setHeap (x : Heap) : (c.setHeap x).Twins P strict (c'.setHeap x) := by
  obtain ⟨o, ho, rfl⟩ := h
  exact ⟨o, ho, rfl⟩

theorem setCache (x : ProxyCache) : (c.setCache x).Twins P strict (c'.setCache x) := by
  obtain ⟨o, ho, rfl⟩ := h
  exact ⟨o, ho, rfl⟩

theorem setCatalog (k : Catalog) : (c.setCatalog k).Twins P strict (c'.setCatalog k) := by
  obtain ⟨o, ho, rfl⟩ := h
  exact ⟨o, ho, rfl⟩

theorem setOutside {o o' : Outside} (ho : o.Twins P o') :
    Twins P strict { c with outside := o } { c' with outside := o' } := by
  obtain ⟨_, -, rfl⟩ := h
  exact ⟨o', ho, rfl⟩

theorem setMailbox {m m' : Mailbox} (hm : m.Twins (P c.bridge.serial) m') :
    (c.setMailbox m).Twins P strict (c'.setMailbox m') := by
  obtain ⟨o, ho, rfl⟩ := h
  exact ⟨_, ho.setMailbox hm, rfl⟩

theorem bump (k : Counter) : (c.bump k).Twins P strict (c'.bump k) := by
  obtain ⟨o, ho, rfl⟩ := h
  exact ⟨o, ho, rfl⟩

theorem call (route : Route) (a : Address) :
    (c.call route a).Twins P strict (c'.call route a) := by
  obtain ⟨o, ho, rfl⟩ := h
  exact ⟨_, ho.call _ route a, rfl⟩

theorem mailbox : c.mailbox.Twins (P c.bridge.serial) c'.mailbox := by
  rw [Machine.mailbox, Machine.mailbox, h.serial]
  exact h.outside.mailbox _

/-- A notification that is left out may be put into the mailbox of the second bridge. -/
theorem inject (hc : c.Sound) {n : Notification} (hn : P c.bridge.serial n = false) (foreign : Bool) :
    c.Twins P strict (c'.setMailbox (c'.mailbox.post foreign n)) := by
  have ht := h.setMailbox (h.mailbox.inject hn foreign)
  rwa [setMailbox_mailbox hc] at ht

/-! ## Ownership -/

theorem locate (t : TypeId) :
    (c.locate t).1.Twins P strict (c'.locate t).1 ∧ (c'.locate t).2 = (c.locate t).2 := by
  rw [Machine.locate, Machine.locate, h.types, h.catalog]
  exact ⟨h.setCatalog _, rfl⟩

theorem hook? (t : TypeId) (d : Transfer) :
    (c.hook? t d).1.Twins P strict (c'.hook? t d).1 ∧ (c'.hook? t d).2 = (c.hook? t d).2 := by
  rw [Machine.hook?, Machine.hook?, h.types, h.catalog]
  exact ⟨h.setCatalog _, rfl⟩

theorem labelFor (t : Option TypeId) :
    (c.labelFor t).1.Twins P strict (c'.labelFor t).1 ∧ (c'.labelFor t).2 = (c.labelFor t).2 := by
  rw [Machine.labelFor, Machine.labelFor, h.types, h.catalog]
  exact ⟨h.setCatalog _, rfl⟩

theorem functionRoute (t : TypeId) (d : Transfer) :
    (c.functionRoute t d).1.Twins P strict (c'.functionRoute t d).1 ∧
      (c'.functionRoute t d).2 = (c.functionRoute t d).2 := by
  rw [Machine.functionRoute, Machine.functionRoute, h.types]
  cases (c.types.effectiveFunctions t).bind fun f => f.entry? d with
  | some e => exact ⟨h, rfl⟩
  | none =>
    obtain ⟨ht, he⟩ := h.hook? t d
    exact ⟨ht, congrArg (Option.map fun e => Route.function e d) he⟩

theorem takeRoute (t : TypeId) :
    (c.takeRoute t).1.Twins P strict (c'.takeRoute t).1 ∧ (c'.takeRoute t).2 = (c.takeRoute t).2 := by
  rw [Machine.takeRoute, Machine.takeRoute, h.types]
  split_ifs
  · exact ⟨h, rfl⟩
  · exact h.functionRoute t .take

theorem giveBackRoute (t : TypeId) (g : Option Generation) :
    (c.giveBackRoute t g).1.Twins P strict (c'.giveBackRoute t g).1 ∧
      (c'.giveBackRoute t g).2 = (c.giveBackRoute t g).2 := by
  rw [Machine.giveBackRoute, Machine.giveBackRoute, h.types, h.serial]
  split_ifs
  · exact ⟨h, rfl⟩
  · exact h.functionRoute t .giveBack

theorem follow (a : Address) (d : Transfer) (route : Option Route) :
    (c.follow a d route).1.Twins P strict (c'.follow a d route).1 ∧
      (c'.follow a d route).2 = (c.follow a d route).2 := by
  cases route with
  | some route => exact ⟨h.call route a, rfl⟩
  | none =>
    rw [Machine.follow, Machine.follow, h.types, h.host]
    exact ⟨h, rfl⟩

theorem claim (a : Address) :
    (c.claim a).1.Twins P strict (c'.claim a).1 ∧ (c'.claim a).2 = (c.claim a).2 := by
  obtain ⟨hr, he⟩ := h.takeRoute (c.host.typeOf a)
  rw [Machine.claim, takeReference, Machine.claim, takeReference, h.host, he]
  obtain ⟨hf, hf'⟩ := hr.follow a .take (c.takeRoute (c.host.typeOf a)).2
  exact ⟨hf, congrArg Except.isOk hf'⟩

theorem giveBack (a : Address) (g : Option Generation) :
    (c.giveBack a g).Twins P strict (c'.giveBack a g) := by
  obtain ⟨hr, he⟩ := h.giveBackRoute (c.host.typeOf a) g
  obtain ⟨hf, hf'⟩ := hr.follow a .giveBack (c.giveBackRoute (c.host.typeOf a) g).2
  rw [Machine.giveBack, returnReference, Machine.giveBack, returnReference, h.host, he, hf']
  exact hf.bump _

omit h in
theorem giveBackAll (h : c.Twins P strict c') (items : List (Address × CachedProxy)) :
    (c.giveBackAll items).Twins P strict (c'.giveBackAll items) := by
  induction items generalizing c c' with
  | nil => exact h
  | cons item items ih => exact ih (h.giveBack item.1 item.2.toggle)

/-! ## Notifications -/

theorem applyNotification (n : Notification) :
    (c.applyNotification n).Twins P strict (c'.applyNotification n) := by
  rw [Machine.applyNotification, Machine.applyNotification, h.cache, h.heap]
  have hs := h.setCache (c.cache.applyNotification c.heap n).1
  cases (c.cache.applyNotification c.heap n).2 with
  | none => exact hs
  | some k => cases k <;> exact hs.bump _

omit h in
theorem foldl_applyNotification (h : c.Twins P strict c') (ns : List Notification) :
    Twins P strict (ns.foldl Machine.applyNotification c) (ns.foldl Machine.applyNotification c') := by
  induction ns generalizing c c' with
  | nil => exact h
  | cons n ns ih => exact ih (h.applyNotification n)

theorem catchUp (hi : c.Ignores (P c.bridge.serial)) : c.catchUp.Twins P strict c'.catchUp := by
  have hm := h.mailbox
  have hs := h.setMailbox hm.takeAll
  have hi₀ : (c.setMailbox c.mailbox.takeAll.1).Ignores (P c.bridge.serial) := hi.of_weak rfl
  have hi' := hs.ignores hi₀
  have hf : c.catchUp = ((c.mailbox.pending.toList.filter (P c.bridge.serial)).foldl
      Machine.applyNotification (c.setMailbox c.mailbox.takeAll.1)) :=
    foldl_applyNotification_filter hi₀ _
  have hf' : c'.catchUp = ((c'.mailbox.pending.toList.filter (P c.bridge.serial)).foldl
      Machine.applyNotification (c'.setMailbox c'.mailbox.takeAll.1)) :=
    foldl_applyNotification_filter hi' _
  rw [hf, hf', hm.pending]
  exact hs.foldl_applyNotification _

/-! ## Wrapping and dismissing -/

theorem registerProxy (a : Address) :
    (c.registerProxy a).1.Twins P strict (c'.registerProxy a).1 ∧
      (c'.registerProxy a).2 = (c.registerProxy a).2 := by
  rw [Machine.registerProxy, Machine.registerProxy, h.types, h.host]
  split_ifs
  · exact ⟨h.setMailbox h.mailbox.issue, congrArg some h.mailbox.nextGeneration⟩
  · exact ⟨h, rfl⟩

theorem entered (a : Address) : (c.entered a).Twins P strict (c'.entered a) := by
  obtain ⟨hr, he⟩ := h.registerProxy a
  rw [Machine.entered, Machine.entered, h.memory, h.heap, h.cache, he]
  exact hr.setMemory _

theorem startWatching (a : Address) (g : Generation) (owned : Bool) :
    (c.startWatching a g owned).Twins P strict (c'.startWatching a g owned) := by
  rw [Machine.startWatching, Machine.startWatching, h.serial]
  have hn := (h.call (.method (.watch (.bridge c.bridge.serial g))) a).applyNotification ⟨a, g, false⟩
  split_ifs
  · exact hn.call _ a
  · exact hn

theorem own (a : Address) (g : Option Generation) (handedOver : Bool) :
    (c.own a g handedOver).Twins P strict (c'.own a g handedOver) := by
  have hr : (if handedOver then (c, true) else c.claim a).1.Twins P strict
      (if handedOver then (c', true) else c'.claim a).1 ∧
        (if handedOver then (c', true) else c'.claim a).2 =
          (if handedOver then (c, true) else c.claim a).2 := by
    cases handedOver with
    | true => exact ⟨h, rfl⟩
    | false => exact h.claim a
  rw [Machine.own, Machine.own, hr.2]
  cases g with
  | none => exact hr.1
  | some g => exact hr.1.startWatching a g _

theorem countCreated : c.countCreated.Twins P strict c'.countCreated := by
  obtain ⟨o, ho, rfl⟩ := h
  exact ⟨o, ho, rfl⟩

/-- No entry is in the way of a new one, so it does not matter how strict a bridge is. -/
theorem wrap (hs : c.memory.Sound) (a : Address) (handedOver : Bool) :
    (c.wrap a handedOver).1.Twins P strict (c'.wrap a handedOver).1 ∧
      (c'.wrap a handedOver).2 = (c.wrap a handedOver).2 := by
  rcases proxyOf?_or hs a with ⟨p, hp⟩ | ha
  · rw [wrap_of_some hp, wrap_of_some ((h.proxyOf? a).trans hp)]
    refine ⟨?_, rfl⟩
    cases handedOver with
    | false => exact h.bump _
    | true => exact (h.bump _).giveBack a none
  · have ha' : c'.cache.weak[a]? = none := h.cache ▸ ha
    rw [wrap_of_none hs ha, wrap_of_none (h.memory ▸ hs) ha', (h.registerProxy a).2, h.heap]
    exact ⟨((h.entered a).own a _ handedOver).countCreated, rfl⟩

theorem toValue (hs : c.memory.Sound) (a : Option Address) (handedOver : Bool) :
    (c.toValue a handedOver).1.Twins P strict (c'.toValue a handedOver).1 ∧
      (c'.toValue a handedOver).2 = (c.toValue a handedOver).2 := by
  cases a with
  | none => exact ⟨h, rfl⟩
  | some a =>
    obtain ⟨hw, he⟩ := h.wrap hs a handedOver
    exact ⟨hw, congrArg (Except.map Value.proxy) he⟩

theorem forgotten (hi : c.Ignores (P c.bridge.serial)) (p : ProxyId) (a : Address) :
    (c.forgotten p a).Twins P strict (c'.forgotten p a) := by
  have hk := h.catchUp hi
  rw [Machine.forgotten, Machine.forgotten, hk.memory, hk.heap, hk.cache]
  exact hk.setMemory _

theorem dismiss (hi : c.Ignores (P c.bridge.serial)) (v : Value) :
    (c.dismiss v).1.Twins P strict (c'.dismiss v).1 ∧ (c'.dismiss v).2 = (c.dismiss v).2 := by
  cases hv : c.heap.heldProxy? v with
  | none =>
    rw [dismiss_of_none hv, dismiss_of_none (h.heap ▸ hv)]
    exact ⟨h, rfl⟩
  | some found =>
    rw [dismiss_of_some hv, dismiss_of_some (h.heap ▸ hv), (h.catchUp hi).cache]
    exact ⟨(h.forgotten hi _ _).giveBack _ _, rfl⟩

/-! ## The life of a bridge -/

theorem countCollection : c.countCollection.Twins P strict c'.countCollection := by
  obtain ⟨o, ho, rfl⟩ := h
  exact ⟨o, ho, rfl⟩

theorem swept : c.swept.Twins P strict c'.swept := by
  have hr : c.releaseDead.Twins P strict c'.releaseDead := by
    rw [releaseDead, releaseDead, h.memory]
    exact (h.setMemory _).giveBackAll _
  rw [Machine.swept, Machine.swept, reclaim, reclaim, hr.memory]
  exact hr.setMemory _

theorem collect (hi : c.Ignores (P c.bridge.serial)) : c.collect.Twins P strict c'.collect := by
  rw [collect_eq, collect_eq]
  refine (h.catchUp hi).swept.countCollection.catchUp ?_
  have hk := alike_countCollection c.catchUp.swept
  rw [hk.serial, (alike_swept c.catchUp).serial, c.toggles_catchUp.serial]
  refine hi.of_sub fun a e he => ?_
  rw [cache_countCollection, weak_swept, weak_catchUp] at he
  exact he.1

theorem isDue : c'.isDue = c.isDue := by
  obtain ⟨o, -, rfl⟩ := h
  rfl

theorem leave (hi : c.Ignores (P c.bridge.serial)) : c.leave.Twins P strict c'.leave := by
  have hk := h.catchUp hi
  have hi' : c.catchUp.Ignores (P c.catchUp.bridge.serial) := by
    rw [c.toggles_catchUp.serial]
    exact hi.of_weak c.weak_catchUp
  rw [Machine.leave, Machine.leave, hk.isDue]
  split_ifs
  · exact hk.collect hi'
  · exact hk

theorem outside_close (hs : c.memory.Sound) (hi : c.Ignores (P c.bridge.serial)) :
    c.close.outside.Twins P c'.close.outside := by
  have hk := h.catchUp hi
  rw [Machine.outside_close hs, Machine.outside_close (h.memory ▸ hs), hk.cache]
  exact (hk.giveBackAll _).outside

theorem register (d : Descriptor) : (c.register d).Twins P strict (c'.register d) := by
  rw [Machine.register, Machine.register, h.catalog]
  exact h.setCatalog _

end Twins

end Machine

end NativeProxies
