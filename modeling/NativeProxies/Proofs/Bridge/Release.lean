import NativeProxies.Bridge.Cycle
import NativeProxies.Proofs.Bridge.Account

/-!
# Releasing

Proxies are released by dismissal, by a collection, and when their bridge is closed.  Each way ends
the entry of the object and gives back the reference behind it, once (`Machine.deeds_dismiss`,
`Machine.deeds_collect`, `Machine.deeds_close`).
-/

namespace NativeProxies

namespace Machine

variable {c c' : Machine} {a b : Address}

/-! ## Dismissing -/

/-- The reference behind the entry of an object, if there is one, can be given back.  For a fair deed
it has to be a toggle reference. -/
def Returns (fair : Bool) (c : Machine) (a : Address) : Prop :=
  ∀ e, c.cache.weak[a]? = some e → c.Serves (c.host.typeOf a) ∧
    (fair → e.toggle.isSome ∧ c.types.isObject (c.host.typeOf a))

theorem Alike.returns {fair : Bool} (h : c.Alike c') (hw : c'.cache.weak[a]? = c.cache.weak[a]?)
    (hr : c.Returns fair a) : c'.Returns fair a := by
  intro e he
  rw [h.types, h.typeOf]
  obtain ⟨hs, hf⟩ := hr e (hw ▸ he)
  exact ⟨h.serves hs, hf⟩

theorem heldProxy?_spec {h : Heap} {v : Value} {p : ProxyId} {r : ProxyState}
    (hv : h.heldProxy? v = some (p, r)) :
    v = .proxy p ∧ h.proxy? p = some r ∧ r.released = false := by
  simp only [Heap.heldProxy?, Option.bind_eq_some_iff, Option.map_eq_some_iff,
    Option.filter_eq_some_iff, Prod.mk.injEq] at hv
  obtain ⟨q, hq, r', ⟨hr', hrel⟩, rfl, rfl⟩ := hv
  refine ⟨?_, hr', by simpa using hrel⟩
  cases v <;> simp_all [Value.proxy?]

/-- The machine that has caught up and dropped the entry of a proxy, whose reference it has yet to
give back. -/
def forgotten (c : Machine) (p : ProxyId) (a : Address) : Machine :=
  c.catchUp.setMemory
    { c.catchUp.memory with
      heap := c.catchUp.heap.release p
      cache := (c.catchUp.cache.remove a).1 }

theorem dismiss_of_none {v : Value} (hv : c.heap.heldProxy? v = none) :
    c.dismiss v = (c, false) := by
  rw [dismiss, hv]

theorem dismiss_of_some {v : Value} {p : ProxyId} {r : ProxyState}
    (hv : c.heap.heldProxy? v = some (p, r)) :
    c.dismiss v =
      ((c.forgotten p r.object).giveBack r.object (c.catchUp.cache.generation r.object), true) := by
  rw [dismiss, hv]
  rfl

theorem memory_dismiss_of_some {v : Value} {p : ProxyId} {r : ProxyState}
    (hv : c.heap.heldProxy? v = some (p, r)) :
    (c.dismiss v).1.memory = (c.forgotten p r.object).memory := by
  rw [dismiss_of_some hv, memory_giveBack]

theorem heap_dismiss_of_some {v : Value} {p : ProxyId} {r : ProxyState}
    (hv : c.heap.heldProxy? v = some (p, r)) : (c.dismiss v).1.heap = c.heap.release p := by
  rw [← heap_catchUp c]
  exact congrArg Memory.heap (memory_dismiss_of_some hv)

theorem weak_forgotten (c : Machine) (p : ProxyId) (a : Address) :
    (c.forgotten p a).cache.weak = c.cache.weak.erase a := by
  rw [← c.weak_catchUp]
  rfl

theorem weak_dismiss_of_some {v : Value} {p : ProxyId} {r : ProxyState}
    (hv : c.heap.heldProxy? v = some (p, r)) :
    (c.dismiss v).1.cache.weak = c.cache.weak.erase r.object := by
  rw [← c.weak_forgotten p r.object]
  exact congrArg (fun m => m.cache.weak) (memory_dismiss_of_some hv)

theorem alike_forgotten (h : c.Sound) (p : ProxyId) (a : Address) : c.Alike (c.forgotten p a) :=
  (alike_catchUp h).trans ⟨rfl, rfl, .refl _ _, .refl _⟩

theorem alike_dismiss (h : c.Sound) (v : Value) : c.Alike (c.dismiss v).1 := by
  cases hv : c.heap.heldProxy? v with
  | none => exact dismiss_of_none hv ▸ .refl c
  | some found =>
    rw [dismiss_of_some hv]
    exact (alike_forgotten h _ _).trans (alike_giveBack _ _ _)

theorem holding?_forgotten (c : Machine) (p : ProxyId) (a b : Address) :
    (c.forgotten p a).holding? b = if b = a then none else c.catchUp.holding? b := by
  have hw : (c.catchUp.cache.weak.erase a)[b]? = if b = a then none else c.catchUp.cache.weak[b]? := by
    grind
  have hs : b ≠ a → (c.catchUp.cache.strong.erase a).contains b = c.catchUp.cache.isStrong b := by
    intro hb
    simp only [ProxyCache.isStrong]
    grind
  have he : (c.forgotten p a).holding? b =
      (c.catchUp.cache.weak.erase a)[b]?.map fun e =>
        ⟨c.catchUp.bridge.serial, e.toggle, (c.catchUp.cache.strong.erase a).contains b⟩ := rfl
  rw [he, hw]
  split_ifs with hb
  · rfl
  · rw [hs hb]
    rfl

theorem dismiss_spec (h : c.memory.Sound) (v : Value) :
    (c.dismiss v).1.memory.Sound ∧ c.heap.Sub (c.dismiss v).1.heap := by
  cases hv : c.heap.heldProxy? v with
  | none => exact dismiss_of_none hv ▸ ⟨h, .refl _⟩
  | some found =>
    obtain ⟨p, r⟩ := found
    obtain ⟨-, hp, hr⟩ := heldProxy?_spec hv
    have hk : c.catchUp.heap = c.heap := c.toggles_catchUp.heap
    have hl : c.catchUp.heap.IsLive p r.object := hk ▸ ⟨r, hp, rfl, hr⟩
    refine ⟨memory_dismiss_of_some hv ▸ (c.toggles_catchUp.sound h).dismiss hl, fun n hn => ?_⟩
    rwa [heap_dismiss_of_some hv, Heap.holds_release]

theorem Sound.dismiss (h : c.Sound) (v : Value) : (c.dismiss v).1.Sound :=
  h.of_alike (alike_dismiss h v) (dismiss_spec h.memory v).1

/-- Dismissing a proxy ends the entry of its object. -/
theorem deeds_dismiss {fair : Bool} (h : c.Sound) (v : Value) (a : Address) (l : Nat)
    {hs : List Holding} (hne : c.bridge.serial ∉ hs.map Holding.serial) (hr : c.Returns fair a) :
    Deeds fair (c.account a l hs) ((c.dismiss v).1.account a l hs) := by
  cases hv : c.heap.heldProxy? v with
  | none => exact dismiss_of_none hv ▸ .refl
  | some found =>
    obtain ⟨p, r⟩ := found
    have hg := alike_giveBack (c.forgotten p r.object) r.object (c.catchUp.cache.generation r.object)
    have hh : (c.dismiss v).1.holding? a = (c.forgotten p r.object).holding? a := by
      rw [dismiss_of_some hv]
      exact holding?_of_memory hg.serial (memory_giveBack _ _ _) a
    refine (deeds_catchUp h a l hne).trans ?_
    rw [account, account, hh, holding?_forgotten, dismiss_of_some hv]
    by_cases ha : a = r.object
    · subst ha
      obtain ⟨-, hp, hrel⟩ := heldProxy?_spec hv
      obtain ⟨e, he, -⟩ := h.memory.cached r.object p ⟨r, hp, rfl, hrel⟩
      have hw : c.catchUp.cache.weak[r.object]? = some e :=
        (congrArg (fun m : Map Address CachedProxy => m[r.object]?) c.toggles_catchUp.weak).trans he
      have hgen : c.catchUp.cache.generation r.object = e.toggle := by
        rw [ProxyCache.generation, hw]
        rfl
      have hf := alike_forgotten h p r.object
      obtain ⟨hs', hfair⟩ := hr e he
      rw [if_pos rfl, holding?, hw, hgen]
      exact deeds_giveBack (c := c.forgotten p r.object) l hs (hf.typeOf _ ▸ hf.serves hs')
        (by rwa [hf.types, hf.typeOf])
    · rw [if_neg ha, account_giveBack_of_ne ha]
      exact .refl

/-! ## Giving back several references -/

theorem giveBackAll_cons (c : Machine) (item : Address × CachedProxy)
    (items : List (Address × CachedProxy)) :
    c.giveBackAll (item :: items) = (c.giveBack item.1 item.2.toggle).giveBackAll items := rfl

@[simp] theorem memory_giveBackAll (c : Machine) (items : List (Address × CachedProxy)) :
    (c.giveBackAll items).memory = c.memory := by
  induction items generalizing c with
  | nil => rfl
  | cons item items ih => rw [giveBackAll_cons, ih, memory_giveBack]

theorem alike_giveBackAll (c : Machine) (items : List (Address × CachedProxy)) :
    c.Alike (c.giveBackAll items) := by
  induction items generalizing c with
  | nil => exact .refl c
  | cons item items ih => exact (alike_giveBack c _ _).trans (ih _)

theorem account_giveBackAll_of_not_mem {items : List (Address × CachedProxy)}
    (ha : a ∉ items.map Prod.fst) (l : Nat) (hs : List Holding) :
    (c.giveBackAll items).outside.account a l hs = c.outside.account a l hs := by
  induction items generalizing c with
  | nil => rfl
  | cons item items ih =>
    rw [List.map_cons, List.mem_cons, not_or] at ha
    rw [giveBackAll_cons, ih ha.2, account_giveBack_of_ne ha.1]

/-- Of several entries of different objects, one concerns the account of an object. -/
theorem deeds_giveBackAll {fair strong : Bool} {items : List (Address × CachedProxy)}
    {e : CachedProxy} (hd : (items.map Prod.fst).Nodup) (hm : (a, e) ∈ items)
    (hc : c.Serves (c.host.typeOf a))
    (hf : fair → e.toggle.isSome ∧ c.types.isObject (c.host.typeOf a)) (l : Nat)
    (hs : List Holding) :
    Deeds fair (c.outside.account a l (⟨c.bridge.serial, e.toggle, strong⟩ :: hs))
      ((c.giveBackAll items).outside.account a l hs) := by
  induction items generalizing c with
  | nil => simp at hm
  | cons item items ih =>
    rw [List.map_cons, List.nodup_cons] at hd
    rw [giveBackAll_cons]
    rcases List.mem_cons.1 hm with rfl | hm
    · rw [account_giveBackAll_of_not_mem hd.1]
      exact deeds_giveBack l hs hc hf
    · have hk := alike_giveBack c item.1 item.2.toggle
      have hne : a ≠ item.1 := by
        rintro rfl
        exact hd.1 (List.mem_map.2 ⟨_, hm, rfl⟩)
      rw [← account_giveBack_of_ne hne item.2.toggle, ← hk.serial]
      exact ih hd.2 hm (hk.typeOf a ▸ hk.serves hc) (by rwa [hk.types, hk.typeOf])

theorem giveBackRoute_setMemory (c : Machine) (m : Memory) (t : TypeId) (g : Option Generation) :
    (c.setMemory m).giveBackRoute t g =
      ((c.giveBackRoute t g).1.setMemory m, (c.giveBackRoute t g).2) := by
  have ht : (c.setMemory m).types = c.types := rfl
  simp only [giveBackRoute, functionRoute, ht]
  split_ifs
  · rfl
  · split <;> rfl

theorem follow_setMemory (c : Machine) (m : Memory) (a : Address) (d : Transfer)
    (route : Option Route) :
    (c.setMemory m).follow a d route =
      ((c.follow a d route).1.setMemory m, (c.follow a d route).2) := by
  cases route <;> rfl

/-- Giving back a reference does not look at the memory. -/
theorem giveBack_setMemory (c : Machine) (m : Memory) (a : Address) (g : Option Generation) :
    (c.setMemory m).giveBack a g = (c.giveBack a g).setMemory m := by
  have hr : (c.setMemory m).returnReference a g =
      ((c.returnReference a g).1.setMemory m, (c.returnReference a g).2) := by
    have hh : (c.setMemory m).host = c.host := rfl
    rw [returnReference, hh, giveBackRoute_setMemory]
    exact follow_setMemory _ m a .giveBack _
  rw [giveBack, hr]
  rfl

theorem giveBackAll_setMemory (c : Machine) (m : Memory) (items : List (Address × CachedProxy)) :
    (c.setMemory m).giveBackAll items = (c.giveBackAll items).setMemory m := by
  induction items generalizing c with
  | nil => rfl
  | cons item items ih => rw [giveBackAll_cons, giveBack_setMemory, ih, giveBackAll_cons]

/-! ## Sweeping -/

theorem alike_setMemory (c : Machine) (m : Memory) : c.Alike (c.setMemory m) :=
  ⟨rfl, rfl, .refl _ _, .refl _⟩

theorem nodup_entries (c : Machine) : (c.cache.weak.toList.map Prod.fst).Nodup :=
  nodup_keys_toList c.cache.weak

/-- The entries that a collection drops. -/
def dead (c : Machine) : List (Address × CachedProxy) := c.memory.evict.2

theorem mem_dead {e : CachedProxy} : (a, e) ∈ c.dead ↔
    c.cache.weak[a]? = some e ∧ c.memory.marks.contains (.proxy e.proxy) = false :=
  Memory.mem_evict_iff

theorem nodup_dead (c : Machine) : (c.dead.map Prod.fst).Nodup := c.memory.nodup_evict

theorem releaseDead_eq (c : Machine) :
    c.releaseDead = (c.giveBackAll c.dead).setMemory c.memory.evict.1 :=
  giveBackAll_setMemory c _ _

/-- The machine that has dropped the dead entries and nodes, and has given back the references behind
the entries. -/
def swept (c : Machine) : Machine := c.releaseDead.reclaim

theorem memory_swept (c : Machine) : c.swept.memory = c.memory.evict.1.reclaim := by
  have hm : (c.setMemory c.memory.evict.1 |>.giveBackAll c.memory.evict.2).memory =
      c.memory.evict.1 := memory_giveBackAll _ _
  rw [swept, reclaim, releaseDead]
  exact congrArg Memory.reclaim hm

theorem outside_swept (c : Machine) : c.swept.outside = (c.giveBackAll c.dead).outside := by
  rw [swept, releaseDead_eq]
  rfl

theorem alike_swept (c : Machine) : c.Alike c.swept :=
  (alike_setMemory c _).trans ((alike_giveBackAll _ c.dead).trans (alike_setMemory _ _))

theorem Sound.swept (h : c.Sound) : c.swept.Sound :=
  h.of_alike c.alike_swept (c.memory_swept ▸ h.memory.collect)

theorem weak_swept {e : CachedProxy} : c.swept.cache.weak[a]? = some e ↔
    c.cache.weak[a]? = some e ∧ c.memory.marks.contains (.proxy e.proxy) := by
  have hc : c.swept.cache = c.memory.evict.1.cache := by
    rw [cache, ← memory, memory_swept]
    rfl
  rw [hc]
  exact Memory.weak_evict

theorem isStrong_swept (c : Machine) (a : Address) :
    c.swept.cache.isStrong a = c.cache.isStrong a := by
  have hs := congrArg (fun m : NativeProxies.Memory => m.cache.isStrong a) c.memory_swept
  exact hs

/-- Sweeping ends the entries of dead proxies. -/
theorem deeds_swept {fair : Bool} (l : Nat) (hs : List Holding) (hr : c.Returns fair a) :
    Deeds fair (c.account a l hs) (c.swept.account a l hs) := by
  have hk := c.alike_swept
  cases he : c.cache.weak[a]? with
  | none =>
    have hh : c.holding? a = none := holding?_eq_none_iff.2 he
    have hh' : c.swept.holding? a = none := by
      refine holding?_eq_none_iff.2 (Option.eq_none_iff_forall_ne_some.2 fun e hw => ?_)
      exact absurd (he.symm.trans (weak_swept.1 hw).1) (by simp)
    have hd : a ∉ c.dead.map Prod.fst := by
      intro hm
      obtain ⟨⟨_, e⟩, hd, rfl⟩ := List.mem_map.1 hm
      exact absurd (he.symm.trans (mem_dead.1 hd).1) (by simp)
    rw [account, account, hh, hh', outside_swept, account_giveBackAll_of_not_mem hd]
  | some e =>
    cases hm : c.memory.marks.contains (.proxy e.proxy) with
    | true =>
      have hw : c.swept.cache.weak[a]? = c.cache.weak[a]? := by
        rw [he]
        exact weak_swept.2 ⟨he, hm⟩
      have hh : c.swept.holding? a = c.holding? a := by
        rw [holding?, holding?, hw, hk.serial, isStrong_swept]
      have hd : a ∉ c.dead.map Prod.fst := by
        intro hmem
        obtain ⟨⟨_, e'⟩, hd, rfl⟩ := List.mem_map.1 hmem
        obtain ⟨he', hm'⟩ := mem_dead.1 hd
        cases he.symm.trans he'
        simp [hm] at hm'
      rw [account, account, hh, outside_swept, account_giveBackAll_of_not_mem hd]
    | false =>
      have hh : c.holding? a = some ⟨c.bridge.serial, e.toggle, c.cache.isStrong a⟩ := by
        rw [holding?, he, Option.map_some]
      have hh' : c.swept.holding? a = none := by
        refine holding?_eq_none_iff.2 (Option.eq_none_iff_forall_ne_some.2 fun e' hw => ?_)
        obtain ⟨he', hm'⟩ := weak_swept.1 hw
        cases he.symm.trans he'
        simp [hm] at hm'
      obtain ⟨hc, hf⟩ := hr e he
      rw [account, account, hh, hh', outside_swept]
      exact deeds_giveBackAll c.nodup_dead (mem_dead.2 ⟨he, hm⟩) hc hf l hs

/-! ## Collecting and leaving -/

theorem collect_eq (c : Machine) : c.collect = c.catchUp.swept.countCollection.catchUp := rfl

theorem alike_countCollection (c : Machine) : c.Alike c.countCollection :=
  ⟨rfl, rfl, .refl _ _, .refl _⟩

theorem memory_countCollection (c : Machine) : c.countCollection.memory = c.memory := rfl

theorem outside_countCollection (c : Machine) : c.countCollection.outside = c.outside := rfl

theorem cache_countCollection (c : Machine) : c.countCollection.cache = c.cache := rfl

theorem mailbox_countCollection (c : Machine) : c.countCollection.mailbox = c.mailbox := rfl

theorem counters_countCollection (c : Machine) :
    c.countCollection.counters = c.counters.countCollection 0 0 := rfl

theorem account_countCollection (c : Machine) (a : Address) (l : Nat) (hs : List Holding) :
    c.countCollection.account a l hs = c.account a l hs := rfl

theorem Sound.countCollection (h : c.Sound) : c.countCollection.Sound := ⟨h.memory, h.mailbox⟩

theorem Sound.collect (h : c.Sound) : c.collect.Sound := h.catchUp.swept.countCollection.catchUp

theorem alike_collect (h : c.Sound) : c.Alike c.collect :=
  (alike_catchUp h).trans (c.catchUp.alike_swept.trans
    ((alike_countCollection _).trans (alike_catchUp h.catchUp.swept.countCollection)))

/-- A collection keeps the entries whose proxies are marked once the bridge has caught up. -/
theorem weak_collect {e : CachedProxy} : c.collect.cache.weak[a]? = some e ↔
    c.cache.weak[a]? = some e ∧ c.catchUp.memory.marks.contains (.proxy e.proxy) := by
  rw [collect_eq, weak_catchUp, cache_countCollection, weak_swept, weak_catchUp]

theorem heap_collect (c : Machine) : c.collect.heap = c.heap.sweep c.catchUp.memory.marks := by
  rw [← heap_catchUp c, collect_eq, heap_catchUp]
  exact congrArg Memory.heap c.catchUp.memory_swept

/-- A collection ends the entries of dead proxies. -/
theorem deeds_collect {fair : Bool} (h : c.Sound) (a : Address) (l : Nat) {hs : List Holding}
    (hne : c.bridge.serial ∉ hs.map Holding.serial) (hr : c.Returns fair a) :
    Deeds fair (c.account a l hs) (c.collect.account a l hs) := by
  have hk := alike_catchUp h
  have hr' : c.catchUp.Returns fair a := hk.returns (by rw [weak_catchUp]) hr
  have hc : c.catchUp.swept.countCollection.bridge.serial ∉ hs.map Holding.serial := by
    rw [(alike_countCollection _).serial, (alike_swept _).serial, hk.serial]
    exact hne
  refine (deeds_catchUp h a l hne).trans ((deeds_swept l hs hr').trans ?_)
  rw [← account_countCollection, collect_eq]
  exact deeds_catchUp h.catchUp.swept.countCollection a l hc

theorem collect_catchUp (c : Machine) : c.catchUp.collect = c.collect := by
  rw [collect_eq, collect_eq, catchUp_catchUp]

theorem leave_eq (c : Machine) : c.leave = c.catchUp ∨ c.leave = c.catchUp.collect := by
  rw [leave]
  split_ifs
  · exact .inr rfl
  · exact .inl rfl

theorem alike_leave (h : c.Sound) : c.Alike c.leave := by
  rcases c.leave_eq with he | he <;> rw [he]
  · exact alike_catchUp h
  · exact (alike_catchUp h).trans (alike_collect h.catchUp)

theorem Sound.leave (h : c.Sound) : c.leave.Sound := by
  rcases c.leave_eq with he | he <;> rw [he]
  · exact h.catchUp
  · exact h.catchUp.collect

theorem deeds_leave {fair : Bool} (h : c.Sound) (a : Address) (l : Nat) {hs : List Holding}
    (hne : c.bridge.serial ∉ hs.map Holding.serial) (hr : c.Returns fair a) :
    Deeds fair (c.account a l hs) (c.leave.account a l hs) := by
  have hd : Deeds fair (c.account a l hs) (c.catchUp.account a l hs) := deeds_catchUp h a l hne
  rcases c.leave_eq with he | he <;> rw [he]
  · exact hd
  · refine hd.trans (deeds_collect h.catchUp a l ((alike_catchUp h).serial ▸ hne) ?_)
    exact (alike_catchUp h).returns (by rw [weak_catchUp]) hr

/-! ## Closing -/

theorem retire_of_isLive {e : CachedProxy} (hl : c.heap.IsLive e.proxy a) :
    c.retire e = (c.setHeap (c.heap.release e.proxy)).giveBack a e.toggle := by
  obtain ⟨r, hr, rfl, hrel⟩ := hl
  simp [retire, hr, hrel]

/-- Retiring entries of live proxies of different objects gives back the references behind them. -/
theorem foldl_retire {items : List (Address × CachedProxy)}
    (hl : ∀ item ∈ items, c.heap.IsLive item.2.proxy item.1) (hd : (items.map Prod.fst).Nodup) :
    ∃ m, m.cache = c.cache ∧
      (items.map Prod.snd).foldl retire c = (c.giveBackAll items).setMemory m := by
  induction items generalizing c with
  | nil => exact ⟨c.memory, rfl, rfl⟩
  | cons item items ih =>
    rw [List.map_cons, List.nodup_cons] at hd
    have hi := hl item List.mem_cons_self
    have hr := retire_of_isLive hi
    have hheap : (c.retire item.2).heap = c.heap.release item.2.proxy := by
      rw [hr]
      exact congrArg Memory.heap (memory_giveBack _ _ _)
    have hl' : ∀ x ∈ items, (c.retire item.2).heap.IsLive x.2.proxy x.1 := by
      intro x hx
      have hx' := hl x (List.mem_cons_of_mem _ hx)
      rw [hheap]
      refine Heap.isLive_release.2 ⟨fun he => hd.1 ?_, hx'⟩
      rw [he] at hx'
      rw [← hx'.unique hi]
      exact List.mem_map_of_mem hx
    have hs : c.retire item.2 = (c.giveBack item.1 item.2.toggle).setMemory
        { c.memory with heap := c.heap.release item.2.proxy } := by
      rw [hr]
      exact giveBack_setMemory c _ _ _
    obtain ⟨m, hcache, hm⟩ := ih hl' hd.2
    refine ⟨m, hcache.trans ?_, hm.trans ?_⟩
    · rw [hs]
      rfl
    · rw [hs, giveBackAll_setMemory, giveBackAll_cons]
      rfl

theorem isLive_of_mem_entries (h : c.memory.Sound) {item : Address × CachedProxy}
    (hm : item ∈ c.cache.weak.toList) : c.heap.IsLive item.2.proxy item.1 :=
  h.live item.1 item.2 (Std.ExtTreeMap.mem_toList_iff_getElem?_eq_some.1 hm)

/-- All entries are left when a bridge is closed. -/
theorem snd_drain (h : c.memory.Sound) :
    (c.cache.drain c.heap).2 = c.cache.weak.toList.map Prod.snd := by
  refine List.filter_eq_self.2 fun e he => ?_
  obtain ⟨item, hm, rfl⟩ := List.mem_map.1 he
  rw [Heap.hasProxy_eq_holds]
  exact (isLive_of_mem_entries h hm).holds

/-- Closing a bridge empties the cache and gives back the references behind all entries. -/
theorem close_eq (h : c.memory.Sound) : ∃ m : NativeProxies.Memory, m.cache = { } ∧
    c.close = (c.catchUp.giveBackAll c.catchUp.cache.weak.toList).setMemory m := by
  have hs := c.toggles_catchUp.sound h
  obtain ⟨m, hcache, hm⟩ := foldl_retire (c := c.catchUp.setCache { })
    (fun item hi => isLive_of_mem_entries (c := c.catchUp) hs hi) c.catchUp.nodup_entries
  have hg : (c.catchUp.setCache { }).giveBackAll c.catchUp.cache.weak.toList =
      (c.catchUp.giveBackAll c.catchUp.cache.weak.toList).setMemory _ := giveBackAll_setMemory _ _ _
  rw [← snd_drain hs, hg] at hm
  exact ⟨m, hcache, hm⟩

theorem cache_close (h : c.memory.Sound) : c.close.cache = { } := by
  obtain ⟨m, hm, he⟩ := close_eq h
  rw [he]
  exact hm

theorem outside_close (h : c.memory.Sound) :
    c.close.outside = (c.catchUp.giveBackAll c.catchUp.cache.weak.toList).outside := by
  obtain ⟨m, -, he⟩ := close_eq h
  rw [he]
  rfl

theorem evolves_close (h : c.Sound) : c.outside.Evolves c.close.outside := by
  rw [outside_close h.memory]
  exact ((alike_catchUp h).trans (alike_giveBackAll _ _)).outside

/-- Closing a bridge ends its entry of every object. -/
theorem deeds_close {fair : Bool} (h : c.Sound) (a : Address) (l : Nat) {hs : List Holding}
    (hne : c.bridge.serial ∉ hs.map Holding.serial) (hr : c.Returns fair a) :
    Deeds fair (c.account a l hs) (c.close.outside.account a l hs) := by
  have hr' : c.catchUp.Returns fair a := (alike_catchUp h).returns (by rw [weak_catchUp]) hr
  refine (deeds_catchUp h a l hne).trans ?_
  rw [outside_close h.memory, account]
  cases he : c.catchUp.cache.weak[a]? with
  | none =>
    have hd : a ∉ c.catchUp.cache.weak.toList.map Prod.fst := by
      intro hm
      obtain ⟨⟨_, e⟩, hi, rfl⟩ := List.mem_map.1 hm
      exact absurd (he.symm.trans (Std.ExtTreeMap.mem_toList_iff_getElem?_eq_some.1 hi)) (by simp)
    rw [holding?_eq_none_iff.2 he, account_giveBackAll_of_not_mem hd]
    exact .refl
  | some e =>
    have hh : c.catchUp.holding? a =
        some ⟨c.catchUp.bridge.serial, e.toggle, c.catchUp.cache.isStrong a⟩ := by
      rw [holding?, he, Option.map_some]
    obtain ⟨hc, hf⟩ := hr' e he
    rw [hh]
    exact deeds_giveBackAll c.catchUp.nodup_entries
      (Std.ExtTreeMap.mem_toList_iff_getElem?_eq_some.2 he) hc hf l hs

end Machine

end NativeProxies
