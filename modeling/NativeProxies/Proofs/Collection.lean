import NativeProxies.Proofs.Registration
import NativeProxies.Proofs.Toggle

/-!
# Exact collections

What a collection keeps is what can be reached from the stashed proxies and from those of objects that
somebody else has a reference to (`Machine.Lasts`).  In a candid run a collection drops exactly the
other entries and gives back the reference behind each of them once (`World.collect_run`).  The runs at
the end show that this, too, needs more than owned references (`World.not_collect_solvent`).
-/

namespace NativeProxies

namespace Machine

variable {c : Machine} {a : Address} {e : CachedProxy} {p : ProxyId} {n : Node}

/-! ## What lasts -/

/-- A proxy that a collection is to keep for its own sake: a stashed one, or the proxy of an object of
the base kind with two references at least. -/
inductive Anchored (c : Machine) : ProxyId → Prop
  | stashed {name : String} {p : ProxyId} : c.memory.roots[name]? = some p → Anchored c p
  | shared {a : Address} {e : CachedProxy} : c.cache.weak[a]? = some e →
    c.types.isObject (c.host.typeOf a) → 2 ≤ c.host.refs a → Anchored c e.proxy

/-- A node that a collection is to keep: an anchored proxy, the environment of a proxy that lasts,
whether its reference was given back or not, and every value in a table that lasts. -/
inductive Lasts (c : Machine) : Node → Prop
  | anchored {p : ProxyId} : c.Anchored p → Lasts c (.proxy p)
  | env {p : ProxyId} {r : ProxyState} : Lasts c (.proxy p) → c.heap.proxy? p = some r →
    Lasts c (.table r.env)
  | value {t : TableId} {key : String} {v : Value} {n : Node} : Lasts c (.table t) →
    (c.heap.entries t)[key]? = some v → v.node? = some n → Lasts c n

/-- Without stashed proxies and shared objects nothing lasts. -/
theorem not_lasts (hr : c.memory.roots.toList = [])
    (hs : ∀ item ∈ c.cache.weak.toList, c.types.isObject (c.host.typeOf item.1) →
      c.host.refs item.1 < 2) (n : Node) : ¬c.Lasts n := by
  intro hn
  induction hn with
  | anchored hp =>
    rcases hp with ⟨hp⟩ | ⟨he, ho, h2⟩
    · have hm := Std.ExtTreeMap.mem_toList_iff_getElem?_eq_some.2 hp
      simp [hr] at hm
    · exact (hs _ (Std.ExtTreeMap.mem_toList_iff_getElem?_eq_some.2 he) ho).not_ge h2
  | env _ _ ih => exact ih
  | value _ _ _ ih => exact ih

/-- What lasts is what can be reached from the anchored proxies. -/
theorem lasts_iff_reaches (h : c.memory.Sound) {roots : List ProxyId}
    (hr : ∀ p, p ∈ roots ↔ c.Anchored p) (hh : ∀ p ∈ roots, c.heap.holds (.proxy p)) :
    c.Lasts n ↔ c.heap.Reaches roots n := by
  constructor
  · intro hn
    induction hn with
    | anchored hp => exact .root ((hr _).2 hp) (hh _ ((hr _).2 hp))
    | env _ hp ih =>
      have hs := Heap.mem_successors_proxy.2 ⟨_, hp, rfl⟩
      exact .step ih hs (h.closed.holds_of_mem _ _ hs)
    | value _ hv hn ih =>
      have hs := Heap.mem_successors_table.2 ⟨_, _, hv, hn⟩
      exact .step ih hs (h.closed.holds_of_mem _ _ hs)
  · intro hn
    induction hn with
    | root hp _ => exact .anchored ((hr _).1 hp)
    | @step m d _ hs _ ih =>
      cases m with
      | proxy q =>
        obtain ⟨r, hq, rfl⟩ := Heap.mem_successors_proxy.1 hs
        exact .env ih hq
      | table t =>
        obtain ⟨key, v, hv, hd⟩ := Heap.mem_successors_table.1 hs
        exact .value ih hv hd

/-! ## What a collection does -/

/-- How many references a bridge gave back or leaked, as it counts them. -/
def returned (c : Machine) : UInt64 := c.bridge.counters.releases + c.bridge.counters.leaks

/-- What a collection is to do.  It drops the entries in `gone`, whose proxies do not last, and gives
back the reference behind each of them once, in this order.  It keeps all that lasts as it was when
the bridge had caught up. -/
structure Collects (c : Machine) (gone : List (Address × CachedProxy)) : Prop where
  nodup : (gone.map Prod.fst).Nodup
  mem_gone : ∀ (a : Address) (e : CachedProxy), (a, e) ∈ gone ↔
    c.cache.weak[a]? = some e ∧ ¬c.Lasts (.proxy e.proxy)
  entries : ∀ (a : Address) (e : CachedProxy), c.collect.cache.weak[a]? = some e ↔
    c.cache.weak[a]? = some e ∧ c.Lasts (.proxy e.proxy)
  isStrong : ∀ a, c.collect.cache.isStrong a = c.catchUp.cache.isStrong a
  roots : c.collect.memory.roots = c.memory.roots
  holds : ∀ n, c.collect.heap.holds n ↔ c.Lasts n
  proxies : ∀ p, c.Lasts (.proxy p) → c.collect.heap.proxy? p = c.heap.proxy? p
  tables : ∀ t, c.Lasts (.table t) → c.collect.heap.entries t = c.heap.entries t
  host : c.collect.host = (c.catchUp.giveBackAll gone).host
  journal : c.collect.outside.journal = (c.catchUp.giveBackAll gone).outside.journal
  returned : c.collect.returned = c.returned + UInt64.ofNat gone.length
  counts : ∀ a, a ∉ gone.map Prod.fst → c.collect.host.counts? a = c.host.counts? a

theorem returned_applyNotification (c : Machine) (n : Notification) :
    (c.applyNotification n).returned = c.returned := by
  rw [applyNotification]
  cases (c.cache.applyNotification c.heap n).2 with
  | none => rfl
  | some k => cases k <;> rfl

theorem returned_catchUp (c : Machine) : c.catchUp.returned = c.returned :=
  List.foldlRecOn (motive := fun c' : Machine => c'.returned = c.returned) _ applyNotification rfl
    fun c' h n _ => (returned_applyNotification c' n).trans h

theorem returned_giveBack (c : Machine) (a : Address) (g : Option Generation) :
    (c.giveBack a g).returned = c.returned + 1 := by
  obtain ⟨k, hk⟩ := bridge_giveBack c a g
  rw [returned, hk, returned]
  split_ifs
  · dsimp only [Counters.bump]
    rw [UInt64.add_assoc, UInt64.add_comm 1, ← UInt64.add_assoc]
  · exact (UInt64.add_assoc ..).symm

theorem returned_giveBackAll (c : Machine) (items : List (Address × CachedProxy)) :
    (c.giveBackAll items).returned = c.returned + UInt64.ofNat items.length := by
  induction items generalizing c with
  | nil => exact (UInt64.add_zero _).symm
  | cons item items ih =>
    rw [giveBackAll_cons, ih, returned_giveBack, List.length_cons, UInt64.ofNat_add, UInt64.add_assoc,
      UInt64.add_comm 1]
    rfl

theorem returned_swept (c : Machine) :
    c.swept.returned = c.returned + UInt64.ofNat c.dead.length := by
  rw [← returned_giveBackAll, swept, releaseDead_eq]
  rfl

theorem returned_countCollection (c : Machine) : c.countCollection.returned = c.returned := rfl

theorem returned_collect (c : Machine) :
    c.collect.returned = c.returned + UInt64.ofNat c.catchUp.dead.length := by
  rw [collect_eq, returned_catchUp, returned_countCollection, returned_swept, returned_catchUp]

/-- The notices of references that a collection gives back concern no entry that it keeps. -/
theorem about_swept (ha : a ∉ c.catchUp.dead.map Prod.fst) :
    c.catchUp.swept.mailbox.about a = [] := by
  have hb := congrArg Account.boxes (account_giveBackAll_of_not_mem (c := c.catchUp) ha 0 [])
  rw [← about_catchUp c a, about_mailbox, about_mailbox, outside_swept, (alike_swept _).serial]
  exact congrArg (fun x : Boxes => (x c.catchUp.bridge.serial).getD []) hb

/-- What the cache keeps alive does not change after the bridge has caught up. -/
theorem isStrong_collect (h : c.Sound) (a : Address) :
    c.collect.cache.isStrong a = c.catchUp.cache.isStrong a := by
  have hs : c.catchUp.swept.countCollection.Sound := h.catchUp.swept.countCollection
  cases he : c.collect.cache.weak[a]? with
  | none =>
    have hn : c.collect.cache.isStrong a = false := h.collect.memory.isStrong_of_weak_eq_none he
    rw [hn]
    by_contra hst
    have hst : c.catchUp.cache.isStrong a := by simpa using Ne.symm hst
    obtain ⟨e, hw, hp⟩ := h.catchUp.memory.exists_of_isStrong hst
    have hm := h.catchUp.memory.contains_marks_of_mem (Memory.mem_rootProxies.2 (.inr ⟨a, hp⟩))
    exact absurd (he.symm.trans (weak_collect.2 ⟨c.weak_catchUp ▸ hw, hm⟩)) (by simp)
  | some e =>
    obtain ⟨hw, hm⟩ := weak_collect.1 he
    have hd : a ∉ c.catchUp.dead.map Prod.fst := by
      intro hmem
      obtain ⟨⟨_, e'⟩, hd, rfl⟩ := List.mem_map.1 hmem
      obtain ⟨hw', hm'⟩ := mem_dead.1 hd
      rw [weak_catchUp, hw] at hw'
      cases hw'
      simp [hm] at hm'
    have hh := holding?_catchUp hs.memory a
    have hb : c.catchUp.swept.countCollection.mailbox.about a = [] := by
      rw [mailbox_countCollection, about_swept hd]
    have hid : (c.catchUp.swept.countCollection.holding? a).map (fun x => x.hear []) =
        c.catchUp.swept.countCollection.holding? a := Option.map_id'
    rw [hb, hid, ← collect_eq, holding?, he] at hh
    obtain ⟨e', -, hx⟩ := Option.map_eq_some_iff.1 hh.symm
    have hst : c.catchUp.swept.countCollection.cache.isStrong a = c.collect.cache.isStrong a :=
      congrArg Holding.strong hx
    rw [← hst, cache_countCollection, isStrong_swept]

/-- A collection does what it is to do if, once the bridge has caught up, the anchored proxies are the
roots. -/
theorem collects (h : c.Sound)
    (hr : ∀ p, p ∈ c.catchUp.memory.rootProxies ↔ c.Anchored p) : c.Collects c.catchUp.dead := by
  have hm (n : Node) : c.catchUp.memory.marks.contains n ↔ c.Lasts n := by
    have hh : ∀ p ∈ c.catchUp.memory.rootProxies, c.heap.holds (.proxy p) := fun p hp =>
      heap_catchUp c ▸ h.catchUp.memory.holds_rootProxies hp
    rw [Memory.Sound.contains_marks_iff, lasts_iff_reaches h.memory hr hh, ← heap_catchUp c]
    rfl
  have hhost : c.collect.host = (c.catchUp.giveBackAll c.catchUp.dead).host := by
    rw [collect_eq, host_catchUp, host, outside_countCollection, outside_swept]
    rfl
  constructor
  case nodup => exact c.catchUp.nodup_dead
  case mem_gone =>
    intro a e
    rw [mem_dead, weak_catchUp, ← hm, Bool.not_eq_true]
  case entries =>
    intro a e
    rw [weak_collect, hm]
  case isStrong => exact isStrong_collect h
  case roots =>
    rw [collect_eq, roots_catchUp, memory_countCollection, memory_swept]
    exact c.roots_catchUp
  case holds =>
    intro n
    rw [heap_collect, Heap.holds_sweep, hm, and_iff_right_iff_imp]
    intro hn
    have hk := ((Memory.Sound.contains_marks_iff (m := c.catchUp.memory)).1 ((hm n).2 hn)).holds
    exact heap_catchUp c ▸ hk
  case proxies =>
    intro p hp
    rw [heap_collect, Heap.proxy?_sweep, if_pos ((hm _).2 hp)]
  case tables =>
    intro t ht
    rw [heap_collect, Heap.entries_sweep ((hm _).2 ht)]
  case host => exact hhost
  case journal =>
    rw [collect_eq, journal_catchUp, outside_countCollection, outside_swept]
  case returned => exact returned_collect c
  case counts =>
    intro a ha
    have hc := congrArg Account.counts (account_giveBackAll_of_not_mem (c := c.catchUp) ha 0 [])
    rw [hhost, ← host_catchUp c]
    exact hc

/-! ## Collections that go wrong -/

/-- A collection drops the proxy of a shared object. -/
def drops (c : Machine) (a : Address) : Bool :=
  c.cache.contains a && c.types.isObject (c.host.typeOf a) && 2 ≤ c.host.refs a &&
    !c.collect.cache.contains a

/-- A collection keeps a proxy although nothing lasts. -/
def clings (c : Machine) (a : Address) : Bool :=
  c.collect.cache.contains a && c.memory.roots.toList.isEmpty && c.cache.weak.toList.all fun item =>
    !c.types.isObject (c.host.typeOf item.1) || c.host.refs item.1 < 2

theorem not_collects_of_drops (hd : c.drops a) : ¬∃ gone, c.Collects gone := by
  rintro ⟨gone, hg⟩
  simp only [drops, ProxyCache.contains, Std.ExtTreeMap.contains_eq_isSome_getElem?,
    Bool.and_eq_true, decide_eq_true_iff, Bool.not_eq_true'] at hd
  obtain ⟨⟨⟨ha, ho⟩, h2⟩, hn⟩ := hd
  obtain ⟨e, he⟩ := Option.isSome_iff_exists.1 ha
  rw [(hg.entries a e).2 ⟨he, .anchored (.shared he ho h2)⟩] at hn
  simp at hn

theorem not_collects_of_clings (hk : c.clings a) : ¬∃ gone, c.Collects gone := by
  rintro ⟨gone, hg⟩
  simp only [clings, ProxyCache.contains, Std.ExtTreeMap.contains_eq_isSome_getElem?,
    Bool.and_eq_true, List.isEmpty_iff, List.all_eq_true] at hk
  obtain ⟨⟨ha, hr⟩, hs⟩ := hk
  obtain ⟨e, he⟩ := Option.isSome_iff_exists.1 ha
  refine not_lasts hr (fun item hm ho => ?_) _ ((hg.entries a e).1 he).2
  simpa [ho] using hs item hm

end Machine

namespace World

variable {w : World} {name : String} {c : Machine} {a : Address}

/-- A bridge that catches up learns whether there are two references at least. -/
theorem isStrong_catchUp (h : w.Sound) (hc : w.session.machine? name = some c)
    (hx : (w.account a).Kept true) (ha : c.cache.contains a) :
    c.catchUp.cache.isStrong a ↔ 2 ≤ c.host.refs a := by
  have hne := h.serial_not_mem_others hc a
  have hx' := (kept_machine hc hx).deeds (Machine.deeds_catchUp (h.machine hc) a _ hne)
  have hk : (account { w with session := w.session.put name c.catchUp } a).Kept true :=
    kept_put hx'
  have ha' : c.catchUp.cache.contains a := by
    rw [ProxyCache.contains, c.weak_catchUp]
    exact ha
  have hi := isStrong_iff (hk.tracked rfl) (Session.machine?_put _ _ _) c.pending_catchUp ha'
  rw [Machine.host_catchUp] at hi
  exact hi.1

/-- Once a bridge has caught up, its roots are the anchored proxies. -/
theorem mem_rootProxies_iff_anchored (h : w.Sound) (hw : w.Watched) (hr : w.Regular)
    (hc : w.session.machine? name = some c) (p : ProxyId) :
    p ∈ c.catchUp.memory.rootProxies ↔ c.Anchored p := by
  have hm := (h.machine hc).catchUp.memory
  have hstrong {a : Address} {e : CachedProxy} (he : c.cache.weak[a]? = some e)
      (hobj : c.types.isObject (c.host.typeOf a)) :
      c.catchUp.cache.isStrong a ↔ 2 ≤ c.host.refs a := by
    refine isStrong_catchUp h hc (hw a ?_) ?_
    · rw [← Session.outside_of_machine? hc]
      exact hobj
    · rw [ProxyCache.contains, Std.ExtTreeMap.contains_eq_isSome_getElem?, he]
      rfl
  rw [Memory.mem_rootProxies, Machine.roots_catchUp]
  constructor
  · rintro (⟨key, hp⟩ | ⟨a, hp⟩)
    · exact .stashed hp
    · obtain ⟨e, he, rfl, hg⟩ := hm.strong a p hp
      have hwk : c.cache.weak[a]? = some e := c.weak_catchUp ▸ he
      have hobj := hr name c hc a e hwk hg
      refine .shared hwk hobj ((hstrong hwk hobj).1 ?_)
      exact ProxyCache.isStrong_iff_exists.2 ⟨e.proxy, hp⟩
  · rintro (⟨hp⟩ | @⟨a, e, he, hobj, h2⟩)
    · exact .inl ⟨_, hp⟩
    · have hs := (hstrong he hobj).2 h2
      obtain ⟨e', he', hq⟩ := hm.exists_of_isStrong hs
      have hee : e = e' := Option.some.inj (he.symm.trans (c.weak_catchUp ▸ he'))
      exact .inr ⟨a, hee ▸ hq⟩

/-- In every world that a candid run leads to, a collection of an open bridge drops exactly the entries
whose proxies do not last, gives back the reference behind each of them once, and leaves everything
else alone. -/
theorem collect_run (hw : w.Reached Candid) (hc : w.session.machine? name = some c) :
    ∃ gone, c.Collects gone := by
  obtain ⟨ms, h, rfl⟩ := hw
  have hs := sound_empty.run ms
  have hr := mem_rootProxies_iff_anchored hs (watched_run h).2 (regular_run h) hc
  exact ⟨_, Machine.collects (hs.machine hc) hr⟩

/-- Three objects, of which one is shared, one is kept with it, and one is the bridge's alone. -/
def mixed : List Move :=
  [.step (.host (.create { value := 1 } .object false)),
   .step (.host (.create { value := 2 } .object true)),
   .step (.host (.create { value := 3 } .object true)),
   .step (.open "b" .standard .environment false),
   .enter "b",
   .act "b" (.wrap (some { value := 1 }) false (some "x")),
   .act "b" (.wrap (some { value := 2 }) false (some "y")),
   .act "b" (.wrap (some { value := 3 }) false none),
   .act "b" (.set (.var "x") (.var "y") "next"),
   .leave "b"]

theorem collect_run_mixed :
    Along Candid { } mixed ∧ ∃ c, (run { } mixed).session.machine? "b" = some c ∧
      c.cache.contains { value := 3 } ∧ c.collect.cache.contains { value := 3 } = false ∧
      c.collect.host.isAlive { value := 3 } = false ∧
      c.collect.cache.weak[({ value := 2 } : Address)]? = some ⟨3, some 2⟩ ∧
      c.collect.host.refs { value := 2 } = 1 := by
  let c := ((run { } mixed).session.machine? "b").get (by decide +kernel)
  have h : Along Candid { } mixed := by decide +kernel
  have hc : (run { } mixed).session.machine? "b" = some c := (Option.some_get _).symm
  obtain ⟨gone, hg⟩ := collect_run ⟨mixed, h, rfl⟩ hc
  have h₁ : c.Lasts (.proxy 1) := by
    have he : c.cache.weak[({ value := 1 } : Address)]? = some ⟨1, some 1⟩ := by decide +kernel
    exact .anchored (.shared he (by decide +kernel) (by decide +kernel))
  have h₂ : c.Lasts (.proxy 3) := by
    have hp : c.heap.proxy? 1 = some ⟨{ value := 1 }, false, 0⟩ := by decide +kernel
    have hv : (c.heap.entries 0)["next"]? = some (.proxy 3) := by decide +kernel
    exact .value (.env h₁ hp) hv rfl
  have he : c.cache.weak[({ value := 2 } : Address)]? = some ⟨3, some 2⟩ := by decide +kernel
  exact ⟨h, c, hc, by decide +kernel, by decide +kernel, by decide +kernel,
    (hg.entries _ _).2 ⟨he, h₂⟩, by decide +kernel⟩

/-- It is not enough that the code around the bridges gives up only references that it owns: a
collection may drop what should last and keep what should not. -/
theorem not_collect_solvent :
    (Along Solvent { } (forged ++ [.leave "b"]) ∧
      ∃ c, (run { } (forged ++ [.leave "b"])).session.machine? "b" = some c ∧
        ¬∃ gone, c.Collects gone) ∧
    (Along Solvent { } (untied ++ [.leave "b"]) ∧
      ∃ c, (run { } (untied ++ [.leave "b"])).session.machine? "b" = some c ∧
        ¬∃ gone, c.Collects gone) ∧
    (Along Solvent { } (recycled ++ [.leave "b"]) ∧
      ∃ c, (run { } (recycled ++ [.leave "b"])).session.machine? "b" = some c ∧
        ¬∃ gone, c.Collects gone) := by
  let c (ms : List Move) (h : ((run { } ms).session.machine? "b").isSome) : Machine :=
    ((run { } ms).session.machine? "b").get h
  have hf : (c (forged ++ [.leave "b"]) (by decide +kernel)).drops { value := 1 } := by decide +kernel
  have hu : (c (untied ++ [.leave "b"]) (by decide +kernel)).clings { value := 1 } := by decide +kernel
  have hr : (c (recycled ++ [.leave "b"]) (by decide +kernel)).drops { value := 1 } := by
    decide +kernel
  exact ⟨⟨by decide +kernel, _, (Option.some_get _).symm, Machine.not_collects_of_drops hf⟩,
    ⟨by decide +kernel, _, (Option.some_get _).symm, Machine.not_collects_of_clings hu⟩,
    ⟨by decide +kernel, _, (Option.some_get _).symm, Machine.not_collects_of_drops hr⟩⟩

end World

end NativeProxies
