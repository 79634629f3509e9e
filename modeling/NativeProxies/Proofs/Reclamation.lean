import NativeProxies.Proofs.Persistence

/-!
# Objects that only bridges hold

Collecting some bridges, in any order and any number of times, changes nothing about what lasts in any
bridge (`World.Collected.lasts`).  So in a candid run an object of the base kind that does not float and
that the code around the bridges does not own is freed by collecting all bridges exactly if its proxy
lasts nowhere, which takes that one bridge at most has an entry for it (`World.reclaimed_run`).  The runs
at the end show objects that are never freed (`World.not_reclaimed_solvent`).
-/

namespace NativeProxies

theorem Account.Balanced.counts_eq_none {x : Account} (hx : x.Balanced) (hl : x.loose = 0)
    (hh : x.holdings = []) (hf : x.floats = false) : x.counts = none := by
  have hr := hx.refs_eq
  rw [hl, hh, hf] at hr
  have hb := hx.balance
  cases hc : x.counts with
  | none => rfl
  | some c =>
    rw [hc] at hb
    rw [Account.refs, hc] at hr
    exact absurd hb.2 (by simpa using hr)

/-! ## What collecting one bridge leaves alone -/

/-- No change makes a reference float. -/
theorem Host.floats_apply {h : Host} {a b : Address} {r : RefChange}
    (hf : (h.apply a r).1.floats b) : h.floats b := by
  by_cases hb : b = a
  · subst hb
    rw [floats, counts?_apply_self] at hf
    cases hc : h.counts? b with
    | none => simp [hc] at hf
    | some c =>
      rw [hc, Option.bind_some] at hf
      rw [floats, hc, Option.any_some]
      by_contra hn
      have hx := Account.floats_change (x := ⟨some c, fun _ => none, 0, []⟩)
        (by simpa [Account.floats] using hn) r 0 []
      rw [Account.floats, Account.change, Option.bind_some] at hx
      exact absurd hf (by simp [hx])
  · rwa [floats, counts?_apply_of_ne hb] at hf

namespace Machine

variable {c c' : Machine} {a : Address} {n : Node}

theorem floats_giveBack {b : Address} {g : Option Generation} (h : (c.giveBack b g).host.floats a) :
    c.host.floats a := by
  rw [host, outside_giveBack] at h
  cases hr : (c.giveBackRoute (c.host.typeOf b) g).2 with
  | none => rwa [hr] at h
  | some route =>
    rw [hr, Option.elim_some, Outside.host_call] at h
    cases hc : route.change? with
    | none => rwa [hc] at h
    | some r =>
      rw [hc, Option.elim_some] at h
      exact Host.floats_apply h

theorem floats_giveBackAll {items : List (Address × CachedProxy)}
    (h : (c.giveBackAll items).host.floats a) : c.host.floats a := by
  induction items generalizing c with
  | nil => exact h
  | cons item items ih =>
    rw [giveBackAll_cons] at h
    exact floats_giveBack (ih h)

theorem isObject_collect (h : c.Sound) (a : Address) :
    c.collect.types.isObject (c.collect.host.typeOf a) = c.types.isObject (c.host.typeOf a) :=
  congrArg₂ TypeTable.isObject (alike_collect h).types ((alike_collect h).typeOf a)

/-- What lasts in a machine lasts in another one with the same anchored proxies, if the two agree on
what lasts in both. -/
theorem Lasts.of_anchored (h : c.Lasts n) (ha : ∀ p, c.Anchored p → c'.Anchored p)
    (hp : ∀ p, c.Lasts (.proxy p) → c'.Lasts (.proxy p) → c'.heap.proxy? p = c.heap.proxy? p)
    (ht : ∀ t, c.Lasts (.table t) → c'.Lasts (.table t) → c'.heap.entries t = c.heap.entries t) :
    c'.Lasts n := by
  induction h with
  | anchored h => exact .anchored (ha _ h)
  | env h hr ih => exact .env ih ((hp _ h ih).trans hr)
  | value h hv hn ih => exact .value ih (ht _ h ih ▸ hv) hn

end Machine

namespace World

variable {w w₁ w₂ : World} {name : String} {names names₁ names₂ : List String} {c c' : Machine}
  {a : Address} {n : Node}

/-- Collecting is candid. -/
theorem candid_collect (w : World) (name : String) : w.Candid (.step (.collect name)) where
  affords := trivial
  defined _ ht := by simp [Move.made?] at ht
  vacant _ ha := by simp [Move.reused?] at ha
  genuine _ hx := by simp [Move.told?] at hx

/-- The second world is the first one after collections of some bridges. -/
structure Collected (names : List String) (w w' : World) : Prop where
  reached : w'.Reached Candid
  owned : w'.owned = w.owned
  visits : w'.visits = w.visits
  isObject : ∀ a, w'.session.outside.host.types.isObject (w'.session.outside.host.typeOf a) =
    w.session.outside.host.types.isObject (w.session.outside.host.typeOf a)
  floats : ∀ a, w'.session.outside.host.floats a → w.session.outside.host.floats a
  isOpen : ∀ name, (w'.session.machine? name).isSome = (w.session.machine? name).isSome
  lasts : ∀ name c c', w.session.machine? name = some c → w'.session.machine? name = some c' →
    ∀ n, c'.Lasts n ↔ c.Lasts n
  entries : ∀ name c c', w.session.machine? name = some c → w'.session.machine? name = some c' →
    ∀ (a : Address) (e : CachedProxy), c'.cache.weak[a]? = some e ↔
      c.cache.weak[a]? = some e ∧ (name ∈ names → c.Lasts (.proxy e.proxy))

theorem Collected.refl (hw : w.Reached Candid) : Collected [] w w where
  reached := hw
  owned := rfl
  visits := rfl
  isObject _ := rfl
  floats _ := id
  isOpen _ := rfl
  lasts name c c' hc hc' n := by
    cases hc.symm.trans hc'
    rfl
  entries name c c' hc hc' a e := by
    cases hc.symm.trans hc'
    simp

theorem Collected.trans (h₁ : Collected names₁ w w₁) (h₂ : Collected names₂ w₁ w₂) :
    Collected (names₁ ++ names₂) w w₂ where
  reached := h₂.reached
  owned := h₂.owned.trans h₁.owned
  visits := h₂.visits.trans h₁.visits
  isObject a := (h₂.isObject a).trans (h₁.isObject a)
  floats a := h₁.floats a ∘ h₂.floats a
  isOpen name := (h₂.isOpen name).trans (h₁.isOpen name)
  lasts name c c' hc hc' n := by
    obtain ⟨c₁, hc₁⟩ : ∃ c₁, w₁.session.machine? name = some c₁ :=
      Option.isSome_iff_exists.1 (by rw [h₁.isOpen, hc, Option.isSome_some])
    exact (h₂.lasts name c₁ c' hc₁ hc' n).trans (h₁.lasts name c c₁ hc hc₁ n)
  entries name c c' hc hc' a e := by
    obtain ⟨c₁, hc₁⟩ : ∃ c₁, w₁.session.machine? name = some c₁ :=
      Option.isSome_iff_exists.1 (by rw [h₁.isOpen, hc, Option.isSome_some])
    rw [h₂.entries name c₁ c' hc₁ hc', h₁.entries name c c₁ hc hc₁,
      h₁.lasts name c c₁ hc hc₁, List.mem_append, and_assoc, ← or_imp]

/-- Collecting a bridge does not change which objects have two references. -/
theorem two_le_refs_collect (hw : w.Reached Candid) (hv : w.visits.contains name = false)
    (hc : w.session.machine? name = some c) (ha : c.types.isObject (c.host.typeOf a)) :
    2 ≤ c.collect.host.refs a ↔ 2 ≤ c.host.refs a := by
  obtain ⟨gone, hg⟩ := collect_run hw hc
  by_cases hm : a ∈ gone.map Prod.fst
  · obtain ⟨⟨b, e⟩, he, rfl⟩ := List.mem_map.1 hm
    obtain ⟨hwk, hl⟩ := (hg.mem_gone b e).1 he
    -- A dropped object had one reference only, and no reference comes along.
    refine ⟨fun h2 => ?_, fun h2 => absurd (.anchored (.shared hwk ha h2)) hl⟩
    obtain ⟨ms, h, rfl⟩ := hw
    have hs := sound_empty.run ms
    obtain ⟨ht, hwatch⟩ := watched_run h
    have hnext := next_collect hv hc
    have hx : ((run { } ms).account b).Tracked := by
      refine (hwatch b ?_).tracked rfl
      rw [← Session.outside_of_machine? hc]
      exact ha
    have hx' : (((run { } ms).next (.step (.collect name))).account b).Tracked := by
      refine (watched_next hs ht hwatch (candid_collect _ name) b ?_).tracked rfl
      rw [hnext]
      exact (Machine.isObject_collect (hs.machine hc) b).trans ha
    have hcon : c.cache.contains b := by
      rw [ProxyCache.contains, Std.ExtTreeMap.contains_eq_isSome_getElem?, hwk, Option.isSome_some]
    refine two_le_refs_of_put hx hx' hc hcon (congrArg session hnext) (by rw [hnext]) ?_
    rw [hnext]
    exact h2
  · rw [Host.refs, hg.counts a hm, Host.refs]

/-- Collecting a bridge does not change what lasts in it. -/
theorem lasts_collect (hw : w.Reached Candid) (hv : w.visits.contains name = false)
    (hc : w.session.machine? name = some c) (n : Node) : c.collect.Lasts n ↔ c.Lasts n := by
  obtain ⟨gone, hg⟩ := collect_run hw hc
  have hs : w.Sound := by
    obtain ⟨ms, -, rfl⟩ := hw
    exact sound_empty.run ms
  have hobj := Machine.isObject_collect (hs.machine hc)
  constructor
  · intro hn
    refine hn.of_anchored (fun p ha => ?_) (fun p _ hl => (hg.proxies p hl).symm)
      fun t _ hl => (hg.tables t hl).symm
    rcases ha with ⟨hp⟩ | ⟨he, ho, h2⟩
    · exact .stashed (hg.roots ▸ hp)
    · rw [hobj] at ho
      exact .shared ((hg.entries _ _).1 he).1 ho ((two_le_refs_collect hw hv hc ho).1 h2)
  · intro hn
    refine hn.of_anchored (fun p ha => ?_) (fun p hl _ => hg.proxies p hl)
      fun t hl _ => hg.tables t hl
    have hl : c.Lasts (.proxy p) := .anchored ha
    rcases ha with ⟨hp⟩ | ⟨he, ho, h2⟩
    · exact .stashed (hg.roots.symm ▸ hp)
    · exact .shared ((hg.entries _ _).2 ⟨he, hl⟩) ((hobj _).trans ho)
        ((two_le_refs_collect hw hv hc ho).2 h2)

/-- Nothing changes for another bridge if types, tags and the sharing of objects stay as they are. -/
theorem lasts_outside {b : Bridge} {o o' : Outside}
    (hobj : ∀ a, o'.host.types.isObject (o'.host.typeOf a) = o.host.types.isObject (o.host.typeOf a))
    (h2 : ∀ a, o.host.types.isObject (o.host.typeOf a) → (2 ≤ o'.host.refs a ↔ 2 ≤ o.host.refs a))
    (n : Node) : (⟨b, o'⟩ : Machine).Lasts n ↔ (⟨b, o⟩ : Machine).Lasts n := by
  constructor
  · intro hn
    refine hn.of_anchored (fun p ha => ?_) (fun _ _ _ => rfl) fun _ _ _ => rfl
    rcases ha with ⟨hp⟩ | ⟨he, ho, hr⟩
    · exact .stashed hp
    · have ho := (hobj _).symm.trans ho
      exact .shared he ho ((h2 _ ho).1 hr)
  · intro hn
    refine hn.of_anchored (fun p ha => ?_) (fun _ _ _ => rfl) fun _ _ _ => rfl
    rcases ha with ⟨hp⟩ | ⟨he, ho, hr⟩
    · exact .stashed hp
    · exact .shared he ((hobj _).trans ho) ((h2 _ ho).2 hr)

/-- Collecting an open bridge that is not being visited. -/
theorem collected_of_machine? (hw : w.Reached Candid) (hv : w.visits.contains name = false)
    (hc : w.session.machine? name = some c) :
    Collected [name] w (w.next (.step (.collect name))) := by
  have hnext := next_collect hv hc
  have hreached := hw.next (candid_collect w name)
  rw [hnext] at hreached ⊢
  have hs : w.Sound := by
    obtain ⟨ms, -, rfl⟩ := hw
    exact sound_empty.run ms
  have hobj (a : Address) : c.collect.host.types.isObject (c.collect.host.typeOf a) =
      w.session.outside.host.types.isObject (w.session.outside.host.typeOf a) := by
    rw [← Session.outside_of_machine? hc]
    exact Machine.isObject_collect (hs.machine hc) a
  obtain ⟨gone, hg⟩ := collect_run hw hc
  have hother {n : String} (hn : n ≠ name) : (w.session.put name c.collect).bridges[n]? =
      w.session.bridges[n]? := by
    simp only [Session.put]
    grind
  refine ⟨hreached, rfl, rfl, hobj, fun a hf => ?_, fun n => ?_, fun n x x' hx hx' => ?_,
    fun n x x' hx hx' => ?_⟩
  · rw [← Session.outside_of_machine? hc]
    have hf : (c.catchUp.giveBackAll gone).host.floats a := hg.host ▸ hf
    have hf := Machine.floats_giveBackAll hf
    rwa [c.host_catchUp] at hf
  · by_cases hn : n = name
    · rw [hn, Session.machine?_put, hc]
      rfl
    · rw [Session.machine?, hother hn, Option.isSome_map, Session.machine?, Option.isSome_map]
  · by_cases hn : n = name
    · subst hn
      cases hc.symm.trans hx
      cases (Session.machine?_put _ _ _).symm.trans hx'
      exact lasts_collect hw hv hc
    · obtain ⟨b, hb, rfl⟩ := Option.map_eq_some_iff.1 hx
      obtain ⟨b', hb', rfl⟩ := Option.map_eq_some_iff.1 hx'
      rw [hother hn, hb] at hb'
      cases hb'
      refine lasts_outside hobj fun a ha => ?_
      rw [← Session.outside_of_machine? hc] at ha ⊢
      exact two_le_refs_collect hw hv hc ha
  · intro a e
    by_cases hn : n = name
    · subst hn
      cases hc.symm.trans hx
      cases (Session.machine?_put _ _ _).symm.trans hx'
      simpa using hg.entries a e
    · obtain ⟨b, hb, rfl⟩ := Option.map_eq_some_iff.1 hx
      obtain ⟨b', hb', rfl⟩ := Option.map_eq_some_iff.1 hx'
      rw [hother hn, hb] at hb'
      cases hb'
      simp only [List.mem_singleton, hn, false_implies, and_true]
      rfl

/-- Collecting bridges that are not being visited, in any order. -/
theorem collected_run (hw : w.Reached Candid)
    (hv : ∀ name ∈ names, w.visits.contains name = false) :
    Collected names w (w.run (names.map fun name => .step (.collect name))) := by
  induction names generalizing w with
  | nil => exact .refl hw
  | cons name names ih =>
    have hv₁ := hv name List.mem_cons_self
    have h₁ : Collected [name] w (w.next (.step (.collect name))) := by
      cases hc : w.session.machine? name with
      | some c => exact collected_of_machine? hw hv₁ hc
      | none =>
        rw [next_of_machine?_eq_none hc rfl (by simp)]
        refine { Collected.refl hw with entries := fun n c c' hc₁ hc' a e => ?_ }
        cases hc₁.symm.trans hc'
        have hn : n ≠ name := by
          rintro rfl
          cases hc.symm.trans hc₁
        simp [hn]
    refine h₁.trans (ih h₁.reached fun n hn => ?_)
    rw [h₁.visits]
    exact hv n (List.mem_cons_of_mem _ hn)

/-- In a candid run, an object of the base kind that does not float and that the code around the bridges
does not own is freed by collections of all bridges, in any order, exactly if its proxy lasts in no
bridge: it is neither stashed nor kept by another proxy or table that lasts, and no two bridges have
entries for the object. -/
theorem reclaimed_run (hw : w.Reached Candid)
    (hv : ∀ name ∈ names, w.visits.contains name = false)
    (ho : ∀ name, (w.session.machine? name).isSome → name ∈ names)
    (ha : w.session.outside.host.types.isObject (w.session.outside.host.typeOf a))
    (hf : w.session.outside.host.floats a = false) (hl : w.owned a = 0) :
    (w.run (names.map fun name => .step (.collect name))).session.outside.host.isAlive a = false ↔
      ∀ name c e, w.session.machine? name = some c → c.cache.weak[a]? = some e →
        ¬c.Lasts (.proxy e.proxy) := by
  have hcol := collected_run hw hv
  generalize w.run (names.map fun name => .step (.collect name)) = w' at hcol
  have hx : (w'.account a).Balanced := by
    obtain ⟨ms, h, rfl⟩ := hcol.reached
    exact ((watched_run h).2 a ((hcol.isObject a).trans ha)).balanced
  constructor
  · intro hdead name c e hc he hlast
    obtain ⟨c', hc'⟩ : ∃ c', w'.session.machine? name = some c' :=
      Option.isSome_iff_exists.1 (by rw [hcol.isOpen, hc, Option.isSome_some])
    have he' := (hcol.entries name c c' hc hc' a e).2 ⟨he, fun _ => hlast⟩
    have hh : c'.holding? a = some ⟨c'.bridge.serial, e.toggle, c'.cache.isStrong a⟩ := by
      rw [Machine.holding?, he', Option.map_some]
    have hnil : w'.session.holdings a = [] := hx.holdings_eq_nil (Host.counts?_of_dead hdead)
    exact List.ne_nil_of_mem (Session.mem_holdings.2 ⟨name, c', hc', hh⟩) hnil
  · intro hnone
    have hnil : w'.session.holdings a = [] := by
      refine List.eq_nil_iff_forall_not_mem.2 fun h hh => ?_
      obtain ⟨name, c', hc', hh⟩ := Session.mem_holdings.1 hh
      obtain ⟨e, he', -⟩ := Option.map_eq_some_iff.1 hh
      obtain ⟨c, hc⟩ : ∃ c, w.session.machine? name = some c :=
        Option.isSome_iff_exists.1 (by rw [← hcol.isOpen, hc', Option.isSome_some])
      obtain ⟨he, hlast⟩ := (hcol.entries name c c' hc hc' a e).1 he'
      exact hnone name c e hc he (hlast (ho name (by rw [hc, Option.isSome_some])))
    have hf' : w'.session.outside.host.floats a = false := by
      by_contra hn
      rw [hcol.floats a (by simpa using hn)] at hf
      cases hf
    have hl' : w'.owned a = 0 := by rw [hcol.owned, hl]
    have hnone : w'.session.outside.host.counts? a = none := hx.counts_eq_none hl' hnil hf'
    rw [Host.isAlive, hnone]
    rfl

theorem mem_keys_of_machine? (h : (w.session.machine? name).isSome) :
    name ∈ w.session.bridges.keys := by
  rw [Session.machine?, Option.isSome_map, ← Std.ExtTreeMap.contains_eq_isSome_getElem?] at h
  exact Std.ExtTreeMap.mem_keys.2 h

/-- An object that two bridges share, one that its proxy in one of them refers to, and one that a bridge
has alone. -/
def scattered : List Move :=
  [.step (.host (.create { value := 1 } .object false)),
   .step (.host (.create { value := 2 } .object true)),
   .step (.host (.create { value := 3 } .object true)),
   .step (.open "left" .standard .environment false),
   .step (.open "right" .standard .environment false),
   .enter "left",
   .act "left" (.wrap (some { value := 1 }) false (some "x")),
   .act "left" (.wrap (some { value := 2 }) false (some "y")),
   .act "left" (.wrap (some { value := 3 }) false none),
   .act "left" (.set (.var "x") (.var "y") "next"),
   .leave "left",
   .enter "right",
   .act "right" (.wrap (some { value := 1 }) true none),
   .leave "right"]

theorem reclaimed_run_scattered :
    Along Candid { } scattered ∧
      (∀ name c e, (run { } scattered).session.machine? name = some c →
        c.cache.weak[({ value := 3 } : Address)]? = some e → ¬c.Lasts (.proxy e.proxy)) ∧
      ∃ name c e, (run { } scattered).session.machine? name = some c ∧
        c.cache.weak[({ value := 2 } : Address)]? = some e ∧ c.Lasts (.proxy e.proxy) := by
  have h : Along Candid { } scattered := by decide +kernel
  have hv : ∀ name ∈ ["right", "left", "right", "left"],
      (run { } scattered).visits.contains name = false := by decide +kernel
  have hk : ∀ name ∈ (run { } scattered).session.bridges.keys,
      name ∈ ["right", "left", "right", "left"] := by decide +kernel
  have ho (name : String) (hn : ((run { } scattered).session.machine? name).isSome) :=
    hk name (mem_keys_of_machine? hn)
  refine ⟨h, ?_, ?_⟩
  · exact (reclaimed_run ⟨_, h, rfl⟩ hv ho (by decide +kernel) (by decide +kernel)
      (by decide +kernel)).1 (by decide +kernel)
  · by_contra hn
    have hdead := (reclaimed_run (a := { value := 2 }) ⟨_, h, rfl⟩ hv ho (by decide +kernel)
      (by decide +kernel) (by decide +kernel)).2
        fun name c e hc he hl => hn ⟨name, c, e, hc, he, hl⟩
    exact absurd hdead (by decide +kernel)

end World

/-! ## Objects that are never freed -/

instance (h : Heap) (roots : List ProxyId) (n : Node) : Decidable (h.Reaches roots n) :=
  decidable_of_iff _ Heap.contains_mark_iff

/-- The proxies that are stashed, and those of objects that the code around the bridges owns. -/
def Bridge.sponsored (b : Bridge) (l : Ledger) : List ProxyId :=
  b.memory.roots.toList.map Prod.snd ++
    (b.memory.cache.weak.toList.filter fun item => 0 < l item.1).map fun item => item.2.proxy

namespace World

/-- An object of the base kind for which the code around the bridges has no use: it does not float, is
not owned, and no bridge can reach its proxy from one that is stashed or whose object is owned. -/
structure Abandoned (w : World) (a : Address) : Prop where
  isObject : w.session.outside.host.types.isObject (w.session.outside.host.typeOf a)
  sunk : w.session.outside.host.floats a = false
  unowned : w.owned a = 0
  unreached : ∀ item ∈ w.session.bridges.toList, ∀ e ∈ item.2.memory.cache.weak[a]?,
    ¬item.2.memory.heap.Reaches (item.2.sponsored w.owned) (.proxy e.proxy)

instance (w : World) (a : Address) : Decidable (w.Abandoned a) :=
  decidable_of_iff (w.session.outside.host.types.isObject (w.session.outside.host.typeOf a) ∧
      w.session.outside.host.floats a = false ∧ w.owned a = 0 ∧
      ∀ item ∈ w.session.bridges.toList, ∀ e ∈ item.2.memory.cache.weak[a]?,
        ¬item.2.memory.heap.Reaches (item.2.sponsored w.owned) (.proxy e.proxy))
    ⟨fun h => ⟨h.1, h.2.1, h.2.2.1, h.2.2.2⟩, fun h => ⟨h.1, h.2, h.3, h.4⟩⟩

/-- The world after two collections of every open bridge. -/
def collectedTwice (w : World) : World :=
  w.run ((w.session.bridges.keys ++ w.session.bridges.keys).map fun name => .step (.collect name))

/-- An object is kept by the proxy of another one, which two bridges share. -/
def pinned : List Move :=
  [.step (.host (.create { value := 1 } .object true)),
   .step (.host (.create { value := 2 } .object true)),
   .step (.open "left" .standard .environment false),
   .step (.open "right" .standard .environment false),
   .enter "left",
   .act "left" (.wrap (some { value := 1 }) false (some "x")),
   .act "left" (.wrap (some { value := 2 }) false (some "y")),
   .act "left" (.set (.var "x") (.var "y") "next"),
   .leave "left",
   .enter "right",
   .act "right" (.wrap (some { value := 1 }) false none),
   .leave "right"]

/-- A script tells its bridge of a second reference that there is not. -/
def coaxed : List Move :=
  [.step (.host (.create { value := 1 } .object true)),
   .step (.open "b" .standard .environment false),
   .enter "b",
   .act "b" (.wrap (some { value := 1 }) false none),
   .act "b" .catchUp,
   .act "b" (.notify ⟨{ value := 1 }, 1, false⟩),
   .leave "b"]

/-- A bridge gives back the reference behind a stale entry, but to the object that is there now. -/
def robbed : List Move :=
  [.step (.host (.addFundamental "Plain" none)),
   .step (.host (.create { value := 1 } ⟨1⟩ false)),
   .step (.host (.create { value := 2 } .object true)),
   .step (.open "b" .standard .environment false),
   .step (.open "c" .standard .environment false),
   .enter "c",
   .act "c" (.wrap (some { value := 1 }) false none),
   .leave "c",
   .step (.host (.drop { value := 1 } 1 false)),
   .reuse { value := 1 } .object false,
   .enter "b",
   .act "b" (.wrap (some { value := 1 }) false (some "x")),
   .act "b" (.wrap (some { value := 2 }) false (some "y")),
   .act "b" (.set (.var "x") (.var "y") "next"),
   .leave "b",
   .step (.host (.watch { value := 1 } "r")),
   .step (.host (.drop { value := 1 } 1 false)),
   .step (.collect "c"),
   .step (.host (.unwatch { value := 1 } "r"))]

/-- A run gives up owned references only and has no use for an object in the end, but two collections
of every bridge do not free it. -/
def Leaks (ms : List Move) (a : Address) : Prop :=
  Along Solvent { } ms ∧ (run { } ms).visits.isEmpty ∧ (run { } ms).Abandoned a ∧
    (run { } ms).collectedTwice.session.outside.host.isAlive a

instance (ms : List Move) (a : Address) : Decidable (Leaks ms a) :=
  inferInstanceAs (Decidable (_ ∧ _))

/-- It is not enough that the code around the bridges has no use for an object: bridges keep alive what
they share, what they were told wrongly about, and all that goes with it. -/
theorem not_reclaimed_solvent :
    Leaks shared { value := 1 } ∧ Leaks pinned { value := 2 } ∧ Leaks coaxed { value := 1 } ∧
      Leaks (untied ++ [.leave "b"]) { value := 1 } ∧ Leaks robbed { value := 2 } := by
  decide +kernel

end World

end NativeProxies
