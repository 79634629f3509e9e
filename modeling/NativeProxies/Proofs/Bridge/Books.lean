import NativeProxies.Proofs.Bridge.Departure
import NativeProxies.Proofs.Bridge.Wrap
import NativeProxies.Proofs.Script.Scope

/-!
# Books

A bridge counts what it does at many places: when it finds or makes a proxy, when a reference is given
back or leaks, and when a proxy becomes strong or weak.  Here each of its operations is described by
what it enters in the books (`Posting`), and `Bridge.Books` says how the counters and the sizes of the
cache agree with everything entered so far.  Notifications enter nothing (`Machine.Level`), whichever of
them take effect.
-/

namespace NativeProxies

theorem size_erase_add_one {α : Type} {m : Map Address α} {a : Address} (h : m.contains a) :
    (m.erase a).size + 1 = m.size := by
  have hs : m.size ≠ 0 := fun hs => by
    have he : m = ∅ := by simpa [Std.ExtTreeMap.isEmpty_eq_size_beq_zero, hs] using
      (Std.ExtTreeMap.isEmpty_iff (t := m)).1
    simp [he] at h
  rw [Std.ExtTreeMap.size_erase, if_pos h]
  omega

/-- What a bridge does to the references behind its proxies, as far as it counts. -/
inductive Posting
  /-- It is asked for the proxy of an object, which is known or not. -/
  | wrapped (known handedOver : Bool)
  /-- It gives back a reference, if there is a way. -/
  | returned (possible : Bool)
  /-- It dismisses a proxy that was strong. -/
  | cut
deriving DecidableEq, Repr

namespace Posting

def isWrap : Posting → Bool
  | wrapped .. => true
  | _ => false

/-- A proxy is made. -/
def isMaking : Posting → Bool
  | wrapped false _ => true
  | _ => false

/-- A proxy is found. -/
def isHit : Posting → Bool
  | wrapped true _ => true
  | _ => false

def isReturn : Posting → Bool
  | returned _ => true
  | _ => false

/-- The counters after an entry. -/
def count (m : Counters) : Posting → Counters
  | wrapped false _ => m.bump .proxiesCreated
  | wrapped true _ => m.bump .cacheHits
  | returned true => m.bump .releases
  | returned false => m.bump .leaks
  | cut => m

theorem countP_isWrap (xs : List Posting) :
    xs.countP isWrap = xs.countP isMaking + xs.countP isHit := by
  induction xs with
  | nil => rfl
  | cons x xs ih =>
    simp only [List.countP_cons, ih]
    cases x with
    | wrapped known handedOver =>
      cases known <;> simp only [isWrap, isMaking, isHit, if_true, Bool.false_eq_true, if_false] <;> omega
    | _ => rfl

theorem countP_isReturn (xs : List Posting) :
    xs.countP isReturn = xs.count (.returned true) + xs.count (.returned false) := by
  induction xs with
  | nil => rfl
  | cons x xs ih =>
    simp only [List.countP_cons, List.count_cons, ih]
    cases x with
    | returned possible => cases possible <;> simp [isReturn] <;> omega
    | _ => simp [isReturn]

/-- An entry adds to the counters what there is of it. -/
theorem count_eq (m : Counters) (x : Posting) : x.count m =
    { m with
      proxiesCreated := m.proxiesCreated + .ofNat ([x].countP isMaking)
      cacheHits := m.cacheHits + .ofNat ([x].countP isHit)
      releases := m.releases + .ofNat ([x].count (.returned true))
      leaks := m.leaks + .ofNat ([x].count (.returned false)) } := by
  cases x with
  | wrapped known _ => cases known <;> simp [count, Counters.bump, isMaking, isHit]
  | returned possible => cases possible <;> simp [count, Counters.bump, isMaking, isHit]
  | cut => simp [count, isMaking, isHit]

end Posting

/-- The counters and the cache of a bridge agree with everything entered in its books.  It owes some
references: their entries were dropped, and they have yet to be given back. -/
structure Bridge.Books (b : Bridge) (owed : Nat) (xs : List Posting) : Prop where
  proxiesCreated : b.counters.proxiesCreated = .ofNat (xs.countP Posting.isMaking)
  cacheHits : b.counters.cacheHits = .ofNat (xs.countP Posting.isHit)
  releases : b.counters.releases = .ofNat (xs.count (.returned true))
  leaks : b.counters.leaks = .ofNat (xs.count (.returned false))
  entries : xs.countP Posting.isReturn + owed + b.memory.cache.weak.size =
    xs.countP Posting.isMaking + xs.count (.wrapped true true)
  switches : b.counters.promotions =
    b.counters.demotions + .ofNat (b.memory.cache.strong.size + xs.count .cut)

/-- What an entry asks for: it is counted, and the sizes of the cache change accordingly. -/
theorem Bridge.Books.post {b b' : Bridge} {owed owed' : Nat} {xs : List Posting}
    (h : b.Books owed xs) (x : Posting) (hk : b'.counters = x.count b.counters)
    (hw : [x].countP Posting.isReturn + owed' + b'.memory.cache.weak.size =
      [x].countP Posting.isMaking + [x].count (.wrapped true true) + owed +
        b.memory.cache.weak.size)
    (hs : [x].count .cut + b'.memory.cache.strong.size = b.memory.cache.strong.size) :
    b'.Books owed' (xs ++ [x]) := by
  have he := h.entries
  rw [Posting.count_eq] at hk
  refine ⟨?_, ?_, ?_, ?_, ?_, ?_⟩
  · simp only [hk, h.proxiesCreated, List.countP_append, UInt64.ofNat_add]
  · simp only [hk, h.cacheHits, List.countP_append, UInt64.ofNat_add]
  · simp only [hk, h.releases, List.count_append, UInt64.ofNat_add]
  · simp only [hk, h.leaks, List.count_append, UInt64.ofNat_add]
  · simp only [List.countP_append, List.count_append]
    omega
  · have hsum : b.memory.cache.strong.size + xs.count .cut =
        b'.memory.cache.strong.size + (xs ++ [x]).count .cut := by
      rw [List.count_append]
      omega
    rw [hk, ← hsum]
    exact h.switches

/-- Entries that were dropped are owed for. -/
theorem Bridge.Books.owe {b b' : Bridge} {owed owed' : Nat} {xs : List Posting}
    (h : b.Books owed xs) (hk : b'.counters = b.counters)
    (hw : owed' + b'.memory.cache.weak.size = owed + b.memory.cache.weak.size)
    (hs : b'.memory.cache.strong.size = b.memory.cache.strong.size) : b'.Books owed' xs where
  proxiesCreated := hk ▸ h.proxiesCreated
  cacheHits := hk ▸ h.cacheHits
  releases := hk ▸ h.releases
  leaks := hk ▸ h.leaks
  entries := by
    have he := h.entries
    omega
  switches := by
    rw [hk, hs]
    exact h.switches

/-! ## Operations without an entry -/

theorem ProxyCache.size_strong_applyNotification (k : ProxyCache) (h : Heap) (n : Notification) :
    match (k.applyNotification h n).2 with
    | none => (k.applyNotification h n).1.strong.size = k.strong.size
    | some .strengthened => (k.applyNotification h n).1.strong.size = k.strong.size + 1
    | some .weakened => (k.applyNotification h n).1.strong.size + 1 = k.strong.size := by
  rw [applyNotification]
  split_ifs with hg hl
  · rw [weaken, if_pos hg]
    cases hc : k.strong.contains n.object with
    | false => simp [Std.ExtTreeMap.size_erase, hc]
    | true => exact size_erase_add_one hc
  · rw [strengthen]
    split_ifs with hc
    · rfl
    · have hc : k.strong.contains n.object = false := by
        rw [Bool.or_eq_true, not_or] at hc
        exact Bool.eq_false_iff.2 hc.1
      cases k.proxyOf? h n.object with
      | none => rfl
      | some p => simp [Std.ExtTreeMap.size_insert, hc]
  · rfl

namespace Machine

variable {c c' c₁ : Machine} {a : Address} {xs : List Posting} {owed : Nat}

/-- How many more changes to strong than back a bridge counted than there are strong entries. -/
def surplus (c : Machine) : UInt64 :=
  c.bridge.counters.promotions - c.bridge.counters.demotions - .ofNat c.cache.strong.size

/-- The books that fit the first machine fit the second one, too. -/
structure Level (c c' : Machine) : Prop where
  proxiesCreated : c'.bridge.counters.proxiesCreated = c.bridge.counters.proxiesCreated
  cacheHits : c'.bridge.counters.cacheHits = c.bridge.counters.cacheHits
  releases : c'.bridge.counters.releases = c.bridge.counters.releases
  leaks : c'.bridge.counters.leaks = c.bridge.counters.leaks
  entries : c'.cache.weak.size = c.cache.weak.size
  surplus : c'.surplus = c.surplus

theorem Level.refl (c : Machine) : c.Level c := ⟨rfl, rfl, rfl, rfl, rfl, rfl⟩

theorem Level.trans (h₁ : c.Level c₁) (h₂ : c₁.Level c') : c.Level c' where
  proxiesCreated := h₂.proxiesCreated.trans h₁.proxiesCreated
  cacheHits := h₂.cacheHits.trans h₁.cacheHits
  releases := h₂.releases.trans h₁.releases
  leaks := h₂.leaks.trans h₁.leaks
  entries := h₂.entries.trans h₁.entries
  surplus := h₂.surplus.trans h₁.surplus

theorem surplus_eq_iff {n : Nat} : c.surplus = .ofNat n ↔ c.bridge.counters.promotions =
    c.bridge.counters.demotions + .ofNat (c.cache.strong.size + n) := by
  rw [surplus, UInt64.ofNat_add]
  constructor <;> intro h <;> grind

theorem Level.books (h : c.Level c') (hb : c.bridge.Books owed xs) : c'.bridge.Books owed xs where
  proxiesCreated := h.proxiesCreated.trans hb.proxiesCreated
  cacheHits := h.cacheHits.trans hb.cacheHits
  releases := h.releases.trans hb.releases
  leaks := h.leaks.trans hb.leaks
  entries := by
    have he : c'.bridge.memory.cache.weak.size = c.bridge.memory.cache.weak.size := h.entries
    rw [he]
    exact hb.entries
  switches := surplus_eq_iff.1 (h.surplus.trans (surplus_eq_iff.2 hb.switches))

theorem level_of_cache (hc : c'.cache = c.cache) (hk : c'.bridge.counters = c.bridge.counters) :
    c.Level c' := by
  refine ⟨?_, ?_, ?_, ?_, ?_, ?_⟩ <;> simp only [surplus, hc, hk]

theorem Quiet.level (h : c.Quiet c') : c.Level c' := level_of_cache h.cache h.counters

theorem Recalls.level (h : c.Recalls c') : c.Level c' := h.quiet.level

theorem level_countCollection (c : Machine) : c.Level c.countCollection :=
  ⟨rfl, rfl, rfl, rfl, rfl, rfl⟩

theorem level_call (c : Machine) (route : Route) (a : Address) : c.Level (c.call route a) :=
  level_of_cache rfl rfl

/-- A notification that takes effect changes the number of strong entries as it is counted. -/
theorem level_applyNotification (c : Machine) (n : Notification) :
    c.Level (c.applyNotification n) := by
  have hs := c.cache.size_strong_applyNotification c.heap n
  have hw := congrArg Std.ExtTreeMap.size (c.cache.weak_applyNotification c.heap n)
  rw [applyNotification]
  generalize c.cache.applyNotification c.heap n = r at hs hw
  obtain ⟨k, switch⟩ := r
  cases switch with
  | none => exact ⟨rfl, rfl, rfl, rfl, hw, by simp only [surplus]; exact congrArg _ (congrArg _ hs)⟩
  | some switch =>
    refine ⟨?_, ?_, ?_, ?_, ?_, ?_⟩ <;> cases switch
    all_goals first | rfl | exact hw | skip
    · have hk : k.strong.size = c.cache.strong.size + 1 := hs
      change c.bridge.counters.promotions + 1 - c.bridge.counters.demotions - .ofNat k.strong.size = _
      rw [hk, surplus, UInt64.ofNat_add]
      grind
    · have hk : k.strong.size + 1 = c.cache.strong.size := hs
      change c.bridge.counters.promotions - (c.bridge.counters.demotions + 1) - .ofNat k.strong.size = _
      rw [surplus, ← hk, UInt64.ofNat_add]
      grind

theorem level_foldl_applyNotification (c : Machine) (ns : List Notification) :
    c.Level (ns.foldl applyNotification c) :=
  List.foldlRecOn (motive := c.Level) _ _ (.refl c) fun c' h n _ =>
    h.trans (level_applyNotification c' n)

theorem level_catchUp (c : Machine) : c.Level c.catchUp := by
  have ht : c.Level (c.setMailbox c.mailbox.takeAll.1) := level_of_cache rfl rfl
  exact ht.trans (level_foldl_applyNotification _ c.mailbox.takeAll.2)

theorem level_claim (c : Machine) (a : Address) : c.Level (c.claim a).1 := by
  obtain ⟨c₁, hr, he⟩ := c.claim_eq a
  rw [he]
  split
  · exact hr.level.trans (level_call c₁ _ a)
  · exact hr.level

theorem level_own (c : Machine) (a : Address) (g : Option Generation) (handedOver : Bool) :
    c.Level (c.own a g handedOver) := by
  have hr : c.Level (if handedOver then (c, true) else c.claim a).1 := by
    cases handedOver
    · exact level_claim c a
    · exact .refl c
  rw [own]
  cases g with
  | none => exact hr
  | some g =>
    refine hr.trans ?_
    generalize (if handedOver then (c, true) else c.claim a) = r
    have hn := (level_call r.1 (.method (.watch (.bridge r.1.bridge.serial g))) a).trans
      (level_applyNotification _ ⟨a, g, false⟩)
    rw [Option.elim_some, startWatching]
    split_ifs
    · exact hn.trans (level_call _ _ a)
    · exact hn

/-! ## Giving back -/

/-- Whether there is a way to give back a reference to an object. -/
def canReturn (c : Machine) (a : Address) (g : Option Generation) : Bool :=
  (c.giveBackRoute (c.host.typeOf a) g).2.isSome

theorem Alike.giveBackRoute (h : c.Alike c') (a : Address) (g : Option Generation) :
    (c'.giveBackRoute (c'.host.typeOf a) g).2 = (c.giveBackRoute (c.host.typeOf a) g).2 := by
  simp only [Machine.giveBackRoute, h.types, h.typeOf, h.serial]
  split_ifs
  · rfl
  · rw [h.functionRoute]

theorem Alike.canReturn (h : c.Alike c') (a : Address) (g : Option Generation) :
    c'.canReturn a g = c.canReturn a g :=
  congrArg Option.isSome (h.giveBackRoute a g)

theorem books_giveBack (hb : c.bridge.Books (owed + 1) xs) (a : Address) (g : Option Generation) :
    (c.giveBack a g).bridge.Books owed (xs ++ [.returned (c.canReturn a g)]) := by
  have hm : (c.giveBack a g).bridge.memory = c.bridge.memory := memory_giveBack c a g
  refine hb.post _ ?_ ?_ ?_
  · obtain ⟨k, hk⟩ := c.bridge_giveBack a g
    rw [hk, canReturn]
    cases (c.giveBackRoute (c.host.typeOf a) g).2.isSome <;> rfl
  · rw [hm]
    change 1 + owed + _ = 0 + 0 + (owed + 1) + _
    omega
  · rw [hm]
    exact Nat.zero_add _

/-- What is entered when the references behind several entries are given back. -/
def returns (c : Machine) (items : List (Address × CachedProxy)) : List Posting :=
  items.map fun item => .returned (c.canReturn item.1 item.2.toggle)

theorem Alike.returns_eq (h : c.Alike c') (items : List (Address × CachedProxy)) :
    c'.returns items = c.returns items := by
  simp only [Machine.returns, h.canReturn]

theorem books_giveBackAll {items : List (Address × CachedProxy)}
    (hb : c.bridge.Books (owed + items.length) xs) :
    (c.giveBackAll items).bridge.Books owed (xs ++ c.returns items) := by
  induction items generalizing c xs with
  | nil => rwa [returns, List.map_nil, List.append_nil]
  | cons item items ih =>
    have hg := books_giveBack hb item.1 item.2.toggle
    have hi := ih hg
    rwa [(alike_giveBack c _ _).returns_eq, List.append_assoc] at hi

/-! ## Wrapping -/

/-- What is entered when an object is wrapped.  A reference that is handed over for a known proxy is given
back. -/
def wrapping (c : Machine) (a : Address) (handedOver : Bool) : List Posting :=
  match c.proxyOf? a with
  | none => [.wrapped false handedOver]
  | some _ => .wrapped true handedOver :: if handedOver then [.returned (c.canReturn a none)] else []

theorem bridge_registerProxy (c : Machine) (a : Address) :
    (c.registerProxy a).1.bridge = c.bridge := by
  rw [registerProxy]
  split_ifs <;> rfl

/-- A new proxy has an entry before it is counted. -/
theorem books_create (h : c.memory.Sound) (hb : c.bridge.Books 0 xs) (ha : c.cache.weak[a]? = none)
    (handedOver : Bool) :
    ((c.entered a).own a (c.registerProxy a).2 handedOver).countCreated.bridge.Books 0
      (xs ++ [.wrapped false handedOver]) := by
  obtain ⟨-, -, -, hw⟩ := own_memory (sound_entered h ha) a (c.registerProxy a).2 handedOver
  have hl := level_own (c.entered a) a (c.registerProxy a).2 handedOver
  generalize (c.entered a).own a (c.registerProxy a).2 handedOver = d at hw hl
  have hk : (c.entered a).bridge.counters = c.bridge.counters := by
    have hr := congrArg Bridge.counters (bridge_registerProxy c a)
    exact hr
  have hs : (c.entered a).surplus = c.surplus := by
    rw [surplus, surplus, hk]
    rfl
  have hd : c.Level (d.setCache { d.cache with weak := c.cache.weak }) :=
    ⟨hk ▸ hl.proxiesCreated, hk ▸ hl.cacheHits, hk ▸ hl.releases, hk ▸ hl.leaks, rfl,
      hl.surplus.trans hs⟩
  have hsize : d.cache.weak.size = c.cache.weak.size + 1 := by
    rw [hw]
    refine Std.ExtTreeMap.size_insert.trans (if_neg ?_)
    simp [Std.ExtTreeMap.contains_eq_isSome_getElem?, ha]
  refine (hd.books hb).post (.wrapped false handedOver) rfl ?_ (Nat.zero_add _)
  change 0 + 0 + d.cache.weak.size = 1 + [Posting.wrapped false handedOver].count _ + 0 + c.cache.weak.size
  rw [hsize, List.count_singleton, if_neg (by simp)]
  omega

theorem books_wrap (h : c.memory.Sound) (hb : c.bridge.Books 0 xs) (a : Address) (handedOver : Bool) :
    (c.wrap a handedOver).1.bridge.Books 0 (xs ++ c.wrapping a handedOver) := by
  rcases proxyOf?_or h a with ⟨p, hp⟩ | ha
  · rw [wrap_of_some hp, wrapping, hp]
    cases handedOver with
    | false => exact hb.post (.wrapped true false) rfl rfl (Nat.zero_add _)
    | true =>
      have hh : (c.bump .cacheHits).bridge.Books 1 (xs ++ [.wrapped true true]) := by
        refine hb.post (.wrapped true true) rfl ?_ (Nat.zero_add _)
        change 0 + 1 + _ = 0 + 1 + 0 + _
        rfl
      have hg := books_giveBack hh a none
      rwa [(alike_bump c _).canReturn, List.append_assoc] at hg
  · have hp : c.proxyOf? a = none := h.proxyOf?_eq_none_iff.2 ha
    rw [wrap_of_none h ha, wrapping, hp]
    exact books_create h hb ha handedOver

/-! ## Dropping entries -/

/-- What is entered when a value is dismissed. -/
def dismissing (c : Machine) (v : Value) : List Posting :=
  (((c.dismissals v).filter fun item => c.catchUp.cache.isStrong item.1).map fun _ => .cut) ++
    c.returns (c.dismissals v)

/-- The reference behind a dropped entry is owed, and a strong entry is cut. -/
theorem books_forgotten (hb : c.bridge.Books 0 xs) (ha : c.cache.weak.contains a) (p : ProxyId) :
    (c.forgotten p a).bridge.Books 1 (xs ++ if c.catchUp.cache.isStrong a then [.cut] else []) := by
  have hc := (level_catchUp c).books hb
  have hw : (c.catchUp.cache.weak.erase a).size + 1 = c.catchUp.cache.weak.size :=
    size_erase_add_one (c.weak_catchUp ▸ ha)
  have hweak : (c.forgotten p a).bridge.memory.cache.weak.size + 1 =
      c.catchUp.bridge.memory.cache.weak.size := hw
  cases hs : c.catchUp.cache.isStrong a with
  | true =>
    have hstrong : (c.forgotten p a).bridge.memory.cache.strong.size + 1 =
        c.catchUp.bridge.memory.cache.strong.size := size_erase_add_one hs
    refine hc.post .cut rfl ?_ ?_
    · change 0 + 1 + _ = 0 + 0 + 0 + _
      omega
    · change 1 + _ = _
      omega
  | false =>
    rw [if_neg Bool.false_ne_true, List.append_nil]
    refine hc.owe rfl (by omega) ?_
    exact Std.ExtTreeMap.size_erase.trans (if_neg (Bool.eq_false_iff.1 hs))

theorem books_dismiss (h : c.Sound) (hb : c.bridge.Books 0 xs) (v : Value) :
    (c.dismiss v).1.bridge.Books 0 (xs ++ c.dismissing v) := by
  cases hv : c.heap.heldProxy? v with
  | none =>
    rw [dismiss_of_none hv, dismissing, dismissals, hv]
    simpa [returns] using hb
  | some found =>
    obtain ⟨p, r⟩ := found
    obtain ⟨-, hp, hrel⟩ := heldProxy?_spec hv
    obtain ⟨e, he, -⟩ := h.memory.cached r.object p ⟨r, hp, rfl, hrel⟩
    have ha : c.cache.weak.contains r.object := by
      rw [Std.ExtTreeMap.contains_eq_isSome_getElem?]
      exact Option.isSome_iff_exists.2 ⟨e, he⟩
    have hg := books_giveBack (books_forgotten hb ha p) r.object (c.catchUp.cache.generation r.object)
    have hgen : c.catchUp.cache.generation r.object = c.cache.generation r.object := by
      rw [ProxyCache.generation, ProxyCache.generation, weak_catchUp]
    rw [(alike_forgotten h p r.object).canReturn, hgen, List.append_assoc] at hg
    have hd : c.dismissing v = (if c.catchUp.cache.isStrong r.object then [.cut] else []) ++
        [.returned (c.canReturn r.object (c.cache.generation r.object))] := by
      rw [dismissing, dismissals, hv]
      cases hs : c.catchUp.cache.isStrong r.object <;> simp [hs, returns]
    rw [dismiss_of_some hv, hgen, hd]
    exact hg

/-- A sweep gives back the references behind the dead entries. -/
theorem books_swept (hb : c.bridge.Books 0 xs) : c.swept.bridge.Books 0 (xs ++ c.returns c.dead) := by
  have hsize : c.dead.length + c.memory.evict.1.cache.weak.size = c.cache.weak.size := by
    have hl := List.length_eq_length_filter_add (l := c.cache.weak.toList)
      fun item => c.memory.marks.proxies.contains item.2.proxy
    have hf : c.memory.evict.1.cache.weak.size = (c.cache.weak.toList.filter
        fun item => c.memory.marks.proxies.contains item.2.proxy).length := by
      rw [← Std.ExtTreeMap.length_toList]
      exact congrArg List.length Std.ExtTreeMap.toList_filter
    rw [Std.ExtTreeMap.length_toList] at hl
    rw [hf, hl, Nat.add_comm]
    rfl
  have he : (c.setMemory c.memory.evict.1).bridge.Books (0 + c.dead.length) xs := by
    refine hb.owe rfl ?_ rfl
    rw [Nat.zero_add]
    exact hsize.trans (Nat.zero_add _).symm
  have hg := books_giveBackAll he
  rw [(alike_setMemory c _).returns_eq] at hg
  have hl : c.releaseDead.Level c.swept := level_of_cache rfl rfl
  exact hl.books hg

theorem books_collect (h : c.Sound) (hb : c.bridge.Books 0 xs) :
    c.collect.bridge.Books 0 (xs ++ c.returns c.catchUp.dead) := by
  have hs := books_swept ((level_catchUp c).books hb)
  rw [(alike_catchUp h).returns_eq] at hs
  exact ((level_countCollection _).trans (level_catchUp _)).books hs

theorem books_leave (h : c.Sound) (hb : c.bridge.Books 0 xs) :
    c.leave.bridge.Books 0 (xs ++ c.returns c.departures) := by
  rw [leave_eq_ite, departures]
  split_ifs
  · exact books_collect h hb
  · rw [returns, List.map_nil, List.append_nil]
    exact (level_catchUp c).books hb

end Machine

end NativeProxies
