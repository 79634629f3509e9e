import Mathlib.Algebra.BigOperators.Group.Finset.Basic
import NativeProxies.Proofs.Bridge.Shuffle

/-!
# Draining the mailbox

Whatever waits in a mailbox, how a cache holds a proxy afterwards is decided by the last notification
that names its object with the registration of its entry, and everything else makes no difference.  What
is counted on the way are the changes from weak to strong and back, one for each
(`Machine.drained_catchUp`).  Nothing is assumed of the cache or of what waits.
-/

namespace NativeProxies

/-- The last notification among `ns` that registration `g` of object `a` raised. -/
def lastNotice? (ns : List Notification) (a : Address) (g : Generation) : Option Notification :=
  (ns.filter fun n => n.object = a ∧ n.generation = g).getLast?

theorem lastNotice?_concat (ns : List Notification) (n : Notification) (a : Address)
    (g : Generation) : lastNotice? (ns ++ [n]) a g =
      if n.object = a ∧ n.generation = g then some n else lastNotice? ns a g := by
  rw [lastNotice?, List.filter_append, List.getLast?_append, List.filter_singleton]
  split_ifs with hn
  · simp [hn]
  · simp [hn, lastNotice?]

/-- The change after which a proxy is held strongly, or weakly. -/
def Switch.toward (strong : Bool) : Switch := if strong then .strengthened else .weakened

/-- The counter of a change. -/
def Switch.counter : Switch → Counter
  | strengthened => .promotions
  | weakened => .demotions

namespace ProxyCache

variable {k : ProxyCache} {h : Heap} {n : Notification} {ns : List Notification} {a : Address}
  {g : Generation} {strong : Bool}

/-! ## One notification -/

theorem generation_applyNotification (k : ProxyCache) (h : Heap) (n : Notification) :
    (k.applyNotification h n).1.generation = k.generation := by
  funext a
  rw [generation, weak_applyNotification, generation]

/-- A notification that does not name an object with the registration of its entry leaves the object
alone. -/
theorem strong_applyNotification_of_unmatched
    (hn : n.object = a → k.generation a ≠ some n.generation) :
    (k.applyNotification h n).1.strong[a]? = k.strong[a]? := by
  by_cases ha : a = n.object
  · subst ha
    rw [applyNotification, if_neg (hn rfl)]
  · exact strong_applyNotification_of_ne ha

theorem isStrong_eq_isSome (k : ProxyCache) (a : Address) : k.isStrong a = k.strong[a]?.isSome :=
  Std.ExtTreeMap.contains_eq_isSome_getElem?

/-- A notification of the registration of an entry decides how its proxy is held, if the proxy is still
there. -/
theorem isStrong_applyNotification (hg : k.generation a = some g) (hp : (k.proxyOf? h a).isSome)
    (n : Notification) : (k.applyNotification h n).1.isStrong a =
      if n.object = a ∧ n.generation = g then !n.isLast else k.isStrong a := by
  split_ifs with hn
  · obtain ⟨rfl, rfl⟩ := hn
    obtain ⟨p, hp⟩ := Option.isSome_iff_exists.1 hp
    rw [applyNotification, if_pos hg]
    cases hl : n.isLast with
    | true => simp [weaken, hg, isStrong]
    | false =>
      cases hs : k.strong.contains n.object <;> simp [strengthen, hg, hp, hs, isStrong]
  · have hunmatched : n.object = a → k.generation a ≠ some n.generation := by
      rintro rfl he
      exact hn ⟨rfl, (Option.some.inj (hg.symm.trans he)).symm⟩
    rw [isStrong_eq_isSome, strong_applyNotification_of_unmatched hunmatched, isStrong_eq_isSome]

/-- A change is reported if and only if the proxy of the object named was held the other way before. -/
theorem switch_applyNotification (k : ProxyCache) (h : Heap) (n : Notification) (strong : Bool) :
    (k.applyNotification h n).2 = some (.toward strong) ↔
      k.isStrong n.object ≠ strong ∧ (k.applyNotification h n).1.isStrong n.object = strong := by
  rw [applyNotification]
  split_ifs with hg hl
  · rw [weaken, if_pos hg]
    cases strong <;> cases hs : k.strong.contains n.object <;> simp [isStrong, hs, Switch.toward]
  · rw [strengthen]
    cases hs : k.strong.contains n.object with
    | true => cases strong <;> simp [isStrong, hs, Switch.toward]
    | false =>
      rw [Bool.false_or, if_neg (by simp [hg])]
      cases strong <;> cases k.proxyOf? h n.object <;> simp [isStrong, hs, Switch.toward]
  · simp

/-! ## Any number of notifications -/

/-- The cache after notifications were applied in order. -/
def applyAll (k : ProxyCache) (h : Heap) (ns : List Notification) : ProxyCache :=
  ns.foldl (fun k n => (k.applyNotification h n).1) k

theorem applyAll_concat (k : ProxyCache) (h : Heap) (ns : List Notification) (n : Notification) :
    k.applyAll h (ns ++ [n]) = ((k.applyAll h ns).applyNotification h n).1 := by
  rw [applyAll, List.foldl_append]
  rfl

theorem weak_applyAll (k : ProxyCache) (h : Heap) (ns : List Notification) :
    (k.applyAll h ns).weak = k.weak :=
  List.foldlRecOn (motive := fun k' : ProxyCache => k'.weak = k.weak) _ _ rfl fun k' hk n _ =>
    (k'.weak_applyNotification h n).trans hk

theorem strong_applyAll_of_unmatched
    (hns : ∀ n ∈ ns, n.object = a → k.generation a ≠ some n.generation) :
    (k.applyAll h ns).strong[a]? = k.strong[a]? := by
  induction ns generalizing k with
  | nil => rfl
  | cons n ns ih =>
    rw [applyAll, List.foldl_cons, ← applyAll, ih, strong_applyNotification_of_unmatched]
    · exact hns n List.mem_cons_self
    · rw [generation_applyNotification]
      exact fun m hm => hns m (List.mem_cons_of_mem n hm)

/-- The last notification of the registration of an entry decides how a proxy that is there is held; if
there is none, it is held as before. -/
theorem isStrong_applyAll (hg : k.generation a = some g) (hp : (k.proxyOf? h a).isSome)
    (ns : List Notification) :
    (k.applyAll h ns).isStrong a = (lastNotice? ns a g).elim (k.isStrong a) fun n => !n.isLast := by
  induction ns using List.reverseRecOn with
  | nil => rfl
  | append_singleton ns n ih =>
    have hw := k.weak_applyAll h ns
    have hg' : (k.applyAll h ns).generation a = some g := by rw [generation, hw, ← generation, hg]
    have hp' : ((k.applyAll h ns).proxyOf? h a).isSome := by rwa [proxyOf?, hw, ← proxyOf?]
    rw [applyAll_concat, isStrong_applyNotification hg' hp', lastNotice?_concat, ih]
    split_ifs <;> rfl

/-- How often the cache goes over to holding the proxy of `a` strongly (or, for `strong = false`, weakly)
while notifications are applied in order. -/
def turns (h : Heap) (strong : Bool) (a : Address) : ProxyCache → List Notification → Nat
  | _, [] => 0
  | k, n :: ns =>
    let k' := (k.applyNotification h n).1
    (if k.isStrong a ≠ strong ∧ k'.isStrong a = strong then 1 else 0) + turns h strong a k' ns

/-- A notification makes one proxy turn if it reports a change, and no other. -/
theorem sum_turns_cons {s : Finset Address} (hn : n.object ∈ s) :
    ∑ a ∈ s, turns h strong a k (n :: ns) =
      (if (k.applyNotification h n).2 = some (.toward strong) then 1 else 0) +
        ∑ a ∈ s, turns h strong a (k.applyNotification h n).1 ns := by
  simp only [turns, Finset.sum_add_distrib, switch_applyNotification]
  congr 1
  refine Finset.sum_eq_single_of_mem _ hn fun a _ ha => if_neg ?_
  rintro ⟨hne, he⟩
  rw [isStrong_eq_isSome, strong_applyNotification_of_ne ha, ← isStrong_eq_isSome] at he
  exact hne he

theorem size_strong_add_switch (k : ProxyCache) (h : Heap) (n : Notification) :
    k.strong.size + (if (k.applyNotification h n).2 = some (.toward true) then 1 else 0) =
      (k.applyNotification h n).1.strong.size +
        (if (k.applyNotification h n).2 = some (.toward false) then 1 else 0) := by
  have hs := k.size_strong_applyNotification h n
  generalize k.applyNotification h n = r at hs
  obtain ⟨k', switch⟩ := r
  rcases switch with _ | _ | _ <;> simp [Switch.toward] at hs ⊢ <;> omega

/-- The turns account for the change in the number of proxies that are held strongly. -/
theorem size_strong_applyAll {s : Finset Address} (hns : ∀ n ∈ ns, n.object ∈ s) :
    k.strong.size + ∑ a ∈ s, turns h true a k ns =
      (k.applyAll h ns).strong.size + ∑ a ∈ s, turns h false a k ns := by
  induction ns generalizing k with
  | nil => simp [turns, applyAll]
  | cons n ns ih =>
    have hn := hns n List.mem_cons_self
    have hstep := k.size_strong_add_switch h n
    have hrest := ih (k := (k.applyNotification h n).1) fun m hm =>
      hns m (List.mem_cons_of_mem n hm)
    rw [sum_turns_cons hn, sum_turns_cons hn, applyAll, List.foldl_cons, ← applyAll]
    omega

end ProxyCache

namespace Machine

variable {ns : List Notification}

theorem counters_applyNotification (c : Machine) (n : Notification) (strong : Bool) :
    (c.applyNotification n).bridge.counters.get (Switch.toward strong).counter =
      c.bridge.counters.get (Switch.toward strong).counter +
        .ofNat (if (c.cache.applyNotification c.heap n).2 = some (.toward strong) then 1 else 0) := by
  rw [applyNotification]
  generalize c.cache.applyNotification c.heap n = r
  obtain ⟨k, switch⟩ := r
  rcases switch with _ | _ | _ <;> cases strong <;>
    simp [countSwitch, Switch.toward, Switch.counter, Counters.get, bump, Counters.bump, setCache,
      setMemory]

theorem cache_foldl_applyNotification (c : Machine) (ns : List Notification) :
    (ns.foldl applyNotification c).cache = c.cache.applyAll c.heap ns := by
  induction ns generalizing c with
  | nil => rfl
  | cons n ns ih =>
    rw [List.foldl_cons, ih, cache_applyNotification, (c.toggles_applyNotification n).heap]
    rfl

/-- Every turn is counted, and nothing else. -/
theorem counters_foldl_applyNotification {s : Finset Address} (hns : ∀ n ∈ ns, n.object ∈ s)
    (c : Machine) (strong : Bool) :
    (ns.foldl applyNotification c).bridge.counters.get (Switch.toward strong).counter =
      c.bridge.counters.get (Switch.toward strong).counter +
        .ofNat (∑ a ∈ s, c.cache.turns c.heap strong a ns) := by
  induction ns generalizing c with
  | nil => simp [ProxyCache.turns]
  | cons n ns ih =>
    rw [List.foldl_cons, ih fun m hm => hns m (List.mem_cons_of_mem n hm),
      counters_applyNotification, cache_applyNotification, (c.toggles_applyNotification n).heap,
      ProxyCache.sum_turns_cons (hns n List.mem_cons_self), UInt64.ofNat_add,
      UInt64.add_assoc]

/-- What is left of the notifications `ns` after a bridge applied them.  The sums are over any finite set
of objects that has all those the notifications name. -/
structure Drained (ns : List Notification) (c c' : Machine) : Prop where
  pending : c'.mailbox.pending = #[]
  weak : c'.cache.weak = c.cache.weak
  decided : ∀ a g, c.cache.generation a = some g → (c.cache.proxyOf? c.heap a).isSome →
    (c'.cache.isStrong a ↔ (∃ n, lastNotice? ns a g = some n ∧ n.isLast = false) ∨
      lastNotice? ns a g = none ∧ c.cache.isStrong a)
  unregistered : ∀ a, c.cache.generation a = none → c'.cache.strong[a]? = c.cache.strong[a]?
  promotions : ∀ s : Finset Address, (∀ n ∈ ns, n.object ∈ s) → c'.bridge.counters.promotions =
    c.bridge.counters.promotions + .ofNat (∑ a ∈ s, c.cache.turns c.heap true a ns)
  demotions : ∀ s : Finset Address, (∀ n ∈ ns, n.object ∈ s) → c'.bridge.counters.demotions =
    c.bridge.counters.demotions + .ofNat (∑ a ∈ s, c.cache.turns c.heap false a ns)
  size : ∀ s : Finset Address, (∀ n ∈ ns, n.object ∈ s) →
    c.cache.strong.size + ∑ a ∈ s, c.cache.turns c.heap true a ns =
      c'.cache.strong.size + ∑ a ∈ s, c.cache.turns c.heap false a ns

/-- A bridge that catches up with its notifications, whatever they are and whatever is in its cache, is
left with what the last one for each entry says, and has counted every change on the way. -/
theorem drained_catchUp (c : Machine) : c.Drained c.mailbox.pending.toList c.catchUp := by
  have hcache : c.catchUp.cache = c.cache.applyAll c.heap c.mailbox.pending.toList :=
    cache_foldl_applyNotification (c.setMailbox c.mailbox.takeAll.1) _
  have hcounters (s : Finset Address) (hs : ∀ n ∈ c.mailbox.pending.toList, n.object ∈ s) :=
    counters_foldl_applyNotification hs (c.setMailbox c.mailbox.takeAll.1)
  refine ⟨c.pending_catchUp, c.weak_catchUp, fun a g hg hp => ?_, fun a hg => ?_,
    fun s hs => hcounters s hs true, fun s hs => hcounters s hs false, fun s hs => ?_⟩
  · rw [hcache, ProxyCache.isStrong_applyAll hg hp]
    cases lastNotice? c.mailbox.pending.toList a g <;> simp
  · rw [hcache, ProxyCache.strong_applyAll_of_unmatched]
    intro n _ _
    rw [hg]
    exact nofun
  · rw [hcache, ProxyCache.size_strong_applyAll hs]

end Machine

end NativeProxies
