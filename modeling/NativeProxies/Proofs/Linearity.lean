import Mathlib.Data.List.Nodup
import NativeProxies.Proofs.Memory

/-!
# Every entry leaves the cache once

The operations of the cache in any order, among collections and whatever scripts do to the heap and
its roots.  Nothing is assumed about the entries: their proxies may stand for other objects, and may
die and stay in the cache.  The strong map lies over the weak one all the same (`Memory.Overlaid`),
as a collection starts from it, so an eviction never answers an entry that is strong.  An entry that
was stored is in the cache until one operation takes it out, which answers its registration unless the
cache is drained when the proxy is dead already (`Memory.linear_run`).
-/

namespace NativeProxies

/-- What can happen to a cache and to the memory around it. -/
inductive CacheStep
  | add (a : Address) (e : CachedProxy)
  | replace (a : Address) (e : CachedProxy)
  | strengthen (a : Address) (g : Generation)
  | weaken (a : Address) (g : Generation)
  | remove (a : Address)
  | find (a : Address)
  | drain
  /-- A collection, with an eviction of the dead entries or without one. -/
  | collect (evicting : Bool)
  | newProxy (object : Address)
  | newTable
  | set (t : TableId) (key : String) (v : Value)
  | release (p : ProxyId)
  | root (name : String) (p : ProxyId)
  | unroot (name : String)
deriving DecidableEq, Repr

/-- What an operation of the cache answers. -/
inductive CacheReply
  | added (failure : Option Failure)
  | replaced (g : Option Generation)
  | switched (changed : Bool)
  | removed (g : Option Generation)
  | found (p : Option ProxyId)
  | drained (es : List CachedProxy)
  | evicted (es : List (Address × CachedProxy))
  | done

namespace CacheReply

/-- The registrations in an answer. -/
def registrations : CacheReply → List Generation
  | replaced g | removed g => g.toList
  | drained es => es.filterMap CachedProxy.toggle
  | evicted es => es.filterMap fun item => item.2.toggle
  | added _ | switched _ | found _ | done => []

/-- Whether an operation answers that it did nothing. -/
def failed : CacheReply → Bool
  | added failure => failure.isSome
  | switched changed => !changed
  | _ => false

end CacheReply

namespace Memory

/-- Does one thing. -/
def perform (m : Memory) : CacheStep → Memory × CacheReply
  | .add a e =>
    match m.cache.add a e with
    | .ok c => ({ m with cache := c }, .added none)
    | .error f => (m, .added (some f))
  | .replace a e =>
    let r := m.cache.replace a e
    ({ m with cache := r.1 }, .replaced r.2)
  | .strengthen a g =>
    let r := m.cache.strengthen m.heap a g
    ({ m with cache := r.1 }, .switched r.2)
  | .weaken a g =>
    let r := m.cache.weaken a g
    ({ m with cache := r.1 }, .switched r.2)
  | .remove a =>
    let r := m.cache.remove a
    ({ m with cache := r.1 }, .removed r.2)
  | .find a => (m, .found (m.proxyOf? a))
  | .drain =>
    let r := m.cache.drain m.heap
    ({ m with cache := r.1 }, .drained r.2)
  | .collect evicting =>
    if evicting then (m.evict.1.reclaim, .evicted m.evict.2) else (m.reclaim, .done)
  | .newProxy object => ({ m with heap := (m.heap.newProxy object).1 }, .done)
  | .newTable => ({ m with heap := m.heap.newTable.1 }, .done)
  | .set t key v => ({ m with heap := m.heap.set t key v }, .done)
  | .release p => ({ m with heap := m.heap.release p }, .done)
  | .root name p => (m.root name p, .done)
  | .unroot name => ((m.unroot name).1, .done)

/-- The memory after one thing was done. -/
def next (m : Memory) (s : CacheStep) : Memory := (m.perform s).1

/-- The memory after several things were done. -/
def after (m : Memory) (ss : List CacheStep) : Memory := ss.foldl next m

/-- What is noted down of each thing, as they are done one after the other. -/
def gather {α : Type} (f : Memory → CacheStep → List α) : Memory → List CacheStep → List α
  | _, [] => []
  | m, s :: ss => f m s ++ gather f (m.next s) ss

/-- The entry that an operation stores. -/
def stored (m : Memory) : CacheStep → List (Address × CachedProxy)
  | .add a e => if (m.perform (.add a e)).2.failed then [] else [(a, e)]
  | .replace a e => [(a, e)]
  | _ => []

/-- The entry of an object. -/
def entryOf (m : Memory) (a : Address) : List (Address × CachedProxy) :=
  (m.cache.weak[a]?.map fun e => (a, e)).toList

/-- The entries that an operation takes out and answers. -/
def answered (m : Memory) : CacheStep → List (Address × CachedProxy)
  | .replace a _ | .remove a => m.entryOf a
  | .collect true => m.evict.2
  | .drain => m.cache.weak.toList.filter fun item => m.heap.hasProxy item.2.proxy
  | _ => []

/-- The entries that an operation takes out without an answer: those of proxies that were reclaimed
before the cache is drained. -/
def dropped (m : Memory) : CacheStep → List (Address × CachedProxy)
  | .drain => m.cache.weak.toList.filter fun item => !m.heap.hasProxy item.2.proxy
  | _ => []

variable {m : Memory} {a b : Address} {e : CachedProxy} {p : ProxyId}

/-! ## The strong map lies over the weak one -/

/-- What the cache keeps alive has an entry of the same proxy with a registration, and is alive. -/
def Overlaid (m : Memory) : Prop :=
  ∀ (a : Address) (p : ProxyId), m.cache.strong[a]? = some p →
    ∃ e, m.cache.weak[a]? = some e ∧ e.proxy = p ∧ e.toggle.isSome ∧ m.heap.hasProxy p

theorem overlaid_of_strong_empty (hs : m.cache.strong = ∅) : m.Overlaid := by
  intro a p hp
  simp [hs] at hp

/-- Scripts reclaim no proxy. -/
theorem Overlaid.setHeap (h : m.Overlaid) {heap : Heap}
    (hh : ∀ p, m.heap.hasProxy p → heap.hasProxy p) : ({ m with heap } : Memory).Overlaid := by
  intro a p hp
  obtain ⟨e, he, hep, ht, hl⟩ := h a p hp
  exact ⟨e, he, hep, ht, hh p hl⟩

theorem Overlaid.add (h : m.Overlaid) (ha : m.cache.weak.contains a = false) (e : CachedProxy) :
    ({ m with cache := { m.cache with weak := m.cache.weak.insert a e } } : Memory).Overlaid := by
  intro b p hp
  obtain ⟨e', he', hrest⟩ := h b p hp
  have hb : b ≠ a := by
    rintro rfl
    rw [Std.ExtTreeMap.contains_eq_isSome_getElem?, he'] at ha
    simp at ha
  exact ⟨e', by grind, hrest⟩

theorem Overlaid.replace (h : m.Overlaid) (a : Address) (e : CachedProxy) :
    ({ m with cache := (m.cache.replace a e).1 } : Memory).Overlaid := by
  intro b p hp
  have hb : b ≠ a ∧ m.cache.strong[b]? = some p := by
    simp only [ProxyCache.replace] at hp
    grind
  obtain ⟨e', he', hrest⟩ := h b p hb.2
  exact ⟨e', by simp only [ProxyCache.replace]; grind, hrest⟩

theorem Overlaid.strengthen (h : m.Overlaid) (a : Address) (g : Generation) :
    ({ m with cache := (m.cache.strengthen m.heap a g).1 } : Memory).Overlaid := by
  rw [ProxyCache.strengthen]
  split_ifs with hc
  · exact h
  cases hp : m.cache.proxyOf? m.heap a with
  | none => exact h
  | some q =>
    intro b p hb
    by_cases hba : b = a
    · subst hba
      obtain rfl : q = p := by simpa using hb
      obtain ⟨hw, hl⟩ := Option.filter_eq_some_iff.1 hp
      obtain ⟨e, he, rfl⟩ := Option.map_eq_some_iff.1 hw
      have hg : m.cache.generation b = some g := by simp_all
      exact ⟨e, he, rfl, by simp_all [ProxyCache.generation], hl⟩
    · exact h b p (by grind)

theorem Overlaid.weaken (h : m.Overlaid) (a : Address) (g : Generation) :
    ({ m with cache := (m.cache.weaken a g).1 } : Memory).Overlaid := by
  rw [ProxyCache.weaken]
  split_ifs with hg
  · exact fun b p hb => h b p (by grind)
  · exact h

theorem Overlaid.remove (h : m.Overlaid) (a : Address) :
    ({ m with cache := (m.cache.remove a).1 } : Memory).Overlaid := by
  intro b p hp
  have hb : b ≠ a ∧ m.cache.strong[b]? = some p := by
    simp only [ProxyCache.remove] at hp
    grind
  obtain ⟨e', he', hrest⟩ := h b p hb.2
  exact ⟨e', by simp only [ProxyCache.remove]; grind, hrest⟩

/-- A collection starts from what the cache keeps alive. -/
theorem Overlaid.contains_marks (h : m.Overlaid) (hp : m.cache.strong[a]? = some p) :
    m.marks.contains (.proxy p) := by
  obtain ⟨-, -, -, -, hl⟩ := h a p hp
  exact Sound.contains_marks_iff.2 (.root (mem_rootProxies.2 (.inr ⟨a, hp⟩)) hl)

theorem Overlaid.evict (h : m.Overlaid) : m.evict.1.Overlaid := by
  intro a p hp
  have hm := h.contains_marks hp
  obtain ⟨e, he, rfl, hrest⟩ := h a p hp
  exact ⟨e, weak_evict.2 ⟨he, hm⟩, rfl, hrest⟩

theorem Overlaid.reclaim (h : m.Overlaid) : m.reclaim.Overlaid := by
  intro a p hp
  have hm := h.contains_marks hp
  obtain ⟨e, he, hep, ht, hl⟩ := h a p hp
  refine ⟨e, he, hep, ht, ?_⟩
  rw [Heap.hasProxy_eq_holds]
  exact (Heap.holds_sweep _).2 ⟨hl, hm⟩

theorem Overlaid.next (h : m.Overlaid) (s : CacheStep) : (m.next s).Overlaid := by
  cases s with
  | add a e =>
    simp only [Memory.next, perform, ProxyCache.add]
    split_ifs with ha
    · exact h
    · exact h.add (Bool.eq_false_iff.2 ha) e
  | replace a e => exact h.replace a e
  | strengthen a g => exact h.strengthen a g
  | weaken a g => exact h.weaken a g
  | remove a => exact h.remove a
  | drain => exact overlaid_of_strong_empty rfl
  | collect evicting =>
    cases evicting with
    | true => exact h.evict.reclaim
    | false => exact h.reclaim
  | newProxy object => exact h.setHeap fun p hp => by simp_all [Heap.newProxy, Heap.hasProxy]
  | release p => exact h.setHeap fun q hq => by simpa [Heap.hasProxy_eq_holds] using hq
  | newTable | set | root | unroot => exact h
  | find => exact h

theorem Overlaid.after (h : m.Overlaid) (ss : List CacheStep) : (m.after ss).Overlaid := by
  induction ss generalizing m with
  | nil => exact h
  | cons s ss ih => exact ih (h.next s)

/-! ## A failure changes nothing -/

theorem next_of_failed {s : CacheStep} (hs : (m.perform s).2.failed) : m.next s = m := by
  cases s with
  | add a e =>
    simp only [next, perform, ProxyCache.add] at hs ⊢
    split_ifs at hs ⊢
    · rfl
    · simp [CacheReply.failed] at hs
  | strengthen a g =>
    simp only [next, perform, ProxyCache.strengthen, CacheReply.failed] at hs ⊢
    split_ifs at hs ⊢
    · rfl
    · cases hp : m.cache.proxyOf? m.heap a with
      | none => rfl
      | some p => simp [hp] at hs
  | weaken a g =>
    simp only [next, perform, ProxyCache.weaken, CacheReply.failed] at hs ⊢
    split_ifs at hs ⊢
    · have he : m.cache.strong.erase a = m.cache.strong := by
        ext1 b
        grind
      rw [he]
    · rfl
  | collect evicting =>
    cases evicting <;> simp [perform, CacheReply.failed] at hs
  | replace | remove | find | drain | newProxy | newTable | set | release | root | unroot =>
    simp [perform, CacheReply.failed] at hs

/-! ## The entries that an eviction answers -/

theorem mem_evict : (a, e) ∈ m.evict.2 ↔
    m.cache.weak[a]? = some e ∧ ¬m.heap.Reaches m.rootProxies (.proxy e.proxy) := by
  rw [mem_evict_iff, ← Sound.contains_marks_iff, Bool.not_eq_true]

theorem Overlaid.isStrong_of_mem_evict (h : m.Overlaid) (hx : (a, e) ∈ m.evict.2) :
    m.cache.isStrong a = false := by
  obtain ⟨he, hm⟩ := mem_evict.1 hx
  refine Bool.eq_false_iff.2 fun hs => hm ?_
  obtain ⟨p, hp⟩ := ProxyCache.isStrong_iff_exists.1 hs
  obtain ⟨e', he', rfl, -⟩ := h a p hp
  cases he.symm.trans he'
  exact Heap.contains_mark_iff.1 (h.contains_marks hp)

/-! ## What is stored is taken out once -/

/-- An entry is in the cache once or not at all. -/
def present (m : Memory) (a : Address) (e : CachedProxy) : Nat :=
  if m.cache.weak[a]? = some e then 1 else 0

theorem count_toList (m : Memory) (a : Address) (e : CachedProxy) :
    m.cache.weak.toList.count (a, e) = m.present a e := by
  have hn : m.cache.weak.toList.Nodup := .of_map Prod.fst (nodup_keys_toList _)
  rw [hn.count]
  simp only [Std.ExtTreeMap.mem_toList_iff_getElem?_eq_some, present]

theorem present_congr {m m' : Memory} (hw : m'.cache.weak = m.cache.weak) (a : Address)
    (e : CachedProxy) : m'.present a e = m.present a e := by
  rw [present, hw, present]

theorem count_filter_toList (m : Memory) (p : Address × CachedProxy → Bool) (a : Address)
    (e : CachedProxy) :
    (m.cache.weak.toList.filter p).count (a, e) = if p (a, e) then m.present a e else 0 := by
  split_ifs with hp
  · rw [List.count_filter hp, count_toList]
  · exact List.count_eq_zero.2 fun hm => hp (List.mem_filter.1 hm).2

theorem present_evict (m : Memory) (a : Address) (e : CachedProxy) :
    m.evict.2.count (a, e) + m.evict.1.present a e = m.present a e := by
  have hc : m.evict.2.count (a, e) =
      if !m.marks.contains (.proxy e.proxy) then m.present a e else 0 :=
    count_filter_toList m (fun item => !m.marks.contains (.proxy item.2.proxy)) a e
  rw [hc, present, present]
  simp only [weak_evict]
  cases m.marks.contains (.proxy e.proxy) <;> simp

theorem count_entryOf (m : Memory) (a b : Address) (e : CachedProxy) :
    (m.entryOf a).count (b, e) = if b = a then m.present b e else 0 := by
  simp only [entryOf, present]
  cases hw : m.cache.weak[a]? <;> grind

theorem registrations_entryOf (m : Memory) (a : Address) :
    (m.entryOf a).filterMap (fun item => item.2.toggle) = (m.cache.generation a).toList := by
  simp only [entryOf, ProxyCache.generation]
  cases hw : m.cache.weak[a]? with
  | none => rfl
  | some e => cases ht : e.toggle <;> simp [ht]

/-- The registrations that an operation answers are those of the entries that it answers. -/
theorem registrations_perform (m : Memory) (s : CacheStep) :
    (m.perform s).2.registrations = (m.answered s).filterMap fun item => item.2.toggle := by
  cases s with
  | replace a e => exact (m.registrations_entryOf a).symm
  | remove a => exact (m.registrations_entryOf a).symm
  | drain =>
    simp only [perform, answered, CacheReply.registrations, ProxyCache.drain]
    rw [List.filter_map, List.filterMap_map]
    rfl
  | collect evicting => cases evicting <;> rfl
  | add a e =>
    simp only [perform]
    split <;> rfl
  | strengthen | weaken | find | newProxy | newTable | set | release | root | unroot => rfl

/-- An operation stores an entry as often as it takes it out, and once more or less as it is then in
the cache or was there before. -/
theorem count_stored (m : Memory) (s : CacheStep) (a : Address) (e : CachedProxy) :
    m.present a e + (m.stored s).count (a, e) =
      (m.answered s).count (a, e) + (m.dropped s).count (a, e) + (m.next s).present a e := by
  cases s with
  | add b e' =>
    simp only [stored, answered, dropped, present, next, perform, ProxyCache.add]
    by_cases hb : m.cache.weak.contains b
    · simp [hb, CacheReply.failed]
    · simp only [hb, CacheReply.failed]
      grind
  | replace b e' =>
    simp only [stored, answered, dropped, count_entryOf, List.count_singleton, List.count_nil]
    simp only [present, next, perform, ProxyCache.replace]
    grind
  | remove b =>
    simp only [stored, answered, dropped, count_entryOf, List.count_nil]
    simp only [present, next, perform, ProxyCache.remove]
    grind
  | strengthen b g =>
    have hw : (m.next (.strengthen b g)).cache.weak = m.cache.weak := by
      simp only [next, perform, ProxyCache.strengthen]
      grind
    rw [present_congr hw]
    exact Nat.add_comm _ _
  | weaken b g =>
    have hw : (m.next (.weaken b g)).cache.weak = m.cache.weak := by
      simp only [next, perform, ProxyCache.weaken]
      grind
    rw [present_congr hw]
    exact Nat.add_comm _ _
  | drain =>
    have hn : (m.next .drain).present a e = 0 := by
      simp [present, next, perform, ProxyCache.drain]
    simp only [stored, answered, dropped, count_filter_toList, hn, List.count_nil]
    cases m.heap.hasProxy e.proxy <;> simp
  | collect evicting =>
    cases evicting with
    | true =>
      have hp : (m.next (.collect true)).present a e = m.evict.1.present a e := rfl
      rw [hp, ← present_evict m a e]
      simp only [stored, answered, dropped, List.count_nil, Nat.add_zero]
    | false => exact Nat.add_comm _ _
  | find | newProxy | newTable | set | release | root | unroot => exact Nat.add_comm _ _

theorem after_cons (m : Memory) (s : CacheStep) (ss : List CacheStep) :
    m.after (s :: ss) = (m.next s).after ss := rfl

theorem count_gather_stored (m : Memory) (ss : List CacheStep) (a : Address) (e : CachedProxy) :
    m.present a e + (m.gather stored ss).count (a, e) =
      (m.gather answered ss).count (a, e) + (m.gather dropped ss).count (a, e) +
        (m.after ss).present a e := by
  induction ss generalizing m with
  | nil => exact Nat.add_comm _ _
  | cons s ss ih =>
    have hs := count_stored m s a e
    have hss := ih (m.next s)
    simp only [gather, List.count_append, after_cons]
    omega

theorem registrations_gather (m : Memory) (ss : List CacheStep) :
    m.gather (fun m s => (m.perform s).2.registrations) ss =
      (m.gather answered ss).filterMap fun item => item.2.toggle := by
  induction ss generalizing m with
  | nil => rfl
  | cons s ss ih => rw [gather, gather, List.filterMap_append, registrations_perform, ih]

/-- Whatever is done to a memory whose cache was empty.  What the cache keeps alive has an entry of
the same proxy with a registration, and is alive.  An eviction answers each entry whose proxy cannot
be reached once, and none that is strong.  An entry was stored as often as it was taken out, and once
more if it is there, and the registrations that were answered are those of the entries that were
taken out, but for the ones dropped as dead when the cache was drained.  An operation that fails
changes nothing. -/
theorem linear_run (heap : Heap) (roots : Map String ProxyId) (ss : List CacheStep) :
    let m₀ : Memory := { heap, roots }
    let m := m₀.after ss
    (∀ (a : Address) (p : ProxyId), m.cache.strong[a]? = some p →
      ∃ e, m.cache.weak[a]? = some e ∧ e.proxy = p ∧ e.toggle.isSome ∧ m.heap.hasProxy p) ∧
    ((m.evict.2.map Prod.fst).Nodup ∧ ∀ (a : Address) (e : CachedProxy),
      ((a, e) ∈ m.evict.2 ↔
        m.cache.weak[a]? = some e ∧ ¬m.heap.Reaches m.rootProxies (.proxy e.proxy)) ∧
      ((a, e) ∈ m.evict.2 → m.cache.isStrong a = false)) ∧
    (∀ (a : Address) (e : CachedProxy), (m₀.gather stored ss).count (a, e) =
      (m₀.gather answered ss).count (a, e) + (m₀.gather dropped ss).count (a, e) +
        if m.cache.weak[a]? = some e then 1 else 0) ∧
    m₀.gather (fun m s => (m.perform s).2.registrations) ss =
      (m₀.gather answered ss).filterMap (fun item => item.2.toggle) ∧
    ∀ s : CacheStep, (m.perform s).2.failed → (m.perform s).1 = m := by
  intro m₀ m
  have hover : m.Overlaid := (overlaid_of_strong_empty rfl : m₀.Overlaid).after ss
  refine ⟨hover, ⟨m.nodup_evict, fun a e => ⟨mem_evict, hover.isStrong_of_mem_evict⟩⟩,
    fun a e => ?_, m₀.registrations_gather ss, fun s => next_of_failed⟩
  have hempty : m₀.present a e = 0 := by simp [present, m₀]
  have hcount := m₀.count_gather_stored ss a e
  rw [hempty, Nat.zero_add] at hcount
  exact hcount

/-- A proxy is kept alive and let go again.  The entry of another object, for the same proxy, is made only when
that is dead. -/
def evicted : List CacheStep :=
  [.newProxy { value := 1 }, .add { value := 1 } ⟨1, some 7⟩, .strengthen { value := 1 } 7, .collect true,
    .weaken { value := 1 } 7, .collect true, .add { value := 2 } ⟨1, some 8⟩, .drain]

theorem linear_run_evicted :
    let m₀ : Memory := {}
    let m := m₀.after (evicted.take 4)
    (m.cache.strong[({ value := 1 } : Address)]? = some 1 ∧
      ∃ e, m.cache.weak[({ value := 1 } : Address)]? = some e ∧ e.proxy = 1 ∧ e.toggle.isSome ∧
        m.heap.hasProxy 1) ∧
    ((m.perform (.add { value := 1 } ⟨1, some 9⟩)).2.failed ∧
      (m.perform (.add { value := 1 } ⟨1, some 9⟩)).1 = m) ∧
    m₀.gather stored evicted = [({ value := 1 }, ⟨1, some 7⟩), ({ value := 2 }, ⟨1, some 8⟩)] ∧
    m₀.gather dropped evicted = [({ value := 2 }, ⟨1, some 8⟩)] ∧
    (m₀.gather answered evicted).count ({ value := 1 }, ⟨1, some 7⟩) = 1 ∧
    m₀.gather (fun m s => (m.perform s).2.registrations) evicted =
      (m₀.gather answered evicted).filterMap (fun item => item.2.toggle) := by
  intro m₀ m
  obtain ⟨hover, -, -, -, hfailed⟩ := linear_run {} ∅ (evicted.take 4)
  obtain ⟨-, -, hcount, hregistrations, -⟩ := linear_run {} ∅ evicted
  have hstrong : m.cache.strong[({ value := 1 } : Address)]? = some 1 := by decide +kernel
  have hadd : (m.perform (.add { value := 1 } ⟨1, some 9⟩)).2.failed := by decide +kernel
  have hstored : m₀.gather stored evicted =
      [({ value := 1 }, ⟨1, some 7⟩), ({ value := 2 }, ⟨1, some 8⟩)] := by decide +kernel
  have hdropped : m₀.gather dropped evicted = [({ value := 2 }, ⟨1, some 8⟩)] := by decide +kernel
  have hgone : (m₀.after evicted).cache.weak[({ value := 1 } : Address)]? = none := by decide +kernel
  refine ⟨⟨hstrong, hover _ _ hstrong⟩, ⟨hadd, hfailed _ hadd⟩, hstored, hdropped, ?_, hregistrations⟩
  have hanswered : (m₀.gather stored evicted).count ({ value := 1 }, ⟨1, some 7⟩) =
      (m₀.gather answered evicted).count ({ value := 1 }, ⟨1, some 7⟩) +
        (m₀.gather dropped evicted).count ({ value := 1 }, ⟨1, some 7⟩) +
          if (m₀.after evicted).cache.weak[({ value := 1 } : Address)]? = some ⟨1, some 7⟩ then 1 else 0 :=
    hcount _ _
  rw [hstored, hdropped, hgone] at hanswered
  simpa [List.count_cons] using hanswered.symm

end Memory

end NativeProxies
