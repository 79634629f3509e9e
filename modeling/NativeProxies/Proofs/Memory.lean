import Mathlib.Data.List.Basic
import NativeProxies.Memory
import NativeProxies.Proofs.Heap.Closed
import NativeProxies.Proofs.Heap.Marking

/-!
# Sound memories

In a sound memory the cache and the heap agree: an entry of the cache stands for a proxy of its
object whose reference was not given back, every such proxy has its entry, and the strong map lies
over the weak one.  What a bridge does with its memory keeps it sound.  A collection drops an entry
and the proxy behind it together (`Memory.Sound.collect`), and dismissing a proxy drops the entry
and marks the proxy as given back (`Memory.Sound.dismiss`).
-/

namespace NativeProxies

/-- No key is listed twice. -/
theorem nodup_keys_toList {α β : Type} [Ord α] [Std.TransOrd α] [Std.LawfulEqOrd α] (m : Map α β) :
    (m.toList.map Prod.fst).Nodup := by
  rw [Std.ExtTreeMap.map_fst_toList_eq_keys]
  exact Std.ExtTreeMap.nodup_keys

namespace Heap

/-- A proxy of an object whose reference was not given back. -/
def IsLive (h : Heap) (p : ProxyId) (a : Address) : Prop :=
  ∃ r, h.proxy? p = some r ∧ r.object = a ∧ r.released = false

theorem IsLive.holds {h : Heap} {p : ProxyId} {a : Address} (hp : h.IsLive p a) :
    h.holds (.proxy p) := by
  obtain ⟨r, hr, -⟩ := hp
  exact holds_proxy_iff.2 ⟨r, hr⟩

theorem IsLive.unique {h : Heap} {p : ProxyId} {a b : Address} (ha : h.IsLive p a)
    (hb : h.IsLive p b) : a = b := by
  obtain ⟨r, hr, rfl, -⟩ := ha
  obtain ⟨r', hr', rfl, -⟩ := hb
  grind

theorem isLive_congr {h h' : Heap} {p : ProxyId} (hp : h'.proxy? p = h.proxy? p) (a : Address) :
    h'.IsLive p a ↔ h.IsLive p a := by
  simp only [IsLive, hp]

theorem isLive_release {h : Heap} {p q : ProxyId} {a : Address} :
    (h.release p).IsLive q a ↔ q ≠ p ∧ h.IsLive q a := by
  simp only [IsLive, proxy?_release]
  by_cases hq : q = p
  · cases hp : h.proxy? p <;> simp [hq, hp]
  · simp [hq]

theorem isLive_newProxy {h : Heap} {a b : Address} {p : ProxyId} :
    (h.newProxy a).1.IsLive p b ↔ (p = h.next + 1 ∧ b = a) ∨ (p ≠ h.next + 1 ∧ h.IsLive p b) := by
  simp only [IsLive, proxy?_newProxy]
  by_cases hp : p = h.next + 1
  · simp [hp, eq_comm (a := a)]
  · simp [hp]

theorem isLive_sweep {h : Heap} {m : Marks} {p : ProxyId} {a : Address} :
    (h.sweep m).IsLive p a ↔ m.contains (.proxy p) ∧ h.IsLive p a := by
  simp only [IsLive, proxy?_sweep]
  grind

end Heap

namespace ProxyCache

theorem isStrong_iff_exists {c : ProxyCache} {a : Address} :
    c.isStrong a ↔ ∃ p, c.strong[a]? = some p := by
  rw [isStrong, Std.ExtTreeMap.contains_eq_isSome_getElem?, Option.isSome_iff_exists]

theorem weak_applyNotification (c : ProxyCache) (h : Heap) (n : Notification) :
    (c.applyNotification h n).1.weak = c.weak := by
  simp only [applyNotification, weaken, strengthen]
  grind

theorem strong_applyNotification {c : ProxyCache} {h : Heap} {n : Notification} {a : Address}
    {p : ProxyId} (hp : (c.applyNotification h n).1.strong[a]? = some p) :
    c.strong[a]? = some p ∨ (c.proxyOf? h a = some p ∧ c.generation a = some n.generation) := by
  simp only [applyNotification, weaken, strengthen] at hp
  grind

end ProxyCache

namespace Memory

/-- The heap is closed, and the cache tells the truth about it. -/
structure Sound (m : Memory) : Prop where
  closed : m.heap.Closed
  rooted : ∀ (name : String) (p : ProxyId), m.roots[name]? = some p → m.heap.holds (.proxy p)
  live : ∀ (a : Address) (e : CachedProxy), m.cache.weak[a]? = some e → m.heap.IsLive e.proxy a
  cached : ∀ (a : Address) (p : ProxyId), m.heap.IsLive p a →
    ∃ e, m.cache.weak[a]? = some e ∧ e.proxy = p
  strong : ∀ (a : Address) (p : ProxyId), m.cache.strong[a]? = some p →
    ∃ e, m.cache.weak[a]? = some e ∧ e.proxy = p ∧ e.toggle.isSome

theorem sound_empty : Sound { } := by
  refine ⟨Heap.closed_empty, ?_, ?_, ?_, ?_⟩ <;> simp [Heap.IsLive, Heap.proxy?]

theorem mem_rootProxies {m : Memory} {p : ProxyId} : p ∈ m.rootProxies ↔
    (∃ name : String, m.roots[name]? = some p) ∨ ∃ a : Address, m.cache.strong[a]? = some p := by
  simp only [rootProxies, List.mem_append, List.mem_map, Prod.exists, exists_eq_right,
    Std.ExtTreeMap.mem_toList_iff_getElem?_eq_some]

/-! ## Eviction -/

section Evict

variable {m : Memory} {a : Address} {e : CachedProxy}

/-- An eviction leaves the entries of marked proxies. -/
theorem weak_evict : m.evict.1.cache.weak[a]? = some e ↔
    m.cache.weak[a]? = some e ∧ m.marks.contains (.proxy e.proxy) := by
  simp only [evict, ProxyCache.evict, Heap.Marks.contains]
  grind

/-- An eviction answers the other entries. -/
theorem mem_evict_iff : (a, e) ∈ m.evict.2 ↔
    m.cache.weak[a]? = some e ∧ m.marks.contains (.proxy e.proxy) = false := by
  simp only [evict, ProxyCache.evict, List.mem_filter, Heap.Marks.contains,
    Std.ExtTreeMap.mem_toList_iff_getElem?_eq_some, Bool.not_eq_true']

theorem nodup_evict (m : Memory) : (m.evict.2.map Prod.fst).Nodup :=
  (List.filter_sublist.map Prod.fst).nodup (nodup_keys_toList m.cache.weak)

end Evict

namespace Sound

variable {m : Memory} {a : Address} {p : ProxyId} (h : m.Sound)
include h

/-- In a sound memory no entry of the cache is dead. -/
theorem proxyOf?_eq : m.proxyOf? a = m.cache.weak[a]?.map CachedProxy.proxy := by
  rw [proxyOf?, ProxyCache.proxyOf?]
  cases he : m.cache.weak[a]? with
  | none => rfl
  | some e => simp [Option.filter, Heap.hasProxy_eq_holds, (h.live a e he).holds]

theorem proxyOf?_eq_some_iff : m.proxyOf? a = some p ↔ m.heap.IsLive p a := by
  rw [h.proxyOf?_eq, Option.map_eq_some_iff]
  refine ⟨fun ⟨e, he, hp⟩ => hp ▸ h.live a e he, h.cached a p⟩

theorem proxyOf?_eq_none_iff : m.proxyOf? a = none ↔ m.cache.weak[a]? = none := by
  rw [h.proxyOf?_eq, Option.map_eq_none_iff]

/-- What the cache keeps alive has an entry. -/
theorem exists_of_isStrong (ha : m.cache.isStrong a) :
    ∃ e, m.cache.weak[a]? = some e ∧ m.cache.strong[a]? = some e.proxy := by
  obtain ⟨p, hp⟩ := ProxyCache.isStrong_iff_exists.1 ha
  obtain ⟨e, he, rfl, -⟩ := h.strong a p hp
  exact ⟨e, he, hp⟩

theorem isStrong_of_weak_eq_none (ha : m.cache.weak[a]? = none) : m.cache.isStrong a = false := by
  refine Bool.eq_false_iff.2 fun hs => ?_
  obtain ⟨e, he, -⟩ := h.exists_of_isStrong hs
  exact absurd (ha.symm.trans he) (by simp)

theorem holds_rootProxies (hp : p ∈ m.rootProxies) : m.heap.holds (.proxy p) := by
  rcases mem_rootProxies.1 hp with ⟨name, hp⟩ | ⟨a, hp⟩
  · exact h.rooted name p hp
  · obtain ⟨e, he, rfl, -⟩ := h.strong a p hp
    exact (h.live a e he).holds

/-! ## Updates -/

/-- Tables may change as long as the heap stays closed. -/
theorem setHeap {heap : Heap} (hp : heap.proxies = m.heap.proxies) (hc : heap.Closed) :
    ({ m with heap } : Memory).Sound := by
  have hq (q : ProxyId) : heap.proxy? q = m.heap.proxy? q := by simp only [Heap.proxy?, hp]
  have hl (q : ProxyId) (b : Address) := Heap.isLive_congr (hq q) b
  refine ⟨hc, fun name q hr => ?_, fun b e he => ?_, fun b q hb => ?_, h.strong⟩
  · rw [Heap.holds_proxy, hp, ← Heap.holds_proxy]
    exact h.rooted name q hr
  · exact (hl e.proxy b).2 (h.live b e he)
  · exact h.cached b q ((hl q b).1 hb)

theorem root (name : String) (hp : m.heap.holds (.proxy p)) : (m.root name p).Sound := by
  refine ⟨h.closed, fun n q hq => ?_, h.live, h.cached, h.strong⟩
  simp only [Memory.root] at hq
  by_cases hn : n = name
  · subst hn
    rw [Std.ExtTreeMap.getElem?_insert_self] at hq
    exact Option.some.inj hq ▸ hp
  · exact h.rooted n q (by grind)

theorem unroot (name : String) : (m.unroot name).1.Sound := by
  refine ⟨h.closed, fun n q hq => ?_, h.live, h.cached, h.strong⟩
  simp only [Memory.unroot] at hq
  exact h.rooted n q (by grind)

/-- A proxy is made together with its entry. -/
theorem enroll (ha : m.cache.weak[a]? = none) (g : Option Generation) :
    Sound
      { m with
        heap := (m.heap.newProxy a).1
        cache := { m.cache with weak := m.cache.weak.insert a ⟨(m.heap.newProxy a).2, g⟩ } } := by
  have hn : m.heap.holds (.proxy (m.heap.next + 1)) = false := by
    have := h.closed.lt_next (.proxy (m.heap.next + 1))
    grind [Node.number]
  have hne {q : ProxyId} (hq : m.heap.holds (.proxy q)) : q ≠ m.heap.next + 1 := by
    rintro rfl
    simp [hn] at hq
  refine ⟨h.closed.newProxy a, fun name q hq => ?_, fun b e he => ?_, fun b q hb => ?_,
    fun b q hb => ?_⟩
  · exact (Heap.holds_newProxy a).2 (.inl (h.rooted name q hq))
  · rw [Heap.isLive_newProxy]
    by_cases hb : b = a
    · subst hb
      rw [Std.ExtTreeMap.getElem?_insert_self] at he
      exact .inl ⟨Option.some.inj he ▸ rfl, rfl⟩
    · have hl := h.live b e (by grind)
      exact .inr ⟨hne hl.holds, hl⟩
  · rcases Heap.isLive_newProxy.1 hb with ⟨rfl, rfl⟩ | ⟨hq, hb⟩
    · exact ⟨_, Std.ExtTreeMap.getElem?_insert_self, rfl⟩
    · obtain ⟨e, he, hq⟩ := h.cached b q hb
      exact ⟨e, by grind, hq⟩
  · obtain ⟨e, he, hq⟩ := h.strong b q hb
    exact ⟨e, by grind, hq⟩

theorem applyNotification (n : Notification) :
    ({ m with cache := (m.cache.applyNotification m.heap n).1 } : Memory).Sound := by
  have hw := m.cache.weak_applyNotification m.heap n
  refine ⟨h.closed, h.rooted, fun b e he => h.live b e (hw ▸ he), fun b q hb => ?_,
    fun b q hb => ?_⟩
  · rw [hw]
    exact h.cached b q hb
  · rw [hw]
    rcases ProxyCache.strong_applyNotification hb with hb | ⟨hq, hg⟩
    · exact h.strong b q hb
    · obtain ⟨e, he, rfl⟩ := h.cached b q (h.proxyOf?_eq_some_iff.1 hq)
      exact ⟨e, he, rfl, by simp_all [ProxyCache.generation]⟩

/-- A notification of the registration of an entry takes effect, whichever it is. -/
theorem isStrong_applyNotification (n : Notification) (a : Address) :
    (m.cache.applyNotification m.heap n).1.isStrong a =
      if n.object = a ∧ m.cache.generation a = some n.generation then !n.isLast
      else m.cache.isStrong a := by
  by_cases hg : m.cache.generation n.object = some n.generation
  · obtain ⟨e, he, -⟩ := Option.bind_eq_some_iff.1 hg
    have hp : m.cache.proxyOf? m.heap n.object = some e.proxy := by
      have := h.proxyOf?_eq (a := n.object)
      rwa [he] at this
    simp only [ProxyCache.applyNotification, ProxyCache.weaken, ProxyCache.strengthen,
      ProxyCache.isStrong, hg, hp]
    grind
  · have hn : ¬(n.object = a ∧ m.cache.generation a = some n.generation) := by
      rintro ⟨rfl, h⟩
      exact hg h
    rw [ProxyCache.applyNotification, if_neg hg, if_neg hn]

/-- A proxy is marked as given back together with the removal of its entry. -/
theorem dismiss (hp : m.heap.IsLive p a) :
    ({ m with heap := m.heap.release p, cache := (m.cache.remove a).1 } : Memory).Sound := by
  obtain ⟨e₀, he₀, hep⟩ := h.cached a p hp
  have hw (b : Address) : (m.cache.remove a).1.weak[b]? = if b = a then none else m.cache.weak[b]? := by
    simp only [ProxyCache.remove]
    grind
  refine ⟨h.closed.release p, fun name q hq => ?_, fun b e he => ?_, fun b q hb => ?_,
    fun b q hb => ?_⟩
  · simpa using h.rooted name q hq
  · rw [hw] at he
    split_ifs at he with hba
    have hl := h.live b e he
    exact Heap.isLive_release.2 ⟨fun hq => hba (hl.unique (hq ▸ hp)), hl⟩
  · obtain ⟨hq, hb⟩ := Heap.isLive_release.1 hb
    obtain ⟨e, he, rfl⟩ := h.cached b q hb
    have hba : b ≠ a := by
      rintro rfl
      exact hq (by grind)
    exact ⟨e, by rw [hw, if_neg hba, he], rfl⟩
  · have hs : m.cache.strong[b]? = some q ∧ b ≠ a := by
      simp only [ProxyCache.remove] at hb
      grind
    obtain ⟨e, he, hq⟩ := h.strong b q hs.1
    exact ⟨e, by rw [hw, if_neg hs.2, he], hq⟩

/-! ## Collection -/

omit h in
/-- What can be reached from the proxies that are alive for their own sake. -/
theorem contains_marks_iff {c : Node} :
    m.marks.contains c ↔ m.heap.Reaches m.rootProxies c :=
  Heap.contains_mark_iff

theorem contains_marks_of_mem (hp : p ∈ m.rootProxies) : m.marks.contains (.proxy p) :=
  contains_marks_iff.2 (.root hp (h.holds_rootProxies hp))

/-- Entries are dropped together with the proxies that cannot be reached. -/
theorem collect : m.evict.1.reclaim.Sound := by
  have hw (b : Address) (e : CachedProxy) : m.evict.1.reclaim.cache.weak[b]? = some e ↔
      m.cache.weak[b]? = some e ∧ m.marks.contains (.proxy e.proxy) := weak_evict
  have hr : m.evict.1.reclaim.heap = m.heap.sweep m.marks := rfl
  refine ⟨?_, fun name q hq => ?_, fun b e he => ?_, fun b q hb => ?_, fun b q hb => ?_⟩
  · refine h.closed.sweep fun c d hc hd hh => ?_
    exact contains_marks_iff.2 (.step (contains_marks_iff.1 hc) hd hh)
  · refine (Heap.holds_sweep _).2 ⟨h.rooted name q hq, h.contains_marks_of_mem ?_⟩
    rw [mem_rootProxies]
    exact .inl ⟨name, hq⟩
  · obtain ⟨he, hm⟩ := (hw b e).1 he
    rw [hr, Heap.isLive_sweep]
    exact ⟨hm, h.live b e he⟩
  · rw [hr, Heap.isLive_sweep] at hb
    obtain ⟨e, he, rfl⟩ := h.cached b q hb.2
    exact ⟨e, (hw b e).2 ⟨he, hb.1⟩, rfl⟩
  · obtain ⟨e, he, rfl, ht⟩ := h.strong b q hb
    refine ⟨e, (hw b e).2 ⟨he, h.contains_marks_of_mem ?_⟩, rfl, ht⟩
    rw [mem_rootProxies]
    exact .inr ⟨b, hb⟩

end Sound

end Memory

end NativeProxies
