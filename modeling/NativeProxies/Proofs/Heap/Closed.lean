import Mathlib.Tactic.Common
import NativeProxies.Heap.Reach

/-!
# Closed heaps

A heap is closed if no node refers to one that was reclaimed and no number to be given out is in
use.  Making nodes, binding keys to values that the heap knows, giving back references and sweeping
by marks all keep it closed.
-/

namespace NativeProxies

/-- The number of a node. -/
def Node.number : Node → Nat
  | .proxy p => p
  | .table t => t

namespace Heap

variable {h h' : Heap} {c d : Node} {t : TableId} {p : ProxyId} {v : Value}

/-- Whether a value refers to no node that was reclaimed. -/
def Knows (h : Heap) (v : Value) : Prop := ∀ c ∈ v.node?, h.holds c

/-- Every node that was not reclaimed so far is still there. -/
def Sub (h h' : Heap) : Prop := ∀ c, h.holds c → h'.holds c

theorem Sub.refl (h : Heap) : h.Sub h := fun _ hc => hc

theorem Sub.trans {h₁ h₂ h₃ : Heap} (h₁₂ : h₁.Sub h₂) (h₂₃ : h₂.Sub h₃) : h₁.Sub h₃ :=
  fun c hc => h₂₃ c (h₁₂ c hc)

theorem Knows.mono (hv : h.Knows v) (hs : h.Sub h') : h'.Knows v := fun c hc => hs c (hv c hc)

@[simp] theorem knows_table_iff : h.Knows (.table t) ↔ h.holds (.table t) := by
  simp [Knows, Value.node?]

@[simp] theorem knows_proxy_iff : h.Knows (.proxy p) ↔ h.holds (.proxy p) := by
  simp [Knows, Value.node?]

theorem knows_of_node?_eq_none (hv : v.node? = none) : h.Knows v := by
  simp [Knows, hv]

theorem holds_proxy (h : Heap) (p : ProxyId) : h.holds (.proxy p) = (h.proxies[p]?).isSome :=
  Std.ExtTreeMap.contains_eq_isSome_getElem?

theorem holds_table (h : Heap) (t : TableId) : h.holds (.table t) = (h.tables[t]?).isSome :=
  Std.ExtTreeMap.contains_eq_isSome_getElem?

theorem hasProxy_eq_holds (h : Heap) (p : ProxyId) : h.hasProxy p = h.holds (.proxy p) := rfl

theorem holds_proxy_iff : h.holds (.proxy p) ↔ ∃ r, h.proxy? p = some r := by
  rw [holds_proxy, Option.isSome_iff_exists]
  rfl

theorem mem_successors_proxy :
    d ∈ h.successors (.proxy p) ↔ ∃ r, h.proxy? p = some r ∧ d = .table r.env := by
  simp only [successors, List.mem_map, Option.mem_toList]
  grind

theorem mem_successors_table :
    d ∈ h.successors (.table t) ↔
      ∃ (key : String) (v : Value), (h.entries t)[key]? = some v ∧ v.node? = some d := by
  simp only [successors, List.mem_filterMap, Prod.exists,
    Std.ExtTreeMap.mem_toList_iff_getElem?_eq_some]

theorem successors_of_not_holds (hc : h.holds c = false) : h.successors c = [] := by
  cases c with
  | proxy p =>
    have hp : h.proxies[p]? = none := by rw [holds_proxy] at hc; grind
    simp [successors, proxy?, hp]
  | table t =>
    have ht : h.tables[t]? = none := by rw [holds_table] at hc; grind
    simp [successors, entries, ht]

/-! ## What changes with an update -/

theorem holds_newTable : h.newTable.1.holds c ↔ h.holds c ∨ c = .table h.next := by
  cases c <;> simp only [newTable, holds_proxy, holds_table] <;> grind

theorem holds_newProxy (a : Address) : (h.newProxy a).1.holds c ↔
    h.holds c ∨ c = .table h.next ∨ c = .proxy (h.next + 1) := by
  cases c <;> simp only [newProxy, holds_proxy, holds_table] <;> grind

@[simp] theorem holds_set (h : Heap) (t : TableId) (key : String) (v : Value) (c : Node) :
    (h.set t key v).holds c = h.holds c := by
  cases c <;> simp only [set, holds_proxy, holds_table]
  grind

@[simp] theorem holds_release (h : Heap) (p : ProxyId) (c : Node) :
    (h.release p).holds c = h.holds c := by
  cases c <;> simp only [release, holds_proxy, holds_table]
  grind

theorem holds_sweep (m : Marks) : (h.sweep m).holds c ↔ h.holds c ∧ m.contains c := by
  cases c <;> simp only [sweep, holds_proxy, holds_table, Marks.contains] <;> grind

theorem proxy?_newProxy (h : Heap) (a : Address) (p : ProxyId) :
    (h.newProxy a).1.proxy? p =
      if p = h.next + 1 then some ⟨a, false, h.next⟩ else h.proxy? p := by
  simp only [newProxy, proxy?]
  grind

theorem proxy?_release (h : Heap) (p q : ProxyId) :
    (h.release p).proxy? q =
      if q = p then (h.proxy? p).map fun r => { r with released := true } else h.proxy? q := by
  simp only [release, proxy?]
  grind

theorem proxy?_sweep (h : Heap) (m : Marks) (p : ProxyId) :
    (h.sweep m).proxy? p = if m.contains (.proxy p) then h.proxy? p else none := by
  simp only [sweep, proxy?, Marks.contains]
  grind

theorem entries_set (h : Heap) (t u : TableId) (key : String) (v : Value) :
    (h.set t key v).entries u =
      if u = t ∧ h.holds (.table t) then (h.entries t).set key v else h.entries u := by
  simp only [set, entries, holds_table]
  grind

theorem entries_newTable (h : Heap) (u : TableId) :
    h.newTable.1.entries u = if u = h.next then ∅ else h.entries u := by
  simp only [newTable, entries]
  grind

theorem entries_newProxy (h : Heap) (a : Address) (u : TableId) :
    (h.newProxy a).1.entries u = if u = h.next then ∅ else h.entries u := by
  simp only [newProxy, entries]
  grind

theorem getElem?_entries_set (e : Entries) (key key' : String) (v : Value) :
    (e.set key v)[key']? = if key' = key then (if v.isNil then none else some v) else e[key']? := by
  simp only [Entries.set]
  grind

theorem Entries.get_set (e : Entries) (key key' : String) (v : Value) :
    (e.set key v).get key' = if key' = key then v else e.get key' := by
  rw [Entries.get, Entries.get, getElem?_entries_set]
  split_ifs with hk hv
  · cases v <;> simp_all [Value.isNil]
  · rfl
  · rfl

theorem successors_sweep {m : Marks} (hc : m.contains c) :
    (h.sweep m).successors c = h.successors c := by
  cases c <;> simp only [successors, sweep, proxy?, entries, Marks.contains] at hc ⊢ <;> grind

theorem entries_sweep {m : Marks} (ht : m.contains (.table t)) :
    (h.sweep m).entries t = h.entries t := by
  simp only [sweep, entries, Marks.contains] at ht ⊢
  grind

/-! ## Closed heaps -/

/-- No node refers to one that was reclaimed, no number to come is in use, and the environment of a proxy
has the number before it. -/
structure Closed (h : Heap) : Prop where
  holds_of_mem : ∀ c d, d ∈ h.successors c → h.holds d
  lt_next : ∀ c, h.holds c → c.number < h.next
  env_succ : ∀ p r, h.proxy? p = some r → r.env + 1 = p

theorem closed_empty : Closed { } := by
  refine ⟨fun c d hd => ?_, fun c hc => ?_, by simp [proxy?]⟩
  · rw [successors_of_not_holds (by cases c <;> simp [holds])] at hd
    simp at hd
  · cases c <;> simp [holds] at hc

namespace Closed

variable (hc : h.Closed)
include hc

theorem knows_get (t : TableId) (key : String) : h.Knows (h.get t key) := by
  intro d hd
  rw [get, Entries.get] at hd
  cases hv : (h.entries t)[key]? with
  | none => simp [hv, Value.node?] at hd
  | some v => exact hc.holds_of_mem _ d (mem_successors_table.2 ⟨key, v, hv, by simpa [hv] using hd⟩)

theorem holds_env {r : ProxyState} (hr : h.proxy? p = some r) : h.holds (.table r.env) :=
  hc.holds_of_mem (.proxy p) _ (mem_successors_proxy.2 ⟨r, hr, rfl⟩)

theorem newTable : h.newTable.1.Closed := by
  have hn : h.holds (.table h.next) = false := by
    have := hc.lt_next (.table h.next)
    grind [Node.number]
  refine ⟨fun c d hd => ?_, fun c hh => ?_, hc.env_succ⟩
  · have hs : h.newTable.1.successors c = h.successors c := by
      cases c <;> simp only [Heap.newTable, successors, proxy?, entries, holds_table] at hn ⊢
      grind
    exact holds_newTable.2 (.inl (hc.holds_of_mem c d (hs ▸ hd)))
  · rcases holds_newTable.1 hh with hh | rfl
    · exact Nat.lt_succ_of_lt (hc.lt_next c hh)
    · exact Nat.lt_succ_self _

theorem newProxy (a : Address) : (h.newProxy a).1.Closed := by
  have hn : h.holds (.table h.next) = false := by
    have := hc.lt_next (.table h.next)
    grind [Node.number]
  refine ⟨fun c d hd => ?_, fun c hh => ?_, fun p r hr => ?_⟩
  · by_cases hp : c = .proxy (h.next + 1)
    · subst hp
      obtain ⟨r, hr, rfl⟩ := mem_successors_proxy.1 hd
      have hr : r.env = h.next := by
        simp only [Heap.newProxy, proxy?] at hr
        grind
      exact (holds_newProxy a).2 (.inr (.inl (by rw [hr])))
    · have hs : (h.newProxy a).1.successors c = h.successors c := by
        cases c <;> simp only [Heap.newProxy, successors, proxy?, entries, holds_table] at hn hp ⊢ <;>
          grind
      exact (holds_newProxy a).2 (.inl (hc.holds_of_mem c d (hs ▸ hd)))
  · rcases (holds_newProxy a).1 hh with hh | rfl | rfl
    · exact Nat.lt_trans (hc.lt_next c hh) (by simp [Heap.newProxy])
    · simp [Heap.newProxy, Node.number]
    · simp [Heap.newProxy, Node.number]
  · rw [proxy?_newProxy] at hr
    split_ifs at hr with hp
    · cases hr
      exact hp.symm
    · exact hc.env_succ p r hr

theorem set (t : TableId) (key : String) (hv : h.Knows v) : (h.set t key v).Closed := by
  refine ⟨fun c d hd => ?_, fun c hh => hc.lt_next c (by simpa using hh), hc.env_succ⟩
  rw [holds_set]
  cases c with
  | proxy p => exact hc.holds_of_mem (.proxy p) d hd
  | table u =>
    obtain ⟨k, w, hw, hd⟩ := mem_successors_table.1 hd
    rw [entries_set] at hw
    split_ifs at hw with hu
    · rw [getElem?_entries_set] at hw
      split_ifs at hw with hk hn
      · exact hv d (by grind)
      · exact hc.holds_of_mem (.table t) d (mem_successors_table.2 ⟨k, w, hw, hd⟩)
    · exact hc.holds_of_mem (.table u) d (mem_successors_table.2 ⟨k, w, hw, hd⟩)

theorem release (p : ProxyId) : (h.release p).Closed := by
  refine ⟨fun c d hd => ?_, fun c hh => hc.lt_next c (by simpa using hh), fun q r hr => ?_⟩
  · have hs : (h.release p).successors c = h.successors c := by
      cases c <;> simp only [Heap.release, successors, proxy?, entries]
      grind
    simpa using hc.holds_of_mem c d (hs ▸ hd)
  · rw [proxy?_release] at hr
    split_ifs at hr with hq
    · obtain ⟨r', hr', rfl⟩ := Option.map_eq_some_iff.1 hr
      exact hq ▸ hc.env_succ p r' hr'
    · exact hc.env_succ q r hr

theorem ne_next (ht : h.holds (.table t)) : t ≠ h.next := Nat.ne_of_lt (hc.lt_next (.table t) ht)

/-- Sweeping keeps a heap closed if the marks miss no successor of a marked node. -/
theorem sweep {m : Marks}
    (hm : ∀ c d, m.contains c → d ∈ h.successors c → h.holds d → m.contains d) :
    (h.sweep m).Closed := by
  refine ⟨fun c d hd => ?_, fun c hh => hc.lt_next c ((holds_sweep m).1 hh).1, fun p r hr => ?_⟩
  · cases hcm : m.contains c with
    | true =>
      rw [successors_sweep hcm] at hd
      have hh := hc.holds_of_mem c d hd
      exact (holds_sweep m).2 ⟨hh, hm c d hcm hd hh⟩
    | false =>
      rw [successors_of_not_holds (by have := holds_sweep (h := h) (c := c) m; grind)] at hd
      simp at hd
  · rw [proxy?_sweep] at hr
    split_ifs at hr
    exact hc.env_succ p r hr

end Closed

end Heap

end NativeProxies
