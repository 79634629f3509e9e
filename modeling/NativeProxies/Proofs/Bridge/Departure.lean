import NativeProxies.Proofs.Bridge.Release

/-!
# Entries that go

An entry leaves the cache by dismissal, in a collection, or when its bridge is closed.  On each of these
occasions the bridge first catches up, then gives back the references behind the entries that go, one
after the other, and all other entries stay (`Machine.Frees`).
-/

namespace NativeProxies

namespace Machine

variable {c c' : Machine} {a b : Address} {e : CachedProxy}

/-- The entry that is dropped when a value is dismissed, if there is one. -/
def dismissals (c : Machine) (v : Value) : List (Address × CachedProxy) :=
  match c.heap.heldProxy? v with
  | none => []
  | some (p, r) => [(r.object, ⟨p, c.cache.generation r.object⟩)]

/-- The entries that are dropped when the bridge is left. -/
def departures (c : Machine) : List (Address × CachedProxy) :=
  if c.catchUp.isDue then c.catchUp.dead else []

/-- The second machine is the first one after it dropped some entries: once it had caught up, it gave
back the references behind them, in this order. -/
structure Frees (c : Machine) (items : List (Address × CachedProxy)) (c' : Machine) : Prop where
  nodup : (items.map Prod.fst).Nodup
  entries : ∀ a e, (a, e) ∈ items → c.cache.weak[a]? = some e
  weak : ∀ a e, c'.cache.weak[a]? = some e ↔ c.cache.weak[a]? = some e ∧ (a, e) ∉ items
  host : c'.host = (c.catchUp.giveBackAll items).host
  journal : c'.outside.journal = (c.catchUp.giveBackAll items).outside.journal

/-- Nothing is dropped. -/
theorem frees_nil (hw : c'.cache.weak = c.cache.weak) (ho : c'.host = c.host)
    (hj : c'.outside.journal = c.outside.journal) : c.Frees [] c' where
  nodup := List.nodup_nil
  entries := by simp
  weak a e := by simp [hw]
  host := ho.trans c.host_catchUp.symm
  journal := hj.trans c.journal_catchUp.symm

theorem frees_catchUp (c : Machine) : c.Frees [] c.catchUp :=
  frees_nil c.weak_catchUp c.host_catchUp c.journal_catchUp

theorem frees_dismiss (h : c.Sound) (v : Value) : c.Frees (c.dismissals v) (c.dismiss v).1 := by
  rw [dismissals]
  cases hv : c.heap.heldProxy? v with
  | none => exact dismiss_of_none hv ▸ frees_nil rfl rfl rfl
  | some found =>
    obtain ⟨p, r⟩ := found
    obtain ⟨-, hp, hrel⟩ := heldProxy?_spec hv
    obtain ⟨x, hx, hxp⟩ : ∃ x, c.cache.weak[r.object]? = some x ∧ x.proxy = p :=
      h.memory.cached r.object p ⟨r, hp, rfl, hrel⟩
    have hg : c.catchUp.cache.generation r.object = c.cache.generation r.object := by
      rw [ProxyCache.generation, ProxyCache.generation, weak_catchUp]
    have he : (⟨p, c.cache.generation r.object⟩ : CachedProxy) = x := by
      rw [ProxyCache.generation, hx, ← hxp]
      rfl
    have ho : (c.dismiss v).1.outside =
        (c.catchUp.giveBackAll [(r.object, ⟨p, c.cache.generation r.object⟩)]).outside := by
      rw [dismiss_of_some hv, hg, forgotten, giveBack_setMemory]
      rfl
    dsimp only
    refine ⟨by simp, fun a e hi => ?_, fun a e => ?_, congrArg Outside.host ho,
      congrArg Outside.journal ho⟩
    · cases List.mem_singleton.1 hi
      rw [hx, he]
    · rw [weak_dismiss_of_some hv, he, List.mem_singleton, Prod.mk.injEq, not_and]
      grind

theorem frees_collect (c : Machine) : c.Frees c.catchUp.dead c.collect where
  nodup := c.catchUp.nodup_dead
  entries a e hi := c.weak_catchUp ▸ (mem_dead.1 hi).1
  weak a e := by
    rw [weak_collect, mem_dead, weak_catchUp, and_congr_right_iff]
    simp +contextual
  host := by
    rw [collect_eq, host_catchUp, host, outside_countCollection, outside_swept]
    rfl
  journal := by rw [collect_eq, journal_catchUp, outside_countCollection, outside_swept]

theorem leave_eq_ite (c : Machine) :
    c.leave = if c.catchUp.isDue then c.collect else c.catchUp := by
  have hc : c.catchUp.collect = c.collect := by rw [collect_eq, collect_eq, catchUp_catchUp]
  rw [leave, ← hc]

theorem frees_leave (c : Machine) : c.Frees c.departures c.leave := by
  rw [leave_eq_ite, departures]
  split_ifs
  · exact c.frees_collect
  · exact c.frees_catchUp

/-- Closing a bridge drops all of its entries. -/
theorem frees_close (h : c.Sound) : c.Frees c.cache.weak.toList c.close where
  nodup := c.nodup_entries
  entries a e hi := Std.ExtTreeMap.mem_toList_iff_getElem?_eq_some.1 hi
  weak a e := by
    rw [cache_close h.memory, Std.ExtTreeMap.mem_toList_iff_getElem?_eq_some]
    simp
  host := by rw [host, outside_close h.memory, weak_catchUp, host]
  journal := by rw [outside_close h.memory, weak_catchUp]

/-! ## The end of a bridge -/

/-- A bridge is torn down once. -/
theorem tearDown_tearDown (c : Machine) (done : Bool) :
    (c.tearDown done).1.tearDown (c.tearDown done).2 = c.tearDown done := by
  cases done <;> rfl

theorem close_eq_tearDown (c : Machine) : c.close = (c.tearDown false).1 :=
  congrArg Prod.fst (c.tearDown_tearDown false)

/-- Nothing would be left to give back if a closed bridge were torn down another time. -/
theorem outside_tearDown_close (h : c.memory.Sound) :
    (c.close.tearDown false).1.host = c.close.host ∧
      (c.close.tearDown false).1.outside.journal = c.close.outside.journal := by
  have hw : c.close.catchUp.cache.weak = ∅ := by
    rw [weak_catchUp, cache_close h]
  have he : (c.close.tearDown false).1 = c.close.catchUp.setCache { } := by
    rw [tearDown, if_neg Bool.false_ne_true]
    simp only [releaseAll, ProxyCache.drain, hw]
    rfl
  have ho : (c.close.tearDown false).1.outside = c.close.catchUp.outside := by
    rw [he]
    generalize c.close.catchUp = k
    rfl
  rw [host, ho]
  exact ⟨c.close.host_catchUp, c.close.journal_catchUp⟩

end Machine

end NativeProxies
