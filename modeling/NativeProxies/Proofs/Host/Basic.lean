import NativeProxies.Host.Basic
import NativeProxies.Proofs.Host.Counts

/-!
# Instances of a host

What a host knows of an instance: its tag, which stays for ever, and its counts.  A change of the
references of one instance leaves all others alone.
-/

namespace NativeProxies

namespace Host

variable {h : Host} {a b : Address}

/-- The watchers of an object's toggle references. -/
def watchers (h : Host) (a : Address) : List Watcher := (h.counts? a).elim [] Counts.watchers

/-- Whether an object has a floating reference. -/
def floats (h : Host) (a : Address) : Bool := (h.counts? a).any Counts.floating

/-- The reference count of an object, none once it is freed. -/
def refs (h : Host) (a : Address) : Nat := (h.counts? a).elim 0 Counts.refs

/-- The tag of an instance, freed or not. -/
def tag? (h : Host) (a : Address) : Option TypeId := h.instances[a]?.map Instance.tag

theorem typeOf_eq (h : Host) (a : Address) : h.typeOf a = (h.tag? a).getD .object := rfl

theorem contains_instances (h : Host) (a : Address) :
    h.instances.contains a = (h.tag? a).isSome := by
  rw [tag?, Option.isSome_map]
  exact Std.ExtTreeMap.contains_eq_isSome_getElem?

theorem tag?_of_counts? {c : Counts} (hc : h.counts? a = some c) :
    h.tag? a = some (h.typeOf a) := by
  simp only [counts?, tag?, typeOf] at hc ⊢
  cases hi : h.instances[a]? <;> simp_all

theorem counts?_of_tag? (hn : h.tag? a = none) : h.counts? a = none :=
  Option.eq_none_iff_forall_ne_some.2 fun _ hc =>
    absurd (hn.symm.trans (tag?_of_counts? hc)) (by simp)

theorem counts?_of_dead (ha : h.isAlive a = false) : h.counts? a = none := by
  simpa [isAlive] using ha

theorem contains_of_isAlive (ha : h.isAlive a) : h.instances.contains a := by
  obtain ⟨c, hc⟩ := Option.isSome_iff_exists.1 ha
  rw [contains_instances, tag?_of_counts? hc]
  rfl

theorem counts?_apply_self (h : Host) (a : Address) (r : RefChange) :
    (h.apply a r).1.counts? a = (h.counts? a).bind fun c => (c.apply r).1 := by
  rw [apply]
  split <;> rename_i hc
  · simp [hc]
  · rw [hc]
    simp [counts?]

theorem notice_apply (h : Host) (a : Address) (r : RefChange) :
    (h.apply a r).2 = (h.counts? a).bind fun c => (c.apply r).2 := by
  rw [apply]
  split <;> rename_i hc <;> simp [hc]

theorem counts?_apply_of_ne (hb : b ≠ a) (r : RefChange) :
    (h.apply a r).1.counts? b = h.counts? b := by
  rw [apply]
  split
  · rfl
  · simp only [counts?]
    grind

theorem mem_watchers_of_apply {w : Watcher} {r : RefChange}
    (hw : w ∈ (h.apply a r).1.watchers b) : w ∈ h.watchers b ∨ r = .watch w := by
  by_cases hb : b = a
  · subst hb
    rw [watchers, counts?_apply_self] at hw
    cases hc : h.counts? b with
    | none => simp [hc] at hw
    | some c =>
      cases hc' : (c.apply r).1 with
      | none => simp [hc, hc'] at hw
      | some c' =>
        simp only [hc, hc', Option.bind_some, Option.elim_some, Counts.watchers_apply hc'] at hw
        simp only [watchers, hc, Option.elim_some]
        cases r <;> grind [List.mem_of_mem_erase]
  · rw [watchers, counts?_apply_of_ne hb] at hw
    exact .inl hw

/-- A change adds no watcher but the one that it is to add. -/
theorem count_watchers_apply_le (h : Host) (a b : Address) (r : RefChange) (w : Watcher) :
    ((h.apply a r).1.watchers b).count w ≤
      (h.watchers b).count w + if r = .watch w ∧ b = a then 1 else 0 := by
  by_cases hb : b = a
  · subst hb
    rw [watchers, counts?_apply_self]
    cases hc : h.counts? b with
    | none => simp
    | some c =>
      cases hc' : (c.apply r).1 with
      | none => simp [hc']
      | some c' =>
        simp only [watchers, hc, hc', Option.bind_some, Option.elim_some, Counts.watchers_apply hc']
        cases r <;> simp [List.count_append, List.count_erase, List.count_singleton]
  · rw [watchers, counts?_apply_of_ne hb]
    exact Nat.le_add_right _ _

/-- A watcher that is removed is there once less. -/
theorem count_watchers_unwatch_lt {w : Watcher} (hw : w ∈ h.watchers a) :
    ((h.apply a (.unwatch w)).1.watchers a).count w < (h.watchers a).count w := by
  have hpos := List.count_pos_iff.2 hw
  rw [watchers, counts?_apply_self]
  cases hc : h.counts? a with
  | none =>
    rw [watchers, hc] at hpos
    simp at hpos
  | some c =>
    cases hc' : (c.apply (.unwatch w)).1 with
    | none => simpa [hc'] using hpos
    | some c' =>
      simp only [watchers, hc, Option.elim_some] at hpos
      simp only [watchers, hc, hc', Option.bind_some, Option.elim_some, Counts.watchers_apply hc',
        List.count_erase_self]
      omega

theorem watcher_mem_of_apply {r : RefChange} {n : Notice} (hn : (h.apply a r).2 = some n) :
    n.watcher ∈ h.watchers a := by
  rw [notice_apply, Option.bind_eq_some_iff] at hn
  obtain ⟨c, hc, hn⟩ := hn
  simpa [watchers, hc] using Counts.watcher_mem_of_apply hn

theorem tag?_apply (h : Host) (a b : Address) (r : RefChange) :
    (h.apply a r).1.tag? b = h.tag? b := by
  rw [apply]
  split <;> rename_i hc
  · rfl
  · have := tag?_of_counts? hc
    simp only [tag?] at this ⊢
    grind

theorem counts?_create_self (h : Host) (a : Address) (t : TypeId) (floating : Bool) :
    (h.create a t floating).counts? a = some (.initial floating) := by
  simp [create, counts?]

theorem counts?_create_of_ne (hb : b ≠ a) (h : Host) (t : TypeId) (floating : Bool) :
    (h.create a t floating).counts? b = h.counts? b := by
  simp only [create, counts?]
  grind

theorem tag?_create (h : Host) (a b : Address) (t : TypeId) (floating : Bool) :
    (h.create a t floating).tag? b = if b = a then some t else h.tag? b := by
  simp only [create, tag?]
  grind

@[simp] theorem types_apply (h : Host) (a : Address) (r : RefChange) :
    (h.apply a r).1.types = h.types := by
  rw [apply]
  split <;> rfl

end Host

end NativeProxies
