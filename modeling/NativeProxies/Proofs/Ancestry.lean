import Mathlib.Data.Finset.Card
import Mathlib.Data.Nat.Find
import NativeProxies.Proofs.Classification

/-!
# Ancestors and fundamental types

The walk to the ancestors of a type stops after a number of steps; `TypeTable.Derives` is the chain of
parents without a bound, and the two agree for every table, with cycles or without
(`TypeTable.mem_ancestry_iff`).  A class records the fundamental type of its parent when it is defined.
While classes are derived from defined types only, what is recorded is the end of the chain
(`TypeTable.Grounded.fundamental_eq_iff`), so the test for the base kind of objects by the record and the
two tests by the chain are one (`World.isObject_run`).
-/

namespace NativeProxies

theorem TypeId.eq_of_index {t u : TypeId} (h : t.index = u.index) : t = u := by
  cases t
  cases u
  exact congrArg mk h

namespace TypeTable

variable {s s' : TypeTable} {t u p r : TypeId} {k n : Nat}

/-! ## The chain of parents -/

/-- A type is another one, or derives from it over any number of parents. -/
def Derives (s : TypeTable) : TypeId → TypeId → Prop :=
  Relation.ReflTransGen fun t p => s.parent? t = some p

/-- The `k`th type on the chain of parents that starts with `t`. -/
def ancestor? (s : TypeTable) : Nat → TypeId → Option TypeId
  | 0, t => some t
  | k + 1, t => (s.parent? t).bind (s.ancestor? k)

theorem ancestor?_add (s : TypeTable) (k n : Nat) (t : TypeId) :
    s.ancestor? (k + n) t = (s.ancestor? k t).bind (s.ancestor? n) := by
  induction k generalizing t with
  | zero => simp [ancestor?]
  | succ k ih =>
    rw [Nat.succ_add, ancestor?, ancestor?, Option.bind_assoc]
    exact Option.bind_congr fun p _ => ih p

theorem derives_iff_ancestor? : s.Derives t u ↔ ∃ k, s.ancestor? k t = some u := by
  constructor
  · intro h
    induction h using Relation.ReflTransGen.head_induction_on with
    | refl => exact ⟨0, rfl⟩
    | head hp _ ih =>
      obtain ⟨k, hk⟩ := ih
      exact ⟨k + 1, by rw [ancestor?, hp, Option.bind_some, hk]⟩
  · rintro ⟨k, hk⟩
    induction k generalizing t with
    | zero => exact Option.some.inj hk ▸ .refl
    | succ k ih =>
      obtain ⟨p, hp, hk⟩ := Option.bind_eq_some_iff.1 hk
      exact .head hp (ih hk)

theorem mem_ancestors_iff : u ∈ s.ancestors n t ↔ ∃ k < n, s.ancestor? k t = some u := by
  induction n generalizing t with
  | zero => simp [ancestors]
  | succ n ih =>
    rw [ancestors, List.mem_cons]
    constructor
    · rintro (rfl | h)
      · exact ⟨0, by omega, rfl⟩
      · cases hp : s.parent? t with
        | none => simp [hp] at h
        | some p =>
          rw [hp, Option.elim_some, ih] at h
          obtain ⟨k, hk, hu⟩ := h
          exact ⟨k + 1, by omega, by rw [ancestor?, hp, Option.bind_some, hu]⟩
    · rintro ⟨k, hk, hu⟩
      cases k with
      | zero => exact .inl (Option.some.inj hu).symm
      | succ k =>
        obtain ⟨p, hp, hu⟩ := Option.bind_eq_some_iff.1 hu
        rw [hp, Option.elim_some, ih]
        exact .inr ⟨k, by omega, hu⟩

/-- A type that comes before another on a chain is defined: it has a parent. -/
theorem exists_ancestor?_of_lt (h : s.ancestor? n t = some u) (hk : k < n) :
    ∃ v, s.ancestor? k t = some v ∧ v.index < s.types.size := by
  rw [show n = k + (n - k - 1 + 1) by omega, ancestor?_add] at h
  obtain ⟨v, hv, h⟩ := Option.bind_eq_some_iff.1 h
  obtain ⟨p, hp, -⟩ := Option.bind_eq_some_iff.1 h
  exact ⟨v, hv, index_lt_of_parent? hp⟩

/-- The types before the first occurrence of a type on a chain differ from each other: what lies between
two occurrences of one type can be left out. -/
theorem ancestor?_ne_of_first (h : s.ancestor? n t = some u)
    (hfirst : ∀ k < n, s.ancestor? k t ≠ some u) {i j : Nat} (hij : i < j) (hj : j < n) :
    s.ancestor? i t ≠ s.ancestor? j t := by
  intro he
  apply hfirst (i + (n - j)) (by omega)
  rw [ancestor?_add, he, ← ancestor?_add, Nat.add_sub_cancel' hj.le]
  exact h

/-- A type that is on a chain at all is found on it in no more steps than there are types. -/
theorem le_size_of_first (h : s.ancestor? n t = some u)
    (hfirst : ∀ k < n, s.ancestor? k t ≠ some u) : n ≤ s.types.size := by
  let place (k : Nat) : Nat := ((s.ancestor? k t).map TypeId.index).getD 0
  have hmaps : ∀ k ∈ Finset.range n, place k ∈ Finset.range s.types.size := by
    intro k hk
    obtain ⟨v, hv, hlt⟩ := exists_ancestor?_of_lt h (Finset.mem_range.1 hk)
    simpa [place, hv] using hlt
  have hinj : Set.InjOn place (Finset.range n) := by
    intro i hi j hj he
    have hi := Finset.mem_range.1 hi
    have hj := Finset.mem_range.1 hj
    obtain ⟨v, hv, -⟩ := exists_ancestor?_of_lt h hi
    obtain ⟨w, hw, -⟩ := exists_ancestor?_of_lt h hj
    have hvw : v = w := TypeId.eq_of_index (by simpa [place, hv, hw] using he)
    rcases Nat.lt_trichotomy i j with hlt | heq | hlt
    · exact absurd (by rw [hv, hw, hvw]) (ancestor?_ne_of_first h hfirst hlt hj)
    · exact heq
    · exact absurd (by rw [hv, hw, hvw]) (ancestor?_ne_of_first h hfirst hlt hi)
  simpa using Finset.card_le_card_of_injOn place hmaps hinj

/-- The bounded walk visits the whole chain, also where the chain runs in a cycle. -/
theorem mem_ancestry_iff : u ∈ s.ancestry t ↔ s.Derives t u := by
  unfold ancestry
  rw [mem_ancestors_iff, derives_iff_ancestor?]
  constructor
  · rintro ⟨k, -, hk⟩
    exact ⟨k, hk⟩
  · intro h
    classical
    refine ⟨Nat.find h, ?_, Nat.find_spec h⟩
    exact Nat.lt_succ_of_le (le_size_of_first (Nat.find_spec h) fun k hk => Nat.find_min h hk)

theorem descends_iff : s.descends t u ↔ s.Derives t u := by
  rw [descends, List.contains_iff_mem, mem_ancestry_iff]

/-- A type conforms to another if it derives from it, or from a type that lists it as an interface. -/
theorem conforms_iff :
    s.conforms t u ↔ ∃ v, s.Derives t v ∧ (v = u ∨ s.isInterface u ∧ s.lists v u) := by
  simp only [conforms, List.any_eq_true, mem_ancestry_iff, Bool.or_eq_true, beq_iff_eq,
    Bool.and_eq_true]

/-- Descent is conformance, whatever interfaces there are. -/
theorem Derives.conforms (h : s.Derives t u) : s.conforms t u :=
  conforms_iff.2 ⟨u, h, .inl rfl⟩

/-- No other types conform to what is no interface. -/
theorem conforms_iff_of_not_isInterface (h : s.isInterface u = false) :
    s.conforms t u ↔ s.Derives t u := by
  rw [conforms_iff]
  constructor
  · rintro ⟨v, hv, rfl | ⟨hi, -⟩⟩
    · exact hv
    · simp [h] at hi
  · intro hu
    exact ⟨u, hu, .inl rfl⟩

theorem Extends.derives (h : s.Extends s') (ht : s.Derives t u) : s'.Derives t u := by
  refine Relation.ReflTransGen.mono (fun t p hp => ?_) _ _ ht
  rw [h.parent? t (isSome_get?_iff.2 (index_lt_of_parent? hp)), hp]

/-! ## The end of the chain -/

/-- A class has the fundamental type of its parent, any other type is its own; the base kind of objects is
a type without a parent, and no interface. -/
structure Grounded (s : TypeTable) : Prop where
  rooted : s.Rooted
  inherited : ∀ t p, s.parent? t = some p → s.fundamental t = s.fundamental p
  own : ∀ t, s.parent? t = none → s.fundamental t = t
  object : (s.get? .object).isSome
  parent?_object : s.parent? .object = none
  not_isInterface_object : s.isInterface .object = false

/-- The chain of parents ends, and it ends in the recorded fundamental type. -/
theorem Grounded.derives_fundamental (hs : s.Grounded) (t : TypeId) :
    s.Derives t (s.fundamental t) ∧ s.parent? (s.fundamental t) = none := by
  induction hn : t.index using Nat.strong_induction_on generalizing t with
  | _ n ih =>
    cases hp : s.parent? t with
    | none =>
      rw [hs.own t hp]
      exact ⟨.refl, hp⟩
    | some p =>
      obtain ⟨hd, hend⟩ := ih p.index (hn ▸ hs.rooted t p hp) p rfl
      rw [hs.inherited t p hp]
      exact ⟨.head hp hd, hend⟩

theorem Grounded.fundamental_of_derives (hs : s.Grounded) (h : s.Derives t u) :
    s.fundamental t = s.fundamental u := by
  induction h with
  | refl => rfl
  | tail _ hp ih => exact ih.trans (hs.inherited _ _ hp)

/-- The recorded fundamental type is the last type of the chain. -/
theorem Grounded.fundamental_eq_iff (hs : s.Grounded) :
    s.fundamental t = r ↔ s.Derives t r ∧ s.parent? r = none := by
  constructor
  · rintro rfl
    exact hs.derives_fundamental t
  · rintro ⟨hr, hp⟩
    rw [hs.fundamental_of_derives hr, hs.own r hp]

theorem Grounded.isObject_iff (hs : s.Grounded) : s.isObject t ↔ s.Derives t .object := by
  rw [isObject, decide_eq_true_iff, hs.fundamental_eq_iff, and_iff_left hs.parent?_object]

theorem grounded_initial : initial.Grounded where
  rooted := rooted_initial
  inherited t p h := by
    have hlt := rooted_initial t p h
    have ht := index_lt_of_parent? h
    simp only [initial, List.size_toArray, List.length_singleton] at ht
    omega
  own t h := by
    unfold fundamental get? initial
    by_cases ht : t.index = 0 <;> simp [ht]
  object := rfl
  parent?_object := rfl
  not_isInterface_object := rfl

theorem Grounded.add (hs : s.Grounded) {ty : TypeEntry}
    (hclass : ∀ p ∈ ty.parent, (s.get? p).isSome ∧ ty.fundamental = some (s.fundamental p))
    (hown : ty.parent = none → ty.fundamental = none) : (s.add ty).1.Grounded := by
  have hext := extends_add s ty
  have hnew : ∀ t : TypeId, t.index = s.types.size →
      (s.add ty).1.parent? t = ty.parent ∧ (s.add ty).1.fundamental t = ty.fundamental.getD t := by
    intro t ht
    simp [parent?, fundamental, get?_add, ht]
  have hold : ∀ t : TypeId, t.index ≠ s.types.size →
      (s.add ty).1.parent? t = s.parent? t ∧ (s.add ty).1.fundamental t = s.fundamental t := by
    intro t ht
    simp [parent?, fundamental, get?_add, ht]
  refine ⟨hs.rooted.add fun p hp => (hclass p hp).1, fun t p hp => ?_, fun t hp => ?_,
    hext.defined _ hs.object, (hext.parent? _ hs.object).trans hs.parent?_object, ?_⟩
  · by_cases ht : t.index = s.types.size
    · rw [(hnew t ht).1] at hp
      obtain ⟨hdef, hf⟩ := hclass p hp
      rw [(hnew t ht).2, hf, Option.getD_some, hext.fundamental p hdef]
    · rw [(hold t ht).1] at hp
      rw [(hold t ht).2, hs.inherited t p hp, hext.fundamental p (hs.rooted.defined hp)]
  · by_cases ht : t.index = s.types.size
    · rw [(hnew t ht).1] at hp
      rw [(hnew t ht).2, hown hp, Option.getD_none]
    · rw [(hold t ht).1] at hp
      rw [(hold t ht).2, hs.own t hp]
  · have hne : TypeId.object.index ≠ s.types.size := (isSome_get?_iff.1 hs.object).ne
    rw [isInterface, get?_add, if_neg hne]
    exact hs.not_isInterface_object

theorem Grounded.modify (hs : s.Grounded) {f : TypeEntry → TypeEntry}
    (hp : ∀ ty, (f ty).parent = ty.parent) (hf : ∀ ty, (f ty).fundamental = ty.fundamental)
    (hi : ∀ ty, (f ty).isInterface = ty.isInterface) (u : TypeId) : (s.modify u f).Grounded := by
  refine ⟨hs.rooted.modify hp u, ?_, ?_, (extends_modify hf hp s u).defined _ hs.object, ?_, ?_⟩
  · rw [parent?_modify hp, fundamental_modify hf]
    exact hs.inherited
  · rw [parent?_modify hp, fundamental_modify hf]
    exact hs.own
  · rw [parent?_modify hp]
    exact hs.parent?_object
  · rw [isInterface_modify hi]
    exact hs.not_isInterface_object

end TypeTable

theorem HostStep.grounded_develop {s : TypeTable} (hs : s.Grounded) {h : HostStep}
    (hf : h.Founded s) : (h.develop s).Grounded := by
  cases h with
  | addClass name parent =>
    refine hs.add (fun p hp => ?_) (fun hp => by cases hp)
    cases hp
    exact ⟨hf, rfl⟩
  | addFundamental name functions => exact hs.add (fun p hp => by cases hp) fun _ => rfl
  | addInterface name => exact hs.add (fun p hp => by cases hp) fun _ => rfl
  | addConformance t i =>
    exact hs.modify (by intro ty; rfl) (by intro ty; rfl) (by intro ty; rfl) t
  | setFunctions t functions =>
    exact hs.modify (by intro ty; rfl) (by intro ty; rfl) (by intro ty; rfl) t
  | _ => exact hs

namespace World

variable {w : World} {m : Move} {ms : List Move} {t : TypeId}

theorem grounded_next (h : w.Sound) (hs : w.session.outside.host.types.Grounded)
    (hm : w.Founded m) : (w.next m).session.outside.host.types.Grounded := by
  rcases types_next h m with he | ⟨t, ht, he⟩
  · exact he ▸ hs
  · exact he ▸ HostStep.grounded_develop hs (hm t ht)

theorem grounded_run (h : Along Founded { } ms) :
    (run { } ms).session.outside.host.types.Grounded := by
  have hp := h.preserves (P := fun w => w.Sound ∧ w.session.outside.host.types.Grounded)
    (fun w m hw hm => ⟨hw.1.next m, grounded_next hw.1 hw.2 hm⟩)
    ⟨sound_empty, TypeTable.grounded_initial⟩
  exact hp.2

theorem extends_run (h : w.Sound) (ms : List Move) :
    w.session.outside.host.types.Extends (run w ms).session.outside.host.types := by
  induction ms generalizing w with
  | nil => exact .refl _
  | cons m ms ih => exact (develops_next h m).extends.trans (ih (h.next m))

/-- In a run that derives classes from defined types only, the recorded fundamental type is the end of
the chain of parents, and the test for the base kind of objects by it agrees with both tests by the chain.
What is said of a defined type stays so, whatever is defined later. -/
theorem fundamental_run (h : Along Founded { } ms) (ms' : List Move) :
    let s := (run { } ms).session.outside.host.types
    let s' := (run { } (ms ++ ms')).session.outside.host.types
    (∀ t r, s.fundamental t = r ↔ s.Derives t r ∧ s.parent? r = none) ∧
      (∀ t, s.isObject t ↔ s.conforms t .object) ∧ (∀ t, s.isObject t ↔ s.descends t .object) ∧
      ∀ t, (s.get? t).isSome → s'.parent? t = s.parent? t ∧ s'.fundamental t = s.fundamental t ∧
        s'.isObject t = s.isObject t := by
  intro s s'
  have hs : s.Grounded := grounded_run h
  have hext : s.Extends s' := by
    have he : run { } (ms ++ ms') = run (run { } ms) ms' := List.foldl_append
    simp only [s', he]
    exact extends_run (sound_empty.run ms) ms'
  refine ⟨fun t r => hs.fundamental_eq_iff, fun t => ?_, fun t => ?_, fun t ht => ?_⟩
  · rw [hs.isObject_iff, TypeTable.conforms_iff_of_not_isInterface hs.not_isInterface_object]
  · rw [hs.isObject_iff, TypeTable.descends_iff]
  · exact ⟨hext.parent? t ht, hext.fundamental t ht, hext.isObject ht⟩

/-- Classes of both kinds, three deep, with an interface between their definitions. -/
def classified : List Move :=
  [.step (.host (.addClass "Widget" .object)),
   .step (.host (.addFundamental "Param" (some .native))),
   .step (.host (.addInterface "Drawable")),
   .step (.host (.addClass "Button" ⟨1⟩)),
   .step (.host (.addConformance ⟨1⟩ ⟨3⟩)),
   .step (.host (.addClass "ParamInt" ⟨2⟩)),
   .step (.host (.setFunctions ⟨2⟩ { }))]

theorem fundamental_run_classified :
    Along Founded { } classified ∧
      (run { } classified).session.outside.host.types.Derives ⟨4⟩ .object ∧
      (run { } classified).session.outside.host.types.Derives ⟨5⟩ ⟨2⟩ ∧
      (run { } classified).session.outside.host.types.conforms ⟨5⟩ .object = false ∧
      (run { } (classified ++ classified)).session.outside.host.types.fundamental ⟨5⟩ = ⟨2⟩ := by
  have h : Along Founded { } classified := by decide +kernel
  obtain ⟨hroot, hconf, -, hlater⟩ := fundamental_run h classified
  refine ⟨h, ((hroot ⟨4⟩ .object).1 (by decide +kernel)).1,
    ((hroot ⟨5⟩ ⟨2⟩).1 (by decide +kernel)).1, ?_, ?_⟩
  · rw [← Bool.not_eq_true, ← hconf]
    decide +kernel
  · rw [(hlater ⟨5⟩ (by decide +kernel)).2.1]
    decide +kernel

end World

end NativeProxies
