import NativeProxies.Proofs.Ancestry

/-!
# Conformance

A type conforms to its ancestors and to the interfaces that it or an ancestor of it lists.  Interfaces
have no parent; while none of them lists interfaces itself (`TypeTable.Flat`), nothing lies beyond an
interface, and conformance is transitive.  A definition takes away neither a parent nor a listed interface
(`TypeTable.Enriches`), so a type conforms for ever to what it conformed to once
(`World.conforms_run`).
-/

namespace NativeProxies

namespace TypeTable

variable {s s' : TypeTable} {t u v i : TypeId}

/-! ## Order -/

/-- Interfaces have no parent and list no interfaces. -/
structure Flat (s : TypeTable) : Prop where
  parent? : ∀ i, s.isInterface i → s.parent? i = none
  lists : ∀ i j, s.isInterface i → s.lists i j = false

theorem conforms_refl (s : TypeTable) (t : TypeId) : s.conforms t t :=
  Derives.conforms .refl

/-- An interface derives from itself only. -/
theorem Flat.eq_of_derives (hs : s.Flat) (hi : s.isInterface i) (h : s.Derives i u) : i = u := by
  induction h with
  | refl => rfl
  | tail _ hp ih =>
    rw [← ih, hs.parent? i hi] at hp
    cases hp

theorem Flat.conforms_trans (hs : s.Flat) (htu : s.conforms t u) (huv : s.conforms u v) :
    s.conforms t v := by
  obtain ⟨x, hx, hxu⟩ := conforms_iff.1 htu
  obtain ⟨y, hy, hyv⟩ := conforms_iff.1 huv
  rcases hxu with rfl | ⟨hi, hl⟩
  · exact conforms_iff.2 ⟨y, hx.trans hy, hyv⟩
  · -- Beyond an interface there is the interface alone.
    obtain rfl := hs.eq_of_derives hi hy
    rcases hyv with rfl | ⟨-, hl'⟩
    · exact htu
    · rw [hs.lists u v hi] at hl'
      cases hl'

theorem conforms_eq_descends (h : s.isInterface u = false) : s.conforms t u = s.descends t u := by
  rw [Bool.eq_iff_iff, conforms_iff_of_not_isInterface h, descends_iff]

theorem conforms_of_descends (h : s.descends t u) : s.conforms t u :=
  (descends_iff.1 h).conforms

/-! ## Growth -/

/-- Types stay what they were defined as, and list the interfaces that they listed. -/
structure Enriches (s s' : TypeTable) : Prop extends s.Extends s' where
  isInterface : ∀ i, s.isInterface i → s'.isInterface i
  lists : ∀ t i, s.lists t i → s'.lists t i

theorem Enriches.refl (s : TypeTable) : s.Enriches s :=
  ⟨.refl s, fun _ => id, fun _ _ => id⟩

theorem Enriches.trans {s₁ s₂ : TypeTable} (h₁ : s.Enriches s₁) (h₂ : s₁.Enriches s₂) :
    s.Enriches s₂ where
  toExtends := h₁.toExtends.trans h₂.toExtends
  isInterface i := h₂.isInterface i ∘ h₁.isInterface i
  lists t i := h₂.lists t i ∘ h₁.lists t i

theorem Enriches.conforms (h : s.Enriches s') (ht : s.conforms t u) : s'.conforms t u := by
  obtain ⟨x, hx, hxu⟩ := conforms_iff.1 ht
  refine conforms_iff.2 ⟨x, h.toExtends.derives hx, ?_⟩
  rcases hxu with rfl | ⟨hi, hl⟩
  · exact .inl rfl
  · exact .inr ⟨h.isInterface u hi, h.lists x u hl⟩

/-- A tag of which something is known is defined. -/
theorem ne_size_of_isInterface (h : s.isInterface i) : i.index ≠ s.types.size := by
  rintro he
  unfold isInterface get? at h
  rw [he, Array.getElem?_size] at h
  cases h

theorem ne_size_of_lists (h : s.lists t i) : t.index ≠ s.types.size := by
  rintro he
  unfold lists get? at h
  rw [he, Array.getElem?_size] at h
  cases h

theorem isInterface_add_of_ne (ty : TypeEntry) (h : i.index ≠ s.types.size) :
    (s.add ty).1.isInterface i = s.isInterface i := by
  rw [isInterface, get?_add, if_neg h, isInterface]

theorem lists_add_of_ne (ty : TypeEntry) (h : t.index ≠ s.types.size) :
    (s.add ty).1.lists t i = s.lists t i := by
  rw [lists, get?_add, if_neg h, lists]

theorem enriches_add (s : TypeTable) (ty : TypeEntry) : s.Enriches (s.add ty).1 where
  toExtends := extends_add s ty
  isInterface i hi := by rwa [isInterface_add_of_ne ty (ne_size_of_isInterface hi)]
  lists t i hl := by rwa [lists_add_of_ne ty (ne_size_of_lists hl)]

section Modify

variable {f : TypeEntry → TypeEntry}

theorem lists_modify_of_ne (s : TypeTable) {u t : TypeId} (h : u ≠ t) (i : TypeId) :
    (s.modify u f).lists t i = s.lists t i := by
  have hne : u.index ≠ t.index := fun he => h (TypeId.eq_of_index he)
  rw [lists, get?_modify, if_neg hne, lists]

theorem lists_modify (hl : ∀ ty, (f ty).interfaces = ty.interfaces) (s : TypeTable) (u : TypeId) :
    (s.modify u f).lists = s.lists := by
  funext t i
  rw [lists, lists, get?_modify]
  cases s.get? t <;> split_ifs <;> simp [hl]

theorem enriches_modify (hf : ∀ ty, (f ty).fundamental = ty.fundamental)
    (hp : ∀ ty, (f ty).parent = ty.parent) (hi : ∀ ty, (f ty).isInterface = ty.isInterface)
    (hl : ∀ ty i, ty.interfaces.contains i → (f ty).interfaces.contains i) (s : TypeTable) (u : TypeId) :
    s.Enriches (s.modify u f) where
  toExtends := extends_modify hf hp s u
  isInterface i h := by rwa [isInterface_modify hi]
  lists t i ht := by
    unfold lists at ht ⊢
    rw [get?_modify]
    cases hg : s.get? t with
    | none => simp [hg] at ht
    | some ty =>
      rw [hg, Option.map_some, Option.getD_some] at ht
      split_ifs
      · exact hl ty i ht
      · exact ht

end Modify

/-! ## Interfaces -/

theorem isInterface_initial (i : TypeId) : initial.isInterface i = false := by
  unfold isInterface get? initial
  by_cases hi : i.index = 0 <;> simp [hi]

theorem flat_initial : initial.Flat where
  parent? i h := by rw [isInterface_initial] at h; cases h
  lists i j h := by rw [isInterface_initial] at h; cases h

/-- A new interface has no parent and lists nothing. -/
theorem Flat.add (hs : s.Flat) {ty : TypeEntry}
    (hnew : ty.isInterface → ty.parent = none ∧ ty.interfaces = []) : (s.add ty).1.Flat := by
  have hself {i : TypeId} (hi : i.index = s.types.size) : (s.add ty).1.get? i = some ty := by
    rw [get?_add, if_pos hi]
  have hold {i : TypeId} (h : (s.add ty).1.isInterface i) (hi : i.index ≠ s.types.size) :
      s.isInterface i := by
    rwa [isInterface_add_of_ne ty hi] at h
  constructor
  · intro i h
    by_cases hi : i.index = s.types.size
    · rw [isInterface, hself hi] at h
      rw [TypeTable.parent?, hself hi]
      exact (hnew h).1
    · rw [TypeTable.parent?, get?_add, if_neg hi]
      exact hs.parent? i (hold h hi)
  · intro i j h
    by_cases hi : i.index = s.types.size
    · rw [isInterface, hself hi] at h
      rw [TypeTable.lists, hself hi]
      simp [(hnew h).2]
    · rw [lists_add_of_ne ty hi]
      exact hs.lists i j (hold h hi)

theorem Flat.modify (hs : s.Flat) {f : TypeEntry → TypeEntry} (hp : ∀ ty, (f ty).parent = ty.parent)
    (hi : ∀ ty, (f ty).isInterface = ty.isInterface) (u : TypeId)
    (hl : ∀ i, s.isInterface i → (s.modify u f).lists i = s.lists i) : (s.modify u f).Flat := by
  constructor
  · intro i h
    rw [isInterface_modify hi] at h
    rw [parent?_modify hp]
    exact hs.parent? i h
  · intro i j h
    rw [isInterface_modify hi] at h
    rw [hl i h]
    exact hs.lists i j h

end TypeTable

namespace HostStep

/-- No interfaces are listed with an interface. -/
def Plain (s : TypeTable) : HostStep → Prop
  | addConformance t _ => s.isInterface t = false
  | _ => True

instance (s : TypeTable) : ∀ h : HostStep, Decidable (h.Plain s)
  | addConformance t _ => inferInstanceAs (Decidable (s.isInterface t = false))
  | addClass .. | addFundamental .. | addInterface .. | setFunctions .. | typeSummary ..
  | conformance .. | classRecord .. | typeOf .. | create .. | take .. | drop .. | sink ..
  | nullPointer | storm .. | watch .. | unwatch .. | tape .. | instanceSummary .. | totals =>
    isTrue trivial

theorem enriches_develop (s : TypeTable) (h : HostStep) : s.Enriches (h.develop s) := by
  cases h with
  | addClass name parent => exact s.enriches_add _
  | addFundamental name functions => exact s.enriches_add _
  | addInterface name => exact s.enriches_add _
  | addConformance t i =>
    refine TypeTable.enriches_modify (by intro ty; rfl) (by intro ty; rfl) (by intro ty; rfl)
      (fun ty j hj => ?_) s t
    simp only [List.contains_eq_mem, List.mem_append, decide_eq_true_eq] at hj ⊢
    exact .inl hj
  | setFunctions t functions =>
    exact TypeTable.enriches_modify (by intro ty; rfl) (by intro ty; rfl) (by intro ty; rfl)
      (by intro ty j hj; exact hj) s t
  | _ => exact .refl s

theorem flat_develop {s : TypeTable} (hs : s.Flat) {h : HostStep} (hp : h.Plain s) :
    (h.develop s).Flat := by
  cases h with
  | addClass name parent => exact hs.add fun h => by cases h
  | addFundamental name functions => exact hs.add fun h => by cases h
  | addInterface name => exact hs.add fun _ => ⟨rfl, rfl⟩
  | addConformance t i =>
    refine hs.modify (by intro ty; rfl) (by intro ty; rfl) t fun j hj => ?_
    have hne : t ≠ j := by
      rintro rfl
      exact absurd hj (Bool.eq_false_iff.1 hp)
    funext k
    exact TypeTable.lists_modify_of_ne s hne k
  | setFunctions t functions =>
    refine hs.modify (by intro ty; rfl) (by intro ty; rfl) t fun j _ => ?_
    rw [TypeTable.lists_modify (by intro ty; rfl)]
  | _ => exact hs

end HostStep

namespace World

variable {w : World} {m : Move} {ms : List Move} {t u : TypeId}

/-- A move lists no interface with an interface. -/
def Plain (w : World) (m : Move) : Prop := ∀ h ∈ m.hostStep?, h.Plain w.session.outside.host.types

instance (w : World) (m : Move) : Decidable (w.Plain m) :=
  inferInstanceAs (Decidable (∀ h ∈ m.hostStep?, h.Plain w.session.outside.host.types))

theorem flat_next (h : w.Sound) (hs : w.session.outside.host.types.Flat) (hm : w.Plain m) :
    (w.next m).session.outside.host.types.Flat := by
  rcases types_next h m with he | ⟨t, ht, he⟩
  · exact he ▸ hs
  · exact he ▸ HostStep.flat_develop hs (hm t ht)

theorem flat_run (h : Along Plain { } ms) : (run { } ms).session.outside.host.types.Flat := by
  have hp := h.preserves (P := fun w => w.Sound ∧ w.session.outside.host.types.Flat)
    (fun w m hw hm => ⟨hw.1.next m, flat_next hw.1 hw.2 hm⟩) ⟨sound_empty, TypeTable.flat_initial⟩
  exact hp.2

theorem enriches_run (h : w.Sound) (ms : List Move) :
    w.session.outside.host.types.Enriches (run w ms).session.outside.host.types := by
  induction ms generalizing w with
  | nil => exact .refl _
  | cons m ms ih =>
    have hstep : w.session.outside.host.types.Enriches (w.next m).session.outside.host.types := by
      rcases types_next h m with he | ⟨t, -, he⟩
      · exact he ▸ .refl _
      · exact he ▸ HostStep.enriches_develop _ t
    exact hstep.trans (ih (h.next m))

/-- While no interfaces are listed with interfaces, conformance is a preorder on all tags.  It is descent for
every type that is no interface, and contains descent for those that are.  A type conforms to what it
conformed to before, whatever is defined or listed later. -/
theorem conforms_run (h : Along Plain { } ms) (ms' : List Move) :
    let s := (run { } ms).session.outside.host.types
    let s' := (run { } (ms ++ ms')).session.outside.host.types
    (∀ t, s.conforms t t) ∧ (∀ t u v, s.conforms t u → s.conforms u v → s.conforms t v) ∧
      (∀ t u, s.isInterface u = false → s.conforms t u = s.descends t u) ∧
      (∀ t u, s.descends t u → s.conforms t u) ∧ ∀ t u, s.conforms t u → s'.conforms t u := by
  intro s s'
  have hs : s.Flat := flat_run h
  have he : s.Enriches s' := by
    have hrun : run { } (ms ++ ms') = run (run { } ms) ms' := run_append _ ms ms'
    simp only [s', hrun]
    exact enriches_run (sound_empty.run ms) ms'
  refine ⟨s.conforms_refl, fun t u v => hs.conforms_trans, fun t u => TypeTable.conforms_eq_descends,
    fun t u => TypeTable.conforms_of_descends, fun t u => he.conforms⟩

/-- A class takes an interface from its parent, and gets another one of its own when it is defined
already. -/
def drawn : List Move :=
  [.step (.host (.addInterface "Drawable")),
   .step (.host (.addClass "Widget" .object)),
   .step (.host (.addClass "Button" ⟨2⟩)),
   .step (.host (.addConformance ⟨2⟩ ⟨1⟩))]

theorem conforms_run_drawn :
    Along Plain { } drawn ∧
      (run { } drawn).session.outside.host.types.conforms ⟨3⟩ ⟨1⟩ ∧
      (run { } drawn).session.outside.host.types.descends ⟨3⟩ ⟨1⟩ = false ∧
      (run { } (drawn ++ classified)).session.outside.host.types.conforms ⟨3⟩ ⟨1⟩ := by
  have h : Along Plain { } drawn := by decide +kernel
  obtain ⟨-, htrans, -, -, hlater⟩ := conforms_run h classified
  have hconf : (run { } drawn).session.outside.host.types.conforms ⟨3⟩ ⟨1⟩ :=
    htrans ⟨3⟩ ⟨2⟩ ⟨1⟩ (by decide +kernel) (by decide +kernel)
  exact ⟨h, hconf, by decide +kernel, hlater ⟨3⟩ ⟨1⟩ hconf⟩

/-- An interface that is listed with an interface is not passed on. -/
example :
    let s := (run { }
      [.step (.host (.addInterface "Drawable")),
       .step (.host (.addInterface "Clickable")),
       .step (.host (.addClass "Button" .object)),
       .step (.host (.addConformance ⟨2⟩ ⟨1⟩)),
       .step (.host (.addConformance ⟨3⟩ ⟨2⟩))]).session.outside.host.types
    s.conforms ⟨3⟩ ⟨2⟩ ∧ s.conforms ⟨2⟩ ⟨1⟩ ∧ s.conforms ⟨3⟩ ⟨1⟩ = false := by
  decide +kernel

end World

end NativeProxies
