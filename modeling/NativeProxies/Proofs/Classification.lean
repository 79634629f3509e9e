import NativeProxies.Proofs.Candor

/-!
# What describes a type

A catalog answers from what it remembers, while types are defined all the time.  `Catalog.Finds` is the
walk to the nearest described ancestor without a bound and without a memory.  If the parents of new types
are defined, a remembered answer is what the walk finds now, with one exception: a miss for a tag that was
not defined yet outlasts the definition of the tag (`World.locate_run`, `World.not_locate_founded`).
-/

namespace NativeProxies

/-! ## Chains of parents -/

namespace TypeTable

variable {s : TypeTable} {t p : TypeId}

/-- Every type was defined after its parent. -/
def Rooted (s : TypeTable) : Prop := ∀ t p, s.parent? t = some p → p.index < t.index

theorem index_lt_of_parent? (h : s.parent? t = some p) : t.index < s.types.size := by
  obtain ⟨ty, hty, -⟩ := Option.bind_eq_some_iff.1 h
  exact isSome_get?_iff.1 (by rw [hty, Option.isSome_some])

/-- The parents of defined types are defined. -/
theorem Rooted.defined (hs : s.Rooted) (h : s.parent? t = some p) : (s.get? p).isSome :=
  isSome_get?_iff.2 ((hs t p h).trans (index_lt_of_parent? h))

theorem rooted_initial : Rooted initial := by
  intro t p h
  have ht : t.index = 0 := Nat.lt_one_iff.1 (index_lt_of_parent? h)
  simp [parent?, get?, initial, ht] at h

theorem Rooted.add (hs : s.Rooted) {ty : TypeEntry} (hp : ∀ p ∈ ty.parent, (s.get? p).isSome) :
    (s.add ty).1.Rooted := by
  intro t p h
  rw [parent?, get?_add] at h
  split_ifs at h with ht
  · exact ht ▸ isSome_get?_iff.1 (hp p h)
  · exact hs t p h

theorem Rooted.modify (hs : s.Rooted) {f : TypeEntry → TypeEntry}
    (hf : ∀ ty, (f ty).parent = ty.parent) (u : TypeId) : (s.modify u f).Rooted := by
  intro t p h
  rw [parent?_modify hf] at h
  exact hs t p h

end TypeTable

namespace HostStep

/-- A class is derived from a defined type. -/
def Founded (s : TypeTable) : HostStep → Prop
  | addClass _ parent => (s.get? parent).isSome
  | _ => True

instance (s : TypeTable) : ∀ h : HostStep, Decidable (h.Founded s)
  | addClass _ parent => inferInstanceAs (Decidable ((s.get? parent).isSome = true))
  | addFundamental .. | addInterface .. | addConformance .. | setFunctions .. | typeSummary ..
  | conformance .. | classRecord .. | typeOf .. | create .. | take .. | drop .. | sink ..
  | nullPointer | storm .. | watch .. | unwatch .. | tape .. | instanceSummary .. | totals =>
    isTrue trivial

theorem rooted_develop {s : TypeTable} (hs : s.Rooted) {h : HostStep} (hf : h.Founded s) :
    (h.develop s).Rooted := by
  cases h with
  | addClass name parent => exact hs.add fun p hp => Option.some.inj hp ▸ hf
  | addFundamental name functions => exact hs.add fun p hp => by cases hp
  | addInterface name => exact hs.add fun p hp => by cases hp
  | addConformance t i => exact hs.modify (by intro ty; rfl) t
  | setFunctions t functions => exact hs.modify (by intro ty; rfl) t
  | _ => exact hs

end HostStep

/-! ## The walk -/

namespace Catalog

variable {types types' : TypeTable} {k k' : Catalog} {t : TypeId} {r r' : Located}

/-- The walk from a type to its parent, and so on, finds a descriptor. -/
inductive Finds (k : Catalog) (types : TypeTable) : TypeId → Located → Prop
  | here {t : TypeId} {d : Descriptor} : k.descriptor? t = some d → Finds k types t ⟨t, d⟩
  | parent {t p : TypeId} {r : Located} : k.descriptor? t = none → types.parent? t = some p →
    Finds k types p r → Finds k types t r

theorem Finds.unique (h : k.Finds types t r) (h' : k.Finds types t r') : r = r' := by
  induction h with
  | here hd =>
    cases h' with
    | here hd' => rw [Option.some.inj (hd.symm.trans hd')]
    | parent hn => cases hn.symm.trans hd
  | parent hn hp _ ih =>
    cases h' with
    | here hd => cases hn.symm.trans hd
    | parent _ hp' hr' => exact ih (Option.some.inj (hp.symm.trans hp') ▸ hr')

theorem Finds.congr (h : k.Finds types t r) (hk : k'.descriptors = k.descriptors) :
    k'.Finds types t r := by
  induction h with
  | here hd => exact .here (by rwa [descriptor?, hk])
  | parent hn hp _ ih => exact .parent (by rwa [descriptor?, hk]) hp ih

/-- What was found is found after types were defined, too. -/
theorem Finds.extends (h : k.Finds types t r) (ht : types.Extends types') : k.Finds types' t r := by
  induction h with
  | here hd => exact .here hd
  | parent hn hp _ ih =>
    refine .parent hn ?_ ih
    rw [ht.parent? _ (TypeTable.isSome_get?_iff.2 (TypeTable.index_lt_of_parent? hp)), hp]

/-- From a defined type, nothing more is found after types were defined. -/
theorem Finds.of_extends (h : k.Finds types' t r) (ht : types.Extends types') (hs : types.Rooted)
    (hd : (types.get? t).isSome) : k.Finds types t r := by
  induction h with
  | here hk => exact .here hk
  | parent hn hp _ ih =>
    rw [ht.parent? _ hd] at hp
    exact .parent hn hp (ih (hs.defined hp))

theorem findSome?_ancestors (hs : types.Rooted) {n : Nat}
    (hn : (types.parent? t).isSome → t.index < n) :
    ((types.ancestors (n + 1) t).findSome? fun u => (k.descriptor? u).map (⟨u, ·⟩)) = some r ↔
      k.Finds types t r := by
  induction n generalizing t with
  | zero =>
    have hp : types.parent? t = none := by simpa using hn
    rw [TypeTable.ancestors, hp, Option.elim_none, List.findSome?_singleton]
    constructor
    · intro h
      obtain ⟨d, hd, rfl⟩ := Option.map_eq_some_iff.1 h
      exact .here hd
    · rintro (hd | ⟨-, hp', -⟩)
      · rw [hd, Option.map_some]
      · cases hp.symm.trans hp'
  | succ n ih =>
    rw [TypeTable.ancestors, List.findSome?_cons]
    cases hd : k.descriptor? t with
    | some d =>
      refine ⟨fun h => Option.some.inj h ▸ .here hd, fun h => ?_⟩
      exact congrArg some (Finds.unique (.here hd) h)
    | none =>
      cases hp : types.parent? t with
      | none =>
        refine ⟨fun h => by simp at h, fun h => ?_⟩
        cases h with
        | here hd' => cases hd.symm.trans hd'
        | parent _ hp' => cases hp.symm.trans hp'
      | some p =>
        have hlt := hs t p hp
        have ht := hn (by rw [hp, Option.isSome_some])
        refine (ih fun _ => by omega).trans ⟨.parent hd hp, fun h => ?_⟩
        cases h with
        | here hd' => cases hd.symm.trans hd'
        | parent _ hp' hr => exact Option.some.inj (hp.symm.trans hp') ▸ hr

/-- The bounded walk finds what the walk without a bound finds. -/
theorem nearest_eq_some_iff (hs : types.Rooted) :
    k.nearest types t = some r ↔ k.Finds types t r := by
  refine findSome?_ancestors hs fun h => ?_
  obtain ⟨p, hp⟩ := Option.isSome_iff_exists.1 h
  exact TypeTable.index_lt_of_parent? hp

/-- The second catalog has the descriptors of the first, and remembers only what the first one
answers. -/
structure Inherits (types : TypeTable) (k k' : Catalog) : Prop where
  descriptors : k'.descriptors = k.descriptors
  memo : ∀ (t : TypeId) (found : Option Located), k'.memo[t]? = some found →
    found = (k.locate types t).2

theorem Inherits.refl (types : TypeTable) (k : Catalog) : k.Inherits types k where
  descriptors := rfl
  memo t found ht := by rw [locate_snd, ht, Option.getD_some]

theorem Alike.inherits (h : k.Alike types k') : k.Inherits types k' where
  descriptors := h.descriptors
  memo t found ht := by rw [← h.locate, locate_snd, ht, Option.getD_some]

end Catalog

theorem Action.inherits_run {s : Scope} (h : s.Sound) (a : Action) :
    s.machine.bridge.catalog.Inherits s.machine.types (a.run s).1.machine.bridge.catalog := by
  rcases run_cases h a with ⟨hq, -⟩ | ⟨n, rfl⟩ | rfl | ⟨b, handedOver, name, rfl, -, he⟩ |
    ⟨e, s', v, rfl, hq, he⟩ | ⟨t, rfl⟩
  · exact hq.machine.alike.catalog.inherits
  · exact (s.machine.toggles_applyNotification n).alike.catalog.inherits
  · exact (Machine.alike_catchUp h.machine).catalog.inherits
  · rw [he, machine_afterValue]
    exact (Machine.alike_wrap h.machine b handedOver).catalog.inherits
  · rw [he]
    exact (hq.machine.alike.trans
      (Machine.alike_dismiss hq.sound.machine v)).catalog.inherits
  · exact .refl _ _

namespace World

variable {w : World} {m : Move} {name : String} {c c' : Machine}

/-- A class that a move defines is derived from a defined type. -/
def Founded (w : World) (m : Move) : Prop :=
  ∀ h ∈ m.hostStep?, h.Founded w.session.outside.host.types

instance (w : World) (m : Move) : Decidable (w.Founded m) :=
  inferInstanceAs (Decidable (∀ h ∈ m.hostStep?, h.Founded w.session.outside.host.types))

/-- A move leaves the type table alone, or carries out a step on the host. -/
theorem types_next (h : w.Sound) (m : Move) :
    (w.next m).session.outside.host.types = w.session.outside.host.types ∨
      ∃ t, m.hostStep? = some t ∧
        (w.next m).session.outside.host.types = t.develop w.session.outside.host.types := by
  have hb := w.becomes_next m
  generalize w.next m = w' at hb
  cases hb with
  | idle => exact .inl rfl
  | enter hc =>
    rw [← Session.outside_of_machine? hc]
    exact .inl (Machine.alike_catchUp (h.machine hc)).types
  | @act name s action hs =>
    rw [← Session.outside_of_machine? (machine?_of_scope? hs)]
    by_cases ht : ∃ t, action = .host t
    · obtain ⟨t, rfl⟩ := ht
      exact .inr ⟨t, rfl, HostStep.types_run s.machine.outside t⟩
    · exact .inl (evolves_act (h.scope hs) fun t he => ht ⟨t, he⟩).types
  | leave hs =>
    rw [← Session.outside_of_machine? (machine?_of_scope? hs)]
    exact .inl (Machine.alike_leave (h.scope hs).machine).types
  | tend hn hc hv ht =>
    rw [← Session.outside_of_machine? hc]
    exact .inl (Sound.tends (h.machine hc) ht).2.1.types
  | «open» => exact .inl rfl
  | close hc hv =>
    rw [← Session.outside_of_machine? hc]
    exact .inl (Machine.evolves_close (h.machine hc)).types
  | host t => exact .inr ⟨t, rfl, HostStep.types_run _ t⟩
  | reuse t floating => exact .inl rfl

theorem rooted_next (h : w.Sound) (hs : w.session.outside.host.types.Rooted) (hm : w.Founded m) :
    (w.next m).session.outside.host.types.Rooted := by
  rcases types_next h m with he | ⟨t, ht, he⟩
  · exact he ▸ hs
  · exact he ▸ HostStep.rooted_develop hs (hm t ht)

theorem rooted_run {ms : List Move} (h : Along Founded { } ms) :
    (run { } ms).session.outside.host.types.Rooted := by
  have hp := h.preserves (P := fun w => w.Sound ∧ w.session.outside.host.types.Rooted)
    (fun w m hw hm => ⟨hw.1.next m, rooted_next hw.1 hw.2 hm⟩)
    ⟨sound_empty, TypeTable.rooted_initial⟩
  exact hp.2

theorem inherits_tends {t : Step} (h : c.Sound) (ht : Tends c t c') :
    c'.bridge.catalog.memo = ∅ ∨ c.bridge.catalog.Inherits c.types c'.bridge.catalog := by
  cases ht with
  | catchUp name => exact .inr (Machine.alike_catchUp h).catalog.inherits
  | collect name => exact .inr (Machine.alike_collect h).catalog.inherits
  | unstash name stash => exact .inr (.refl _ _)
  | register name d => exact .inl rfl
  | catalog name q => exact .inr (Machine.recalls_catalogStep c q).alike.catalog.inherits

/-- A bridge after a move remembers nothing, or only what it answered before the move. -/
theorem inherits_next (h : w.Sound) (m : Move)
    (hc : (w.next m).session.machine? name = some c') :
    c'.bridge.catalog.memo = ∅ ∨ ∃ c, w.session.machine? name = some c ∧
      c.bridge.catalog.Inherits c.types c'.bridge.catalog := by
  have hkeep {b : Bridge} (hb : w.session.bridges[name]? = some b) :
      ∃ c, w.session.machine? name = some c ∧ c.bridge.catalog.Inherits c.types b.catalog :=
    ⟨_, Option.map_eq_some_iff.2 ⟨b, hb, rfl⟩, .refl _ _⟩
  have hput {n : String} {x x' : Machine} (hx : w.session.machine? n = some x)
      (hi : x'.bridge.catalog.memo = ∅ ∨ x.bridge.catalog.Inherits x.types x'.bridge.catalog)
      {b : Bridge} (hb : (w.session.bridges.insert n x'.bridge)[name]? = some b) :
      b.catalog.memo = ∅ ∨ ∃ c, w.session.machine? name = some c ∧
        c.bridge.catalog.Inherits c.types b.catalog := by
    by_cases hn : n = name
    · subst hn
      rw [Std.ExtTreeMap.getElem?_insert_self] at hb
      cases hb
      exact hi.imp_right fun hi => ⟨x, hx, hi⟩
    · exact .inr (hkeep (by grind))
  obtain ⟨b, hb, rfl⟩ := Option.map_eq_some_iff.1 hc
  have hnext := w.becomes_next m
  generalize w.next m = w' at hnext hb
  cases hnext with
  | idle => exact .inr (hkeep hb)
  | enter hx => exact hput hx (.inr (Machine.alike_catchUp (h.machine hx)).catalog.inherits) hb
  | act action hs =>
    exact hput (machine?_of_scope? hs) (.inr (Action.inherits_run (h.scope hs) action)) hb
  | leave hs =>
    exact hput (machine?_of_scope? hs)
      (.inr (Machine.alike_leave (h.scope hs).machine).catalog.inherits) hb
  | tend hn hx hv ht => exact hput hx (inherits_tends (h.machine hx) ht) hb
  | @«open» n settings responder ancestorsOnly hn =>
    by_cases he : n = name
    · subst he
      rw [Std.ExtTreeMap.getElem?_insert_self] at hb
      cases hb
      exact .inl rfl
    · exact .inr (hkeep (by grind))
  | close hx hv => exact .inr (hkeep (by grind))
  | host t => exact .inr (hkeep hb)
  | reuse t floating => exact .inr (hkeep hb)

/-! ## Answers in the long run -/

/-- At some moment of a run a tag was not defined and a bridge answered that nothing describes it, and
so it has answered ever since. -/
def Missed (ms : List Move) (name : String) (t : TypeId) : Prop :=
  ∃ ms₁, ms₁ <+: ms ∧ (run { } ms₁).session.outside.host.types.get? t = none ∧
    ∀ ms₂, ms₁ <+: ms₂ → ms₂ <+: ms →
      ∃ c, (run { } ms₂).session.machine? name = some c ∧ (c.locate t).2 = none

variable {ms : List Move} {t : TypeId}

theorem missed_self (ht : (run { } ms).session.outside.host.types.get? t = none)
    (hc : (run { } ms).session.machine? name = some c) (hl : (c.locate t).2 = none) :
    Missed ms name t := by
  refine ⟨ms, List.prefix_rfl, ht, fun ms₂ h₁ h₂ => ?_⟩
  obtain rfl : ms₂ = ms := h₂.eq_of_length_le h₁.length_le
  exact ⟨c, hc, hl⟩

theorem Missed.snoc (h : Missed ms name t)
    (hc : (run { } (ms ++ [m])).session.machine? name = some c) (hl : (c.locate t).2 = none) :
    Missed (ms ++ [m]) name t := by
  obtain ⟨ms₁, hp, ht, hall⟩ := h
  refine ⟨ms₁, hp.trans (List.prefix_append _ _), ht, fun ms₂ h₁ h₂ => ?_⟩
  rcases List.prefix_concat_iff.1 h₂ with rfl | h₂
  · exact ⟨c, hc, hl⟩
  · exact hall ms₂ h₁ h₂

theorem extends_machine (h : w.Sound) (hc : w.session.machine? name = some c)
    (hc' : (w.next m).session.machine? name = some c') : c.types.Extends c'.types := by
  rw [Machine.types, Machine.types, Session.outside_of_machine? hc, Session.outside_of_machine? hc']
  exact (develops_next h m).extends

/-- In a run that derives classes from defined types only, a bridge answers for every tag what the walk
along the parents finds now, unless it remembers a miss from when the tag was not defined. -/
theorem locate_run (h : Along Founded { } ms)
    (hc : (run { } ms).session.machine? name = some c) (t : TypeId) :
    (∀ r, (c.locate t).2 = some r ↔ c.bridge.catalog.Finds c.types t r) ∨
      c.bridge.catalog.memo[t]? = some none ∧ Missed ms name t := by
  induction ms using List.reverseRecOn generalizing name c with
  | nil => simp [run, Session.machine?] at hc
  | append_singleton ms m ih =>
    obtain ⟨hms, -⟩ := along_append.1 h
    have hsound := sound_empty.run ms
    have hlocate := Catalog.locate_snd c.types c.bridge.catalog t
    cases hmemo : c.bridge.catalog.memo[t]? with
    | none =>
      have hrooted : c.types.Rooted := by
        rw [Machine.types, Session.outside_of_machine? hc]
        exact rooted_run h
      rw [hmemo, Option.getD_none] at hlocate
      exact .inl fun r => hlocate ▸ Catalog.nearest_eq_some_iff hrooted
    | some found =>
      rw [hmemo, Option.getD_some] at hlocate
      rw [run_append] at hc
      rcases inherits_next hsound m hc with he | ⟨c₀, hc₀, hi⟩
      · simp [he] at hmemo
      have hold : found = (c₀.locate t).2 := hi.memo t found hmemo
      have hext := extends_machine hsound hc₀ hc
      cases found with
      | some r =>
        -- An answer that was found stays right, whether the tag is defined or described itself.
        have hr : c₀.bridge.catalog.Finds c₀.types t r := by
          rcases ih hms hc₀ with hl | ⟨hmiss, -⟩
          · exact (hl r).1 hold.symm
          · rw [Machine.locate, Catalog.locate_snd, hmiss] at hold
            cases hold
        have hr' := (hr.congr hi.descriptors).extends hext
        refine .inl fun r' => ⟨fun he => ?_, fun hf => hlocate.trans (congrArg some (hr'.unique hf))⟩
        cases hlocate.symm.trans he
        exact hr'
      | none =>
        by_cases ht : (c₀.types.get? t).isSome
        · rcases ih hms hc₀ with hl | ⟨-, hmiss⟩
          · have hrooted : c₀.types.Rooted := by
              rw [Machine.types, Session.outside_of_machine? hc₀]
              exact rooted_run hms
            refine .inl fun r => ⟨fun he => ?_, fun hf => ?_⟩
            · cases hlocate.symm.trans he
            · have hr := (hf.of_extends hext hrooted ht).congr hi.descriptors.symm
              cases hold.trans ((hl r).2 hr)
          · exact .inr ⟨rfl, hmiss.snoc (by rwa [run_append]) hlocate⟩
        · rw [Machine.types, Session.outside_of_machine? hc₀, Option.not_isSome_iff_eq_none] at ht
          exact .inr ⟨rfl, (missed_self ht hc₀ hold.symm).snoc (by rwa [run_append]) hlocate⟩

/-- Classes are defined, described and asked for in turns. -/
def described : List Move :=
  [.step (.open "b" .standard .environment false),
   .step (.register "b" { name := "Object", tag := .object }),
   .step (.host (.addClass "Widget" .object)),
   .step (.catalog "b" (.locate ⟨1⟩)),
   .step (.host (.addClass "Button" ⟨1⟩)),
   .step (.catalog "b" (.labelFor (some ⟨2⟩))),
   .step (.register "b" { name := "Widget", tag := ⟨1⟩ }),
   .step (.catalog "b" (.hook .take ⟨2⟩)),
   .step (.host (.addInterface "Drawable")),
   .step (.host (.addClass "Toggle" ⟨2⟩))]

theorem locate_run_described :
    Along Founded { } described ∧ ∃ c, (run { } described).session.machine? "b" = some c ∧
      c.bridge.catalog.Finds c.types ⟨2⟩ ⟨⟨1⟩, { name := "Widget", tag := ⟨1⟩ }⟩ ∧
      c.bridge.catalog.Finds c.types ⟨4⟩ ⟨⟨1⟩, { name := "Widget", tag := ⟨1⟩ }⟩ := by
  let c := ((run { } described).session.machine? "b").get (by decide +kernel)
  have h : Along Founded { } described := by decide +kernel
  have hc : (run { } described).session.machine? "b" = some c := (Option.some_get _).symm
  refine ⟨h, c, hc, ?_, ?_⟩
  · rcases locate_run h hc ⟨2⟩ with hl | ⟨hm, -⟩
    · exact (hl _).1 (by decide +kernel)
    · exact absurd hm (by decide +kernel)
  · rcases locate_run h hc ⟨4⟩ with hl | ⟨hm, -⟩
    · exact (hl _).1 (by decide +kernel)
    · exact absurd hm (by decide +kernel)

/-- A bridge is asked for a tag before its class is defined. -/
def foreseen : List Move :=
  [.step (.open "b" .standard .environment false),
   .step (.register "b" { name := "Object", tag := .object }),
   .step (.catalog "b" (.locate ⟨1⟩)),
   .step (.host (.addClass "Widget" .object))]

/-- A remembered miss outlasts the definition of its tag. -/
theorem not_locate_founded :
    Along Founded { } foreseen ∧ ∃ c, (run { } foreseen).session.machine? "b" = some c ∧
      (c.locate ⟨1⟩).2 = none ∧
      c.bridge.catalog.Finds c.types ⟨1⟩ ⟨.object, { name := "Object", tag := .object }⟩ := by
  let c := ((run { } foreseen).session.machine? "b").get (by decide +kernel)
  have hc : (run { } foreseen).session.machine? "b" = some c := (Option.some_get _).symm
  refine ⟨by decide +kernel, c, hc, by decide +kernel, ?_⟩
  have hp : c.types.parent? ⟨1⟩ = some .object := by decide +kernel
  exact .parent (by decide +kernel) hp (.here (by decide +kernel))

end World

end NativeProxies
