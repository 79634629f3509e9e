import NativeProxies.Proofs.World

/-!
# Descriptors in the long run

Descriptors are never taken away and types keep their parents, so a type that a descriptor described once
is always described (`Machine.Describes`), although a catalog forgets what it located whenever another
descriptor is registered.  That needs catalogs to be faithful: what they remember to have located can
still be found (`World.faithful_run`).
-/

namespace NativeProxies

namespace TypeTable

variable {s s' : TypeTable}

theorem ancestors_subset (h : s.Extends s') {m n : Nat} (hn : n ≤ m) (t : TypeId) :
    s.ancestors n t ⊆ s'.ancestors m t := by
  induction n generalizing m t with
  | zero => exact List.nil_subset _
  | succ n ih =>
    obtain ⟨m, rfl⟩ := Nat.exists_eq_add_one_of_ne_zero (Nat.ne_zero_of_lt hn)
    refine List.cons_subset_cons t ?_
    cases hp : s.parent? t with
    | none => exact List.nil_subset _
    | some p =>
      have ht : (s.get? t).isSome := by
        obtain ⟨ty, hty, -⟩ := Option.bind_eq_some_iff.1 hp
        rw [hty, Option.isSome_some]
      rw [h.parent? t ht, hp]
      exact ih (Nat.le_of_succ_le_succ hn) p

theorem ancestry_subset (h : s.Extends s') (t : TypeId) : s.ancestry t ⊆ s'.ancestry t :=
  ancestors_subset h (Nat.succ_le_succ h.size_le) t

end TypeTable

namespace Catalog

variable {types types' : TypeTable} {k k' : Catalog} {t : TypeId}

theorem isSome_nearest_iff :
    (k.nearest types t).isSome ↔ ∃ u ∈ types.ancestry t, (k.descriptor? u).isSome := by
  simp [nearest, List.findSome?_isSome_iff]

/-- More types and more descriptors describe all that was described. -/
theorem isSome_nearest_mono (ht : types.Extends types')
    (hk : ∀ u, (k.descriptor? u).isSome → (k'.descriptor? u).isSome)
    (h : (k.nearest types t).isSome) : (k'.nearest types' t).isSome := by
  obtain ⟨u, hu, hd⟩ := isSome_nearest_iff.1 h
  exact isSome_nearest_iff.2 ⟨u, TypeTable.ancestry_subset ht t hu, hk u hd⟩

theorem isSome_nearest_register (d : Descriptor) (h : (k.nearest types t).isSome) :
    ((k.register d).nearest types t).isSome := by
  refine isSome_nearest_mono (.refl types) (fun u hu => ?_) h
  simp only [descriptor?, register] at hu ⊢
  grind

/-- What the catalog locates can be found at present. -/
def Faithful (types : TypeTable) (k : Catalog) : Prop :=
  ∀ t, (k.locate types t).2.isSome → (k.nearest types t).isSome

theorem faithful_of_memo (h : k.memo = ∅) (types : TypeTable) : k.Faithful types := by
  intro t ht
  rwa [locate_snd, h, Std.ExtTreeMap.getElem?_empty, Option.getD_none] at ht

theorem Faithful.alike (h : k.Faithful types) (hk : k.Alike types k') : k'.Faithful types := by
  intro t ht
  rw [hk.locate] at ht
  exact isSome_nearest_mono (.refl types) (fun u hu => by rwa [descriptor?, hk.descriptors]) (h t ht)

/-- What was located is located after types were defined, too. -/
theorem isSome_locate_extends (ht : types.Extends types') (h : (k.locate types t).2.isSome) :
    (k.locate types' t).2.isSome := by
  rw [locate_snd] at h ⊢
  cases hm : k.memo[t]? with
  | none =>
    rw [hm] at h
    exact isSome_nearest_mono ht (fun _ => id) h
  | some found =>
    rw [hm] at h
    exact h

theorem Faithful.extends (h : k.Faithful types) (ht : types.Extends types') : k.Faithful types' := by
  intro t hl
  rw [locate_snd] at hl
  cases hm : k.memo[t]? with
  | none =>
    rw [hm] at hl
    exact hl
  | some found =>
    have hl' : (k.locate types t).2.isSome := by
      rw [locate_snd, hm]
      rw [hm] at hl
      exact hl
    exact isSome_nearest_mono ht (fun _ => id) (h t hl')

theorem locate_register (k : Catalog) (types : TypeTable) (d : Descriptor) (t : TypeId) :
    ((k.register d).locate types t).2 = (k.register d).nearest types t := by
  rw [locate_snd, register, Std.ExtTreeMap.getElem?_empty, Option.getD_none]

end Catalog

namespace Machine

variable {c c' : Machine}

/-- The second machine is the first one later on: it serves members in the same way, and describes all
that the first one describes. -/
structure Describes (c c' : Machine) : Prop where
  responder : c'.bridge.responder = c.bridge.responder
  faithful : c.bridge.catalog.Faithful c.types → c'.bridge.catalog.Faithful c'.types
  located : c.bridge.catalog.Faithful c.types →
    ∀ t, (c.locate t).2.isSome → (c'.locate t).2.isSome

theorem Alike.describes (h : c.Alike c') : c.Describes c' where
  responder := h.responder
  faithful hf := by
    rw [h.types]
    exact hf.alike h.catalog
  located _ t ht := by
    rw [locate, h.types, h.catalog.locate]
    exact ht

theorem describes_outside {o : Outside} (h : c.types.Extends o.host.types) :
    c.Describes ⟨c.bridge, o⟩ where
  responder := rfl
  faithful hf := hf.extends h
  located _ _ ht := Catalog.isSome_locate_extends h ht

theorem describes_register (c : Machine) (d : Descriptor) : c.Describes (c.register d) where
  responder := rfl
  faithful _ := Catalog.faithful_of_memo rfl _
  located hf t ht := by
    have hn := Catalog.isSome_nearest_register d (hf t ht)
    rwa [← Catalog.locate_register] at hn

end Machine

theorem Action.describes_run {s : Scope} (h : s.Sound) (a : Action) :
    s.machine.Describes (a.run s).1.machine := by
  rcases run_cases h a with ⟨hq, -⟩ | ⟨n, rfl⟩ | rfl | ⟨b, handedOver, name, rfl, -, he⟩ |
    ⟨e, s', v, rfl, hq, he⟩ | ⟨t, rfl⟩
  · exact hq.machine.alike.describes
  · exact (s.machine.toggles_applyNotification n).alike.describes
  · exact (Machine.alike_catchUp h.machine).describes
  · rw [he, machine_afterValue]
    exact (Machine.alike_wrap h.machine b handedOver).describes
  · rw [he]
    exact (hq.machine.alike.trans (Machine.alike_dismiss hq.sound.machine v)).describes
  · exact Machine.describes_outside (HostStep.grows_run _ t).types

namespace World

variable {w : World} {m : Move} {name : String} {c c' : Machine}

theorem describes_tends {t : Step} (h : c.Sound) (ht : Tends c t c') : c.Describes c' := by
  cases ht with
  | catchUp name => exact (Machine.alike_catchUp h).describes
  | collect name => exact (Machine.alike_collect h).describes
  | unstash name stash =>
    have hk : c.Alike (c.setMemory (c.memory.unroot stash).1) := ⟨rfl, rfl, .refl _ _, .refl _⟩
    exact hk.describes
  | register name d => exact c.describes_register d
  | catalog name q => exact (Machine.recalls_catalogStep c q).alike.describes

/-- The catalogs of all bridges are faithful. -/
def Faithful (w : World) : Prop :=
  ∀ name c, w.session.machine? name = some c → c.bridge.catalog.Faithful c.types

/-- Bridges that are left alone stay faithful. -/
theorem Faithful.of_sub {w' : World} (hf : w.Faithful)
    (ht : w.session.outside.host.types.Extends w'.session.outside.host.types)
    (hs : ∀ (n : String) (b : Bridge), w'.session.bridges[n]? = some b →
      b.catalog.Faithful w'.session.outside.host.types ∨ w.session.bridges[n]? = some b) :
    w'.Faithful := by
  intro n x hx
  obtain ⟨b, hb, rfl⟩ := Option.map_eq_some_iff.1 hx
  rcases hs n b hb with hb' | hb'
  · exact hb'
  · exact (hf n _ (Option.map_eq_some_iff.2 ⟨b, hb', rfl⟩)).extends ht

theorem Faithful.put {w' : World} (hf : w.Faithful) (hc : w.session.machine? name = some c)
    (hd : c.Describes c') (ht : c.types.Extends c'.types)
    (hw : w'.session = w.session.put name c') : w'.Faithful := by
  rw [Machine.types, Session.outside_of_machine? hc] at ht
  refine hf.of_sub (hw ▸ ht) fun n b hb => ?_
  rw [hw] at hb ⊢
  by_cases hn : n = name
  · subst hn
    cases (Std.ExtTreeMap.getElem?_insert_self.symm.trans hb : some c'.bridge = some b)
    exact .inl (hd.faithful (hf n c hc))
  · refine .inr ?_
    simp only [Session.put] at hb
    grind

theorem faithful_next (h : w.Sound) (hf : w.Faithful) (m : Move) : (w.next m).Faithful := by
  have hb := w.becomes_next m
  generalize w.next m = w' at hb
  cases hb with
  | idle => exact hf
  | enter hc =>
    have hk := Machine.alike_catchUp (h.machine hc)
    exact hf.put hc hk.describes (hk.types ▸ .refl _) rfl
  | act action hs =>
    have hsc := h.scope hs
    exact hf.put (machine?_of_scope? hs) (Action.describes_run hsc action)
      (Action.run_spec hsc action).grows.types rfl
  | leave hs =>
    have hk := Machine.alike_leave (h.scope hs).machine
    exact hf.put (machine?_of_scope? hs) hk.describes (hk.types ▸ .refl _) rfl
  | tend hn hc hv ht =>
    exact hf.put hc (describes_tends (h.machine hc) ht)
      (Sound.tends (h.machine hc) ht).2.1.grows.types rfl
  | @«open» name settings responder ancestorsOnly hn =>
    refine hf.of_sub (.refl _) fun n b hb => ?_
    by_cases hname : n = name
    · subst hname
      cases (Std.ExtTreeMap.getElem?_insert_self.symm.trans hb : some _ = some b)
      exact .inl (Catalog.faithful_of_memo rfl _)
    · exact .inr (by grind)
  | close hc hv =>
    refine hf.of_sub ?_ fun n b hb => .inr (by grind)
    rw [← Session.outside_of_machine? hc]
    exact (Machine.evolves_close (h.machine hc)).grows.types
  | host t => exact hf.of_sub (HostStep.grows_run _ t).types fun n b hb => .inr hb
  | reuse t floating => exact hf.of_sub (.refl _) fun n b hb => .inr hb

theorem faithful_run (ms : List Move) : (run { } ms).Faithful := by
  have hp := (along_true { } ms).preserves (P := fun w => w.Sound ∧ w.Faithful)
    (fun w m hw _ => ⟨hw.1.next m, faithful_next hw.1 hw.2 m⟩)
    ⟨sound_empty, fun name c hc => by simp [Session.machine?] at hc⟩
  exact hp.2

end World

end NativeProxies
