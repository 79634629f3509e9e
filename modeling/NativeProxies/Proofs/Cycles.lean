import NativeProxies.Proofs.Ancestry

/-!
# Chains that end

Walking from a type to its parent, and so on, comes to an end if it comes to a type without a parent
(`TypeTable.Ends`).  A class may be derived from any tag, so also from one whose chain leads to the tag
that the class is about to get; then the chain runs in a circle.  Nothing else keeps a chain from
ending (`TypeTable.ends_add_iff`, `World.ends_run`).
-/

namespace NativeProxies

namespace TypeTable

variable {s s' : TypeTable} {t u p : TypeId} {k n : Nat} {ty : TypeEntry}

/-! ## Walks that stop -/

/-- The chain of parents that starts with a type comes to a type without a parent. -/
def Ends (s : TypeTable) (t : TypeId) : Prop := ∃ r, s.Derives t r ∧ s.parent? r = none

/-- The walk along the parents of a type stops: it visits nothing more when it may go on. -/
def Halts (s : TypeTable) (t : TypeId) : Prop := ∃ n, ∀ m, n ≤ m → s.ancestors m t = s.ancestors n t

theorem ancestor?_eq_none_of_le (h : s.ancestor? k t = none) (hk : k ≤ n) :
    s.ancestor? n t = none := by
  obtain ⟨d, rfl⟩ := Nat.exists_eq_add_of_le hk
  rw [ancestor?_add, h, Option.bind_none]

theorem ends_iff_ancestor? : s.Ends t ↔ ∃ k, s.ancestor? k t = none := by
  constructor
  · rintro ⟨r, hr, hp⟩
    obtain ⟨k, hk⟩ := derives_iff_ancestor?.1 hr
    refine ⟨k + 1, ?_⟩
    rw [ancestor?_add, hk, Option.bind_some, ancestor?, hp, Option.bind_none]
  · rintro ⟨k, hk⟩
    induction k generalizing t with
    | zero => cases hk
    | succ k ih =>
      cases hp : s.parent? t with
      | none => exact ⟨t, .refl, hp⟩
      | some p =>
        rw [ancestor?, hp, Option.bind_some] at hk
        obtain ⟨r, hr, he⟩ := ih hk
        exact ⟨r, .head hp hr, he⟩

theorem ancestors_eq_of_none (h : s.ancestor? k t = none) (hk : k ≤ n) :
    s.ancestors n t = s.ancestors k t := by
  induction k generalizing t n with
  | zero => cases h
  | succ k ih =>
    obtain ⟨n, rfl⟩ := Nat.exists_eq_add_one_of_ne_zero (Nat.ne_zero_of_lt hk)
    rw [ancestors, ancestors]
    cases hp : s.parent? t with
    | none => rfl
    | some p =>
      rw [ancestor?, hp, Option.bind_some] at h
      rw [Option.elim_some, Option.elim_some, ih h (Nat.le_of_succ_le_succ hk)]

/-- A chain without an end is visited as far as the walk may go. -/
theorem length_ancestors (h : ¬s.Ends t) (n : Nat) : (s.ancestors n t).length = n := by
  induction n generalizing t with
  | zero => rfl
  | succ n ih =>
    cases hp : s.parent? t with
    | none => exact absurd ⟨t, .refl, hp⟩ h
    | some p =>
      have hnot : ¬s.Ends p := by
        rintro ⟨r, hr, he⟩
        exact h ⟨r, .head hp hr, he⟩
      rw [ancestors, hp, Option.elim_some, List.length_cons, ih hnot]

theorem halts_iff_ends : s.Halts t ↔ s.Ends t := by
  constructor
  · rintro ⟨n, hn⟩
    by_contra hnot
    have hlen := congrArg List.length (hn (n + 1) (Nat.le_succ n))
    rw [length_ancestors hnot, length_ancestors hnot] at hlen
    omega
  · intro h
    obtain ⟨k, hk⟩ := ends_iff_ancestor?.1 h
    exact ⟨k, fun m hm => ancestors_eq_of_none hk hm⟩

/-- A walk that stops has stopped after as many steps as there are types. -/
theorem Ends.ancestors_eq (h : s.Ends t) (hn : s.types.size < n) :
    s.ancestors n t = s.ancestry t := by
  classical
  obtain ⟨r, hr, hp⟩ := h
  have hex : ∃ k, s.ancestor? k t = some r := derives_iff_ancestor?.1 hr
  have hle : Nat.find hex ≤ s.types.size :=
    le_size_of_first (Nat.find_spec hex) fun k hk => Nat.find_min hex hk
  have hnone : s.ancestor? (s.types.size + 1) t = none := by
    apply ancestor?_eq_none_of_le (k := Nat.find hex + 1) _ (Nat.succ_le_succ hle)
    rw [ancestor?_add, Nat.find_spec hex, Option.bind_some, ancestor?, hp, Option.bind_none]
  exact ancestors_eq_of_none hnone hn

/-- What lies on a circle has no end before it. -/
theorem not_ends_of_derives (hp : s.parent? t = some p) (hd : s.Derives p t) : ¬s.Ends t := by
  have hround : ∀ u, s.Derives t u → ∃ q, s.parent? u = some q ∧ s.Derives q t := by
    intro u hu
    induction hu with
    | refl => exact ⟨p, hp, hd⟩
    | tail _ hv ih =>
      obtain ⟨q, hq, hqt⟩ := ih
      cases hq.symm.trans hv
      rcases hqt.cases_head with rfl | ⟨w, hw, hwt⟩
      · exact ⟨p, hp, hd⟩
      · exact ⟨w, hw, hwt⟩
  rintro ⟨r, hr, he⟩
  obtain ⟨q, hq, -⟩ := hround r hr
  cases he.symm.trans hq

/-! ## Definitions -/

theorem Extends.ancestor? (h : s.Extends s') (ht : s.ancestor? k t = some u) :
    s'.ancestor? k t = some u := by
  induction k generalizing t with
  | zero => exact ht
  | succ k ih =>
    obtain ⟨p, hp, hu⟩ := Option.bind_eq_some_iff.1 ht
    have hp' : s'.parent? t = some p := by
      rw [h.parent? t (isSome_get?_iff.2 (index_lt_of_parent? hp)), hp]
    rw [TypeTable.ancestor?, hp', Option.bind_some, ih hu]

/-- A chain without an end never gets one. -/
theorem Extends.ends (h : s.Extends s') (ht : s'.Ends t) : s.Ends t := by
  obtain ⟨k, hk⟩ := ends_iff_ancestor?.1 ht
  refine ends_iff_ancestor?.2 ⟨k, ?_⟩
  cases hu : s.ancestor? k t with
  | none => rfl
  | some u => cases hk.symm.trans (h.ancestor? hu)

theorem ends_congr (h : s'.parent? = s.parent?) : s'.Ends t ↔ s.Ends t := by
  unfold Ends Derives
  rw [h]

/-- Where all chains end, a new type leaves it at that if and only if the chain of its parent does not
lead to the tag that the type gets. -/
theorem ends_add_iff (hs : ∀ t, s.Ends t) :
    (∀ t, (s.add ty).1.Ends t) ↔ ∀ p ∈ ty.parent, ¬s.Derives p ⟨s.types.size⟩ := by
  have hext := extends_add s ty
  have hnew : (s.add ty).1.parent? ⟨s.types.size⟩ = ty.parent := by
    rw [parent?, get?_add, if_pos rfl, Option.bind_some]
  constructor
  · intro h p hp hd
    exact not_ends_of_derives (hnew.trans hp) (hext.derives hd) (h ⟨s.types.size⟩)
  · intro h
    have hkeep : ∀ t, ¬s.Derives t ⟨s.types.size⟩ → (s.add ty).1.Ends t := by
      intro t ht
      obtain ⟨r, hr, hp⟩ := hs t
      have hne : r.index ≠ s.types.size := by
        intro he
        exact ht (TypeId.eq_of_index (u := ⟨s.types.size⟩) he ▸ hr)
      refine ⟨r, hext.derives hr, ?_⟩
      rw [parent?, get?_add, if_neg hne]
      exact hp
    intro t
    by_cases ht : s.Derives t ⟨s.types.size⟩
    · cases hp : ty.parent with
      | none => exact ⟨⟨s.types.size⟩, hext.derives ht, hnew.trans hp⟩
      | some p =>
        obtain ⟨r, hr, he⟩ := hkeep p (h p hp)
        exact ⟨r, (hext.derives ht).trans (.head (hnew.trans hp) hr), he⟩
    · exact hkeep t ht

theorem Grounded.ends (hs : s.Grounded) (t : TypeId) : s.Ends t :=
  ⟨s.fundamental t, hs.derives_fundamental t⟩

end TypeTable

namespace HostStep

/-- No class is derived from a type whose chain leads to the tag that the class gets. -/
def Acyclic (s : TypeTable) : HostStep → Prop
  | addClass _ parent => ¬s.Derives parent ⟨s.types.size⟩
  | _ => True

theorem ends_develop_iff {s : TypeTable} (hs : ∀ t, s.Ends t) (h : HostStep) :
    (∀ t, (h.develop s).Ends t) ↔ h.Acyclic s := by
  cases h with
  | addClass name parent =>
    rw [develop, TypeTable.addClass, TypeTable.ends_add_iff hs]
    exact ⟨fun h => h parent rfl, fun h p hp => Option.some.inj hp ▸ h⟩
  | addFundamental name functions =>
    exact iff_of_true ((TypeTable.ends_add_iff hs).2 fun p hp => by cases hp) trivial
  | addInterface name =>
    exact iff_of_true ((TypeTable.ends_add_iff hs).2 fun p hp => by cases hp) trivial
  | addConformance t i =>
    have hp := TypeTable.parent?_modify (f := fun ty => { ty with interfaces := ty.interfaces ++ [i] })
      (by intro ty; rfl) s t
    exact iff_of_true (fun u => (TypeTable.ends_congr hp).2 (hs u)) trivial
  | setFunctions t functions =>
    have hp := TypeTable.parent?_modify (f := fun ty => { ty with functions := some functions })
      (by intro ty; rfl) s t
    exact iff_of_true (fun u => (TypeTable.ends_congr hp).2 (hs u)) trivial
  | _ => exact iff_of_true hs trivial

end HostStep

namespace World

variable {w : World} {m : Move} {ms : List Move} {t : TypeId}

/-- The step on the host that a move carries out, if it is possible. -/
def hostStep? (w : World) : Move → Option HostStep
  | .act name (.host h) => (w.scope? name).map fun _ => h
  | m => m.hostStep?

theorem types_next_eq (h : w.Sound) (m : Move) :
    (w.next m).session.outside.host.types =
      (w.hostStep? m).elim w.session.outside.host.types
        (·.develop w.session.outside.host.types) := by
  have hnone : m.hostStep? = none → (w.next m).session.outside.host.types =
      w.session.outside.host.types := by
    intro hm
    rcases types_next h m with he | ⟨t, ht, -⟩
    · exact he
    · cases hm.symm.trans ht
  cases m with
  | act name a =>
    cases a with
    | host t =>
      cases hs : w.scope? name with
      | none => simp [hostStep?, next, hs]
      | some s =>
        rw [next_act hs, hostStep?, hs, Option.map_some, Option.elim_some,
          ← Session.outside_of_machine? (machine?_of_scope? hs)]
        exact HostStep.types_run s.machine.outside t
    | _ => exact hnone rfl
  | step t =>
    cases t with
    | host t => exact HostStep.types_run w.session.outside t
    | _ => exact hnone rfl
  | _ => exact hnone rfl

/-- A class that a move defines is not derived from a type whose chain leads to the tag of the class. -/
def Acyclic (w : World) (m : Move) : Prop :=
  ∀ h ∈ w.hostStep? m, h.Acyclic w.session.outside.host.types

theorem ends_next_iff (h : w.Sound) (hs : ∀ t, w.session.outside.host.types.Ends t) (m : Move) :
    (∀ t, (w.next m).session.outside.host.types.Ends t) ↔ w.Acyclic m := by
  unfold Acyclic
  rw [types_next_eq h m]
  cases w.hostStep? m with
  | none => exact iff_of_true hs fun t ht => by cases ht
  | some t =>
    rw [Option.elim_some, HostStep.ends_develop_iff hs]
    exact ⟨fun ha u hu => Option.some.inj hu ▸ ha, fun ha => ha t rfl⟩

theorem forall_ends_run_iff (h : w.Sound) (hs : ∀ t, w.session.outside.host.types.Ends t)
    (ms : List Move) :
    (∀ t, (run w ms).session.outside.host.types.Ends t) ↔ Along Acyclic w ms := by
  induction ms generalizing w with
  | nil => exact iff_of_true hs trivial
  | cons m ms ih =>
    constructor
    · intro hends
      have hnext : ∀ t, (w.next m).session.outside.host.types.Ends t :=
        fun t => (extends_run (h.next m) ms).ends (hends t)
      exact ⟨(ends_next_iff h hs m).1 hnext, (ih (h.next m) hnext).1 hends⟩
    · rintro ⟨hm, hms⟩
      exact (ih (h.next m) ((ends_next_iff h hs m).2 hm)).2 hms

/-- After any definitions, the chain of every tag ends if and only if no class was derived from a type whose
chain led to the tag of the class; it does if classes were derived from defined types only.  A chain ends
if and only if the walk along it stops, and then the walk has stopped after as many steps as there are
types. -/
theorem ends_run (ms : List Move) :
    let s := (run { } ms).session.outside.host.types
    ((∀ t, s.Ends t) ↔ Along Acyclic { } ms) ∧ (Along Founded { } ms → ∀ t, s.Ends t) ∧
      (∀ t, s.Ends t ↔ s.Halts t) ∧
      ∀ t, s.Ends t → ∀ n, s.types.size < n → s.ancestors n t = s.ancestry t := by
  intro s
  refine ⟨forall_ends_run_iff sound_empty TypeTable.grounded_initial.ends ms,
    fun h => (grounded_run h).ends, fun t => TypeTable.halts_iff_ends.symm, fun t ht n hn => ?_⟩
  exact ht.ancestors_eq hn

/-- A class is derived from the tag that it gets itself. -/
def looped : List Move := [.step (.host (.addClass "Loop" ⟨1⟩))]

/-- The chain of a class that is its own parent has no end. -/
theorem not_ends_looped : ¬(run { } looped).session.outside.host.types.Ends ⟨1⟩ := by
  have hp : (run { } looped).session.outside.host.types.parent? ⟨1⟩ = some ⟨1⟩ := by decide +kernel
  exact TypeTable.not_ends_of_derives hp .refl

end World

end NativeProxies
