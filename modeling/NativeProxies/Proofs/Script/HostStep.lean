import Mathlib.Logic.Relation
import NativeProxies.Proofs.Outside
import NativeProxies.Proofs.Run

/-!
# Steps on the host

A step on the host defines a type, makes an instance or changes references.  Types stay what they
were defined as (`TypeTable.Extends`), and so do the tags of instances.  For the account of an object
a step is a row of deeds, if it gives up owned references only (`HostStep.deeds_run`).
-/

namespace NativeProxies

namespace TypeTable

variable {s s' s₁ s₂ : TypeTable} {t : TypeId}

/-- What was defined is still defined, with the same fundamental type and the same parent. -/
structure Extends (s s' : TypeTable) : Prop where
  defined : ∀ t, (s.get? t).isSome → (s'.get? t).isSome
  fundamental : ∀ t, (s.get? t).isSome → s'.fundamental t = s.fundamental t
  parent? : ∀ t, (s.get? t).isSome → s'.parent? t = s.parent? t
  size_le : s.types.size ≤ s'.types.size

theorem Extends.refl (s : TypeTable) : s.Extends s :=
  ⟨fun _ => id, fun _ _ => rfl, fun _ _ => rfl, Nat.le_refl _⟩

theorem Extends.trans (h₁ : s.Extends s₁) (h₂ : s₁.Extends s₂) : s.Extends s₂ where
  defined t := h₂.defined t ∘ h₁.defined t
  fundamental t ht := (h₂.fundamental t (h₁.defined t ht)).trans (h₁.fundamental t ht)
  parent? t ht := (h₂.parent? t (h₁.defined t ht)).trans (h₁.parent? t ht)
  size_le := h₁.size_le.trans h₂.size_le

theorem Extends.isObject (h : s.Extends s') (ht : (s.get? t).isSome) :
    s'.isObject t = s.isObject t := by
  rw [TypeTable.isObject, TypeTable.isObject, h.fundamental t ht]

/-- A type of the base kind is defined if the base kind is. -/
theorem defined_of_isObject (ho : (s.get? .object).isSome) (ht : s.isObject t) :
    (s.get? t).isSome := by
  cases hg : s.get? t with
  | some ty => rfl
  | none =>
    have he : t = .object := by simpa [isObject, fundamental, hg] using ht
    rw [← hg, he]
    exact ho

theorem isSome_get?_iff : (s.get? t).isSome ↔ t.index < s.types.size := by
  simp [get?]

theorem get?_add (s : TypeTable) (ty : TypeEntry) (t : TypeId) :
    (s.add ty).1.get? t = if t.index = s.types.size then some ty else s.get? t := by
  unfold get? add
  exact Array.getElem?_push

theorem get?_modify (s : TypeTable) (u t : TypeId) (f : TypeEntry → TypeEntry) :
    (s.modify u f).get? t = if u.index = t.index then (s.get? t).map f else s.get? t := by
  unfold get? modify
  exact Array.getElem?_modify

theorem extends_add (s : TypeTable) (ty : TypeEntry) : s.Extends (s.add ty).1 := by
  have hg {t : TypeId} (ht : (s.get? t).isSome) : (s.add ty).1.get? t = s.get? t := by
    rw [get?_add, if_neg (isSome_get?_iff.1 ht).ne]
  refine ⟨fun t ht => hg ht ▸ ht, fun t ht => ?_, fun t ht => ?_, by simp [add]⟩
  · rw [fundamental, fundamental, hg ht]
  · rw [parent?, parent?, hg ht]

section Modify

variable {f : TypeEntry → TypeEntry}

theorem parent?_modify (hp : ∀ ty, (f ty).parent = ty.parent) (s : TypeTable) (u : TypeId) :
    (s.modify u f).parent? = s.parent? := by
  funext t
  rw [parent?, parent?, get?_modify]
  cases s.get? t <;> split_ifs <;> simp [hp]

theorem fundamental_modify (hf : ∀ ty, (f ty).fundamental = ty.fundamental) (s : TypeTable)
    (u : TypeId) : (s.modify u f).fundamental = s.fundamental := by
  funext t
  rw [fundamental, fundamental, get?_modify]
  cases s.get? t <;> split_ifs <;> simp [hf]

theorem isInterface_modify (hi : ∀ ty, (f ty).isInterface = ty.isInterface) (s : TypeTable)
    (u : TypeId) : (s.modify u f).isInterface = s.isInterface := by
  funext t
  rw [isInterface, isInterface, get?_modify]
  cases s.get? t <;> split_ifs <;> simp [hi]

theorem extends_modify (hf : ∀ ty, (f ty).fundamental = ty.fundamental)
    (hp : ∀ ty, (f ty).parent = ty.parent) (s : TypeTable) (t : TypeId) :
    s.Extends (s.modify t f) := by
  refine ⟨fun u hu => ?_, fun u _ => ?_, fun u _ => ?_, by simp [modify]⟩
  · rw [get?_modify]
    split_ifs <;> simpa using hu
  · rw [fundamental_modify hf]
  · rw [parent?_modify hp]

end Modify

end TypeTable

namespace Outside

variable {o o' o₁ o₂ : Outside} {a b : Address} {r : RefChange}

/-! ## Growth -/

/-- What any step does to what is outside. -/
structure Grows (o o' : Outside) : Prop where
  types : o.host.types.Extends o'.host.types
  issued : ∀ (s : Nat) (m : Mailbox), o.mailboxes[s]? = some m →
    ∃ m', o'.mailboxes[s]? = some m' ∧ m.nextGeneration ≤ m'.nextGeneration
  unopened : ∀ s : Nat, o.mailboxes[s]? = none → o'.mailboxes[s]? = none
  fresh : o.Fresh → o'.Fresh
  written : o.Written → o'.Written

theorem Evolves.grows (h : o.Evolves o') : o.Grows o' :=
  ⟨h.types ▸ .refl _, h.issued, h.unopened, h.fresh, h.written⟩

theorem Grows.trans (h₁ : o.Grows o₁) (h₂ : o₁.Grows o₂) : o.Grows o₂ where
  types := h₁.types.trans h₂.types
  issued s m hm := by
    obtain ⟨m₁, hm₁, hle₁⟩ := h₁.issued s m hm
    obtain ⟨m₂, hm₂, hle₂⟩ := h₂.issued s m₁ hm₁
    exact ⟨m₂, hm₂, Nat.le_trans hle₁ hle₂⟩
  unopened s := h₂.unopened s ∘ h₁.unopened s
  fresh := h₂.fresh ∘ h₁.fresh
  written := h₂.written ∘ h₁.written

theorem grows_setTypes {types : TypeTable} (h : o.host.types.Extends types) :
    o.Grows { o with host := { o.host with types } } :=
  ⟨h, fun _ m hm => ⟨m, hm, Nat.le_refl _⟩, fun _ => id, fun hf => ⟨hf.pending, hf.watching⟩,
    fun hw => hw⟩

theorem grows_create (o : Outside) (a : Address) (t : TypeId) (floating : Bool) :
    o.Grows { o with host := o.host.create a t floating } := by
  have hle (b : Address) (s : Nat) (g : Generation) :
      ((o.host.create a t floating).watchers b).count (.bridge s g) ≤
        (o.host.watchers b).count (.bridge s g) := by
    by_cases hb : b = a
    · subst hb
      simp [Host.watchers, Host.counts?_create_self, Counts.initial]
    · rw [Host.watchers, Host.counts?_create_of_ne hb, Host.watchers]
  refine ⟨.refl _, fun _ m hm => ⟨m, hm, Nat.le_refl _⟩, fun _ => id, fun hf =>
    ⟨hf.pending, fun b s g hw => hf.watching b s g ?_⟩, fun hw b s g => ?_⟩
  · exact List.count_pos_iff.1 ((List.count_pos_iff.2 hw).trans_le (hle b s g))
  · exact (Nat.add_le_add_right (hle b s g) _).trans (hw b s g)

/-! ## Changes by others -/

theorem change_of_dead (ha : o.host.isAlive a = false) (foreign : Bool) (r : RefChange) :
    o.change foreign a r = o := by
  simp [change, Host.apply, Host.counts?_of_dead ha]

theorem changeTimes_of_dead (ha : o.host.isAlive a = false) (foreign : Bool) (r : RefChange)
    (n : Nat) : o.changeTimes foreign a r n = o := by
  cases n <;> simp [changeTimes, ha]

theorem changeTimes_succ (o : Outside) (foreign : Bool) (a : Address) (r : RefChange) (n : Nat) :
    o.changeTimes foreign a r (n + 1) = (o.change foreign a r).changeTimes foreign a r n := by
  cases ha : o.host.isAlive a with
  | true => rw [changeTimes, if_pos ha]
  | false => rw [change_of_dead ha, changeTimes_of_dead ha, changeTimes_of_dead ha]

/-- A change that registers no bridge. -/
def External (r : RefChange) : Prop := ∀ s g, r ≠ .watch (.bridge s g)

/-- Changes of references, of the kinds that satisfy `P`. -/
abbrev Changes (P : RefChange → Prop) : Outside → Outside → Prop :=
  Relation.ReflTransGen fun o o' => ∃ foreign a r, P r ∧ o' = o.change foreign a r

section Changes

variable {P : RefChange → Prop}

theorem changes_change (hr : P r) (o : Outside) (foreign : Bool) (a : Address) :
    o.Changes P (o.change foreign a r) :=
  .single ⟨foreign, a, r, hr, rfl⟩

theorem changes_changeTimes (hr : P r) (o : Outside) (foreign : Bool) (a : Address) (n : Nat) :
    o.Changes P (o.changeTimes foreign a r n) := by
  induction n generalizing o with
  | zero => exact .refl
  | succ n ih => exact changeTimes_succ o foreign a r n ▸ (changes_change hr o foreign a).trans (ih _)

theorem changes_foldl (hr : P r) (o : Outside) (foreign : Bool) (objects : List Address) :
    o.Changes P (objects.foldl (fun o a => o.change foreign a r) o) :=
  List.foldlRecOn (motive := o.Changes P) _ _ .refl fun o' h a _ =>
    h.trans (changes_change hr o' foreign a)

theorem changes_stormShare (ht : P .take) (hd : P .drop) (o : Outside) (objects : List Address)
    (rounds : Nat) : o.Changes P (o.stormShare objects rounds) := by
  induction rounds generalizing o with
  | zero => exact .refl
  | succ n ih =>
    exact (changes_foldl ht o true objects).trans ((changes_foldl hd _ true objects).trans (ih _))

theorem changes_storm (ht : P .take) (hd : P .drop) (o : Outside) (objects : List Address)
    (workers rounds : Nat) : o.Changes P (o.storm objects workers rounds) :=
  List.foldlRecOn (motive := o.Changes P) _ _ .refl fun o' h share _ =>
    h.trans (changes_stormShare ht hd o' share rounds)

theorem Changes.evolves (h : o.Changes External o') : o.Evolves o' := by
  induction h with
  | refl => exact .refl o
  | @tail o₁ _ _ hr ih =>
    obtain ⟨foreign, a, r, hr, rfl⟩ := hr
    exact ih.trans (evolves_change o₁ foreign a r hr)

theorem Changes.journal_eq (h : o.Changes P o') : o'.journal = o.journal := by
  induction h with
  | refl => rfl
  | @tail o₁ _ _ hr ih =>
    obtain ⟨foreign, a, r, -, rfl⟩ := hr
    exact (journal_change o₁ foreign a r).trans ih

end Changes

theorem external_take : External .take := by simp [External]

theorem external_drop : External .drop := by simp [External]

theorem fst_ifAlive (o : Outside) (a : Address) (k : Outside × Answer) :
    (o.ifAlive a k).1 = if o.host.isAlive a then k.1 else o := by
  rw [ifAlive]
  cases ha : o.host.isAlive a with
  | false => cases o.host.instances.contains a <;> rfl
  | true => simp [Host.contains_of_isAlive ha]

theorem evolves_ifAlive {k : Outside × Answer} (h : o.Evolves k.1) (a : Address) :
    o.Evolves (o.ifAlive a k).1 := by
  rw [fst_ifAlive]
  split_ifs
  · exact h
  · exact .refl o

/-! ## The journal -/

theorem journal_ifAlive {k : Outside × Answer} (h : k.1.journal = o.journal) (a : Address) :
    (o.ifAlive a k).1.journal = o.journal := by
  rw [fst_ifAlive]
  split_ifs
  · exact h
  · rfl

/-! ## Deeds of others -/

section Deeds

variable {fair : Bool} {l : Nat} {hs : List Holding}

theorem account_changeTimes_of_ne (hb : b ≠ a) (foreign : Bool) (r : RefChange) (n : Nat) :
    (o.changeTimes foreign a r n).account b l hs = o.account b l hs := by
  induction n generalizing o with
  | zero => rfl
  | succ n ih => rw [changeTimes_succ, ih, account_change_of_ne hb]

/-- A change made several times that makes a reference loose each time. -/
theorem deeds_changeTimes (ha : o.host.isAlive a)
    (hd : ∀ x : Account, x.counts.isSome → Deed fair x (x.change r (x.loose + 1) x.holdings) ∧
      (x.change r (x.loose + 1) x.holdings).counts.isSome) (foreign : Bool) (n : Nat) :
    Deeds fair (o.account a l hs) ((o.changeTimes foreign a r n).account a (l + n) hs) := by
  induction n generalizing o l with
  | zero => exact .refl
  | succ n ih =>
    obtain ⟨hx, hc⟩ := hd (o.account a l hs) ha
    have he : (o.change foreign a r).account a (l + 1) hs =
        (o.account a l hs).change r (l + 1) hs := account_change_self o foreign a r l hs
    have ha' : (o.change foreign a r).host.isAlive a :=
      (congrArg (fun x : Account => x.counts.isSome) he).trans hc
    rw [changeTimes_succ, show l + (n + 1) = l + 1 + n by omega]
    exact .head (he ▸ hx) (ih ha')

theorem deed_change_drop (hl : 0 < l) (hf : fair → (o.account a l hs).recorded < l)
    (foreign : Bool) :
    Deed fair (o.account a l hs) ((o.change foreign a .drop).account a (l - 1) hs) := by
  rw [account_change_self o foreign a .drop l hs]
  exact .drop hf hl

theorem recorded_change_drop (o : Outside) (foreign : Bool) (a : Address) (l l' : Nat)
    (hs : List Holding) :
    ((o.change foreign a .drop).account a l' hs).recorded ≤ (o.account a l hs).recorded := by
  rw [account_change_self o foreign a .drop l hs]
  exact Account.recorded_change _ (by simp) _ _

theorem deeds_changeTimes_drop (foreign : Bool) {n : Nat} (hl : n ≤ l)
    (hf : fair → (o.account a l hs).recorded + n ≤ l) :
    Deeds fair (o.account a l hs) ((o.changeTimes foreign a .drop n).account a (l - n) hs) := by
  induction n generalizing o l with
  | zero => exact .refl
  | succ n ih =>
    have hr := recorded_change_drop o foreign a l (l - 1) hs
    rw [changeTimes_succ, Nat.add_comm, Nat.sub_add_eq]
    refine .head (deed_change_drop (by omega) (fun h => ?_) foreign) (ih (by omega) fun h => ?_)
    · have := hf h
      omega
    · have := hf h
      omega

/-! ## Storms -/

theorem account_foldl_of_dead (ha : o.host.counts? a = none) (foreign : Bool)
    (objects : List Address) (r : RefChange) (l : Nat) (hs : List Holding) :
    (objects.foldl (fun o b => o.change foreign b r) o).account a l hs = o.account a l hs := by
  induction objects generalizing o with
  | nil => rfl
  | cons b objects ih =>
    have he : (o.change foreign b r).account a l hs = o.account a l hs := by
      by_cases hb : a = b
      · rw [hb] at ha
        rw [change_of_dead (by rw [Host.isAlive, ha, Option.isSome_none])]
      · exact account_change_of_ne hb foreign r l hs
    rw [List.foldl_cons, ih ((congrArg Account.counts he).trans ha), he]

/-- Taking a reference to each of several objects makes as many references to an object loose as it
is there. -/
theorem deeds_foldl_take (ha : o.host.isAlive a) (foreign : Bool) (objects : List Address) :
    Deeds fair (o.account a l hs)
        ((objects.foldl (fun o b => o.change foreign b .take) o).account a (l + objects.count a) hs) ∧
      ∀ l', ((objects.foldl (fun o b => o.change foreign b .take) o).account a l' hs).recorded ≤
        (o.account a l hs).recorded := by
  induction objects generalizing o l with
  | nil => exact ⟨.refl, fun _ => Nat.le_refl _⟩
  | cons b objects ih =>
    rw [List.foldl_cons]
    by_cases hb : a = b
    · subst hb
      have he (l') : (o.change foreign a .take).account a l' hs =
          (o.account a l hs).change .take l' hs := account_change_self o foreign a .take l hs
      have hx : Deed fair (o.account a l hs) ((o.change foreign a .take).account a (l + 1) hs) :=
        he (l + 1) ▸ .take ha
      have ha' : (o.change foreign a .take).host.isAlive a := by
        refine (congrArg (fun x : Account => x.counts.isSome) (he l)).trans ?_
        exact Account.counts_change_take (x := o.account a l hs) ha _ _
      obtain ⟨hd, hr⟩ := ih (l := l + 1) ha'
      rw [List.count_cons_self, show l + (objects.count a + 1) = l + 1 + objects.count a by omega]
      refine ⟨.head hx hd, fun l' => (hr l').trans ?_⟩
      rw [he]
      exact Account.recorded_change _ (by simp) _ _
    · have he (l') := account_change_of_ne (o := o) hb foreign .take l' hs
      have ha' : (o.change foreign b .take).host.isAlive a :=
        (congrArg (fun x : Account => x.counts.isSome) (he l)).trans ha
      obtain ⟨hd, hr⟩ := ih (l := l) ha'
      rw [he] at hd hr
      rw [List.count_cons_of_ne (Ne.symm hb)]
      exact ⟨hd, hr⟩

/-- Dropping a reference to each of several objects. -/
theorem deeds_foldl_drop (foreign : Bool) {objects : List Address} (hl : objects.count a ≤ l)
    (hf : fair → (o.account a l hs).recorded + objects.count a ≤ l) :
    Deeds fair (o.account a l hs)
      ((objects.foldl (fun o b => o.change foreign b .drop) o).account a
        (l - objects.count a) hs) := by
  induction objects generalizing o l with
  | nil => exact .refl
  | cons b objects ih =>
    rw [List.foldl_cons]
    by_cases hb : a = b
    · subst hb
      have hr := recorded_change_drop o foreign a l (l - 1) hs
      rw [List.count_cons_self] at hl hf ⊢
      rw [Nat.add_comm, Nat.sub_add_eq]
      refine .head (deed_change_drop (by omega) (fun h => ?_) foreign) (ih (by omega) fun h => ?_)
      · have := hf h
        omega
      · have := hf h
        omega
    · have he := account_change_of_ne (o := o) hb foreign .drop l hs
      rw [List.count_cons_of_ne (Ne.symm hb)] at hl hf ⊢
      rw [← he] at hf ⊢
      exact ih hl hf

/-- A round of a storm leaves no trace in the books. -/
theorem deeds_round (hf : fair → (o.account a l hs).recorded ≤ l) (foreign : Bool)
    (objects : List Address) :
    Deeds fair (o.account a l hs)
      ((objects.foldl (fun o b => o.change foreign b .drop)
        (objects.foldl (fun o b => o.change foreign b .take) o)).account a l hs) := by
  cases hc : o.host.counts? a with
  | none =>
    have ht := account_foldl_of_dead hc foreign objects .take l hs
    rw [account_foldl_of_dead ((congrArg Account.counts ht).trans hc), ht]
  | some c =>
    have ha : o.host.isAlive a := by rw [Host.isAlive, hc, Option.isSome_some]
    obtain ⟨hd, hr⟩ := deeds_foldl_take ha foreign objects
    refine hd.trans ?_
    conv_rhs => rw [← Nat.add_sub_cancel (n := l) (m := objects.count a)]
    refine deeds_foldl_drop foreign (Nat.le_add_left _ _) fun h => ?_
    have := hr (l + objects.count a)
    have := hf h
    omega

theorem deeds_stormShare (hx : fair → (o.account a l hs).Tracked) (objects : List Address)
    (rounds : Nat) :
    Deeds fair (o.account a l hs) ((o.stormShare objects rounds).account a l hs) := by
  induction rounds generalizing o with
  | zero => exact .refl
  | succ n ih =>
    have hd := deeds_round (fun h => (hx h).recorded_le) true objects
    exact hd.trans (ih fun h => (hx h).deeds (h ▸ hd))

theorem deeds_storm (hx : fair → (o.account a l hs).Tracked) (objects : List Address)
    (workers rounds : Nat) :
    Deeds fair (o.account a l hs) ((o.storm objects workers rounds).account a l hs) :=
  List.foldlRecOn (motive := fun o' : Outside => Deeds fair (o.account a l hs) (o'.account a l hs))
    _ _ .refl
    fun _ hd share _ => hd.trans (deeds_stormShare (fun h => (hx h).deeds (h ▸ hd)) share rounds)

end Deeds

end Outside

namespace HostStep

variable {o : Outside} {a : Address}

/-- The type table after a step. -/
def develop (s : TypeTable) : HostStep → TypeTable
  | addClass name parent => (s.addClass name parent).1
  | addFundamental name functions => (s.addFundamental name functions).1
  | addInterface name => (s.addInterface name).1
  | addConformance t i => s.addConformance t i
  | setFunctions t functions => s.setFunctions t functions
  | _ => s

theorem extends_develop (s : TypeTable) (h : HostStep) : s.Extends (h.develop s) := by
  cases h with
  | addClass name parent => exact TypeTable.extends_add s _
  | addFundamental name functions => exact TypeTable.extends_add s _
  | addInterface name => exact TypeTable.extends_add s _
  | addConformance t i =>
    exact TypeTable.extends_modify (by intro ty; rfl) (by intro ty; rfl) s t
  | setFunctions t functions =>
    exact TypeTable.extends_modify (by intro ty; rfl) (by intro ty; rfl) s t
  | _ => exact .refl s

/-- A step changes references of instances or leaves them alone, makes an instance, or defines a
type. -/
theorem run_cases (o : Outside) (h : HostStep) :
    o.Evolves (h.run o).1 ∨
      (∃ a t floating, h = .create a t floating ∧ o.host.instances.contains a = false ∧
        (h.run o).1 = { o with host := o.host.create a t floating }) ∨
      (h.run o).1 = { o with host := { o.host with types := h.develop o.host.types } } := by
  cases h with
  | addClass | addFundamental | addInterface | addConformance | setFunctions =>
    exact .inr (.inr rfl)
  | create a t floating =>
    cases hc : o.host.instances.contains a with
    | true =>
      left
      rw [run, if_pos hc]
      exact .refl o
    | false =>
      refine .inr (.inl ⟨a, t, floating, rfl, hc, ?_⟩)
      rw [run, if_neg (by simp [hc])]
  | take a n foreign =>
    exact .inl (Outside.evolves_ifAlive
      (Outside.changes_changeTimes Outside.external_take o foreign a n).evolves a)
  | drop a n foreign =>
    exact .inl (Outside.evolves_ifAlive
      (Outside.changes_changeTimes Outside.external_drop o foreign a n).evolves a)
  | sink a n foreign =>
    have hr : Outside.External .sink := by simp [Outside.External]
    exact .inl (Outside.evolves_ifAlive (Outside.changes_changeTimes hr o foreign a n).evolves a)
  | watch a r =>
    have hr : Outside.External (.watch (.recorder r)) := by simp [Outside.External]
    exact .inl (Outside.evolves_ifAlive (Outside.changes_change hr o false a).evolves a)
  | unwatch a r =>
    have hr : Outside.External (.unwatch (.recorder r)) := by simp [Outside.External]
    exact .inl (Outside.evolves_ifAlive (Outside.changes_change hr o false a).evolves a)
  | storm objects workers rounds =>
    left
    rw [run]
    split
    · exact Outside.evolves_ifAlive (.refl o) _
    · exact (Outside.changes_storm Outside.external_take Outside.external_drop ..).evolves
  | tape r =>
    exact .inl ⟨rfl, fun _ => rfl, fun _ m hm => ⟨m, hm, Nat.le_refl _⟩, fun _ => id,
      fun h => ⟨h.pending, h.watching⟩, fun h => h⟩
  | classRecord a t => exact .inl (Outside.evolves_ifAlive (.refl o) a)
  | typeOf a => exact .inl (Outside.evolves_ifAlive (.refl o) a)
  | instanceSummary a =>
    left
    rw [run]
    split_ifs
    · exact .refl o
    · exact .refl o
  | typeSummary t => exact .inl (.refl o)
  | conformance t ancestor => exact .inl (.refl o)
  | nullPointer => exact .inl (.refl o)
  | totals => exact .inl (.refl o)

theorem nodes_run (o : Outside) (h : HostStep) : (h.run o).2.nodes = [] := by
  have hi (a : Address) {k : Outside × Answer} (hk : k.2.nodes = []) :
      (o.ifAlive a k).2.nodes = [] := by
    rw [Outside.ifAlive]
    split_ifs
    · rfl
    · rfl
    · exact hk
  cases h with
  | classRecord a t | typeOf a | take a n foreign | drop a n foreign | sink a n foreign
  | watch a r | unwatch a r => exact hi a rfl
  | storm objects workers rounds =>
    rw [run]
    split
    · exact hi _ rfl
    · rfl
  | create a t floating | instanceSummary a =>
    rw [run]
    split_ifs <;> rfl
  | _ => rfl

theorem grows_run (o : Outside) (h : HostStep) : o.Grows (h.run o).1 := by
  rcases run_cases o h with he | ⟨a, t, floating, -, -, he⟩ | he
  · exact he.grows
  · exact he ▸ Outside.grows_create o a t floating
  · exact he ▸ Outside.grows_setTypes (extends_develop _ h)

theorem types_run (o : Outside) (h : HostStep) :
    (h.run o).1.host.types = h.develop o.host.types := by
  have hk (hd : h.develop o.host.types = o.host.types) :
      (h.run o).1.host.types = h.develop o.host.types := by
    rcases run_cases o h with he | ⟨a, t, floating, -, -, he⟩ | he
    · exact he.types.trans hd.symm
    · exact (congrArg (fun o => o.host.types) he).trans hd.symm
    · exact congrArg (fun o => o.host.types) he
  cases h with
  | addClass | addFundamental | addInterface | addConformance | setFunctions => rfl
  | _ => exact hk rfl

/-- A step on the host is no call of a bridge. -/
theorem journal_run (o : Outside) (h : HostStep) : (h.run o).1.journal = o.journal := by
  cases h with
  | take a n foreign | drop a n foreign | sink a n foreign =>
    exact Outside.journal_ifAlive
      (Outside.changes_changeTimes (P := fun _ => True) trivial o foreign a n).journal_eq a
  | watch a r | unwatch a r => exact Outside.journal_ifAlive (Outside.journal_change o false a _) a
  | classRecord a t | typeOf a => exact Outside.journal_ifAlive (o := o) rfl a
  | storm objects workers rounds =>
    rw [run]
    split
    · exact Outside.journal_ifAlive (o := o) rfl _
    · exact (Outside.changes_storm (P := fun _ => True) trivial trivial ..).journal_eq
  | create a t floating | instanceSummary a =>
    rw [run]
    split_ifs <;> rfl
  | _ => rfl

theorem fst_run_unwatch (o : Outside) (a : Address) (r : String) :
    (run o (.unwatch a r)).1 = o.change false a (.unwatch (.recorder r)) := by
  rw [run, Outside.fst_ifAlive]
  split_ifs with ha
  · rfl
  · rw [Outside.change_of_dead (by simpa using ha)]

theorem deeds_create {fair : Bool} {l : Ledger} {hs : List Holding} (b : Address) (t : TypeId)
    (floating : Bool) (hx : (o.account a (l a) hs).Balanced) :
    Deeds fair (o.account a (l a) hs) ((run o (.create b t floating)).1.account a
      ((HostStep.create b t floating).settle o l a) hs) := by
  rw [run, settle]
  cases hc : o.host.instances.contains b with
  | true => exact .refl
  | false =>
    rw [if_neg Bool.false_ne_true, if_neg Bool.false_ne_true]
    by_cases hb : a = b
    · subst hb
      have hn : o.host.counts? a = none := by
        rw [Host.contains_instances, Option.isSome_eq_false_iff, Option.isNone_iff_eq_none] at hc
        exact Host.counts?_of_tag? hc
      have hs' : hs = [] := hx.holdings_eq_nil hn
      have he : ({ o with host := o.host.create a t floating } : Outside).account a
          (l.start a floating a) hs = ⟨some (.initial floating), o.boxes a,
            if floating then 0 else 1, hs⟩ := by
        rw [Outside.account, Host.counts?_create_self, Ledger.start_self]
        rfl
      rw [he]
      exact .single (.create floating hn hs')
    · have he : ({ o with host := o.host.create b t floating } : Outside).account a (l a) hs =
          o.account a (l a) hs := by
        rw [Outside.account, Host.counts?_create_of_ne hb]
        rfl
      rw [Ledger.start_of_ne hb, he]

/-- References that the code around the bridges takes become its own. -/
theorem deeds_credit {fair : Bool} {l : Ledger} {hs : List Holding} {b : Address} {r : RefChange}
    (hr : ∀ x : Account, x.counts.isSome → Deed fair x (x.change r (x.loose + 1) x.holdings) ∧
      (x.change r (x.loose + 1) x.holdings).counts.isSome)
    (hb : o.host.isAlive b) (foreign : Bool) (n : Nat) :
    Deeds fair (o.account a (l a) hs)
      ((o.changeTimes foreign b r n).account a (l.credit b n a) hs) := by
  by_cases he : a = b
  · subst he
    rw [Ledger.credit_self]
    exact Outside.deeds_changeTimes hb hr foreign n
  · rw [Ledger.credit_of_ne he, Outside.account_changeTimes_of_ne he]

/-- A step that gives up owned references only is a row of deeds for the account of an object.  Of
the references to an object, at least those of observers may not be dropped in a fair deed. -/
theorem deeds_run {fair : Bool} {tied : Host → Address → Nat} {l : Ledger} {hs : List Holding}
    (h : HostStep) (hx : (o.account a (l a) hs).Kept fair) (hl : h.Affords tied o l)
    (hf : fair → (o.account a (l a) hs).recorded ≤ tied o.host a) :
    Deeds fair (o.account a (l a) hs) ((h.run o).1.account a (h.settle o l a) hs) := by
  cases h with
  | create b t floating => exact deeds_create b t floating hx.balanced
  | take b n foreign =>
    rw [run, settle, Outside.fst_ifAlive]
    split_ifs with hb
    · exact deeds_credit (fun x hx => ⟨.take hx, Account.counts_change_take hx _ _⟩) hb foreign n
    · exact .refl
  | sink b n foreign =>
    rw [run, settle, Outside.fst_ifAlive]
    split_ifs with hb
    · exact deeds_credit (fun x hx => ⟨.sink hx, Account.counts_change_sink hx _ _⟩) hb foreign n
    · exact .refl
  | drop b n foreign =>
    rw [run, settle, Outside.fst_ifAlive]
    split_ifs with ha
    · have hn := hl ha
      by_cases hb : a = b
      · subst hb
        rw [Ledger.debit_self]
        refine Outside.deeds_changeTimes_drop foreign (Nat.le_of_add_left_le hn) fun h => ?_
        exact (Nat.add_le_add_right (hf h) n).trans hn
      · rw [Ledger.debit_of_ne hb, Outside.account_changeTimes_of_ne hb]
    · exact .refl
  | watch b r =>
    rw [run, settle, Outside.fst_ifAlive]
    split_ifs with ha
    · by_cases hb : a = b
      · subst hb
        rw [Ledger.credit_self, Outside.account_change_self _ _ _ _ (l a) hs]
        exact .single (.watch r ha)
      · rw [Ledger.credit_of_ne hb, Outside.account_change_of_ne hb]
    · exact .refl
  | unwatch b r =>
    rw [fst_run_unwatch, settle]
    by_cases hb : a = b
    · subst hb
      split_ifs with hr
      · rw [Ledger.debit_self, Outside.account_change_self _ _ _ _ (l a) hs]
        exact .single (.unwatch r hr (hl hr))
      · have hw := Account.change_unwatch_of_not_mem (x := o.account a (l a) hs) hr
        rw [Outside.account_change_self _ _ _ _ (l a) hs]
        exact hw.symm ▸ .refl
    · have hs' : (if .recorder r ∈ o.host.watchers b then l.debit b 1 else l) a = l a := by
        split_ifs <;> simp [hb]
      rw [hs', Outside.account_change_of_ne hb]
  | storm objects workers rounds =>
    change Deeds fair _ ((run o (.storm objects workers rounds)).1.account a (l a) hs)
    rw [run]
    split
    · rw [Outside.fst_ifAlive]
      split_ifs <;> exact .refl
    · exact Outside.deeds_storm hx.tracked objects workers rounds
  | classRecord b t =>
    change Deeds fair _ ((run o (.classRecord b t)).1.account a (l a) hs)
    rw [run, Outside.fst_ifAlive, ite_self]
  | typeOf b =>
    change Deeds fair _ ((run o (.typeOf b)).1.account a (l a) hs)
    rw [run, Outside.fst_ifAlive, ite_self]
  | instanceSummary b =>
    change Deeds fair _ ((run o (.instanceSummary b)).1.account a (l a) hs)
    rw [run]
    split_ifs <;> exact .refl
  | _ => exact .refl

end HostStep

end NativeProxies
