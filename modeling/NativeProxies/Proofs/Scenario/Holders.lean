import Mathlib.Logic.Function.Iterate
import NativeProxies.Proofs.Scenario.Standing

/-!
# Holders

The workers of the demonstration take and drop references on other threads.  Their shares make up the
whole list (`Shares.flatten_among`), so in whatever order they run, and however many there are, together
they change the references of every object once (`Scenario.Holds.exists_perm`).  While they take references
nobody is told, for the objects are not yet wrapped (`Scenario.held`); when they drop them the bridge is
told about every object (`Scenario.abandoned`).  Workers that run one after the other are one case of this
(`Scenario.holds_hold`).
-/

namespace NativeProxies

/-! ## Shares -/

namespace Shares

variable {α : Type} {xs ys : List α} {shares : List (List α)} {workers : Nat}

theorem flatten_cut {size : Nat} (hs : 0 < size) {k : Nat} (hk : xs.length ≤ k) :
    (cut size k xs).flatten = xs := by
  induction k generalizing xs with
  | zero => rw [List.length_eq_zero_iff.1 (Nat.le_zero.1 hk), cut, List.flatten_nil]
  | succ k ih =>
    cases xs with
    | nil => rfl
    | cons x xs =>
      have hl : ((x :: xs).drop size).length ≤ k := by
        rw [List.length_drop]
        omega
      rw [cut, List.flatten_cons, ih hl, List.take_append_drop]

theorem size_pos (n workers : Nat) : 0 < size n workers := Nat.le_max_right _ _

theorem flatten_among (xs : List α) (workers : Nat) : (among xs workers).flatten = xs :=
  flatten_cut (size_pos xs.length workers) (Nat.le_refl _)

/-- No worker leaves out an element of its share, or takes it twice. -/
theorem Interleaves.perm (h : Interleaves shares ys) : ys.Perm shares.flatten := by
  induction h with
  | done h => rw [List.flatten_eq_nil_iff.2 h]
  | @turn shares i x rest ys hi _ ih =>
    obtain ⟨hlt, hget⟩ := List.getElem?_eq_some_iff.1 hi
    have hsplit : shares = shares.take i ++ (x :: rest) :: shares.drop (i + 1) := by
      rw [← hget, ← List.drop_eq_getElem_cons hlt, List.take_append_drop]
    rw [List.set_eq_take_append_cons_drop, if_pos hlt, List.flatten_append, List.flatten_cons] at ih
    rw [hsplit, List.flatten_append, List.flatten_cons, List.cons_append]
    exact (ih.cons x).trans List.perm_middle.symm

theorem Interleaves.perm_of_among (h : Interleaves (among xs workers) ys) : ys.Perm xs := by
  have hp := h.perm
  rwa [flatten_among] at hp

/-- Workers whose predecessors are done may run one after the other. -/
theorem interleaves_append (done shares : List (List α)) (h : ∀ share ∈ done, share = []) :
    Interleaves (done ++ shares) shares.flatten := by
  induction shares generalizing done with
  | nil =>
    rw [List.append_nil, List.flatten_nil]
    exact .done h
  | cons share shares ih =>
    induction share with
    | nil =>
      have hdone : ∀ share ∈ done ++ [[]], share = [] := by
        intro share hshare
        rcases List.mem_append.1 hshare with hs | hs
        · exact h share hs
        · exact List.mem_singleton.1 hs
      rw [List.flatten_cons, List.nil_append, List.append_cons]
      exact ih (done ++ [[]]) hdone
    | cons x rest ih' =>
      have hi : (done ++ (x :: rest) :: shares)[done.length]? = some (x :: rest) := by
        rw [List.getElem?_append_right (Nat.le_refl _), Nat.sub_self, List.getElem?_cons_zero]
      rw [List.flatten_cons, List.cons_append]
      refine .turn hi ?_
      rw [List.set_append_right _ _ (Nat.le_refl _), Nat.sub_self, List.set_cons_zero]
      exact ih'

theorem interleaves_flatten (shares : List (List α)) : Interleaves shares shares.flatten :=
  interleaves_append [] shares nofun

end Shares

/-! ## Changing many references -/

namespace Outside

variable {o : Outside} {xs : List Address} {a : Address} {r : RefChange}

theorem changeAll_cons (o : Outside) (a : Address) (xs : List Address) (r : RefChange) :
    o.changeAll (a :: xs) r = (o.change true a r).changeAll xs r := rfl

/-- The references of an object are changed as often as the object is listed. -/
theorem counts?_changeAll (o : Outside) (xs : List Address) (r : RefChange) (a : Address) :
    (o.changeAll xs r).host.counts? a =
      (fun k : Option Counts => k.bind fun c => (c.apply r).1)^[xs.count a] (o.host.counts? a) := by
  induction xs generalizing o with
  | nil => rfl
  | cons b xs ih =>
    rw [changeAll_cons, ih, host_change]
    by_cases hb : b = a
    · rw [hb, List.count_cons_self, Function.iterate_succ_apply, Host.counts?_apply_self]
    · rw [List.count_cons_of_ne hb, Host.counts?_apply_of_ne (Ne.symm hb)]

theorem counts?_changeAll_of_not_mem (ha : a ∉ xs) (r : RefChange) :
    (o.changeAll xs r).host.counts? a = o.host.counts? a := by
  rw [counts?_changeAll, List.count_eq_zero_of_not_mem ha]
  rfl

theorem counts?_changeAll_of_mem (hd : xs.Nodup) (ha : a ∈ xs) (r : RefChange) :
    (o.changeAll xs r).host.counts? a = (o.host.counts? a).bind fun c => (c.apply r).1 := by
  rw [counts?_changeAll, List.count_eq_one_of_mem hd ha]
  rfl

theorem evolves_changeAll (o : Outside) (xs : List Address) (hr : ∀ s g, r ≠ .watch (.bridge s g)) :
    o.Evolves (o.changeAll xs r) :=
  List.foldlRecOn (motive := o.Evolves) _ _ (.refl o) fun o' h a _ =>
    h.trans (evolves_change o' true a r hr)

/-- Nobody is told about objects without watchers. -/
theorem mailboxes_changeAll_of_silent (hd : xs.Nodup)
    (hn : ∀ a ∈ xs, ((o.host.counts? a).bind fun c => (c.apply r).2) = none) :
    (o.changeAll xs r).mailboxes = o.mailboxes := by
  induction xs generalizing o with
  | nil => rfl
  | cons a xs ih =>
    rw [List.nodup_cons] at hd
    have ha : (o.change true a r).mailboxes = o.mailboxes := by
      rw [change, Host.notice_apply, hn a List.mem_cons_self]
      rfl
    rw [changeAll_cons, ih hd.2 fun b hb => ?_, ha]
    have hne : b ≠ a := fun he => hd.1 (he ▸ hb)
    rw [host_change, Host.counts?_apply_of_ne hne]
    exact hn b (List.mem_cons_of_mem _ hb)

/-- A bridge that is the only watcher of some objects is told about each of them. -/
theorem mailboxes_changeAll {s : Nat} {m : Mailbox} {g : Address → Generation} {l : Bool}
    (hd : xs.Nodup) (hm : o.mailboxes[s]? = some m)
    (hn : ∀ a ∈ xs, ((o.host.counts? a).bind fun c => (c.apply r).2) =
      some ⟨.bridge s (g a), l⟩) :
    (o.changeAll xs r).mailboxes[s]? = some
      { m with
        pending := m.pending ++ xs.map fun a => (⟨a, g a, l⟩ : Notification)
        foreign := m.foreign + .ofNat xs.length } := by
  induction xs generalizing o m with
  | nil => simpa [changeAll] using hm
  | cons a xs ih =>
    rw [List.nodup_cons] at hd
    have ha : (o.change true a r).mailboxes[s]? = some (m.post true ⟨a, g a, l⟩) := by
      rw [change, Host.notice_apply, hn a List.mem_cons_self, Option.elim_some, tell]
      simp [hm]
    rw [changeAll_cons, ih hd.2 ha fun b hb => ?_]
    · rw [List.length_cons, ofNat_succ, ← UInt64.add_assoc, List.map_cons]
      simp [Mailbox.post]
    · have hne : b ≠ a := fun he => hd.1 (he ▸ hb)
      rw [host_change, Host.counts?_apply_of_ne hne]
      exact hn b (List.mem_cons_of_mem _ hb)

end Outside

namespace Host

variable {h : Host} {xs : List Address} {a : Address}

/-- Makes several objects of a type, with a floating reference each. -/
theorem counts?_foldl_create (h : Host) (xs : List Address) (t : TypeId) (a : Address) :
    (xs.foldl (fun h a => h.create a t true) h).counts? a =
      if a ∈ xs then some (.initial true) else h.counts? a := by
  induction xs generalizing h with
  | nil => rfl
  | cons b xs ih =>
    rw [List.foldl_cons, ih]
    by_cases hb : a = b
    · subst hb
      simp [counts?_create_self]
    · simp [hb, counts?_create_of_ne hb]

theorem tag?_foldl_create (h : Host) (xs : List Address) (t : TypeId) (a : Address) :
    (xs.foldl (fun h a => h.create a t true) h).tag? a = if a ∈ xs then some t else h.tag? a := by
  induction xs generalizing h with
  | nil => rfl
  | cons b xs ih =>
    rw [List.foldl_cons, ih, tag?_create]
    by_cases hb : a = b
    · simp [hb]
    · simp [hb]

theorem types_foldl_create (h : Host) (xs : List Address) (t : TypeId) :
    (xs.foldl (fun h a => h.create a t true) h).types = h.types :=
  List.foldlRecOn (motive := fun h' : Host => h'.types = h.types) _ _ rfl fun _ hh _ _ => hh

end Host

namespace Scenario

variable {c d : Machine} {s : Settings} {xs ys : List Address} {a : Address} {g : Address → Generation}
  {r : RefChange} {workers : Nat}

/-- Workers that run one after the other go through the list in order. -/
theorem hold_eq (c : Machine) (xs : List Address) (workers : Nat) (r : RefChange) :
    hold c xs workers r = { c with outside := c.outside.changeAll xs r } := by
  rw [hold, Outside.changeAll, ← List.foldl_flatten, Shares.flatten_among]

theorem holds_hold (c : Machine) (xs : List Address) (workers : Nat) (r : RefChange) :
    Holds c xs workers r (hold c xs workers r) := by
  have hrow := Shares.interleaves_flatten (Shares.among xs workers)
  rw [Shares.flatten_among] at hrow
  exact ⟨xs, hrow, hold_eq c xs workers r⟩

/-- Together the workers go through the list in some order. -/
theorem Holds.exists_perm (h : Holds c xs workers r d) :
    ∃ ys : List Address, ys.Perm xs ∧ d = { c with outside := c.outside.changeAll ys r } := by
  obtain ⟨ys, hys, hd⟩ := h
  exact ⟨ys, hys.perm_of_among, hd⟩

theorem staged_outside (h : c.Staged s) {o : Outside} (ht : o.host.types = c.outside.host.types)
    (hm : ∃ m, o.mailboxes[c.bridge.serial]? = some m) : Machine.Staged { c with outside := o } s where
  sound := ⟨h.sound.memory, hm⟩
  isObject := by
    have ho := h.isObject
    rw [Machine.types, ← ht] at ho
    exact ho
  located := by
    have hl := h.located
    rw [Machine.locate, Machine.types, ← ht] at hl
    exact hl
  responder := h.responder
  settings := h.settings
  roots := h.roots

/-! ## Taking references -/

theorem counts?_makeAll (c : Machine) (xs : List Address) (a : Address) :
    (makeAll c xs).outside.host.counts? a =
      if a ∈ xs then some (.initial true) else c.host.counts? a :=
  c.host.counts?_foldl_create xs widget a

theorem typeOf_makeAll (ha : a ∈ xs) : (makeAll c xs).outside.host.typeOf a = widget := by
  have ht : (makeAll c xs).outside.host.tag? a = _ := c.host.tag?_foldl_create xs widget a
  rw [Host.typeOf_eq, ht, if_pos ha]
  rfl

/-- Nobody is told when references to new objects are taken. -/
theorem mailboxes_taken (hd : ys.Nodup) (hp : ys.Perm xs) :
    ((makeAll c xs).outside.changeAll ys .take).mailboxes = c.outside.mailboxes := by
  refine Outside.mailboxes_changeAll_of_silent (o := (makeAll c xs).outside) hd fun a ha => ?_
  rw [counts?_makeAll, if_pos (hp.mem_iff.1 ha)]
  rfl

theorem counts?_taken (hd : ys.Nodup) (hp : ys.Perm xs) (a : Address) :
    ((makeAll c xs).outside.changeAll ys .take).host.counts? a =
      if a ∈ xs then some ⟨2, true, []⟩ else c.host.counts? a := by
  split_ifs with ha
  · rw [Outside.counts?_changeAll_of_mem hd (hp.mem_iff.2 ha), counts?_makeAll, if_pos ha]
    rfl
  · rw [Outside.counts?_changeAll_of_not_mem (mt hp.mem_iff.1 ha), counts?_makeAll, if_neg ha]

/-- Objects that were just made, and are held by workers. -/
structure Held (c : Machine) (s : Settings) (xs : List Address) : Prop where
  staged : c.Staged s
  nodup : xs.Nodup
  standing : ∀ a, c.standing a = if a ∈ xs then .unknown 2 else .gone
  typeOf : ∀ a ∈ xs, c.host.typeOf a = widget

theorem held (h : c.Staged s) (hg : ∀ a, c.standing a = .gone) (hd : xs.Nodup)
    (ht : Holds (makeAll c xs) xs workers .take d) :
    Held d s xs ∧ d.bridge = c.bridge ∧ d.counters = c.counters := by
  obtain ⟨ys, hp, rfl⟩ := ht.exists_perm
  have hys : ys.Nodup := hp.nodup_iff.2 hd
  have hk := counts?_taken (c := c) hys hp
  have hbox := mailboxes_taken (c := c) hys hp
  have he := (makeAll c xs).outside.evolves_changeAll ys (r := .take) (by simp)
  have hm (m : Nat) : ((makeAll c xs).outside.changeAll ys .take).mailbox m = c.outside.mailbox m := by
    rw [Outside.mailbox, hbox, Outside.mailbox]
  refine ⟨⟨staged_outside h ?_ ?_, hd, fun a => ?_, fun a ha => ?_⟩, rfl, ?_⟩
  · exact he.types.trans (c.host.types_foldl_create xs widget)
  · obtain ⟨m, hm⟩ := h.sound.mailbox
    exact ⟨m, (congrArg (fun b : Map Nat Mailbox => b[c.bridge.serial]?) hbox).trans hm⟩
  · have hx := hg a
    have hb : (((makeAll c xs).outside.changeAll ys .take).mailbox c.bridge.serial).about a = [] := by
      rw [hm]
      exact congrArg Standing.waiting hx
    have hh : c.holding? a = none := congrArg Standing.entry hx
    have hs : Machine.standing { c with outside := (makeAll c xs).outside.changeAll ys .take } a =
        ⟨((makeAll c xs).outside.changeAll ys .take).host.counts? a,
          (((makeAll c xs).outside.changeAll ys .take).mailbox c.bridge.serial).about a,
          c.holding? a⟩ := rfl
    refine hs.trans ?_
    rw [hk, hb, hh, Machine.counts?_of_standing hx]
    split_ifs <;> rfl
  · exact (he.typeOf a).trans (typeOf_makeAll ha)
  · exact congrArg (fun m : Mailbox => { c.bridge.counters with foreignToggles := m.foreign })
      (hm c.bridge.serial)

/-! ## Dropping references -/

/-- When the workers let go the bridge is told about every object, in the order in which they do. -/
theorem abandoned (h : c.Staged s) (hd : xs.Nodup)
    (hw : ∀ a ∈ xs, c.standing a = .wrapped c.bridge.serial (g a) 2 true)
    (hg : ∀ a ∉ xs, c.standing a = .gone) (ht : ∀ a ∈ xs, c.host.typeOf a = widget)
    (hr : Holds c xs workers .drop d) :
    d.Staged s ∧ (∃ ys, ys.Perm xs ∧ d.Abandoned g ys) ∧
      d.counters =
        { c.counters with foreignToggles := c.counters.foreignToggles + .ofNat xs.length } := by
  obtain ⟨ys, hp, rfl⟩ := hr.exists_perm
  have hi : ∀ a, (c.standing a).waiting = [] := fun a => by
    by_cases ha : a ∈ xs
    · rw [hw a ha]
      rfl
    · rw [hg a ha]
      rfl
  have hpending := Machine.pending_eq_empty hi
  have hys : ys.Nodup := hp.nodup_iff.2 hd
  have hc {a : Address} (ha : a ∈ ys) :
      c.outside.host.counts? a = some ⟨2, false, [.bridge c.bridge.serial (g a)]⟩ :=
    Machine.counts?_of_standing (hw a (hp.mem_iff.1 ha))
  have hm := Outside.mailboxes_changeAll (r := .drop) (g := g) (l := true) hys h.sound.mailbox_eq
    fun a ha => by
      rw [hc ha]
      rfl
  have he : c.outside.Evolves (c.outside.changeAll ys .drop) := c.outside.evolves_changeAll ys (by simp)
  have hbox := Outside.mailbox_eq hm
  refine ⟨staged_outside h he.types ⟨_, hm⟩,
    ⟨ys, hp, hys, ?_, fun a ha => ?_, fun a ha => ?_, fun a ha => ?_, fun a ha => ?_⟩, ?_⟩
  · refine (congrArg (fun m : Mailbox => m.pending.toList) hbox).trans ?_
    simp [hpending]
  · refine (Outside.counts?_changeAll_of_mem hys ha _).trans ?_
    rw [hc ha]
    rfl
  · exact congrArg Standing.entry (hw a (hp.mem_iff.1 ha))
  · exact (he.typeOf a).trans (ht a (hp.mem_iff.1 ha))
  · have hx := hg a (mt hp.mem_iff.2 ha)
    exact ⟨(Outside.counts?_changeAll_of_not_mem ha _).trans (Machine.counts?_of_standing hx),
      congrArg Standing.entry hx⟩
  · rw [← hp.length_eq]
    exact congrArg (fun m : Mailbox => { c.bridge.counters with foreignToggles := m.foreign }) hbox

end Scenario

end NativeProxies
