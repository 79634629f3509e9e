import NativeProxies.Proofs.Outside

/-!
# What the watchers of an object are told

Each watcher of an object owns one of its references, and the others belong to whoever took them.
As long as nobody gives up a reference of someone else (`Owners.Fair`), the object has the counts
that its owners say (`Owners.apply_counts`).  A watcher that stays is then told exactly when its
reference becomes the last one or stops being it (`Counts.told_apply`).  So what a watcher is told
alternates, and what it was told last says whether its reference is the last one
(`Outside.alternates_run`).
-/

namespace NativeProxies

/-- A change of the references of an object, on the bridges' own thread or a foreign one. -/
structure Deal where
  object : Address
  change : RefChange
  foreign : Bool := false
deriving DecidableEq, Repr

/-- The changes of the references of one object. -/
def changesOf (a : Address) (ds : List Deal) : List RefChange :=
  ds.filterMap fun d => if d.object = a then some d.change else none

namespace Outside

/-- Makes a change. -/
def deal (o : Outside) (d : Deal) : Outside := o.change d.foreign d.object d.change

/-- Makes changes one after the other. -/
def deals (o : Outside) (ds : List Deal) : Outside := ds.foldl deal o

/-- What the changes tell a watcher about an object. -/
def notices (a : Address) (w : Watcher) : Outside → List Deal → List Bool
  | _, [] => []
  | o, d :: ds =>
    (if d.object = a then Counts.told w (o.host.apply d.object d.change).2 else none).toList ++
      (o.deal d).notices a w ds

/-- What waits for a watcher to hear about an object. -/
def heard (o : Outside) (a : Address) : Watcher → List Bool
  | .bridge s g => (o.mailbox s).pending.toList.filterMap fun n =>
      if n.object = a ∧ n.generation = g then some n.isLast else none
  | .recorder name => (o.tapes[name]?.getD #[]).toList.filterMap fun e =>
      if e.1 = a then some e.2 else none

/-- Whether there is something that keeps what a watcher is told: a bridge that was closed has no
mailbox. -/
def Hears (o : Outside) : Watcher → Prop
  | .bridge s _ => s ∈ o.mailboxes
  | .recorder _ => True

end Outside

/-! ## The owners of the references -/

/-- Who owns the references of an object. -/
structure Owners where
  /-- How many references are not owned by a watcher.  A floating one belongs to whoever made the
  object, and after that to whoever sinks it. -/
  others : Nat
  floating : Bool
  /-- The watchers of the object, with one reference each. -/
  watchers : List Watcher
deriving DecidableEq, Repr

namespace Owners

/-- Whoever made an object owns its only reference. -/
def initial (floating : Bool) : Owners := ⟨1, floating, []⟩

/-- The owners after a change. -/
def after (u : Owners) : RefChange → Owners
  | .take => { u with others := u.others + 1 }
  | .drop => { u with others := u.others - 1 }
  | .sink =>
    if u.floating then { u with floating := false } else { u with others := u.others + 1 }
  | .watch w => { u with watchers := u.watchers ++ [w] }
  | .unwatch w => { u with watchers := u.watchers.erase w }

/-- Nobody drops the reference of a watcher, and a watcher is not registered twice. -/
def Allows (u : Owners) : RefChange → Prop
  | .drop => 0 < u.others
  | .watch w => w ∉ u.watchers
  | _ => True

/-- Changes that are made as long as somebody owns a reference, and that the owners allow. -/
def Fair : Owners → List RefChange → Prop
  | _, [] => True
  | u, r :: rs => 0 < u.others + u.watchers.length ∧ u.Allows r ∧ (u.after r).Fair rs

instance (u : Owners) (r : RefChange) : Decidable (u.Allows r) :=
  match r with
  | .drop => inferInstanceAs (Decidable (0 < u.others))
  | .watch w => inferInstanceAs (Decidable (w ∉ u.watchers))
  | .take | .sink | .unwatch _ => inferInstanceAs (Decidable True)

instance decidableFair : (u : Owners) → (rs : List RefChange) → Decidable (u.Fair rs)
  | _, [] => inferInstanceAs (Decidable True)
  | u, r :: rs =>
    have := decidableFair (u.after r) rs
    inferInstanceAs (Decidable (_ ∧ _ ∧ _))

/-- The counts of an object as long as somebody owns a reference. -/
def counts (u : Owners) : Counts := ⟨u.others + u.watchers.length, u.floating, u.watchers⟩

/-- The counts of an object, none once nobody owns a reference. -/
def counts? (u : Owners) : Option Counts := if u.counts.refs = 0 then none else some u.counts

theorem counts?_eq_some {u : Owners} (hu : 0 < u.others + u.watchers.length) :
    u.counts? = some u.counts :=
  if_neg (Nat.ne_of_gt hu)

theorem counts?_initial (floating : Bool) :
    (initial floating).counts? = some (.initial floating) :=
  rfl

variable {u : Owners} {r : RefChange} {w : Watcher}

theorem counts?_of_decrement (c : Counts) (u : Owners) (hr : c.refs - 1 = u.counts.refs)
    (hf : c.floating = u.floating) (hw : c.watchers = u.watchers) :
    c.decrement.1 = u.counts? := by
  simp only [Counts.decrement, counts?, ← hr, Nat.sub_eq_zero_iff_le]
  split_ifs
  · rfl
  · rw [hr, hf, hw]
    rfl

/-- The counts go as the owners go. -/
theorem apply_counts (hu : 0 < u.others + u.watchers.length) (hr : u.Allows r) :
    (u.counts.apply r).1 = (u.after r).counts? := by
  have hinc : some { u.counts with refs := u.counts.refs + 1 } = (u.after .take).counts? := by
    rw [counts?_eq_some (by simp only [after]; omega)]
    simp only [counts, after, Nat.add_right_comm]
  cases r with
  | take => exact hinc
  | drop =>
    have hr : 0 < u.others := hr
    exact counts?_of_decrement u.counts (u.after .drop) (Nat.sub_add_comm hr) rfl rfl
  | sink =>
    rw [Counts.apply, after]
    by_cases hf : u.floating
    · rw [if_pos (show u.counts.floating from hf), if_pos hf]
      exact (counts?_eq_some (u := { u with floating := false }) hu).symm
    · rw [if_neg (show ¬u.counts.floating from hf), if_neg hf]
      exact hinc
  | watch w =>
    rw [counts?_eq_some (by simp only [after, List.length_append, List.length_singleton]; omega)]
    simp only [Counts.apply, Counts.increment, counts, after, List.length_append,
      List.length_singleton, Nat.add_assoc]
  | unwatch w =>
    rw [Counts.apply]
    by_cases hw : w ∈ u.watchers
    · have hpos := List.length_pos_of_mem hw
      have hlen := List.length_erase_of_mem hw
      rw [if_pos (show w ∈ u.counts.watchers from hw)]
      refine counts?_of_decrement _ (u.after (.unwatch w)) ?_ rfl rfl
      simp only [counts, after, hlen]
      omega
    · rw [if_neg (show w ∉ u.counts.watchers from hw), after, List.erase_of_not_mem hw]
      exact (counts?_eq_some hu).symm

theorem nodup_after (hn : u.watchers.Nodup) (hr : u.Allows r) : (u.after r).watchers.Nodup := by
  cases r with
  | watch w =>
    refine List.nodup_append.2 ⟨hn, by simp, fun v hv x hx => ?_⟩
    rw [List.mem_singleton.1 hx]
    rintro rfl
    exact hr hv
  | unwatch w => exact hn.erase w
  | sink =>
    simp only [after]
    split_ifs <;> exact hn
  | take | drop => exact hn

theorem mem_after (hw : w ∈ u.watchers) (hr : r ≠ .unwatch w) : w ∈ (u.after r).watchers := by
  cases r with
  | watch v => exact List.mem_append_left _ hw
  | unwatch v => exact (List.mem_erase_of_ne (by rintro rfl; exact hr rfl)).2 hw
  | sink =>
    simp only [after]
    split_ifs <;> exact hw
  | take | drop => exact hw

theorem not_mem_after (hw : w ∉ u.watchers) (hr : r ≠ .watch w) : w ∉ (u.after r).watchers := by
  cases r with
  | watch v =>
    intro h
    rcases List.mem_append.1 h with h | h
    · exact hw h
    · exact hr (by rw [List.mem_singleton.1 h])
  | unwatch v => exact fun h => hw (List.mem_of_mem_erase h)
  | sink =>
    simp only [after]
    split_ifs <;> exact hw
  | take | drop => exact hw

theorem fair_append {u : Owners} {rs ss : List RefChange} (h : u.Fair (rs ++ ss)) :
    u.Fair rs ∧ (rs.foldl after u).Fair ss := by
  induction rs generalizing u with
  | nil => exact ⟨trivial, h⟩
  | cons r rs ih =>
    obtain ⟨hu, hr, h⟩ := h
    exact ⟨⟨hu, hr, (ih h).1⟩, (ih h).2⟩

end Owners

/-! ## A change and its notice -/

namespace Counts

variable {c c' : Counts} {w : Watcher} {r : RefChange}

/-- Whether one reference is left. -/
def isLast (c : Counts) : Bool := decide (c.refs = 1)

/-- As long as each watcher has a reference of its own, one that stays is told exactly of the changes
after which its reference is the last one, and was not before, or the other way round. -/
theorem told_apply (hw : w ∈ c.watchers) (hl : c.watchers.length ≤ c.refs)
    (hd : r = .drop → c.watchers.length < c.refs) (hr : r ≠ .unwatch w)
    (hc : (c.apply r).1 = some c') :
    told w (c.apply r).2 = if c'.isLast = c.isLast then none else some c'.isLast := by
  have hpos := List.length_pos_of_mem hw
  have hinc : told w c.increment.2 =
      if c.increment.1.isLast = c.isLast then none else some c.increment.1.isLast := by
    rw [told_increment hw hl]
    simp only [isLast, increment]
    grind
  have hdec {d d' : Counts} (hw : w ∈ d.watchers) (hlt : d.watchers.length < d.refs)
      (hd' : d.decrement.1 = some d') :
      told w d.decrement.2 = if d'.isLast = d.isLast then none else some d'.isLast := by
    have := List.length_pos_of_mem hw
    rw [told_decrement hw hlt]
    simp only [isLast, decrement] at hd' ⊢
    grind
  cases r with
  | take | watch => cases hc; exact hinc
  | drop => exact hdec hw (hd rfl) hc
  | sink =>
    rw [apply] at hc ⊢
    by_cases hf : c.floating
    · rw [if_pos hf] at hc ⊢
      cases hc
      exact (if_pos rfl).symm
    · rw [if_neg hf] at hc ⊢
      cases hc
      exact hinc
  | unwatch v =>
    rw [apply] at hc ⊢
    by_cases hv : v ∈ c.watchers
    · have hwv : w ≠ v := by
        rintro rfl
        exact hr rfl
      have hlen := List.length_erase_of_mem hv
      have hvpos := List.length_pos_of_mem hv
      rw [if_pos hv] at hc ⊢
      exact hdec (d := { c with watchers := c.watchers.erase v })
        ((List.mem_erase_of_ne hwv).2 hw) (by show (c.watchers.erase v).length < c.refs; omega) hc
    · rw [if_neg hv] at hc ⊢
      cases hc
      exact (if_pos rfl).symm

theorem told_eq_none {x : Option Notice} (h : ∀ n, x = some n → n.watcher ≠ w) :
    told w x = none := by
  rw [told, Option.bind_eq_none_iff]
  exact fun n hn => if_neg (h n hn)

theorem told_of_not_mem (hw : w ∉ c.watchers) (r : RefChange) : told w (c.apply r).2 = none :=
  told_eq_none fun _ hn he => hw (he ▸ watcher_mem_of_apply hn)

/-- The watcher that is removed is off the list before the count goes down. -/
theorem told_unwatch (hn : c.watchers.Nodup) : told w (c.apply (.unwatch w)).2 = none := by
  rw [apply]
  split_ifs
  · exact told_eq_none fun _ h he => hn.not_mem_erase (he ▸ watcher_mem_of_decrement h)
  · rfl

end Counts

/-! ## Runs of changes -/

namespace Outside

variable {o : Outside} {a : Address} {w : Watcher} {u : Owners}

/-- The owners of an object own the references that it has. -/
structure OwnedBy (o : Outside) (a : Address) (u : Owners) : Prop where
  counts : o.host.counts? a = u.counts?
  nodup : u.watchers.Nodup

theorem deals_cons (o : Outside) (d : Deal) (ds : List Deal) :
    o.deals (d :: ds) = (o.deal d).deals ds := rfl

theorem deals_append (o : Outside) (ds es : List Deal) :
    o.deals (ds ++ es) = (o.deals ds).deals es :=
  List.foldl_append

theorem changesOf_cons (a : Address) (d : Deal) (ds : List Deal) :
    changesOf a (d :: ds) = if d.object = a then d.change :: changesOf a ds else changesOf a ds := by
  rw [changesOf, List.filterMap_cons]
  split_ifs <;> rfl

theorem OwnedBy.deal_self (h : o.OwnedBy a u) {d : Deal} (hd : d.object = a)
    (hu : 0 < u.others + u.watchers.length) (hr : u.Allows d.change) :
    (o.deal d).OwnedBy a (u.after d.change) where
  counts := by
    rw [deal, host_change, hd, Host.counts?_apply_self, h.counts, Owners.counts?_eq_some hu]
    exact Owners.apply_counts hu hr
  nodup := Owners.nodup_after h.nodup hr

theorem OwnedBy.deal_of_ne (h : o.OwnedBy a u) {d : Deal} (hd : d.object ≠ a) :
    (o.deal d).OwnedBy a u where
  counts := by rw [deal, host_change, Host.counts?_apply_of_ne (Ne.symm hd), h.counts]
  nodup := h.nodup

/-- The owners after the changes of a run. -/
theorem OwnedBy.deals {ds : List Deal} (h : o.OwnedBy a u) (hf : u.Fair (changesOf a ds)) :
    (o.deals ds).OwnedBy a ((changesOf a ds).foldl Owners.after u) := by
  induction ds generalizing o u with
  | nil => exact h
  | cons d ds ih =>
    rw [changesOf_cons] at hf ⊢
    split_ifs at hf ⊢ with hd
    · obtain ⟨hu, hr, hf⟩ := hf
      exact ih (h.deal_self hd hu hr) hf
    · exact ih (h.deal_of_ne hd) hf

/-- The owners just before a change of a run. -/
theorem OwnedBy.split {before since : List Deal} {d : Deal} (h : o.OwnedBy a u)
    (hf : u.Fair (changesOf a (before ++ d :: since))) (hd : d.object = a) :
    ∃ v : Owners, (o.deals before).OwnedBy a v ∧ 0 < v.others + v.watchers.length ∧
      v.Allows d.change ∧ (v.after d.change).Fair (changesOf a since) := by
  rw [changesOf, List.filterMap_append, ← changesOf, ← changesOf, changesOf_cons, if_pos hd] at hf
  obtain ⟨hb, hu, hr, hs⟩ := Owners.fair_append hf
  exact ⟨_, h.deals hb, hu, hr, hs⟩

/-- What a watcher is told of a change of its object. -/
theorem notice_deal (h : o.OwnedBy a u) (hu : 0 < u.others + u.watchers.length) (r : RefChange) :
    Counts.told w (o.host.apply a r).2 = Counts.told w (u.counts.apply r).2 := by
  rw [Host.notice_apply, h.counts, Owners.counts?_eq_some hu, Option.bind_some]

/-- What a watcher is told while it stays, starting with whether its reference is the last one,
alternates.  It ends with whether its reference is the last one then. -/
theorem OwnedBy.notices (ds : List Deal) (h : o.OwnedBy a u) (hf : u.Fair (changesOf a ds))
    (hw : w ∈ u.watchers) (hs : .unwatch w ∉ changesOf a ds) :
    (u.counts.isLast :: o.notices a w ds).IsChain (· ≠ ·) ∧
      (o.notices a w ds).getLastD u.counts.isLast = decide ((o.deals ds).host.refs a = 1) := by
  have hpos : 0 < u.others + u.watchers.length := by
    have := List.length_pos_of_mem hw
    omega
  induction ds generalizing o u with
  | nil =>
    refine ⟨List.IsChain.singleton _, ?_⟩
    rw [Host.refs, show o.deals [] = o from rfl, h.counts, Owners.counts?_eq_some hpos]
    rfl
  | cons d ds ih =>
    rw [deals_cons, Outside.notices]
    rw [changesOf_cons] at hf hs
    by_cases hd : d.object = a
    · rw [if_pos hd] at hf hs ⊢
      obtain ⟨hu, hr, hf⟩ := hf
      have hne : d.change ≠ .unwatch w := fun he => hs (he ▸ List.mem_cons_self)
      have hw' := Owners.mem_after hw hne
      have hpos' : 0 < (u.after d.change).others + (u.after d.change).watchers.length := by
        have := List.length_pos_of_mem hw'
        omega
      obtain ⟨hchain, hlast⟩ := ih (h.deal_self hd hu hr) hf hw'
        (fun hm => hs (List.mem_cons_of_mem _ hm)) hpos'
      have hdrop : d.change = .drop → u.counts.watchers.length < u.counts.refs := fun he => by
        have hr : 0 < u.others := by simpa [he, Owners.Allows] using hr
        show u.watchers.length < u.others + u.watchers.length
        omega
      have htold := Counts.told_apply (c := u.counts) hw (Nat.le_add_left _ _) hdrop hne
        ((Owners.apply_counts hu hr).trans (Owners.counts?_eq_some hpos'))
      rw [hd, notice_deal h hu, htold]
      by_cases he : (u.after d.change).counts.isLast = u.counts.isLast
      · rw [if_pos he]
        rw [he] at hchain hlast
        exact ⟨hchain, hlast⟩
      · rw [if_neg he]
        refine ⟨List.isChain_cons_cons.2 ⟨Ne.symm he, hchain⟩, ?_⟩
        rw [Option.toList_some, List.singleton_append, List.getLastD_cons]
        exact hlast
    · rw [if_neg hd] at hf hs ⊢
      exact ih (h.deal_of_ne hd) hf hw hs hpos

/-- A watcher that is not there, and stays away, is told nothing. -/
theorem OwnedBy.notices_eq_nil (ds : List Deal) (h : o.OwnedBy a u)
    (hf : u.Fair (changesOf a ds)) (hw : w ∉ u.watchers) (hs : .watch w ∉ changesOf a ds) :
    o.notices a w ds = [] := by
  induction ds generalizing o u with
  | nil => rfl
  | cons d ds ih =>
    rw [Outside.notices]
    rw [changesOf_cons] at hf hs
    by_cases hd : d.object = a
    · rw [if_pos hd] at hf hs ⊢
      obtain ⟨hu, hr, hf⟩ := hf
      have hne : d.change ≠ .watch w := fun he => hs (he ▸ List.mem_cons_self)
      rw [hd, notice_deal h hu, Counts.told_of_not_mem (c := u.counts) hw, Option.toList_none,
        List.nil_append]
      exact ih (h.deal_self hd hu hr) hf (Owners.not_mem_after hw hne)
        fun hm => hs (List.mem_cons_of_mem _ hm)
    · rw [if_neg hd] at hf hs ⊢
      exact ih (h.deal_of_ne hd) hf hw hs

/-! ## What is told arrives -/

theorem hears_deal (h : o.Hears w) (d : Deal) : (o.deal d).Hears w := by
  cases w with
  | recorder name => trivial
  | bridge s g =>
    have hi := issued_change o d.foreign d.object d.change s
    simp only [Hears, Std.ExtTreeMap.mem_iff_isSome_getElem?] at h ⊢
    rw [deal, ← Option.isSome_map, hi, Option.isSome_map]
    exact h

theorem heard_tell (h : o.Hears w) (foreign : Bool) (b : Address) (n : Notice) :
    (o.tell foreign b n).heard a w =
      o.heard a w ++ (if b = a then Counts.told w (some n) else none).toList := by
  obtain ⟨v, isLast⟩ := n
  simp only [Counts.told, Option.bind_some]
  cases v with
  | recorder name =>
    cases w with
    | recorder name' =>
      by_cases hn : name = name'
      · subst hn
        by_cases hb : b = a <;> simp [tell, heard, hb]
      · simp [tell, heard, hn, Std.ExtTreeMap.getElem?_alter]
    | bridge s g => simp [tell, heard, mailbox]
  | bridge s g =>
    cases w with
    | recorder name => simp [tell, heard]
    | bridge s' g' =>
      by_cases hs : s = s'
      · subst hs
        obtain ⟨m, hm⟩ := Option.isSome_iff_exists.1
          (Std.ExtTreeMap.mem_iff_isSome_getElem?.1 (show s ∈ o.mailboxes from h))
        by_cases hb : b = a <;> by_cases hg : g = g' <;>
          simp [tell, heard, mailbox, Mailbox.post, hm, hb, hg]
      · simp [tell, heard, mailbox, hs, Std.ExtTreeMap.getElem?_modify]

theorem heard_deal (h : o.Hears w) (d : Deal) :
    (o.deal d).heard a w = o.heard a w ++
      (if d.object = a then Counts.told w (o.host.apply d.object d.change).2 else none).toList := by
  have hh : ({ o with host := (o.host.apply d.object d.change).1 } : Outside).Hears w := by
    cases w <;> exact h
  have heq : ({ o with host := (o.host.apply d.object d.change).1 } : Outside).heard a w =
      o.heard a w := by
    cases w <;> rfl
  rw [deal, change]
  cases (o.host.apply d.object d.change).2 with
  | none =>
    rw [show Counts.told w none = none from rfl, ite_self]
    exact heq.trans (List.append_nil _).symm
  | some n => rw [Option.elim_some, heard_tell hh, heq]

/-- What a watcher hears is what it is told. -/
theorem heard_deals (ds : List Deal) (h : o.Hears w) :
    (o.deals ds).heard a w = o.heard a w ++ o.notices a w ds := by
  induction ds generalizing o with
  | nil => exact (List.append_nil _).symm
  | cons d ds ih => rw [deals_cons, ih (hears_deal h d), heard_deal h d, notices, List.append_assoc]

/-! ## The notices of a watcher -/

/-- Of a new object with fair owners, whatever else happens to other objects.  From its registration
to its removal a watcher is told alternately that its reference became the last one and that it no
longer is, and was told the former last, and not nothing, exactly when there is one reference.  Once
it is removed it is told nothing.  All that it is told arrives. -/
theorem alternates_run {floating : Bool} {ds : List Deal}
    (hnew : o.host.counts? a = some (.initial floating))
    (hf : (Owners.initial floating).Fair (changesOf a ds)) :
    (∀ (before since : List Deal) (d : Deal) (w : Watcher), ds = before ++ d :: since →
      d.object = a → d.change = .watch w → .unwatch w ∉ changesOf a since →
        (false :: (o.deals before).notices a w (d :: since)).IsChain (· ≠ ·) ∧
        ((o.deals before).notices a w (d :: since)).getLastD false =
          decide ((o.deals ds).host.refs a = 1)) ∧
    (∀ (before since : List Deal) (d : Deal) (w : Watcher), ds = before ++ d :: since →
      d.object = a → d.change = .unwatch w → .watch w ∉ changesOf a since →
        (o.deals before).notices a w (d :: since) = []) ∧
    ∀ (before since : List Deal) (w : Watcher), ds = before ++ since → (o.deals before).Hears w →
      (o.deals ds).heard a w =
        (o.deals before).heard a w ++ (o.deals before).notices a w since := by
  have h : o.OwnedBy a (.initial floating) :=
    ⟨hnew.trans (Owners.counts?_initial floating).symm, List.nodup_nil⟩
  refine ⟨?_, ?_, ?_⟩
  · rintro before since d w rfl hd hw hs
    obtain ⟨u, hu, hpos, hr, hf⟩ := h.split hf hd
    have hnot : w ∉ u.watchers := by simpa [hw, Owners.Allows] using hr
    have hlast : (u.after d.change).counts.isLast = false := by
      rw [hw]
      simp only [Owners.counts, Owners.after, Counts.isLast, List.length_append,
        List.length_singleton, decide_eq_false_iff_not]
      omega
    have hnext := (hu.deal_self hd hpos hr).notices since hf (w := w)
      (by rw [hw]; exact List.mem_append_right _ (List.mem_singleton_self w)) hs
    rw [hlast] at hnext
    rw [notices, if_pos hd, hd, notice_deal hu hpos, Counts.told_of_not_mem (c := u.counts) hnot,
      Option.toList_none, List.nil_append, deals_append, deals_cons]
    exact hnext
  · rintro before since d w rfl hd hw hs
    obtain ⟨u, hu, hpos, hr, hf⟩ := h.split hf hd
    have hgone : w ∉ (u.after d.change).watchers := by
      rw [hw]
      exact fun hm => hu.nodup.not_mem_erase hm
    have hnil : Counts.told w (u.counts.apply d.change).2 = none :=
      hw ▸ Counts.told_unwatch (c := u.counts) hu.nodup
    rw [notices, if_pos hd, hd, notice_deal hu hpos, hnil, Option.toList_none, List.nil_append]
    exact (hu.deal_self hd hpos hr).notices_eq_nil since hf hgone hs
  · rintro before since w rfl hw
    rw [deals_append]
    exact heard_deals since hw

/-- An object with two watchers, of which the first one is removed. -/
def handedOn : List Deal :=
  [⟨.nth 0, .watch (.recorder "left"), false⟩,
    ⟨.nth 0, .drop, false⟩,
    ⟨.nth 0, .take, true⟩,
    ⟨.nth 0, .watch (.recorder "right"), false⟩,
    ⟨.nth 0, .drop, true⟩,
    ⟨.nth 0, .unwatch (.recorder "left"), false⟩,
    ⟨.nth 0, .sink, false⟩,
    ⟨.nth 0, .drop, false⟩]

theorem alternates_run_handedOn :
    let o : Outside := { host := ({ } : Host).create (.nth 0) .object false }
    (false :: (o.deals (handedOn.take 3)).notices (.nth 0) (.recorder "right")
        (handedOn.drop 3)).IsChain (· ≠ ·) ∧
      (o.deals handedOn).heard (.nth 0) (.recorder "right") = [true, false, true] ∧
      (o.deals handedOn).host.refs (.nth 0) = 1 ∧
      (o.deals handedOn).heard (.nth 0) (.recorder "left") = [true, false] ∧
      (o.deals (handedOn.take 5)).notices (.nth 0) (.recorder "left") (handedOn.drop 5) = [] := by
  intro o
  have hf : (Owners.initial false).Fair (changesOf (.nth 0) handedOn) := by decide +kernel
  have ha := alternates_run (o := o) (Host.counts?_create_self _ _ _ _) hf
  have hchain := (ha.1 (handedOn.take 3) (handedOn.drop 4) _ (.recorder "right") rfl rfl rfl
    (by decide +kernel)).1
  have hgone := ha.2.1 (handedOn.take 5) (handedOn.drop 6) _ (.recorder "left") rfl rfl rfl
    (by decide +kernel)
  exact ⟨hchain, by decide +kernel, by decide +kernel, by decide +kernel, hgone⟩

end Outside

end NativeProxies
