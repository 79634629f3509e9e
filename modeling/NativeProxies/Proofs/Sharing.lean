import NativeProxies.Proofs.Conservation
import NativeProxies.Proofs.Recording

/-!
# Sharing an object

Behind every toggle reference of an object there is a reference of its own: one that the code around the
bridges owns for each of its observers (`World.Covered`), and one for each bridge with an entry
(`World.bridged_le`).  So bridges that share an object never share a reference
(`World.length_watchers_le`).  A floating reference that is handed over to a bridge breaks this
(`World.not_length_watchers_le`): the bridge leaves it floating, and the next one that wraps the object
takes it over once more.
-/

namespace NativeProxies

/-! ## Observers -/

theorem Host.tied_create (h : Host) (a b : Address) (t : TypeId) (floating : Bool) :
    (h.create a t floating).tied b = if b = a then 0 else h.tied b := by
  split_ifs with hb
  · subst hb
    simp [Host.tied, Host.watchers, Host.counts?_create_self, Counts.initial]
  · rw [Host.tied, Host.watchers, Host.counts?_create_of_ne hb, Host.tied, Host.watchers]

namespace Outside

variable {o o' : Outside} {a b : Address} {r : RefChange}

/-- A change that adds no observer. -/
def Silent (r : RefChange) : Prop := ∀ name, r ≠ .watch (.recorder name)

theorem tied_change_of_ne (hb : b ≠ a) (o : Outside) (foreign : Bool) (r : RefChange) :
    (o.change foreign a r).host.tied b = o.host.tied b :=
  congrArg Account.recorded (account_change_of_ne (o := o) hb foreign r 0 [])

theorem tied_change_self (o : Outside) (foreign : Bool) (a : Address) (r : RefChange) :
    (o.change foreign a r).host.tied a = ((o.account a 0 []).change r 0 []).recorded :=
  congrArg Account.recorded (o.account_change_self foreign a r 0 [])

theorem tied_change_le (hr : Silent r) (o : Outside) (foreign : Bool) (a b : Address) :
    (o.change foreign a r).host.tied b ≤ o.host.tied b := by
  by_cases hb : b = a
  · subst hb
    rw [tied_change_self]
    exact Account.recorded_change (o.account b 0 []) hr 0 []
  · exact (tied_change_of_ne hb o foreign r).le

theorem Changes.tied_le (h : o.Changes Silent o') (a : Address) : o'.host.tied a ≤ o.host.tied a := by
  induction h with
  | refl => exact Nat.le_refl _
  | @tail o₁ _ _ hr ih =>
    obtain ⟨foreign, b, r, hr, rfl⟩ := hr
    exact (tied_change_le hr o₁ foreign b a).trans ih

end Outside

namespace HostStep

/-- An observer that begins to watch takes a reference of its own. -/
theorem tied_run_watch {o : Outside} {l : Ledger} {a : Address} (b : Address) (r : String)
    (hc : o.host.tied a ≤ l a) :
    (run o (.watch b r)).1.host.tied a ≤ (HostStep.watch b r).settle o l a := by
  rw [run, settle, Outside.fst_ifAlive]
  split_ifs with ha
  · by_cases hb : a = b
    · subst hb
      obtain ⟨k, hk⟩ := Option.isSome_iff_exists.1 ha
      rw [Ledger.credit_self, Outside.tied_change_self]
      exact (Account.countP_watchers_change (x := o.account a 0 []) hk _ _ 0 []).trans
        (Nat.add_le_add_right hc 1)
    · rwa [Ledger.credit_of_ne hb, Outside.tied_change_of_ne hb]
  · exact hc

/-- An observer that ceases to watch gives up its reference. -/
theorem tied_run_unwatch {o : Outside} {l : Ledger} {a : Address} (b : Address) (r : String)
    (hc : o.host.tied a ≤ l a) :
    (run o (.unwatch b r)).1.host.tied a ≤ (HostStep.unwatch b r).settle o l a := by
  rw [fst_run_unwatch, settle]
  by_cases hb : a = b
  · subst hb
    split_ifs with hr
    · obtain ⟨k, hk⟩ := Option.isSome_iff_exists.1 (Host.isAlive_of_mem_watchers hr)
      rw [Ledger.debit_self, Outside.tied_change_self]
      have hw := Account.countP_watchers_change (x := o.account a 0 []) hk (fun w => !w.isBridge)
        (.unwatch (.recorder r)) 0 []
      dsimp only at hw
      rw [if_pos ⟨hr, rfl⟩] at hw
      exact hw.trans (Nat.sub_le_sub_right hc 1)
    · exact (Outside.tied_change_le (by simp [Outside.Silent]) o false a a).trans hc
  · rw [Outside.tied_change_of_ne hb]
    split_ifs
    · rwa [Ledger.debit_of_ne hb]
    · exact hc

/-- The books go along with the observers. -/
theorem tied_run {o : Outside} {l : Ledger} {a : Address} (h : HostStep)
    (hl : h.Affords Host.tied o l) (hc : o.host.tied a ≤ l a) :
    (h.run o).1.host.tied a ≤ h.settle o l a := by
  have hsilent {r : RefChange} {b : Address} {n : Nat} {foreign : Bool} (hr : Outside.Silent r) :
      (o.changeTimes foreign b r n).host.tied a ≤ o.host.tied a :=
    (Outside.changes_changeTimes hr o foreign b n).tied_le a
  cases h with
  | create b t floating =>
    rw [run, settle]
    split_ifs with hi
    · exact hc
    · rw [Host.tied_create]
      split_ifs with hb
      · exact Nat.zero_le _
      · rwa [Ledger.start_of_ne hb]
  | take b n foreign | sink b n foreign =>
    rw [run, settle, Outside.fst_ifAlive]
    split_ifs with ha
    · refine (hsilent (by simp [Outside.Silent])).trans (hc.trans ?_)
      by_cases hb : a = b <;> simp [hb]
    · exact hc
  | drop b n foreign =>
    rw [run, settle, Outside.fst_ifAlive]
    split_ifs with ha
    · refine (hsilent (by simp [Outside.Silent])).trans ?_
      by_cases hb : a = b
      · subst hb
        rw [Ledger.debit_self]
        exact Nat.le_sub_of_add_le (hl ha)
      · rwa [Ledger.debit_of_ne hb]
    · exact hc
  | watch b r => exact tied_run_watch b r hc
  | unwatch b r => exact tied_run_unwatch b r hc
  | storm objects workers rounds =>
    change ((run o (.storm objects workers rounds)).1).host.tied a ≤ l a
    rw [run]
    split
    · rw [Outside.fst_ifAlive, ite_self]
      exact hc
    · have hs := Outside.changes_storm (P := Outside.Silent) (by simp [Outside.Silent])
        (by simp [Outside.Silent]) o objects workers rounds
      exact (hs.tied_le a).trans hc
  | classRecord b t =>
    change ((run o (.classRecord b t)).1).host.tied a ≤ l a
    rwa [run, Outside.fst_ifAlive, ite_self]
  | typeOf b =>
    change ((run o (.typeOf b)).1).host.tied a ≤ l a
    rwa [run, Outside.fst_ifAlive, ite_self]
  | instanceSummary b =>
    change ((run o (.instanceSummary b)).1).host.tied a ≤ l a
    rw [run]
    split_ifs <;> exact hc
  | _ => exact hc

end HostStep

namespace Action

variable {s : Scope} {l : Ledger} {a : Address}

theorem tied_run (h : s.Sound) (action : Action) (hl : action.Affords Host.tied s l)
    (hc : s.machine.host.tied a ≤ l a) :
    (action.run s).1.machine.host.tied a ≤ action.settle s l a := by
  have hacts {c : Machine} (hk : s.machine.Acts c) : c.host.tied a ≤ s.machine.host.tied a :=
    hk.outside.recorded_le a 0 []
  rcases run_cases h action with ⟨hq, hs⟩ | ⟨n, rfl⟩ | rfl | ⟨b, handedOver, name, rfl, hb, he⟩ |
    ⟨e, s', v, rfl, hq, he⟩ | ⟨t, rfl⟩
  · rw [hs, Machine.host, hq.machine.outside]
    exact hc
  · exact (hacts (s.machine.toggles_applyNotification n).acts).trans hc
  · exact (hacts s.machine.acts_catchUp).trans hc
  · rw [he, machine_afterValue]
    refine (hacts (Machine.acts_wrap h.machine b handedOver)).trans ?_
    cases handedOver with
    | false => exact hc
    | true =>
      obtain ⟨-, hl⟩ := hl hb
      rw [settle, if_pos hb]
      by_cases hab : a = b
      · subst hab
        rw [Ledger.debit_self]
        exact Nat.le_sub_of_add_le hl
      · rwa [Ledger.debit_of_ne hab]
  · rw [he]
    refine Nat.le_trans ((s'.machine.acts_dismiss v).outside.recorded_le a 0 []) ?_
    rw [hq.machine.outside]
    exact hc
  · exact HostStep.tied_run t hl hc

end Action

/-- The bridge and the object of a move that hands a reference over. -/
def Move.handed? : Move → Option (String × Address)
  | .act name (.wrap (some a) true _) => some (name, a)
  | _ => none

namespace World

variable {w : World} {m : Move} {name : String} {c : Machine} {a : Address}

/-- The code around the bridges owns a reference for each of its observers. -/
def Covered (w : World) : Prop := ∀ a, w.session.outside.host.tied a ≤ w.owned a

theorem covered_next (h : w.Sound) (hc : w.Covered) (hf : w.Affords Host.tied m) :
    (w.next m).Covered := by
  intro a
  have hacts {name : String} {c : Machine} {o : Outside} (hm : w.session.machine? name = some c)
      (ho : c.outside.Acts c.bridge.serial o) : o.host.tied a ≤ w.owned a := by
    rw [Session.outside_of_machine? hm] at ho
    exact (ho.recorded_le a 0 []).trans (hc a)
  have hb := w.becomes_next m
  generalize w.next m = w' at hb
  cases hb with
  | idle => exact hc a
  | @enter name c hm => exact hacts hm c.acts_catchUp.outside
  | @act name s action hs =>
    refine Action.tied_run (h.scope hs) action (hf s hs) ?_
    rw [Machine.host, Session.outside_of_machine? (machine?_of_scope? hs)]
    exact hc a
  | @leave name s hs => exact hacts (machine?_of_scope? hs) s.machine.acts_leave.outside
  | tend hn hm hv ht => exact hacts hm (acts_tends ht).outside
  | «open» => exact hc a
  | close hm hv => exact hacts hm (Machine.acts_close (h.machine hm))
  | host t => exact HostStep.tied_run t hf (hc a)
  | @reuse b t floating hdead =>
    change (w.session.outside.host.create b t floating).tied a ≤ w.owned.start b floating a
    rw [Host.tied_create]
    split_ifs with hb
    · exact Nat.zero_le _
    · rw [Ledger.start_of_ne hb]
      exact hc a

/-! ## Bridges -/

/-- A registration in the list of an object is that of an entry, and is there once. -/
theorem registered_of_mem (h : w.Sound) (hr : w.Recorded) {s : Nat} {g : Generation}
    (hm : .bridge s g ∈ w.session.outside.host.watchers a) :
    (∃ e ∈ w.session.holdings a, e.serial = s ∧ e.toggle = some g) ∧
      (w.session.outside.host.watchers a).count (.bridge s g) ≤ 1 := by
  obtain ⟨name, c, hc, rfl⟩ : ∃ name c, w.session.machine? name = some c ∧ c.bridge.serial = s := by
    by_contra hn
    exact (hr.closed s g fun name c hc hs => hn ⟨name, c, hc, hs⟩).not_mem h.written a hm
  have ho := Session.outside_of_machine? hc
  obtain ⟨b, e, he, hg⟩ : ∃ (b : Address) (e : CachedProxy), c.cache.weak[b]? = some e ∧
      e.toggle = some g := by
    by_contra hn
    have hs := (hr.machines name c hc).past g fun b e he hg => hn ⟨b, e, he, hg⟩
    exact (ho ▸ hs).not_mem h.written a hm
  have hadd := (hr.machines name c hc).current b e g he hg
  rw [ho] at hadd
  have hle := hadd.count_le h.written a
  have hpos := List.count_pos_iff.2 hm
  split_ifs at hle with hba
  · subst hba
    refine ⟨⟨⟨c.bridge.serial, e.toggle, c.cache.isStrong b⟩, ?_, rfl, hg⟩, hle⟩
    exact Session.mem_holdings.2 ⟨name, c, hc, by rw [Machine.holding?, he, Option.map_some]⟩
  · exact absurd hpos (Nat.not_lt_of_le hle)

/-- An object has no more toggle references of bridges than there are bridges with an entry for it. -/
theorem bridged_le (h : w.Sound) (hr : w.Recorded) (a : Address) :
    (w.session.outside.host.watchers a).countP Watcher.isBridge ≤ w.holders a := by
  have hmem {x : Watcher} (hx : x ∈ (w.session.outside.host.watchers a).filter Watcher.isBridge) :
      ∃ s g, x = .bridge s g ∧ .bridge s g ∈ w.session.outside.host.watchers a := by
    obtain ⟨hx, hb⟩ := List.mem_filter.1 hx
    cases x with
    | bridge s g => exact ⟨s, g, rfl, hx⟩
    | recorder name => simp [Watcher.isBridge] at hb
  have hd : ((w.session.outside.host.watchers a).filter Watcher.isBridge).Nodup := by
    refine List.nodup_iff_count_le_one.2 fun x => ?_
    by_cases hx : x ∈ (w.session.outside.host.watchers a).filter Watcher.isBridge
    · obtain ⟨s, g, rfl, hm⟩ := hmem hx
      exact (List.Sublist.count_le _ List.filter_sublist).trans (registered_of_mem h hr hm).2
    · exact (List.count_eq_zero.2 hx).le.trans (Nat.zero_le 1)
  have hs : (w.session.outside.host.watchers a).filter Watcher.isBridge ⊆
      (w.session.holdings a).filterMap fun e => e.toggle.map (.bridge e.serial) := by
    intro x hx
    obtain ⟨s, g, rfl, hm⟩ := hmem hx
    obtain ⟨⟨e, he, hes, heg⟩, -⟩ := registered_of_mem h hr hm
    exact List.mem_filterMap.2 ⟨e, he, by rw [heg, hes, Option.map_some]⟩
  rw [List.countP_eq_length_filter, ← length_holdings]
  exact (List.subperm_of_subset hd hs).length_le.trans (List.length_filterMap_le _ _)

/-! ## Runs -/

/-- The rule of the code around the bridges: it gives up owned references only, none that an observer
of its own depends on, and hands over none that floats.  References to the objects that are wrapped can
be taken and given back, as those to objects of the base kind always can. -/
def Shares (w : World) (m : Move) : Prop := w.Affords Host.tied m ∧ w.Supports m

instance (w : World) (m : Move) : Decidable (w.Shares m) := inferInstanceAs (Decidable (_ ∧ _))

/-- What every move keeps if it obeys the rule. -/
structure Shared (w : World) : Prop where
  sound : w.Sound
  base : (w.session.outside.host.types.get? .object).isSome
  kept : ∀ a, (w.account a).Kept false
  regular : w.Regular
  recorded : w.Recorded
  covered : w.Covered

theorem shared_empty : Shared { } :=
  ⟨sound_empty, rfl, kept_empty false, regular_empty, recorded_empty, fun _ => Nat.le_refl 0⟩

theorem Shared.next (hw : w.Shared) (hm : w.Shares m) : (w.next m).Shared := by
  have hspares : w.Spares m := by
    rintro a (hn | ⟨t, floating, -, hdead⟩)
    · exact (hw.kept a).balanced.holdings_eq_nil (Host.counts?_of_tag? hn)
    · exact (hw.kept a).balanced.holdings_eq_nil (Host.counts?_of_dead hdead)
  have hattached {name : String} {c : Machine} (hc : w.session.machine? name = some c) : c.Attached :=
    attached (fun a _ => (hw.kept a).balanced) hw.regular hc
  refine ⟨hw.sound.next m, (develops_next hw.sound m).extends.defined _ hw.base,
    fun a => kept_next hw.sound (hw.kept a) (hm.2.heeds hm.1 (hw.kept a)),
    regular_next hw.sound hw.base hw.regular hspares, hw.recorded.next hw.sound (fun _ _ => hattached) m,
    covered_next hw.sound hw.covered hm.1⟩

/-- After every run, an object has at least as many references as toggle references. -/
theorem length_watchers_le {ms : List Move} (h : Along Shares { } ms) (a : Address) :
    ((run { } ms).session.outside.host.watchers a).length ≤
      (run { } ms).session.outside.host.refs a := by
  have hw : (run { } ms).Shared := h.preserves (fun w m hw hm => hw.next hm) shared_empty
  have hl : ((run { } ms).session.outside.host.watchers a).length = _ :=
    ((run { } ms).account a).length_watchers
  have hr : (run { } ms).session.outside.host.refs a = _ := (hw.kept a).balanced.refs_eq
  rw [show ((run { } ms).account a).holdings.length = (run { } ms).holders a from
    length_holdings _ a] at hr
  calc ((run { } ms).session.outside.host.watchers a).length
    _ ≤ (run { } ms).owned a + (run { } ms).holders a :=
        hl.trans_le (Nat.add_le_add (hw.covered a) (bridged_le hw.sound hw.recorded a))
    _ ≤ (run { } ms).session.outside.host.refs a := hr ▸ Nat.le_add_right _ _

/-- Two bridges and an observer share an object that was floating at first, and one of the bridges gets
a reference that it does not need. -/
def watchedFloating : List Move :=
  [.step (.host (.create { value := 1 } .object true)),
   .step (.open "left" .standard .environment false),
   .step (.open "right" .standard .environment false),
   .enter "left",
   .enter "right",
   .act "left" (.wrap (some { value := 1 }) false none),
   .act "right" (.wrap (some { value := 1 }) false none),
   .step (.host (.watch { value := 1 } "observer")),
   .step (.host (.take { value := 1 } 1 false)),
   .act "right" (.wrap (some { value := 1 }) true none),
   .leave "left"]

theorem length_watchers_le_watchedFloating :
    Along Shares { } watchedFloating ∧
      ((run { } watchedFloating).session.outside.host.watchers { value := 1 }).length ≤
        (run { } watchedFloating).session.outside.host.refs { value := 1 } ∧
      ((run { } watchedFloating).session.outside.host.watchers { value := 1 }).length = 3 ∧
      (run { } watchedFloating).session.outside.host.refs { value := 1 } = 3 :=
  ⟨by decide +kernel, length_watchers_le (by decide +kernel) _, by decide +kernel, by decide +kernel⟩

/-! ## Floating references that are handed over -/

/-- A rule that lets floating references be handed over as well. -/
def Offers (w : World) (m : Move) : Prop :=
  w.Supports m ∧ (w.Affords Host.tied m ∨
    ∃ target ∈ m.handed?, w.session.outside.host.floats target.2)

instance (w : World) (m : Move) : Decidable (w.Offers m) := inferInstanceAs (Decidable (_ ∧ (_ ∨ _)))

/-- The floating reference is handed over to one bridge, and then another bridge wraps the object. -/
def handedFloating : List Move :=
  [.step (.host (.create { value := 1 } .object true)),
   .step (.open "left" .standard .environment false),
   .step (.open "right" .standard .environment false),
   .enter "left",
   .act "left" (.wrap (some { value := 1 }) true none),
   .leave "left",
   .enter "right",
   .act "right" (.wrap (some { value := 1 }) false none)]

/-- A bridge leaves a reference that it is given floating, so the next bridge takes the same one, and
two toggle references share it. -/
theorem not_length_watchers_le :
    Along Offers { } handedFloating ∧
      (run { } handedFloating).session.outside.host.watchers { value := 1 } =
        [.bridge 0 1, .bridge 1 1] ∧
      (run { } handedFloating).session.outside.host.refs { value := 1 } = 1 := by
  decide +kernel

end World

end NativeProxies
