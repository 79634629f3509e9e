import Mathlib.Data.List.Induction
import Mathlib.Data.Nat.Basic
import Mathlib.Logic.Function.Basic
import Mathlib.Logic.Relation
import Mathlib.Order.Basic
import NativeProxies.Proofs.Host.Counts

/-!
# The account of an object

Everything that matters to the references of one object, in one place: its counts, the entries that
bridges have for it, what waits for the bridges to hear about it, and how many references there are
besides those behind the entries (`Account`).  A `Deed` is the least that can happen to an account.

Two properties survive every deed.  In a balanced account every reference has one owner
(`Account.Balanced`).  A tracked account is balanced, and each bridge, once it has heard everything
that waits for it, keeps its proxy alive exactly if there is another reference
(`Account.Tracked`).  The latter asks for fair deeds: nobody lies to a bridge, and the reference of
a toggle reference goes with its watcher.
-/

namespace NativeProxies

/-- What waits for the bridges to hear about an object, by their serial numbers: registrations, and
whether their references became the last ones. -/
abbrev Boxes : Type := Nat → Option (List (Generation × Bool))

namespace Boxes

/-- Puts a notice where its watcher hears it. -/
def deliver (b : Boxes) (n : Notice) : Boxes :=
  match n.watcher with
  | .bridge s g => Function.update b s ((b s).map (· ++ [(g, n.isLast)]))
  | .recorder _ => b

end Boxes

/-- The entry of a bridge for an object. -/
structure Holding where
  serial : Nat
  toggle : Option Generation
  /-- Whether the bridge keeps the proxy alive. -/
  strong : Bool
deriving DecidableEq, Repr

namespace Holding

/-- The entry once the bridge heard what waits for it. -/
def hear (h : Holding) (box : List (Generation × Bool)) : Holding :=
  { h with strong := box.foldl (fun b e => if h.toggle = some e.1 then !e.2 else b) h.strong }

theorem hear_append (h : Holding) (box : List (Generation × Bool)) (e : Generation × Bool) :
    (h.hear (box ++ [e])).strong = if h.toggle = some e.1 then !e.2 else (h.hear box).strong := by
  simp [hear]

/-- What a bridge hears decides, or else what it believed before. -/
theorem hear_strong (h : Holding) (box : List (Generation × Bool)) (b : Bool) :
    (({ h with strong := b } : Holding).hear box).strong = (h.hear box).strong ∨
      (({ h with strong := b } : Holding).hear box).strong = b := by
  induction box using List.reverseRecOn with
  | nil => exact .inr rfl
  | append_singleton box e ih =>
    rw [hear_append, hear_append]
    split_ifs
    · exact .inl rfl
    · exact ih

theorem hear_of_forall_ne {h : Holding} {box : List (Generation × Bool)}
    (hb : ∀ e ∈ box, h.toggle ≠ some e.1) : h.hear box = h := by
  induction box with
  | nil => rfl
  | cons e box ih =>
    have := hb e List.mem_cons_self
    rw [hear, List.foldl_cons, if_neg this]
    exact ih fun e' he' => hb e' (List.mem_cons_of_mem _ he')

end Holding

/-- The references of an object and who has them. -/
structure Account where
  counts : Option Counts
  boxes : Boxes
  /-- The references besides a floating one and those behind entries of bridges. -/
  loose : Nat
  /-- The entries of the bridges. -/
  holdings : List Holding

namespace Account

def refs (x : Account) : Nat := x.counts.elim 0 Counts.refs

def floats (x : Account) : Bool := x.counts.any Counts.floating

def watchers (x : Account) : List Watcher := x.counts.elim [] Counts.watchers

def serials (x : Account) : List Nat := x.holdings.map Holding.serial

/-- How many toggle references belong to observers. -/
def recorded (x : Account) : Nat := x.watchers.countP fun w => !w.isBridge

/-- The account after a change of the references, whose notice is delivered, with the given loose
references and entries. -/
def change (x : Account) (r : RefChange) (loose : Nat) (holdings : List Holding) : Account where
  counts := x.counts.bind fun c => (c.apply r).1
  boxes := (x.counts.bind fun c => (c.apply r).2).elim x.boxes x.boxes.deliver
  loose := loose
  holdings := holdings

/-- A bridge hears what waits for it. -/
def hear (x : Account) (s : Nat) : Account :=
  { x with
    boxes := Function.update x.boxes s ((x.boxes s).map fun _ => [])
    holdings := x.holdings.map fun h => if h.serial = s then h.hear ((x.boxes s).getD []) else h }

/-- A bridge is told that the reference of a registration became the last one, or that it is no
longer. -/
def hint (x : Account) (s : Nat) (g : Generation) (isLast : Bool) : Account :=
  { x with holdings := x.holdings.map fun h => if h.serial = s then h.hear [(g, isLast)] else h }

end Account

/-- What may happen to an account.  Fair deeds are those that keep it tracked. -/
inductive Deed (fair : Bool) (x : Account) : Account → Prop
  | take : x.counts.isSome → Deed fair x (x.change .take (x.loose + 1) x.holdings)
  | sink : x.counts.isSome → Deed fair x (x.change .sink (x.loose + 1) x.holdings)
  | drop : (fair → x.recorded < x.loose) → 0 < x.loose →
    Deed fair x (x.change .drop (x.loose - 1) x.holdings)
  | watch (r : String) : x.counts.isSome →
    Deed fair x (x.change (.watch (.recorder r)) (x.loose + 1) x.holdings)
  | unwatch (r : String) : .recorder r ∈ x.watchers → 0 < x.loose →
    Deed fair x (x.change (.unwatch (.recorder r)) (x.loose - 1) x.holdings)
  /-- A bridge enters an object and watches it. -/
  | enlist (s : Nat) (g : Generation) (box : List (Generation × Bool)) : x.counts.isSome →
    s ∉ x.serials → x.boxes s = some box → (∀ e ∈ box, e.1 ≠ g) → (fair → x.floats = false) →
    Deed fair x (x.change (.watch (.bridge s g)) x.loose (⟨s, some g, true⟩ :: x.holdings))
  /-- A bridge stops to watch an object and drops its entry. -/
  | retire (s : Nat) (g : Generation) (strong : Bool) (rest : List Holding) :
    x.holdings = ⟨s, some g, strong⟩ :: rest →
    Deed fair x (x.change (.unwatch (.bridge s g)) x.loose rest)
  /-- A loose reference becomes that behind an entry without registration. -/
  | adopt (s : Nat) : fair = false → s ∉ x.serials → 0 < x.loose →
    Deed fair x { x with loose := x.loose - 1, holdings := ⟨s, none, false⟩ :: x.holdings }
  /-- The reference behind an entry becomes loose. -/
  | disown (s : Nat) (g : Option Generation) (strong : Bool) (rest : List Holding) : fair = false →
    x.holdings = ⟨s, g, strong⟩ :: rest →
    Deed fair x { x with loose := x.loose + 1, holdings := rest }
  | hear (s : Nat) : Deed fair x (x.hear s)
  | hint (s : Nat) (g : Generation) (isLast : Bool) : (fair → isLast = decide (x.refs < 2)) →
    Deed fair x (x.hint s g isLast)
  /-- A bridge is opened. -/
  | «open» (s : Nat) : s ∉ x.serials →
    Deed fair x { x with boxes := Function.update x.boxes s (some []) }
  /-- An instance is made at the address. -/
  | create (floating : Bool) : x.counts = none → x.holdings = [] →
    Deed fair x
      { x with counts := some (.initial floating), loose := if floating then 0 else 1 }

/-- Several deeds in a row. -/
abbrev Deeds (fair : Bool) : Account → Account → Prop := Relation.ReflTransGen (Deed fair)

namespace Account

variable {x y : Account} {c : Counts} {r : RefChange} {fair : Bool}

/-! ## Changes -/

/-- Nobody watches under a number, and nothing waits for it. -/
structure Unused (x : Account) (s : Nat) (g : Generation) : Prop where
  boxes : ∀ box, x.boxes s = some box → ∀ e ∈ box, e.1 ≠ g
  watchers : .bridge s g ∉ x.watchers

theorem mem_watchers_of_change {w : Watcher} {l : Nat} {hs : List Holding}
    (hw : w ∈ (x.change r l hs).watchers) : w ∈ x.watchers ∨ r = .watch w := by
  cases hc : x.counts with
  | none => simp [watchers, change, hc] at hw
  | some c =>
    cases hc' : (c.apply r).1 with
    | none => simp [watchers, change, hc, hc'] at hw
    | some c' =>
      simp only [watchers, change, hc, hc', Option.bind_some, Option.elim_some,
        Counts.watchers_apply hc'] at hw ⊢
      cases r <;> grind [List.mem_of_mem_erase]

theorem mem_box_of_change {s : Nat} {box : List (Generation × Bool)} {e : Generation × Bool}
    {l : Nat} {hs : List Holding} (hb : (x.change r l hs).boxes s = some box) (he : e ∈ box) :
    (∃ box', x.boxes s = some box' ∧ e ∈ box') ∨ .bridge s e.1 ∈ x.watchers := by
  simp only [change] at hb
  cases hn : x.counts.bind fun c => (c.apply r).2 with
  | none => exact .inl ⟨box, by simpa [hn] using hb, he⟩
  | some n =>
    obtain ⟨c, hc, hn'⟩ := Option.bind_eq_some_iff.1 hn
    have hw : n.watcher ∈ x.watchers := by
      simpa [watchers, hc] using Counts.watcher_mem_of_apply hn'
    obtain ⟨w, b⟩ := n
    rw [hn, Option.elim_some] at hb
    cases w with
    | recorder r => exact .inl ⟨box, hb, he⟩
    | bridge s' g =>
      by_cases hs' : s = s'
      · subst hs'
        simp only [Boxes.deliver, Function.update_self, Option.map_eq_some_iff] at hb
        obtain ⟨box', hb', rfl⟩ := hb
        rcases List.mem_append.1 he with he | he
        · exact .inl ⟨box', hb', he⟩
        · cases List.mem_singleton.1 he
          exact .inr hw
      · simp only [Boxes.deliver, Function.update_of_ne hs'] at hb
        exact .inl ⟨box, hb, he⟩

theorem Unused.change {s : Nat} {g : Generation} (hx : x.Unused s g)
    (hr : r ≠ .watch (.bridge s g)) (l : Nat) (hs : List Holding) :
    (x.change r l hs).Unused s g := by
  refine ⟨fun box hb e he heg => ?_, fun hw => ?_⟩
  · rcases mem_box_of_change hb he with ⟨box', hb', he⟩ | hw
    · exact hx.boxes box' hb' e he heg
    · exact hx.watchers (heg ▸ hw)
  · exact (mem_watchers_of_change hw).elim hx.watchers hr

theorem counts_change_take (hx : x.counts.isSome) (l : Nat) (hs : List Holding) :
    (x.change .take l hs).counts.isSome := by
  obtain ⟨c, hc⟩ := Option.isSome_iff_exists.1 hx
  simp [change, hc, Counts.apply]

theorem counts_change_sink (hx : x.counts.isSome) (l : Nat) (hs : List Holding) :
    (x.change .sink l hs).counts.isSome := by
  obtain ⟨c, hc⟩ := Option.isSome_iff_exists.1 hx
  simp only [change, hc, Option.bind_some, Counts.apply]
  split_ifs <;> rfl

theorem floats_change_sink (x : Account) (l : Nat) (hs : List Holding) :
    (x.change .sink l hs).floats = false := by
  cases hc : x.counts with
  | none => simp [floats, change, hc]
  | some c =>
    simp only [floats, change, hc, Option.bind_some, Counts.apply]
    split_ifs with hf
    · rfl
    · simpa [Counts.increment] using hf

theorem change_unwatch_of_not_mem {w : Watcher} (hw : w ∉ x.watchers) :
    x.change (.unwatch w) x.loose x.holdings = x := by
  obtain ⟨counts, boxes, loose, holdings⟩ := x
  cases counts with
  | none => rfl
  | some c =>
    have ha : c.apply (.unwatch w) = (some c, none) := if_neg hw
    simp [change, ha]

/-! ## Balanced accounts -/

/-- Every reference is floating, loose, or behind an entry, and the registration of every entry is
among the watchers. -/
structure Balanced (x : Account) : Prop where
  balance : Counts.Balance (x.loose + x.holdings.length) x.counts
  registered : ∀ h ∈ x.holdings, ∀ g, h.toggle = some g → .bridge h.serial g ∈ x.watchers
  distinct : x.serials.Nodup

namespace Balanced

theorem refs_eq (hx : x.Balanced) : x.refs = x.loose + x.holdings.length + x.floats.toNat := by
  have := hx.balance
  cases hc : x.counts <;> simp_all [Counts.Balance, refs, floats]

theorem counts_isSome (hx : x.Balanced) (hn : 0 < x.loose + x.holdings.length) :
    ∃ c, x.counts = some c :=
  Option.isSome_iff_exists.1 (hx.balance.isSome hn)

theorem holdings_eq_nil (hx : x.Balanced) (hc : x.counts = none) : x.holdings = [] := by
  have hb := hx.balance
  rw [hc, Counts.Balance] at hb
  exact List.eq_nil_of_length_eq_zero (by omega)

theorem of_perm (hx : x.Balanced) (hc : y.counts = x.counts) (hl : y.loose = x.loose)
    (hp : y.holdings.Perm x.holdings) : y.Balanced where
  balance := by
    rw [hc, hl, hp.length_eq]
    exact hx.balance
  registered h hh g hg := by
    rw [watchers, hc]
    exact hx.registered h (hp.mem_iff.1 hh) g hg
  distinct := (hp.map _).nodup_iff.2 hx.distinct

/-- A change keeps an account balanced if the references are counted and no watcher of an entry
that stays is removed. -/
theorem change (hx : x.Balanced) (hc : x.counts = some c) {l : Nat} {hs : List Holding}
    (hb : Counts.Balance (l + hs.length) (c.apply r).1) (hsub : hs.Sublist x.holdings)
    (hr : ∀ h ∈ hs, ∀ g, h.toggle = some g → r ≠ .unwatch (.bridge h.serial g)) :
    (x.change r l hs).Balanced where
  balance := by simpa [Account.change, hc] using hb
  registered h hh g hg := by
    have hpos : 0 < l + hs.length := Nat.add_pos_right l (List.length_pos_of_mem hh)
    obtain ⟨c', hc'⟩ := Option.isSome_iff_exists.1 (hb.isSome hpos)
    have hw : .bridge h.serial g ∈ c.watchers := by
      simpa [watchers, hc] using hx.registered h (hsub.subset hh) g hg
    simpa [watchers, Account.change, hc, hc'] using Counts.mem_watchers_apply hc' hw (hr h hh g hg)
  distinct := (hsub.map _).nodup hx.distinct

theorem hear_holdings (hx : x.Balanced) {b : Boxes} {hs : List Holding}
    (hh : hs.map (fun h => (h.serial, h.toggle)) = x.holdings.map fun h => (h.serial, h.toggle)) :
    ({ x with boxes := b, holdings := hs } : Account).Balanced where
  balance := by
    have hl : hs.length = x.holdings.length := by simpa using congrArg List.length hh
    rw [show ({ x with boxes := b, holdings := hs } : Account).holdings = hs from rfl, hl]
    exact hx.balance
  registered h hm g hg := by
    have hm : (h.serial, h.toggle) ∈ x.holdings.map fun h => (h.serial, h.toggle) :=
      hh ▸ List.mem_map_of_mem hm
    obtain ⟨h', hm', he⟩ := List.mem_map.1 hm
    obtain ⟨hs', ht⟩ := Prod.mk.inj he
    rw [← hs']
    exact hx.registered h' hm' g (ht.trans hg)
  distinct := by
    have hs' : hs.map Holding.serial = x.serials := by
      simpa [serials, List.map_map, Function.comp_def] using congrArg (List.map Prod.fst) hh
    rw [serials, hs']
    exact hx.distinct

end Balanced

theorem map_serial_toggle_hear (l : List Holding) (s : Nat) (box : List (Generation × Bool)) :
    (l.map fun h => if h.serial = s then h.hear box else h).map (fun h => (h.serial, h.toggle)) =
      l.map fun h => (h.serial, h.toggle) := by
  rw [List.map_map]
  refine List.map_congr_left fun h _ => ?_
  simp only [Function.comp_apply]
  split_ifs <;> rfl

/-- Every deed keeps an account balanced. -/
theorem Balanced.deed (hx : x.Balanced) (h : Deed fair x y) : y.Balanced := by
  have hb := hx.balance
  cases h with
  | take hc =>
    obtain ⟨c, hc⟩ := Option.isSome_iff_exists.1 hc
    exact hx.change hc ((Counts.balance_increment (hc ▸ hb)).of_eq (by omega)) (.refl _) (by simp)
  | sink hc =>
    obtain ⟨c, hc⟩ := Option.isSome_iff_exists.1 hc
    exact hx.change hc ((Counts.balance_sink (hc ▸ hb)).of_eq (by omega)) (.refl _) (by simp)
  | drop _ hl =>
    obtain ⟨c, hc⟩ := hx.counts_isSome (by omega)
    rw [hc] at hb
    exact hx.change hc (Counts.balance_decrement (hb.of_eq (by omega))) (.refl _) (by simp)
  | watch r hc =>
    obtain ⟨c, hc⟩ := Option.isSome_iff_exists.1 hc
    exact hx.change hc ((Counts.balance_watch (hc ▸ hb) _).of_eq (by omega)) (.refl _) (by simp)
  | unwatch r hr hl =>
    obtain ⟨c, hc⟩ := hx.counts_isSome (by omega)
    rw [hc] at hb
    rw [watchers, hc] at hr
    exact hx.change hc (Counts.balance_unwatch (hb.of_eq (by omega)) hr) (.refl _) (by simp)
  | enlist s g box hc hs =>
    obtain ⟨c, hc⟩ := Option.isSome_iff_exists.1 hc
    have hw := (hx.change (r := .watch (.bridge s g)) (l := x.loose + 1) hc
      ((Counts.balance_watch (hc ▸ hb) _).of_eq (by omega)) (.refl _) (by simp)).registered
    refine ⟨?_, fun h hm g' hg => ?_, List.nodup_cons.2 ⟨hs, hx.distinct⟩⟩
    · simp only [Account.change, hc, Option.bind_some, List.length_cons]
      exact Counts.balance_watch (hc ▸ hb) _
    · rcases List.mem_cons.1 hm with rfl | hm
      · cases hg
        simp [watchers, Account.change, hc, Counts.apply]
      · exact hw h hm g' hg
  | retire s g strong rest hh =>
    obtain ⟨c, hc⟩ := hx.counts_isSome (by rw [hh]; exact Nat.succ_pos _)
    have hd := hx.distinct
    have hw := hx.registered _ (hh ▸ List.mem_cons_self) g rfl
    simp only [serials, hh, List.map_cons, List.nodup_cons, List.mem_map, not_exists, not_and] at hd
    rw [hc, hh] at hb
    rw [watchers, hc] at hw
    refine hx.change hc (Counts.balance_unwatch (hb.of_eq rfl) hw)
      (hh ▸ List.sublist_cons_self _ _) fun h hm _ _ he => ?_
    simp only [RefChange.unwatch.injEq, Watcher.bridge.injEq] at he
    exact hd.1 h hm he.1.symm
  | adopt s _ hs hl =>
    refine ⟨hb.of_eq ?_, fun h hm => ?_, List.nodup_cons.2 ⟨hs, hx.distinct⟩⟩
    · simp only [List.length_cons]
      omega
    · rcases List.mem_cons.1 hm with rfl | hm
      · simp
      · exact hx.registered h hm
  | disown s g strong rest _ hh =>
    refine ⟨hb.of_eq ?_, fun h hm => hx.registered h (hh ▸ List.mem_cons_of_mem _ hm), ?_⟩
    · simp only [hh, List.length_cons]
      omega
    · have hd := hx.distinct
      rw [serials, hh, List.map_cons, List.nodup_cons] at hd
      exact hd.2
  | hear s => exact hx.hear_holdings (map_serial_toggle_hear _ s _)
  | hint s g isLast => exact hx.hear_holdings (map_serial_toggle_hear _ s _)
  | «open» s => exact hx.hear_holdings rfl
  | create floating hc hh =>
    refine ⟨?_, by simp [hh], by simp [serials, hh]⟩
    simpa [hh] using Counts.balance_initial floating

theorem Balanced.deeds (hx : x.Balanced) (h : Deeds fair x y) : y.Balanced := by
  induction h with
  | refl => exact hx
  | tail _ h ih => exact ih.deed h

/-! ## Tracked accounts -/

/-- A balanced account where every toggle reference has a loose reference or an entry of its own,
every entry has a registration, and a bridge that has heard everything keeps its proxy alive
exactly if there is another reference than its own. -/
structure Tracked (x : Account) : Prop extends Balanced x where
  recorded_le : x.recorded ≤ x.loose
  bridged_le : x.watchers.countP Watcher.isBridge ≤ x.holdings.length
  sunk : x.holdings ≠ [] → x.floats = false
  heard : ∀ h ∈ x.holdings, ∃ g box, h.toggle = some g ∧ x.boxes h.serial = some box ∧
    (h.hear box).strong = decide (2 ≤ x.refs)

theorem boxes_change_hear {h : Holding} {g : Generation} {box : List (Generation × Bool)}
    (hc : x.counts = some c) (hg : h.toggle = some g) (hb : x.boxes h.serial = some box)
    (r : RefChange) (l : Nat) (hs : List Holding) :
    ∃ box', (x.change r l hs).boxes h.serial = some box' ∧
      (h.hear box').strong =
        (Counts.told (.bridge h.serial g) (c.apply r).2).elim (h.hear box).strong not := by
  cases hn : (c.apply r).2 with
  | none => exact ⟨box, by simp [change, hc, hn, hb], rfl⟩
  | some n =>
    obtain ⟨w, b⟩ := n
    cases w with
    | recorder r' => exact ⟨box, by simp [change, hc, hn, hb, Boxes.deliver], by simp [Counts.told]⟩
    | bridge s g' =>
      by_cases hs' : s = h.serial
      · subst hs'
        refine ⟨box ++ [(g', b)], by simp [change, hc, hn, hb, Boxes.deliver], ?_⟩
        by_cases hgg : g' = g
        · simp [Holding.hear_append, hg, hgg, Counts.told]
        · simp [Holding.hear_append, hg, hgg, Ne.symm hgg, Counts.told]
      · refine ⟨box, by simp [change, hc, hn, hb, Boxes.deliver, Ne.symm hs'], ?_⟩
        simp [Counts.told, hs']

theorem length_watchers (x : Account) :
    x.watchers.length = x.recorded + x.watchers.countP Watcher.isBridge := by
  have h := List.length_eq_countP_add_countP Watcher.isBridge (l := x.watchers)
  simp only [Bool.not_eq_true, Bool.decide_eq_false] at h
  rw [h, recorded, Nat.add_comm]

theorem floats_change (hf : x.floats = false) (r : RefChange) (l : Nat) (hs : List Holding) :
    (x.change r l hs).floats = false := by
  cases hc : x.counts with
  | none => simp [floats, change, hc]
  | some c =>
    have hc' : c.floating = false := by simpa [floats, hc] using hf
    cases r <;> simp [floats, change, hc, Counts.apply, Counts.increment, Counts.decrement] <;>
      grind

theorem countP_watchers_change (hc : x.counts = some c) (p : Watcher → Bool) (r : RefChange)
    (l : Nat) (hs : List Holding) :
    (x.change r l hs).watchers.countP p ≤ match r with
      | .watch w => x.watchers.countP p + if p w then 1 else 0
      | .unwatch w => x.watchers.countP p - if w ∈ x.watchers ∧ p w then 1 else 0
      | _ => x.watchers.countP p := by
  cases hc' : (c.apply r).1 with
  | none => simp [watchers, change, hc, hc']
  | some c' =>
    simp only [watchers, change, hc, hc', Option.bind_some, Option.elim_some,
      Counts.watchers_apply hc']
    cases r <;> simp [List.countP_append, List.countP_erase]

theorem recorded_change (x : Account) (hr : ∀ n, r ≠ .watch (.recorder n)) (l : Nat)
    (hs : List Holding) : (x.change r l hs).recorded ≤ x.recorded := by
  cases hc : x.counts with
  | none => simp [recorded, watchers, change, hc]
  | some c =>
    refine (countP_watchers_change hc _ r l hs).trans ?_
    cases r with
    | take | drop | sink => exact Nat.le_refl _
    | unwatch w => exact Nat.sub_le _ _
    | watch w =>
      cases w with
      | bridge s g => exact Nat.le_refl _
      | recorder n => exact absurd rfl (hr n)

namespace Tracked

/-- An entry that stays through a change is tracked after it. -/
theorem heard_change (hx : x.Tracked) (hc : x.counts = some c) {h : Holding} (hh : h ∈ x.holdings)
    (hd : r = .drop → c.watchers.length < c.refs)
    (hr : ∀ g, h.toggle = some g → r ≠ .unwatch (.bridge h.serial g)) (l : Nat)
    (hs : List Holding) :
    ∃ g box, h.toggle = some g ∧ (x.change r l hs).boxes h.serial = some box ∧
      (h.hear box).strong = decide (2 ≤ (x.change r l hs).refs) := by
  obtain ⟨g, box, hg, hb, hs'⟩ := hx.heard h hh
  have hw : .bridge h.serial g ∈ c.watchers := by
    simpa [watchers, hc] using hx.registered h hh g hg
  have hl : c.watchers.length ≤ c.refs := by
    have h₁ := length_watchers x
    have h₂ := hx.refs_eq
    have h₃ := hx.recorded_le
    have h₄ := hx.bridged_le
    simp only [watchers, refs, hc, Option.elim_some] at h₁ h₂ h₄
    omega
  obtain ⟨c', hc', ht⟩ := Counts.apply_told hw hl hd (hr g hg)
  obtain ⟨box', hb', hh'⟩ := boxes_change_hear hc hg hb r l hs
  refine ⟨g, box', hg, hb', ?_⟩
  rw [hh', hs']
  simp only [refs, change, hc, hc', Option.bind_some, Option.elim_some]
  exact ht.symm

theorem change (hx : x.Tracked) (hc : x.counts = some c) {l : Nat} {hs : List Holding}
    (hb : (x.change r l hs).Balanced) (hsub : hs.Sublist x.holdings)
    (hd : r = .drop → c.watchers.length < c.refs)
    (hr : ∀ h ∈ hs, ∀ g, h.toggle = some g → r ≠ .unwatch (.bridge h.serial g))
    (hl : (x.change r l hs).recorded ≤ l)
    (hn : (x.change r l hs).watchers.countP Watcher.isBridge ≤ hs.length) :
    (x.change r l hs).Tracked where
  toBalanced := hb
  recorded_le := hl
  bridged_le := hn
  sunk hne := by
    refine floats_change (hx.sunk fun hnil => hne ?_) r l hs
    exact List.sublist_nil.1 (hnil ▸ hsub)
  heard h hh := hx.heard_change hc (hsub.subset hh) hd (hr h hh) l hs

theorem hear_holdings (hx : x.Tracked) {b : Boxes} {hs : List Holding}
    (hh : hs.map (fun h => (h.serial, h.toggle)) = x.holdings.map fun h => (h.serial, h.toggle))
    (hs' : ∀ h ∈ hs, ∃ g box, h.toggle = some g ∧ b h.serial = some box ∧
      (h.hear box).strong = decide (2 ≤ x.refs)) :
    ({ x with boxes := b, holdings := hs } : Account).Tracked where
  toBalanced := hx.toBalanced.hear_holdings hh
  recorded_le := hx.recorded_le
  bridged_le := by
    have hl : hs.length = x.holdings.length := by simpa using congrArg List.length hh
    exact hl ▸ hx.bridged_le
  sunk hne := hx.sunk fun hnil => hne (by simpa [hnil] using hh)
  heard := hs'

/-- The entry that a bridge makes when it begins to watch an object without floating reference. -/
theorem enlist (hx : x.Tracked) {s : Nat} {g : Generation} {box : List (Generation × Bool)}
    (hc : x.counts.isSome) (hs : s ∉ x.serials) (hbox : x.boxes s = some box)
    (hne : ∀ e ∈ box, e.1 ≠ g) (hf : x.floats = false) :
    (x.change (.watch (.bridge s g)) x.loose (⟨s, some g, true⟩ :: x.holdings)).Tracked := by
  have hd : Deed true x _ := .enlist s g box hc hs hbox hne fun _ => hf
  have hb := hx.toBalanced.deed hd
  obtain ⟨c, hc⟩ := Option.isSome_iff_exists.1 hc
  have hw (p) := countP_watchers_change hc p (.watch (.bridge s g)) x.loose
    (⟨s, some g, true⟩ :: x.holdings)
  refine ⟨hb, (hw _).trans hx.recorded_le, (hw _).trans (Nat.add_le_add_right hx.bridged_le 1),
    fun _ => floats_change hf _ _ _, fun h hh => ?_⟩
  rcases List.mem_cons.1 hh with rfl | hh
  · have hpos : 0 < c.refs := (hc ▸ hx.balance : Counts.Balance _ (some c)).2
    obtain ⟨box', hb', hh'⟩ := boxes_change_hear (h := ⟨s, some g, true⟩) hc rfl hbox
      (.watch (.bridge s g)) x.loose (⟨s, some g, true⟩ :: x.holdings)
    refine ⟨g, box', rfl, hb', ?_⟩
    rw [hh', Holding.hear_of_forall_ne fun e he heq => hne e he (Option.some.inj heq).symm]
    have hr : (x.change (.watch (.bridge s g)) x.loose (⟨s, some g, true⟩ :: x.holdings)).refs =
        c.refs + 1 := by
      simp [refs, Account.change, hc, Counts.apply, Counts.increment]
    rw [hr, decide_eq_true (Nat.succ_le_succ hpos)]
    exact Counts.told_increment_elim c _
  · exact hx.heard_change hc hh (by simp) (by simp) _ _

/-- What a bridge hears is what its belief was to become. -/
theorem hear (hx : x.Tracked) (s : Nat) : (x.hear s).Tracked := by
  refine hx.hear_holdings (map_serial_toggle_hear _ s _) fun h hh => ?_
  obtain ⟨h, hm, rfl⟩ := List.mem_map.1 hh
  obtain ⟨g, box, hg, hbox, hs⟩ := hx.heard h hm
  by_cases hhs : h.serial = s
  · subst hhs
    exact ⟨g, [], by simpa [Holding.hear] using hg, by simp [Holding.hear, hbox],
      by simpa [Holding.hear, hbox] using hs⟩
  · rw [if_neg hhs]
    exact ⟨g, box, hg, by rw [Function.update_of_ne hhs, hbox], hs⟩

/-- A bridge may be told the truth at any time. -/
theorem hint (hx : x.Tracked) (s : Nat) (g : Generation) {isLast : Bool}
    (hl : isLast = decide (x.refs < 2)) : (x.hint s g isLast).Tracked := by
  refine hx.hear_holdings (map_serial_toggle_hear _ s _) fun h hh => ?_
  obtain ⟨h, hm, rfl⟩ := List.mem_map.1 hh
  obtain ⟨g', box, hg, hbox, hs⟩ := hx.heard h hm
  split_ifs with hhs
  · refine ⟨g', box, hg, hbox, ?_⟩
    by_cases hgg : h.toggle = some g
    · rcases h.hear_strong box (!isLast) with hi | hi
      · simpa [Holding.hear, hgg] using hi.trans hs
      · have hlt : (!isLast) = decide (2 ≤ x.refs) := by
          rw [hl, ← decide_not, decide_eq_decide]
          exact Nat.not_lt
        simpa [Holding.hear, hgg] using hi.trans hlt
    · have hb : ∀ e ∈ [(g, isLast)], h.toggle ≠ some e.1 := by simpa using hgg
      rwa [Holding.hear_of_forall_ne hb]
  · exact ⟨g', box, hg, hbox, hs⟩

/-- Every fair deed keeps an account tracked. -/
theorem deed (hx : x.Tracked) (h : Deed true x y) : y.Tracked := by
  have hb := hx.toBalanced.deed h
  have h₁ := hx.recorded_le
  have h₂ := hx.bridged_le
  cases h with
  | take hc =>
    obtain ⟨c, hc⟩ := Option.isSome_iff_exists.1 hc
    have hw (p) := countP_watchers_change hc p .take (x.loose + 1) x.holdings
    exact hx.change hc hb (.refl _) (by simp) (by simp)
      ((hw _).trans (h₁.trans (Nat.le_succ _))) ((hw _).trans h₂)
  | sink hc =>
    obtain ⟨c, hc⟩ := Option.isSome_iff_exists.1 hc
    have hw (p) := countP_watchers_change hc p .sink (x.loose + 1) x.holdings
    exact hx.change hc hb (.refl _) (by simp) (by simp)
      ((hw _).trans (h₁.trans (Nat.le_succ _))) ((hw _).trans h₂)
  | drop hl hl' =>
    obtain ⟨c, hc⟩ := hx.counts_isSome (by omega)
    have hw (p) := countP_watchers_change hc p .drop (x.loose - 1) x.holdings
    have hl := hl rfl
    refine hx.change hc hb (.refl _) (fun _ => ?_) (by simp)
      ((hw _).trans (Nat.le_sub_one_of_lt hl)) ((hw _).trans h₂)
    have h₃ := hx.refs_eq
    have h₄ := length_watchers x
    simp only [watchers, refs, hc, Option.elim_some] at h₃ h₄ h₂
    omega
  | watch r hc =>
    obtain ⟨c, hc⟩ := Option.isSome_iff_exists.1 hc
    have hw (p) := countP_watchers_change hc p (.watch (.recorder r)) (x.loose + 1) x.holdings
    exact hx.change hc hb (.refl _) (by simp) (by simp)
      ((hw _).trans (Nat.add_le_add_right h₁ 1)) ((hw _).trans h₂)
  | unwatch r hr hl =>
    obtain ⟨c, hc⟩ := hx.counts_isSome (by omega)
    have hw (p) := countP_watchers_change hc p (.unwatch (.recorder r)) (x.loose - 1) x.holdings
    refine hx.change hc hb (.refl _) (by simp) (by simp) ((hw _).trans ?_) ((hw _).trans ?_)
    · dsimp only
      rw [if_pos ⟨hr, rfl⟩]
      exact Nat.sub_le_sub_right h₁ 1
    · exact (Nat.sub_le _ _).trans h₂
  | enlist s g box hc hs hbox hne hf => exact hx.enlist hc hs hbox hne (hf rfl)
  | retire s g strong rest hh =>
    obtain ⟨c, hc⟩ := hx.counts_isSome (by rw [hh]; exact Nat.succ_pos _)
    have hw (p) := countP_watchers_change hc p (.unwatch (.bridge s g)) x.loose rest
    have hm := hx.registered _ (hh ▸ List.mem_cons_self) g rfl
    have hd := hx.distinct
    simp only [serials, hh, List.map_cons, List.nodup_cons, List.mem_map, not_exists, not_and] at hd
    refine hx.change hc hb (hh ▸ List.sublist_cons_self _ _) (by simp) (fun h hm _ _ he => ?_)
      ((hw _).trans ?_) ((hw _).trans ?_)
    · simp only [RefChange.unwatch.injEq, Watcher.bridge.injEq] at he
      exact hd.1 h hm he.1.symm
    · exact (Nat.sub_le _ _).trans h₁
    · rw [hh] at h₂
      simpa [hm, Watcher.isBridge] using Nat.sub_le_sub_right h₂ 1
  | adopt s hf => simp at hf
  | disown s g strong rest hf => simp at hf
  | hear s => exact hx.hear s
  | hint s g isLast hl => exact hx.hint s g (hl rfl)
  | «open» s hs =>
    refine hx.hear_holdings rfl fun h hh => ?_
    obtain ⟨g, box, hg, hbox, hs'⟩ := hx.heard h hh
    have hne : h.serial ≠ s := fun he => hs (he ▸ List.mem_map_of_mem hh)
    exact ⟨g, box, hg, by rw [Function.update_of_ne hne, hbox], hs'⟩
  | create floating hc hh =>
    refine ⟨hb, ?_, ?_, by simp [hh], by simp [hh]⟩
    · simp [recorded, watchers, Counts.initial]
    · simp [watchers, Counts.initial]

theorem of_perm (hx : x.Tracked) (hc : y.counts = x.counts) (hb : y.boxes = x.boxes)
    (hl : y.loose = x.loose) (hp : y.holdings.Perm x.holdings) : y.Tracked := by
  obtain ⟨counts, boxes, loose, holdings⟩ := y
  subst hc hb hl
  refine ⟨hx.toBalanced.of_perm rfl rfl hp, hx.recorded_le, hp.length_eq ▸ hx.bridged_le,
    fun hne => hx.sunk fun hnil => hne ?_, fun h hh => hx.heard h (hp.mem_iff.1 hh)⟩
  exact List.Perm.eq_nil (hnil ▸ hp)

theorem deeds (hx : x.Tracked) (h : Deeds true x y) : y.Tracked := by
  induction h with
  | refl => exact hx
  | tail _ h ih => exact ih.deed h

end Tracked

/-- What deeds keep of an account: it is balanced, and tracked if they are fair. -/
structure Kept (fair : Bool) (x : Account) : Prop where
  balanced : x.Balanced
  tracked : fair → x.Tracked

namespace Kept

theorem deeds (hx : x.Kept fair) (h : Deeds fair x y) : y.Kept fair where
  balanced := hx.balanced.deeds h
  tracked hf := (hx.tracked hf).deeds (hf ▸ h)

theorem of_perm (hx : x.Kept fair) (hc : y.counts = x.counts) (hb : y.boxes = x.boxes)
    (hl : y.loose = x.loose) (hp : y.holdings.Perm x.holdings) : y.Kept fair where
  balanced := hx.balanced.of_perm hc hl hp
  tracked hf := (hx.tracked hf).of_perm hc hb hl hp

/-- Without an instance there is nothing to keep. -/
theorem of_unborn (hc : x.counts = none) (hl : x.loose = 0) (hh : x.holdings = []) :
    x.Kept fair := by
  have hb : x.Balanced := ⟨by simp [hc, hl, hh, Counts.Balance], by simp [hh], by simp [serials, hh]⟩
  exact ⟨hb, fun _ => ⟨hb, by simp [recorded, watchers, hc], by simp [watchers, hc], by simp [hh],
    by simp [hh]⟩⟩

end Kept

end Account

end NativeProxies
