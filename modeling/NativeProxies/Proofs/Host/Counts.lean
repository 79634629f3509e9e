import Mathlib.Data.List.Count
import NativeProxies.Host.Counts

/-!
# Changes of the counts

What a change does to the number of references (`Counts.Balance`), to the watchers, and to what a
watcher knows.  As long as each watcher has a reference of its own, no second one is left when the
count goes between one and two.  The watcher that stays is then told, and what it was told last says
whether there are two references (`Counts.apply_told`).
-/

namespace NativeProxies

namespace Watcher

/-- Whether a watcher is a registration of a bridge. -/
def isBridge : Watcher → Bool
  | bridge .. => true
  | recorder _ => false

end Watcher

namespace Counts

variable {c : Counts} {w v : Watcher}

/-! ## The number of references -/

/-- The references of an instance are a floating one, if there is one, and `n` others.  Without
references the instance is freed. -/
def Balance (n : Nat) : Option Counts → Prop
  | none => n = 0
  | some c => c.refs = n + c.floating.toNat ∧ 0 < c.refs

variable {n : Nat}

theorem balance_initial (floating : Bool) :
    Balance (if floating then 0 else 1) (some (initial floating)) := by
  cases floating <;> simp [Balance, initial]

theorem Balance.isSome {c : Option Counts} (h : Balance n c) (hn : 0 < n) : c.isSome := by
  cases c with
  | none => simp only [Balance] at h; omega
  | some c => rfl

theorem Balance.of_eq {c : Option Counts} {m : Nat} (h : Balance n c) (hn : m = n) :
    Balance m c :=
  hn ▸ h

theorem balance_increment (h : Balance n (some c)) : Balance (n + 1) (some c.increment.1) := by
  simp only [Balance, increment] at h ⊢
  omega

theorem balance_decrement (h : Balance (n + 1) (some c)) : Balance n c.decrement.1 := by
  simp only [Balance, decrement] at h ⊢
  split_ifs with hr
  · have := Bool.toNat_le c.floating
    show n = 0
    omega
  · show c.refs - 1 = n + c.floating.toNat ∧ 0 < c.refs - 1
    omega

theorem balance_sink (h : Balance n (some c)) : Balance (n + 1) (c.apply .sink).1 := by
  simp only [apply]
  split_ifs with hf
  · simp only [Balance, hf, Bool.toNat_true, Bool.toNat_false] at h ⊢
    omega
  · exact balance_increment h

theorem balance_watch (h : Balance n (some c)) (w : Watcher) :
    Balance (n + 1) (c.apply (.watch w)).1 :=
  balance_increment h

theorem balance_unwatch (h : Balance (n + 1) (some c)) (hw : w ∈ c.watchers) :
    Balance n (c.apply (.unwatch w)).1 := by
  rw [apply, if_pos hw]
  exact balance_decrement h

/-! ## The watchers -/

theorem watchers_apply {c' : Counts} {r : RefChange} (h : (c.apply r).1 = some c') :
    c'.watchers = match r with
      | .watch w => c.watchers ++ [w]
      | .unwatch w => c.watchers.erase w
      | _ => c.watchers := by
  cases r <;> simp only [apply, increment, decrement] at h ⊢ <;> grind [List.erase_of_not_mem]

theorem mem_watchers_apply {c' : Counts} {r : RefChange} (h : (c.apply r).1 = some c')
    (hw : w ∈ c.watchers) (hr : r ≠ .unwatch w) : w ∈ c'.watchers := by
  rw [watchers_apply h]
  cases r with
  | unwatch v => exact (List.mem_erase_of_ne (by rintro rfl; exact hr rfl)).2 hw
  | watch v => exact List.mem_append_left _ hw
  | take | drop | sink => exact hw

theorem watcher_mem_of_notice {n : Notice} {b : Bool} (h : c.notice b = some n) :
    n.watcher ∈ c.watchers := by
  rw [notice] at h
  split at h <;> simp_all
  simp [← h]

theorem watcher_mem_of_increment {n : Notice} (h : c.increment.2 = some n) :
    n.watcher ∈ c.watchers := by
  simp only [increment] at h
  split_ifs at h
  exact watcher_mem_of_notice h

theorem watcher_mem_of_decrement {n : Notice} (h : c.decrement.2 = some n) :
    n.watcher ∈ c.watchers := by
  simp only [decrement] at h
  split_ifs at h
  exact watcher_mem_of_notice h

theorem watcher_mem_of_apply {r : RefChange} {n : Notice} (h : (c.apply r).2 = some n) :
    n.watcher ∈ c.watchers := by
  cases r with
  | take | watch => exact watcher_mem_of_increment h
  | drop => exact watcher_mem_of_decrement h
  | sink =>
    simp only [apply] at h
    split_ifs at h
    exact watcher_mem_of_increment h
  | unwatch w =>
    simp only [apply] at h
    split_ifs at h
    exact List.mem_of_mem_erase (watcher_mem_of_decrement h)

/-! ## What a watcher is told -/

/-- What a notice, if there is one, tells a watcher. -/
def told (w : Watcher) (n : Option Notice) : Option Bool :=
  n.bind fun n => if n.watcher = w then some n.isLast else none

theorem watchers_eq_singleton (hw : w ∈ c.watchers) (hl : c.watchers.length ≤ 1) :
    c.watchers = [w] := by
  match h : c.watchers with
  | [] => simp [h] at hw
  | [v] => simp_all
  | _ :: _ :: _ => simp [h] at hl

theorem told_notice (hw : w ∈ c.watchers) (hl : c.watchers.length ≤ 1) (b : Bool) :
    told w (c.notice b) = some b := by
  rw [notice, watchers_eq_singleton hw hl]
  simp [told]

/-- A watcher with a reference of its own is told when the count goes from one to two. -/
theorem told_increment (hw : w ∈ c.watchers) (hl : c.watchers.length ≤ c.refs) :
    told w c.increment.2 = if c.refs = 1 then some false else none := by
  simp only [increment]
  split_ifs with h
  · exact told_notice hw (by omega) false
  · rfl

theorem told_increment_elim (c : Counts) (w : Watcher) :
    (told w c.increment.2).elim true not = true := by
  simp only [increment, notice, told]
  grind

/-- A watcher that stays with a reference of its own is told when the count goes from two to
one. -/
theorem told_decrement (hw : w ∈ c.watchers) (hl : c.watchers.length < c.refs) :
    told w c.decrement.2 = if c.refs = 2 then some true else none := by
  simp only [decrement]
  split_ifs with h
  · exact told_notice hw (by omega) true
  · rfl

theorem increment_told (hw : w ∈ c.watchers) (hl : c.watchers.length ≤ c.refs) :
    decide (2 ≤ c.increment.1.refs) = (told w c.increment.2).elim (decide (2 ≤ c.refs)) not := by
  have := List.length_pos_of_mem hw
  rw [told_increment hw hl, increment]
  split_ifs with h
  · simp [h]
  · simp only [Option.elim_none, decide_eq_decide]
    omega

theorem decrement_told (hw : w ∈ c.watchers) (hl : c.watchers.length < c.refs) :
    ∃ c', c.decrement.1 = some c' ∧
      decide (2 ≤ c'.refs) = (told w c.decrement.2).elim (decide (2 ≤ c.refs)) not := by
  have := List.length_pos_of_mem hw
  refine ⟨{ c with refs := c.refs - 1 }, by rw [decrement, if_neg (by omega)], ?_⟩
  rw [told_decrement hw hl]
  split_ifs with h
  · simp [h]
  · simp only [Option.elim_none, decide_eq_decide]
    omega

/-- As long as each watcher has a reference of its own, what a watcher was told last is whether
there are fewer than two references. -/
theorem apply_told {r : RefChange} (hw : w ∈ c.watchers) (hl : c.watchers.length ≤ c.refs)
    (hd : r = .drop → c.watchers.length < c.refs) (hr : r ≠ .unwatch w) :
    ∃ c', (c.apply r).1 = some c' ∧
      decide (2 ≤ c'.refs) = (told w (c.apply r).2).elim (decide (2 ≤ c.refs)) not := by
  cases r with
  | take => exact ⟨_, rfl, increment_told hw hl⟩
  | drop => exact decrement_told hw (hd rfl)
  | sink =>
    simp only [apply]
    split_ifs with hf
    · exact ⟨_, rfl, rfl⟩
    · exact ⟨_, rfl, increment_told hw hl⟩
  | watch v => exact ⟨_, rfl, increment_told hw hl⟩
  | unwatch v =>
    simp only [apply]
    split_ifs with hv
    · have hwv : w ≠ v := by
        rintro rfl
        exact hr rfl
      have := List.length_pos_of_mem hv
      refine decrement_told (c := { c with watchers := c.watchers.erase v })
        ((List.mem_erase_of_ne hwv).2 hw) ?_
      rw [List.length_erase_of_mem hv]
      exact Nat.lt_of_lt_of_le (Nat.sub_lt this Nat.one_pos) hl
    · exact ⟨_, rfl, rfl⟩

end Counts

end NativeProxies
