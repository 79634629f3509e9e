import NativeProxies.Proofs.Scenario.Holders

/-!
# Division of the work

The objects of a round are divided among the workers.  The shares are consecutive pieces of the list, none of
them is empty, and there are no more of them than workers (`Shares.divided_among`).  The workers run side by
side, so their changes may follow each other in many orders (`Shares.Interleaves`); in each of them every
object is changed as often as it is listed (`Scenario.division_hold`).
-/

namespace NativeProxies

namespace Shares

variable {α : Type} {xs : List α} {k : Nat}

/-! ## Pieces of a list -/

/-- The shares are the pieces that begin at the multiples of the size. -/
theorem getElem?_cut {size : Nat} (hs : 0 < size) (hk : xs.length ≤ k) (i : Nat) :
    (cut size k xs)[i]? =
      if i * size < xs.length then some ((xs.drop (i * size)).take size) else none := by
  induction k generalizing xs i with
  | zero =>
    rw [List.length_eq_zero_iff.1 (Nat.le_zero.1 hk)]
    simp [cut]
  | succ k ih =>
    cases xs with
    | nil => simp [cut]
    | cons x xs =>
      rw [cut]
      cases i with
      | zero => simp
      | succ i =>
        have hl : ((x :: xs).drop size).length ≤ k := by
          rw [List.length_drop]
          omega
        have hi : (i + 1) * size = size + i * size := by
          rw [Nat.succ_mul, Nat.add_comm]
        have hlt : i * size < ((x :: xs).drop size).length ↔ size + i * size < (x :: xs).length := by
          rw [List.length_drop]
          omega
        rw [List.getElem?_cons_succ, ih hl, List.drop_drop, hi]
        simp only [hlt]

/-- A list is divided into shares for a number of workers.  Each share has the given size, but the last one
may be shorter. -/
structure Divided (xs : List α) (size workers : Nat) (shares : List (List α)) : Prop where
  size_pos : 0 < size
  flatten : shares.flatten = xs
  consecutive : ∀ (i : Nat) (share : List α), shares[i]? = some share →
    share = (xs.drop (i * size)).take size
  ne_nil : ∀ share ∈ shares, share ≠ []
  length_le : shares.length ≤ max workers 1
  eq_nil_iff : shares = [] ↔ xs = []

/-- The shares of all workers have room for the whole list. -/
theorem le_mul_size (n workers : Nat) : n ≤ max workers 1 * size n workers := by
  have hw : 0 < max workers 1 := Nat.le_max_right _ _
  have hdiv := Nat.div_add_mod (n + (max workers 1 - 1)) (max workers 1)
  have hmod := Nat.mod_lt (n + (max workers 1 - 1)) hw
  calc n ≤ max workers 1 * ((n + (max workers 1 - 1)) / max workers 1) := by omega
    _ ≤ max workers 1 * size n workers := Nat.mul_le_mul_left _ (Nat.le_max_left _ _)

theorem among_eq_some {i workers : Nat} {share : List α} (h : (among xs workers)[i]? = some share) :
    i * size xs.length workers < xs.length ∧
      share = (xs.drop (i * size xs.length workers)).take (size xs.length workers) := by
  rw [among, getElem?_cut (size_pos xs.length workers) (Nat.le_refl _)] at h
  split_ifs at h with hi
  exact ⟨hi, (Option.some.inj h).symm⟩

theorem ne_nil_of_mem_among {workers : Nat} {share : List α} (h : share ∈ among xs workers) :
    share ≠ [] := by
  obtain ⟨i, hi⟩ := List.mem_iff_getElem?.1 h
  obtain ⟨hlt, rfl⟩ := among_eq_some hi
  have hs := size_pos xs.length workers
  rw [← List.length_pos_iff, List.length_take, List.length_drop]
  omega

theorem length_among_le (xs : List α) (workers : Nat) : (among xs workers).length ≤ max workers 1 := by
  have hle := le_mul_size xs.length workers
  rw [← List.getElem?_eq_none_iff, among, getElem?_cut (size_pos xs.length workers) (Nat.le_refl _),
    if_neg (Nat.not_lt.2 hle)]

theorem divided_among (xs : List α) (workers : Nat) :
    Divided xs (size xs.length workers) workers (among xs workers) where
  size_pos := size_pos xs.length workers
  flatten := flatten_among xs workers
  consecutive _ _ h := (among_eq_some h).2
  ne_nil _ h := ne_nil_of_mem_among h
  length_le := length_among_le xs workers
  eq_nil_iff := by
    constructor
    · intro h
      rw [← flatten_among xs workers, h, List.flatten_nil]
    · rintro rfl
      rfl

/-- Where the list is not divided evenly a worker may be left without a share. -/
example : among [1, 2, 3, 4, 5] 4 = [[1, 2], [3, 4], [5]] := by decide

end Shares

namespace Counts

/-- The counts after a number of references were taken. -/
theorem iterate_take (n : Nat) (k : Option Counts) :
    (fun k : Option Counts => k.bind fun c => (c.apply .take).1)^[n] k =
      k.map fun c => { c with refs := c.refs + n } := by
  induction n generalizing k with
  | zero => cases k <;> rfl
  | succ n ih =>
    rw [Function.iterate_succ_apply, ih]
    cases k with
    | none => rfl
    | some c =>
      show some { c with refs := c.refs + 1 + n } = some { c with refs := c.refs + (n + 1) }
      rw [Nat.add_assoc, Nat.add_comm 1 n]

/-- The counts after a number of references were dropped; none are left if these were all. -/
theorem iterate_drop (n : Nat) (k : Option Counts) :
    (fun k : Option Counts => k.bind fun c => (c.apply .drop).1)^[n] k =
      k.bind fun c => if 0 < n ∧ c.refs ≤ n then none else some { c with refs := c.refs - n } := by
  induction n generalizing k with
  | zero => cases k <;> simp
  | succ n ih =>
    rw [Function.iterate_succ_apply, ih]
    cases k with
    | none => rfl
    | some c =>
      simp only [Option.bind_some, apply, decrement]
      split_ifs with hlast <;> grind

end Counts

namespace Scenario

/-- The objects of a round are divided into consecutive shares, of which none is empty and no worker has two.  The
workers take or drop references side by side; the demonstration goes through one of the orders in which that may
happen.  In each of them as many references to an object are taken, or dropped, as the object is listed times. -/
theorem division_hold (c : Machine) (xs : List Address) (workers : Nat) :
    Shares.Divided xs (Shares.size xs.length workers) workers (Shares.among xs workers) ∧
    (∀ r, ∃ ys, Shares.Interleaves (Shares.among xs workers) ys ∧
      hold c xs workers r = { c with outside := c.outside.changeAll ys r }) ∧
    ∀ ys, Shares.Interleaves (Shares.among xs workers) ys → ∀ a,
      (c.outside.changeAll ys .take).host.counts? a =
          (c.host.counts? a).map (fun k => { k with refs := k.refs + xs.count a }) ∧
        (c.outside.changeAll ys .drop).host.counts? a = (c.host.counts? a).bind fun k =>
          if 0 < xs.count a ∧ k.refs ≤ xs.count a then none
          else some { k with refs := k.refs - xs.count a } := by
  refine ⟨Shares.divided_among xs workers, fun r => holds_hold c xs workers r, fun ys hys a => ?_⟩
  have hcount : ys.count a = xs.count a := hys.perm_of_among.count_eq a
  constructor
  · rw [Outside.counts?_changeAll, hcount, Counts.iterate_take]
    rfl
  · rw [Outside.counts?_changeAll, hcount, Counts.iterate_drop]
    rfl

end Scenario

end NativeProxies
