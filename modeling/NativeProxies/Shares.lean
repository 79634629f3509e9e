/-!
# Shares of work

A list of objects is cut into consecutive shares, one for each worker, as even as possible.  The workers
run side by side, so they may get through their shares in many orders.
-/

namespace NativeProxies

namespace Shares

/-- How many of `n` objects a share holds: the number for each worker, rounded up, and never
none.  Without workers there is one share. -/
def size (n workers : Nat) : Nat := max ((n + (max workers 1 - 1)) / max workers 1) 1

/-- The first `k` shares of `size` elements each; the last one may be shorter. -/
def cut {α : Type} (size : Nat) : Nat → List α → List (List α)
  | 0, _ => []
  | _, [] => []
  | k + 1, x :: xs => (x :: xs).take size :: cut size k ((x :: xs).drop size)

/-- The shares of a list among workers. -/
def among {α : Type} (xs : List α) (workers : Nat) : List (List α) :=
  cut (size xs.length workers) xs.length xs

/-- An order in which workers that run side by side may get through their shares: in each turn one of them goes
on with the next element of its share. -/
inductive Interleaves {α : Type} : List (List α) → List α → Prop
  | done {shares : List (List α)} (h : ∀ share ∈ shares, share = []) : Interleaves shares []
  | turn {shares : List (List α)} {i : Nat} {x : α} {rest ys : List α}
    (hi : shares[i]? = some (x :: rest)) (h : Interleaves (shares.set i rest) ys) :
    Interleaves shares (x :: ys)

end Shares

end NativeProxies
