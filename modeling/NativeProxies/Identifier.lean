import Std.Data.ExtTreeMap
import Std.Data.ExtTreeSet
import NativeProxies.Text.Numeral

/-!
# Identifiers

Types and native objects are named by positive machine words.  A `TypeId`, or tag, is the position
of a type in the table that defined it, and an `Address` is where an object lives; for both, zero
is the word for "none" (`TypeId.ofRaw?`, `Address.ofNat?`).
-/

namespace NativeProxies

/-- Identifier of a type: its position in the type table. -/
structure TypeId where
  index : Nat
deriving DecidableEq, Repr

namespace TypeId

/-- The identifier as a word; the first type has the word 1. -/
def raw (t : TypeId) : Nat := t.index + 1

/-- The tag of a word. -/
def ofRaw? : Nat → Option TypeId
  | 0 => none
  | n + 1 => some ⟨n⟩

/-- The base kind of reference-counted objects, which every host defines first. -/
def object : TypeId := ⟨0⟩

def text (t : TypeId) : String := toString t.raw

def debug (t : TypeId) : String := "TypeTag(" ++ t.text ++ ")"

instance : Ord TypeId := ⟨fun a b => compare a.index b.index⟩

theorem compare_def (a b : TypeId) : compare a b = compare a.index b.index := rfl

instance : Std.TransOrd TypeId where
  eq_swap {a b} := by simp only [compare_def]; exact Std.OrientedCmp.eq_swap
  isLE_trans {a b c} := by simp only [compare_def]; exact Std.TransCmp.isLE_trans

instance : Std.LawfulEqOrd TypeId where
  compare_self {a} := by simp only [compare_def]; exact Std.ReflCmp.compare_self
  eq_of_compare {a b} h := by
    have hi : a.index = b.index := Nat.compare_eq_eq.mp h
    cases a; cases b; cases hi; rfl

@[simp] theorem ofRaw?_raw (t : TypeId) : ofRaw? t.raw = some t := rfl

end TypeId

/-- Address of a native object, the key under which its proxy is known. -/
structure Address where
  value : Nat
  -- `by decide` would make an auxiliary lemma for every definition with an address in it.
  value_ne_zero : value != 0 := by exact Eq.refl true
deriving DecidableEq, Repr

namespace Address

/-- The address of a word. -/
def ofNat? (n : Nat) : Option Address :=
  if h : n != 0 then some ⟨n, h⟩ else none

/-- The `n`-th address. -/
def nth (n : Nat) : Address := ⟨n + 1, Eq.refl true⟩

def text (a : Address) : String := Numeral.hex a.value

/-- Debugging text of an address written as `name`. -/
def debugAs (name : String) : String := "NativeHandle(" ++ name ++ ")"

def debug (a : Address) : String := debugAs a.text

instance : Ord Address := ⟨fun a b => compare a.value b.value⟩

theorem compare_def (a b : Address) : compare a b = compare a.value b.value := rfl

instance : Std.TransOrd Address where
  eq_swap {a b} := by simp only [compare_def]; exact Std.OrientedCmp.eq_swap
  isLE_trans {a b c} := by simp only [compare_def]; exact Std.TransCmp.isLE_trans

instance : Std.LawfulEqOrd Address where
  compare_self {a} := by simp only [compare_def]; exact Std.ReflCmp.compare_self
  eq_of_compare {a b} h := by
    have hv : a.value = b.value := Nat.compare_eq_eq.mp h
    cases a; cases b; cases hv; rfl

theorem ofNat?_value (a : Address) : ofNat? a.value = some a := by
  simp [ofNat?, a.value_ne_zero]

end Address

/-- Finite maps, ordered by key and equal when they have the same entries. -/
abbrev Map (α β : Type) [Ord α] : Type := Std.ExtTreeMap α β

end NativeProxies
