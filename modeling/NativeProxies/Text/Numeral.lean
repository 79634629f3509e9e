/-!
# Numerals

Reading of decimal counts and writing of hexadecimal addresses.  A count is written with ASCII
digits, at most one plus sign before them, and has to fit a machine word (`wordLimit`).
-/

namespace NativeProxies

namespace Numeral

/-- One more than the largest count. -/
def wordLimit : Nat := 18446744073709551616

/-- The value of the decimal digits `cs`, continuing a numeral whose value is `acc` so far;
`none` if another character occurs. -/
def digitsFrom (acc : Nat) : List Char → Option Nat
  | [] => some acc
  | c :: cs => if c.isDigit then digitsFrom (10 * acc + (c.toNat - '0'.toNat)) cs else none

/-- The value of a nonempty run of decimal digits. -/
def digits? : List Char → Option Nat
  | [] => none
  | cs => digitsFrom 0 cs

/-- A numeral may be led by one plus sign. -/
def unsigned : List Char → List Char
  | '+' :: cs => cs
  | cs => cs

/-- Reads a count. -/
def count? (s : String) : Option Nat :=
  (digits? (unsigned s.toList)).filter (· < wordLimit)

/-- Lowercase hexadecimal digits without padding, led by `0x`. -/
def hex (n : Nat) : String :=
  "0x" ++ String.ofList (Nat.toDigits 16 n)

end Numeral

end NativeProxies
