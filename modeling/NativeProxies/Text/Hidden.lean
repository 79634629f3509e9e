import NativeProxies.Text.Joining
import NativeProxies.Text.Unassigned

/-!
# Characters without a visible form

The code points that have no visible form of their own: unassigned ones, characters that join, and
controls, format characters, separators other than the plain blank, surrogates, private use and
blank fillers.
-/

namespace NativeProxies

namespace Hidden

/-- The ranges of controls, format characters, separators, surrogates, private use and fillers,
both ends included, in ascending order. -/
def controls : List (Nat × Nat) :=
  [(0x0, 0x1F), (0x7F, 0xA0), (0xAD, 0xAD), (0x600, 0x605), (0x61C, 0x61C), (0x6DD, 0x6DD),
   (0x70F, 0x70F), (0x890, 0x891), (0x8E2, 0x8E2), (0x115F, 0x1160), (0x1680, 0x1680),
   (0x180E, 0x180E), (0x2000, 0x200B), (0x200D, 0x200F), (0x2028, 0x202F), (0x205F, 0x2064),
   (0x2066, 0x206F), (0x3000, 0x3000), (0x3164, 0x3164), (0xD800, 0xF8FF), (0xFEFF, 0xFEFF),
   (0xFFA0, 0xFFA0), (0xFFF9, 0xFFFB), (0x110BD, 0x110BD), (0x110CD, 0x110CD), (0x13430, 0x1343F),
   (0x1BCA0, 0x1BCA3), (0x1D173, 0x1D17A), (0xE0001, 0xE0001), (0xF0000, 0xFFFFD),
   (0x100000, 0x10FFFD)]

/-- Whether a code point lies in one of the given ranges. -/
def isWithin (ranges : List (Nat × Nat)) (n : Nat) : Bool :=
  ranges.any fun r => r.1 ≤ n && n ≤ r.2

/-- Whether `c` has no visible form of its own. -/
def isHidden (c : Char) : Bool :=
  [controls, Joining.ranges, Unassigned.ranges].any fun ranges => isWithin ranges c.toNat

end Hidden

end NativeProxies
