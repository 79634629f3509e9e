import NativeProxies.Text.Hidden

/-!
# Quoted text

How a text is shown inside debugging output: in double quotes, with a backslash before a quote or
a backslash, short escapes for tabulator, line feed, carriage return and NUL, and the code point
in braces for every other character without a visible form.
-/

namespace NativeProxies

namespace Quoted

/-- The code point of `c` in braces. -/
def codePoint (c : Char) : String :=
  "\\u\x7b" ++ String.ofList (Nat.toDigits 16 c.toNat) ++ "\x7d"

/-- How one character is shown. -/
def escape (c : Char) : String :=
  if c = '"' then "\\\""
  else if c = '\\' then "\\\\"
  else if c = '\t' then "\\t"
  else if c = '\n' then "\\n"
  else if c = '\r' then "\\r"
  else if c = Char.ofNat 0 then "\\0"
  else if Hidden.isHidden c then codePoint c
  else String.singleton c

/-- The text in double quotes. -/
def quote (s : String) : String :=
  "\"" ++ String.join (s.toList.map escape) ++ "\""

end Quoted

end NativeProxies
