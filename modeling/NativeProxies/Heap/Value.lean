import NativeProxies.Identifier

/-!
# Values of the scripting runtime

Tables and proxies are nodes of the runtime's heap, and a value refers to them by number
(`TableId`, `ProxyId`).  A floating-point number is kept as its bits, so that equal values are
the same value.
-/

namespace NativeProxies

/-- Number of a table in the heap. -/
abbrev TableId : Type := Nat

/-- Number of a proxy in the heap. -/
abbrev ProxyId : Type := Nat

/-- What a script handles. -/
inductive Value
  | nil
  | boolean (b : Bool)
  | integer (i : Int64)
  /-- A number of double precision, given by its bits. -/
  | number (bits : UInt64)
  | string (s : String)
  | table (t : TableId)
  | proxy (p : ProxyId)
  /-- A native pointer that is not wrapped in a proxy. -/
  | pointer (a : Address)
deriving DecidableEq, Repr

namespace Value

def typeName : Value → String
  | nil => "nil"
  | boolean _ => "boolean"
  | integer _ => "integer"
  | number _ => "number"
  | string _ => "string"
  | table _ => "table"
  | proxy _ => "proxy"
  | pointer _ => "pointer"

def isNil : Value → Bool
  | nil => true
  | _ => false

/-- The proxy that a value is. -/
def proxy? : Value → Option ProxyId
  | proxy p => some p
  | _ => none

end Value

end NativeProxies
