import NativeProxies.Bridge.Inspect

/-!
# Answers of a script

What the steps of a script answer: a result, a failure of the operation asked for, or a refusal
because the step names something that is not there.
-/

namespace NativeProxies

/-- Why a step cannot be carried out. -/
inductive Refusal
  /-- No bridge of this name is open. -/
  | noBridge
  /-- A bridge or an object of this name exists already. -/
  | nameTaken
  | noObject
  /-- The object was freed. -/
  | deadObject
  /-- The object has no proxy in the cache. -/
  | noProxy
  | noVar
  | noStash
  | notProxy
  | notTable
deriving DecidableEq, Repr

/-- A value as a reader sees it. -/
inductive View
  | nil
  | boolean (b : Bool)
  | integer (i : Int64)
  | number (bits : UInt64)
  | string (s : String)
  | table (t : TableId) (entries : Nat)
  | proxy (p : ProxyId) (object : Address) (released : Bool)
  | pointer (a : Address)
deriving DecidableEq, Repr

/-- A value as a reader sees it now; a proxy that was reclaimed is seen as nothing. -/
def Heap.view (h : Heap) : Value → View
  | .nil => .nil
  | .boolean b => .boolean b
  | .integer i => .integer i
  | .number bits => .number bits
  | .string s => .string s
  | .table t => .table t (h.entries t).size
  | .proxy p => (h.proxy? p).elim .nil fun r => .proxy p r.object r.released
  | .pointer a => .pointer a

namespace View

/-- Debugging text of tables and proxies, with objects and nodes called as the arguments
say; other values are shown by the name of their type. -/
def debug (naming : Address → String) (node : Nat → String) : View → String
  | table t entries => tableDebug (node t) entries
  | proxy p object released =>
    "proxy " ++ naming object ++ " @ " ++ node p ++ (if released then " (released)" else "")
  | nil => Value.nil.typeName
  | boolean b => (Value.boolean b).typeName
  | integer i => (Value.integer i).typeName
  | number bits => (Value.number bits).typeName
  | string s => (Value.string s).typeName
  | pointer a => (Value.pointer a).typeName

end View

/-- What is known of a type. -/
structure TypeSummary where
  name : String
  parent : Option TypeId
  fundamental : TypeId
  isInterface : Bool
  isObject : Bool
  functions : Option ReferenceFunctions
deriving DecidableEq, Repr

/-- What is known of an instance, and of the host as a whole. -/
structure InstanceSummary where
  counts : Option Counts
  aliveCount : Nat
  freedCount : Nat
deriving DecidableEq, Repr

/-- What a step answers. -/
inductive Answer
  | done
  | failed (e : Failure)
  | refused (r : Refusal)
  | flag (b : Bool)
  | flags (a b : Bool)
  /-- Whether a type conforms to another, and whether it descends from it. -/
  | conformance (conforms descends : Bool)
  | sizes (a b : Nat)
  | count (n : Nat)
  /-- A number of entries, and whether it is none. -/
  | extent (n : Nat) (empty : Bool)
  | text (s : String)
  | description (d : Description)
  | tag (t : Option TypeId)
  | object (a : Option Address)
  | value (v : View)
  | noValue
  /-- The debugging text of a value is asked for. -/
  | debugged (v : View)
  | descriptor (d : Option Descriptor)
  | located (r : Option Located)
  | hook (d : Option Transfer)
  | inspected (i : Option Finding)
  | tape (events : List (Address × Bool))
  | typeSummary (s : TypeSummary)
  | instanceSummary (s : InstanceSummary)
  | totals (alive freed : Nat)
deriving DecidableEq, Repr

namespace Answer

/-- The answer of an operation that may fail. -/
def ofExcept {α : Type} (f : α → Answer) : Except Failure α → Answer
  | .ok x => f x
  | .error e => .failed e

end Answer

end NativeProxies
