import NativeProxies.Failure

/-!
# The type table of a host

Types are defined one after the other and never removed; a tag is a position in the table.  A type
may have a parent, whose fundamental type it takes over when it is defined, and class types may
implement interfaces.  Any tag is accepted as a parent, also one that is not defined yet, so the
walk to the ancestors of a type (`TypeTable.ancestry`) stops after as many steps as there are
types: without a cycle that is the whole chain.
-/

namespace NativeProxies

/-- An entry point that moves one reference to an object. -/
inductive EntryPoint
  /-- The host's own function for its instances. -/
  | native
  /-- A function made for a fundamental type. -/
  | fundamental
  /-- A function made for a hook of a descriptor. -/
  | hook
  /-- A symbol of a shared library that leaves the counts of the host alone. -/
  | symbol (name : String)
deriving DecidableEq, Repr

/-- The entry points registered with a type; each may be missing. -/
structure ReferenceFunctions where
  take : Option EntryPoint := none
  giveBack : Option EntryPoint := none
deriving DecidableEq, Repr

namespace ReferenceFunctions

/-- The host's own functions, which work on every instance. -/
def native : ReferenceFunctions := ⟨some .native, some .native⟩

/-- The function for one direction. -/
def entry? (f : ReferenceFunctions) : Transfer → Option EntryPoint
  | .take => f.take
  | .giveBack => f.giveBack

/-- Debugging text, which says which functions are there. -/
def debug (f : ReferenceFunctions) : String :=
  "FundamentalInfo \x7b ref_function: " ++ toString f.take.isSome ++ ", unref_function: "
    ++ toString f.giveBack.isSome ++ " \x7d"

end ReferenceFunctions

/-- One defined type. -/
structure TypeEntry where
  name : String
  parent : Option TypeId := none
  /-- The fundamental type taken over from the parent; a type without it is its own. -/
  fundamental : Option TypeId := none
  isInterface : Bool := false
  /-- The interfaces it implements itself. -/
  interfaces : List TypeId := []
  functions : Option ReferenceFunctions := none
deriving DecidableEq, Repr

/-- All defined types. -/
structure TypeTable where
  types : Array TypeEntry
deriving DecidableEq, Repr

namespace TypeTable

/-- The table with the base kind of objects alone. -/
def initial : TypeTable := ⟨#[{ name := "Object" }]⟩

/-- What is known of a tag, if it is defined. -/
def get? (s : TypeTable) (t : TypeId) : Option TypeEntry := s.types[t.index]?

def parent? (s : TypeTable) (t : TypeId) : Option TypeId := (s.get? t).bind TypeEntry.parent

/-- The name of a type; a tag that is not defined is shown as invalid. -/
def name (s : TypeTable) (t : TypeId) : String :=
  ((s.get? t).map TypeEntry.name).getD ("<invalid " ++ t.text ++ ">")

/-- The fundamental type of a tag, itself if it took none over. -/
def fundamental (s : TypeTable) (t : TypeId) : TypeId :=
  ((s.get? t).bind TypeEntry.fundamental).getD t

def isInterface (s : TypeTable) (t : TypeId) : Bool :=
  ((s.get? t).map TypeEntry.isInterface).getD false

/-- Whether a type is the base kind of objects or derives from it. -/
def isObject (s : TypeTable) (t : TypeId) : Bool := s.fundamental t = .object

/-- The functions registered for exactly this tag. -/
def functions? (s : TypeTable) (t : TypeId) : Option ReferenceFunctions :=
  (s.get? t).bind TypeEntry.functions

/-- Whether a type lists an interface itself. -/
def lists (s : TypeTable) (t i : TypeId) : Bool :=
  ((s.get? t).map fun ty => ty.interfaces.contains i).getD false

/-- The first `n` tags of the chain of parents that starts with `t`. -/
def ancestors (s : TypeTable) : Nat → TypeId → List TypeId
  | 0, _ => []
  | n + 1, t => t :: (s.parent? t).elim [] (s.ancestors n)

/-- The chain of parents that starts with `t`.  Every tag on it but the last is defined, so a
chain without a cycle is no longer than this. -/
def ancestry (s : TypeTable) (t : TypeId) : List TypeId := s.ancestors (s.types.size + 1) t

/-- Whether a type is on the chain of parents of another. -/
def descends (s : TypeTable) (t ancestor : TypeId) : Bool := (s.ancestry t).contains ancestor

/-- Whether a type conforms to another: it descends from it, or one of its ancestors implements
it as an interface. -/
def conforms (s : TypeTable) (t ancestor : TypeId) : Bool :=
  (s.ancestry t).any fun u => u == ancestor || s.isInterface ancestor && s.lists u ancestor

/-! ## Definitions -/

/-- Adds a type and answers its tag. -/
def add (s : TypeTable) (ty : TypeEntry) : TypeTable × TypeId :=
  (⟨s.types.push ty⟩, ⟨s.types.size⟩)

/-- Defines a type that derives from `parent` and takes over its fundamental type. -/
def addClass (s : TypeTable) (name : String) (parent : TypeId) : TypeTable × TypeId :=
  s.add { name, parent := some parent, fundamental := some (s.fundamental parent) }

/-- Defines a new fundamental type. -/
def addFundamental (s : TypeTable) (name : String) (functions : Option ReferenceFunctions) :
    TypeTable × TypeId :=
  s.add { name, functions }

def addInterface (s : TypeTable) (name : String) : TypeTable × TypeId :=
  s.add { name, isInterface := true }

/-- Changes a defined type. -/
def modify (s : TypeTable) (t : TypeId) (f : TypeEntry → TypeEntry) : TypeTable :=
  ⟨s.types.modify t.index f⟩

/-- Lists an interface with a type. -/
def addConformance (s : TypeTable) (t i : TypeId) : TypeTable :=
  s.modify t fun ty => { ty with interfaces := ty.interfaces ++ [i] }

/-- Registers functions with a type. -/
def setFunctions (s : TypeTable) (t : TypeId) (functions : ReferenceFunctions) :
    TypeTable :=
  s.modify t fun ty => { ty with functions := some functions }

/-! ## Routes through registered functions -/

/-- The functions that count for a tag: its own, otherwise those of its fundamental type. -/
def effectiveFunctions (s : TypeTable) (t : TypeId) : Option ReferenceFunctions :=
  (s.functions? t).or (s.functions? (s.fundamental t))

end TypeTable

end NativeProxies
