import NativeProxies.Host.Types
import NativeProxies.Heap.Value

/-!
# The catalog of type descriptors

A descriptor is the script's view of a native type: its name, the name of its class record, and
hooks for types that the host itself cannot reference.  A type without a descriptor is described
by its nearest described ancestor (`Catalog.locate`).  Answers are remembered, missing ones
included, until the next descriptor is registered.
-/

namespace NativeProxies

/-- Number of a loaded library. -/
abbrev LibraryId : Type := Nat

/-- Entry points for the types that a host cannot reference itself. -/
structure OwnershipHooks where
  sink : Option EntryPoint := none
  drop : Option EntryPoint := none
  /-- The library that has to stay loaded for the entry points. -/
  keepalive : Option LibraryId := none
deriving DecidableEq, Repr

namespace OwnershipHooks

/-- The hook for one direction. -/
def entry? (h : OwnershipHooks) : Transfer → Option EntryPoint
  | .take => h.sink
  | .giveBack => h.drop

/-- Debugging text, which says which hooks are there. -/
def debug (h : OwnershipHooks) : String :=
  "CustomLifetime \x7b refsink: " ++ toString h.sink.isSome ++ ", unref: "
    ++ toString h.drop.isSome ++ ", .. \x7d"

end OwnershipHooks

/-- The script's view of a native type. -/
structure Descriptor where
  name : String
  tag : TypeId
  /-- The name of the class record. -/
  record : Option String := none
  hooks : OwnershipHooks := { }
deriving DecidableEq, Repr

/-- A descriptor with the ancestor it was found at. -/
structure Located where
  tag : TypeId
  descriptor : Descriptor
deriving DecidableEq, Repr

/-- The registered descriptors. -/
structure Catalog where
  descriptors : Map TypeId Descriptor := ∅
  names : Map String TypeId := ∅
  /-- Remembered answers of `locate`. -/
  memo : Map TypeId (Option Located) := ∅

namespace Catalog

/-- Registers a descriptor and forgets the remembered answers. -/
def register (c : Catalog) (d : Descriptor) : Catalog where
  descriptors := c.descriptors.insert d.tag d
  names := c.names.insert d.name d.tag
  memo := ∅

/-- The descriptor registered for exactly this tag. -/
def descriptor? (c : Catalog) (t : TypeId) : Option Descriptor := c.descriptors[t]?

/-- The descriptor of the tag that was last registered under a name. -/
def named? (c : Catalog) (name : String) : Option Descriptor := c.names[name]?.bind c.descriptor?

def size (c : Catalog) : Nat := c.descriptors.size

def isEmpty (c : Catalog) : Bool := c.descriptors.isEmpty

/-- The first described type on the chain of parents that starts with `t`. -/
def nearest (c : Catalog) (types : TypeTable) (t : TypeId) : Option Located :=
  (types.ancestry t).findSome? fun u => (c.descriptor? u).map (⟨u, ·⟩)

/-- The descriptor that describes a type: the remembered answer, else the nearest one, which is
remembered. -/
def locate (c : Catalog) (types : TypeTable) (t : TypeId) : Catalog × Option Located :=
  match c.memo[t]? with
  | some found => (c, found)
  | none =>
    let found := c.nearest types t
    ({ c with memo := c.memo.insert t found }, found)

/-- The hook of the descriptor that describes a type. -/
def hook? (c : Catalog) (types : TypeTable) (t : TypeId) (d : Transfer) :
    Catalog × Option EntryPoint :=
  let r := c.locate types t
  (r.1, r.2.bind fun found => found.descriptor.hooks.entry? d)

/-- The name of a type given the descriptor that describes it: the descriptor's name, with the
type's own name in brackets if it describes an ancestor, or the type's own name alone. -/
def nameFor (types : TypeTable) (t : TypeId) : Option Located → String
  | none => types.name t
  | some r =>
    if r.tag = t then r.descriptor.name
    else r.descriptor.name ++ "(" ++ types.name t ++ ")"

/-- What to call an expected type. -/
def labelFor (c : Catalog) (types : TypeTable) : Option TypeId → Catalog × String
  | none => (c, "object")
  | some t =>
    let r := c.locate types t
    (r.1, nameFor types t r.2)

/-- Reads a value as a type: a positive integer is a tag, a text names a descriptor. -/
def readType (c : Catalog) : Value → Option TypeId
  | .integer i => TypeId.ofRaw? i.toInt.toNat
  | .string s => (c.named? s).map Descriptor.tag
  | _ => none

end Catalog

end NativeProxies
