import NativeProxies.Host.Counts

/-!
# The host of native objects

A host defines types and counts the references of the instances made of them.  An address names
one instance for ever.
-/

namespace NativeProxies

/-- Types and instances. -/
structure Host where
  types : TypeTable := .initial
  instances : Map Address Instance := ∅

namespace Host

/-- The counts of an instance that was not freed. -/
def counts? (h : Host) (a : Address) : Option Counts := h.instances[a]?.bind Instance.counts

def isAlive (h : Host) (a : Address) : Bool := (h.counts? a).isSome

/-- The type of an instance, freed or not. -/
def typeOf (h : Host) (a : Address) : TypeId := (h.instances[a]?.map Instance.tag).getD .object

/-- Makes an instance with one reference, floating or not, at an address not used before. -/
def create (h : Host) (a : Address) (tag : TypeId) (floating : Bool) : Host :=
  { h with instances := h.instances.insert a ⟨tag, some (.initial floating)⟩ }

/-- Changes the references of an instance.  Nothing happens to one that was freed. -/
def apply (h : Host) (a : Address) (r : RefChange) : Host × Option Notice :=
  match h.counts? a with
  | none => (h, none)
  | some c =>
    let after := c.apply r
    ({ h with instances := h.instances.insert a ⟨h.typeOf a, after.1⟩ }, after.2)

/-- How many instances were not freed. -/
def aliveCount (h : Host) : Nat :=
  h.instances.toList.countP fun item => item.2.counts.isSome

/-- How many instances were freed. -/
def freedCount (h : Host) : Nat :=
  h.instances.toList.countP fun item => item.2.counts.isNone

/-- The class record of an instance as seen through a type that it conforms to.  There is one
record for each defined type, so the tag names it. -/
def classRecord? (h : Host) (a : Address) (t : TypeId) : Option TypeId :=
  if h.isAlive a && h.types.conforms (h.typeOf a) t && (h.types.get? t).isSome then some t else none

end Host

end NativeProxies
