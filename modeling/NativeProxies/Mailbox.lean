import NativeProxies.Identifier

/-!
# Notifications

A toggle reference reports when the count of its object changes between one and more than one.
Such a change may happen on any thread, so the notification waits (`Mailbox.post`) until the
bridge gets round to it.  Each registration has a generation of its own: a notification can arrive
after its proxy was released while the address is already wrapped again, and the generation tells
the two apart.
-/

namespace NativeProxies

/-- The number of a toggle registration, counted from one. -/
abbrev Generation : Type := Nat

/-- A notification that waits to be applied. -/
structure Notification where
  object : Address
  /-- The registration that raised it. -/
  generation : Generation
  /-- Whether the toggle reference became the last reference. -/
  isLast : Bool
deriving DecidableEq, Repr

/-- The notifications a bridge has yet to apply. -/
structure Mailbox where
  pending : Array Notification := #[]
  nextGeneration : Generation := 1
  /-- How many notifications came from another thread than the bridge's own. -/
  foreign : UInt64 := 0
deriving DecidableEq, Repr

namespace Mailbox

/-- Gives out a fresh generation. -/
def issue (m : Mailbox) : Mailbox × Generation :=
  ({ m with nextGeneration := m.nextGeneration + 1 }, m.nextGeneration)

/-- Puts in a notification, raised on another thread or not. -/
def post (m : Mailbox) (foreign : Bool) (n : Notification) : Mailbox :=
  { m with
    pending := m.pending.push n
    foreign := if foreign then m.foreign + 1 else m.foreign }

/-- Takes out the notification that waited longest. -/
def takeOne (m : Mailbox) : Mailbox × Option Notification :=
  ({ m with pending := m.pending.drop 1 }, m.pending[0]?)

/-- Takes out all notifications, in the order in which they came. -/
def takeAll (m : Mailbox) : Mailbox × List Notification :=
  ({ m with pending := #[] }, m.pending.toList)

def size (m : Mailbox) : Nat := m.pending.size

def isEmpty (m : Mailbox) : Bool := m.pending.isEmpty

end Mailbox

end NativeProxies
