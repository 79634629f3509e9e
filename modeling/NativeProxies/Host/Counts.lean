import NativeProxies.Host.Types
import NativeProxies.Mailbox

/-!
# Counted instances

An instance counts its references.  The first of them may be floating, which means that whoever
sinks it (`RefChange.sink`) takes it over instead of adding one.  Toggle references are counted
like others, and each has a watcher.  While exactly one watcher is there, it is told whenever the
count goes from one to two or from two to one.
-/

namespace NativeProxies

/-- Who is told about a toggle reference. -/
inductive Watcher
  /-- A registration of a bridge. -/
  | bridge (serial : Nat) (generation : Generation)
  /-- An observer of the embedder, by name. -/
  | recorder (name : String)
deriving DecidableEq, Repr

/-- What can be done to the references of an instance. -/
inductive RefChange
  /-- Adds a reference. -/
  | take
  /-- Drops a reference. -/
  | drop
  /-- Takes over the floating reference, or adds one if none is floating. -/
  | sink
  /-- Adds a toggle reference. -/
  | watch (w : Watcher)
  /-- Drops a toggle reference, if it is there. -/
  | unwatch (w : Watcher)
deriving DecidableEq, Repr

/-- The counts of an instance that was not freed. -/
structure Counts where
  refs : Nat
  floating : Bool
  /-- The watchers of the toggle references, in the order in which they came. -/
  watchers : List Watcher
deriving DecidableEq, Repr

/-- What a watcher is told: whether its reference became the last one. -/
structure Notice where
  watcher : Watcher
  isLast : Bool
deriving DecidableEq, Repr

namespace Counts

/-- One reference, floating or not. -/
def initial (floating : Bool) : Counts := ⟨1, floating, []⟩

/-- The notice of a change between one and two references: only a single watcher gets it. -/
def notice (c : Counts) (isLast : Bool) : Option Notice :=
  match c.watchers with
  | [w] => some ⟨w, isLast⟩
  | _ => none

/-- Adds a reference. -/
def increment (c : Counts) : Counts × Option Notice :=
  ({ c with refs := c.refs + 1 }, if c.refs = 1 then c.notice false else none)

/-- Drops a reference; the instance is freed with the last one. -/
def decrement (c : Counts) : Option Counts × Option Notice :=
  (if c.refs ≤ 1 then none else some { c with refs := c.refs - 1 },
   if c.refs = 2 then c.notice true else none)

/-- Changes the references; no counts are left when the instance is freed. -/
def apply (c : Counts) : RefChange → Option Counts × Option Notice
  | .take => (some c.increment.1, c.increment.2)
  | .drop => c.decrement
  | .sink =>
    if c.floating then (some { c with floating := false }, none)
    else (some c.increment.1, c.increment.2)
  | .watch w => (some { c.increment.1 with watchers := c.watchers ++ [w] }, c.increment.2)
  | .unwatch w =>
    if w ∈ c.watchers then { c with watchers := c.watchers.erase w }.decrement else (some c, none)

end Counts

/-- An instance; once it is freed only its type is known. -/
structure Instance where
  tag : TypeId
  counts : Option Counts
deriving DecidableEq, Repr

end NativeProxies
