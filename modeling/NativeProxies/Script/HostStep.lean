import NativeProxies.Script.Answer
import NativeProxies.Shares

/-!
# Steps on the host

What the code around the bridges does with the host: defining types, making instances, moving
references on its own account, and looking at the result.
-/

namespace NativeProxies

namespace Outside

/-- Goes on only if an object exists and was not freed. -/
def ifAlive (o : Outside) (a : Address) (k : Outside × Answer) : Outside × Answer :=
  if !o.host.instances.contains a then (o, .refused .noObject)
  else if !o.host.isAlive a then (o, .refused .deadObject)
  else k

/-- The host's own function that takes a reference through a pointer, and gives the pointer back.
A null pointer is left alone. -/
def takeThrough (o : Outside) (p : Option Address) : Outside × Option Address :=
  (p.elim o fun a => o.change false a .take, p)

/-- The host's own function that drops a reference through a pointer.  A null pointer is left
alone. -/
def dropThrough (o : Outside) (p : Option Address) : Outside :=
  p.elim o fun a => o.change false a .drop

/-- One worker's part of a storm: in each round it takes a reference to every object of its share
and drops them again, all on a foreign thread. -/
def stormShare (o : Outside) (objects : List Address) : Nat → Outside
  | 0 => o
  | n + 1 =>
    let o := objects.foldl (fun o a => o.change true a .take) o
    let o := objects.foldl (fun o a => o.change true a .drop) o
    o.stormShare objects n

/-- All workers' parts, one after the other: the shares have no object in common. -/
def storm (o : Outside) (objects : List Address) (workers rounds : Nat) : Outside :=
  (Shares.among objects workers).foldl (fun o share => o.stormShare share rounds) o

end Outside

/-- A step on the host. -/
inductive HostStep
  | addClass (name : String) (parent : TypeId)
  | addFundamental (name : String) (functions : Option ReferenceFunctions)
  | addInterface (name : String)
  | addConformance (t interface : TypeId)
  | setFunctions (t : TypeId) (functions : ReferenceFunctions)
  | typeSummary (t : TypeId)
  /-- Whether a type conforms to another, and whether it descends from it. -/
  | conformance (t ancestor : TypeId)
  | classRecord (a : Address) (t : TypeId)
  | typeOf (a : Address)
  | create (a : Address) (t : TypeId) (floating : Bool)
  | take (a : Address) (times : Nat) (foreign : Bool)
  | drop (a : Address) (times : Nat) (foreign : Bool)
  | sink (a : Address) (times : Nat) (foreign : Bool)
  /-- Both of the host's own functions are called with a null pointer. -/
  | nullPointer
  | storm (objects : List Address) (workers rounds : Nat)
  | watch (a : Address) (recorder : String)
  | unwatch (a : Address) (recorder : String)
  | tape (recorder : String)
  | instanceSummary (a : Address)
  | totals
deriving DecidableEq, Repr

namespace HostStep

/-- Answers the tag of a new type. -/
def defined (o : Outside) (d : TypeTable × TypeId) : Outside × Answer :=
  ({ o with host := { o.host with types := d.1 } }, .tag (some d.2))

/-- Carries out a step. -/
def run (o : Outside) : HostStep → Outside × Answer
  | addClass name parent => defined o (o.host.types.addClass name parent)
  | addFundamental name functions => defined o (o.host.types.addFundamental name functions)
  | addInterface name => defined o (o.host.types.addInterface name)
  | addConformance t i =>
    ({ o with host := { o.host with types := o.host.types.addConformance t i } }, .done)
  | setFunctions t functions =>
    ({ o with host := { o.host with types := o.host.types.setFunctions t functions } }, .done)
  | typeSummary t =>
    let types := o.host.types
    (o, .typeSummary
      { name := types.name t, parent := types.parent? t, fundamental := types.fundamental t
        isInterface := types.isInterface t, isObject := types.isObject t
        functions := types.functions? t })
  | conformance t ancestor =>
    (o, .conformance (o.host.types.conforms t ancestor) (o.host.types.descends t ancestor))
  | classRecord a t => o.ifAlive a (o, .tag (o.host.classRecord? a t))
  | typeOf a => o.ifAlive a (o, .tag (some (o.host.typeOf a)))
  | create a t floating =>
    if o.host.instances.contains a then (o, .refused .nameTaken)
    else ({ o with host := o.host.create a t floating }, .done)
  | take a times foreign => o.ifAlive a (o.changeTimes foreign a .take times, .done)
  | drop a times foreign => o.ifAlive a (o.changeTimes foreign a .drop times, .done)
  | sink a times foreign => o.ifAlive a (o.changeTimes foreign a .sink times, .done)
  | nullPointer =>
    let r := o.takeThrough none
    (r.1.dropThrough none, .flag r.2.isNone)
  | storm objects workers rounds =>
    match objects.find? fun a => !o.host.isAlive a with
    | some a => o.ifAlive a (o, .done)
    | none => (o.storm objects workers rounds, .done)
  | watch a recorder => o.ifAlive a (o.change false a (.watch (.recorder recorder)), .done)
  | unwatch a recorder => o.ifAlive a (o.change false a (.unwatch (.recorder recorder)), .done)
  | tape recorder =>
    let r := o.takeTape recorder
    (r.1, .tape r.2)
  | instanceSummary a =>
    if !o.host.instances.contains a then (o, .refused .noObject)
    else (o, .instanceSummary
      { counts := o.host.counts? a, aliveCount := o.host.aliveCount
        freedCount := o.host.freedCount })
  | totals => (o, .totals o.host.aliveCount o.host.freedCount)

end HostStep

end NativeProxies
