import NativeProxies.Bridge.Cycle
import NativeProxies.Bridge.Inspect
import NativeProxies.CommandLine
import NativeProxies.Shares

/-!
# The demonstration

In every round a number of floating objects is made and held by workers on other threads, wrapped
and numbered by the script, and collected once while they are held and once after the workers let
go.  All objects must keep their numbers in between, and none may survive the round.

`run` lets the workers go one after the other, and makes every object at an address of its own.  What else
may happen, when the workers run side by side and addresses of freed objects come back, is described by
`Runs`.
-/

namespace NativeProxies

namespace Scenario

/-- The type of the objects, the first one after the base kind. -/
def widget : TypeId := (TypeTable.initial.addClass "DemoWidget" .object).2

/-- How the script knows the type. -/
def widgetDescriptor : Descriptor :=
  { name := "Demo.Widget", tag := widget, record := some "Demo.WidgetClass" }

/-- A bridge over a host that knows the type of the objects. -/
def start (settings : Settings) : Machine :=
  let host : Host := { types := (TypeTable.initial.addClass "DemoWidget" .object).1 }
  let bridge : Bridge := { serial := 0, settings }
  let c : Machine := ⟨bridge, ({ host } : Outside).setMailbox 0 { }⟩
  c.register widgetDescriptor

/-- The objects of a round, when `made` were made before.  Their addresses were never used; other addresses
that they may get are described by `MayGet`. -/
def objects (made n : Nat) : List Address := (List.range n).map fun i => Address.nth (made + i)

/-- Makes the objects, with a floating reference each. -/
def makeAll (c : Machine) (objects : List Address) : Machine :=
  let host := objects.foldl (fun h a => h.create a widget true) c.host
  { c with outside := { c.outside with host } }

/-- Every worker takes, or drops, one reference to each object of its share, one worker after the other. -/
def hold (c : Machine) (objects : List Address) (workers : Nat) (r : RefChange) : Machine :=
  let work (o : Outside) (share : List Address) : Outside :=
    share.foldl (fun o a => o.change true a r) o
  { c with outside := (Shares.among objects workers).foldl work c.outside }

/-- What may come of it when the workers take, or drop, their references side by side.  A change is one step
together with its notice, for an object gives the notice before its references are changed again. -/
def Holds (c : Machine) (objects : List Address) (workers : Nat) (r : RefChange) (c' : Machine) : Prop :=
  ∃ order, Shares.Interleaves (Shares.among objects workers) order ∧
    c' = { c with outside := c.outside.changeAll order r }

/-- The member that numbers an object. -/
def indexMember : String := "index"

/-- Wraps an object and gives it the number `i`; answers whether that went well. -/
def number (c : Machine) (i : Nat) (a : Address) : Machine × Bool :=
  let r := c.toValue (some a) false
  match r.2 with
  | .error _ => (r.1, false)
  | .ok v =>
    let r := r.1.useMember v indexMember (some (.integer (Int64.ofNat i)))
    (r.1, r.2.isOk)

/-- Wraps the objects and numbers them from `i` on, up to the first failure; answers whether
there was one. -/
def numberAll (c : Machine) (i : Nat) : List Address → Machine × Bool
  | [] => (c, false)
  | a :: rest =>
    let r := number c i a
    if r.2 then numberAll r.1 (i + 1) rest else (r.1, true)

/-- Whether an object still has its proxy, strongly cached and with its number. -/
def isRetained (c : Machine) (i : Nat) (a : Address) : Machine × Bool :=
  match c.proxyOf? a with
  | none => (c, false)
  | some p =>
    let r := c.useMember (.proxy p) indexMember none
    match r.2 with
    | .error _ => (r.1, false)
    | .ok v => (r.1, r.1.cache.isStrong a && v == .integer (Int64.ofNat i))

/-- How many objects, numbered from `i` on, still have their proxies and numbers. -/
def countRetained (c : Machine) (i : Nat) : List Address → Machine × Nat
  | [] => (c, 0)
  | a :: rest =>
    let r := isRetained c i a
    let n := countRetained r.1 (i + 1) rest
    (n.1, if r.2 then n.2 + 1 else n.2)

/-- The result of a round. -/
structure Round where
  wrapped : Nat
  retained : Nat
  survivors : Nat
  /-- Whether an object could not be wrapped or numbered. -/
  failed : Bool
deriving DecidableEq, Repr

namespace Round

/-- Whether the cache did what it should. -/
def isConsistent (r : Round) : Bool :=
  !r.failed && r.retained == r.wrapped && r.survivors == 0

/-- The line for a round. -/
def line (r : Round) (number : Nat) : String :=
  "round " ++ toString number ++ ": wrapped " ++ toString r.wrapped ++ ", retained "
    ++ toString r.retained ++ " while held, " ++ toString r.survivors ++ " survived release"

end Round

/-- What the script does while the workers hold the objects: it wraps and numbers them, collects, and counts
those that are retained.  Answers how many these are, and whether an object could not be numbered. -/
def inspectHeld (c : Machine) (objects : List Address) : Machine × Nat × Bool :=
  let numbered := numberAll c.enter 0 objects
  let counted := countRetained numbered.1.leave.collect.enter 0 objects
  (counted.1.leave, counted.2, numbered.2)

/-- Collects after the workers let go, and counts the objects that are left. -/
def conclude (c : Machine) (objects : List Address) (retained : Nat) (failed : Bool) : Machine × Round :=
  let c := c.collect
  (c, { wrapped := objects.length
        retained
        survivors := objects.countP fun a => c.host.isAlive a
        failed })

/-- Runs a round on objects that do not exist yet. -/
def round (c : Machine) (workers : Nat) (objects : List Address) : Machine × Round :=
  let held := inspectHeld (hold (makeAll c objects) objects workers .take) objects
  conclude (hold held.1 objects workers .drop) objects held.2.1 held.2.2

/-- What may come of a round when the workers run side by side. -/
def PlaysRound (c : Machine) (workers : Nat) (objects : List Address) (r : Machine × Round) : Prop :=
  ∃ taken dropped : Machine,
    Holds (makeAll c objects) objects workers .take taken ∧
    Holds (inspectHeld taken objects).1 objects workers .drop dropped ∧
    r = conclude dropped objects (inspectHeld taken objects).2.1 (inspectHeld taken objects).2.2

/-- The objects of a round may get any addresses where no object lives, also those of freed objects. -/
structure MayGet (c : Machine) (n : Nat) (objects : List Address) : Prop where
  length : objects.length = n
  nodup : objects.Nodup
  free : ∀ a ∈ objects, c.host.isAlive a = false

/-- What a run writes, and how it ends. -/
structure Transcript where
  output : List String
  /-- The complaint about an inconsistent round. -/
  complaint : Option String := none
  success : Bool
deriving DecidableEq, Repr

/-- Closes the bridge and reports. -/
def finish (c : Machine) : Transcript :=
  let live := c.close.host.aliveCount
  { output := c.counters.report ++ ["live native objects: " ++ toString live]
    success := live == 0 }

/-- Gives up after an inconsistent round. -/
def giveUp (r : Round) (number : Nat) : Transcript :=
  { output := [r.line number]
    complaint := some ("round " ++ toString number ++ " left the cache inconsistent")
    success := false }

/-- Puts the line of a round before what comes after it. -/
def Transcript.after (t : Transcript) (r : Round) (number : Nat) : Transcript :=
  { t with output := r.line number :: t.output }

/-- Runs rounds from number `number` on, with `n` objects each, and finishes. -/
def rounds (c : Machine) (n workers : Nat) (number : Nat) : Nat → Transcript
  | 0 => finish c
  | k + 1 =>
    let r := round c workers (objects (number * n) n)
    if r.2.isConsistent then (rounds r.1 n workers (number + 1) k).after r.2 number
    else giveUp r.2 number

/-- What may come of a number of rounds from number `number` on, with `n` objects each. -/
inductive Plays (n workers : Nat) : Machine → Nat → Nat → Transcript → Prop
  | finish {c : Machine} {number : Nat} : Plays n workers c number 0 (finish c)
  | next {c : Machine} {objects : List Address} {r : Machine × Round} {number k : Nat} {t : Transcript}
    (hobjects : MayGet c n objects) (hround : PlaysRound c workers objects r) (hr : r.2.isConsistent)
    (hrest : Plays n workers r.1 (number + 1) k t) :
    Plays n workers c number (k + 1) (t.after r.2 number)
  | giveUp {c : Machine} {objects : List Address} {r : Machine × Round} {number k : Nat}
    (hobjects : MayGet c n objects) (hround : PlaysRound c workers objects r)
    (hr : ¬r.2.isConsistent) :
    Plays n workers c number (k + 1) (giveUp r.2 number)

/-- The settings of a run: those of the environment, with the threshold of the command line if it
gives one. -/
def settings (line : CommandLine) (env : String → Option String) : Settings :=
  line.threshold.elim (Settings.ofLookup env) (Settings.ofLookup env).withThreshold

/-- Runs the demonstration. -/
def run (line : CommandLine) (env : String → Option String) : Transcript :=
  rounds (start (settings line env)) line.objects line.workers 0 line.rounds

/-- What may come of the demonstration. -/
def Runs (line : CommandLine) (env : String → Option String) (t : Transcript) : Prop :=
  Plays line.objects line.workers (start (settings line env)) 0 line.rounds t

namespace Transcript

/-- The exit code. -/
def code (t : Transcript) : Nat := if t.success then 0 else 1

end Transcript

end Scenario

end NativeProxies
