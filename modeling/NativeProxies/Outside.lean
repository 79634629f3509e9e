import NativeProxies.Host.Basic

/-!
# What bridges share with the rest of the process

The host, a mailbox of notifications for every bridge, the tapes of the embedder's recorders,
and a journal of the reference calls that bridges make.  Every change of a reference goes through
`Outside.change`, which delivers the notice to its watcher at once; a call made by a bridge is
written down first (`Outside.call`).
-/

namespace NativeProxies

/-- A way to change a reference. -/
inductive Route
  /-- By an operation of the host. -/
  | method (r : RefChange)
  /-- Through an entry point registered for the type. -/
  | function (e : EntryPoint) (t : Transfer)
deriving DecidableEq, Repr

namespace Route

/-- What a route does to the references of the object. -/
def change? : Route → Option RefChange
  | method r => some r
  | function (.symbol _) _ => none
  | function _ .take => some .take
  | function _ .giveBack => some .drop

/-- The word under which a call is written down.  Calls of the host's own functions and of
library symbols do not pass the writer. -/
def label? : Route → Option String
  | method .take => some "ref"
  | method .drop => some "unref"
  | method .sink => some "ref_sink"
  | method (.watch _) => some "add_toggle"
  | method (.unwatch _) => some "remove_toggle"
  | function .fundamental .take => some "info_ref"
  | function .fundamental .giveBack => some "info_unref"
  | function .hook .take => some "hook_ref"
  | function .hook .giveBack => some "hook_unref"
  | function .native _ => none
  | function (.symbol _) _ => none

/-- Whether a route is to remove a toggle reference that an object does not have. -/
def misses (h : Host) (a : Address) : Route → Bool
  | method (.unwatch w) => !(h.counts? a).any fun c => w ∈ c.watchers
  | _ => false

end Route

/-- A reference call made by a bridge. -/
structure Call where
  /-- The serial number of the bridge. -/
  caller : Nat
  route : Route
  object : Address
  /-- Whether the object was freed before the call, which then does nothing. -/
  dead : Bool
  /-- Whether the call was to remove a toggle reference that was not there.  Such a call gives a
  warning and does nothing else. -/
  missed : Bool
deriving DecidableEq, Repr

namespace Call

/-- The line for a call, with objects called as `naming` says; `none` for a call that does not
pass the writer. -/
def line? (naming : Address → String) (c : Call) : Option String :=
  c.route.label?.map fun what =>
    (if c.dead then "dead " else "") ++ what ++ " " ++ naming c.object

end Call

/-- What bridges share. -/
structure Outside where
  host : Host := { }
  /-- The mailbox of each bridge, by its serial number. -/
  mailboxes : Map Nat Mailbox := ∅
  /-- What each recorder was told since it was last asked. -/
  tapes : Map String (Array (Address × Bool)) := ∅
  /-- The calls of all bridges, in order. -/
  journal : Array Call := #[]

namespace Outside

/-- The mailbox of a bridge. -/
def mailbox (o : Outside) (serial : Nat) : Mailbox := o.mailboxes[serial]?.getD { }

/-- Replaces the mailbox of a bridge. -/
def setMailbox (o : Outside) (serial : Nat) (m : Mailbox) : Outside :=
  { o with mailboxes := o.mailboxes.insert serial m }

/-- Tells a watcher about an object, on the bridges' own thread or a foreign one. -/
def tell (o : Outside) (foreign : Bool) (a : Address) (n : Notice) : Outside :=
  match n.watcher with
  | .bridge serial generation =>
    { o with
      mailboxes := o.mailboxes.modify serial fun m => m.post foreign ⟨a, generation, n.isLast⟩ }
  | .recorder name =>
    { o with tapes := o.tapes.alter name fun t => some ((t.getD #[]).push (a, n.isLast)) }

/-- Changes the references of an object and tells its watcher. -/
def change (o : Outside) (foreign : Bool) (a : Address) (r : RefChange) : Outside :=
  let after := o.host.apply a r
  let o := { o with host := after.1 }
  after.2.elim o fun n => o.tell foreign a n

/-- Changes the references of an object `n` times, but stops once it is freed. -/
def changeTimes (o : Outside) (foreign : Bool) (a : Address) (r : RefChange) : Nat → Outside
  | 0 => o
  | n + 1 =>
    if o.host.isAlive a then (o.change foreign a r).changeTimes foreign a r n else o

/-- Changes the references of several objects on other threads. -/
def changeAll (o : Outside) (xs : List Address) (r : RefChange) : Outside :=
  xs.foldl (fun o a => o.change true a r) o

/-- A call of a bridge on its own thread. -/
def call (o : Outside) (caller : Nat) (route : Route) (a : Address) : Outside :=
  let entry : Call := ⟨caller, route, a, !o.host.isAlive a, route.misses o.host a⟩
  let o := { o with journal := o.journal.push entry }
  route.change?.elim o fun r => o.change false a r

/-- The calls made since the journal had a given length. -/
def callsSince (o : Outside) (n : Nat) : List Call := (o.journal.drop n).toList

/-- What a recorder was told since it was last asked. -/
def takeTape (o : Outside) (name : String) : Outside × List (Address × Bool) :=
  ({ o with tapes := o.tapes.erase name }, (o.tapes[name]?.getD #[]).toList)

end Outside

end NativeProxies
