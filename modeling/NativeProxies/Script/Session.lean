import NativeProxies.Bridge.Cycle
import NativeProxies.Script.Action

/-!
# Sessions

A session holds a host and any number of bridges by name.  A step enters a bridge for a list of
actions, lets it catch up, collects or closes it, or works on the host (`Session.step`), and a
script is run step by step (`Session.run`).  With every answer come the reference calls that
bridges made meanwhile.
-/

namespace NativeProxies

/-- A host with its bridges. -/
structure Session where
  outside : Outside := { }
  bridges : Map String Bridge := ∅
  /-- The serial number of the next bridge. -/
  nextSerial : Nat := 0

/-- A step of a script. -/
inductive Step
  | open (name : String) (settings : Settings) (responder : Responder) (ancestorsOnly : Bool)
  | enter (name : String) (actions : List Action)
  | catchUp (name : String)
  | collect (name : String)
  | close (name : String)
  | unstash (name : String) (stash : String)
  | register (name : String) (d : Descriptor)
  | catalog (name : String) (q : CatalogStep)
  | host (h : HostStep)

/-- What a step answers: for a visit, the answers of the actions with the calls made by each. -/
inductive Outcome
  | single (a : Answer)
  | visit (answers : List (Answer × List Call))
deriving DecidableEq, Repr

/-- The answer of a step, with the calls that belong to no action of a visit. -/
structure Reply where
  outcome : Outcome
  calls : List Call
deriving DecidableEq, Repr

namespace Scope

/-- Carries out an action, and answers the calls it made, too. -/
def act (s : Scope) (a : Action) : Scope × Answer × List Call :=
  let r := a.run s
  (r.1, r.2, r.1.machine.outside.callsSince s.machine.outside.journal.size)

/-- Carries out actions in order. -/
def actAll (s : Scope) : List Action → Scope × List (Answer × List Call)
  | [] => (s, [])
  | a :: rest =>
    let r := s.act a
    let rs := r.1.actAll rest
    (rs.1, r.2 :: rs.2)

end Scope

namespace Session

/-- A bridge with what is outside. -/
def machine? (s : Session) (name : String) : Option Machine :=
  s.bridges[name]?.map fun b => ⟨b, s.outside⟩

/-- Takes over what became of a bridge and what is outside. -/
def put (s : Session) (name : String) (c : Machine) : Session :=
  { s with outside := c.outside, bridges := s.bridges.insert name c.bridge }

/-- Goes on with a bridge, if it is open. -/
def withMachine (s : Session) (name : String) (k : Machine → Machine × Answer) :
    Session × Answer :=
  match s.machine? name with
  | none => (s, .refused .noBridge)
  | some c =>
    let r := k c
    (s.put name r.1, r.2)

/-- Opens a bridge. -/
def openBridge (s : Session) (name : String) (settings : Settings) (responder : Responder)
    (ancestorsOnly : Bool) : Session × Answer :=
  if s.bridges.contains name then (s, .refused .nameTaken)
  else
    ({ outside := s.outside.setMailbox s.nextSerial { }
       bridges := s.bridges.insert name
         { serial := s.nextSerial, settings, responder, ancestorsOnly }
       nextSerial := s.nextSerial + 1 }, .done)

/-- Closes a bridge for good. -/
def closeBridge (s : Session) (name : String) : Session × Answer :=
  match s.machine? name with
  | none => (s, .refused .noBridge)
  | some c => ({ s with outside := c.close.outside, bridges := s.bridges.erase name }, .done)

/-- The scope of a visit to a bridge. -/
def beginVisit (s : Session) (name : String) : Option Scope :=
  (s.machine? name).map fun c => { machine := c.enter }

/-- Ends a visit to a bridge. -/
def endVisit (s : Session) (name : String) (scope : Scope) : Session :=
  s.put name scope.machine.leave

/-- The reply of a step that is no visit, begun when the journal had a given length. -/
def reply (before : Nat) (r : Session × Answer) : Session × Reply :=
  (r.1, ⟨.single r.2, r.1.outside.callsSince before⟩)

/-- Carries out a visit: the bridge is entered, the actions are carried out, and it is left. -/
def visit (s : Session) (name : String) (actions : List Action) : Session × Reply :=
  match s.beginVisit name with
  | none => (s, ⟨.single (.refused .noBridge), []⟩)
  | some scope =>
    let r := scope.actAll actions
    let s := s.endVisit name r.1
    (s, ⟨.visit r.2, s.outside.callsSince r.1.machine.outside.journal.size⟩)

/-- Carries out a step. -/
def step (s : Session) (t : Step) : Session × Reply :=
  let before := s.outside.journal.size
  match t with
  | .enter name actions => s.visit name actions
  | .open name settings responder ancestorsOnly =>
    reply before (s.openBridge name settings responder ancestorsOnly)
  | .catchUp name => reply before (s.withMachine name fun c => (c.catchUp, .done))
  | .collect name => reply before (s.withMachine name fun c => (c.collect, .done))
  | .close name => reply before (s.closeBridge name)
  | .unstash name stash => reply before (s.withMachine name fun c =>
    let r := c.memory.unroot stash
    (c.setMemory r.1, .flag r.2))
  | .register name d =>
    reply before (s.withMachine name fun c => (c.register d, .descriptor (some d)))
  | .catalog name q => reply before (s.withMachine name fun c => q.run c)
  | .host h =>
    let r := h.run s.outside
    reply before ({ s with outside := r.1 }, r.2)

/-- Runs a script. -/
def run (s : Session) : List Step → Session × List Reply
  | [] => (s, [])
  | t :: rest =>
    let r := s.step t
    let rs := r.1.run rest
    (rs.1, r.2 :: rs.2)

end Session

end NativeProxies
