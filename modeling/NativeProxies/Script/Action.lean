import NativeProxies.Script.Expr
import NativeProxies.Script.HostStep

/-!
# Steps within a bridge

What a script does in a bridge that it entered (`Action`), and what it may ask the catalog of a
bridge at any time (`CatalogStep`).
-/

namespace NativeProxies

/-- A question to the catalog. -/
inductive CatalogStep
  | locate (t : TypeId)
  | labelFor (t : Option TypeId)
  | hook (d : Transfer) (t : TypeId)
  | descriptor (t : TypeId)
  | named (name : String)
  | extent
deriving DecidableEq, Repr

namespace CatalogStep

/-- Answers a question. -/
def run (c : Machine) : CatalogStep → Machine × Answer
  | locate t =>
    let r := c.locate t
    (r.1, .located r.2)
  | labelFor t =>
    let r := c.labelFor t
    (r.1, .text r.2)
  | hook d t =>
    let r := c.hook? t d
    (r.1, .hook (r.2.map fun _ => d))
  | descriptor t => (c, .descriptor (c.bridge.catalog.descriptor? t))
  | named name => (c, .descriptor (c.bridge.catalog.named? name))
  | extent => (c, .extent c.bridge.catalog.size c.bridge.catalog.isEmpty)

end CatalogStep

/-- A step in a bridge that was entered.  Where a variable is named, the resulting value is kept
in it. -/
inductive Action
  | keep (e : Expr) (name : Option String)
  | wrap (a : Option Address) (handedOver : Bool) (name : Option String)
  | toNative (need : Requirement) (e : Expr) (position : Nat)
  | dismiss (e : Expr)
  | describe (e : Expr)
  | typeName (e : Expr)
  | isNil (e : Expr)
  | useMember (e : Expr) (new : Option Expr) (member : String) (name : Option String)
  | useField (e : Expr) (new : Option Expr) (raw : RawField) (name : Option String)
  | inspect (aspect : Aspect) (e : Expr) (t : Option TypeId) (name : Option String)
  | inspectAs (e t : Expr) (word : String) (name : Option String)
  | readType (e : Expr)
  | notify (n : Notification)
  | catchUp
  | find (a : Address) (name : Option String)
  | cached (a : Address)
  | cacheSizes
  | stash (e : Expr) (name : String)
  | same (e f : Expr)
  | debug (e : Expr)
  | get (e : Expr) (key : String) (name : Option String)
  | set (e new : Expr) (key : String)
  | extent (e : Expr)
  | catalog (q : CatalogStep)
  | host (h : HostStep)

namespace Scope

/-- Goes on with another machine. -/
def into (s : Scope) (c : Machine) : Scope := { s with machine := c }

/-- Answers the result of an operation on the machine. -/
def after {α : Type} (s : Scope) (r : Machine × α) (f : α → Answer) : Scope × Answer :=
  (s.into r.1, f r.2)

/-- Answers a value and keeps it. -/
def answer (s : Scope) (name : Option String) : Except Failure Value → Scope × Answer
  | .error e => (s, .failed e)
  | .ok v => (s.keep name v, s.present v)

/-- Answers the value that an operation on the machine gave, and keeps it. -/
def afterValue (s : Scope) (name : Option String) (r : Machine × Except Failure Value) :
    Scope × Answer :=
  (s.into r.1).answer name r.2

/-- Keeps the environment if that is what an inspection found. -/
def keepFound (s : Scope) (name : Option String) : Option Finding → Scope
  | some (.environment t _) => s.keep name (.table t)
  | _ => s

/-- Answers an inspection. -/
def answerFinding (s : Scope) (name : Option String) :
    Except Failure (Option Finding) → Scope × Answer
  | .error e => (s, .failed e)
  | .ok i => (s.keepFound name i, .inspected i)

end Scope

namespace Action

/-- Wraps an object that the script got from elsewhere. -/
def wrapObject (s : Scope) (a : Option Address) (handedOver : Bool) (name : Option String) :
    Scope × Answer :=
  s.afterValue name (s.machine.toValue a handedOver)

/-- Carries out a step. -/
def run (s : Scope) : Action → Scope × Answer
  | keep e name => s.eval e fun s v => s.answer name (.ok v)
  | wrap none handedOver name => wrapObject s none handedOver name
  | wrap (some a) handedOver name =>
    if !s.machine.host.instances.contains a then (s, .refused .noObject)
    else if !s.machine.host.isAlive a then (s, .refused .deadObject)
    else wrapObject s (some a) handedOver name
  | toNative need e position => s.eval e fun s v =>
    s.after (s.machine.toNative v position need) (.ofExcept .object)
  | dismiss e => s.eval e fun s v => s.after (s.machine.dismiss v) .flag
  | describe e => s.eval e fun s v => s.after (s.machine.describe v) .description
  | typeName e => s.eval e fun s v => (s, .text v.typeName)
  | isNil e => s.eval e fun s v => (s, .flag v.isNil)
  | useMember e new member name => s.eval e fun s v => s.evalOption new fun s new =>
    s.afterValue name (s.machine.useMember v member new)
  | useField e new raw name => s.eval e fun s v => s.evalOption new fun s new =>
    s.afterValue name (s.machine.useField v raw new)
  | inspect aspect e t name => s.eval e fun s v =>
    let r := s.machine.inspect v aspect t
    (s.into r.1).answerFinding name (.ok r.2)
  | inspectAs e t word name => s.eval e fun s v => s.eval t fun s t =>
    let r := s.machine.inspectAs v word t
    (s.into r.1).answerFinding name r.2
  | readType e => s.eval e fun s v => (s, .tag (s.machine.bridge.catalog.readType v))
  | notify n => (s.into (s.machine.applyNotification n), .done)
  | catchUp => (s.into s.machine.catchUp, .done)
  | find a name =>
    (s.machine.proxyOf? a).elim (s, .noValue) fun p => s.answer name (.ok (.proxy p))
  | cached a => (s, .flags (s.machine.cache.contains a) (s.machine.cache.isStrong a))
  | cacheSizes => (s, .sizes s.machine.cache.weak.size s.machine.cache.strong.size)
  | stash e name => s.evalProxy e fun s p =>
    (s.into (s.machine.setMemory (s.machine.memory.root name p)), .done)
  | same e f => s.eval e fun s v => s.eval f fun s w =>
    match v, w with
    | .proxy p, .proxy q => (s, .flags (p == q) (p == q))
    | _, _ => (s, .refused .notProxy)
  | debug e => s.eval e fun s v => (s, .debugged (s.heap.view v))
  | get e key name => s.evalTable e fun s t => s.answer name (.ok (s.heap.get t key))
  | set e new key => s.evalTable e fun s t => s.eval new fun s v =>
    let h := s.heap.set t key v
    (s.setHeap h, .count (h.entries t).size)
  | extent e => s.evalTable e fun s t =>
    (s, .extent (s.heap.entries t).size (s.heap.entries t).isEmpty)
  | catalog q => s.after (q.run s.machine) id
  | host h =>
    let r := h.run s.machine.outside
    (s.into { s.machine with outside := r.1 }, r.2)

end Action

end NativeProxies
