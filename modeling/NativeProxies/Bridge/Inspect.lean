import NativeProxies.Bridge.Wrap
import NativeProxies.Text.Quoted

/-!
# What a script asks of a proxy

Converting a proxy back to its object, reading and writing members, describing a value, and
inspecting a proxy.  A proxy whose reference was given back is no longer an object for any of
them.
-/

namespace NativeProxies

/-- How a value is to be converted to a native pointer. -/
structure Requirement where
  /-- The required type, if any. -/
  expected : Option TypeId := none
  /-- Accept nil as a null pointer. -/
  optional : Bool := false
  /-- Answer a mismatch with a null pointer instead of a failure. -/
  lenient : Bool := false
deriving DecidableEq, Repr

/-- A raw field of a native instance. -/
structure RawField where
  name : String
  offset : Nat
deriving DecidableEq, Repr

/-- What a proxy can be inspected for. -/
inductive Aspect
  | tag
  | descriptor
  | classRecord
  | environment
deriving DecidableEq, Repr

namespace Aspect

/-- The aspect that a word asks for. -/
def ofText (s : String) : Except Failure Aspect :=
  if s = "tag" then .ok tag
  else if s = "descriptor" then .ok descriptor
  else if s = "class" then .ok classRecord
  else if s = "env" then .ok environment
  else .error (.unknownAspect s)

/-- Debugging text. -/
def debug : Aspect → String
  | tag => "Tag"
  | descriptor => "Descriptor"
  | classRecord => "Class"
  | environment => "Env"

end Aspect

/-- The result of an inspection. -/
inductive Finding
  | tag (t : TypeId)
  | descriptor (d : Descriptor)
  /-- The name of the class record, and the type whose class record the object has. -/
  | classRecord (name : Option String) (pointer : Option TypeId)
  /-- The environment of the proxy, with the number of its entries. -/
  | environment (t : TableId) (entries : Nat)
deriving DecidableEq, Repr

/-- Debugging text of a table that is written as `node`. -/
def tableDebug (node : String) (entries : Nat) : String :=
  "table @ " ++ node ++ " (" ++ toString entries ++ " entries)"

/-- Debugging text of a value that may be missing. -/
def optionDebug (s : Option String) : String := s.elim "None" fun s => "Some(" ++ s ++ ")"

namespace Finding

/-- Debugging text, with class records and nodes called as the arguments say. -/
def debug (record : TypeId → String) (node : Nat → String) : Finding → String
  | tag t => "Tag(" ++ t.text ++ ")"
  | descriptor d => "Descriptor(" ++ d.name ++ ")"
  | classRecord name pointer =>
    "Class \x7b record: " ++ optionDebug (name.map Quoted.quote) ++ ", pointer: "
      ++ optionDebug (pointer.map fun t => Address.debugAs (record t)) ++ " \x7d"
  | environment t entries => "Env(" ++ tableDebug (node t) entries ++ ")"

end Finding

/-- What a value is, for a reader. -/
inductive Description
  /-- Any value that is neither a proxy nor a pointer, by the name of its type. -/
  | plain (typeName : String)
  | pointer (a : Address)
  /-- A proxy whose reference was given back. -/
  | released (a : Address)
  /-- A proxy, with the name of its descriptor and of its type. -/
  | live (a : Address) (descriptor : Option String) (typeName : String)
deriving DecidableEq, Repr

namespace Description

/-- The description in words, with objects called as `naming` says. -/
def text (naming : Address → String) : Description → String
  | plain typeName => typeName
  | pointer a => "pointer " ++ naming a
  | released a => "proxy " ++ naming a ++ ":<released>"
  | live a descriptor typeName =>
    "proxy " ++ naming a ++ ":" ++ descriptor.getD "<???>" ++ "(" ++ typeName ++ ")"

end Description

namespace Machine

/-- The failure of a value that is not of an expected type. -/
def mismatch (c : Machine) (v : Value) (position : Nat) (expected : Option TypeId) :
    Machine × Failure :=
  let r := c.labelFor expected
  (r.1, .typeMismatch position r.2 v.typeName)

/-- Fails because a value is not of an expected type. -/
def refuse {α : Type} (c : Machine) (v : Value) (position : Nat) (expected : Option TypeId) :
    Machine × Except Failure α :=
  let r := c.mismatch v position expected
  (r.1, .error r.2)

/-- Whether an object is of the required type. -/
def matches? (c : Machine) (a : Address) (expected : Option TypeId) : Bool :=
  expected.all fun t => c.conforms (c.host.typeOf a) t

/-- The object behind a value that stands for one of the required type. -/
def objectOf? (c : Machine) (v : Value) (expected : Option TypeId) : Option Address :=
  ((c.heap.heldProxy? v).map fun found => found.2.object).filter fun a => c.matches? a expected

/-- Converts a value to a native pointer; `position` is the argument number in a failure. -/
def toNative (c : Machine) (v : Value) (position : Nat) (need : Requirement) :
    Machine × Except Failure (Option Address) :=
  if need.optional && v.isNil then (c, .ok none)
  else match c.objectOf? v need.expected with
    | some a => (c, .ok (some a))
    | none =>
      if need.lenient then (c, .ok none) else c.refuse v position need.expected

/-- Describes a value. -/
def describe (c : Machine) (v : Value) : Machine × Description :=
  match v with
  | .pointer a => (c, .pointer a)
  | .proxy p =>
    match c.heap.proxy? p with
    | none => (c, .plain v.typeName)
    | some r =>
      if r.released then (c, .released r.object)
      else
        let t := c.host.typeOf r.object
        let found := c.locate t
        (found.1, .live r.object (found.2.map fun f => f.descriptor.name) (c.types.name t))
  | _ => (c, .plain v.typeName)

/-- Reads or writes a member of a proxy that `d` describes.  The environment answers a write with
nil. -/
def respond (c : Machine) (d : Descriptor) (r : ProxyState) (member : String)
    (new : Option Value) : Machine × Value :=
  match c.bridge.responder with
  | .environment =>
    match new with
    | none => (c, c.heap.get r.env member)
    | some v => (c.setHeap (c.heap.set r.env member v), .nil)
  | .echo => (c, .string (d.name ++ "." ++ member))

/-- Reads a member of a proxy, or writes it if there is a new value. -/
def useMember (c : Machine) (v : Value) (member : String) (new : Option Value) :
    Machine × Except Failure Value :=
  match c.heap.heldProxy? v with
  | none => c.refuse v 1 none
  | some (_, r) =>
    let t := c.host.typeOf r.object
    let found := c.locate t
    match found.2 with
    | none => found.1.refuse v 1 (some t)
    | some f =>
      let answer := found.1.respond f.descriptor r member new
      (answer.1, .ok answer.2)

/-- Reads or writes a raw field of an object. -/
def respondField (c : Machine) (a : Address) (field : RawField) (new : Option Value) :
    Except Failure Value :=
  match c.bridge.responder with
  | .environment => .error (.inaccessible field.name (.noFields a))
  | .echo => .ok (new.getD (.integer (Int64.ofNat field.offset)))

/-- Reads a raw field of the native instance, or writes it if there is a new value. -/
def useField (c : Machine) (v : Value) (field : RawField) (new : Option Value) :
    Machine × Except Failure Value :=
  match c.heap.heldProxy? v with
  | none => c.refuse v 1 none
  | some (_, r) => (c, c.respondField r.object field new)

/-- Inspects a proxy; a given type takes the place of the instance's own.  There is no answer for
anything but a live proxy, nor where a descriptor is needed and none describes the type. -/
def inspect (c : Machine) (v : Value) (aspect : Aspect) (tag : Option TypeId) :
    Machine × Option Finding :=
  match c.heap.heldProxy? v with
  | none => (c, none)
  | some (_, r) =>
    let t := tag.getD (c.host.typeOf r.object)
    match aspect with
    | .tag => (c, some (.tag t))
    | .environment => (c, some (.environment r.env (c.heap.entries r.env).size))
    | .descriptor =>
      let found := c.locate t
      (found.1, found.2.map fun f => .descriptor f.descriptor)
    | .classRecord =>
      let found := c.locate t
      (found.1,
        found.2.map fun f => .classRecord f.descriptor.record (c.host.classRecord? r.object t))

/-- Inspects a proxy, with the aspect and the type as a script gives them. -/
def inspectAs (c : Machine) (v : Value) (word : String) (tag : Value) :
    Machine × Except Failure (Option Finding) :=
  match Aspect.ofText word with
  | .error failure => (c, .error failure)
  | .ok aspect =>
    let r := c.inspect v aspect (c.bridge.catalog.readType tag)
    (r.1, .ok r.2)

end Machine

end NativeProxies
