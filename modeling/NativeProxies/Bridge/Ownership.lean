import NativeProxies.Bridge.Basic

/-!
# Ownership of native references

Taking a reference when a proxy is made, and giving it back when the proxy goes away.  Objects of
the base kind go through the host, which follows them by a toggle reference.  Other types go
through the functions registered for them, and failing that through the hooks of their
descriptor.
-/

namespace NativeProxies

namespace Machine

/-- The route through a registered function, else through a hook. -/
def functionRoute (c : Machine) (t : TypeId) (d : Transfer) : Machine × Option Route :=
  match (c.types.effectiveFunctions t).bind fun f => f.entry? d with
  | some e => (c, some (.function e d))
  | none =>
    let r := c.hook? t d
    (r.1, r.2.map fun e => .function e d)

/-- How a reference to an instance of a type is taken. -/
def takeRoute (c : Machine) (t : TypeId) : Machine × Option Route :=
  if c.types.isObject t then (c, some (.method .sink)) else c.functionRoute t .take

/-- How a reference to an instance of a type is given back: with a toggle registration the toggle
reference is removed, otherwise a plain reference is dropped. -/
def giveBackRoute (c : Machine) (t : TypeId) (toggle : Option Generation) :
    Machine × Option Route :=
  if c.types.isObject t then
    (c, some (.method (toggle.elim .drop fun g => .unwatch (.bridge c.bridge.serial g))))
  else c.functionRoute t .giveBack

/-- Goes the route that was found, if there is one. -/
def follow (c : Machine) (a : Address) (d : Transfer) :
    Option Route → Machine × Except OwnershipFailure Unit
  | some route => (c.call route a, .ok ())
  | none => (c, .error ⟨d, c.types.name (c.host.typeOf a)⟩)

/-- Takes a reference to an object, the floating one if there is one. -/
def takeReference (c : Machine) (a : Address) : Machine × Except OwnershipFailure Unit :=
  let r := c.takeRoute (c.host.typeOf a)
  r.1.follow a .take r.2

/-- Gives back the reference held on an object. -/
def returnReference (c : Machine) (a : Address) (toggle : Option Generation) :
    Machine × Except OwnershipFailure Unit :=
  let r := c.giveBackRoute (c.host.typeOf a) toggle
  r.1.follow a .giveBack r.2

/-- Takes a reference if there is a way, and answers whether the bridge owns one now. -/
def claim (c : Machine) (a : Address) : Machine × Bool :=
  let r := c.takeReference a
  (r.1, r.2.isOk)

/-- Gives back a reference, or leaks it if there is no way, and counts which. -/
def giveBack (c : Machine) (a : Address) (toggle : Option Generation) : Machine :=
  let r := c.returnReference a toggle
  r.1.bump (if r.2.isOk then .releases else .leaks)

/-- Gives back the references behind several cache entries, in order. -/
def giveBackAll (c : Machine) (items : List (Address × CachedProxy)) : Machine :=
  items.foldl (fun c item => c.giveBack item.1 item.2.toggle) c

end Machine

end NativeProxies
