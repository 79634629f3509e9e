import NativeProxies.Bridge.Ownership

/-!
# Proxies

Wrapping a native object in its proxy, following the notifications about the object, and
dismissing the proxy.  An object has one proxy at a time: the first conversion makes it, and later
ones find it in the cache.
-/

namespace NativeProxies

namespace Machine

/-- The proxy of an object. -/
def proxyOf? (c : Machine) (a : Address) : Option ProxyId := c.memory.proxyOf? a

/-- Counts a change in how the cache holds a proxy. -/
def countSwitch (c : Machine) : Option Switch → Machine
  | none => c
  | some .strengthened => c.bump .promotions
  | some .weakened => c.bump .demotions

/-- Applies a notification and counts the change it makes. -/
def applyNotification (c : Machine) (n : Notification) : Machine :=
  let r := c.cache.applyNotification c.heap n
  (c.setCache r.1).countSwitch r.2

/-- Applies every notification that waits, in order. -/
def catchUp (c : Machine) : Machine :=
  let r := c.mailbox.takeAll
  r.2.foldl applyNotification (c.setMailbox r.1)

/-- A toggle registration for the proxy of an object; only objects of the base kind need one. -/
def registerProxy (c : Machine) (a : Address) : Machine × Option Generation :=
  if c.types.isObject (c.host.typeOf a) then
    let r := c.mailbox.issue
    (c.setMailbox r.1, some r.2)
  else (c, none)

/-- A proxy for an object, not yet in the cache. -/
def newProxy (c : Machine) (a : Address) : Machine × ProxyId :=
  let r := c.heap.newProxy a
  (c.setHeap r.1, r.2)

/-- Enters a new proxy in the cache.  An entry that should not be there is a failure in a strict
bridge, and is overwritten in others. -/
def enroll (c : Machine) (a : Address) (e : CachedProxy) : Except Failure Machine :=
  match c.cache.add a e with
  | .ok cache => .ok (c.setCache cache)
  | .error failure =>
    if c.bridge.settings.strict then .error failure
    else .ok (c.setCache (c.cache.replace a e).1)

/-- Adds the toggle reference of a new proxy.  The proxy starts out strong; a reference owned
besides is not needed any more, and dropping it tells whether anybody else has one. -/
def startWatching (c : Machine) (a : Address) (g : Generation) (owned : Bool) : Machine :=
  let c := c.call (.method (.watch (.bridge c.bridge.serial g))) a
  let c := c.applyNotification ⟨a, g, false⟩
  if owned then c.call (.method .drop) a else c

/-- Settles the reference behind a new proxy.  With `handedOver` the caller gives one that it
holds, otherwise one is taken if there is a way. -/
def own (c : Machine) (a : Address) (toggle : Option Generation) (handedOver : Bool) : Machine :=
  let r := if handedOver then (c, true) else c.claim a
  toggle.elim r.1 fun g => r.1.startWatching a g r.2

/-- Counts a new proxy. -/
def countCreated (c : Machine) : Machine :=
  let c := c.bump .proxiesCreated
  { c with bridge := { c.bridge with created := c.bridge.created + 1 } }

/-- Makes the proxy of an object. -/
def create (c : Machine) (a : Address) (handedOver : Bool) : Machine × Except Failure ProxyId :=
  let r := c.registerProxy a
  let n := r.1.newProxy a
  match n.1.enroll a ⟨n.2, r.2⟩ with
  | .error failure => (n.1, .error failure)
  | .ok c => ((c.own a r.2 handedOver).countCreated, .ok n.2)

/-- The proxy of an object, made on first sight.  With `handedOver` the caller gives a reference
that it holds; a proxy keeps exactly one, so on a later sight it is given back. -/
def wrap (c : Machine) (a : Address) (handedOver : Bool) : Machine × Except Failure ProxyId :=
  match c.proxyOf? a with
  | some p =>
    let c := c.bump .cacheHits
    (if handedOver then c.giveBack a none else c, .ok p)
  | none => c.create a handedOver

/-- The value for a native pointer: nil for a null pointer, otherwise the object's proxy. -/
def toValue (c : Machine) (a : Option Address) (handedOver : Bool) :
    Machine × Except Failure Value :=
  match a with
  | none => (c, .ok .nil)
  | some a =>
    let r := c.wrap a handedOver
    (r.1, r.2.map .proxy)

/-- Gives back the reference behind a proxy, and answers whether there was one.  Notifications
that were raised while the object was still the proxy's are applied first. -/
def dismiss (c : Machine) (v : Value) : Machine × Bool :=
  match c.heap.heldProxy? v with
  | none => (c, false)
  | some (p, r) =>
    let c := c.catchUp
    let c := c.setHeap (c.heap.release p)
    let removed := c.cache.remove r.object
    ((c.setCache removed.1).giveBack r.object removed.2, true)

end Machine

end NativeProxies
