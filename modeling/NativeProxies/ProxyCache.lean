import NativeProxies.Failure
import NativeProxies.Heap.Reach
import NativeProxies.Mailbox

/-!
# The cache of proxies

From the address of a native object to its proxy.  The weak map is the source of truth for
identity and keeps no proxy alive.  The strong map lies over it for the objects that somebody else
still references, so that their proxies, and the state kept with them, survive a collection.
-/

namespace NativeProxies

/-- What the cache knows of one object. -/
structure CachedProxy where
  proxy : ProxyId
  /-- The toggle registration made for the proxy, for objects of the base kind. -/
  toggle : Option Generation
deriving DecidableEq, Repr

/-- The proxies by address: all of them weakly, some also strongly. -/
structure ProxyCache where
  weak : Map Address CachedProxy := ∅
  strong : Map Address ProxyId := ∅

/-- A change in how the cache holds a proxy. -/
inductive Switch
  | strengthened
  | weakened
deriving DecidableEq, Repr

namespace ProxyCache

/-- Whether there is an entry for an object, dead or not. -/
def contains (c : ProxyCache) (a : Address) : Bool := c.weak.contains a

/-- Whether the proxy of an object is kept alive by the cache. -/
def isStrong (c : ProxyCache) (a : Address) : Bool := c.strong.contains a

/-- The registration in the entry of an object. -/
def generation (c : ProxyCache) (a : Address) : Option Generation :=
  c.weak[a]?.bind CachedProxy.toggle

/-- The proxy of an object; an entry whose proxy was reclaimed counts for nothing. -/
def proxyOf? (c : ProxyCache) (h : Heap) (a : Address) : Option ProxyId :=
  (c.weak[a]?.map CachedProxy.proxy).filter h.hasProxy

/-- Adds an entry where there is none. -/
def add (c : ProxyCache) (a : Address) (e : CachedProxy) : Except Failure ProxyCache :=
  if c.weak.contains a then .error (.staleEntry a)
  else .ok { c with weak := c.weak.insert a e }

/-- Puts an entry in place of whatever was there, and answers the registration it replaced. -/
def replace (c : ProxyCache) (a : Address) (e : CachedProxy) :
    ProxyCache × Option Generation :=
  ({ weak := c.weak.insert a e, strong := c.strong.erase a }, c.generation a)

/-- Keeps the proxy of an object alive if its registration is `g`, and answers whether that
changed anything. -/
def strengthen (c : ProxyCache) (h : Heap) (a : Address) (g : Generation) :
    ProxyCache × Bool :=
  if c.strong.contains a || c.generation a != some g then (c, false)
  else match c.proxyOf? h a with
    | some p => ({ c with strong := c.strong.insert a p }, true)
    | none => (c, false)

/-- Lets go of the proxy of an object if its registration is `g`, and answers whether that
changed anything. -/
def weaken (c : ProxyCache) (a : Address) (g : Generation) : ProxyCache × Bool :=
  if c.generation a = some g then
    ({ c with strong := c.strong.erase a }, c.strong.contains a)
  else (c, false)

/-- Applies a toggle notification: the last reference from elsewhere going away lets the proxy
be collected, a new one keeps it.  A notification of another registration than the entry's is
dropped. -/
def applyNotification (c : ProxyCache) (h : Heap) (n : Notification) :
    ProxyCache × Option Switch :=
  if c.generation n.object = some n.generation then
    if n.isLast then
      let r := c.weaken n.object n.generation
      (r.1, if r.2 then some .weakened else none)
    else
      let r := c.strengthen h n.object n.generation
      (r.1, if r.2 then some .strengthened else none)
  else (c, none)

/-- Drops the entry of an object and answers its registration. -/
def remove (c : ProxyCache) (a : Address) : ProxyCache × Option Generation :=
  ({ weak := c.weak.erase a, strong := c.strong.erase a }, c.generation a)

/-- Drops the entries whose proxy is not marked, and answers them. -/
def evict (c : ProxyCache) (m : Heap.Marks) : ProxyCache × List (Address × CachedProxy) :=
  ({ c with weak := c.weak.filter fun _ e => m.proxies.contains e.proxy },
   c.weak.toList.filter fun item => !m.proxies.contains item.2.proxy)

/-- Empties the cache, and answers the entries whose proxy was not reclaimed. -/
def drain (c : ProxyCache) (h : Heap) : ProxyCache × List CachedProxy :=
  ({ }, (c.weak.toList.map Prod.snd).filter fun e => h.hasProxy e.proxy)

end ProxyCache

end NativeProxies
