import NativeProxies.Bridge.Wrap

/-!
# The life of a bridge

Entering and leaving the runtime, collecting, and closing.  Notifications are applied on every one
of these occasions.  A collection gives back the native reference of every proxy that is no longer
reachable, and one happens on its own when the runtime is left after enough proxies were made.
-/

namespace NativeProxies

namespace Machine

/-- Drops the cache entries of proxies that are not alive, and gives back their references. -/
def releaseDead (c : Machine) : Machine :=
  let r := c.memory.evict
  (c.setMemory r.1).giveBackAll r.2

/-- Drops the nodes that are not alive. -/
def reclaim (c : Machine) : Machine := c.setMemory c.memory.reclaim

/-- Counts a collection; the proxies made before it count no longer towards the next one. -/
def countCollection (c : Machine) : Machine :=
  { c with
    bridge := { c.bridge with
      created := 0
      counters := c.bridge.counters.countCollection 0 0 } }

/-- Runs a full collection.  No clock is consulted, so the time it took counts as zero. -/
def collect (c : Machine) : Machine :=
  c.catchUp.releaseDead.reclaim.countCollection.catchUp

/-- Whether enough proxies were made for a collection. -/
def isDue (c : Machine) : Bool :=
  c.bridge.settings.threshold.any fun n => n ≤ c.bridge.created

/-- Enters the runtime. -/
def enter (c : Machine) : Machine := c.catchUp

/-- Leaves the runtime, with a collection if one is due. -/
def leave (c : Machine) : Machine :=
  let c := c.catchUp
  if c.isDue then c.collect else c

/-- Gives back the reference behind the proxy of an entry, unless that was done before. -/
def retire (c : Machine) (e : CachedProxy) : Machine :=
  match c.heap.proxy? e.proxy with
  | none => c
  | some r =>
    if r.released then c
    else (c.setHeap (c.heap.release e.proxy)).giveBack r.object e.toggle

/-- Empties the cache, and gives back the references behind all proxies that were in it. -/
def releaseAll (c : Machine) : Machine :=
  let r := c.cache.drain c.heap
  r.2.foldl retire (c.setCache r.1)

/-- Gives back the references behind all proxies that are left, unless that was done before, and
answers that it is done now. -/
def tearDown (c : Machine) (done : Bool) : Machine × Bool :=
  if done then (c, done) else (c.catchUp.releaseAll, true)

/-- Closes the bridge: every proxy that is left gives back its reference.  A closed bridge is dropped,
and dropping a bridge tears it down, too. -/
def close (c : Machine) : Machine :=
  let r := c.tearDown false
  (r.1.tearDown r.2).1

end Machine

end NativeProxies
