import NativeProxies.ProxyCache

/-!
# The memory of the scripting runtime

The heap together with what keeps its nodes alive: the proxies that are rooted by name and the
strong part of the cache.  A collection marks from these roots, may evict the cache
entries of unmarked proxies, and then drops all unmarked nodes (`Memory.reclaim`).
-/

namespace NativeProxies

/-- A heap with its roots. -/
structure Memory where
  heap : Heap := { }
  cache : ProxyCache := { }
  /-- Proxies kept alive from outside, by name. -/
  roots : Map String ProxyId := ∅

namespace Memory

/-- The proxies that are alive for their own sake. -/
def rootProxies (s : Memory) : List ProxyId :=
  s.roots.toList.map Prod.snd ++ s.cache.strong.toList.map Prod.snd

/-- The nodes that are alive. -/
def marks (s : Memory) : Heap.Marks := s.heap.mark s.rootProxies

/-- The proxy known for an object. -/
def proxyOf? (s : Memory) (a : Address) : Option ProxyId := s.cache.proxyOf? s.heap a

/-- Drops the cache entries of proxies that are not alive, and answers them. -/
def evict (s : Memory) : Memory × List (Address × CachedProxy) :=
  let r := s.cache.evict s.marks
  ({ s with cache := r.1 }, r.2)

/-- Drops the nodes that are not alive. -/
def reclaim (s : Memory) : Memory := { s with heap := s.heap.sweep s.marks }

/-- Keeps a proxy alive under a name, in place of the one kept there before. -/
def root (s : Memory) (name : String) (p : ProxyId) : Memory :=
  { s with roots := s.roots.insert name p }

/-- Gives up the proxy kept under a name, and answers whether there was one. -/
def unroot (s : Memory) (name : String) : Memory × Bool :=
  ({ s with roots := s.roots.erase name }, s.roots.contains name)

end Memory

end NativeProxies
