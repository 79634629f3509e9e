import NativeProxies.Heap.Value

/-!
# The heap of the scripting runtime

Tables from texts to values, and proxies, which stand for native objects.  Every proxy has a table
of its own, its environment.  Tables and proxies are the nodes of the heap.  Numbers are given out
once: a node that was reclaimed leaves a number that no later node takes.
-/

namespace NativeProxies

/-- The entries of a table; no key is bound to nil. -/
abbrev Entries : Type := Map String Value

namespace Entries

/-- The value under a key, nil if there is none. -/
def get (e : Entries) (key : String) : Value := e[key]?.getD .nil

/-- Binds a key; binding it to nil removes it. -/
def set (e : Entries) (key : String) (v : Value) : Entries :=
  if v.isNil then e.erase key else e.insert key v

end Entries

/-- What the heap holds for a proxy. -/
structure ProxyState where
  /-- The object it stands for. -/
  object : Address
  /-- Whether the reference behind the proxy was given back. -/
  released : Bool
  /-- The table of script state kept with the proxy. -/
  env : TableId
deriving DecidableEq, Repr

/-- The tables and proxies of the runtime. -/
structure Heap where
  proxies : Map ProxyId ProxyState := ∅
  tables : Map TableId Entries := ∅
  /-- The number of the next node. -/
  next : Nat := 0

namespace Heap

/-- Makes an empty table. -/
def newTable (h : Heap) : Heap × TableId :=
  ({ h with tables := h.tables.insert h.next ∅, next := h.next + 1 }, h.next)

/-- Makes a proxy for an object, with an empty environment. -/
def newProxy (h : Heap) (object : Address) : Heap × ProxyId :=
  ({ proxies := h.proxies.insert (h.next + 1) ⟨object, false, h.next⟩
     tables := h.tables.insert h.next ∅
     next := h.next + 2 }, h.next + 1)

/-- The state of a proxy that was not reclaimed. -/
def proxy? (h : Heap) (p : ProxyId) : Option ProxyState := h.proxies[p]?

/-- Whether a proxy was not reclaimed. -/
def hasProxy (h : Heap) (p : ProxyId) : Bool := h.proxies.contains p

/-- The entries of a table. -/
def entries (h : Heap) (t : TableId) : Entries := h.tables[t]?.getD ∅

/-- The value under a key of a table. -/
def get (h : Heap) (t : TableId) (key : String) : Value := (h.entries t).get key

/-- Binds a key of a table. -/
def set (h : Heap) (t : TableId) (key : String) (v : Value) : Heap :=
  { h with tables := h.tables.modify t fun e => e.set key v }

/-- Notes that the reference behind a proxy was given back. -/
def release (h : Heap) (p : ProxyId) : Heap :=
  { h with proxies := h.proxies.modify p fun r => { r with released := true } }

/-- The proxy that a value is, with its state, if its reference was not given back. -/
def heldProxy? (h : Heap) (v : Value) : Option (ProxyId × ProxyState) :=
  v.proxy?.bind fun p => ((h.proxy? p).filter fun r => !r.released).map fun r => (p, r)

end Heap

end NativeProxies
