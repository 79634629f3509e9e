import NativeProxies.Heap.Basic

/-!
# Reachability in the heap

`Heap.Reaches` says which nodes can be reached from some root proxies: a proxy reaches its
environment, and a table reaches every table and proxy among its values.  `Heap.mark` finds these
nodes by a depth-first walk, and `Heap.sweep` drops all others.
-/

namespace NativeProxies

/-- A node of the heap, by its number. -/
inductive Node
  | proxy (p : ProxyId)
  | table (t : TableId)
deriving DecidableEq, Repr

/-- The node a value refers to. -/
def Value.node? : Value → Option Node
  | .table t => some (.table t)
  | .proxy p => some (.proxy p)
  | _ => none

namespace Heap

/-- Whether a node was not reclaimed. -/
def holds (h : Heap) : Node → Bool
  | .proxy p => h.proxies.contains p
  | .table t => h.tables.contains t

/-- The nodes a node refers to. -/
def successors (h : Heap) : Node → List Node
  | .proxy p => (h.proxy? p).toList.map fun r => .table r.env
  | .table t => (h.entries t).toList.filterMap fun item => item.2.node?

/-- The nodes that can be reached from the given root proxies. -/
inductive Reaches (h : Heap) (roots : List ProxyId) : Node → Prop
  | root {p : ProxyId} : p ∈ roots → h.holds (.proxy p) → Reaches h roots (.proxy p)
  | step {c d : Node} : Reaches h roots c → d ∈ h.successors c → h.holds d → Reaches h roots d

/-- A set of nodes. -/
structure Marks where
  proxies : Std.ExtTreeSet ProxyId := ∅
  tables : Std.ExtTreeSet TableId := ∅

namespace Marks

def contains (m : Marks) : Node → Bool
  | .proxy p => m.proxies.contains p
  | .table t => m.tables.contains t

def insert (m : Marks) : Node → Marks
  | .proxy p => { m with proxies := m.proxies.insert p }
  | .table t => { m with tables := m.tables.insert t }

end Marks

/-- The number of nodes. -/
def size (h : Heap) : Nat := h.proxies.size + h.tables.size

/-- Marks what can be reached from a node through unmarked nodes.  The first argument bounds the
length of the path; the number of unmarked nodes is enough. -/
def visit (h : Heap) : Nat → Marks → Node → Marks
  | 0, m, _ => m
  | n + 1, m, c =>
    if m.contains c || !h.holds c then m
    else (h.successors c).foldl (visit h n) (m.insert c)

/-- The nodes that can be reached from the given root proxies. -/
def mark (h : Heap) (roots : List ProxyId) : Marks :=
  roots.foldl (fun m p => h.visit h.size m (.proxy p)) { }

/-- Keeps the marked nodes only. -/
def sweep (h : Heap) (m : Marks) : Heap :=
  { h with
    proxies := h.proxies.filter fun p _ => m.proxies.contains p
    tables := h.tables.filter fun t _ => m.tables.contains t }

end Heap

end NativeProxies
