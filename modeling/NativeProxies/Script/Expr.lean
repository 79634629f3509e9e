import NativeProxies.Script.Answer

/-!
# Expressions of a script

The values that steps are given.  An expression is evaluated in a scope: a machine that was
entered, with the values kept in variables since.
-/

namespace NativeProxies

mutual

/-- An expression for a value. -/
inductive Expr
  | nil
  | boolean (b : Bool)
  | integer (i : Int64)
  | number (bits : UInt64)
  | string (s : String)
  | pointer (a : Address)
  /-- A new table. -/
  | table (items : TableItems)
  /-- The proxy that the cache has for an object. -/
  | cached (a : Address)
  | var (name : String)
  /-- A proxy kept from an earlier visit. -/
  | stash (name : String)

/-- The items of a table, in order. -/
inductive TableItems
  | nil
  | cons (key : String) (e : Expr) (rest : TableItems)

end

/-- A machine that was entered. -/
structure Scope where
  machine : Machine
  vars : Map String Value := ∅

namespace Scope

def heap (s : Scope) : Heap := s.machine.heap

def setHeap (s : Scope) (h : Heap) : Scope := { s with machine := s.machine.setHeap h }

/-- Keeps a value in a variable, if one is named. -/
def keep (s : Scope) (name : Option String) (v : Value) : Scope :=
  name.elim s fun n => { s with vars := s.vars.insert n v }

/-- A value as a reader sees it. -/
def present (s : Scope) (v : Value) : Answer := .value (s.heap.view v)

end Scope

mutual

/-- The value of an expression. -/
def Expr.eval (s : Scope) : Expr → Except Refusal (Scope × Value)
  | .nil => .ok (s, .nil)
  | .boolean b => .ok (s, .boolean b)
  | .integer i => .ok (s, .integer i)
  | .number bits => .ok (s, .number bits)
  | .string v => .ok (s, .string v)
  | .pointer a => .ok (s, .pointer a)
  | .table items =>
    let r := s.heap.newTable
    (items.fill (s.setHeap r.1) r.2).map fun s => (s, .table r.2)
  | .cached a => (s.machine.proxyOf? a).elim (.error .noProxy) fun p => .ok (s, .proxy p)
  | .var name => s.vars[name]?.elim (.error .noVar) fun v => .ok (s, v)
  | .stash name => s.machine.memory.roots[name]?.elim (.error .noStash) fun p => .ok (s, .proxy p)

/-- Binds the items in a table. -/
def TableItems.fill (s : Scope) (t : TableId) : TableItems → Except Refusal Scope
  | .nil => .ok s
  | .cons key e rest =>
    match e.eval s with
    | .error r => .error r
    | .ok r => rest.fill (r.1.setHeap (r.1.heap.set t key r.2)) t

end

namespace Scope

/-- Goes on with the value of an expression. -/
def eval (s : Scope) (e : Expr) (k : Scope → Value → Scope × Answer) : Scope × Answer :=
  match e.eval s with
  | .error r => (s, .refused r)
  | .ok r => k r.1 r.2

/-- Goes on with the value of an expression that may be left out. -/
def evalOption (s : Scope) (e : Option Expr) (k : Scope → Option Value → Scope × Answer) :
    Scope × Answer :=
  match e with
  | none => k s none
  | some e => s.eval e fun s v => k s (some v)

/-- Goes on with the proxy that an expression has to be. -/
def evalProxy (s : Scope) (e : Expr) (k : Scope → ProxyId → Scope × Answer) : Scope × Answer :=
  s.eval e fun s v => v.proxy?.elim (s, .refused .notProxy) (k s)

/-- The table that a value stands for: a proxy stands for its environment. -/
def table? (s : Scope) : Value → Option TableId
  | .table t => some t
  | .proxy p => (s.heap.proxy? p).map ProxyState.env
  | _ => none

/-- Goes on with the table that an expression has to stand for. -/
def evalTable (s : Scope) (e : Expr) (k : Scope → TableId → Scope × Answer) : Scope × Answer :=
  s.eval e fun s v => (s.table? v).elim (s, .refused .notTable) (k s)

end Scope

end NativeProxies
