import NativeProxies.Memory
import NativeProxies.Catalog
import NativeProxies.Counters
import NativeProxies.Outside
import NativeProxies.Settings

/-!
# Bridges

A bridge is one scripting runtime bound to a host.  Its state is the memory with the cache of
proxies and the catalog of descriptors; its mailbox lies outside, where any thread can reach it.  A
`Machine` is a bridge together with what is outside, and every operation of a bridge is a function
on machines.
-/

namespace NativeProxies

/-- What serves the members and raw fields of proxies. -/
inductive Responder
  /-- Serves members from the environment of the proxy, and no raw fields. -/
  | environment
  /-- Answers with what it was asked for. -/
  | echo
deriving DecidableEq, Repr

/-- A scripting runtime. -/
structure Bridge where
  /-- The number that tells bridges of one process apart. -/
  serial : Nat
  settings : Settings := .standard
  responder : Responder := .environment
  /-- Whether types conform to their ancestors only and not to interfaces. -/
  ancestorsOnly : Bool := false
  memory : Memory := { }
  catalog : Catalog := { }
  /-- All counters but the one for foreign notifications, which the mailbox keeps. -/
  counters : Counters := { }
  /-- Proxies made since the last collection. -/
  created : Nat := 0

/-- A bridge and what is outside. -/
structure Machine where
  bridge : Bridge
  outside : Outside

namespace Machine

def memory (c : Machine) : Memory := c.bridge.memory

def heap (c : Machine) : Heap := c.bridge.memory.heap

def cache (c : Machine) : ProxyCache := c.bridge.memory.cache

def host (c : Machine) : Host := c.outside.host

def types (c : Machine) : TypeTable := c.outside.host.types

/-- The notifications that wait for this bridge. -/
def mailbox (c : Machine) : Mailbox := c.outside.mailbox c.bridge.serial

/-- All counters. -/
def counters (c : Machine) : Counters :=
  { c.bridge.counters with foreignToggles := c.mailbox.foreign }

def setMemory (c : Machine) (memory : Memory) : Machine :=
  { c with bridge := { c.bridge with memory } }

def setHeap (c : Machine) (heap : Heap) : Machine := c.setMemory { c.memory with heap }

def setCache (c : Machine) (cache : ProxyCache) : Machine := c.setMemory { c.memory with cache }

def setCatalog (c : Machine) (catalog : Catalog) : Machine :=
  { c with bridge := { c.bridge with catalog } }

def setMailbox (c : Machine) (m : Mailbox) : Machine :=
  { c with outside := c.outside.setMailbox c.bridge.serial m }

/-- Adds one to a counter. -/
def bump (c : Machine) (k : Counter) : Machine :=
  { c with bridge := { c.bridge with counters := c.bridge.counters.bump k } }

/-- Calls the host, or a function of a type, for an object. -/
def call (c : Machine) (route : Route) (a : Address) : Machine :=
  { c with outside := c.outside.call c.bridge.serial route a }

/-! ## Questions to the catalog -/

/-- The descriptor that describes a type. -/
def locate (c : Machine) (t : TypeId) : Machine × Option Located :=
  let r := c.bridge.catalog.locate c.types t
  (c.setCatalog r.1, r.2)

/-- The hook of the descriptor that describes a type. -/
def hook? (c : Machine) (t : TypeId) (d : Transfer) : Machine × Option EntryPoint :=
  let r := c.bridge.catalog.hook? c.types t d
  (c.setCatalog r.1, r.2)

/-- What to call an expected type. -/
def labelFor (c : Machine) (t : Option TypeId) : Machine × String :=
  let r := c.bridge.catalog.labelFor c.types t
  (c.setCatalog r.1, r.2)

/-- Registers a descriptor. -/
def register (c : Machine) (d : Descriptor) : Machine :=
  c.setCatalog (c.bridge.catalog.register d)

/-- Whether a type conforms to another as far as this bridge can see. -/
def conforms (c : Machine) (t ancestor : TypeId) : Bool :=
  if c.bridge.ancestorsOnly then c.types.descends t ancestor else c.types.conforms t ancestor

end Machine

end NativeProxies
