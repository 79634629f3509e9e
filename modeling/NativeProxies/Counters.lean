/-!
# Counters

The counters a bridge keeps.  They are machine words and wrap around.
-/

namespace NativeProxies

/-- What a bridge counts. -/
structure Counters where
  proxiesCreated : UInt64 := 0
  /-- Conversions answered from the cache. -/
  cacheHits : UInt64 := 0
  /-- Changes of a proxy from weak to strong. -/
  promotions : UInt64 := 0
  /-- Changes of a proxy from strong to weak. -/
  demotions : UInt64 := 0
  /-- Native references given back. -/
  releases : UInt64 := 0
  /-- Releases that found no way to give the reference back. -/
  leaks : UInt64 := 0
  /-- Notifications raised off the thread of the bridge. -/
  foreignToggles : UInt64 := 0
  /-- Full collections. -/
  collections : UInt64 := 0
  /-- Time spent in collections, in microseconds. -/
  collectionMicros : UInt64 := 0
deriving DecidableEq, Repr

/-- One of the counters. -/
inductive Counter
  | proxiesCreated | cacheHits | promotions | demotions | releases | leaks | foreignToggles
  | collections | collectionMicros
deriving DecidableEq, Repr

namespace Counter

/-- The counters in the order in which they are shown. -/
def all : List Counter :=
  [proxiesCreated, cacheHits, promotions, demotions, releases, leaks, foreignToggles, collections,
    collectionMicros]

def name : Counter → String
  | proxiesCreated => "proxies_created"
  | cacheHits => "cache_hits"
  | promotions => "promotions"
  | demotions => "demotions"
  | releases => "releases"
  | leaks => "leaks"
  | foreignToggles => "foreign_toggles"
  | collections => "collections"
  | collectionMicros => "collection_total_us"

/-- The counter called `s`. -/
def ofName? (s : String) : Option Counter := all.find? fun c => c.name = s

end Counter

namespace Counters

/-- The value of one counter. -/
def get (m : Counters) : Counter → UInt64
  | .proxiesCreated => m.proxiesCreated
  | .cacheHits => m.cacheHits
  | .promotions => m.promotions
  | .demotions => m.demotions
  | .releases => m.releases
  | .leaks => m.leaks
  | .foreignToggles => m.foreignToggles
  | .collections => m.collections
  | .collectionMicros => m.collectionMicros

/-- Adds one to a counter. -/
def bump (m : Counters) : Counter → Counters
  | .proxiesCreated => { m with proxiesCreated := m.proxiesCreated + 1 }
  | .cacheHits => { m with cacheHits := m.cacheHits + 1 }
  | .promotions => { m with promotions := m.promotions + 1 }
  | .demotions => { m with demotions := m.demotions + 1 }
  | .releases => { m with releases := m.releases + 1 }
  | .leaks => { m with leaks := m.leaks + 1 }
  | .foreignToggles => { m with foreignToggles := m.foreignToggles + 1 }
  | .collections => { m with collections := m.collections + 1 }
  | .collectionMicros => { m with collectionMicros := m.collectionMicros + 1 }

/-- Counts a collection that took `secs` seconds and `nanos` nanoseconds; of the whole
microseconds in between only the low word is kept. -/
def countCollection (m : Counters) (secs nanos : Nat) : Counters :=
  { m with
    collectionMicros := m.collectionMicros + UInt64.ofNat (secs * 1000000 + nanos / 1000)
    collections := m.collections + 1 }

/-- The lines of a report of all counters. -/
def report (m : Counters) : List String :=
  ["MetricsSnapshot \x7b"]
    ++ (Counter.all.map fun c => "    " ++ c.name ++ ": " ++ toString (m.get c).toNat ++ ",")
    ++ ["\x7d"]

end Counters

end NativeProxies
