import NativeProxies.Text.Numeral

/-!
# Settings of a bridge

When a bridge collects on its own, and how it treats a cache entry that should not be there.
Both settings can be given as text in an environment (`Settings.ofLookup`).
-/

namespace NativeProxies

/-- The settings of one bridge. -/
structure Settings where
  /-- Collect when the runtime is left once this many proxies were created since the last
  collection; `none` leaves collection to the embedder. -/
  threshold : Option Nat := some 1024
  /-- Treat a cache entry that survived a miss as fatal instead of overwriting it. -/
  strict : Bool := true
deriving DecidableEq, Repr

namespace Settings

def standard : Settings := { }

/-- The variable that gives the collection threshold. -/
def thresholdVariable : String := "PROXY_BRIDGE_COLLECT_THRESHOLD"

/-- The variable that says whether the cache is strict. -/
def strictVariable : String := "PROXY_BRIDGE_STRICT_CACHE"

/-- The threshold that a text asks for: `0` and `off` turn automatic collection off, another
count is the threshold, and a text that is no count leaves the standard in force. -/
def thresholdOfText (v : String) : Option Nat :=
  if v = "0" ∨ v = "off" then none
  else match Numeral.count? v with
    | some n => some n
    | none => standard.threshold

/-- Whether a text asks for a strict cache. -/
def strictOfText (v : String) : Bool :=
  if v = "1" ∨ v = "true" then true
  else if v = "0" ∨ v = "false" then false
  else standard.strict

/-- The settings of an environment; a variable that is not set leaves the standard in force. -/
def ofLookup (lookup : String → Option String) : Settings where
  threshold := (lookup thresholdVariable).elim standard.threshold thresholdOfText
  strict := (lookup strictVariable).elim standard.strict strictOfText

/-- The same settings with collection left to the embedder. -/
def withoutThreshold (s : Settings) : Settings := { s with threshold := none }

/-- The same settings with the threshold given on a command line, where zero turns automatic
collection off. -/
def withThreshold (s : Settings) (n : Nat) : Settings :=
  { s with threshold := if 0 < n then some n else none }

end Settings

end NativeProxies
