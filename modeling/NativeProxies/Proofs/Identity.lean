import NativeProxies.Proofs.World

/-!
# One proxy for each object

A script never sees two proxies of one object whose references were not given back.  Every such proxy
that it can reach is the one in the cache, and converting the object again answers it and makes
nothing (`World.identity_run`).
-/

namespace NativeProxies

namespace Machine

variable {c : Machine} {a : Address} {p : ProxyId}

/-- Converting an object with a known proxy answers the proxy and makes nothing, whether a reference is
handed over or not. -/
theorem toValue_of_proxyOf? (hp : c.proxyOf? a = some p) (handedOver : Bool) :
    (c.toValue (some a) handedOver).2 = .ok (.proxy p) ∧
      (c.toValue (some a) handedOver).1.memory = c.memory ∧
      (c.toValue (some a) handedOver).1.bridge.created = c.bridge.created ∧
      (c.toValue (some a) handedOver).1.counters.proxiesCreated = c.counters.proxiesCreated := by
  have hw : c.toValue (some a) handedOver =
      (if handedOver then (c.bump .cacheHits).giveBack a none else c.bump .cacheHits,
        .ok (.proxy p)) := by
    rw [toValue, wrap_of_some hp]
    rfl
  rw [hw]
  cases handedOver with
  | false => exact ⟨rfl, rfl, rfl, rfl⟩
  | true =>
    obtain ⟨k, hk⟩ := bridge_giveBack (c.bump .cacheHits) a none
    refine ⟨rfl, memory_giveBack (c.bump .cacheHits) a none, ?_, ?_⟩
    · rw [if_pos rfl, hk]
      rfl
    · rw [if_pos rfl, counters, hk]
      dsimp only
      split_ifs <;> rfl

end Machine

namespace World

variable {w : World} {name : String} {c : Machine} {n : Node}

/-- What the script of a bridge can reach: what it was given or keeps in a variable during a visit,
what is stashed, what the cache keeps alive, and everything behind these. -/
inductive CanReach (w : World) (name : String) (c : Machine) : Node → Prop
  | given {v : Visit} {n : Node} : w.visits[name]? = some v → n ∈ v.given → CanReach w name c n
  | var {v : Visit} {x : String} {value : Value} {n : Node} : w.visits[name]? = some v →
    v.vars[x]? = some value → value.node? = some n → CanReach w name c n
  | stashed {key : String} {p : ProxyId} : c.memory.roots[key]? = some p →
    CanReach w name c (.proxy p)
  | strong {a : Address} {p : ProxyId} : c.cache.strong[a]? = some p → CanReach w name c (.proxy p)
  | step {m n : Node} : CanReach w name c m → n ∈ c.heap.successors m → CanReach w name c n

/-- What a script can reach was not reclaimed. -/
theorem CanReach.holds (h : w.Sound) (hc : w.session.machine? name = some c)
    (hn : w.CanReach name c n) : c.heap.holds n := by
  have hm := (h.machine hc).memory
  have hv {v : Visit} (hv : w.visits[name]? = some v) : v.Held c.heap := by
    obtain ⟨b, hb, hheld⟩ := h.visits name v hv
    obtain ⟨b', hb', rfl⟩ := Option.map_eq_some_iff.1 hc
    cases hb.symm.trans hb'
    exact hheld
  induction hn with
  | given hvisit hg => exact (hv hvisit).given _ hg
  | var hvisit hx hn => exact (hv hvisit).vars _ _ hx _ hn
  | stashed hp => exact hm.rooted _ _ hp
  | strong hp =>
    obtain ⟨e, he, rfl, -⟩ := hm.strong _ _ hp
    exact (hm.live _ e he).holds
  | step _ hn _ => exact hm.closed.holds_of_mem _ _ hn

/-- After every run, a proxy that the script of a bridge can reach is known to the heap.  If its
reference was not given back, the cache answers it for its object, it is the only such proxy of the
object within reach, and converting the object answers it and makes nothing. -/
theorem identity_run (ms : List Move) (hc : (run { } ms).session.machine? name = some c)
    {p : ProxyId} (hp : (run { } ms).CanReach name c (.proxy p)) :
    ∃ r, c.heap.proxy? p = some r ∧ (r.released = false →
      c.proxyOf? r.object = some p ∧
      (∀ q r', (run { } ms).CanReach name c (.proxy q) → c.heap.proxy? q = some r' →
        r'.released = false → r'.object = r.object → q = p) ∧
      ∀ handedOver,
        (c.toValue (some r.object) handedOver).2 = .ok (.proxy p) ∧
        (c.toValue (some r.object) handedOver).1.memory = c.memory ∧
        (c.toValue (some r.object) handedOver).1.bridge.created = c.bridge.created ∧
        (c.toValue (some r.object) handedOver).1.counters.proxiesCreated =
          c.counters.proxiesCreated) := by
  have h := sound_empty.run ms
  have hm := (h.machine hc).memory
  obtain ⟨r, hr⟩ := Heap.holds_proxy_iff.1 (hp.holds h hc)
  refine ⟨r, hr, fun hrel => ?_⟩
  have hk : c.proxyOf? r.object = some p := hm.proxyOf?_eq_some_iff.2 ⟨r, hr, rfl, hrel⟩
  refine ⟨hk, fun q r' _ hq hrel' ho => ?_, Machine.toValue_of_proxyOf? hk⟩
  have hk' : c.proxyOf? r.object = some q := hm.proxyOf?_eq_some_iff.2 ⟨r', hq, ho, hrel'⟩
  exact Option.some.inj (hk'.symm.trans hk)

/-- A proxy kept in the environment of a stashed one. -/
def linked : List Move :=
  [.step (.host (.create { value := 1 } .object false)),
   .step (.host (.create { value := 2 } .object true)),
   .step (.open "b" .standard .environment false),
   .enter "b",
   .act "b" (.wrap (some { value := 1 }) false (some "x")),
   .act "b" (.wrap (some { value := 2 }) false (some "y")),
   .act "b" (.set (.var "x") (.var "y") "next"),
   .act "b" (.stash (.var "x") "root"),
   .leave "b",
   .step (.collect "b")]

theorem identity_run_linked :
    ∃ c, (run { } linked).session.machine? "b" = some c ∧
      (run { } linked).CanReach "b" c (.proxy 3) ∧
      c.heap.proxy? 3 = some ⟨{ value := 2 }, false, 2⟩ ∧
      c.proxyOf? { value := 2 } = some 3 := by
  let c := ((run { } linked).session.machine? "b").get (by decide +kernel)
  have hc : (run { } linked).session.machine? "b" = some c := (Option.some_get _).symm
  have hp : (run { } linked).CanReach "b" c (.proxy 3) := by
    have h₁ : c.memory.roots["root"]? = some 1 := by decide +kernel
    have h₂ : .table 0 ∈ c.heap.successors (.proxy 1) := by decide +kernel
    have h₃ : .proxy 3 ∈ c.heap.successors (.table 0) := by decide +kernel
    exact .step (.step (.stashed h₁) h₂) h₃
  have hr : c.heap.proxy? 3 = some ⟨{ value := 2 }, false, 2⟩ := by decide +kernel
  obtain ⟨r, hr', hk⟩ := identity_run linked hc hp
  cases hr.symm.trans hr'
  exact ⟨c, hc, hp, hr, (hk rfl).1⟩

end World

end NativeProxies
