import NativeProxies.Proofs.Twin.World

/-!
# Strictness

A strict bridge treats an entry that is in the way of a new one as fatal, and others overwrite it.  There
is never such an entry: between the steps of a run, every entry of a cache is that of a proxy in the heap
whose reference was not given back.  So runs that differ only in how strict the bridges are have the same
replies and lead to the same worlds (`World.lenient_run`).
-/

namespace NativeProxies

/-- The move, with a bridge opened by it not strict. -/
def Move.lenient (m : Move) : Move := m.asStrict (some false)

/-- Every entry of the cache is that of a live proxy, and none is in the way of a new one. -/
structure Machine.Tidy (c : Machine) : Prop where
  live : ∀ (a : Address) (e : CachedProxy), c.cache.weak[a]? = some e → c.heap.IsLive e.proxy a
  contains : ∀ a : Address, c.cache.contains a = (c.proxyOf? a).isSome
  /-- Where a new proxy is to get an entry there is none. -/
  add : ∀ (a : Address) (e : CachedProxy), c.proxyOf? a = none →
    ∃ k, ((c.registerProxy a).1.newProxy a).1.cache.add a e = .ok k
  wrap : ∀ (a : Address) (handedOver : Bool), ∃ p, (c.wrap a handedOver).2 = .ok p

theorem Machine.tidy {c : Machine} (h : c.memory.Sound) : c.Tidy where
  live a e he := h.live a e he
  contains a := by
    have hp : c.proxyOf? a = c.cache.weak[a]?.map CachedProxy.proxy := h.proxyOf?_eq
    rw [ProxyCache.contains, Std.ExtTreeMap.contains_eq_isSome_getElem?, hp, Option.isSome_map]
  add a e ha := by
    have hc : ((c.registerProxy a).1.newProxy a).1.cache = c.cache := by
      rw [registerProxy]
      split_ifs <;> rfl
    have hw : c.cache.contains a = false := by
      rw [ProxyCache.contains, Std.ExtTreeMap.contains_eq_isSome_getElem?,
        show c.cache.weak[a]? = none from h.proxyOf?_eq_none_iff.1 ha]
      rfl
    rw [hc]
    exact ⟨_, if_neg (Bool.eq_false_iff.1 hw)⟩
  wrap a handedOver := by
    rcases proxyOf?_or h a with ⟨p, hp⟩ | ha
    · exact ⟨p, by rw [wrap_of_some hp]⟩
    · exact ⟨c.heap.newProxy a |>.2, by rw [wrap_of_none h ha]⟩

namespace World

variable {w w' : World} {strict : Option Bool}

/-- The world, with none of its bridges strict. -/
def lenient (w : World) : World :=
  { w with
    session :=
      { w.session with bridges := w.session.bridges.map fun _ b => b.asStrict (some false) } }

/-- Where nothing is left out, twins differ only in how strict their bridges are. -/
theorem Twins.eq_lenient (h : w.Twins (fun _ _ => true) (some false) w') : w' = w.lenient := by
  have ho := h.session.outside.eq fun _ _ => rfl
  have hb : w'.session.bridges = w.lenient.session.bridges := by
    ext1 name
    rw [h.session.bridges, lenient, Std.ExtTreeMap.getElem?_map]
  obtain ⟨⟨outside', bridges', next'⟩, visits', owned'⟩ := w'
  cases ho
  cases hb
  cases h.session.nextSerial
  cases h.visits
  cases h.owned
  rfl

theorem twins_empty (P : Nat → Notification → Bool) (strict : Option Bool) :
    Twins P strict { } { } :=
  ⟨⟨rfl, .refl P _, fun name => by simp⟩, rfl, rfl⟩

/-- A run keeps step with one that differs from it only in how strict the bridges are. -/
theorem twins_run (h : w.Twins (fun _ _ => true) strict w') (hw : w.Sound) (ms : List Move) :
    (w.run ms).Twins (fun _ _ => true) strict (w'.run (ms.map (Move.asStrict strict))) ∧
      w'.trace (fun w m => [w.reply m]) (ms.map (Move.asStrict strict)) =
        w.trace (fun w m => [w.reply m]) ms := by
  induction ms generalizing w w' with
  | nil => exact ⟨h, rfl⟩
  | cons m ms ih =>
    have hr : w.session.Ready fun _ _ => true :=
      fun name c hc => ⟨hw.machine hc, fun _ hn => absurd hn (by simp)⟩
    obtain ⟨ht, htr⟩ := ih (h.next hw hr m).1 (hw.next m)
    refine ⟨ht, ?_⟩
    rw [List.map_cons, trace, trace, h.reply hw hr, htr]

theorem run_map_lenient (ms : List Move) :
    run { } (ms.map Move.lenient) = (run { } ms).lenient ∧
      trace { } (fun w m => [w.reply m]) (ms.map Move.lenient) =
        trace { } (fun w m => [w.reply m]) ms := by
  obtain ⟨ht, htr⟩ := twins_run (twins_empty _ (some false)) sound_empty ms
  exact ⟨ht.eq_lenient, htr⟩

/-- After every run, every entry is that of a live proxy, and none is in the way of a new one.  Two runs
that differ only in how strict the bridges are have the same replies, with the same calls, and lead to
worlds that differ only in how strict the bridges are. -/
theorem lenient_run {ms ms' : List Move} (h : ms'.map Move.lenient = ms.map Move.lenient) :
    (∀ name c, (run { } ms).session.machine? name = some c → c.Tidy) ∧
      trace { } (fun w m => [w.reply m]) ms' = trace { } (fun w m => [w.reply m]) ms ∧
      (run { } ms').lenient = (run { } ms).lenient := by
  obtain ⟨hr, ht⟩ := run_map_lenient ms
  obtain ⟨hr', ht'⟩ := run_map_lenient ms'
  refine ⟨fun name c hc => Machine.tidy ((sound_empty.run ms).machine hc).memory, ?_, ?_⟩
  · rw [← ht, ← ht', h]
  · rw [← hr, ← hr', h]

/-- One address is wrapped three times: after a dismissal, and again for a new object after a collection
freed the first one. -/
def rewrapped (strict : Bool) : List Move :=
  [.step (.host (.create { value := 1 } .object true)),
   .step (.open "b" { threshold := some 2, strict } .environment false),
   .enter "b",
   .act "b" (.wrap (some { value := 1 }) false (some "x")),
   .step (.host (.take { value := 1 } 1 true)),
   .act "b" (.dismiss (.var "x")),
   .act "b" (.wrap (some { value := 1 }) true (some "x")),
   .leave "b",
   .reuse { value := 1 } .object true,
   .enter "b",
   .act "b" (.wrap (some { value := 1 }) false none),
   .leave "b"]

theorem lenient_run_rewrapped :
    (rewrapped false).map Move.lenient = (rewrapped true).map Move.lenient ∧
      trace { } (fun w m => [w.reply m]) (rewrapped false) =
        trace { } (fun w m => [w.reply m]) (rewrapped true) ∧
      ∃ c, (run { } (rewrapped true)).session.machine? "b" = some c ∧
        c.counters.proxiesCreated = 3 ∧ c.cache.contains { value := 1 } ∧ c.Tidy := by
  have hms : (rewrapped false).map Move.lenient = (rewrapped true).map Move.lenient := rfl
  obtain ⟨hm, ht, -⟩ := lenient_run hms
  let c := ((run { } (rewrapped true)).session.machine? "b").get (by decide +kernel)
  have hc : (run { } (rewrapped true)).session.machine? "b" = some c := (Option.some_get _).symm
  exact ⟨hms, ht, c, hc, by decide +kernel, by decide +kernel, hm "b" c hc⟩

end World

end NativeProxies
