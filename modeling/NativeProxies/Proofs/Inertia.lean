import NativeProxies.Proofs.Releases

/-!
# Inertia

Once a script was told that the reference behind a proxy was given back, the proxy is inert for ever, as
long as anybody keeps it (`Machine.Inert`).  Its object may be wrapped again at once: that makes another
proxy with an environment of its own, which nothing done with the old one disturbs (`World.inert_run`).
-/

namespace NativeProxies

theorem Heap.heldProxy?_eq_none {h : Heap} {p : ProxyId} (hp : ∀ a, ¬h.IsLive p a) :
    h.heldProxy? (.proxy p) = none := by
  cases hv : h.heldProxy? (.proxy p) with
  | none => rfl
  | some found =>
    obtain ⟨hq, hr, hrel⟩ := Machine.heldProxy?_spec hv
    cases hq
    exact absurd ⟨found.2, hr, rfl, hrel⟩ (hp found.2.object)

theorem Heap.entries_newProxy_env (h : Heap) (a : Address) : (h.newProxy a).1.entries h.next = ∅ := by
  simp [entries, newProxy]

namespace Machine

variable {c : Machine} {a : Address} {p : ProxyId}

/-- A proxy that does not count as an object any more.  Whatever is asked of it fails or finds nothing,
and nothing changes but what the catalog remembers of the type asked for. -/
structure Inert (c : Machine) (p : ProxyId) : Prop where
  toNative : ∀ (position : Nat) (need : Requirement),
    (c.toNative (.proxy p) position need).2 =
      (if need.lenient then .ok none
        else .error (.typeMismatch position (c.labelFor need.expected).2 "proxy")) ∧
    ∃ catalog, (c.toNative (.proxy p) position need).1 = c.setCatalog catalog
  useMember : ∀ (member : String) (new : Option Value),
    c.useMember (.proxy p) member new = (c, .error (.typeMismatch 1 "object" "proxy"))
  useField : ∀ (field : RawField) (new : Option Value),
    c.useField (.proxy p) field new = (c, .error (.typeMismatch 1 "object" "proxy"))
  inspect : ∀ (aspect : Aspect) (tag : Option TypeId), c.inspect (.proxy p) aspect tag = (c, none)
  inspectAs : ∀ (word : String) (tag : Value),
    c.inspectAs (.proxy p) word tag = (c, (Aspect.ofText word).map fun _ => none)
  dismiss : c.dismiss (.proxy p) = (c, false)

theorem inert_of_heldProxy? (hp : c.heap.heldProxy? (.proxy p) = none) : c.Inert p where
  toNative position need := by
    have ho : c.objectOf? (.proxy p) need.expected = none := by
      rw [objectOf?, hp]
      rfl
    have hn : (need.optional && Value.isNil (.proxy p)) = false := Bool.and_false _
    refine ⟨?_, ?_⟩
    · rw [Machine.toNative, hn, ho]
      cases need.lenient <;> rfl
    · obtain ⟨k, hk, -⟩ := recalls_toNative c (.proxy p) position need
      exact ⟨k, hk⟩
  useMember member new := by
    rw [Machine.useMember, hp]
    rfl
  useField field new := by
    rw [Machine.useField, hp]
    rfl
  inspect aspect tag := by rw [Machine.inspect, hp]
  inspectAs word tag := by
    rw [Machine.inspectAs]
    cases Aspect.ofText word with
    | error failure => rfl
    | ok aspect => simp only [Machine.inspect, hp, Except.map]
  dismiss := dismiss_of_none hp

/-- What is dismissed with success stood for an object until then. -/
theorem heldProxy?_of_dismiss (hd : (c.dismiss (.proxy p)).2 = true) :
    ∃ r, c.heap.proxy? p = some r ∧ c.heap.heldProxy? (.proxy p) = some (p, r) := by
  cases hv : c.heap.heldProxy? (.proxy p) with
  | none => simp [dismiss_of_none hv] at hd
  | some found =>
    obtain ⟨hq, hr, -⟩ := heldProxy?_spec hv
    cases hq
    exact ⟨found.2, hr, rfl⟩

/-- Whoever wraps an object gets another proxy than `p`, one that was made when at least `since` nodes
had been made.  If none is known, it is made now, with an environment of its own and nothing in it. -/
def Rewraps (c : Machine) (a : Address) (p : ProxyId) (since : Nat) : Prop :=
  ∀ handedOver, ∃ q r, (c.wrap a handedOver).2 = .ok q ∧ q ≠ p ∧ since ≤ q ∧
    (c.wrap a handedOver).1.heap.proxy? q = some r ∧ r.object = a ∧ r.released = false ∧
    (c.proxyOf? a = none → c.heap.holds (.proxy q) = false ∧ c.heap.holds (.table r.env) = false ∧
      (c.wrap a handedOver).1.heap.entries r.env = ∅)

theorem rewraps (h : c.memory.Sound) {since : Nat} (hp : p < since) (hn : since ≤ c.heap.next)
    (hs : ∀ e, c.cache.weak[a]? = some e → since ≤ e.proxy) : c.Rewraps a p since := by
  intro handedOver
  obtain ⟨-, -, q, hq, r, hr, ho, hrel⟩ := wrap_spec h a handedOver
  have hnew (n : Node) (hm : c.heap.next ≤ n.number) : c.heap.holds n = false := by
    refine Bool.eq_false_iff.2 fun hh => ?_
    exact Nat.not_lt_of_le hm (h.closed.lt_next n hh)
  rcases proxyOf?_or h a with ⟨q', hq'⟩ | ha
  · rw [wrap_of_some hq'] at hq
    cases hq
    obtain ⟨e, he, rfl⟩ := h.cached a q (h.proxyOf?_eq_some_iff.1 hq')
    have hle := hs e he
    refine ⟨e.proxy, r, by rw [wrap_of_some hq'], (hp.trans_le hle).ne', hle, hr, ho, hrel,
      fun hnone => ?_⟩
    exact absurd (hnone.symm.trans hq') (by simp)
  · have hh := heap_wrap_of_none h ha handedOver
    have hq' : c.heap.next + 1 = q := by
      rw [wrap_of_none h ha] at hq
      exact Except.ok.inj hq
    subst hq'
    have hr' : r = ⟨a, false, c.heap.next⟩ := by
      rw [hh, Heap.proxy?_newProxy, if_pos rfl] at hr
      exact (Option.some.inj hr).symm
    subst hr'
    have hle : since ≤ c.heap.next + 1 := hn.trans (Nat.le_succ _)
    refine ⟨_, _, hq, (hp.trans_le hle).ne', hle, hr, rfl, rfl, fun _ => ⟨hnew _ (Nat.le_succ _),
      hnew _ (Nat.le_refl _), ?_⟩⟩
    rw [hh]
    exact c.heap.entries_newProxy_env a

/-- A proxy whose reference was given back is inert, and its object is wrapped in other proxies from
then on. -/
structure Spent (c : Machine) (p : ProxyId) (a : Address) (since : Nat) : Prop where
  inert : c.Inert p
  /-- It stays marked as given back for as long as it is kept. -/
  marked : ∀ r, c.heap.proxy? p = some r → r.object = a ∧ r.released
  /-- No entry of the cache is its own, of this object or another. -/
  weak : ∀ (b : Address) (e : CachedProxy), c.cache.weak[b]? = some e → e.proxy ≠ p
  strong : ∀ b : Address, c.cache.strong[b]? ≠ some p
  rewraps : c.Rewraps a p since

theorem spent (h : c.memory.Sound) {since : Nat} (hp : p < since) (hn : since ≤ c.heap.next)
    (hs : ∀ e, c.cache.weak[a]? = some e → since ≤ e.proxy)
    (hm : ∀ r, c.heap.proxy? p = some r → r.released → r.object = a)
    (hw : ∀ (b : Address) (e : CachedProxy), c.cache.weak[b]? = some e → e.proxy ≠ p) :
    c.Spent p a since := by
  have hl : ∀ b, ¬c.heap.IsLive p b := fun b hb => by
    obtain ⟨e, he, hep⟩ := h.cached b p hb
    exact hw b e he hep
  refine ⟨inert_of_heldProxy? (Heap.heldProxy?_eq_none hl), fun r hr => ?_, hw, fun b hb => ?_,
    rewraps h hp hn hs⟩
  · have hrel : r.released := by
      by_contra hrel
      exact hl r.object ⟨r, hr, rfl, by simpa using hrel⟩
    exact ⟨hm r hr hrel, hrel⟩
  · obtain ⟨e, he, hep, -⟩ := h.strong b p hb
    exact hw b e he hep

end Machine

/-- An entry in place of one that was dropped is that of a new proxy. -/
theorem Memory.Turnover.next_le {m m' : Memory} {items : List (Address × CachedProxy)} {a : Address}
    {e f : CachedProxy} (h : m.Turnover items m') (hf : (a, f) ∈ items)
    (he : m'.cache.weak[a]? = some e) : m.heap.next ≤ e.proxy := by
  obtain ⟨hi, hm | hn⟩ := h.came a e he
  · cases (h.entries a f hf).symm.trans hm
    exact absurd hf hi
  · exact hn

namespace World

variable {w w' : World} {s since : Nat} {a : Address} {xs : List Release}

/-- The entry that a bridge may have for an object is that of a proxy made when at least `since` nodes
had been made. -/
structure Since (w : World) (s since : Nat) (a : Address) : Prop where
  opened : s < w.session.nextSerial
  made : ∀ mem, w.Has s mem → since ≤ mem.heap.next ∧
    ∀ e, mem.cache.weak[a]? = some e → since ≤ e.proxy

theorem Since.fate (hx : w.Since s since a) (hf : w.Fate s xs w')
    (hn : w.session.nextSerial ≤ w'.session.nextSerial) : w'.Since s since a := by
  refine ⟨hx.opened.trans_le hn, fun mem hh => ?_⟩
  cases hf with
  | same hs => exact hx.made mem ((hs mem).1 hh)
  | opened hs => exact absurd hs (Nat.not_le_of_lt hx.opened)
  | closed hw hw' => exact absurd hh (hw' mem)
  | turned o hw hw' ht =>
    cases (hw' mem).1 hh
    obtain ⟨hnext, hmade⟩ := hx.made _ ((hw _).2 rfl)
    exact ⟨hnext.trans ht.next, fun e he => (ht.came a e he).2.elim (hmade e) hnext.trans⟩

theorem Since.run (h : w.Sound) (hx : w.Since s since a) (ms : List Move) :
    (w.run ms).Since s since a := by
  induction ms generalizing w with
  | nil => exact hx
  | cons m ms ih => exact ih (h.next m) (hx.fate (h.fate_next m s) (w.nextSerial_le_next m))

/-- The proxy of an earlier release is spent, if a later entry for its object is that of a later proxy. -/
theorem Tally.machine_spent (hx : w.Tally s xs) (h : w.Sound) {x : Release} (hm : x ∈ xs)
    (hs : w.Since s since x.object) (hp : x.proxy < since) {name : String} {c : Machine}
    (hc : w.session.machine? name = some c) (hser : c.bridge.serial = s) :
    c.Spent x.proxy x.object since := by
  have hh : w.Has s c.memory := hser ▸ (h.has_iff hc c.memory).2 rfl
  obtain ⟨hnext, hmade⟩ := hs.made _ hh
  refine Machine.spent (h.memory hh) hp hnext hmade (fun r hr hrel => ?_)
    fun b f hf => hx.gone _ hm _ hh b f hf
  obtain ⟨y, hy, hyp, hyo⟩ := hx.spent _ _ r hh hr hrel
  rw [← hyo, List.inj_on_of_nodup_map hx.nodup hy hm hyp]

/-- The dismissal of a proxy is one of the releases, and drops the entry of the object. -/
theorem releases_dismiss (h : w.Sound) {name : String} {e : Expr} {sc sc' : Scope} {p : ProxyId}
    {r : ProxyState} (hs : w.scope? name = some sc) (he : e.eval sc = .ok (sc', .proxy p))
    (hv : sc'.machine.heap.heldProxy? (.proxy p) = some (p, r)) :
    releases sc.machine.bridge.serial w (.act name (.dismiss e)) = [⟨p, r.object, .dismissal⟩] ∧
      (w.next (.act name (.dismiss e))).Since sc.machine.bridge.serial sc'.machine.heap.next
        r.object := by
  have hsc := h.scope hs
  obtain ⟨hq, -⟩ := Expr.quiet_eval hsc e he
  have hse : sc'.machine.bridge.serial = sc.machine.bridge.serial := hq.machine.serial
  have hd : sc'.machine.dismissals (.proxy p) =
      [(r.object, ⟨p, sc'.machine.cache.generation r.object⟩)] := by
    rw [Machine.dismissals, hv]
  refine ⟨?_, ?_⟩
  · simp only [releases, parting?, hs, Option.bind_some, Action.parting?, he, hd, Option.filter_some,
      hse, decide_true, if_true, Option.elim_some]
    rfl
  · have ht := Machine.turnover_dismiss hq.sound.machine (.proxy p)
    rw [hd] at ht
    have hw' := h.next (.act name (.dismiss e))
    have hn := next_act hs (.dismiss e)
    generalize w.next (.act name (.dismiss e)) = w' at hw' hn
    have hrun : ((Action.dismiss e).run sc).1.machine = (sc'.machine.dismiss (.proxy p)).1 := by
      rw [Action.run, Scope.eval, he]
      rfl
    rw [hrun] at hn
    have hc' : w'.session.machine? name = some (sc'.machine.dismiss (.proxy p)).1 := by
      rw [hn]
      exact Session.machine?_put _ _ _
    have hse' : (sc'.machine.dismiss (.proxy p)).1.bridge.serial = sc.machine.bridge.serial :=
      (Machine.alike_dismiss hq.sound.machine _).serial.trans hse
    have hopen := hw'.lt_nextSerial ((hw'.has_iff hc' _).2 rfl)
    refine ⟨hse' ▸ hopen, fun mem hm => ?_⟩
    cases (hw'.has_iff hc' mem).1 (hse' ▸ hm)
    exact ⟨ht.next, fun f hf => ht.next_le (List.mem_singleton_self _) hf⟩

/-- Once a script dismissed a proxy and was told that this gave back its reference, nothing that happens
later brings the proxy back.  In every later state of the bridge it is spent: it is inert, and its object
is wrapped in proxies made since.  Its reference is not given back again, whatever becomes of it. -/
theorem inert_run {ms ms' : List Move} {name : String} {e : Expr} {sc sc' : Scope} {p : ProxyId}
    (hs : (run { } ms).scope? name = some sc) (he : e.eval sc = .ok (sc', .proxy p))
    (hd : (sc'.machine.dismiss (.proxy p)).2 = true) :
    ∃ r, sc'.machine.heap.proxy? p = some r ∧
      (trace { } (releases sc.machine.bridge.serial) (ms ++ .act name (.dismiss e) :: ms')).filter
        (fun x => x.proxy = p) = [⟨p, r.object, .dismissal⟩] ∧
      ∀ name' c, (run { } (ms ++ .act name (.dismiss e) :: ms')).session.machine? name' = some c →
        c.bridge.serial = sc.machine.bridge.serial →
        c.Spent p r.object sc'.machine.heap.next := by
  let s := sc.machine.bridge.serial
  let m : Move := .act name (.dismiss e)
  have h := sound_empty.run ms
  obtain ⟨r, hr, hv⟩ := Machine.heldProxy?_of_dismiss hd
  obtain ⟨hrel, hsince⟩ := releases_dismiss h hs he hv
  have hx : ⟨p, r.object, .dismissal⟩ ∈ trace { } (releases s) (ms ++ m :: ms') := by
    rw [trace_append, trace, hrel]
    exact List.mem_append_right _ (List.mem_append_left _ (List.mem_singleton_self _))
  have ht := (tally_empty s).run sound_empty (ms ++ m :: ms')
  rw [List.nil_append] at ht
  refine ⟨r, hr, ?_, fun name' c hc hser => ?_⟩
  · refine filter_eq_singleton (List.Nodup.of_map _ ht.nodup) hx rfl fun y hy hyp => ?_
    exact List.inj_on_of_nodup_map ht.nodup hy hx hyp
  · have hsince : (run { } (ms ++ m :: ms')).Since s sc'.machine.heap.next r.object := by
      rw [run_append]
      exact hsince.run (h.next m) ms'
    have hlt : p < sc'.machine.heap.next :=
      (Expr.quiet_eval (h.scope hs) e he).1.sound.machine.memory.closed.lt_next (.proxy p)
        (Heap.holds_proxy_iff.2 ⟨r, hr⟩)
    exact ht.machine_spent (sound_empty.run (ms ++ m :: ms')) hx hsince hlt hc hser

/-- A proxy is stashed, and is dismissed by a script that still has it. -/
def stashing : List Move :=
  [.step (.host (.create { value := 1 } .object false)),
   .step (.open "b" .standard .environment false),
   .enter "b",
   .act "b" (.wrap (some { value := 1 }) false (some "x")),
   .act "b" (.set (.var "x") (.integer 1) "mark"),
   .act "b" (.stash (.var "x") "kept")]

/-- The object is wrapped again, the second proxy is dismissed, too, and a third one is made after a
collection. -/
def rewrapping : List Move :=
  [.act "b" (.wrap (some { value := 1 }) false (some "y")),
   .act "b" (.set (.var "y") (.integer 2) "mark"),
   .act "b" (.dismiss (.var "x")),
   .act "b" (.dismiss (.var "y")),
   .leave "b",
   .step (.collect "b"),
   .enter "b",
   .act "b" (.dismiss (.stash "kept")),
   .act "b" (.wrap (some { value := 1 }) false none)]

theorem inert_run_rewrapping :
    ∃ sc c, (run { } stashing).scope? "b" = some sc ∧
      (Expr.var "x").eval sc = .ok (sc, .proxy 1) ∧ (sc.machine.dismiss (.proxy 1)).2 = true ∧
      (run { } (stashing ++ .act "b" (.dismiss (.var "x")) :: rewrapping)).session.machine? "b" = some c ∧
      c.bridge.serial = sc.machine.bridge.serial ∧
      c.heap.proxy? 1 = some ⟨{ value := 1 }, true, 0⟩ ∧ c.proxyOf? { value := 1 } = some 5 ∧
      c.Spent 1 { value := 1 } 2 := by
  let sc := ((run { } stashing).scope? "b").get (by decide +kernel)
  let c := ((run { } (stashing ++ .act "b" (.dismiss (.var "x")) :: rewrapping)).session.machine?
    "b").get (by decide +kernel)
  have hs : (run { } stashing).scope? "b" = some sc := (Option.some_get _).symm
  have hc : (run { } (stashing ++ .act "b" (.dismiss (.var "x")) :: rewrapping)).session.machine? "b" =
      some c := (Option.some_get _).symm
  have hx : sc.vars["x"]? = some (.proxy 1) := by decide +kernel
  have he : (Expr.var "x").eval sc = .ok (sc, .proxy 1) := by rw [Expr.eval, hx, Option.elim_some]
  have hd : (sc.machine.dismiss (.proxy 1)).2 = true := by decide +kernel
  have hser : c.bridge.serial = sc.machine.bridge.serial := by decide +kernel
  have hr : sc.machine.heap.proxy? 1 = some ⟨{ value := 1 }, false, 0⟩ := by decide +kernel
  have hnext : sc.machine.heap.next = 2 := by decide +kernel
  obtain ⟨r, hr', -, hspent⟩ := @inert_run stashing rewrapping "b" (.var "x") sc sc 1 hs he hd
  cases hr.symm.trans hr'
  exact ⟨sc, c, hs, he, hd, hc, hser, by decide +kernel, by decide +kernel,
    hnext ▸ hspent "b" c hc hser⟩

end World

end NativeProxies
