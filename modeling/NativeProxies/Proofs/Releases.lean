import NativeProxies.Proofs.Bridge.Turnover
import NativeProxies.Proofs.Recording
import NativeProxies.Proofs.Toggle

/-!
# Releases

The reference behind a proxy is given back in one of three ways: a script dismisses the proxy, a
collection finds it dead, or its bridge is closed.  `World.releases` tells for each move which references
a bridge gives back and why.  No proxy is released twice (`World.Tally`), and none is forgotten: every
proxy that a bridge ever had was released once when the bridge is closed (`World.released_run`).  The
runs at the end show a reference that is leaked on its release, for there is no function to give it back,
and what goes wrong when an address is used again under a stale entry (`World.not_released_solvent`).
-/

namespace NativeProxies

namespace World

variable {w w' : World} {m : Move} {name : String} {c c' : Machine} {s : Nat} {p : ProxyId}
  {a : Address} {xs : List Release} {mem mem' : Memory}

/-- The entries that a move drops. -/
def parting? (w : World) : Move → Option Parting
  | .act name a => (w.scope? name).bind fun s => a.parting? s
  | .leave name => (w.scope? name).map fun s => ⟨s.machine, .collection, s.machine.departures⟩
  | .step (.collect name) =>
    if w.visits.contains name then none
    else (w.session.machine? name).map fun c => ⟨c, .collection, c.catchUp.dead⟩
  | .step (.close name) =>
    if w.visits.contains name then none
    else (w.session.machine? name).map fun c => ⟨c, .closing, c.cache.weak.toList⟩
  | _ => none

/-- The releases of a bridge in a move. -/
def releases (s : Nat) (w : World) (m : Move) : List Release :=
  ((w.parting? m).filter fun x => x.machine.bridge.serial = s).elim [] Parting.releases

/-! ## What a move does -/

theorem next_collect (hv : w.visits.contains name = false)
    (hc : w.session.machine? name = some c) : w.next (.step (.collect name)) =
      { w with session := w.session.put name c.collect } := by
  rw [next_of_isFree (by simp [isFree, Step.isVisit, Step.bridge?, hv])]
  simp only [Session.step, Session.withMachine, hc]
  rfl

theorem next_close (hv : w.visits.contains name = false)
    (hc : w.session.machine? name = some c) : w.next (.step (.close name)) =
      { w with
        session :=
          { w.session with outside := c.close.outside, bridges := w.session.bridges.erase name } } := by
  rw [next_of_isFree (by simp [isFree, Step.isVisit, Step.bridge?, hv])]
  simp only [Session.step, Session.closeBridge, hc]
  rfl

/-- Nothing happens to a bridge that is not there, unless it is opened. -/
theorem next_of_machine?_eq_none {t : Step} (hc : w.session.machine? name = none)
    (hb : t.bridge? = some name)
    (ho : ∀ settings responder ancestorsOnly, t ≠ .open name settings responder ancestorsOnly) :
    w.next (.step t) = w := by
  have hb' := w.becomes_next (.step t)
  generalize w.next (.step t) = w' at hb'
  cases hb' with
  | idle => rfl
  | tend hn hc' => exact absurd (hc.symm.trans (Option.some.inj (hb.symm.trans hn) ▸ hc')) (by simp)
  | «open» settings responder ancestorsOnly =>
    cases hb
    exact absurd rfl (ho settings responder ancestorsOnly)
  | close hc' =>
    cases hb
    exact absurd (hc.symm.trans hc') (by simp)
  | host => simp [Step.bridge?] at hb

/-- The memory of the open bridge with a serial number. -/
def Has (w : World) (s : Nat) (mem : Memory) : Prop :=
  ∃ (name : String) (b : Bridge), w.session.bridges[name]? = some b ∧ b.serial = s ∧ b.memory = mem

/-- What becomes of the bridge with a serial number in a move with some releases. -/
inductive Fate (w : World) (s : Nat) : List Release → World → Prop
  /-- It is left alone, or there is none. -/
  | same {w' : World} : (∀ mem, w'.Has s mem ↔ w.Has s mem) → Fate w s [] w'
  | turned {mem mem' : Memory} {items : List (Address × CachedProxy)} {w' : World}
    (o : Occasion) : (∀ x, w.Has s x ↔ x = mem) → (∀ x, w'.Has s x ↔ x = mem') →
    mem.Turnover items mem' → Fate w s (items.map fun item => ⟨item.2.proxy, item.1, o⟩) w'
  | opened {w' : World} : w.session.nextSerial ≤ s → (∀ x, w'.Has s x → x = { }) → Fate w s [] w'
  | closed {mem : Memory} {w' : World} : (∀ x, w.Has s x ↔ x = mem) → (∀ x, ¬w'.Has s x) →
    Fate w s (mem.cache.weak.toList.map fun item => ⟨item.2.proxy, item.1, .closing⟩) w'

/-- Bridges with other serial numbers do not matter. -/
theorem has_congr (hw : ∀ (n : String) (b : Bridge), b.serial = s →
    (w'.session.bridges[n]? = some b ↔ w.session.bridges[n]? = some b)) (x : Memory) :
    w'.Has s x ↔ w.Has s x :=
  exists_congr fun n => exists_congr fun b =>
    ⟨fun ⟨hb, hs, hx⟩ => ⟨(hw n b hs).1 hb, hs, hx⟩, fun ⟨hb, hs, hx⟩ => ⟨(hw n b hs).2 hb, hs, hx⟩⟩

theorem Sound.has_iff (h : w.Sound) (hc : w.session.machine? name = some c) (x : Memory) :
    w.Has c.bridge.serial x ↔ x = c.memory := by
  obtain ⟨b, hb, rfl⟩ := Option.map_eq_some_iff.1 hc
  constructor
  · rintro ⟨n, b', hb', hs, rfl⟩
    cases h.distinct n name b' b hb' hb hs
    cases hb.symm.trans hb'
    rfl
  · rintro rfl
    exact ⟨name, b, hb, rfl, rfl⟩

theorem fate_of_bridges (hw : w'.session.bridges = w.session.bridges) (s : Nat) : w.Fate s [] w' :=
  .same (has_congr fun n b _ => by rw [hw])

/-- A bridge that goes on turns its entries over, and all others are left alone. -/
theorem Sound.fate_put (h : w.Sound) (hc : w.session.machine? name = some c) {x : Parting}
    (hx : x.machine.bridge.serial = c.bridge.serial) (hs : c'.bridge.serial = c.bridge.serial)
    (ht : c.memory.Turnover x.items c'.memory) (hw : w'.session = w.session.put name c')
    (hw' : w'.Sound) (s : Nat) :
    w.Fate s (((some x).filter fun x => x.machine.bridge.serial = s).elim [] Parting.releases) w' := by
  by_cases hse : c.bridge.serial = s
  · subst hse
    have hc' : w'.session.machine? name = some c' := hw ▸ Session.machine?_put _ _ _
    rw [Option.filter_some, if_pos (by simpa using hx)]
    exact .turned x.occasion (h.has_iff hc) (fun y => hs ▸ hw'.has_iff hc' y) ht
  · rw [Option.filter_some, if_neg (by simpa [hx] using hse)]
    refine .same (has_congr fun n b hb => ?_)
    obtain ⟨b', hb', rfl⟩ := Option.map_eq_some_iff.1 hc
    rw [hw, Session.put]
    grind

/-- A bridge that goes on without releases. -/
theorem Sound.fate_put_nil (h : w.Sound) (hc : w.session.machine? name = some c)
    (hs : c'.bridge.serial = c.bridge.serial) (ht : c.memory.Turnover [] c'.memory)
    (hw : w'.session = w.session.put name c') (hw' : w'.Sound) (s : Nat) : w.Fate s [] w' := by
  have hf := h.fate_put (x := ⟨c, .collection, []⟩) hc rfl hs ht hw hw' s
  by_cases hse : c.bridge.serial = s <;> simpa [Option.filter_some, hse, Parting.releases] using hf

theorem Sound.fate_close (h : w.Sound) (hc : w.session.machine? name = some c)
    (hw : w'.session.bridges = w.session.bridges.erase name) (s : Nat) :
    w.Fate s (((some (⟨c, .closing, c.cache.weak.toList⟩ : Parting)).filter fun x =>
      x.machine.bridge.serial = s).elim [] Parting.releases) w' := by
  by_cases hse : c.bridge.serial = s
  · subst hse
    rw [Option.filter_some, if_pos (by simp)]
    refine .closed (h.has_iff hc) fun x ⟨n, b, hb, hs, hx⟩ => ?_
    obtain ⟨b', hb', rfl⟩ := Option.map_eq_some_iff.1 hc
    have hn : n ≠ name ∧ w.session.bridges[n]? = some b := by
      rw [hw] at hb
      grind
    exact hn.1 (h.distinct n name b b' hn.2 hb' hs)
  · rw [Option.filter_some, if_neg (by simpa using hse)]
    refine .same (has_congr fun n b hb => ?_)
    obtain ⟨b', hb', rfl⟩ := Option.map_eq_some_iff.1 hc
    rw [hw]
    grind

theorem turnover_tends {t : Step} (ht : Tends c t c') (hn : ∀ name, t ≠ .collect name) :
    c.memory.Turnover [] c'.memory := by
  cases ht with
  | catchUp name => exact c.turnover_catchUp
  | collect name => exact absurd rfl (hn name)
  | unstash name stash => exact Memory.turnover_nil (Nat.le_refl _) rfl rfl
  | register name d => exact c.memory.turnover_refl
  | catalog name q => exact (Machine.recalls_catalogStep c q).quiet.turnover

/-- A move that drops no entries. -/
theorem Sound.fate_nil (h : w.Sound) (ha : ∀ name a, m ≠ .act name a) (hl : ∀ name, m ≠ .leave name)
    (hg : ∀ name, m ≠ .step (.collect name)) (hc : ∀ name, m ≠ .step (.close name)) (s : Nat) :
    w.Fate s [] (w.next m) := by
  have hw' := h.next m
  have hb := w.becomes_next m
  generalize w.next m = w' at hb hw'
  cases hb with
  | idle => exact fate_of_bridges rfl s
  | @enter name c hm =>
    exact h.fate_put_nil hm (Machine.alike_catchUp (h.machine hm)).serial c.turnover_catchUp rfl hw' s
  | act a hs => exact absurd rfl (ha _ a)
  | leave hs => exact absurd rfl (hl _)
  | tend hn hm hv ht =>
    have hne : ∀ name, _ ≠ Step.collect name := fun name he => hg name (congrArg Move.step he)
    exact h.fate_put_nil hm (Sound.tends (h.machine hm) ht).1 (turnover_tends ht hne) rfl hw' s
  | @«open» name settings responder ancestorsOnly hn =>
    by_cases hs : w.session.nextSerial ≤ s
    · refine .opened hs fun x ⟨n, b, hb, hse, hx⟩ => ?_
      by_cases hname : n = name
      · subst hname
        cases (Std.ExtTreeMap.getElem?_insert_self.symm.trans hb : some _ = some b)
        exact hx.symm
      · have hb' : w.session.bridges[n]? = some b := by
          dsimp only at hb
          grind
        exact absurd (h.serial_lt n b hb') (by rw [hse]; exact Nat.not_lt.2 hs)
    · refine .same (has_congr fun n b hb => ?_)
      have hn' := Session.ne_of_contains (n := n) (x := b) hn
      dsimp only
      grind
  | close hm hv => exact absurd rfl (hc _)
  | host t => exact fate_of_bridges (by rfl) s
  | reuse t floating hdead => exact fate_of_bridges (by rfl) s

/-- What becomes of a bridge in a move, with the releases that it makes. -/
theorem Sound.fate_next (h : w.Sound) (m : Move) (s : Nat) :
    w.Fate s (releases s w m) (w.next m) := by
  have hw' := h.next m
  have hidle (hn : w.next m = w) (hp : w.parting? m = none) :
      w.Fate s (releases s w m) (w.next m) := by
    rw [releases, hp]
    exact fate_of_bridges (congrArg (fun w => w.session.bridges) hn) s
  cases m with
  | act name a =>
    cases hs : w.scope? name with
    | none => exact hidle (by rw [World.next, hs]; rfl) (by rw [parting?, hs]; rfl)
    | some sc =>
      have hc := machine?_of_scope? hs
      have hse := (Action.run_spec (h.scope hs) a).serial
      have ht := Action.turnover_run (h.scope hs) a
      rw [releases, parting?, hs, Option.bind_some]
      rw [next_act hs] at hw' ⊢
      cases hx : a.parting? sc with
      | none =>
        rw [hx] at ht
        exact h.fate_put_nil hc hse ht (by rfl) hw' s
      | some x =>
        rw [hx] at ht
        exact h.fate_put hc (Action.parting?_spec (h.scope hs) hx).1 hse ht (by rfl) hw' s
  | leave name =>
    cases hs : w.scope? name with
    | none => exact hidle (by rw [World.next, hs]; rfl) (by rw [parting?, hs]; rfl)
    | some sc =>
      have hc := machine?_of_scope? hs
      have hse := (Machine.alike_leave (h.machine hc)).serial
      rw [releases, parting?, hs]
      rw [next_leave hs] at hw' ⊢
      exact h.fate_put (x := ⟨sc.machine, .collection, sc.machine.departures⟩) hc rfl hse
        (Machine.turnover_leave _) (by rfl) hw' s
  | enter name => exact h.fate_nil (by simp) (by simp) (by simp) (by simp) s
  | reuse b t floating => exact h.fate_nil (by simp) (by simp) (by simp) (by simp) s
  | step t =>
    cases t with
    | collect name =>
      cases hv : w.visits.contains name with
      | true =>
        exact hidle (next_of_not_isFree (by simp [isFree, Step.bridge?, hv]))
          (by rw [parting?, if_pos hv])
      | false =>
        cases hc : w.session.machine? name with
        | none => exact hidle (next_of_machine?_eq_none hc rfl (by simp)) (by rw [parting?, hv, hc]; rfl)
        | some c =>
          have hse := (Machine.alike_collect (h.machine hc)).serial
          rw [releases, parting?, hv, hc]
          rw [next_collect hv hc] at hw' ⊢
          exact h.fate_put (x := ⟨c, .collection, c.catchUp.dead⟩) hc rfl hse c.turnover_collect
            (by rfl) hw' s
    | close name =>
      cases hv : w.visits.contains name with
      | true =>
        exact hidle (next_of_not_isFree (by simp [isFree, Step.bridge?, hv]))
          (by rw [parting?, if_pos hv])
      | false =>
        cases hc : w.session.machine? name with
        | none => exact hidle (next_of_machine?_eq_none hc rfl (by simp)) (by rw [parting?, hv, hc]; rfl)
        | some c =>
          rw [releases, parting?, hv, hc, next_close hv hc]
          exact h.fate_close hc rfl s
    | _ => exact h.fate_nil (by simp) (by simp) (by simp) (by simp) s

/-! ## No proxy is released twice -/

/-- The releases of a bridge so far are those of different proxies, which have no entries any more and
are not made again.  All proxies in the heap that count as released are among them. -/
structure Tally (w : World) (s : Nat) (xs : List Release) : Prop where
  nodup : (xs.map Release.proxy).Nodup
  opened : xs ≠ [] → s < w.session.nextSerial
  made : ∀ x ∈ xs, ∀ mem, w.Has s mem → x.proxy < mem.heap.next
  gone : ∀ x ∈ xs, ∀ mem, w.Has s mem → ∀ (a : Address) (e : CachedProxy),
    mem.cache.weak[a]? = some e → e.proxy ≠ x.proxy
  spent : ∀ mem (p : ProxyId) (r : ProxyState), w.Has s mem → mem.heap.proxy? p = some r →
    r.released → ∃ x ∈ xs, x.proxy = p ∧ x.object = r.object

theorem tally_empty (s : Nat) : Tally { } s [] := by
  refine ⟨List.nodup_nil, by simp, by simp, by simp, fun mem p r ⟨name, b, hb, _⟩ => ?_⟩
  simp at hb

theorem Sound.memory (h : w.Sound) (hm : w.Has s mem) : mem.Sound := by
  obtain ⟨name, b, hb, -, rfl⟩ := hm
  exact (h.machines name b hb).memory

theorem Sound.lt_nextSerial (h : w.Sound) (hm : w.Has s mem) : s < w.session.nextSerial := by
  obtain ⟨name, b, hb, rfl, -⟩ := hm
  exact h.serial_lt name b hb

/-- The entries of a sound cache are those of different proxies. -/
theorem entry_eq (h : mem.Sound) {b : Address} {e f : CachedProxy}
    (he : mem.cache.weak[a]? = some e) (hf : mem.cache.weak[b]? = some f)
    (hp : e.proxy = f.proxy) : (a, e) = (b, f) := by
  cases (h.live a e he).unique (hp ▸ h.live b f hf)
  cases he.symm.trans hf
  rfl

theorem nodup_proxies (h : mem.Sound) {items : List (Address × CachedProxy)}
    (hd : (items.map Prod.fst).Nodup)
    (hi : ∀ (a : Address) (e : CachedProxy), (a, e) ∈ items → mem.cache.weak[a]? = some e)
    (o : Occasion) :
    ((items.map fun item => (⟨item.2.proxy, item.1, o⟩ : Release)).map Release.proxy).Nodup := by
  rw [List.map_map]
  refine List.Nodup.map_on (fun x hx y hy hp => ?_) (List.Nodup.of_map _ hd)
  exact entry_eq h (hi x.1 x.2 hx) (hi y.1 y.2 hy) hp

/-- Entries that are dropped are those of proxies that were not released before. -/
theorem Tally.nodup_append (hx : w.Tally s xs) (h : w.Sound) (hm : w.Has s mem)
    {items : List (Address × CachedProxy)} (hd : (items.map Prod.fst).Nodup)
    (hi : ∀ (a : Address) (e : CachedProxy), (a, e) ∈ items → mem.cache.weak[a]? = some e)
    (o : Occasion) :
    ((xs ++ items.map fun item => (⟨item.2.proxy, item.1, o⟩ : Release)).map Release.proxy).Nodup := by
  rw [List.map_append]
  refine hx.nodup.append (nodup_proxies (h.memory hm) hd hi o) fun p hp hp' => ?_
  obtain ⟨x, hxs, rfl⟩ := List.mem_map.1 hp
  rw [List.map_map] at hp'
  obtain ⟨⟨a, e⟩, hmem, he⟩ := List.mem_map.1 hp'
  exact hx.gone x hxs mem hm a e (hi a e hmem) he

theorem Tally.fate {ys : List Release} (hx : w.Tally s xs) (h : w.Sound) (hf : w.Fate s ys w')
    (hn : w.session.nextSerial ≤ w'.session.nextSerial) : w'.Tally s (xs ++ ys) := by
  cases hf with
  | same hs =>
    rw [List.append_nil]
    exact ⟨hx.nodup, fun hne => (hx.opened hne).trans_le hn,
      fun x hm mem hh => hx.made x hm mem ((hs mem).1 hh),
      fun x hm mem hh => hx.gone x hm mem ((hs mem).1 hh),
      fun mem p r hh => hx.spent mem p r ((hs mem).1 hh)⟩
  | opened hs he =>
    have hnil : xs = [] := by
      by_contra hne
      exact Nat.not_le_of_lt (hx.opened hne) hs
    subst hnil
    refine ⟨List.nodup_nil, by simp, by simp, by simp, fun mem p r hh hp => ?_⟩
    simp [he mem hh, Heap.proxy?] at hp
  | closed hw hw' =>
    have hm := (hw _).2 rfl
    refine ⟨hx.nodup_append h hm (nodup_keys_toList _) (fun a e hi => ?_) _,
      fun _ => (h.lt_nextSerial hm).trans_le hn, fun x _ mem hh => absurd hh (hw' mem),
      fun x _ mem hh => absurd hh (hw' mem), fun mem _ _ hh => absurd hh (hw' mem)⟩
    exact Std.ExtTreeMap.mem_toList_iff_getElem?_eq_some.1 hi
  | @turned mem mem' items _ o hw hw' ht =>
    have hm := (hw _).2 rfl
    have hs := h.memory hm
    have hlt (a : Address) (e : CachedProxy) (he : mem.cache.weak[a]? = some e) :
        e.proxy < mem.heap.next := hs.closed.lt_next _ (hs.live a e he).holds
    refine ⟨hx.nodup_append h hm ht.nodup ht.entries o, fun _ => (h.lt_nextSerial hm).trans_le hn,
      fun x hxs y hy => ?_, fun x hxs y hy a e he => ?_, fun y p r hy hp hr => ?_⟩
    · cases (hw' y).1 hy
      rcases List.mem_append.1 hxs with hxs | hxs
      · exact (hx.made x hxs mem hm).trans_le ht.next
      · obtain ⟨⟨b, f⟩, hi, rfl⟩ := List.mem_map.1 hxs
        exact (hlt b f (ht.entries b f hi)).trans_le ht.next
    · cases (hw' y).1 hy
      obtain ⟨hni, hold⟩ := ht.came a e he
      rcases List.mem_append.1 hxs with hxs | hxs
      · rcases hold with hold | hnew
        · exact hx.gone x hxs mem hm a e hold
        · exact ((hx.made x hxs mem hm).trans_le hnew).ne'
      · obtain ⟨⟨b, f⟩, hi, rfl⟩ := List.mem_map.1 hxs
        have hf := ht.entries b f hi
        rcases hold with hold | hnew
        · exact fun hp => hni (entry_eq hs hold hf hp ▸ hi)
        · exact ((hlt b f hf).trans_le hnew).ne'
    · cases (hw' y).1 hy
      rcases ht.spent p r hp hr with hp | ⟨e, hi, rfl⟩
      · obtain ⟨x, hxs, hxp⟩ := hx.spent mem p r hm hp hr
        exact ⟨x, List.mem_append_left _ hxs, hxp⟩
      · exact ⟨_, List.mem_append_right _ (List.mem_map.2 ⟨_, hi, rfl⟩), rfl, rfl⟩

/-! ## No proxy is forgotten -/

/-- A proxy that has an entry keeps it or is released. -/
theorem Fate.stays (hf : w.Fate s xs w') (h : w.Sound) (hm : w.Has s mem) {e : CachedProxy}
    (he : mem.cache.weak[a]? = some e) :
    (∃ mem', w'.Has s mem' ∧ mem'.cache.weak[a]? = some e) ∨
      ∃ x ∈ xs, x.proxy = e.proxy ∧ x.object = a := by
  cases hf with
  | same hs => exact .inl ⟨mem, (hs mem).2 hm, he⟩
  | opened hs hn => exact absurd hs (Nat.not_le_of_lt (h.lt_nextSerial hm))
  | closed hw hw' =>
    cases (hw mem).1 hm
    refine .inr ⟨_, List.mem_map.2 ⟨(a, e), ?_, rfl⟩, rfl, rfl⟩
    exact Std.ExtTreeMap.mem_toList_iff_getElem?_eq_some.2 he
  | turned o hw hw' ht =>
    cases (hw mem).1 hm
    rcases ht.stays a e he with hi | he
    · exact .inr ⟨_, List.mem_map.2 ⟨(a, e), hi, rfl⟩, rfl, rfl⟩
    · exact .inl ⟨_, (hw' _).2 rfl, he⟩

/-! ## Runs -/

theorem nextSerial_le_next (w : World) (m : Move) :
    w.session.nextSerial ≤ (w.next m).session.nextSerial := by
  have hb := w.becomes_next m
  generalize w.next m = w' at hb
  cases hb with
  | «open» => exact Nat.le_succ _
  | _ => exact Nat.le_refl _

theorem Tally.run (h : w.Sound) (hx : w.Tally s xs) (ms : List Move) :
    (w.run ms).Tally s (xs ++ w.trace (releases s) ms) := by
  induction ms generalizing w xs with
  | nil => rwa [trace, List.append_nil]
  | cons m ms ih =>
    have hi := ih (h.next m) (hx.fate h (h.fate_next m s) (w.nextSerial_le_next m))
    rwa [List.append_assoc] at hi

theorem stays_run (h : w.Sound) (hm : w.Has s mem) {e : CachedProxy}
    (he : mem.cache.weak[a]? = some e) (ms : List Move) :
    (∃ mem', (w.run ms).Has s mem' ∧ mem'.cache.weak[a]? = some e) ∨
      ∃ x ∈ w.trace (releases s) ms, x.proxy = e.proxy ∧ x.object = a := by
  induction ms generalizing w mem with
  | nil => exact .inl ⟨mem, hm, he⟩
  | cons m ms ih =>
    rcases (h.fate_next m s).stays h hm he with ⟨mem', hm', he'⟩ | ⟨x, hx, hxp⟩
    · rcases ih (h.next m) hm' he' with hl | ⟨x, hx, hxp⟩
      · exact .inl hl
      · exact .inr ⟨x, List.mem_append_right _ hx, hxp⟩
    · exact .inr ⟨x, List.mem_append_left _ hx, hxp⟩

/-- A bridge that was closed has released every proxy that its heap ever held, once. -/
theorem released_of_closed {ms ms₁ ms₂ : List Move} (he : ms = ms₁ ++ ms₂)
    (hc : ∀ mem, ¬(run { } ms).Has s mem) (hm : (run { } ms₁).Has s mem) {r : ProxyState}
    (hr : mem.heap.proxy? p = some r) :
    ∃ x, (trace { } (releases s) ms).filter (fun x => x.proxy = p) = [x] ∧ x.object = r.object := by
  have h₁ := sound_empty.run ms₁
  have ht₁ := (tally_empty s).run sound_empty ms₁
  have ht := (tally_empty s).run sound_empty ms
  rw [List.nil_append] at ht ht₁
  obtain ⟨x, hx, hxp, hxo⟩ : ∃ x ∈ trace { } (releases s) ms, x.proxy = p ∧ x.object = r.object := by
    rw [he, trace_append]
    cases hrel : r.released with
    | true =>
      obtain ⟨x, hx, hxp⟩ := ht₁.spent mem p r hm hr hrel
      exact ⟨x, List.mem_append_left _ hx, hxp⟩
    | false =>
      obtain ⟨e, hw, rfl⟩ := (h₁.memory hm).cached r.object p ⟨r, hr, rfl, hrel⟩
      rcases stays_run h₁ hm hw ms₂ with ⟨mem', hm', -⟩ | ⟨x, hx, hxp⟩
      · rw [← run_append, ← he] at hm'
        exact absurd hm' (hc mem')
      · exact ⟨x, List.mem_append_right _ hx, hxp⟩
  refine ⟨x, ?_, hxo⟩
  have hd : (trace { } (releases s) ms).Nodup := List.Nodup.of_map _ ht.nodup
  exact filter_eq_singleton hd hx hxp fun y hy hyp =>
    List.inj_on_of_nodup_map ht.nodup hy hx (hyp.trans hxp.symm)

/-- The references behind the entries that a move drops are given back, one call for each. -/
theorem leaves_next (h : w.Sound) {x : Parting} (hx : w.parting? m = some x) :
    x.Leaves (w.next m).session.outside := by
  cases m with
  | act name a =>
    obtain ⟨sc, hs, hx⟩ := Option.bind_eq_some_iff.1 hx
    rw [next_act hs]
    exact (Action.parting?_spec (h.scope hs) hx).2
  | leave name =>
    obtain ⟨sc, hs, rfl⟩ := Option.map_eq_some_iff.1 hx
    rw [next_leave hs]
    exact sc.machine.frees_leave.leaves _
  | enter name => cases hx
  | reuse b t floating => cases hx
  | step t =>
    cases t with
    | collect name =>
      rw [parting?] at hx
      split_ifs at hx with hv
      obtain ⟨c, hc, rfl⟩ := Option.map_eq_some_iff.1 hx
      rw [next_collect (Bool.eq_false_iff.2 hv) hc]
      exact c.frees_collect.leaves _
    | close name =>
      rw [parting?] at hx
      split_ifs at hx with hv
      obtain ⟨c, hc, rfl⟩ := Option.map_eq_some_iff.1 hx
      rw [next_close (Bool.eq_false_iff.2 hv) hc]
      exact (Machine.frees_close (h.machine hc)).leaves _
    | _ => cases hx

/-- What a run did for a bridge that is not open any more. -/
structure Closes (ms : List Move) (s : Nat) : Prop where
  /-- Every proxy that the bridge ever had was released on one occasion. -/
  once : ∀ (ms₁ ms₂ : List Move) (mem : Memory) (p : ProxyId) (r : ProxyState), ms = ms₁ ++ ms₂ →
    (run { } ms₁).Has s mem → mem.heap.proxy? p = some r →
    ∃ x, (trace { } (releases s) ms).filter (fun x => x.proxy = p) = [x] ∧ x.object = r.object
  /-- For every release the reference behind the proxy was given back, or leaked if there is no way. -/
  leaves : ∀ (ms₁ ms₂ : List Move) (m : Move) (x : Parting), ms = ms₁ ++ m :: ms₂ →
    (run { } ms₁).parting? m = some x → x.Leaves (run { } (ms₁ ++ [m])).session.outside
  /-- Every registration that was added was removed from the same object, where it still was. -/
  settled : ∀ g, (run { } ms).session.outside.Settled s g
  /-- No object has a toggle reference of the bridge. -/
  unwatched : ∀ a g, .bridge s g ∉ (run { } ms).session.outside.host.watchers a
  /-- Dropping the closed bridge did nothing, and would have nothing to do. -/
  dropped : ∀ (ms₁ ms₂ : List Move) (name : String) (c : Machine),
    ms = ms₁ ++ .step (.close name) :: ms₂ → (run { } ms₁).session.machine? name = some c →
    c.bridge.serial = s →
    c.close = (c.tearDown false).1 ∧ (c.close.tearDown false).1.host = c.close.host ∧
      (c.close.tearDown false).1.outside.journal = c.close.outside.journal

/-- Whenever a bridge is not open any more after an orderly run, each of its proxies was released once,
and each of its registrations was added and removed once. -/
theorem released_run {ms : List Move} (h : Along (Orderly fun _ _ => 0) { } ms) {s : Nat}
    (hc : ∀ name c, (run { } ms).session.machine? name = some c → c.bridge.serial ≠ s) :
    Closes ms s where
  once ms₁ ms₂ mem p r he hm hr := by
    refine released_of_closed he (fun x ⟨name, b, hb, hs, _⟩ => ?_) hm hr
    exact hc name _ (Option.map_eq_some_iff.2 ⟨b, hb, rfl⟩) hs
  leaves ms₁ ms₂ m x _ hx := by
    rw [run_append]
    exact leaves_next (sound_empty.run ms₁) hx
  settled g := (recorded_run h).closed s g hc
  unwatched a g := ((recorded_run h).closed s g hc).not_mem (sound_empty.run ms).written a
  dropped ms₁ ms₂ name c _ hc _ :=
    ⟨c.close_eq_tearDown, Machine.outside_tearDown_close ((sound_empty.run ms₁).machine hc).memory⟩

/-- A proxy is stashed and dismissed, and its object is wrapped again; another one is collected, and two
are left when the bridge is closed. -/
def farewell : List Move :=
  [.step (.host (.create { value := 1 } .object false)),
   .step (.host (.create { value := 2 } .object true)),
   .step (.host (.create { value := 3 } .object false)),
   .step (.open "b" .standard .environment false),
   .enter "b",
   .act "b" (.wrap (some { value := 1 }) false (some "x")),
   .act "b" (.wrap (some { value := 2 }) false none),
   .act "b" (.wrap (some { value := 3 }) false none),
   .act "b" (.stash (.var "x") "kept"),
   .act "b" (.dismiss (.var "x")),
   .act "b" (.dismiss (.var "x")),
   .act "b" (.wrap (some { value := 1 }) false none),
   .leave "b",
   .step (.collect "b"),
   .step (.close "b")]

theorem released_run_farewell :
    Along (Orderly fun _ _ => 0) { } farewell ∧
      (run { } farewell).session.bridges.isEmpty ∧
      Closes farewell 0 ∧
      trace { } (releases 0) farewell =
        [⟨1, { value := 1 }, .dismissal⟩, ⟨3, { value := 2 }, .collection⟩,
          ⟨7, { value := 1 }, .closing⟩, ⟨5, { value := 3 }, .closing⟩] ∧
      ∀ g ∈ [1, 4], (run { } farewell).session.outside.callsFor 0 g =
        [.addition 0 g { value := 1 }, .removal 0 g { value := 1 }] := by
  have he : (run { } farewell).session.bridges.isEmpty := by decide +kernel
  refine ⟨by decide +kernel, he, released_run (by decide +kernel) fun name c hc => ?_,
    by decide +kernel, by decide +kernel⟩
  obtain ⟨b, hb, -⟩ := Option.map_eq_some_iff.1 hc
  simp [Std.ExtTreeMap.isEmpty_iff.1 he] at hb

/-! ## References that are not given back -/

/-- The type of an object has a function to take references, and none to give them back. -/
def leaked : List Move :=
  [.step (.host (.addFundamental "Token" (some ⟨some .fundamental, none⟩))),
   .step (.host (.create { value := 1 } ⟨1⟩ false)),
   .step (.open "b" .standard .environment false),
   .enter "b",
   .act "b" (.wrap (some { value := 1 }) false none),
   .leave "b",
   .step (.close "b")]

/-- An address is used again while a bridge has a stale entry for it, and another bridge wraps the new
object.  When the first bridge is closed it gives up the reference of the other one. -/
def displaced : List Move :=
  [.step (.host (.addFundamental "Plain" none)),
   .step (.host (.create { value := 1 } ⟨1⟩ false)),
   .step (.open "left" .standard .environment false),
   .step (.open "right" .standard .environment false),
   .enter "left",
   .act "left" (.wrap (some { value := 1 }) false none),
   .leave "left",
   .step (.host (.drop { value := 1 } 1 false)),
   .reuse { value := 1 } .object false,
   .enter "right",
   .act "right" (.wrap (some { value := 1 }) true none),
   .leave "right",
   .step (.close "left"),
   .step (.close "right")]

/-- The toggle reference of the second bridge is to be removed from an object that was freed. -/
theorem not_closes_displaced : ¬Closes displaced 1 := by
  intro h
  have hc : (run { } displaced).session.outside.callsFor 1 1 =
      [.addition 1 1 { value := 1 },
        { Call.removal 1 1 { value := 1 } with dead := true, missed := true }] := by
    decide +kernel
  rcases h.settled 1 with hn | ⟨a, ha⟩
  · simp [hc] at hn
  · simp [hc, Call.removal] at ha

/-- It is not enough that the code around the bridges gives up only references that it owns.  A released
reference may be leaked, and an address that is used again may cost another bridge its reference. -/
theorem not_released_solvent :
    (Along Solvent { } leaked ∧ (run { } leaked).session.bridges.isEmpty ∧
      trace { } (releases 0) leaked = [⟨1, { value := 1 }, .closing⟩] ∧
      (run { } leaked).session.outside.journal =
        #[⟨0, .function .fundamental .take, { value := 1 }, false, false⟩] ∧
      (run { } leaked).owned { value := 1 } = 1 ∧
      (run { } leaked).session.outside.host.refs { value := 1 } = 2) ∧
    Along Solvent { } displaced ∧ (run { } displaced).session.bridges.isEmpty ∧ ¬Closes displaced 1 :=
  ⟨⟨by decide +kernel, by decide +kernel, by decide +kernel, by decide +kernel, by decide +kernel,
      by decide +kernel⟩,
    by decide +kernel, by decide +kernel, not_closes_displaced⟩

end World

end NativeProxies
