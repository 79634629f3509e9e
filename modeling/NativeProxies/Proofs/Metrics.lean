import Mathlib.Algebra.Group.Nat.Defs
import NativeProxies.Proofs.Bridge.Books
import NativeProxies.Proofs.Diary

/-!
# Metrics

What the counters of a bridge say about its proxies.  `World.postings` tells for each move what a bridge
does to the references behind its proxies, and every counter is the number of such entries so far
(`World.Booked`).  Hence the counters account for every proxy: each that was asked for was found or made,
each that was made is in the cache or its reference was given back, and each that became strong is
strong, became weak again, or was dismissed while it was strong (`World.metrics_run`).
-/

namespace NativeProxies

namespace Action

variable {s : Scope} {xs : List Posting}

/-- What the bridge of a scope enters in an action. -/
def postings (s : Scope) : Action → List Posting
  | wrap (some a) handedOver _ =>
    if s.machine.host.isAlive a then s.machine.wrapping a handedOver else []
  | dismiss e =>
    match e.eval s with
    | .error _ => []
    | .ok r => r.1.machine.dismissing r.2
  | _ => []

/-- An action wraps an object or dismisses a value, or nothing is entered. -/
theorem postings_cases (h : s.Sound) (a : Action) :
    (∃ b handedOver, a.postings s = s.machine.wrapping b handedOver ∧
      (a.run s).1.machine = (s.machine.wrap b handedOver).1) ∨
    (∃ s' v, s.Quiet s' ∧ a.postings s = s'.machine.dismissing v ∧
      (a.run s).1.machine = (s'.machine.dismiss v).1) ∨
    a.postings s = [] ∧ (s.machine.Quiet (a.run s).1.machine ∨
      (∃ n, (a.run s).1.machine = s.machine.applyNotification n) ∨
      (a.run s).1.machine = s.machine.catchUp ∨
      (a.run s).1.machine.bridge = s.machine.bridge) := by
  by_cases hd : ∃ e, a = .dismiss e
  · obtain ⟨e, rfl⟩ := hd
    rw [run, Scope.eval, postings]
    cases he : e.eval s with
    | error r => exact .inr (.inr ⟨rfl, .inl (.refl _)⟩)
    | ok r => exact .inr (.inl ⟨r.1, r.2, (Expr.quiet_eval h e he).1, rfl, rfl⟩)
  by_cases hw : ∃ b handedOver name, a = .wrap (some b) handedOver name ∧ s.machine.host.isAlive b
  · obtain ⟨b, handedOver, name, rfl, ha⟩ := hw
    refine .inl ⟨b, handedOver, if_pos ha, ?_⟩
    rw [run, if_neg (by simp [Host.contains_of_isAlive ha]), if_neg (by simp [ha]), wrapObject,
      machine_afterValue]
    rfl
  have hn : a.postings s = [] := by
    cases a with
    | dismiss e => exact absurd ⟨e, rfl⟩ hd
    | wrap b handedOver name =>
      cases b with
      | none => rfl
      | some b => exact if_neg fun ha => hw ⟨b, handedOver, name, rfl, ha⟩
    | _ => rfl
  refine .inr (.inr ⟨hn, ?_⟩)
  rcases run_cases h a with ⟨hq, -⟩ | ⟨n, rfl⟩ | rfl | ⟨b, handedOver, name, he, hb', -⟩ |
    ⟨e, s', v, he, -, -⟩ | ⟨t, rfl⟩
  · exact .inl hq.machine
  · exact .inr (.inl ⟨n, rfl⟩)
  · exact .inr (.inr (.inl rfl))
  · exact absurd ⟨b, handedOver, name, he, hb'⟩ hw
  · exact absurd ⟨e, he⟩ hd
  · exact .inr (.inr (.inr rfl))

theorem books_run (h : s.Sound) (hb : s.machine.bridge.Books 0 xs) (a : Action) :
    (a.run s).1.machine.bridge.Books 0 (xs ++ a.postings s) := by
  rcases postings_cases h a with ⟨b, handedOver, hp, hm⟩ | ⟨s', v, hq, hp, hm⟩ | ⟨hp, hm⟩
  · rw [hp, hm]
    exact Machine.books_wrap h.machine.memory hb b handedOver
  · rw [hp, hm]
    exact Machine.books_dismiss hq.sound.machine (hq.machine.level.books hb) v
  · rw [hp, List.append_nil]
    rcases hm with hq | ⟨n, hm⟩ | hm | hm
    · exact hq.level.books hb
    · rw [hm]
      exact (Machine.level_applyNotification s.machine n).books hb
    · rw [hm]
      exact (Machine.level_catchUp s.machine).books hb
    · rwa [hm]

end Action

namespace World

variable {w : World} {c c' : Machine} {s : Nat} {xs : List Posting}

/-- The bridge that enters something in its books in a move, and what it enters. -/
def entering? (w : World) : Move → Option (Machine × List Posting)
  | .act name a => (w.scope? name).map fun s => (s.machine, a.postings s)
  | .leave name => (w.scope? name).map fun s => (s.machine, s.machine.returns s.machine.departures)
  | .step (.collect name) =>
    if w.visits.contains name then none
    else (w.session.machine? name).map fun c => (c, c.returns c.catchUp.dead)
  | _ => none

/-- What a bridge enters in its books in a move. -/
def postings (s : Nat) (w : World) (m : Move) : List Posting :=
  ((w.entering? m).filter fun x => x.1.bridge.serial = s).elim [] Prod.snd

/-- The books of the bridge with a serial number are right.  There is nothing in them before the bridge
was opened. -/
structure Booked (w : World) (s : Nat) (xs : List Posting) : Prop where
  opened : xs ≠ [] → s < w.session.nextSerial
  books : ∀ (name : String) (b : Bridge), w.session.bridges[name]? = some b → b.serial = s →
    b.Books 0 xs

theorem booked_empty (s : Nat) : Booked { } s [] :=
  ⟨by simp, fun name b hb => by simp at hb⟩

theorem level_tends {t : Step} (ht : Tends c t c') (hn : ∀ name, t ≠ .collect name) : c.Level c' := by
  cases ht with
  | catchUp name => exact c.level_catchUp
  | collect name => exact absurd rfl (hn name)
  | unstash name stash => exact Machine.level_of_cache rfl rfl
  | register name d => exact Machine.level_of_cache rfl rfl
  | catalog name q => exact (Machine.recalls_catalogStep c q).level

/-- The books of a bridge as a diary. -/
def bookkeeping : Diary Posting where
  act s a := a.postings s
  leave c := c.returns c.departures
  collect c := c.returns c.catchUp.dead

theorem notes_bookkeeping (s : Nat) : bookkeeping.notes s = postings s := by
  funext w m
  rw [Diary.notes, postings]
  cases m with
  | step t => cases t <;> rfl
  | _ => rfl

theorem bears_bookkeeping : bookkeeping.Bears fun b xs => b.Books 0 xs where
  opened _ _ _ _ := ⟨rfl, rfl, rfl, rfl, rfl, rfl⟩
  act hs hb a := Action.books_run hs hb a
  leave hc hb := Machine.books_leave hc hb
  collect hc hb := Machine.books_collect hc hb
  tends ht hn hb := (level_tends ht hn).books hb

theorem Booked.run (h : w.Sound) (hx : w.Booked s xs) (ms : List Move) :
    (w.run ms).Booked s (xs ++ w.trace (postings s) ms) := by
  have hk : Diary.Kept (fun b xs => b.Books 0 xs) w s xs := ⟨hx.opened, hx.books⟩
  have hr := hk.run bears_bookkeeping h ms
  rw [notes_bookkeeping] at hr
  exact ⟨hr.opened, hr.holds⟩

end World

/-- How the counters of a bridge account for what it entered in its books.  A counter is a machine word,
so the sums are those of numbers as long as none of the counters concerned wrapped around. -/
structure Machine.Accounts (c : Machine) (xs : List Posting) : Prop where
  proxiesCreated : c.counters.proxiesCreated = .ofNat (xs.countP Posting.isMaking)
  cacheHits : c.counters.cacheHits = .ofNat (xs.countP Posting.isHit)
  releases : c.counters.releases = .ofNat (xs.count (.returned true))
  leaks : c.counters.leaks = .ofNat (xs.count (.returned false))
  promotions : c.counters.promotions =
    c.counters.demotions + .ofNat (c.cache.strong.size + xs.count .cut)
  /-- Whoever asks for a proxy is given one that was made before, or one that is made now. -/
  wraps : xs.countP Posting.isMaking < 2 ^ 64 → xs.countP Posting.isHit < 2 ^ 64 →
    c.counters.proxiesCreated.toNat + c.counters.cacheHits.toNat = xs.countP Posting.isWrap
  /-- The reference behind a proxy is kept or was given back, and so was every other one that was handed
  over. -/
  references : xs.countP Posting.isMaking < 2 ^ 64 → xs.count (.returned true) < 2 ^ 64 →
    xs.count (.returned false) < 2 ^ 64 →
    c.counters.releases.toNat + c.counters.leaks.toNat + c.cache.weak.size =
      c.counters.proxiesCreated.toNat + xs.count (.wrapped true true)
  /-- A proxy that became strong is strong, became weak again, or was dismissed while it was strong. -/
  switches : c.counters.demotions.toNat + c.cache.strong.size + xs.count .cut < 2 ^ 64 →
    c.counters.promotions.toNat =
      c.counters.demotions.toNat + c.cache.strong.size + xs.count .cut

theorem Bridge.Books.accounts {c : Machine} {xs : List Posting} (h : c.bridge.Books 0 xs) :
    c.Accounts xs := by
  have hn {n : Nat} {k : UInt64} (hk : k = .ofNat n) (hlt : n < 2 ^ 64) : k.toNat = n := by
    rw [hk]
    exact UInt64.toNat_ofNat_of_lt' hlt
  refine ⟨h.proxiesCreated, h.cacheHits, h.releases, h.leaks, h.switches, fun hm hh => ?_,
    fun hm hr hl => ?_, fun hs => ?_⟩
  · rw [Posting.countP_isWrap]
    exact congrArg₂ _ (hn h.proxiesCreated hm) (hn h.cacheHits hh)
  · have he := h.entries
    rw [Posting.countP_isReturn, Nat.add_zero] at he
    have hc : c.counters.proxiesCreated.toNat = _ := hn h.proxiesCreated hm
    have hr : c.counters.releases.toNat = _ := hn h.releases hr
    have hl : c.counters.leaks.toNat = _ := hn h.leaks hl
    rw [hc, hr, hl]
    exact he
  · have hp : c.counters.promotions = c.counters.demotions +
      .ofNat (c.cache.strong.size + xs.count .cut) := h.switches
    rw [hp, UInt64.toNat_add, UInt64.toNat_ofNat']
    omega

namespace World

variable {name : String} {c : Machine}

/-- In every state that a run leads to, the counters of an open bridge account for its proxies. -/
theorem metrics_run (ms : List Move) (hc : (run { } ms).session.machine? name = some c) :
    c.Accounts (trace { } (postings c.bridge.serial) ms) := by
  have hb := (booked_empty c.bridge.serial).run sound_empty ms
  obtain ⟨b, hn, rfl⟩ := Option.map_eq_some_iff.1 hc
  exact (hb.books name b hn rfl).accounts

/-- Proxies are made and found, one reference leaks, one proxy is dismissed while it is strong, and one
that became weak is collected. -/
def bustle : List Move :=
  [.step (.host (.addFundamental "Plain" none)),
   .step (.host (.create { value := 1 } .object false)),
   .step (.host (.create { value := 2 } .object true)),
   .step (.host (.create { value := 3 } ⟨1⟩ false)),
   .step (.open "b" .standard .environment false),
   .enter "b",
   .act "b" (.wrap (some { value := 1 }) false (some "x")),
   .act "b" (.wrap (some { value := 2 }) false none),
   .act "b" (.wrap (some { value := 3 }) true (some "z")),
   .act "b" (.wrap (some { value := 3 }) false none),
   .act "b" (.host (.take { value := 1 } 1 false)),
   .act "b" (.wrap (some { value := 1 }) true none),
   .act "b" (.dismiss (.var "x")),
   .act "b" (.dismiss (.var "z")),
   .act "b" (.dismiss (.var "z")),
   .act "b" (.wrap (some { value := 1 }) false none),
   .leave "b",
   .step (.collect "b")]

theorem metrics_run_bustle :
    ∃ c, (run { } bustle).session.machine? "b" = some c ∧ c.cache.weak.size = 1 ∧
      c.cache.strong.size = 1 ∧ (trace { } (postings 0) bustle).countP Posting.isWrap = 6 ∧
      c.counters.proxiesCreated.toNat + c.counters.cacheHits.toNat = 6 ∧
      c.counters.releases.toNat + c.counters.leaks.toNat + c.cache.weak.size =
        c.counters.proxiesCreated.toNat + 1 ∧
      c.counters.promotions.toNat = c.counters.demotions.toNat + c.cache.strong.size + 1 := by
  let c := ((run { } bustle).session.machine? "b").get (by decide +kernel)
  have hc : (run { } bustle).session.machine? "b" = some c := (Option.some_get _).symm
  have hs : c.bridge.serial = 0 := by decide +kernel
  have ha := metrics_run bustle hc
  rw [hs] at ha
  have hw : (trace { } (postings 0) bustle).countP Posting.isWrap = 6 := by decide +kernel
  have hh : (trace { } (postings 0) bustle).count (.wrapped true true) = 1 := by decide +kernel
  have hk : (trace { } (postings 0) bustle).count .cut = 1 := by decide +kernel
  refine ⟨c, hc, by decide +kernel, by decide +kernel, hw, ?_, ?_, ?_⟩
  · rw [← hw]
    exact ha.wraps (by decide +kernel) (by decide +kernel)
  · rw [← hh]
    exact ha.references (by decide +kernel) (by decide +kernel) (by decide +kernel)
  · rw [← hk]
    exact ha.switches (by decide +kernel)

end World

end NativeProxies
