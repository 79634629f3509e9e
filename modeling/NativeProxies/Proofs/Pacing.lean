import NativeProxies.Proofs.Metrics
import NativeProxies.Proofs.Toggle

/-!
# Automatic collections

A bridge counts the proxies that it makes, and starts anew with every collection.  When it is left and
has made as many as its threshold says, it collects on its own.  `World.pace` notes of a bridge each
proxy that it makes and each collection, and `Bridge.Paced` says how the bridge agrees with these
notes.  Every automatic collection is paid for by as many proxies as the threshold says, none of which
pays for another (`World.paced_run`).
-/

namespace NativeProxies

/-- What has to do with the pace of a bridge. -/
inductive Tick
  /-- A proxy is made. -/
  | made
  /-- There is a collection, on demand or automatically. -/
  | collected (onDemand : Bool)
deriving DecidableEq, Repr

namespace Tick

def isCollection : Tick → Bool
  | collected _ => true
  | made => false

/-- How many proxies were made since the last collection. -/
def sinceLast (es : List Tick) : Nat :=
  es.foldl (fun n e => if e.isCollection then 0 else n + 1) 0

theorem sinceLast_append_made (es : List Tick) (n : Nat) :
    sinceLast (es ++ List.replicate n made) = sinceLast es + n := by
  induction n with
  | zero => rw [List.replicate_zero, List.append_nil, Nat.add_zero]
  | succ n ih =>
    rw [List.replicate_succ', ← List.append_assoc, sinceLast, List.foldl_append, ← sinceLast, ih]
    rfl

theorem sinceLast_append_collected (es : List Tick) (onDemand : Bool) :
    sinceLast (es ++ [collected onDemand]) = 0 := by
  rw [sinceLast, List.foldl_append]
  rfl

theorem count_made_append_collected (es : List Tick) (onDemand : Bool) :
    (es ++ [collected onDemand]).count made = es.count made := by
  rw [List.count_append, List.count_singleton, if_neg (by simp), Nat.add_zero]

theorem countP_isCollection (es : List Tick) :
    es.countP isCollection = es.count (collected false) + es.count (collected true) := by
  induction es with
  | nil => rfl
  | cons e es ih =>
    simp only [List.countP_cons, List.count_cons, ih]
    cases e with
    | made => simp [isCollection]
    | collected onDemand => cases onDemand <;> simp [isCollection] <;> omega

end Tick

/-! ## What a bridge makes -/

namespace Machine

variable {c c' c₁ : Machine} {m n : Nat}

/-- A bridge goes on and makes `n` proxies, without a collection. -/
structure Makes (n : Nat) (c c' : Machine) : Prop where
  settings : c'.bridge.settings = c.bridge.settings
  created : c'.bridge.created = c.bridge.created + n
  proxiesCreated : c'.bridge.counters.proxiesCreated = c.bridge.counters.proxiesCreated + .ofNat n
  collections : c'.bridge.counters.collections = c.bridge.counters.collections

theorem Makes.refl (c : Machine) : Makes 0 c c := ⟨rfl, rfl, (UInt64.add_zero _).symm, rfl⟩

theorem Makes.trans (h₁ : Makes m c c₁) (h₂ : Makes n c₁ c') : Makes (m + n) c c' where
  settings := h₂.settings.trans h₁.settings
  created := by rw [h₂.created, h₁.created, Nat.add_assoc]
  proxiesCreated := by
    rw [h₂.proxiesCreated, h₁.proxiesCreated, UInt64.ofNat_add, UInt64.add_assoc]
  collections := h₂.collections.trans h₁.collections

/-- What is done before and makes nothing. -/
theorem Makes.after (h₂ : Makes n c₁ c') (h₁ : Makes 0 c c₁) : Makes n c c' :=
  Nat.zero_add n ▸ h₁.trans h₂

/-- A bridge with other memory, catalog or other counters. -/
theorem makes_zero (hs : c'.bridge.settings = c.bridge.settings)
    (hc : c'.bridge.created = c.bridge.created)
    (hp : c'.bridge.counters.proxiesCreated = c.bridge.counters.proxiesCreated)
    (hk : c'.bridge.counters.collections = c.bridge.counters.collections) : Makes 0 c c' :=
  ⟨hs, hc, hp.trans (UInt64.add_zero _).symm, hk⟩

theorem makes_setMemory (c : Machine) (m : Memory) : Makes 0 c (c.setMemory m) :=
  makes_zero rfl rfl rfl rfl

theorem makes_call (c : Machine) (route : Route) (a : Address) : Makes 0 c (c.call route a) :=
  makes_zero rfl rfl rfl rfl

theorem makes_countCreated (c : Machine) : Makes 1 c c.countCreated := ⟨rfl, rfl, rfl, rfl⟩

theorem Quiet.makes (h : c.Quiet c') : Makes 0 c c' :=
  makes_zero h.settings h.created (congrArg _ h.counters) (congrArg _ h.counters)

theorem makes_applyNotification (c : Machine) (x : Notification) :
    Makes 0 c (c.applyNotification x) := by
  rw [applyNotification]
  cases (c.cache.applyNotification c.heap x).2 with
  | none => exact makes_setMemory c _
  | some k => cases k <;> exact makes_zero rfl rfl rfl rfl

theorem makes_catchUp (c : Machine) : Makes 0 c c.catchUp :=
  List.foldlRecOn (motive := Makes 0 c) _ _ (makes_zero rfl rfl rfl rfl) fun c' h x _ =>
    (makes_applyNotification c' x).after h

theorem makes_giveBack (c : Machine) (a : Address) (g : Option Generation) :
    Makes 0 c (c.giveBack a g) := by
  obtain ⟨k, hk⟩ := c.bridge_giveBack a g
  cases hr : (c.giveBackRoute (c.host.typeOf a) g).2.isSome <;> rw [hr] at hk <;>
    exact makes_zero (by rw [hk]) (by rw [hk]) (by rw [hk]; rfl) (by rw [hk]; rfl)

theorem makes_giveBackAll (c : Machine) (items : List (Address × CachedProxy)) :
    Makes 0 c (c.giveBackAll items) :=
  List.foldlRecOn (motive := Makes 0 c) _ _ (.refl c) fun c' h item _ =>
    (makes_giveBack c' item.1 item.2.toggle).after h

theorem makes_swept (c : Machine) : Makes 0 c c.swept :=
  (makes_setMemory c.releaseDead _).after
    ((makes_giveBackAll _ c.memory.evict.2).after (makes_setMemory c c.memory.evict.1))

theorem makes_claim (c : Machine) (a : Address) : Makes 0 c (c.claim a).1 := by
  obtain ⟨c₁, hr, he⟩ := c.claim_eq a
  rw [he]
  split
  · exact (makes_call c₁ _ a).after hr.quiet.makes
  · exact hr.quiet.makes

theorem makes_own (c : Machine) (a : Address) (g : Option Generation) (handedOver : Bool) :
    Makes 0 c (c.own a g handedOver) := by
  have hr : Makes 0 c (if handedOver then (c, true) else c.claim a).1 := by
    cases handedOver
    · exact makes_claim c a
    · exact .refl c
  rw [own]
  cases g with
  | none => exact hr
  | some g =>
    refine Makes.after ?_ hr
    generalize (if handedOver then (c, true) else c.claim a) = r
    have hn := (makes_applyNotification _ ⟨a, g, false⟩).after
      (makes_call r.1 (.method (.watch (.bridge r.1.bridge.serial g))) a)
    rw [Option.elim_some, startWatching]
    split_ifs
    · exact (makes_call _ _ a).after hn
    · exact hn

theorem makes_dismiss (c : Machine) (v : Value) : Makes 0 c (c.dismiss v).1 := by
  cases hv : c.heap.heldProxy? v with
  | none =>
    rw [dismiss_of_none hv]
    exact .refl c
  | some found =>
    obtain ⟨p, r⟩ := found
    have hf : Makes 0 c (c.forgotten p r.object) :=
      (makes_setMemory c.catchUp _).after (makes_catchUp c)
    rw [dismiss_of_some hv]
    exact (makes_giveBack _ _ _).after hf

theorem makes_entered (c : Machine) (a : Address) : Makes 0 c (c.entered a) := by
  have hb := bridge_registerProxy c a
  have hr : Makes 0 c (c.registerProxy a).1 :=
    makes_zero (by rw [hb]) (by rw [hb]) (by rw [hb]) (by rw [hb])
  exact (makes_setMemory (c.registerProxy a).1 _).after hr

theorem makes_wrap (h : c.memory.Sound) (a : Address) (handedOver : Bool) :
    Makes ((c.wrapping a handedOver).countP Posting.isMaking) c (c.wrap a handedOver).1 := by
  rcases proxyOf?_or h a with ⟨p, hp⟩ | ha
  · have hk : Makes 0 c (c.bump .cacheHits) := makes_zero rfl rfl rfl rfl
    rw [wrap_of_some hp, wrapping, hp]
    cases handedOver with
    | false => exact hk
    | true => exact (makes_giveBack _ _ _).after hk
  · have hp : c.proxyOf? a = none := h.proxyOf?_eq_none_iff.2 ha
    have ho := (makes_own (c.entered a) a (c.registerProxy a).2 handedOver).after (makes_entered c a)
    rw [wrap_of_none h ha, wrapping, hp]
    exact (makes_countCreated _).after ho

end Machine

theorem Action.makes_run {s : Scope} (h : s.Sound) (a : Action) :
    Machine.Makes ((a.postings s).countP Posting.isMaking) s.machine (a.run s).1.machine := by
  rcases postings_cases h a with ⟨b, handedOver, hp, hm⟩ | ⟨s', v, hq, hp, hm⟩ | ⟨hp, hm⟩
  · rw [hp, hm]
    exact Machine.makes_wrap h.machine.memory b handedOver
  · have hz : (s'.machine.dismissing v).countP Posting.isMaking = 0 := by
      rw [List.countP_eq_zero]
      simp only [Machine.dismissing, Machine.returns, List.mem_append, List.mem_map]
      rintro x (⟨-, -, rfl⟩ | ⟨-, -, rfl⟩) <;> simp [Posting.isMaking]
    rw [hp, hm, hz]
    exact (Machine.makes_dismiss s'.machine v).after hq.machine.makes
  · rw [hp]
    rcases hm with hq | ⟨n, hm⟩ | hm | hm
    · exact hq.makes
    · rw [hm]
      exact Machine.makes_applyNotification s.machine n
    · rw [hm]
      exact Machine.makes_catchUp s.machine
    · exact Machine.makes_zero (by rw [hm]) (by rw [hm]) (by rw [hm]) (by rw [hm])

/-! ## The pace of a bridge -/

/-- How a bridge agrees with what was noted of it. -/
structure Bridge.Paced (b : Bridge) (es : List Tick) : Prop where
  created : b.created = Tick.sinceLast es
  proxiesCreated : b.counters.proxiesCreated = .ofNat (es.count .made)
  collections : b.counters.collections = .ofNat (es.countP Tick.isCollection)
  /-- The proxies made before an automatic collection, and since the one before, pay for it. -/
  paid : ∀ t, b.settings.threshold = some t →
    t * es.count (.collected false) + Tick.sinceLast es ≤ es.count .made
  never : b.settings.threshold = none → es.count (.collected false) = 0

namespace Machine

variable {c c' : Machine} {es : List Tick} {n : Nat}

theorem Makes.paced (h : Makes n c c') (hp : c.bridge.Paced es) :
    c'.bridge.Paced (es ++ List.replicate n .made) where
  created := by rw [h.created, hp.created, Tick.sinceLast_append_made]
  proxiesCreated := by
    rw [h.proxiesCreated, hp.proxiesCreated, List.count_append, List.count_replicate_self,
      UInt64.ofNat_add]
  collections := by
    rw [h.collections, hp.collections, List.countP_append, List.countP_replicate]
    rfl
  paid t ht := by
    have hpaid := hp.paid t (h.settings ▸ ht)
    rw [Tick.sinceLast_append_made, List.count_append, List.count_append,
      List.count_replicate_self, List.count_replicate, if_neg (by decide), Nat.add_zero]
    omega
  never ht := by
    rw [List.count_append, hp.never (h.settings ▸ ht), List.count_replicate, if_neg (by decide)]

/-- A bridge goes on and makes nothing. -/
theorem Makes.paced_zero (h : Makes 0 c c') (hp : c.bridge.Paced es) : c'.bridge.Paced es := by
  simpa using h.paced hp

theorem Makes.isDue (h : Makes 0 c c') : c'.isDue = c.isDue := by
  rw [Machine.isDue, Machine.isDue, h.settings, h.created, Nat.add_zero]

theorem isDue_iff (hp : c.bridge.Paced es) :
    c.isDue = c.bridge.settings.threshold.any fun t => t ≤ Tick.sinceLast es := by
  rw [isDue, hp.created]

/-- A collection that is due is paid for. -/
theorem paced_countCollection (hp : c.bridge.Paced es) (onDemand : Bool)
    (hd : onDemand = false → c.isDue) :
    c.countCollection.bridge.Paced (es ++ [.collected onDemand]) where
  created := (Tick.sinceLast_append_collected es onDemand).symm
  proxiesCreated := by
    rw [Tick.count_made_append_collected]
    exact hp.proxiesCreated
  collections := by
    rw [List.countP_append, UInt64.ofNat_add, ← hp.collections]
    rfl
  paid t ht := by
    have hpaid := hp.paid t ht
    rw [Tick.sinceLast_append_collected, Tick.count_made_append_collected, List.count_append,
      List.count_singleton, Nat.add_zero]
    cases onDemand with
    | true =>
      rw [if_neg (by decide), Nat.add_zero]
      omega
    | false =>
      have hle : t ≤ Tick.sinceLast es := by
        have hdue := (isDue_iff hp).symm.trans (hd rfl)
        have ht' : c.bridge.settings.threshold = some t := ht
        simpa [ht'] using hdue
      rw [if_pos (by decide), Nat.mul_succ]
      omega
  never ht := by
    have ht' : c.bridge.settings.threshold = none := ht
    rw [List.count_append, hp.never ht', List.count_singleton, if_neg]
    intro hc
    have hdue := hd (by simpa using hc)
    simp [isDue, ht'] at hdue

theorem paced_collect (hp : c.bridge.Paced es) (onDemand : Bool)
    (hd : onDemand = false → c.isDue) : c.collect.bridge.Paced (es ++ [.collected onDemand]) := by
  have hs : Makes 0 c c.catchUp.swept := (makes_swept c.catchUp).after (makes_catchUp c)
  have hk := paced_countCollection (hs.paced_zero hp) onDemand fun ho => hs.isDue.trans (hd ho)
  exact (makes_catchUp _).paced_zero hk

theorem collections_collect (c : Machine) :
    c.collect.bridge.counters.collections = c.bridge.counters.collections + 1 := by
  have hs : Makes 0 c c.catchUp.swept := (makes_swept c.catchUp).after (makes_catchUp c)
  rw [collect_eq, (makes_catchUp _).collections, ← hs.collections]
  rfl

theorem leave_of_isDue (hd : c.isDue) : c.leave = c.collect := by
  rw [leave_eq_ite, (makes_catchUp c).isDue, if_pos hd]

theorem leave_of_not_isDue (hd : c.isDue = false) : c.leave = c.catchUp := by
  rw [leave_eq_ite, (makes_catchUp c).isDue, hd]
  rfl

/-- Whether a bridge collects when it is left, as its counter says. -/
def collectsOnLeave (c : Machine) : Bool :=
  c.leave.bridge.counters.collections != c.bridge.counters.collections

/-- A bridge collects when it is left if that is due, and only then. -/
theorem collectsOnLeave_eq (c : Machine) : c.collectsOnLeave = c.isDue := by
  rw [collectsOnLeave]
  cases hd : c.isDue with
  | true =>
    rw [leave_of_isDue hd, collections_collect]
    simp
  | false =>
    rw [leave_of_not_isDue hd, (makes_catchUp c).collections]
    simp

end Machine

namespace World

variable {w : World} {name : String} {c : Machine}

/-- The proxies that a bridge makes, and its collections. -/
def pace : Diary Tick where
  act s a := .replicate ((a.postings s).countP Posting.isMaking) .made
  leave c := if c.collectsOnLeave then [.collected false] else []
  collect _ := [.collected true]

theorem notes_leave (c : Machine) : pace.leave c = if c.isDue then [.collected false] else [] := by
  rw [← Machine.collectsOnLeave_eq]
  rfl

theorem makes_tends {c c' : Machine} {t : Step} (ht : Tends c t c') (hn : ∀ name, t ≠ .collect name) :
    Machine.Makes 0 c c' := by
  cases ht with
  | catchUp name => exact Machine.makes_catchUp c
  | collect name => exact absurd rfl (hn name)
  | unstash name stash => exact Machine.makes_setMemory c _
  | register name d => exact Machine.makes_zero rfl rfl rfl rfl
  | catalog name q => exact (Machine.recalls_catalogStep c q).quiet.makes

theorem bears_pace : pace.Bears Bridge.Paced where
  opened _ _ _ _ := ⟨rfl, rfl, rfl, fun _ _ => by simp [Tick.sinceLast], fun _ => rfl⟩
  act hs hp a := (Action.makes_run hs a).paced hp
  leave {c xs} _ hp := by
    cases hd : c.isDue with
    | true =>
      rw [notes_leave, hd, Machine.leave_of_isDue hd]
      exact Machine.paced_collect hp false fun _ => hd
    | false =>
      rw [notes_leave, hd, Machine.leave_of_not_isDue hd]
      simpa using (Machine.makes_catchUp c).paced_zero hp
  collect _ hp := Machine.paced_collect hp true (by simp)
  tends ht hn hp := (makes_tends ht hn).paced_zero hp

/-- Leaving a bridge that agrees with what was noted of it. -/
theorem next_leave_of_paced {es : List Tick} (hp : c.bridge.Paced es)
    (hc : w.session.machine? name = some c) (hv : w.visits.contains name) :
    let due := c.bridge.settings.threshold.any fun t => t ≤ Tick.sinceLast es
    (w.next (.leave name)).session.machine? name = some (if due then c.collect else c.catchUp) ∧
      pace.notes c.bridge.serial w (.leave name) = if due then [.collected false] else [] := by
  intro due
  obtain ⟨vars, hs⟩ := scope?_eq hv
  rw [hc, Option.map_some] at hs
  have hd : c.isDue = due := Machine.isDue_iff hp
  refine ⟨?_, ?_⟩
  · have hl : c.leave = if due then c.collect else c.catchUp := by
      rw [Machine.leave_eq_ite, (Machine.makes_catchUp c).isDue, hd]
    rw [next_leave hs, ← hl]
    exact Session.machine?_put _ _ _
  · have he : pace.noted? w (.leave name) = some (c, pace.leave c) := by
      rw [Diary.noted?, hs]
      rfl
    rw [Diary.notes_of_noted?_eq_some he, if_pos rfl, notes_leave, hd]

/-- In every state that a run leads to, an open bridge agrees with what was noted of it, so that its
threshold times its automatic collections is at most the number of its proxies.  It collects
automatically exactly when it is left and has made as many proxies since the last collection as its
threshold says, after which it has made fewer.  Without a threshold it never does.  Whenever it has been
entered, left, collected or told to catch up, no notification waits for it. -/
theorem paced_run (ms : List Move) (hc : (run { } ms).session.machine? name = some c) :
    let w := run { } ms
    let es := trace { } (pace.notes c.bridge.serial) ms
    c.bridge.Paced es ∧
    (∀ t, c.bridge.settings.threshold = some t → es.count .made < 2 ^ 64 →
      es.countP Tick.isCollection < 2 ^ 64 →
        t * (c.counters.collections.toNat - es.count (.collected true)) ≤
          c.counters.proxiesCreated.toNat) ∧
    (w.visits.contains name →
      let due := c.bridge.settings.threshold.any fun t => t ≤ Tick.sinceLast es
      (w.next (.leave name)).session.machine? name = some (if due then c.collect else c.catchUp) ∧
      pace.notes c.bridge.serial w (.leave name) = (if due then [.collected false] else []) ∧
      ∀ t, c.bridge.settings.threshold = some t → 0 < t →
        Tick.sinceLast (es ++ pace.notes c.bridge.serial w (.leave name)) < t) ∧
    ∀ (m : Move) (c' : Machine), w.Drains name m → (w.next m).session.machine? name = some c' →
      c'.mailbox.pending = #[] := by
  intro w es
  have hp : c.bridge.Paced es := bears_pace.run ms hc
  refine ⟨hp, fun t ht hm hk => ?_, fun hv => ?_, fun m c' hd hc' => pending_next hd hc'⟩
  · have hk' : c.counters.collections.toNat = es.countP Tick.isCollection := by
      rw [show c.counters.collections = .ofNat _ from hp.collections]
      exact UInt64.toNat_ofNat_of_lt' hk
    have hm' : c.counters.proxiesCreated.toNat = es.count .made := by
      rw [show c.counters.proxiesCreated = .ofNat _ from hp.proxiesCreated]
      exact UInt64.toNat_ofNat_of_lt' hm
    rw [hk', hm', Tick.countP_isCollection, Nat.add_sub_cancel]
    exact (Nat.le_add_right _ _).trans (hp.paid t ht)
  · obtain ⟨hnext, hnotes⟩ := next_leave_of_paced hp hc hv
    refine ⟨hnext, hnotes, fun t ht hpos => ?_⟩
    rw [hnotes, ht, Option.any_some]
    by_cases hle : t ≤ Tick.sinceLast es
    · rw [if_pos (decide_eq_true hle), Tick.sinceLast_append_collected]
      exact hpos
    · rw [if_neg (by simpa using hle), List.append_nil]
      exact Nat.lt_of_not_le hle

/-- A bridge that collects automatically once, is collected on demand, and is due again. -/
def hurried : List Move :=
  [.step (.host (.create { value := 1 } .object false)),
   .step (.host (.create { value := 2 } .object false)),
   .step (.host (.create { value := 3 } .object false)),
   .step (.open "b" { threshold := some 2 } .environment false),
   .enter "b",
   .act "b" (.wrap (some { value := 1 }) false none),
   .act "b" (.wrap (some { value := 2 }) false none),
   .act "b" (.wrap (some { value := 3 }) false (some "x")),
   .leave "b",
   .step (.collect "b"),
   .enter "b",
   .act "b" (.dismiss (.cached { value := 1 })),
   .act "b" (.dismiss (.cached { value := 2 })),
   .act "b" (.wrap (some { value := 1 }) false none),
   .act "b" (.wrap (some { value := 2 }) true none)]

theorem paced_run_hurried :
    ∃ c, (run { } hurried).session.machine? "b" = some c ∧
      (trace { } (pace.notes 0) hurried).count .made = 5 ∧
      (trace { } (pace.notes 0) hurried).count (.collected false) = 1 ∧
      2 * (c.counters.collections.toNat - 1) ≤ c.counters.proxiesCreated.toNat ∧
      ((run { } hurried).next (.leave "b")).session.machine? "b" = some c.collect ∧
      c.collect.mailbox.pending = #[] := by
  let c := ((run { } hurried).session.machine? "b").get (by decide +kernel)
  have hc : (run { } hurried).session.machine? "b" = some c := (Option.some_get _).symm
  have hs : c.bridge.serial = 0 := by decide +kernel
  have ht : c.bridge.settings.threshold = some 2 := by decide +kernel
  have hv : (run { } hurried).visits.contains "b" := by decide +kernel
  obtain ⟨-, hpaid, hleave, hpending⟩ := paced_run hurried hc
  rw [hs] at hpaid hleave
  have hone : (trace { } (pace.notes 0) hurried).count (.collected true) = 1 := by decide +kernel
  have hdue : (c.bridge.settings.threshold.any fun t =>
      t ≤ Tick.sinceLast (trace { } (pace.notes 0) hurried)) = true := by decide +kernel
  have hp := hpaid 2 ht (by decide +kernel) (by decide +kernel)
  have hl := (hleave hv).1
  rw [hone] at hp
  rw [hdue] at hl
  exact ⟨c, hc, by decide +kernel, by decide +kernel, hp, hl, hpending _ _ (.leave hv) hl⟩

end World

end NativeProxies
