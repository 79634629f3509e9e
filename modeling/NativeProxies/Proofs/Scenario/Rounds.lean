import Mathlib.Algebra.Group.Nat.Defs
import Mathlib.Tactic.Common
import NativeProxies.Proofs.Scenario.Holders
import NativeProxies.Proofs.Scenario.Numbers

/-!
# The demonstration goes well

Between two rounds no object exists and the counters are known (`Scenario.Resting`).  A round leaves the
bridge like this again, with everything counted once for each of its objects (`Resting.round`), whatever
the threshold of the bridge is, however the workers share the objects and in whatever order they run, and
also if the objects are where those of an earlier round were.  So every run succeeds, and its report is
known beforehand (`Scenario.succeeds_run`).
-/

namespace NativeProxies

theorem Counters.countCollection_zero (m : Counters) :
    m.countCollection 0 0 = { m with collections := m.collections + 1 } := by
  simp [countCollection]

namespace Scenario

variable {c c' d : Machine} {s : Settings} {xs : List Address} {m k n workers : Nat}

/-! ## Held objects -/

/-- All objects are wrapped and held from outside, and their proxies keep their numbers. -/
structure Retained (s : Settings) (xs : List Address) (c : Machine) : Prop where
  staged : c.Staged s
  nodup : xs.Nodup
  wrapped : ∀ a ∈ xs, ∃ g, c.standing a = .wrapped c.bridge.serial g 2 true
  numbered : ∀ x ∈ xs.zipIdx, c.Keeps x.1 x.2
  gone : ∀ a ∉ xs, c.standing a = .gone
  typeOf : ∀ a ∈ xs, c.host.typeOf a = widget

namespace Retained

variable (h : Retained s xs c)
include h

theorem idle (a : Address) : (c.standing a).waiting = [] := by
  by_cases ha : a ∈ xs
  · obtain ⟨g, hg⟩ := h.wrapped a ha
    rw [hg]
    rfl
  · rw [h.gone a ha]
    rfl

theorem catchUp : c.catchUp = c := h.staged.sound.catchUp_of_idle h.idle

theorem isStrong {a : Address} {e : CachedProxy} (he : c.cache.weak[a]? = some e) :
    c.cache.isStrong a := by
  have hh : (c.standing a).entry = some ⟨c.bridge.serial, e.toggle, c.cache.isStrong a⟩ :=
    Option.map_eq_some_iff.2 ⟨e, he, rfl⟩
  by_cases ha : a ∈ xs
  · obtain ⟨g, hg⟩ := h.wrapped a ha
    rw [hg] at hh
    exact (congrArg Holding.strong (Option.some.inj hh)).symm
  · rw [h.gone a ha] at hh
    simp [Standing.gone] at hh

/-- While the objects are held a collection takes nothing away. -/
theorem collect : Retained s xs c.collect ∧ c.collect.bridge.created = 0 ∧
    c.collect.counters = { c.counters with collections := c.counters.collections + 1 } := by
  obtain ⟨hst, hkeep, hcnt, hcr⟩ :=
    Machine.collect_of_strong h.staged.sound (fun a e he => h.isStrong he) h.idle
  have hk := Machine.alike_collect h.staged.sound
  refine ⟨⟨h.staged.collect, h.nodup, fun a ha => ?_, fun x hx => hkeep _ _ (h.numbered x hx),
    fun a ha => (hst a).trans (h.gone a ha), fun a ha => (hk.typeOf a).trans (h.typeOf a ha)⟩, hcr,
    hcnt.trans (Counters.countCollection_zero _)⟩
  rw [hst, hk.serial]
  exact h.wrapped a ha

/-- Leaving the runtime counts a collection if enough proxies were made. -/
theorem leave : Retained s xs c.leave ∧
    c.leave.counters =
      { c.counters with
        collections := c.counters.collections + .ofNat
          (if s.threshold.any fun t => t ≤ c.bridge.created then 1 else 0) } := by
  have hd : c.isDue = s.threshold.any fun t => t ≤ c.bridge.created := by
    rw [Machine.isDue, h.staged.settings]
  rw [Machine.leave, h.catchUp, ← hd]
  cases c.isDue with
  | true => exact ⟨h.collect.1, h.collect.2.2⟩
  | false => exact ⟨h, by simp⟩

theorem recalls (hr : c.Recalls c') : Retained s xs c' := by
  refine ⟨staged_recalls h.staged hr, h.nodup, fun a ha => ?_,
    fun x hx => keeps_recalls hr (h.numbered x hx),
    fun a ha => (standing_recalls hr a).trans (h.gone a ha),
    fun a ha => (hr.alike.typeOf a).trans (h.typeOf a ha)⟩
  rw [standing_recalls hr, hr.alike.serial]
  exact h.wrapped a ha

theorem countRetained : ∃ c', c.Recalls c' ∧ Scenario.countRetained c 0 xs = (c', xs.length) :=
  countRetained_spec h.staged h.typeOf
    (fun a ha => (h.wrapped a ha).imp fun _ hg => ⟨2, hg⟩) h.numbered

/-- After the workers let go nothing is left. -/
theorem conclude (hr : Holds c xs workers .drop d) (retained : Nat) (failed : Bool) :
    (Scenario.conclude d xs retained failed).2 = ⟨xs.length, retained, 0, failed⟩ ∧
      d.collect.Staged s ∧ (∀ a, d.collect.standing a = .gone) ∧ d.collect.bridge.created = 0 ∧
      d.collect.counters =
        { c.counters with
          demotions := c.counters.demotions + .ofNat xs.length
          releases := c.counters.releases + .ofNat xs.length
          foreignToggles := c.counters.foreignToggles + .ofNat xs.length
          collections := c.counters.collections + 1 } := by
  obtain ⟨g, hg⟩ : ∃ g : Address → Generation,
      ∀ a ∈ xs, c.standing a = .wrapped c.bridge.serial (g a) 2 true := by
    choose! g hg using h.wrapped
    exact ⟨g, hg⟩
  obtain ⟨hs, ⟨ys, hp, ha⟩, hcnt⟩ := abandoned h.staged h.nodup hg h.gone h.typeOf hr
  obtain ⟨hgone, hcnt', hcr⟩ := ha.collect hs
  have hz : (xs.countP fun a => d.collect.host.isAlive a) = 0 := by
    refine List.countP_eq_zero.2 fun a _ => ?_
    rw [Host.isAlive, Machine.counts?_of_standing (hgone a)]
    simp [Standing.gone]
  refine ⟨?_, hs.collect, hgone, hcr, ?_⟩
  · rw [Scenario.conclude]
    dsimp only
    rw [hz]
  · rw [hcnt', hcnt, hp.length_eq, Counters.countCollection_zero]

end Retained

/-! ## Rounds -/

/-- What the script does by what its two passes over the objects come to. -/
theorem inspectHeld_eq {c c₁ c₂ : Machine} {xs : List Address} {n : Nat} {failed : Bool}
    (h₁ : numberAll c.enter 0 xs = (c₁, failed))
    (h₂ : Scenario.countRetained c₁.leave.collect.enter 0 xs = (c₂, n)) :
    inspectHeld c xs = (c₂.leave, n, failed) := by
  rw [inspectHeld, h₁]
  dsimp only
  rw [h₂]

/-- What is counted when `made` proxies were made and are gone again. -/
def tally (made collections : Nat) : Counters where
  proxiesCreated := .ofNat made
  promotions := .ofNat made
  demotions := .ofNat made
  releases := .ofNat made
  foreignToggles := .ofNat made
  collections := .ofNat collections

/-- How many collections there are in a round with `n` objects. -/
def collectionsInRound (threshold : Option Nat) (n : Nat) : Nat :=
  2 + (if threshold.any fun t => t ≤ n then 1 else 0) + if threshold.any fun t => t ≤ 0 then 1 else 0

/-- Between two rounds. -/
structure Resting (s : Settings) (made collections : Nat) (c : Machine) : Prop where
  staged : c.Staged s
  gone : ∀ a, c.standing a = .gone
  created : c.bridge.created = 0
  counters : c.counters = tally made collections

namespace Resting

variable (h : Resting s m k c)
include h

/-- All objects are wrapped and numbered. -/
theorem number (hd : xs.Nodup) (ht : Holds (makeAll c xs) xs workers .take d) :
    ∃ c', numberAll d.enter 0 xs = (c', false) ∧
      Retained s xs c' ∧ c'.bridge.created = xs.length ∧
      c'.counters =
        { tally m k with
          proxiesCreated := .ofNat (m + xs.length)
          promotions := .ofNat (m + xs.length) } := by
  obtain ⟨hh, hb, hc⟩ := held h.staged h.gone hd ht
  have hi : d.enter = d := hh.staged.sound.catchUp_of_idle fun a => by
    rw [hh.standing]
    split_ifs <;> rfl
  have hx : ∀ a ∈ xs, d.standing a = .unknown 2 := fun a ha => (hh.standing a).trans (if_pos ha)
  obtain ⟨hok, hn⟩ := numberAll_spec hh.staged hd hx hh.typeOf 0
  rw [hi]
  refine ⟨_, Prod.ext rfl hok, ⟨hn.staged, hd, fun a ha => ?_, hn.numbered, fun a ha => ?_,
    fun a ha => (hn.alike.typeOf a).trans (hh.typeOf a ha)⟩, ?_, ?_⟩
  · rw [hn.alike.serial]
    exact hn.wrapped a ha
  · exact (hn.others a ha).1.trans ((hh.standing a).trans (if_neg ha))
  · rw [hn.created, hb, h.created, Nat.zero_add]
  · rw [hn.counters, hc, h.counters, UInt64.ofNat_add]
    rfl

/-- All objects are retained while they are held. -/
theorem inspectHeld (hd : xs.Nodup) (ht : Holds (makeAll c xs) xs workers .take d) :
    ∃ c', Scenario.inspectHeld d xs = (c', xs.length, false) ∧ Retained s xs c' ∧
      c'.counters =
        { tally m k with
          proxiesCreated := .ofNat (m + xs.length)
          promotions := .ofNat (m + xs.length)
          collections := .ofNat k + .ofNat (if s.threshold.any fun t => t ≤ xs.length then 1 else 0) + 1 +
            .ofNat (if s.threshold.any fun t => t ≤ 0 then 1 else 0) } := by
  obtain ⟨c₁, he₁, h₁, hcr₁, hcnt₁⟩ := h.number hd ht
  obtain ⟨h₂, hcnt₂⟩ := h₁.leave
  obtain ⟨h₃, hcr₃, hcnt₃⟩ := h₂.collect
  obtain ⟨c₄, hr₄, he₄⟩ := h₃.countRetained
  obtain ⟨h₅, hcnt₅⟩ := (h₃.recalls hr₄).leave
  have hi : c₁.leave.collect.enter = c₁.leave.collect := h₃.catchUp
  have hcnt₄ : c₄.counters = c₁.leave.collect.counters := hr₄.counters_eq
  have hcr₄ : c₄.bridge.created = 0 := hr₄.works.created.trans hcr₃
  refine ⟨c₄.leave, inspectHeld_eq he₁ (hi.symm ▸ he₄), h₅, ?_⟩
  rw [hcnt₅, hcnt₄, hcnt₃, hcnt₂, hcnt₁, hcr₄, hcr₁]
  rfl

/-- A round keeps what it should, and leaves nothing behind. -/
theorem round {r : Machine × Round} (hd : xs.Nodup) (hr : PlaysRound c workers xs r) :
    r.2 = ⟨xs.length, xs.length, 0, false⟩ ∧
      Resting s (m + xs.length) (k + collectionsInRound s.threshold xs.length) r.1 := by
  obtain ⟨taken, dropped, ht, hd', rfl⟩ := hr
  obtain ⟨c', he, hret, hcnt⟩ := h.inspectHeld hd ht
  rw [he] at hd' ⊢
  obtain ⟨hround, hs, hgone, hcr, hcnt'⟩ := hret.conclude hd' xs.length false
  refine ⟨hround, hs, hgone, hcr, hcnt'.trans ?_⟩
  rw [hcnt, tally, tally, collectionsInRound]
  have htwo : UInt64.ofNat 2 = 1 + 1 := rfl
  simp only [UInt64.ofNat_add, htwo, Counters.mk.injEq, true_and, and_true]
  generalize UInt64.ofNat (if s.threshold.any fun t => t ≤ xs.length then 1 else 0) = x
  generalize UInt64.ofNat (if s.threshold.any fun t => t ≤ 0 then 1 else 0) = y
  grind

end Resting

/-! ## The run -/

/-- How many collections a run makes. -/
def collections (threshold : Option Nat) (n rounds : Nat) : Nat :=
  2 * rounds + (if threshold.any fun t => 1 ≤ t ∧ t ≤ n then rounds else 0) +
    if threshold = some 0 then 2 * rounds else 0

theorem collections_eq (threshold : Option Nat) (n rounds : Nat) :
    collections threshold n rounds = collectionsInRound threshold n * rounds := by
  cases threshold with
  | none => simp [collections, collectionsInRound]
  | some t =>
    by_cases ht : t = 0
    · subst ht
      simp [collections, collectionsInRound]
      omega
    · by_cases hn : t ≤ n
      · simp [collections, collectionsInRound, ht, hn, Nat.one_le_iff_ne_zero]
        omega
      · simp [collections, collectionsInRound, ht, hn]

theorem mayGet_objects (hc : ∀ a, c.host.isAlive a = false) (made n : Nat) :
    MayGet c n (objects made n) where
  length := by simp [objects]
  nodup := by
    refine List.nodup_range.map fun i j hij => ?_
    have hv : made + i + 1 = made + j + 1 := congrArg Address.value hij
    omega
  free a _ := hc a

/-- Workers that run one after the other are one case. -/
theorem playsRound_round (c : Machine) (workers : Nat) (xs : List Address) :
    PlaysRound c workers xs (round c workers xs) :=
  ⟨_, _, holds_hold _ _ _ _, holds_hold _ _ _ _, rfl⟩

/-- Between two rounds no object is alive. -/
theorem Resting.isAlive (h : Resting s m k c) (a : Address) : c.host.isAlive a = false := by
  rw [Host.isAlive, Machine.counts?_of_standing (h.gone a)]
  rfl

/-- Closing the bridge finds nothing to do. -/
theorem Resting.finish (h : Resting s m k c) : finish c =
    { output := (tally m k).report ++ ["live native objects: 0"], success := true } := by
  have hw : c.catchUp.cache.weak.toList = [] := by
    refine List.eq_nil_iff_forall_not_mem.2 ?_
    rintro ⟨a, e⟩ he
    rw [Machine.weak_catchUp, Std.ExtTreeMap.mem_toList_iff_getElem?_eq_some] at he
    exact absurd ((Machine.weak_of_standing (congrArg Standing.entry (h.gone a))).symm.trans he) (by simp)
  have hh : c.close.host = c.host := by
    rw [Machine.host, Machine.outside_close h.staged.sound.memory, hw]
    exact c.host_catchUp
  have hz : c.host.aliveCount = 0 := by
    refine List.countP_eq_zero.2 ?_
    rintro ⟨a, x⟩ hx
    have hc := Machine.counts?_of_standing (h.gone a)
    rw [Std.ExtTreeMap.mem_toList_iff_getElem?_eq_some] at hx
    rw [Host.counts?, hx] at hc
    have hc' : x.counts = none := hc
    simp [hc']
  rw [Scenario.finish, hh, hz, h.counters]
  rfl

/-- The line for a round that goes well. -/
def goodLine (n number : Nat) : String :=
  "round " ++ toString number ++ ": wrapped " ++ toString n ++ ", retained " ++ toString n
    ++ " while held, 0 survived release"

theorem line_good (n number : Nat) : (⟨n, n, 0, false⟩ : Round).line number = goodLine n number := by
  have hz : " while held, " ++ toString 0 ++ " survived release" =
      " while held, 0 survived release" := rfl
  unfold Round.line goodLine
  rw [← hz, ← String.append_assoc, ← String.append_assoc]

theorem isConsistent_good (n : Nat) : (⟨n, n, 0, false⟩ : Round).isConsistent := by
  simp [Round.isConsistent]

/-- All rounds go well, whatever may come of them. -/
theorem Resting.plays {t : Transcript} {number count : Nat} (h : Resting s m k c)
    (hp : Plays n workers c number count t) :
    t =
      { output := (List.range' number count).map (goodLine n) ++
          (tally (m + n * count) (k + collectionsInRound s.threshold n * count)).report ++
          ["live native objects: 0"]
        success := true } := by
  induction hp generalizing m k with
  | finish => exact h.finish
  | @next c objects r number count t hobjects hround _ _ ih =>
    obtain ⟨hr, h'⟩ := h.round hobjects.nodup hround
    rw [hobjects.length] at hr h'
    have hsum (x y : Nat) : x + y * (count + 1) = x + y + y * count := by
      rw [Nat.mul_succ]
      omega
    rw [ih h', Transcript.after, hr, line_good, List.range'_succ, hsum, hsum]
    rfl
  | giveUp hobjects hround hr =>
    obtain ⟨hgood, -⟩ := h.round hobjects.nodup hround
    rw [hgood] at hr
    exact absurd (isConsistent_good _) hr

/-- The demonstration's own rounds are one case. -/
theorem Resting.plays_rounds (h : Resting s m k c) (n workers number count : Nat) :
    Plays n workers c number count (rounds c n workers number count) := by
  induction count generalizing c m k number with
  | zero => exact .finish
  | succ count ih =>
    have hobjects := mayGet_objects h.isAlive (number * n) n
    have hround := playsRound_round c workers (objects (number * n) n)
    obtain ⟨hgood, h'⟩ := h.round hobjects.nodup hround
    have hr : (Scenario.round c workers (objects (number * n) n)).2.isConsistent := by
      rw [hgood]
      exact isConsistent_good _
    rw [rounds, if_pos hr]
    exact .next hobjects hround hr (ih h' (number + 1))

theorem resting_start (s : Settings) : Resting s 0 0 (start s) where
  staged :=
    { sound := ⟨Memory.sound_empty, ⟨{ }, Std.ExtTreeMap.getElem?_insert_self⟩⟩
      isObject := rfl
      located := rfl
      responder := rfl
      settings := rfl
      roots := rfl }
  gone a := by
    simp [start, Machine.register, Machine.setCatalog, Machine.standing, Machine.host, Host.counts?,
      Machine.mailbox, Outside.mailbox, Outside.setMailbox, Mailbox.about, Machine.holding?,
      Machine.cache, Standing.gone]
  created := rfl
  counters := by
    simp [start, Machine.register, Machine.setCatalog, Machine.counters, Machine.mailbox, Outside.mailbox,
      Outside.setMailbox, tally]

theorem runs_run (line : CommandLine) (env : String → Option String) : Runs line env (run line env) :=
  (resting_start (settings line env)).plays_rounds line.objects line.workers 0 line.rounds

/-- Whatever the command line and the environment ask for, a run succeeds: in every round all objects are
wrapped, retained while they are held, and freed after that.  Every proxy is counted once in each way, and
none was found in the cache or leaked.  It is the same for all runs that may happen, in whatever order the
workers take and drop their references and at whatever free addresses the objects are. -/
theorem succeeds_run (line : CommandLine) (env : String → Option String)
    (hn : line.objects * line.rounds < 2 ^ 64)
    (hk : collections (settings line env).threshold line.objects line.rounds < 2 ^ 64) :
    Runs line env (run line env) ∧ ∀ t, Runs line env t → t.code = 0 ∧ ∃ m : Counters,
      t =
        { output := (List.range line.rounds).map (goodLine line.objects) ++ m.report ++
            ["live native objects: 0"]
          complaint := none
          success := true } ∧
      m.proxiesCreated.toNat = line.objects * line.rounds ∧
      m.promotions.toNat = line.objects * line.rounds ∧
      m.demotions.toNat = line.objects * line.rounds ∧
      m.releases.toNat = line.objects * line.rounds ∧
      m.foreignToggles.toNat = line.objects * line.rounds ∧
      m.cacheHits = 0 ∧ m.leaks = 0 ∧
      m.collections.toNat =
        collections (settings line env).threshold line.objects line.rounds := by
  refine ⟨runs_run line env, fun t ht => ?_⟩
  have h := (resting_start (settings line env)).plays ht
  rw [Nat.zero_add, Nat.zero_add, ← collections_eq, ← List.range_eq_range'] at h
  have hw (x : Nat) (hx : x < 2 ^ 64) : (UInt64.ofNat x).toNat = x := UInt64.toNat_ofNat_of_lt hx
  refine ⟨by rw [h]; rfl, _, h, ?_⟩
  exact ⟨hw _ hn, hw _ hn, hw _ hn, hw _ hn, hw _ hn, rfl, rfl, hw _ hk⟩

/-- Two rounds at the same three addresses.  In the second one the objects are made in another order, and the
workers take turns. -/
theorem succeeds_run_three :
    let line : CommandLine := { objects := 3, workers := 2, rounds := 2, threshold := some 3 }
    let env : String → Option String := fun _ => none
    let earlier : List Address := [.nth 0, .nth 1, .nth 2]
    let later : List Address := [.nth 2, .nth 0, .nth 1]
    ∃ (first second : Machine × Round) (m : Counters),
      PlaysRound (start (settings line env)) 2 earlier first ∧
      PlaysRound first.1 2 later second ∧
      Runs line env (((finish second.1).after second.2 1).after first.2 0) ∧
      ((finish second.1).after second.2 1).after first.2 0 =
        { output :=
            ["round 0: wrapped 3, retained 3 while held, 0 survived release",
             "round 1: wrapped 3, retained 3 while held, 0 survived release"] ++ m.report ++
            ["live native objects: 0"]
          complaint := none
          success := true } ∧
      m.releases.toNat = 6 ∧ m.collections.toNat = 6 := by
  intro line env earlier later
  have hrest := resting_start (settings line env)
  have hfirst := playsRound_round (start (settings line env)) 2 earlier
  obtain ⟨hgood, hrest'⟩ := hrest.round (by decide) hfirst
  generalize round (start (settings line env)) 2 earlier = first at hfirst hgood hrest'
  have hshares : Shares.among later 2 = [[.nth 2, .nth 0], [.nth 1]] := by decide
  have hturns : Shares.Interleaves (Shares.among later 2) [.nth 2, .nth 1, .nth 0] := by
    rw [hshares]
    exact .turn (i := 0) rfl (.turn (i := 1) rfl (.turn (i := 0) rfl (.done (by decide))))
  obtain ⟨second, hsecond⟩ : ∃ second, PlaysRound first.1 2 later second :=
    ⟨_, _, _, ⟨_, hturns, rfl⟩, ⟨_, hturns, rfl⟩, rfl⟩
  obtain ⟨hgood', -⟩ := hrest'.round (by decide) hsecond
  have hruns : Runs line env (((finish second.1).after second.2 1).after first.2 0) :=
    .next ⟨rfl, by decide, fun a _ => hrest.isAlive a⟩ hfirst (hgood ▸ isConsistent_good _) <|
      .next ⟨rfl, by decide, fun a _ => hrest'.isAlive a⟩ hsecond (hgood' ▸ isConsistent_good _) .finish
  obtain ⟨-, hall⟩ := succeeds_run line env (by decide) (by decide)
  obtain ⟨-, m, ht, -, -, -, hrel, -, -, -, hcol⟩ := hall _ hruns
  subst line
  exact ⟨first, second, m, hfirst, hsecond, hruns, ht, hrel, hcol⟩

end Scenario

end NativeProxies
