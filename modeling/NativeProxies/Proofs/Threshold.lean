import Mathlib.Data.List.Basic
import NativeProxies.Scenario

/-!
# Two ways to give the threshold

The threshold of a bridge is given as a text in the environment, or as a count on the command line, where
zero turns automatic collection off.  In the environment one numeral of zero does so, the single digit; any
other (`Settings.Padded`) is taken for a threshold of zero, which every visit reaches.  So the two ways agree
on all numerals but these (`Settings.threshold_ofLookup`).
-/

namespace NativeProxies

/-! ## Numerals of zero -/

namespace Numeral

variable {acc n : Nat} {c : Char} {cs : List Char} {v : String}

theorem digit_eq_zero_iff (hc : c.isDigit) : c.toNat - '0'.toNat = 0 ↔ c = '0' := by
  have hle := (Char.isDigit_iff_toNat.1 hc).1
  rw [← Char.toNat_inj]
  omega

theorem digitsFrom_eq_zero_iff : digitsFrom acc cs = some 0 ↔ acc = 0 ∧ ∀ c ∈ cs, c = '0' := by
  induction cs generalizing acc with
  | nil => simp [digitsFrom]
  | cons c cs ih =>
    rw [digitsFrom, List.forall_mem_cons]
    by_cases hc : c.isDigit
    · have hacc : 10 * acc + (c.toNat - '0'.toNat) = 0 ↔ acc = 0 ∧ c = '0' := by
        rw [← digit_eq_zero_iff hc]
        omega
      rw [if_pos hc, ih, hacc, and_assoc]
    · rw [if_neg hc]
      have hne : c ≠ '0' := by
        rintro rfl
        exact hc rfl
      simp [hne]

/-- A text reads as zero if it is a row of zeros, with or without a plus sign before it. -/
theorem count?_eq_zero_iff : count? v = some 0 ↔ ∃ k, unsigned v.toList = List.replicate (k + 1) '0' := by
  unfold count?
  rw [Option.filter_eq_some_iff, and_iff_left (by decide)]
  cases hu : unsigned v.toList with
  | nil => simp [digits?]
  | cons c cs =>
    show digitsFrom 0 (c :: cs) = some 0 ↔ _
    rw [digitsFrom_eq_zero_iff, and_iff_right rfl]
    constructor
    · intro h
      exact ⟨cs.length, List.eq_replicate_iff.2 ⟨rfl, h⟩⟩
    · rintro ⟨k, hk⟩
      exact (List.eq_replicate_iff.1 hk).2

theorem unsigned_eq_replicate_iff {cs : List Char} {k : Nat} :
    unsigned cs = List.replicate (k + 1) '0' ↔
      cs = List.replicate (k + 1) '0' ∨ cs = '+' :: List.replicate (k + 1) '0' := by
  unfold unsigned
  split
  · simp [List.replicate_succ]
  · rename_i hplus
    refine ⟨.inl, fun h => h.resolve_right fun he => hplus _ he⟩

end Numeral

/-! ## The text in the environment -/

namespace Settings

variable {v : String} {n : Nat} {env : String → Option String}

/-- A numeral of zero other than the single digit: more zeros, or zeros behind a plus sign. -/
def Padded (v : String) : Prop :=
  ∃ k, v.toList = List.replicate (k + 2) '0' ∨ v.toList = '+' :: List.replicate (k + 1) '0'

theorem padded_iff : Padded v ↔ Numeral.count? v = some 0 ∧ v ≠ "0" := by
  simp only [Numeral.count?_eq_zero_iff, Numeral.unsigned_eq_replicate_iff]
  constructor
  · rintro ⟨k, h | h⟩
    · refine ⟨⟨k + 1, .inl h⟩, ?_⟩
      rintro rfl
      cases h
    · refine ⟨⟨k, .inr h⟩, ?_⟩
      rintro rfl
      cases h
  · rintro ⟨⟨k, h | h⟩, hne⟩
    · cases k with
      | zero => exact absurd (String.toList_inj.1 h) hne
      | succ k => exact ⟨k, .inl h⟩
    · exact ⟨k, .inr h⟩

theorem thresholdOfText_off : thresholdOfText "off" = none := by
  rw [thresholdOfText, if_pos (.inr rfl)]

theorem thresholdOfText_of_count? (h : Numeral.count? v = some n) :
    thresholdOfText v = if v = "0" then none else some n := by
  have hoff : v ≠ "off" := by
    rintro rfl
    cases h
  unfold thresholdOfText
  rw [h]
  simp only [or_iff_left hoff]

theorem thresholdOfText_of_count?_eq_none (h : Numeral.count? v = none) (hv : v ≠ "off") :
    thresholdOfText v = standard.threshold := by
  have hzero : v ≠ "0" := by
    rintro rfl
    cases h
  rw [thresholdOfText, if_neg (not_or.2 ⟨hzero, hv⟩), h]

theorem thresholdOfText_eq_zero_iff : thresholdOfText v = some 0 ↔ Padded v := by
  rw [padded_iff]
  cases hc : Numeral.count? v with
  | none =>
    have hne : thresholdOfText v ≠ some 0 := by
      by_cases hv : v = "off"
      · rw [hv, thresholdOfText_off]
        nofun
      · rw [thresholdOfText_of_count?_eq_none hc hv]
        nofun
    exact iff_of_false hne fun h => by cases h.1
  | some n =>
    rw [thresholdOfText_of_count? hc]
    by_cases hv : v = "0" <;> simp [hv]

end Settings

/-! ## The count on the command line -/

namespace CommandLine

variable {v : String} {n : Nat}

/-- A count is no option. -/
theorem toList_ne_of_count? (h : Numeral.count? v = some n) (cs : List Char) :
    v.toList ≠ '-' :: cs := by
  intro hv
  rw [Numeral.count?, hv] at h
  cases h

theorem Reading.argument_of_count? (h : Numeral.count? v = some n) (r : Reading) :
    r.argument v = r.plain v := by
  unfold argument
  split
  · exact absurd ‹_› (toList_ne_of_count? h _)
  · exact absurd ‹_› (toList_ne_of_count? h _)
  · rfl

theorem Reading.arguments_cons {r r' : Reading} {arg : String} (hdashes : arg ≠ "--")
    (h : r.argument arg = .ok r') (rest : List String) : r.arguments (arg :: rest) = r'.arguments rest := by
  rw [arguments]
  · rw [h]
  · exact hdashes

theorem Reading.assign_threshold {r : Reading} (h : Numeral.count? v = some n)
    (hr : r.threshold = none) : r.assign .threshold v = .ok { r with threshold := some n } := by
  rw [assign, get, hr, h]
  rfl

/-- The option waits for its value, which the end of the arguments settles. -/
theorem read_threshold (h : Numeral.count? v = some n) :
    read ["--collect-threshold", v] = .ok { threshold := some n } := by
  have hdashes : v ≠ "--" := by
    rintro rfl
    cases h
  have hoption : Reading.argument { } "--collect-threshold" =
      .ok { pending := some (.threshold, none) } := rfl
  have hvalue : Reading.argument { pending := some (.threshold, none) } v =
      .ok { pending := some (.threshold, some v) } := by
    rw [Reading.argument_of_count? h]
    rfl
  have hend : Reading.arguments { pending := some (.threshold, some v) } [] =
      .ok { threshold := some n } := by
    rw [Reading.arguments]
    exact Reading.assign_threshold (r := { }) h rfl
  rw [read, Reading.arguments_cons (by decide) hoption, Reading.arguments_cons hdashes hvalue, hend]
  rfl

/-- The value stands behind an equals sign. -/
theorem read_threshold_attached (h : Numeral.count? v = some n) :
    read ["--collect-threshold=" ++ v] = .ok { threshold := some n } := by
  have hchars : ("--collect-threshold=" ++ v).toList =
      '-' :: '-' :: ("collect-threshold=".toList ++ v.toList) := by
    rw [String.toList_append]
    rfl
  have hdashes : "--collect-threshold=" ++ v ≠ "--" := by
    intro he
    have hc := congrArg String.toList he
    rw [hchars] at hc
    cases hc
  have hargument : Reading.argument { } ("--collect-threshold=" ++ v) =
      .ok { threshold := some n } := by
    unfold Reading.argument
    rw [hchars]
    show Reading.option _ (some (String.ofList v.toList)) (some (.inl .threshold)) = _
    rw [String.ofList_toList]
    exact Reading.assign_threshold h rfl
  rw [read, Reading.arguments_cons hdashes hargument]
  rfl

end CommandLine

/-! ## Agreement -/

namespace Scenario

theorem threshold_settings (line : CommandLine) {n : Nat} (h : line.threshold = some n)
    (env : String → Option String) :
    (settings line env).threshold = if n = 0 then none else some n := by
  unfold settings
  rw [h, Option.elim_some, Settings.withThreshold]
  by_cases hn : n = 0 <;> simp [hn, Nat.pos_iff_ne_zero]

end Scenario

/-- A bridge collects whenever it is left, whatever happened on the visit, if and only if its threshold is
zero. -/
theorem Machine.forall_isDue_iff {s : Settings} :
    (∀ c : Machine, c.bridge.settings = s → c.isDue) ↔ s.threshold = some 0 := by
  constructor
  · intro h
    have hnew := h ⟨{ serial := 0, settings := s }, { }⟩ rfl
    unfold isDue at hnew
    cases hs : s.threshold with
    | none => simp [hs] at hnew
    | some n => simpa [hs] using hnew
  · rintro h c rfl
    simp [isDue, h]

namespace Settings

variable {v : String} {n : Nat} {env : String → Option String}

theorem ofLookup_threshold (hv : env thresholdVariable = some v) :
    (ofLookup env).threshold = thresholdOfText v := by
  rw [ofLookup, hv, Option.elim_some]

/-- A text that reads as a count means the same in the environment as the count on any command line, unless
it is a padded zero. -/
theorem thresholdOfText_eq_iff (hc : Numeral.count? v = some n) {line : CommandLine}
    (hl : line.threshold = some n) (env : String → Option String) :
    thresholdOfText v = (Scenario.settings line env).threshold ↔ ¬Padded v := by
  rw [Scenario.threshold_settings line hl, thresholdOfText_of_count? hc, padded_iff, hc]
  by_cases hv0 : v = "0"
  · have hdigit : Numeral.count? "0" = some 0 := rfl
    rw [hv0, hdigit] at hc
    obtain rfl := Option.some.inj hc
    simp [hv0]
  · simp [hv0, eq_comm]

/-- Of a text in the environment, `off` turns automatic collection off, a count is the threshold unless it is
the single digit zero, which turns automatic collection off, and any other text leaves the standard in
force.  On a command line that gives this count, however it was read, the count is the threshold unless it is
zero; the options `--collect-threshold` with the same text are read so.  The two agree on every count but the
padded zeros, and just these make a bridge collect whenever it is left. -/
theorem threshold_ofLookup (hv : env thresholdVariable = some v) :
    let s := ofLookup env
    (v = "off" → s.threshold = none) ∧
      (v ≠ "off" → Numeral.count? v = none → s.threshold = standard.threshold) ∧
      (∀ n, Numeral.count? v = some n →
        s.threshold = (if v = "0" then none else some n) ∧
          (∀ line : CommandLine, line.threshold = some n → ∀ env',
            (Scenario.settings line env').threshold = (if n = 0 then none else some n) ∧
              (s.threshold = (Scenario.settings line env').threshold ↔ ¬Padded v)) ∧
          ∀ args ∈ [["--collect-threshold", v], ["--collect-threshold=" ++ v]], ∀ env',
            ∃ line, CommandLine.read args = .ok line ∧
              (Scenario.settings line env').threshold = (if n = 0 then none else some n) ∧
              (s.threshold = (Scenario.settings line env').threshold ↔ ¬Padded v)) ∧
      (s.threshold = some 0 ↔ Padded v) ∧
      ((∀ c : Machine, c.bridge.settings = s → c.isDue) ↔ Padded v) := by
  intro s
  have hs : s.threshold = thresholdOfText v := ofLookup_threshold hv
  have hzero : s.threshold = some 0 ↔ Padded v := by rw [hs, thresholdOfText_eq_zero_iff]
  refine ⟨?_, ?_, ?_, hzero, Machine.forall_isDue_iff.trans hzero⟩
  · rintro rfl
    rw [hs, thresholdOfText_off]
  · intro hoff hc
    rw [hs, thresholdOfText_of_count?_eq_none hc hoff]
  · intro n hc
    have hline (line : CommandLine) (hl : line.threshold = some n) (env' : String → Option String) :
        (Scenario.settings line env').threshold = (if n = 0 then none else some n) ∧
          (s.threshold = (Scenario.settings line env').threshold ↔ ¬Padded v) := by
      rw [hs]
      exact ⟨Scenario.threshold_settings line hl env', thresholdOfText_eq_iff hc hl env'⟩
    refine ⟨by rw [hs, thresholdOfText_of_count? hc], hline, fun args hargs env' => ?_⟩
    have hread : CommandLine.read args = .ok { threshold := some n } := by
      rcases List.mem_pair.1 hargs with rfl | rfl
      · exact CommandLine.read_threshold hc
      · exact CommandLine.read_threshold_attached hc
    exact ⟨_, hread, hline _ rfl env'⟩

/-- An environment in which the threshold alone is set. -/
def given (v key : String) : Option String := if key = thresholdVariable then some v else none

theorem threshold_ofLookup_given :
    given "+0032" thresholdVariable = some "+0032" ∧ (ofLookup (given "+0032")).threshold = some 32 ∧
      (ofLookup (given "+0032")).threshold =
        (Scenario.settings { objects := 7, threshold := some 32 } (given "off")).threshold ∧
      (∃ line, CommandLine.read ["--collect-threshold", "+0032"] = .ok line ∧
        (Scenario.settings line (given "off")).threshold = some 32) ∧
      ¬Padded "+0032" := by
  have hv : given "+0032" thresholdVariable = some "+0032" := rfl
  obtain ⟨-, -, hcount, hzero, -⟩ := threshold_ofLookup hv
  obtain ⟨hs, hlines, hargs⟩ := hcount 32 rfl
  have hp : ¬Padded "+0032" := fun hp => by cases hs.symm.trans (hzero.2 hp)
  obtain ⟨-, hagree⟩ := hlines { objects := 7, threshold := some 32 } rfl (given "off")
  obtain ⟨line, hread, hline, -⟩ := hargs _ List.mem_cons_self (given "off")
  exact ⟨hv, hs, hagree.2 hp, ⟨line, hread, hline⟩, hp⟩

/-- Two zeros turn automatic collection off on the command line, and ask for it after every visit in the
environment. -/
theorem not_threshold_ofLookup_padded :
    Numeral.count? "00" = some 0 ∧ (ofLookup (given "00")).threshold = some 0 ∧
      ∃ line, CommandLine.read ["--collect-threshold", "00"] = .ok line ∧
        (Scenario.settings line (given "00")).threshold = none :=
  ⟨rfl, rfl, { threshold := some 0 }, CommandLine.read_threshold rfl,
    Scenario.threshold_settings { threshold := some 0 } rfl _⟩

end Settings

end NativeProxies
