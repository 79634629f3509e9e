import NativeProxies.Proofs.Releases

/-!
# Diaries

A diary says what is noted of a bridge as it goes on: of each action of a script, of each time it is
left, and of each collection that is asked for.  Some properties of a bridge and of what was noted of
it are kept by everything that the bridge does (`Diary.Bears`).  Such a property holds of every open
bridge in every run, whatever happens to other bridges, with what was noted under its serial number
(`Diary.Kept.run`).
-/

namespace NativeProxies

/-- What is noted of a bridge. -/
structure Diary (α : Type) where
  act : Scope → Action → List α
  leave : Machine → List α
  collect : Machine → List α

namespace Diary

variable {α : Type} (d : Diary α)

/-- The bridge of which something is noted in a move, and what is noted. -/
def noted? (w : World) : Move → Option (Machine × List α)
  | .act name a => (w.scope? name).map fun s => (s.machine, d.act s a)
  | .leave name => (w.scope? name).map fun s => (s.machine, d.leave s.machine)
  | .step (.collect name) =>
    if w.visits.contains name then none
    else (w.session.machine? name).map fun c => (c, d.collect c)
  | _ => none

/-- What is noted in a move of the bridge with a serial number. -/
def notes (s : Nat) (w : World) (m : Move) : List α :=
  ((d.noted? w m).filter fun x => x.1.bridge.serial = s).elim [] Prod.snd

/-- Everything that a bridge does keeps a property of the bridge and of what was noted of it. -/
structure Bears (P : Bridge → List α → Prop) : Prop where
  opened : ∀ (serial : Nat) (settings : Settings) (responder : Responder) (ancestorsOnly : Bool),
    P { serial, settings, responder, ancestorsOnly } []
  act : ∀ {s : Scope} {xs : List α}, s.Sound → P s.machine.bridge xs →
    ∀ a : Action, P (a.run s).1.machine.bridge (xs ++ d.act s a)
  leave : ∀ {c : Machine} {xs : List α}, c.Sound → P c.bridge xs →
    P c.leave.bridge (xs ++ d.leave c)
  collect : ∀ {c : Machine} {xs : List α}, c.Sound → P c.bridge xs →
    P c.collect.bridge (xs ++ d.collect c)
  tends : ∀ {c c' : Machine} {t : Step} {xs : List α}, World.Tends c t c' →
    (∀ name, t ≠ .collect name) → P c.bridge xs → P c'.bridge xs

/-- A property holds of the open bridge with a serial number and of what was noted of it.  Nothing was
noted before the bridge was opened. -/
structure Kept (P : Bridge → List α → Prop) (w : World) (s : Nat) (xs : List α) : Prop where
  opened : xs ≠ [] → s < w.session.nextSerial
  holds : ∀ (name : String) (b : Bridge), w.session.bridges[name]? = some b → b.serial = s → P b xs

variable {d} {P : Bridge → List α → Prop} {w w' : World} {m : Move} {name : String}
  {c c' : Machine} {s : Nat} {xs ys : List α}

theorem kept_empty (P : Bridge → List α → Prop) (s : Nat) : Kept P { } s [] :=
  ⟨by simp, fun name b hb => by simp at hb⟩

theorem notes_of_noted?_eq_none (he : d.noted? w m = none) : d.notes s w m = [] := by
  rw [notes, he]
  rfl

theorem notes_of_noted?_eq_some (he : d.noted? w m = some (c, ys)) :
    d.notes s w m = if c.bridge.serial = s then ys else [] := by
  rw [notes, he, Option.filter_some]
  by_cases hs : c.bridge.serial = s <;> simp [hs]

/-- A bridge goes on with a note, and all others are left alone. -/
theorem Kept.put (hx : Kept P w s xs) (h : w.Sound) (hc : w.session.machine? name = some c)
    (hs : c'.bridge.serial = c.bridge.serial) (hw : w'.session = w.session.put name c')
    (hb : ∀ xs, P c.bridge xs → P c'.bridge (xs ++ ys)) :
    Kept P w' s (xs ++ if c.bridge.serial = s then ys else []) := by
  obtain ⟨b₀, hb₀, rfl⟩ := Option.map_eq_some_iff.1 hc
  have hput {n : String} {b : Bridge} (hn : w'.session.bridges[n]? = some b) :
      (n = name ∧ b = c'.bridge) ∨ (n ≠ name ∧ w.session.bridges[n]? = some b) := by
    rw [hw, Session.put] at hn
    grind
  have hnext : w'.session.nextSerial = w.session.nextSerial := by
    rw [hw]
    rfl
  split_ifs with hse
  · refine ⟨fun _ => hnext ▸ hse ▸ h.serial_lt name b₀ hb₀, fun n b hn hbs => ?_⟩
    rcases hput hn with ⟨-, rfl⟩ | ⟨hne, hn⟩
    · exact hb xs (hx.holds name b₀ hb₀ hse)
    · exact absurd (h.distinct n name b b₀ hn hb₀ (hbs.trans hse.symm)) hne
  · rw [List.append_nil]
    refine ⟨fun hne => hnext ▸ hx.opened hne, fun n b hn hbs => ?_⟩
    rcases hput hn with ⟨-, rfl⟩ | ⟨-, hn⟩
    · exact absurd (hs.symm.trans hbs) hse
    · exact hx.holds n b hn hbs

/-- A bridge goes on without a note. -/
theorem Kept.put_nil (hx : Kept P w s xs) (h : w.Sound) (hc : w.session.machine? name = some c)
    (hs : c'.bridge.serial = c.bridge.serial) (hw : w'.session = w.session.put name c')
    (hb : ∀ xs, P c.bridge xs → P c'.bridge xs) : Kept P w' s xs := by
  have hk := hx.put h hc hs hw fun xs hp => show P c'.bridge (xs ++ []) from
    (List.append_nil xs).symm ▸ hb xs hp
  rwa [ite_self, List.append_nil] at hk

theorem Kept.of_bridges (hx : Kept P w s xs) (hw : w'.session.bridges = w.session.bridges)
    (hn : w'.session.nextSerial = w.session.nextSerial) : Kept P w' s xs :=
  ⟨fun hne => hn ▸ hx.opened hne, fun name b hb => hx.holds name b (hw ▸ hb)⟩

/-- What was noted before the bridge was opened, which is nothing. -/
theorem Kept.openBridge (hx : Kept P w s xs) (hd : d.Bears P) (name : String) (settings : Settings)
    (responder : Responder) (ancestorsOnly : Bool)
    (hw : w'.session.bridges = w.session.bridges.insert name
      { serial := w.session.nextSerial, settings, responder, ancestorsOnly })
    (hn : w'.session.nextSerial = w.session.nextSerial + 1) : Kept P w' s xs := by
  refine ⟨fun hne => hn ▸ Nat.lt_succ_of_lt (hx.opened hne), fun n b hb hs => ?_⟩
  rw [hw] at hb
  by_cases hname : n = name
  · subst hname
    cases (Std.ExtTreeMap.getElem?_insert_self.symm.trans hb : some _ = some b)
    have hnil : xs = [] := by
      by_contra hne
      exact Nat.lt_irrefl _ (hs ▸ hx.opened hne)
    exact hnil ▸ hd.opened _ settings responder ancestorsOnly
  · exact hx.holds n b (by grind) hs

/-- A move of which nothing is noted. -/
theorem Kept.next_nil (hx : Kept P w s xs) (hd : d.Bears P) (h : w.Sound)
    (ha : ∀ name a, m ≠ .act name a) (hl : ∀ name, m ≠ .leave name)
    (hg : ∀ name, m ≠ .step (.collect name)) : Kept P (w.next m) s xs := by
  have hb := w.becomes_next m
  generalize w.next m = w' at hb
  cases hb with
  | idle => exact hx
  | @enter name c hm =>
    exact hx.put_nil h hm (Machine.alike_catchUp (h.machine hm)).serial rfl fun xs =>
      hd.tends (.catchUp name) (by simp)
  | act a hs => exact absurd rfl (ha _ a)
  | leave hs => exact absurd rfl (hl _)
  | tend hn hm hv ht =>
    have hne : ∀ name, _ ≠ Step.collect name := fun name he => hg name (congrArg Move.step he)
    exact hx.put_nil h hm (World.Sound.tends (h.machine hm) ht).1 rfl fun xs => hd.tends ht hne
  | @«open» name settings responder ancestorsOnly hn =>
    exact hx.openBridge hd name settings responder ancestorsOnly rfl rfl
  | @close name c hm hv =>
    refine ⟨hx.opened, fun n b hb hs => hx.holds n b ?_ hs⟩
    dsimp only at hb
    grind
  | host t => exact hx.of_bridges rfl rfl
  | reuse t floating hdead => exact hx.of_bridges rfl rfl

/-- A move, with what is noted of it. -/
theorem Kept.next (hx : Kept P w s xs) (hd : d.Bears P) (h : w.Sound) (m : Move) :
    Kept P (w.next m) s (xs ++ d.notes s w m) := by
  have hidle (hn : w.next m = w) (he : d.noted? w m = none) :
      Kept P (w.next m) s (xs ++ d.notes s w m) := by
    rwa [hn, notes_of_noted?_eq_none he, List.append_nil]
  cases m with
  | act name a =>
    cases hs : w.scope? name with
    | none => exact hidle (by rw [World.next, hs]; rfl) (by rw [noted?, hs]; rfl)
    | some sc =>
      rw [notes_of_noted?_eq_some (by rw [noted?, hs]; rfl), World.next_act hs]
      exact hx.put h (World.machine?_of_scope? hs) (Action.run_spec (h.scope hs) a).serial rfl
        fun xs hp => hd.act (h.scope hs) hp a
  | leave name =>
    cases hs : w.scope? name with
    | none => exact hidle (by rw [World.next, hs]; rfl) (by rw [noted?, hs]; rfl)
    | some sc =>
      have hc := World.machine?_of_scope? hs
      rw [notes_of_noted?_eq_some (by rw [noted?, hs]; rfl), World.next_leave hs]
      exact hx.put h hc (Machine.alike_leave (h.machine hc)).serial rfl
        fun xs hp => hd.leave (h.machine hc) hp
  | enter name =>
    rw [notes_of_noted?_eq_none rfl, List.append_nil]
    exact hx.next_nil hd h (by simp) (by simp) (by simp)
  | reuse b t floating =>
    rw [notes_of_noted?_eq_none rfl, List.append_nil]
    exact hx.next_nil hd h (by simp) (by simp) (by simp)
  | step t =>
    by_cases ht : ∃ name, t = .collect name
    · obtain ⟨name, rfl⟩ := ht
      cases hv : w.visits.contains name with
      | true =>
        exact hidle (World.next_of_not_isFree (by simp [World.isFree, Step.bridge?, hv]))
          (by rw [noted?, if_pos hv])
      | false =>
        cases hc : w.session.machine? name with
        | none =>
          exact hidle (World.next_of_machine?_eq_none hc rfl (by simp))
            (by rw [noted?, hv, hc]; rfl)
        | some c =>
          rw [notes_of_noted?_eq_some (by rw [noted?, hv, hc]; rfl), World.next_collect hv hc]
          exact hx.put h hc (Machine.alike_collect (h.machine hc)).serial rfl
            fun xs hp => hd.collect (h.machine hc) hp
    · have hn : d.noted? w (.step t) = none := by
        cases t <;> first | rfl | exact absurd ⟨_, rfl⟩ ht
      rw [notes_of_noted?_eq_none hn, List.append_nil]
      exact hx.next_nil hd h (by simp) (by simp) fun name he => ht ⟨name, Move.step.inj he⟩

/-- What was noted in a run. -/
theorem Kept.run (hx : Kept P w s xs) (hd : d.Bears P) (h : w.Sound) (ms : List Move) :
    Kept P (w.run ms) s (xs ++ w.trace (d.notes s) ms) := by
  induction ms generalizing w xs with
  | nil => rwa [World.trace, List.append_nil]
  | cons m ms ih =>
    have hi := ih (hx.next hd h m) (h.next m)
    rwa [List.append_assoc] at hi

/-- What was noted of an open bridge. -/
theorem Bears.run (hd : d.Bears P) (ms : List Move)
    (hc : (World.run { } ms).session.machine? name = some c) :
    P c.bridge (World.trace { } (d.notes c.bridge.serial) ms) := by
  obtain ⟨b, hb, rfl⟩ := Option.map_eq_some_iff.1 hc
  exact ((kept_empty P b.serial).run hd World.sound_empty ms).holds name b hb rfl

end Diary

end NativeProxies
