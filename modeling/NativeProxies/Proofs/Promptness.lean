import NativeProxies.Proofs.Recording
import NativeProxies.Proofs.Toggle
import NativeProxies.Proofs.Twin.Hearing
import NativeProxies.Proofs.Twin.World

/-!
# The time of hearing

It cannot be told from a run when its bridges hear what waits for them.  A world in which bridges catch
up in addition is ahead of the one in which they do not (`World.Ahead`): every move has the same reply in
both, and a bridge that has heard everything is the same in both (`World.pumped_run`).
-/

namespace NativeProxies

/-- In a bridge that has heard the same, an action does the same. -/
theorem Action.ahead_run {heard : Nat → List Notification} {s s' : Scope} (hs : s.Sound)
    (hs' : s'.Sound) (h : s.machine.Ahead heard s'.machine)
    (h₀ : heard s.machine.bridge.serial = []) (hv : s'.vars = s.vars) (a : Action) :
    (a.run s).1.machine.Ahead heard (a.run s').1.machine ∧
      (a.run s').1.vars = (a.run s).1.vars ∧ (a.run s').2 = (a.run s).2 := by
  have ht : s.Twins (fun t _ => t == s.machine.bridge.serial) none s' := ⟨h.twins h₀, hv⟩
  obtain ⟨hr, he⟩ := Action.twins_run hs ht (Machine.ignores_own _) a
  refine ⟨?_, hr.vars, he⟩
  by_cases hn : ∃ t, a = .host t
  · obtain ⟨t, rfl⟩ := hn
    exact ⟨h.bridge, (Outside.Related.run (Machine.Ahead.keptByPost heard) h.outside t).1⟩
  · exact h.of_twins h₀ hr.machine ((acts_run hs a).resolve_right hn) ((acts_run hs' a).resolve_right hn)

/-! ## Worlds that are ahead -/

namespace World

/-- The second world is the first one, but its bridges have heard some of what waits for them in the first
one.  A bridge that is visited has heard the same. -/
structure Ahead (heard : Nat → List Notification) (w w' : World) : Prop where
  outside : w.session.outside.Related (fun s => Mailbox.Ahead (heard s)) w'.session.outside
  bridges : ∀ name : String, w'.session.bridges[name]? =
    w.session.bridges[name]?.map fun b => b.hearAll (heard b.serial)
  nextSerial : w'.session.nextSerial = w.session.nextSerial
  visits : w'.visits = w.visits
  owned : w'.owned = w.owned
  visited : ∀ (name : String) (b : Bridge), w.visits.contains name →
    w.session.bridges[name]? = some b → heard b.serial = []

namespace Ahead

variable {heard heard' : Nat → List Notification} {w w' : World} {name : String} {c c' r r' : Machine}

theorem refl (w : World) : w.Ahead (fun _ => []) w :=
  ⟨.refl (fun _ => .refl) _, fun name => by simp, rfl, rfl, rfl, fun _ _ _ _ => rfl⟩

variable (h : w.Ahead heard w')
include h

theorem machine?_eq_none (hc : w.session.machine? name = none) : w'.session.machine? name = none := by
  rw [Session.machine?, Option.map_eq_none_iff] at hc ⊢
  rw [h.bridges, hc, Option.map_none]

theorem machine?_eq_some (hc : w.session.machine? name = some c) :
    ∃ c', w'.session.machine? name = some c' ∧ c.Ahead heard c' := by
  obtain ⟨b, hb, rfl⟩ := Option.map_eq_some_iff.1 hc
  refine ⟨⟨b.hearAll (heard b.serial), w'.session.outside⟩, ?_, rfl, h.outside⟩
  rw [Session.machine?, h.bridges, hb]
  rfl

/-- A bridge goes on, and the others have heard as much as before. -/
theorem put (hw : w.Sound) (hc : w.session.machine? name = some c)
    (hs : r.bridge.serial = c.bridge.serial) (hr : r.Ahead heard' r')
    (hne : ∀ s ≠ c.bridge.serial, heard' s = heard s) {vs : Map String Visit}
    (hv : ∀ n, vs.contains n →
      n ≠ name ∧ w.visits.contains n ∨ n = name ∧ heard' c.bridge.serial = []) (l : Ledger) :
    Ahead heard' { session := w.session.put name r, visits := vs, owned := l }
      { session := w'.session.put name r', visits := vs, owned := l } := by
  obtain ⟨b, hb, rfl⟩ := Option.map_eq_some_iff.1 hc
  have hother {n : String} {b' : Bridge} (hn : n ≠ name) (hb' : w.session.bridges[n]? = some b') :
      heard' b'.serial = heard b'.serial :=
    hne _ fun he => hn (hw.distinct n name b' b hb' hb he)
  refine ⟨hr.outside, fun n => ?_, h.nextSerial, rfl, rfl, fun n b' hn hb' => ?_⟩
  · by_cases hname : n = name
    · subst hname
      simp [Session.put, hr.bridge]
    · have hi (x : Map String Bridge) (y : Bridge) : (x.insert name y)[n]? = x[n]? := by grind
      rw [Session.put, Session.put, hi, hi, h.bridges]
      cases hb' : w.session.bridges[n]? with
      | none => rfl
      | some b' => rw [Option.map_some, Option.map_some, hother hname hb']
  · rcases hv n hn with ⟨hname, hvn⟩ | ⟨rfl, h₀⟩
    · have hb₀ : w.session.bridges[n]? = some b' := by
        rw [← hb', Session.put]
        grind
      rw [hother hname hb₀]
      exact h.visited n b' hvn hb₀
    · rw [Session.put, Std.ExtTreeMap.getElem?_insert_self] at hb'
      cases hb'
      rw [hs]
      exact h₀

theorem isFree (t : Step) : w'.isFree t = w.isFree t := by
  rw [World.isFree, World.isFree, h.visits]

theorem scope?_eq_none (hs : w.scope? name = none) : w'.scope? name = none :=
  scope?_eq_none_of h.visits h.machine?_eq_none hs

theorem scope?_eq_some {s : Scope} (hs : w.scope? name = some s) :
    ∃ s', w'.scope? name = some s' ∧ s.machine.Ahead heard s'.machine ∧ s'.vars = s.vars ∧
      heard s.machine.bridge.serial = [] ∧ w.visits.contains name := by
  simp only [scope?, Option.bind_eq_some_iff, Option.map_eq_some_iff] at hs
  obtain ⟨v, hv, c, hc, rfl⟩ := hs
  obtain ⟨c', hc', ha⟩ := h.machine?_eq_some hc
  have hvisit : w.visits.contains name := by
    rw [Std.ExtTreeMap.contains_eq_isSome_getElem?, hv]
    rfl
  obtain ⟨b, hb, rfl⟩ := Option.map_eq_some_iff.1 hc
  refine ⟨⟨c', v.vars⟩, ?_, ha, rfl, h.visited name b hvisit hb, hvisit⟩
  rw [scope?, h.visits, hv, hc']
  rfl

/-- A bridge that is not visited goes on. -/
theorem withMachine (hw : w.Sound) (hv : w.visits.contains name = false)
    {k : Machine → Machine × Answer}
    (hk : ∀ c c', c.Sound → c.Ahead heard c' → (k c).1.bridge.serial = c.bridge.serial ∧
      (k c').2 = (k c).2 ∧ ∃ heard', (k c).1.Ahead heard' (k c').1 ∧
        ∀ s ≠ c.bridge.serial, heard' s = heard s) :
    (∃ heard', Ahead heard' { w with session := (w.session.withMachine name k).1 }
      { w' with session := (w'.session.withMachine name k).1 }) ∧
      (w'.session.withMachine name k).2 = (w.session.withMachine name k).2 := by
  rw [Session.withMachine, Session.withMachine]
  cases hc : w.session.machine? name with
  | none =>
    rw [h.machine?_eq_none hc]
    exact ⟨⟨heard, h⟩, rfl⟩
  | some c =>
    obtain ⟨c', hc', ha⟩ := h.machine?_eq_some hc
    obtain ⟨hs, he, heard', hr, hne⟩ := hk c c' (hw.machine hc) ha
    rw [hc', h.visits, h.owned]
    refine ⟨⟨heard', h.put hw hc hs hr hne (fun n hn => .inl ⟨?_, hn⟩) _⟩, he⟩
    rintro rfl
    exact Bool.false_ne_true (hv.symm.trans hn)

/-- A bridge goes on as it would if it had heard nothing. -/
theorem overlook (hw : w.Sound) (hv : w.visits.contains name = false) {k : Machine → Machine × Answer}
    (hk : Machine.Overlooks k) :
    (∃ heard', Ahead heard' { w with session := (w.session.withMachine name k).1 }
      { w' with session := (w'.session.withMachine name k).1 }) ∧
      (w'.session.withMachine name k).2 = (w.session.withMachine name k).2 :=
  h.withMachine hw hv fun c _ _ ha =>
    ⟨hk.serial c, (hk.ahead ha).2, heard, (hk.ahead ha).1, fun _ _ => rfl⟩

theorem openBridge (hw : w.Sound) (name : String) (settings : Settings) (responder : Responder)
    (ancestorsOnly : Bool) :
    (∃ heard',
      Ahead heard' { w with session := (w.session.openBridge name settings responder ancestorsOnly).1 }
        { w' with session := (w'.session.openBridge name settings responder ancestorsOnly).1 }) ∧
      (w'.session.openBridge name settings responder ancestorsOnly).2 =
        (w.session.openBridge name settings responder ancestorsOnly).2 := by
  have hcontains : w'.session.bridges.contains name = w.session.bridges.contains name := by
    rw [Std.ExtTreeMap.contains_eq_isSome_getElem?, h.bridges, Option.isSome_map,
      Std.ExtTreeMap.contains_eq_isSome_getElem?]
  rw [Session.openBridge, Session.openBridge, hcontains, h.nextSerial]
  split_ifs with hn
  · exact ⟨⟨heard, h⟩, rfl⟩
  · -- no bridge has the new serial number yet, so it is free to have heard nothing
    have hold {n : String} {b : Bridge} (hb : w.session.bridges[n]? = some b) :
        Function.update heard w.session.nextSerial [] b.serial = heard b.serial :=
      Function.update_of_ne (Nat.ne_of_lt (hw.serial_lt n b hb)) _ _
    refine ⟨⟨Function.update heard w.session.nextSerial [], ?_, fun n => ?_, rfl, h.visits, h.owned,
      fun n b hv hb => ?_⟩, rfl⟩
    · refine h.outside.setMailbox (fun t ht m m' hm => ?_) ?_
      · rwa [Function.update_of_ne ht]
      · rw [Function.update_self]
        exact .refl _
    · by_cases hname : n = name
      · subst hname
        simp
      · have hi (x : Map String Bridge) (y : Bridge) : (x.insert name y)[n]? = x[n]? := by grind
        dsimp only
        rw [hi, hi, h.bridges]
        cases hb : w.session.bridges[n]? with
        | none => rfl
        | some b => rw [Option.map_some, Option.map_some, hold hb]
    · obtain ⟨v, hv'⟩ := Option.isSome_iff_exists.1
        (Std.ExtTreeMap.contains_eq_isSome_getElem?.symm.trans hv)
      obtain ⟨b₀, hb₀, -⟩ := hw.visits n v hv'
      have hname := Session.ne_of_contains (Bool.eq_false_iff.2 hn) hb₀
      have hbn : w.session.bridges[n]? = some b := by
        dsimp only at hb
        grind
      rw [hold hbn]
      exact h.visited n b hv hbn

theorem closeBridge (hw : w.Sound) (hw' : w'.Sound) (name : String) :
    (∃ heard', Ahead heard' { w with session := (w.session.closeBridge name).1 }
      { w' with session := (w'.session.closeBridge name).1 }) ∧
      (w'.session.closeBridge name).2 = (w.session.closeBridge name).2 := by
  rw [Session.closeBridge, Session.closeBridge]
  cases hc : w.session.machine? name with
  | none =>
    rw [h.machine?_eq_none hc]
    exact ⟨⟨heard, h⟩, rfl⟩
  | some c =>
    obtain ⟨c', hc', ha⟩ := h.machine?_eq_some hc
    rw [hc']
    have hr := ha.close (hw.machine hc) (hw'.machine hc')
    obtain ⟨b, hb, rfl⟩ := Option.map_eq_some_iff.1 hc
    have hother {n : String} {b' : Bridge} (hb' : (w.session.bridges.erase name)[n]? = some b') :
        w.session.bridges[n]? = some b' ∧
          Function.update heard b.serial [] b'.serial = heard b'.serial := by
      have hn : n ≠ name ∧ w.session.bridges[n]? = some b' := by grind
      exact ⟨hn.2, Function.update_of_ne (fun he => hn.1 (hw.distinct n name b' b hn.2 hb he)) _ _⟩
    refine ⟨⟨Function.update heard b.serial [], hr, fun n => ?_, h.nextSerial, h.visits, h.owned,
      fun n b' hv hb' => ?_⟩, rfl⟩
    · have hn := h.bridges n
      dsimp only
      cases hb' : (w.session.bridges.erase name)[n]? with
      | none => grind
      | some b' =>
        obtain ⟨hb₀, he⟩ := hother hb'
        rw [Option.map_some, he]
        grind
    · obtain ⟨hb₀, he⟩ := hother hb'
      rw [he]
      exact h.visited n b' hv hb₀

/-- A step that is no visit gives the same answer. -/
theorem step (hw : w.Sound) (hw' : w'.Sound) {t : Step} (hf : w.isFree t) :
    (∃ heard', (w.next (.step t)).Ahead heard' (w'.next (.step t))) ∧
      (w'.session.step t).2.outcome = (w.session.step t).2.outcome := by
  obtain ⟨hvisit, hv⟩ := isFree_iff.1 hf
  rw [next_of_isFree hf, next_of_isFree ((h.isFree t).trans hf)]
  cases t with
  | enter name actions => cases hvisit
  | «open» name settings responder ancestorsOnly =>
    obtain ⟨ha, he⟩ := h.openBridge hw name settings responder ancestorsOnly
    exact ⟨ha, congrArg Outcome.single he⟩
  | close name =>
    obtain ⟨ha, he⟩ := h.closeBridge hw hw' name
    exact ⟨ha, congrArg Outcome.single he⟩
  | catchUp name =>
    obtain ⟨ha, he⟩ := h.withMachine hw (hv name rfl) (k := fun c => (c.catchUp, .done))
      fun c c' hc ha => ⟨(Machine.alike_catchUp hc).serial, rfl, _, ha.catchUp hc,
        fun s hs => Function.update_of_ne hs _ _⟩
    exact ⟨ha, congrArg Outcome.single he⟩
  | collect name =>
    obtain ⟨ha, he⟩ := h.withMachine hw (hv name rfl) (k := fun c => (c.collect, .done))
      fun c c' hc ha => ⟨(Machine.alike_collect hc).serial, rfl, _, ha.collect hc,
        fun s hs => Function.update_of_ne hs _ _⟩
    exact ⟨ha, congrArg Outcome.single he⟩
  | unstash name stash =>
    obtain ⟨ha, he⟩ := h.overlook hw (hv name rfl) (Machine.overlooks_unroot stash)
    exact ⟨ha, congrArg Outcome.single he⟩
  | register name d =>
    obtain ⟨ha, he⟩ := h.overlook hw (hv name rfl) (Machine.overlooks_register d)
    exact ⟨ha, congrArg Outcome.single he⟩
  | catalog name q =>
    obtain ⟨ha, he⟩ := h.overlook hw (hv name rfl) (Machine.overlooks_catalogStep q)
    exact ⟨ha, congrArg Outcome.single he⟩
  | host t =>
    obtain ⟨ho, he⟩ := Outside.Related.run (Machine.Ahead.keptByPost heard) h.outside t
    refine ⟨⟨heard, ho, h.bridges, h.nextSerial, h.visits, ?_, h.visited⟩, congrArg Outcome.single he⟩
    dsimp only
    rw [h.owned]
    exact HostStep.settle_congr h.outside.host _ t

/-- Every move keeps the second world ahead, and has the same answer. -/
theorem next (hw : w.Sound) (hw' : w'.Sound) (m : Move) :
    (∃ heard', (w.next m).Ahead heard' (w'.next m)) ∧ w'.outcome? m = w.outcome? m := by
  cases m with
  | enter name =>
    refine ⟨?_, rfl⟩
    rw [World.next, World.next, h.visits]
    split_ifs
    · exact ⟨heard, h⟩
    · rw [Session.beginVisit, Session.beginVisit]
      cases hc : w.session.machine? name with
      | none =>
        rw [h.machine?_eq_none hc]
        exact ⟨heard, h⟩
      | some c =>
        obtain ⟨c', hc', ha⟩ := h.machine?_eq_some hc
        have hm := hw.machine hc
        rw [hc', h.owned]
        refine ⟨_, h.put hw hc (Machine.alike_catchUp hm).serial (ha.catchUp hm)
          (fun s hs => Function.update_of_ne hs _ _) (fun n hn => ?_) _⟩
        by_cases hname : n = name
        · exact .inr ⟨hname, Function.update_self ..⟩
        · exact .inl ⟨hname, by grind⟩
  | act name a =>
    cases hs : w.scope? name with
    | none =>
      have hs' := h.scope?_eq_none hs
      rw [World.next, World.next, outcome?, outcome?, hs, hs']
      exact ⟨⟨heard, h⟩, rfl⟩
    | some s =>
      obtain ⟨s', hs', ha, hvars, h₀, hv⟩ := h.scope?_eq_some hs
      obtain ⟨hr, hvars', he⟩ := Action.ahead_run (hw.scope hs) (hw'.scope hs') ha h₀ hvars a
      rw [next_act hs, next_act hs', outcome?, outcome?, hs, hs', h.visits, h.owned,
        Action.settle_congr ha.outside.host, he, hvars', Option.map_some, Option.map_some, he]
      refine ⟨⟨heard, h.put hw (machine?_of_scope? hs) (Action.run_spec (hw.scope hs) a).serial hr
        (fun _ _ => rfl) (fun n hn => ?_) _⟩, rfl⟩
      by_cases hname : n = name
      · exact .inr ⟨hname, h₀⟩
      · exact .inl ⟨hname, by grind⟩
  | leave name =>
    refine ⟨?_, rfl⟩
    cases hs : w.scope? name with
    | none =>
      have hs' := h.scope?_eq_none hs
      rw [World.next, World.next, hs, hs']
      exact ⟨heard, h⟩
    | some s =>
      obtain ⟨s', hs', ha, -, h₀, -⟩ := h.scope?_eq_some hs
      rw [next_leave hs, next_leave hs', h.visits, h.owned]
      refine ⟨heard, h.put hw (machine?_of_scope? hs)
        (Machine.alike_leave (hw.scope hs).machine).serial (ha.leave h₀) (fun _ _ => rfl)
        (fun n hn => .inl ?_) _⟩
      grind
  | step t =>
    rw [outcome?, outcome?, h.isFree]
    cases hf : w.isFree t with
    | false =>
      rw [next_of_not_isFree hf, next_of_not_isFree ((h.isFree t).trans hf)]
      exact ⟨⟨heard, h⟩, rfl⟩
    | true =>
      obtain ⟨ha, he⟩ := h.step hw hw' hf
      exact ⟨ha, by rw [he]⟩
  | reuse a t floating =>
    refine ⟨?_, rfl⟩
    rw [World.next, World.next, h.outside.host, h.owned]
    split_ifs
    · exact ⟨heard, h⟩
    · exact ⟨heard, h.outside.setHost _, h.bridges, h.nextSerial, h.visits, rfl, h.visited⟩

/-- Every move has the same reply. -/
theorem reply (hw : w.Sound) (hw' : w'.Sound) (m : Move) : w'.reply m = w.reply m := by
  obtain ⟨⟨heard', hn⟩, he⟩ := h.next hw hw' m
  rw [World.reply, World.reply, he, hn.outside.callsSince, h.outside.journal]

/-- A bridge may catch up in the second world alone. -/
theorem pump (hw : w.Sound) (name : String) :
    ∃ heard', w.Ahead heard' (w'.next (.step (.catchUp name))) := by
  cases hf : w'.isFree (.catchUp name) with
  | false =>
    rw [next_of_not_isFree hf]
    exact ⟨heard, h⟩
  | true =>
    have hv := (isFree_iff.1 ((h.isFree _).symm.trans hf)).2 name rfl
    rw [next_of_isFree hf]
    have hstep : (w'.session.step (.catchUp name)).1 =
        (w'.session.withMachine name fun c => (c.catchUp, .done)).1 := rfl
    rw [hstep, Session.withMachine]
    cases hc : w.session.machine? name with
    | none =>
      rw [h.machine?_eq_none hc]
      exact ⟨heard, h⟩
    | some c =>
      obtain ⟨c', hc', ha⟩ := h.machine?_eq_some hc
      have hp := h.put hw hc rfl (ha.pump (hw.machine hc)) (fun s hs => Function.update_of_ne hs _ _)
        (fun n (hn : w.visits.contains n) => .inl ⟨?_, hn⟩) w.owned
      · rw [Session.put_of_machine? hc] at hp
        rw [hc', h.visits, h.owned]
        exact ⟨_, hp⟩
      · rintro rfl
        exact Bool.false_ne_true (hv.symm.trans hn)

end Ahead

end World

/-! ## Pumping in addition -/

/-- What happens in a run: a move, or a bridge catches up in addition. -/
inductive Beat
  | move (m : Move)
  | pump (name : String)

namespace Beat

/-- The move that is made. -/
def toMove : Beat → Move
  | move m => m
  | pump name => .step (.catchUp name)

/-- The move, unless it is in addition. -/
def move? : Beat → Option Move
  | move m => some m
  | pump _ => none

end Beat

namespace World

variable {heard : Nat → List Notification} {w w' : World}

/-- The replies to the moves that are not in addition. -/
def answers (w : World) : List Beat → List (Option Outcome × List Call)
  | [] => []
  | .move m :: bs => w.reply m :: answers (w.next m) bs
  | .pump name :: bs => answers (w.next (Beat.pump name).toMove) bs

theorem Ahead.run (h : w.Ahead heard w') (hw : w.Sound) (hw' : w'.Sound) (bs : List Beat) :
    (∃ heard', (w.run (bs.filterMap Beat.move?)).Ahead heard' (w'.run (bs.map Beat.toMove))) ∧
      w'.answers bs = w.trace (fun w m => [w.reply m]) (bs.filterMap Beat.move?) := by
  induction bs generalizing w w' heard with
  | nil => exact ⟨⟨heard, h⟩, rfl⟩
  | cons b bs ih =>
    cases b with
    | move m =>
      obtain ⟨⟨heard', hn⟩, -⟩ := h.next hw hw' m
      obtain ⟨ha, he⟩ := ih hn (hw.next m) (hw'.next m)
      exact ⟨ha, congrArg₂ (· :: ·) (h.reply hw hw' m) he⟩
    | pump name =>
      obtain ⟨heard', hp⟩ := h.pump hw name
      exact ih hp hw (hw'.next _)

/-- What there is to know of an open bridge, with all its counters. -/
def known (w : World) (name : String) : Option (Bridge × Counters) :=
  (w.session.machine? name).map fun c => (c.bridge, c.counters)

/-- If a bridge has nothing left to hear, the same is to be known of it in both worlds. -/
theorem Ahead.known_eq (h : w.Ahead heard w') (hw : w.Sound) {name : String}
    (hp : ∀ c, w.session.machine? name = some c → c.mailbox.pending = #[]) :
    w'.known name = w.known name := by
  cases hc : w.session.machine? name with
  | none => rw [known, known, hc, h.machine?_eq_none hc]
  | some c =>
    obtain ⟨c', hc', ha⟩ := h.machine?_eq_some hc
    have hm := (ha.mailbox (hw.machine hc)).pending
    rw [hp c hc] at hm
    have h₀ := (List.append_eq_nil_iff.1 hm.symm).1
    rw [known, known, hc, hc', Option.map_some, Option.map_some, Machine.counters, Machine.counters,
      ha.bridge_eq h₀, ha.mailbox_eq h₀ (hw.machine hc)]

/-- Wherever bridges catch up in addition in a run, all other moves have the same replies, which are
their answers and the calls that bridges make in them.  The host, the journal and the tapes are the same,
and so is a bridge whenever it has been entered, left, collected or told to catch up, with its cache and
its counters. -/
theorem pumped_run (bs : List Beat) :
    let w := run { } (bs.filterMap Beat.move?)
    let w' := run { } (bs.map Beat.toMove)
    answers { } bs = trace { } (fun w m => [w.reply m]) (bs.filterMap Beat.move?) ∧
    w'.session.outside.host = w.session.outside.host ∧
    w'.session.outside.journal = w.session.outside.journal ∧
    w'.session.outside.tapes = w.session.outside.tapes ∧
    w'.visits = w.visits ∧
    ∀ (m : Move) (name : String), w.Drains name m → (w'.next m).known name = (w.next m).known name := by
  intro w w'
  obtain ⟨⟨heard, ha⟩, he⟩ := (Ahead.refl { }).run sound_empty sound_empty bs
  have hw : w.Sound := sound_empty.run _
  have hw' : w'.Sound := sound_empty.run _
  refine ⟨he, ha.outside.host, ha.outside.journal, ha.outside.tapes, ha.visits, fun m name hd => ?_⟩
  obtain ⟨⟨heard', hn⟩, -⟩ := ha.next hw hw' m
  exact hn.known_eq (hw.next m) fun c => pending_next hd

/-- The code outside gives up an object that a bridge has wrapped, and takes and drops references to it
while the bridge is told to catch up time and again. -/
def impatient : List Beat :=
  [.move (.step (.host (.create { value := 1 } .object false))),
   .move (.step (.open "b" .standard .environment false)),
   .pump "b",
   .move (.enter "b"),
   .move (.act "b" (.wrap (some { value := 1 }) false none)),
   .pump "b",
   .move (.leave "b"),
   .move (.step (.host (.drop { value := 1 } 1 true))),
   .pump "b",
   .move (.step (.host (.take { value := 1 } 1 false))),
   .move (.step (.host (.drop { value := 1 } 1 false))),
   .move (.step (.host (.take { value := 1 } 1 false))),
   .pump "b",
   .move (.step (.host (.drop { value := 1 } 1 false)))]

/-- Meanwhile the worlds differ, but that does not show. -/
theorem pumped_run_impatient :
    let w := run { } (impatient.filterMap Beat.move?)
    let w' := run { } (impatient.map Beat.toMove)
    ((w.known "b").map fun x => x.2.demotions) = some 0 ∧
    ((w'.known "b").map fun x => x.2.demotions) = some 2 ∧
    (w'.next (.step (.collect "b"))).known "b" = (w.next (.step (.collect "b"))).known "b" ∧
    (((w.next (.step (.collect "b"))).known "b").map fun x => x.2.demotions) = some 3 := by
  intro w w'
  have hd : w.Drains "b" (.step (.collect "b")) := .collect (by decide +kernel)
  exact ⟨by decide +kernel, by decide +kernel, (pumped_run impatient).2.2.2.2.2 _ _ hd,
    by decide +kernel⟩

end World

end NativeProxies
