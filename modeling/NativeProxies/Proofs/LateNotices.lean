import NativeProxies.Proofs.Numbering
import NativeProxies.Proofs.Twin.World

/-!
# Late notices

A notification may reach a bridge after the registration that it tells of was given back, while the
address is in use again.  The bridge never has that registration for an object again
(`World.isLate_of_released`).  Whatever late notifications are thrown into the mailboxes in the course of a
run, at any time and in any number, the run goes on as if they were not there (`World.play_late`).
-/

namespace NativeProxies

namespace Machine

variable {c c' : Machine} {n : Notification}

/-- A notification tells of a registration that the bridge gave out once and does not have for the object
any more. -/
structure IsLate (c : Machine) (n : Notification) : Prop where
  issued : n.generation < c.mailbox.nextGeneration
  gone : c.cache.generation n.object ≠ some n.generation

instance (c : Machine) (n : Notification) : Decidable (c.IsLate n) :=
  decidable_of_iff (n.generation < c.mailbox.nextGeneration ∧
    c.cache.generation n.object ≠ some n.generation) ⟨fun h => ⟨h.1, h.2⟩, fun h => ⟨h.1, h.2⟩⟩

theorem Twins.isLate_iff {P : Nat → Notification → Bool} {strict : Option Bool}
    (h : c.Twins P strict c') : c'.IsLate n ↔ c.IsLate n := by
  have hg : c'.mailbox.nextGeneration = c.mailbox.nextGeneration := h.mailbox.nextGeneration
  constructor
  · exact fun hx => ⟨hg ▸ hx.issued, h.cache ▸ hx.gone⟩
  · exact fun hx => ⟨hg ▸ hx.issued, h.cache ▸ hx.gone⟩

/-- What is late stays late. -/
theorem IsLate.goesOn (hx : c.IsLate n) (h : c.GoesOn c') : c'.IsLate n where
  issued := hx.issued.trans_le h.next
  gone hg := by
    rcases h.renews _ _ hg with hg | ⟨hle, -⟩
    · exact hx.gone hg
    · exact hle.not_gt hx.issued

end Machine

namespace World

variable {w w' : World} {name : String} {c c' : Machine} {s : Nat} {n : Notification} {a : Address}

/-! ## Late notifications -/

/-- Once a registration is not in its entry any more, its notifications are late for every object. -/
theorem isLate_of_released {name' : String} (ms ms' : List Move)
    (hc : (run { } ms).session.machine? name = some c) (hg : c.cache.generation a = some n.generation)
    (hc' : (run { } (ms ++ ms')).session.machine? name' = some c')
    (hs : c'.bridge.serial = c.bridge.serial) (hn : c'.cache.generation a ≠ some n.generation) :
    c'.IsLate n := by
  have h := sound_empty.run ms
  have hnum := numbered_run ms hc
  obtain ⟨b, hb, rfl⟩ := Option.map_eq_some_iff.1 hc
  rw [run_append] at hc'
  rcases h.goesOn_run ms' hc' with hle | ⟨name₀, c₀, hc₀, hgo⟩
  · exact absurd (h.serial_lt name b hb) (hs ▸ hle).not_gt
  · obtain ⟨b₀, hb₀, rfl⟩ := Option.map_eq_some_iff.1 hc₀
    cases h.distinct name name₀ b b₀ hb hb₀ (hs.symm.trans hgo.serial)
    cases hb.symm.trans hb₀
    refine ⟨(hnum.issued a _ hg).trans_le hgo.next, fun hcur => ?_⟩
    rcases hgo.renews _ _ hcur with hold | ⟨hle, -⟩
    · exact hn (hnum.distinct a _ _ hg hold ▸ hcur)
    · exact hle.not_gt (hnum.issued a _ hg)

/-- A notification that is late for the bridge with a serial number, if that is open. -/
structure Stale (w : World) (s : Nat) (n : Notification) : Prop where
  opened : s < w.session.nextSerial
  late : ∀ name c, w.session.machine? name = some c → c.bridge.serial = s → c.IsLate n

/-- No two bridges have the same serial number, so it is enough to look at one. -/
theorem Sound.stale (h : w.Sound) (hc : w.session.machine? name = some c) (hx : c.IsLate n) :
    w.Stale c.bridge.serial n := by
  obtain ⟨b, hb, rfl⟩ := Option.map_eq_some_iff.1 hc
  refine ⟨h.serial_lt name b hb, fun name' c₁ hc₁ hs => ?_⟩
  obtain ⟨b₁, hb₁, rfl⟩ := Option.map_eq_some_iff.1 hc₁
  cases h.distinct name' name b₁ b hb₁ hb hs
  cases hb.symm.trans hb₁
  exact hx

theorem Stale.next (hx : w.Stale s n) (h : w.Sound) (m : Move) : (w.next m).Stale s n where
  opened := hx.opened.trans_le (nextSerial_le_next w m)
  late name c hc hs := by
    rcases h.goesOn_next m hc with ⟨hle, -⟩ | ⟨c₀, hc₀, hg⟩
    · exact absurd hx.opened (hs ▸ hle).not_gt
    · exact (hx.late name c₀ hc₀ (hg.serial.symm.trans hs)).goesOn hg

/-- A notification is put into the mailbox of a bridge. -/
def inject (w : World) (name : String) (foreign : Bool) (n : Notification) : World :=
  (w.session.machine? name).elim w fun c =>
    { w with session := w.session.put name (c.setMailbox (c.mailbox.post foreign n)) }

end World

/-- What happens to a world: a move, or a notification from anywhere. -/
inductive Event
  | move (m : Move)
  | inject (name : String) (foreign : Bool) (n : Notification)

namespace Event

/-- The world after an event. -/
def after (w : World) : Event → World
  | move m => w.next m
  | inject name foreign n => w.inject name foreign n

/-- The replies to an event. -/
def replies (w : World) : Event → List (Option Outcome × List Call)
  | move m => [w.reply m]
  | inject .. => []

def move? : Event → Option Move
  | move m => some m
  | inject .. => none

/-- Only late notifications are injected. -/
def IsLate (w : World) : Event → Prop
  | move _ => True
  | inject name _ n => ∀ c ∈ w.session.machine? name, c.IsLate n

instance (w : World) : ∀ e : Event, Decidable (e.IsLate w)
  | move _ => isTrue trivial
  | inject name _ n => inferInstanceAs (Decidable (∀ c ∈ w.session.machine? name, c.IsLate n))

end Event

namespace World

/-- The world after several events. -/
def play (w : World) (es : List Event) : World := es.foldl Event.after w

/-- The replies to several events. -/
def replies (w : World) : List Event → List (Option Outcome × List Call)
  | [] => []
  | e :: es => e.replies w ++ replies (e.after w) es

/-- Whether only late notifications are injected in the course of the events. -/
def LateAlong (w : World) : List Event → Prop
  | [] => True
  | e :: es => e.IsLate w ∧ LateAlong (e.after w) es

instance : ∀ (w : World) (es : List Event), Decidable (w.LateAlong es)
  | _, [] => isTrue trivial
  | w, e :: es =>
    have := instDecidableLateAlong (e.after w) es
    inferInstanceAs (Decidable (e.IsLate w ∧ LateAlong (e.after w) es))

variable {w w' : World} {name : String} {late : List (Nat × Notification)}

/-- The second world is the first one, but with late notifications out of a list, which are those that
were injected so far. -/
structure Lags (late : List (Nat × Notification)) (w w' : World) : Prop where
  stale : ∀ x ∈ late, w.Stale x.1 x.2
  twins : w.Twins (fun s n => !late.contains (s, n)) none w'

theorem Lags.ready (hl : w.Lags late w') (h : w.Sound) :
    w.session.Ready fun s n => !late.contains (s, n) := by
  intro name c hc
  refine ⟨h.machine hc, fun n hn => ?_⟩
  have hm : (c.bridge.serial, n) ∈ late := by simpa using hn
  exact ((hl.stale _ hm).late name c hc rfl).gone

theorem Lags.next (hl : w.Lags late w') (h : w.Sound) (m : Move) :
    (w.next m).Lags late (w'.next m) ∧ w'.reply m = w.reply m := by
  have ht := hl.twins.next h (hl.ready h) m
  have hr := hl.twins.reply h (hl.ready h) m
  rw [Move.asStrict_none] at ht hr
  exact ⟨⟨fun x hx => (hl.stale x hx).next h m, ht.1⟩, hr⟩

theorem Lags.inject (hl : w.Lags late w') (h : w.Sound) {foreign : Bool} {n : Notification}
    (hn : ∀ c ∈ w'.session.machine? name, c.IsLate n) :
    ∃ late', w.Lags late' (w'.inject name foreign n) := by
  rw [World.inject]
  cases hc : w.session.machine? name with
  | none =>
    rw [hl.twins.session.machine?_eq_none hc]
    exact ⟨late, hl⟩
  | some c =>
    obtain ⟨c', hc', ht⟩ := hl.twins.session.machine?_eq_some hc
    have hx := h.stale hc (ht.isLate_iff.1 (hn c' hc'))
    have hq : ∀ s n', !((c.bridge.serial, n) :: late).contains (s, n') → !late.contains (s, n') := by
      simp +contextual
    have hp := (hl.twins.session.mono hq).put
      ((ht.mono hq).inject (n := n) (h.machine hc) (by simp) foreign) name
    rw [Session.put_of_machine? hc] at hp
    rw [hc']
    refine ⟨(c.bridge.serial, n) :: late, fun x hm => ?_, hp, hl.twins.visits, hl.twins.owned⟩
    rcases List.mem_cons.1 hm with rfl | hm
    · exact hx
    · exact hl.stale x hm

theorem Lags.play (hl : w.Lags late w') (h : w.Sound) {es : List Event} (he : w'.LateAlong es) :
    (∃ late', (w.run (es.filterMap Event.move?)).Lags late' (w'.play es)) ∧
      w'.replies es = w.trace (fun w m => [w.reply m]) (es.filterMap Event.move?) := by
  induction es generalizing w w' late with
  | nil => exact ⟨⟨late, hl⟩, rfl⟩
  | cons e es ih =>
    cases e with
    | move m =>
      obtain ⟨hn, hr⟩ := hl.next h m
      obtain ⟨hp, hr'⟩ := ih hn (h.next m) he.2
      refine ⟨hp, ?_⟩
      rw [replies, List.filterMap_cons]
      exact congrArg₂ (· :: ·) hr hr'
    | inject name foreign n =>
      obtain ⟨late', hi⟩ := hl.inject h he.1
      exact ih hi h he.2

/-- Whatever late notifications are injected in the course of a run, the run without them makes the same
of all bridges, the host, the tapes and the journal, and of visits, and has the same replies. -/
theorem play_late {es : List Event} (h : LateAlong { } es) :
    (play { } es).session.bridges = (run { } (es.filterMap Event.move?)).session.bridges ∧
      (play { } es).session.outside.host = (run { } (es.filterMap Event.move?)).session.outside.host ∧
      (play { } es).session.outside.journal =
        (run { } (es.filterMap Event.move?)).session.outside.journal ∧
      (play { } es).session.outside.tapes = (run { } (es.filterMap Event.move?)).session.outside.tapes ∧
      (play { } es).visits = (run { } (es.filterMap Event.move?)).visits ∧
      replies { } es = trace { } (fun w m => [w.reply m]) (es.filterMap Event.move?) := by
  have hl : Lags [] { } { } := ⟨by simp, .refl _ _⟩
  obtain ⟨⟨late, hp⟩, hr⟩ := hl.play sound_empty h
  have ho := hp.twins.session.outside
  refine ⟨?_, ho.host, ho.journal, ho.tapes, hp.twins.visits, hr⟩
  ext1 name
  simp [hp.twins.session.bridges]

/-- An address is wrapped again after the first object was collected.  Then notifications of the first
registration come in for both this address and another one. -/
def belated : List Event :=
  [.move (.step (.host (.create { value := 1 } .object true))),
   .move (.step (.open "b" .standard .environment false)),
   .move (.enter "b"),
   .move (.act "b" (.wrap (some { value := 1 }) false none)),
   .move (.leave "b"),
   .move (.step (.collect "b")),
   .move (.reuse { value := 1 } .object true),
   .move (.enter "b"),
   .move (.act "b" (.wrap (some { value := 1 }) false none)),
   .inject "b" true ⟨{ value := 1 }, 1, false⟩,
   .inject "b" false ⟨{ value := 2 }, 1, true⟩,
   .move (.leave "b"),
   .inject "b" true ⟨{ value := 1 }, 1, false⟩,
   .move (.step (.collect "b"))]

theorem play_late_belated :
    LateAlong { } belated ∧
      (play { } belated).session.bridges = (run { } (belated.filterMap Event.move?)).session.bridges ∧
      replies { } belated = trace { } (fun w m => [w.reply m]) (belated.filterMap Event.move?) ∧
      (play { } belated).session.outside.host.isAlive { value := 1 } = false := by
  have h : LateAlong { } belated := by decide +kernel
  obtain ⟨hb, hh, -, -, -, hr⟩ := play_late h
  refine ⟨h, hb, hr, ?_⟩
  rw [hh]
  decide +kernel

end World

end NativeProxies
