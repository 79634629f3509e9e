import NativeProxies.Proofs.Ancestry
import NativeProxies.Proofs.Identity

/-!
# Converting values to objects

A value is accepted as an object if it is a proxy of the object whose reference was not given back, and
the object is of the required type.  Every other value is answered with a null pointer where that was
asked for, and with one failure otherwise (`Machine.converts_toNative`).  A conversion changes nothing but
what the catalog remembers.  An object that was made a value is got back from it, under every type that it
derives from (`World.converts_run`).
-/

namespace NativeProxies

theorem Heap.heldProxy?_eq_some_iff {h : Heap} {v : Value} {p : ProxyId} {r : ProxyState} :
    h.heldProxy? v = some (p, r) ↔ v = .proxy p ∧ h.proxy? p = some r ∧ r.released = false := by
  cases v with
  | proxy q =>
    simp only [heldProxy?, Value.proxy?, Option.bind_some, Option.map_eq_some_iff,
      Option.filter_eq_some_iff, Value.proxy.injEq, Prod.mk.injEq, Bool.not_eq_true']
    constructor
    · rintro ⟨r', ⟨hr, hrel⟩, rfl, rfl⟩
      exact ⟨rfl, hr, hrel⟩
    · rintro ⟨rfl, hr, hrel⟩
      exact ⟨r, ⟨hr, hrel⟩, rfl, rfl⟩
  | _ => simp [heldProxy?, Value.proxy?]

namespace Machine

variable {c c' : Machine} {a : Address} {p : ProxyId} {v : Value} {position : Nat}
  {need : Requirement} {expected : Option TypeId}

/-- A value stands for an object of the type that is expected, if one is. -/
def Accepts (c : Machine) (v : Value) (expected : Option TypeId) (a : Address) : Prop :=
  (∃ p, v = .proxy p ∧ c.heap.IsLive p a) ∧ ∀ t ∈ expected, c.conforms (c.host.typeOf a) t

/-- A value that is not accepted is answered with a null pointer. -/
def Excuses (v : Value) (need : Requirement) : Prop :=
  need.lenient ∨ need.optional ∧ v = .nil

/-- The result `r` of converting the value `v`. -/
structure Converts (c : Machine) (v : Value) (position : Nat) (need : Requirement)
    (r : Machine × Except Failure (Option Address)) : Prop where
  accepted : ∀ a, r.2 = .ok (some a) ↔ c.Accepts v need.expected a
  excused : r.2 = .ok none ↔ (∀ a, ¬c.Accepts v need.expected a) ∧ Excuses v need
  refused : r.2 = .error (.typeMismatch position (c.labelFor need.expected).2 v.typeName) ↔
    (∀ a, ¬c.Accepts v need.expected a) ∧ ¬Excuses v need
  memory : r.1.memory = c.memory
  outside : r.1.outside = c.outside
  counters : r.1.counters = c.counters
  recalls : c.Recalls r.1

theorem objectOf?_eq_some_iff : c.objectOf? v expected = some a ↔ c.Accepts v expected a := by
  unfold objectOf? Accepts Heap.IsLive
  rw [Option.filter_eq_some_iff, Option.map_eq_some_iff, matches?, Option.all_eq_true]
  apply and_congr_left'
  constructor
  · rintro ⟨⟨p, r⟩, hr, rfl⟩
    obtain ⟨rfl, hp, hrel⟩ := Heap.heldProxy?_eq_some_iff.1 hr
    exact ⟨p, rfl, r, hp, rfl, hrel⟩
  · rintro ⟨p, rfl, r, hp, rfl, hrel⟩
    exact ⟨(p, r), Heap.heldProxy?_eq_some_iff.2 ⟨rfl, hp, hrel⟩, rfl⟩

theorem objectOf?_eq_none_iff : c.objectOf? v expected = none ↔ ∀ a, ¬c.Accepts v expected a := by
  simp only [Option.eq_none_iff_forall_ne_some, ne_eq, objectOf?_eq_some_iff]

theorem Accepts.unique {b : Address} (ha : c.Accepts v expected a) (hb : c.Accepts v expected b) :
    a = b :=
  Option.some.inj ((objectOf?_eq_some_iff.2 ha).symm.trans (objectOf?_eq_some_iff.2 hb))

theorem not_accepts_nil (c : Machine) (expected : Option TypeId) (a : Address) :
    ¬c.Accepts .nil expected a := by
  rintro ⟨⟨p, hp, -⟩, -⟩
  cases hp

theorem optional_and_isNil_iff : (need.optional && v.isNil) = true ↔ need.optional ∧ v = .nil := by
  cases v <;> simp [Value.isNil]

/-- The three outcomes of a conversion. -/
theorem toNative_cases (c : Machine) (v : Value) (position : Nat) (need : Requirement) :
    (∃ a, c.Accepts v need.expected a ∧ (c.toNative v position need).2 = .ok (some a)) ∨
      ((∀ a, ¬c.Accepts v need.expected a) ∧ Excuses v need ∧
        (c.toNative v position need).2 = .ok none) ∨
      (∀ a, ¬c.Accepts v need.expected a) ∧ ¬Excuses v need ∧
        (c.toNative v position need).2 =
          .error (.typeMismatch position (c.labelFor need.expected).2 v.typeName) := by
  unfold toNative
  by_cases hn : (need.optional && v.isNil) = true
  · rw [if_pos hn]
    obtain ⟨ho, rfl⟩ := optional_and_isNil_iff.1 hn
    exact .inr (.inl ⟨not_accepts_nil c need.expected, .inr ⟨ho, rfl⟩, rfl⟩)
  · rw [if_neg hn]
    rw [optional_and_isNil_iff] at hn
    cases ho : c.objectOf? v need.expected with
    | some a => exact .inl ⟨a, objectOf?_eq_some_iff.1 ho, rfl⟩
    | none =>
      have hnot := objectOf?_eq_none_iff.1 ho
      dsimp only
      split_ifs with hl
      · exact .inr (.inl ⟨hnot, .inl hl, rfl⟩)
      · exact .inr (.inr ⟨hnot, not_or.2 ⟨hl, hn⟩, rfl⟩)

/-- Every conversion accepts, excuses or refuses, and changes nothing. -/
theorem converts_toNative (c : Machine) (v : Value) (position : Nat) (need : Requirement) :
    c.Converts v position need (c.toNative v position need) := by
  have hrec := recalls_toNative c v position need
  obtain ⟨k, hk, -⟩ := id hrec
  refine ⟨?_, ?_, ?_, by rw [hk]; rfl, by rw [hk]; rfl, by rw [hk]; rfl, hrec⟩
  all_goals
    rcases toNative_cases c v position need with ⟨b, hb, he⟩ | ⟨hnot, hx, he⟩ | ⟨hnot, hx, he⟩ <;>
    rw [he]
  -- accepted
  · intro a
    refine ⟨fun h => ?_, fun ha => by rw [ha.unique hb]⟩
    cases h
    exact hb
  · exact fun a => ⟨nofun, fun ha => absurd ha (hnot a)⟩
  · exact fun a => ⟨nofun, fun ha => absurd ha (hnot a)⟩
  -- excused
  · exact ⟨nofun, fun h => absurd hb (h.1 b)⟩
  · exact ⟨fun _ => ⟨hnot, hx⟩, fun _ => rfl⟩
  · exact ⟨nofun, fun h => absurd h.2 hx⟩
  -- refused
  · exact ⟨nofun, fun h => absurd hb (h.1 b)⟩
  · exact ⟨nofun, fun h => absurd hx h.2⟩
  · exact ⟨fun _ => ⟨hnot, hx⟩, fun _ => rfl⟩

/-- Both type tests of a bridge accept every type that a type derives from. -/
theorem conforms_of_derives {t u : TypeId} (h : c.types.Derives t u) : c.conforms t u := by
  unfold conforms
  split_ifs
  · exact TypeTable.descends_iff.2 h
  · exact h.conforms

/-- The object that was made a value is got back from it. -/
theorem toNative_toValue (h : c.Sound) (a : Address) (handedOver : Bool) :
    ∃ c' v, c.toValue (some a) handedOver = (c', .ok v) ∧
      ∀ position need, (∀ t ∈ need.expected, c.types.Derives (c.host.typeOf a) t) →
        (c'.toNative v position need).2 = .ok (some a) := by
  obtain ⟨-, -, p, hp, hlive⟩ := wrap_spec h.memory a handedOver
  have halike := alike_wrap h a handedOver
  refine ⟨(c.wrap a handedOver).1, .proxy p, ?_, fun position need hneed => ?_⟩
  · rw [toValue, hp]
    rfl
  · refine ((converts_toNative _ _ position need).accepted a).2 ⟨⟨p, rfl, hlive⟩, fun t ht => ?_⟩
    apply conforms_of_derives
    rw [halike.types, halike.typeOf]
    exact hneed t ht

end Machine

namespace World

variable {ms : List Move} {name : String} {c : Machine}

/-- At any time of a run, a bridge accepts the proxies of objects of the type that is expected, and no
other value; and what it made of an object, with the reference handed over or not, it accepts as the
object under every type that the object derives from.

The type tests, and the names in the failures, come from walks to the ancestors of a type.  Where the chain
of parents ends (`TypeTable.Ends`) these are walks along the whole chain.  Where it does not, as it may be
if a class was derived from the tag that it got itself, a walk without a bound would have no end unless it
found what it looks for; the answer here is that of `TypeTable.ancestry`, which stops. -/
theorem converts_run (hc : (run { } ms).session.machine? name = some c) :
    (∀ v position need, c.Converts v position need (c.toNative v position need)) ∧
      ∀ a handedOver, ∃ c' v, c.toValue (some a) handedOver = (c', .ok v) ∧
        ∀ position need, (∀ t ∈ need.expected, c.types.Derives (c.host.typeOf a) t) →
          (c'.toNative v position need).2 = .ok (some a) :=
  ⟨c.converts_toNative, Machine.toNative_toValue ((sound_empty.run ms).machine hc)⟩

/-- Two widgets, one of which is given back again. -/
def converted : List Move :=
  [.step (.host (.addClass "Widget" .object)),
   .step (.host (.addInterface "Drawable")),
   .step (.host (.addClass "Button" ⟨1⟩)),
   .step (.host (.addConformance ⟨1⟩ ⟨2⟩)),
   .step (.host (.create { value := 1 } ⟨3⟩ false)),
   .step (.host (.create { value := 2 } ⟨1⟩ false)),
   .step (.open "b" .standard .environment false),
   .step (.register "b" { name := "Gtk.Widget", tag := ⟨1⟩ }),
   .enter "b",
   .act "b" (.wrap (some { value := 1 }) false (some "x")),
   .act "b" (.wrap (some { value := 2 }) false (some "y")),
   .act "b" (.dismiss (.var "y"))]

theorem converts_run_converted :
    ∃ c, (run { } converted).session.machine? "b" = some c ∧
      (c.toNative (.proxy 1) 1 { expected := some ⟨2⟩ }).2 = .ok (some { value := 1 }) ∧
      (c.toNative (.proxy 3) 2 { expected := some ⟨3⟩ }).2 =
        .error (.typeMismatch 2 "Gtk.Widget(Button)" "proxy") ∧
      (c.toNative .nil 1 { optional := true }).2 = .ok none ∧
      ∃ c' v, c.toValue (some { value := 1 }) true = (c', .ok v) ∧
        (c'.toNative v 1 { expected := some .object }).2 = .ok (some { value := 1 }) := by
  let c := ((run { } converted).session.machine? "b").get (by decide +kernel)
  have hc : (run { } converted).session.machine? "b" = some c := (Option.some_get _).symm
  obtain ⟨hconv, hback⟩ := converts_run hc
  refine ⟨c, hc, ?_, ?_, ?_, ?_⟩
  · refine ((hconv (.proxy 1) 1 { expected := some ⟨2⟩ }).accepted _).2 ⟨⟨1, rfl, ?_⟩, ?_⟩
    · exact ⟨⟨{ value := 1 }, false, 0⟩, by decide +kernel, rfl, rfl⟩
    · intro t ht
      cases ht
      decide +kernel
  · have hlabel : (c.labelFor (some ⟨3⟩)).2 = "Gtk.Widget(Button)" := by decide +kernel
    have hreleased : c.heap.proxy? 3 = some ⟨{ value := 2 }, true, 2⟩ := by decide +kernel
    rw [← hlabel]
    refine (hconv (.proxy 3) 2 { expected := some ⟨3⟩ }).refused.2 ⟨?_, ?_⟩
    · rintro a ⟨⟨p, hp, r, hr, -, hrel⟩, -⟩
      cases hp
      cases hreleased.symm.trans hr
      cases hrel
    · simp [Machine.Excuses]
  · refine (hconv .nil 1 { optional := true }).excused.2 ⟨?_, .inr ⟨rfl, rfl⟩⟩
    exact c.not_accepts_nil none
  · obtain ⟨c', v, hv, hneed⟩ := hback { value := 1 } true
    refine ⟨c', v, hv, hneed 1 { expected := some .object } fun t ht => ?_⟩
    cases ht
    exact TypeTable.descends_iff.1 (by decide +kernel)

end World

end NativeProxies
