import NativeProxies.Proofs.World

/-!
# Candid runs

In a candid run the code around the bridges gives up only references that it owns and that no observer
of its own depends on, makes instances of defined types only, and no script makes up a notification
(`World.Candid`).  Then every object of the base kind has a tracked account at any time
(`World.Watched`): an observer's toggle reference is never dropped behind its back, so the notices
that each bridge gets suffice to know whether there is another reference than its own.
-/

namespace NativeProxies

/-- How many references to an object belong to observers. -/
def Host.tied (h : Host) (a : Address) : Nat := (h.watchers a).countP fun w => !w.isBridge

/-- The base kind is defined, and so are the types of all instances. -/
structure Host.Typed (h : Host) : Prop where
  object : (h.types.get? .object).isSome
  isObject : h.types.isObject .object
  tags : ∀ a t, h.tag? a = some t → (h.types.get? t).isSome

theorem Host.Typed.defined {h : Host} (ht : h.Typed) (a : Address) :
    (h.types.get? (h.typeOf a)).isSome := by
  rw [Host.typeOf_eq]
  cases hg : h.tag? a with
  | none => exact ht.object
  | some t => exact ht.tags a t hg

namespace Move

/-- The step on the host that a move carries out. -/
def hostStep? : Move → Option HostStep
  | .act _ (.host h) => some h
  | .step (.host h) => some h
  | _ => none

/-- The type of the instance that a move makes. -/
def made? : Move → Option TypeId
  | .act _ (.host (.create _ t _)) => some t
  | .step (.host (.create _ t _)) => some t
  | .reuse _ t _ => some t
  | _ => none

/-- The address that a move uses again. -/
def reused? : Move → Option Address
  | .reuse a _ _ => some a
  | _ => none

/-- The notification that a script hands to its bridge, by the name of the bridge. -/
def told? : Move → Option (String × Notification)
  | .act name (.notify n) => some (name, n)
  | _ => none

end Move

namespace World

variable {w : World} {m : Move} {a : Address}

/-- An instance that a move makes is of a type that is defined. -/
def Defined (w : World) (m : Move) : Prop :=
  ∀ t ∈ m.made?, (w.session.outside.host.types.get? t).isSome

/-- An address is used again only when no bridge has an entry for it. -/
def Vacant (w : World) (m : Move) : Prop :=
  ∀ a ∈ m.reused?, w.session.outside.host.isAlive a = false → w.holders a = 0

/-- A notification of a script under a current registration is true. -/
def Genuine (w : World) (m : Move) : Prop :=
  ∀ x ∈ m.told?, ∀ s ∈ w.scope? x.1,
    s.machine.cache.generation x.2.object = some x.2.generation →
      x.2.isLast = decide (s.machine.host.refs x.2.object < 2)

/-- The rule of the code around the bridges and of scripts. -/
structure Candid (w : World) (m : Move) : Prop where
  affords : w.Affords Host.tied m
  defined : w.Defined m
  vacant : w.Vacant m
  genuine : w.Genuine m

instance (w : World) (m : Move) : Decidable (w.Defined m) :=
  inferInstanceAs (Decidable (∀ t ∈ m.made?, (w.session.outside.host.types.get? t).isSome))

instance (w : World) (m : Move) : Decidable (w.Vacant m) :=
  inferInstanceAs (Decidable (∀ a ∈ m.reused?, w.session.outside.host.isAlive a = false →
    w.holders a = 0))

instance (w : World) (m : Move) : Decidable (w.Genuine m) :=
  inferInstanceAs (Decidable (∀ x ∈ m.told?, ∀ s ∈ w.scope? x.1,
    s.machine.cache.generation x.2.object = some x.2.generation →
      x.2.isLast = decide (s.machine.host.refs x.2.object < 2)))

instance (w : World) (m : Move) : Decidable (w.Candid m) :=
  decidable_of_iff (w.Affords Host.tied m ∧ w.Defined m ∧ w.Vacant m ∧ w.Genuine m)
    ⟨fun h => ⟨h.1, h.2.1, h.2.2.1, h.2.2.2⟩, fun h => ⟨h.1, h.2, h.3, h.4⟩⟩

/-! ## Types of instances -/

theorem evolves_act {s : Scope} (hs : s.Sound) {action : Action} (ha : ∀ t, action ≠ .host t) :
    s.machine.outside.Evolves (action.run s).1.machine.outside := by
  have hm := hs.machine
  rcases Action.run_cases hs action with ⟨hq, -⟩ | ⟨n, rfl⟩ | rfl | ⟨b, handedOver, name, rfl, -, he⟩ |
    ⟨e, s', v, rfl, hq, he⟩ | ⟨t, rfl⟩
  · exact hq.machine.alike.outside
  · exact (s.machine.toggles_applyNotification n).alike.outside
  · exact (Machine.alike_catchUp hm).outside
  · have hr : (Action.run s (.wrap (some b) handedOver name)).1.machine =
        (s.machine.wrap b handedOver).1 := by
      rw [he, Action.machine_afterValue]
      rfl
    rw [hr]
    exact (Machine.alike_wrap hm b handedOver).outside
  · rw [he, ← hq.machine.outside]
    exact (Machine.alike_dismiss hq.sound.machine v).outside
  · exact absurd rfl (ha t)

/-- What a move does to types and tags: types are defined, or an instance is made. -/
inductive Develops (m : Move) (host host' : Host) : Prop
  | types : host.types.Extends host'.types → (∀ b, host'.tag? b = host.tag? b) →
    Develops m host host'
  | made {a : Address} {t : TypeId} : m.made? = some t → host'.types = host.types →
    (∀ b, host'.tag? b = if b = a then some t else host.tag? b) →
    (host.tag? a = none ∨ ∃ floating, m = .reuse a t floating ∧ host.isAlive a = false) →
    Develops m host host'

theorem Develops.extends {host host' : Host} (hd : Develops m host host') :
    host.types.Extends host'.types := by
  cases hd with
  | types he _ => exact he
  | made _ htypes _ _ => exact htypes ▸ .refl _

theorem develops_of_evolves {o o' : Outside} (h : o.Evolves o') : Develops m o.host o'.host :=
  .types (h.types ▸ .refl _) h.tag?

theorem develops_hostStep {t : HostStep} (hm : m.hostStep? = some t) (o : Outside) :
    Develops m o.host (t.run o).1.host := by
  rcases HostStep.run_cases o t with he | ⟨a, ty, floating, rfl, hi, he⟩ | he
  · exact develops_of_evolves he
  · rw [Host.contains_instances, Option.isSome_eq_false_iff, Option.isNone_iff_eq_none] at hi
    rw [he]
    refine .made ?_ rfl (fun b => Host.tag?_create _ a b ty floating) (.inl hi)
    cases m with
    | act name action => cases action <;> simp_all [Move.hostStep?, Move.made?]
    | step t => cases t <;> simp_all [Move.hostStep?, Move.made?]
    | _ => simp [Move.hostStep?] at hm
  · rw [he]
    exact .types (HostStep.extends_develop _ t) fun _ => rfl

theorem develops_next (h : w.Sound) (m : Move) :
    Develops m w.session.outside.host (w.next m).session.outside.host := by
  have hb := w.becomes_next m
  generalize w.next m = w' at hb
  cases hb with
  | idle => exact develops_of_evolves (.refl _)
  | enter hc =>
    rw [← Session.outside_of_machine? hc]
    exact develops_of_evolves (Machine.alike_catchUp (h.machine hc)).outside
  | @act name s action hs =>
    rw [← Session.outside_of_machine? (machine?_of_scope? hs)]
    by_cases ht : ∃ t, action = .host t
    · obtain ⟨t, rfl⟩ := ht
      exact develops_hostStep (t := t) rfl s.machine.outside
    · exact develops_of_evolves (evolves_act (h.scope hs) fun t he => ht ⟨t, he⟩)
  | leave hs =>
    rw [← Session.outside_of_machine? (machine?_of_scope? hs)]
    exact develops_of_evolves (Machine.alike_leave (h.scope hs).machine).outside
  | tend hn hc hv ht =>
    rw [← Session.outside_of_machine? hc]
    exact develops_of_evolves (Sound.tends (h.machine hc) ht).2.1
  | «open» => exact .types (.refl _) fun _ => rfl
  | close hc hv =>
    rw [← Session.outside_of_machine? hc]
    exact develops_of_evolves (Machine.evolves_close (h.machine hc))
  | host t => exact develops_hostStep rfl _
  | @reuse a t floating ha =>
    exact .made rfl rfl (fun b => Host.tag?_create _ a b t floating) (.inr ⟨floating, rfl, ha⟩)

theorem Develops.typed {host host' : Host} (hd : Develops m host host')
    (hm : ∀ t ∈ m.made?, (host.types.get? t).isSome) (ht : host.Typed) : host'.Typed := by
  cases hd with
  | types he htag =>
    refine ⟨he.defined _ ht.object, (he.isObject ht.object).trans ht.isObject, fun a t hat => ?_⟩
    exact he.defined t (ht.tags a t (htag a ▸ hat))
  | @made a t hmade htypes htag hnew =>
    refine ⟨htypes ▸ ht.object, htypes ▸ ht.isObject, fun b u hu => ?_⟩
    rw [htag] at hu
    rw [htypes]
    split_ifs at hu with hb
    · cases hu
      exact hm _ hmade
    · exact ht.tags b u hu

/-- An object of the base kind was one before, or is made at an address that is used again. -/
theorem Develops.isObject {host host' : Host} (hd : Develops m host host') (ht : host.Typed)
    (ha : host'.types.isObject (host'.typeOf a)) :
    host.types.isObject (host.typeOf a) ∨
      ∃ t floating, m = .reuse a t floating ∧ host.isAlive a = false := by
  cases hd with
  | types he htag =>
    have hty : host'.typeOf a = host.typeOf a := by rw [Host.typeOf_eq, htag, Host.typeOf_eq]
    rw [hty, he.isObject (ht.defined a)] at ha
    exact .inl ha
  | @made b t hmade htypes htag hnew =>
    by_cases hb : a = b
    · subst hb
      rcases hnew with hn | ⟨floating, rfl, hdead⟩
      · left
        rw [Host.typeOf_eq, hn]
        exact ht.isObject
      · exact .inr ⟨t, floating, rfl, hdead⟩
    · have hty : host'.typeOf a = host.typeOf a := by
        rw [Host.typeOf_eq, htag, if_neg hb, Host.typeOf_eq]
      rw [hty, htypes] at ha
      exact .inl ha

/-! ## Tracked accounts -/

/-- The account of every object of the base kind is tracked, also before there is one. -/
def Watched (w : World) : Prop :=
  ∀ a, w.session.outside.host.types.isObject (w.session.outside.host.typeOf a) →
    (w.account a).Kept true

theorem Candid.heeds (hm : w.Candid m)
    (ha : w.session.outside.host.types.isObject (w.session.outside.host.typeOf a))
    (hx : (w.account a).Kept true) : w.Heeds true Host.tied m a where
  returns name c hc := by
    intro e he
    have hh : c.holding? a = some ⟨c.bridge.serial, e.toggle, c.cache.isStrong a⟩ := by
      rw [Machine.holding?, he, Option.map_some]
    obtain ⟨g, -, hg, -⟩ := (hx.tracked rfl).heard _ (Session.mem_holdings.2 ⟨name, c, hc, hh⟩)
    have ho := Session.outside_of_machine? hc
    rw [← ho] at ha
    exact ⟨.inl ha, fun _ => ⟨by rw [show e.toggle = some g from hg, Option.isSome_some], ha⟩⟩
  acts name action s he hs := by
    subst he
    have ho := Session.outside_of_machine? (machine?_of_scope? hs)
    rw [← ho] at ha
    refine ⟨hm.affords s hs, fun handedOver v _ _ => ⟨.inl ha, fun _ => ha⟩, fun n hn _ hna hg => ?_⟩
    subst hn hna
    exact hm.genuine (name, n) rfl s hs hg
  hosts h he := by
    subst he
    exact hm.affords
  tied _ := Nat.le_refl _
  reuse t floating he hdead := hx.balanced.holdings_eq_nil (Host.counts?_of_dead hdead)

theorem watched_next (h : w.Sound) (ht : w.session.outside.host.Typed) (hw : w.Watched)
    (hm : w.Candid m) : (w.next m).Watched := by
  intro a ha
  rcases (develops_next h m).isObject ht ha with ha | ⟨t, floating, rfl, hdead⟩
  · exact kept_next h (hw a ha) (hm.heeds ha (hw a ha))
  · have hv := hm.vacant a rfl hdead
    rw [next, if_neg (by simp [hdead])]
    exact kept_reuse (List.eq_nil_of_length_eq_zero ((length_holdings w a).trans hv)) t floating

theorem typed_empty : Host.Typed { } := by
  refine ⟨rfl, rfl, fun a t ht => ?_⟩
  simp [Host.tag?] at ht

/-- Every candid move keeps the accounts of all objects of the base kind tracked. -/
theorem watched_run {ms : List Move} (h : Along Candid { } ms) :
    (run { } ms).session.outside.host.Typed ∧ (run { } ms).Watched := by
  have hp := h.preserves
    (P := fun w => w.Sound ∧ w.session.outside.host.Typed ∧ w.Watched)
    (fun w m hw hm => ⟨hw.1.next m, (develops_next hw.1 m).typed hm.defined hw.2.1,
      watched_next hw.1 hw.2.1 hw.2.2 hm⟩)
    ⟨sound_empty, typed_empty, fun a _ => kept_empty true a⟩
  exact hp.2

end World

end NativeProxies
