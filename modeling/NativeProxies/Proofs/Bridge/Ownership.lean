import NativeProxies.Bridge.Ownership
import NativeProxies.Proofs.Outside

/-!
# References taken and given back

Asking the catalog changes nothing but what it remembers (`Machine.Recalls`), and what it remembers
changes no answer.  Hence taking a reference and giving one back come down to one call on the route
of the type, and all operations of a bridge find the same routes (`Machine.Alike`).

For the account of an object this means: giving back the reference behind an entry is a deed that
ends the entry (`Machine.deeds_giveBack`), claiming a reference makes one loose
(`Machine.deeds_claim`), and neither touches the account of another object.
-/

namespace NativeProxies

namespace Catalog

variable {types : TypeTable} {k k₁ k₂ : Catalog}

/-- Two catalogs hold the same descriptors and locate the same ones for the types of a table. -/
structure Alike (types : TypeTable) (k k' : Catalog) : Prop where
  descriptors : k'.descriptors = k.descriptors
  names : k'.names = k.names
  locate : ∀ t, (k'.locate types t).2 = (k.locate types t).2

theorem Alike.refl (types : TypeTable) (k : Catalog) : k.Alike types k := ⟨rfl, rfl, fun _ => rfl⟩

theorem Alike.trans (h₁ : k.Alike types k₁) (h₂ : k₁.Alike types k₂) : k.Alike types k₂ :=
  ⟨h₂.descriptors.trans h₁.descriptors, h₂.names.trans h₁.names,
    fun t => (h₂.locate t).trans (h₁.locate t)⟩

theorem locate_snd (types : TypeTable) (k : Catalog) (t : TypeId) :
    (k.locate types t).2 = k.memo[t]?.getD (k.nearest types t) := by
  rw [locate]
  cases k.memo[t]? <;> rfl

theorem alike_locate (types : TypeTable) (k : Catalog) (t : TypeId) :
    k.Alike types (k.locate types t).1 := by
  cases hm : k.memo[t]? with
  | some found => simpa [locate, hm] using Alike.refl types k
  | none =>
    have he : (k.locate types t).1 = { k with memo := k.memo.insert t (k.nearest types t) } := by
      simp [locate, hm]
    rw [he]
    refine ⟨rfl, rfl, fun u => ?_⟩
    rw [locate_snd, locate_snd]
    by_cases hu : t = u
    · subst hu
      simp [hm]
    · have hu' : (k.memo.insert t (k.nearest types t))[u]? = k.memo[u]? := by grind
      rw [hu']
      rfl

end Catalog

namespace Machine

variable {c c' c₁ c₂ : Machine} {a b : Address} {t : TypeId} {d : Transfer}

/-- The second machine is the first one after questions to its catalog. -/
def Recalls (c c' : Machine) : Prop :=
  ∃ k, c' = c.setCatalog k ∧ c.bridge.catalog.Alike c.types k

namespace Recalls

theorem refl (c : Machine) : c.Recalls c := ⟨c.bridge.catalog, rfl, .refl _ _⟩

theorem trans (h₁ : c.Recalls c₁) (h₂ : c₁.Recalls c₂) : c.Recalls c₂ := by
  obtain ⟨k₁, rfl, hk₁⟩ := h₁
  obtain ⟨k₂, rfl, hk₂⟩ := h₂
  exact ⟨k₂, rfl, hk₁.trans hk₂⟩

end Recalls

theorem recalls_locate (c : Machine) (t : TypeId) : c.Recalls (c.locate t).1 :=
  ⟨_, rfl, Catalog.alike_locate _ _ _⟩

theorem recalls_hook? (c : Machine) (t : TypeId) (d : Transfer) : c.Recalls (c.hook? t d).1 :=
  ⟨_, rfl, Catalog.alike_locate _ _ _⟩

theorem recalls_functionRoute (c : Machine) (t : TypeId) (d : Transfer) :
    c.Recalls (c.functionRoute t d).1 := by
  rw [functionRoute]
  split
  · exact .refl c
  · exact recalls_hook? c t d

theorem recalls_takeRoute (c : Machine) (t : TypeId) : c.Recalls (c.takeRoute t).1 := by
  rw [takeRoute]
  split_ifs
  · exact .refl c
  · exact recalls_functionRoute c t .take

theorem recalls_giveBackRoute (c : Machine) (t : TypeId) (g : Option Generation) :
    c.Recalls (c.giveBackRoute t g).1 := by
  rw [giveBackRoute]
  split_ifs
  · exact .refl c
  · exact recalls_functionRoute c t .giveBack

/-- The second machine is the bridge of the first one, later on: it takes and gives back references
to instances on the same routes. -/
structure Alike (c c' : Machine) : Prop where
  serial : c'.bridge.serial = c.bridge.serial
  responder : c'.bridge.responder = c.bridge.responder
  catalog : c.bridge.catalog.Alike c.types c'.bridge.catalog
  outside : c.outside.Evolves c'.outside

namespace Alike

theorem refl (c : Machine) : c.Alike c := ⟨rfl, rfl, .refl _ _, .refl _⟩

theorem trans (h₁ : c.Alike c₁) (h₂ : c₁.Alike c₂) : c.Alike c₂ := by
  have ht : c₁.types = c.types := h₁.outside.types
  exact ⟨h₂.serial.trans h₁.serial, h₂.responder.trans h₁.responder,
    h₁.catalog.trans (ht ▸ h₂.catalog), h₁.outside.trans h₂.outside⟩

variable (h : c.Alike c')
include h

theorem types : c'.types = c.types := h.outside.types

theorem typeOf (a : Address) : c'.host.typeOf a = c.host.typeOf a := h.outside.typeOf a

theorem functionRoute (t : TypeId) (d : Transfer) :
    (c'.functionRoute t d).2 = (c.functionRoute t d).2 := by
  rw [Machine.functionRoute, Machine.functionRoute, h.types]
  cases (c.types.effectiveFunctions t).bind fun f => f.entry? d with
  | some e => rfl
  | none => simp only [hook?, Catalog.hook?, h.types, h.catalog.locate]

end Alike

theorem Recalls.alike (h : c.Recalls c') : c.Alike c' := by
  obtain ⟨k, rfl, hk⟩ := h
  exact ⟨rfl, rfl, hk, .refl _⟩

theorem alike_bump (c : Machine) (k : Counter) : c.Alike (c.bump k) :=
  ⟨rfl, rfl, .refl _ _, .refl _⟩

theorem alike_call {route : Route} (hr : c.outside.Registered route) (a : Address) :
    c.Alike (c.call route a) :=
  ⟨rfl, rfl, .refl _ _, Outside.evolves_call _ hr a⟩

/-! ## Routes -/

/-- Both routes of a type are there, and each moves one reference. -/
def Serves (c : Machine) (t : TypeId) : Prop :=
  c.types.isObject t ∨
    ((c.functionRoute t .take).2.bind Route.change? = some .take ∧
      (c.functionRoute t .giveBack).2.bind Route.change? = some .drop)

instance (c : Machine) (t : TypeId) : Decidable (c.Serves t) :=
  inferInstanceAs (Decidable (_ ∨ _))

theorem Alike.serves (h : c.Alike c') (hs : c.Serves t) : c'.Serves t := by
  rw [Serves, h.types, h.functionRoute, h.functionRoute]
  exact hs

theorem takeRoute_of_isObject (h : c.types.isObject t) :
    (c.takeRoute t).2 = some (.method .sink) := by
  rw [takeRoute, if_pos h]

theorem giveBackRoute_of_isObject (h : c.types.isObject t) (g : Option Generation) :
    (c.giveBackRoute t g).2 =
      some (.method (g.elim .drop fun g => .unwatch (.bridge c.bridge.serial g))) := by
  rw [giveBackRoute, if_pos h]

theorem Serves.takeRoute (h : c.Serves t) (ht : c.types.isObject t = false) :
    (c.takeRoute t).2.bind Route.change? = some .take := by
  rcases h with h | h
  · simp [ht] at h
  · rw [Machine.takeRoute, ht]
    exact h.1

theorem Serves.giveBackRoute (h : c.Serves t) {g : Option Generation}
    (hg : ¬(g.isSome ∧ c.types.isObject t)) :
    (c.giveBackRoute t g).2.bind Route.change? = some .drop := by
  cases ht : c.types.isObject t with
  | true =>
    have hg : g = none := by simpa [ht] using hg
    rw [giveBackRoute_of_isObject ht, hg]
    rfl
  | false =>
    rcases h with h | h
    · simp [ht] at h
    · rw [Machine.giveBackRoute, ht]
      exact h.2

theorem functionRoute_ne_method {route : Route} (h : (c.functionRoute t d).2 = some route)
    (r : RefChange) : route ≠ .method r := by
  rintro rfl
  rw [functionRoute] at h
  split at h
  · simp at h
  · simp at h

theorem registered_takeRoute {route : Route} (h : (c.takeRoute t).2 = some route) :
    c.outside.Registered route := by
  rintro s g rfl
  rw [takeRoute] at h
  split_ifs at h
  · simp at h
  · exact absurd rfl (functionRoute_ne_method h _)

theorem registered_giveBackRoute {g : Option Generation} {route : Route}
    (h : (c.giveBackRoute t g).2 = some route) : c.outside.Registered route := by
  rintro s g' rfl
  rw [giveBackRoute] at h
  split_ifs at h
  · cases g <;> simp at h
  · exact absurd rfl (functionRoute_ne_method h _)

/-! ## Giving back -/

/-- Giving back a reference is a call on the route, or a leak where there is none. -/
theorem giveBack_eq (c : Machine) (a : Address) (g : Option Generation) :
    ∃ c₁, c.Recalls c₁ ∧ c.giveBack a g =
      match (c.giveBackRoute (c.host.typeOf a) g).2 with
      | some route => (c₁.call route a).bump .releases
      | none => c₁.bump .leaks := by
  refine ⟨_, recalls_giveBackRoute c (c.host.typeOf a) g, ?_⟩
  rw [giveBack, returnReference]
  cases (c.giveBackRoute (c.host.typeOf a) g).2 <;> rfl

theorem outside_giveBack (c : Machine) (a : Address) (g : Option Generation) :
    (c.giveBack a g).outside = (c.giveBackRoute (c.host.typeOf a) g).2.elim c.outside fun route =>
      c.outside.call c.bridge.serial route a := by
  obtain ⟨_, ⟨k, rfl, -⟩, he⟩ := c.giveBack_eq a g
  rw [he]
  cases (c.giveBackRoute (c.host.typeOf a) g).2 <;> rfl

/-- Giving back a reference counts a release, or a leak where there is no route. -/
theorem bridge_giveBack (c : Machine) (a : Address) (g : Option Generation) :
    ∃ k, (c.giveBack a g).bridge =
      { c.bridge with
        catalog := k
        counters := c.bridge.counters.bump
          (if (c.giveBackRoute (c.host.typeOf a) g).2.isSome then .releases else .leaks) } := by
  obtain ⟨_, ⟨k, rfl, -⟩, he⟩ := c.giveBack_eq a g
  refine ⟨k, ?_⟩
  rw [he]
  cases (c.giveBackRoute (c.host.typeOf a) g).2 <;> rfl

@[simp] theorem memory_giveBack (c : Machine) (a : Address) (g : Option Generation) :
    (c.giveBack a g).memory = c.memory := by
  obtain ⟨_, ⟨k, rfl, -⟩, he⟩ := c.giveBack_eq a g
  rw [he]
  split <;> rfl

theorem alike_giveBack (c : Machine) (a : Address) (g : Option Generation) :
    c.Alike (c.giveBack a g) := by
  obtain ⟨c₁, hr, he⟩ := c.giveBack_eq a g
  rw [he]
  split
  · next route h =>
    have hg := registered_giveBackRoute h
    obtain ⟨k, rfl, hk⟩ := hr
    have hk := Recalls.alike ⟨k, rfl, hk⟩
    exact hk.trans ((alike_call (c := c.setCatalog k) hg a).trans (alike_bump _ _))
  · exact hr.alike.trans (alike_bump _ _)

theorem account_giveBack_of_ne (hb : b ≠ a) (g : Option Generation) (l : Nat)
    (hs : List Holding) :
    (c.giveBack a g).outside.account b l hs = c.outside.account b l hs := by
  obtain ⟨_, ⟨k, rfl, -⟩, he⟩ := c.giveBack_eq a g
  rw [he]
  split
  · exact Outside.account_call_of_ne hb _ _ _ _
  · rfl

theorem account_giveBack_self {g : Option Generation} {r : RefChange}
    (hr : (c.giveBackRoute (c.host.typeOf a) g).2.bind Route.change? = some r) (l : Nat)
    (hs : List Holding) {l' : Nat} {hs' : List Holding} :
    (c.giveBack a g).outside.account a l' hs' = (c.outside.account a l hs).change r l' hs' := by
  obtain ⟨_, ⟨k, rfl, -⟩, he⟩ := c.giveBack_eq a g
  obtain ⟨route, hroute, hr⟩ := Option.bind_eq_some_iff.1 hr
  rw [he, hroute]
  exact Outside.account_call_self _ _ hr a

/-- Giving back the reference behind an entry ends the entry. -/
theorem deeds_giveBack {fair strong : Bool} {g : Option Generation} (l : Nat) (hs : List Holding)
    (hc : c.Serves (c.host.typeOf a))
    (hf : fair → g.isSome ∧ c.types.isObject (c.host.typeOf a)) :
    Deeds fair (c.outside.account a l (⟨c.bridge.serial, g, strong⟩ :: hs))
      ((c.giveBack a g).outside.account a l hs) := by
  by_cases hg : g.isSome ∧ c.types.isObject (c.host.typeOf a)
  · obtain ⟨n, rfl⟩ := Option.isSome_iff_exists.1 hg.1
    have hr : (c.giveBackRoute (c.host.typeOf a) (some n)).2.bind Route.change? =
        some (.unwatch (.bridge c.bridge.serial n)) := by
      rw [giveBackRoute_of_isObject hg.2]
      rfl
    refine .single ?_
    rw [account_giveBack_self hr l (⟨c.bridge.serial, some n, strong⟩ :: hs)]
    exact .retire _ n strong hs rfl
  · have hf : fair = false := by
      by_contra h
      exact hg (hf (by simpa using h))
    refine .trans (.single (.disown _ g strong hs hf rfl)) (.single ?_)
    rw [account_giveBack_self (hc.giveBackRoute hg) (l + 1) hs]
    exact .drop (by simp [hf]) (Nat.succ_pos l)

/-- Giving back a loose reference. -/
theorem deeds_giveBack_loose {fair : Bool} {l : Nat} {hs : List Holding} (hl : 0 < l)
    (hf : fair → (c.outside.account a l hs).recorded < l) (hc : c.Serves (c.host.typeOf a)) :
    Deeds fair (c.outside.account a l hs) ((c.giveBack a none).outside.account a (l - 1) hs) := by
  refine .single ?_
  rw [account_giveBack_self (hc.giveBackRoute (by simp))]
  exact .drop hf hl

/-! ## Claiming -/

theorem claim_eq (c : Machine) (a : Address) :
    ∃ c₁, c.Recalls c₁ ∧ c.claim a =
      match (c.takeRoute (c.host.typeOf a)).2 with
      | some route => (c₁.call route a, true)
      | none => (c₁, false) := by
  refine ⟨_, recalls_takeRoute c (c.host.typeOf a), ?_⟩
  rw [claim, takeReference]
  cases (c.takeRoute (c.host.typeOf a)).2 <;> rfl

theorem snd_claim (c : Machine) (a : Address) :
    (c.claim a).2 = (c.takeRoute (c.host.typeOf a)).2.isSome := by
  obtain ⟨_, -, he⟩ := c.claim_eq a
  rw [he]
  cases (c.takeRoute (c.host.typeOf a)).2 <;> rfl

theorem outside_claim (c : Machine) (a : Address) :
    (c.claim a).1.outside = (c.takeRoute (c.host.typeOf a)).2.elim c.outside fun route =>
      c.outside.call c.bridge.serial route a := by
  obtain ⟨_, ⟨k, rfl, -⟩, he⟩ := c.claim_eq a
  rw [he]
  cases (c.takeRoute (c.host.typeOf a)).2 <;> rfl

@[simp] theorem memory_claim (c : Machine) (a : Address) : (c.claim a).1.memory = c.memory := by
  obtain ⟨_, ⟨k, rfl, -⟩, he⟩ := c.claim_eq a
  rw [he]
  split <;> rfl

theorem alike_claim (c : Machine) (a : Address) : c.Alike (c.claim a).1 := by
  obtain ⟨c₁, hr, he⟩ := c.claim_eq a
  rw [he]
  split
  · next route h =>
    have hg := registered_takeRoute h
    obtain ⟨k, rfl, hk⟩ := hr
    exact (Recalls.alike ⟨k, rfl, hk⟩).trans (alike_call (c := c.setCatalog k) hg a)
  · exact hr.alike

theorem account_claim_of_ne (hb : b ≠ a) (l : Nat) (hs : List Holding) :
    (c.claim a).1.outside.account b l hs = c.outside.account b l hs := by
  obtain ⟨_, ⟨k, rfl, -⟩, he⟩ := c.claim_eq a
  rw [he]
  split
  · exact Outside.account_call_of_ne hb _ _ _ _
  · rfl

theorem account_claim_self {r : RefChange}
    (hr : (c.takeRoute (c.host.typeOf a)).2.bind Route.change? = some r) :
    (c.claim a).2 = true ∧ ∀ l l' hs hs',
      (c.claim a).1.outside.account a l' hs' = (c.outside.account a l hs).change r l' hs' := by
  obtain ⟨_, ⟨k, rfl, -⟩, he⟩ := c.claim_eq a
  obtain ⟨route, hroute, hr⟩ := Option.bind_eq_some_iff.1 hr
  rw [he, hroute]
  exact ⟨rfl, fun _ _ _ _ => Outside.account_call_self _ _ hr a⟩

/-- A claim makes a loose reference. -/
theorem deeds_claim {fair : Bool} (l : Nat) (hs : List Holding)
    (hc : c.Serves (c.host.typeOf a)) (ha : c.host.isAlive a) :
    (c.claim a).2 = true ∧
      Deeds fair (c.outside.account a l hs) ((c.claim a).1.outside.account a (l + 1) hs) := by
  cases ht : c.types.isObject (c.host.typeOf a) with
  | true =>
    obtain ⟨hok, he⟩ := account_claim_self (c := c) (a := a) (r := .sink)
      (takeRoute_of_isObject ht ▸ rfl)
    refine ⟨hok, .single ?_⟩
    rw [he l]
    exact .sink ha
  | false =>
    obtain ⟨hok, he⟩ := account_claim_self (hc.takeRoute ht)
    refine ⟨hok, .single ?_⟩
    rw [he l]
    exact .take ha

end Machine

end NativeProxies
