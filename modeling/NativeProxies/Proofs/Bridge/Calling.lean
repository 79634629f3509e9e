import Mathlib.Logic.Relation
import NativeProxies.Proofs.Bridge.Release
import NativeProxies.Proofs.Bridge.Wrap

/-!
# What a bridge does outside

A bridge reaches what is outside in two ways: it sets its own mailbox, and it calls under its own number,
on routes that add or remove no toggle references but its own (`Outside.Acts`).  So it leaves no trace
among the registrations of other bridges (`Outside.Acts.callsFor`), and no observer of the embedder gains
a toggle reference by it (`Outside.Acts.recorded_le`).
-/

namespace NativeProxies

/-- Every toggle reference that is added or removed on a route is one of a bridge. -/
def Route.IsOwn (s : Nat) (route : Route) : Prop :=
  ∀ w, route = .method (.watch w) ∨ route = .method (.unwatch w) → ∃ g, w = .bridge s g

namespace Outside

variable {s n : Nat} {o o' : Outside}

/-- The least that a bridge does outside. -/
inductive Act (s : Nat) (o : Outside) : Outside → Prop
  | mailbox (m : Mailbox) : Act s o (o.setMailbox s m)
  | call {route : Route} (a : Address) : route.IsOwn s → Act s o (o.call s route a)

/-- What a bridge does outside. -/
abbrev Acts (s : Nat) : Outside → Outside → Prop := Relation.ReflTransGen (Act s)

theorem Acts.callsFor (h : o.Acts s o') (hn : n ≠ s) (g : Generation) :
    o'.callsFor n g = o.callsFor n g := by
  induction h with
  | refl => rfl
  | tail _ ha ih =>
    refine Eq.trans ?_ ih
    cases ha with
    | mailbox m => exact callsFor_of_journal rfl n g
    | @call route a hr =>
      rw [callsFor_call, if_neg]
      intro he
      unfold Route.registration? at he
      split at he
      · cases he
        obtain ⟨g', hg'⟩ := hr _ (.inl rfl)
        cases hg'
        exact hn rfl
      · cases he
        obtain ⟨g', hg'⟩ := hr _ (.inr rfl)
        cases hg'
        exact hn rfl
      · cases he

theorem Acts.recorded_le (h : o.Acts s o') (a : Address) (l : Nat) (hs : List Holding) :
    (o'.account a l hs).recorded ≤ (o.account a l hs).recorded := by
  induction h with
  | refl => exact Nat.le_refl _
  | @tail o₁ o₂ _ ha ih =>
    refine Nat.le_trans ?_ ih
    cases ha with
    | mailbox m => exact Nat.le_refl _
    | @call route b hr =>
      by_cases hb : a = b
      · subst hb
        cases hc : route.change? with
        | none =>
          rw [Outside.call, hc]
          exact Nat.le_refl _
        | some r =>
          have hx : (o₁.call s route a).account a l hs = (o₁.account a l hs).change r l hs :=
            account_call_self o₁ s hc a
          rw [hx]
          refine Account.recorded_change _ (fun name he => ?_) l hs
          subst he
          cases route with
          | method r =>
            cases hc
            obtain ⟨g, hg⟩ := hr _ (.inl rfl)
            cases hg
          | function e d => cases e <;> cases d <;> simp [Route.change?] at hc
      · rw [account_call_of_ne hb]

end Outside

namespace Machine

variable {c c' c₁ : Machine} {a : Address} {t : TypeId} {route : Route}

/-- The second machine is the bridge of the first one after it did something outside. -/
structure Acts (c c' : Machine) : Prop where
  serial : c'.bridge.serial = c.bridge.serial
  outside : c.outside.Acts c.bridge.serial c'.outside

theorem acts_of_eq (hs : c'.bridge.serial = c.bridge.serial) (ho : c'.outside = c.outside) :
    c.Acts c' :=
  ⟨hs, ho ▸ .refl⟩

theorem Acts.trans (h₁ : c.Acts c₁) (h₂ : c₁.Acts c') : c.Acts c' :=
  ⟨h₂.serial.trans h₁.serial, h₁.outside.trans (h₁.serial ▸ h₂.outside)⟩

theorem acts_call (hr : route.IsOwn c.bridge.serial) (a : Address) : c.Acts (c.call route a) :=
  ⟨rfl, .single (.call a hr)⟩

theorem Toggles.acts (h : c.Toggles c') : c.Acts c' := acts_of_eq h.serial h.outside

theorem acts_setMailbox (c : Machine) (m : Mailbox) : c.Acts (c.setMailbox m) :=
  ⟨rfl, .single (.mailbox m)⟩

theorem acts_catchUp (c : Machine) : c.Acts c.catchUp :=
  (c.acts_setMailbox _).trans c.toggles_catchUp.acts

theorem isOwn_functionRoute {d : Transfer} (h : (c.functionRoute t d).2 = some route) (s : Nat) :
    route.IsOwn s := by
  rintro w (hw | hw) <;> exact absurd hw (functionRoute_ne_method h _)

theorem isOwn_takeRoute (h : (c.takeRoute t).2 = some route) (s : Nat) : route.IsOwn s := by
  rw [takeRoute] at h
  split_ifs at h
  · cases h
    rintro w (hw | hw) <;> cases hw
  · exact isOwn_functionRoute h s

theorem isOwn_giveBackRoute {g : Option Generation} (h : (c.giveBackRoute t g).2 = some route) :
    route.IsOwn c.bridge.serial := by
  rw [giveBackRoute] at h
  split_ifs at h
  · cases g with
    | none =>
      cases h
      rintro w (hw | hw) <;> cases hw
    | some n =>
      cases h
      rintro w (hw | hw) <;> cases hw
      exact ⟨n, rfl⟩
  · exact isOwn_functionRoute h _

theorem acts_giveBack (c : Machine) (a : Address) (g : Option Generation) :
    c.Acts (c.giveBack a g) := by
  refine ⟨(alike_giveBack c a g).serial, ?_⟩
  rw [outside_giveBack]
  cases hr : (c.giveBackRoute (c.host.typeOf a) g).2 with
  | none => exact .refl
  | some route => exact .single (.call a (isOwn_giveBackRoute hr))

theorem acts_giveBackAll (c : Machine) (items : List (Address × CachedProxy)) :
    c.Acts (c.giveBackAll items) := by
  induction items generalizing c with
  | nil => exact acts_of_eq rfl rfl
  | cons item items ih => exact (acts_giveBack c _ _).trans (ih _)

theorem acts_dismiss (c : Machine) (v : Value) : c.Acts (c.dismiss v).1 := by
  cases hv : c.heap.heldProxy? v with
  | none => exact dismiss_of_none hv ▸ acts_of_eq rfl rfl
  | some found =>
    rw [dismiss_of_some hv]
    have hf : c.catchUp.Acts (c.forgotten found.1 found.2.object) := acts_of_eq rfl rfl
    exact (c.acts_catchUp.trans hf).trans (acts_giveBack _ _ _)

theorem acts_countCollection (c : Machine) : c.Acts c.countCollection := acts_of_eq rfl rfl

theorem acts_countCreated (c : Machine) : c.Acts c.countCreated := acts_of_eq rfl rfl

theorem acts_bump (c : Machine) (k : Counter) : c.Acts (c.bump k) := acts_of_eq rfl rfl

theorem acts_swept (c : Machine) : c.Acts c.swept := by
  refine (acts_giveBackAll c c.dead).trans (acts_of_eq ?_ c.outside_swept)
  rw [c.alike_swept.serial, (alike_giveBackAll c c.dead).serial]

theorem acts_collect (c : Machine) : c.Acts c.collect :=
  c.acts_catchUp.trans ((acts_swept _).trans ((acts_countCollection _).trans (acts_catchUp _)))

theorem acts_leave (c : Machine) : c.Acts c.leave := by
  rcases c.leave_eq with he | he <;> rw [he]
  · exact acts_catchUp c
  · exact (acts_catchUp c).trans (acts_collect _)

theorem acts_close (h : c.Sound) : c.outside.Acts c.bridge.serial c.close.outside := by
  rw [outside_close h.memory]
  exact (c.acts_catchUp.trans (acts_giveBackAll _ _)).outside

theorem acts_claim (c : Machine) (a : Address) : c.Acts (c.claim a).1 := by
  refine ⟨(alike_claim c a).serial, ?_⟩
  rw [outside_claim]
  cases hr : (c.takeRoute (c.host.typeOf a)).2 with
  | none => exact .refl
  | some route => exact .single (.call a (isOwn_takeRoute hr _))

theorem acts_startWatching (c : Machine) (a : Address) (g : Generation) (owned : Bool) :
    c.Acts (c.startWatching a g owned) := by
  have hw : Route.IsOwn c.bridge.serial (.method (.watch (.bridge c.bridge.serial g))) := by
    rintro w (hw | hw) <;> cases hw
    exact ⟨g, rfl⟩
  have hd : Route.IsOwn c.bridge.serial (.method .drop) := by
    rintro w (hw | hw) <;> cases hw
  have ht := toggles_applyNotification
    (c.call (.method (.watch (.bridge c.bridge.serial g))) a) ⟨a, g, false⟩
  have hn := (acts_call hw a).trans ht.acts
  rw [startWatching]
  split_ifs
  · exact hn.trans (acts_call (by rwa [ht.serial]) a)
  · exact hn

theorem acts_own (c : Machine) (a : Address) (g : Option Generation) (handedOver : Bool) :
    c.Acts (c.own a g handedOver) := by
  have hr : c.Acts (if handedOver then (c, true) else c.claim a).1 := by
    cases handedOver
    · exact acts_claim c a
    · exact acts_of_eq rfl rfl
  rw [own]
  cases g with
  | none => exact hr
  | some g => exact hr.trans (acts_startWatching _ a g _)

theorem acts_entered (c : Machine) (a : Address) : c.Acts (c.entered a) := by
  rw [entered, registerProxy]
  split_ifs
  · exact ⟨rfl, .single (.mailbox _)⟩
  · exact acts_of_eq rfl rfl

theorem acts_wrap (h : c.Sound) (a : Address) (handedOver : Bool) :
    c.Acts (c.wrap a handedOver).1 := by
  rcases proxyOf?_or h.memory a with ⟨p, hp⟩ | ha
  · rw [wrap_of_some hp]
    cases handedOver
    · exact c.acts_bump _
    · exact (c.acts_bump _).trans (acts_giveBack _ a none)
  · rw [wrap_of_none h.memory ha]
    exact (c.acts_entered a).trans ((acts_own _ a _ handedOver).trans (acts_countCreated _))

end Machine

end NativeProxies
