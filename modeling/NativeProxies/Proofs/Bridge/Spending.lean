import NativeProxies.Proofs.Bridge.Release
import NativeProxies.Proofs.Bridge.Wrap

/-!
# References taken and dropped

A call of a bridge takes a reference or drops one (`Route.transfer`).  What an operation may drop is a
budget for each object, and the budgets of operations in a row add up (`Machine.Spends.trans`).  For a
reference that it takes, or an entry that it gives up, an operation may drop one more.
-/

namespace NativeProxies

/-- Which way a route moves a reference. -/
def Route.transfer : Route → Transfer
  | method .drop => .giveBack
  | method (.unwatch _) => .giveBack
  | method _ => .take
  | function _ d => d

namespace Outside

variable {o o' : Outside}

/-- How many references to an object a bridge took, or dropped. -/
def moved (o : Outside) (s : Nat) (a : Address) (d : Transfer) : Nat :=
  o.journal.toList.countP fun c => c.caller = s ∧ c.object = a ∧ c.route.transfer = d

theorem moved_of_journal (h : o'.journal = o.journal) (s : Nat) (a : Address) (d : Transfer) :
    o'.moved s a d = o.moved s a d := by
  rw [moved, moved, h]

theorem moved_call (o : Outside) (caller : Nat) (route : Route) (a : Address) (s : Nat) (b : Address)
    (d : Transfer) : (o.call caller route a).moved s b d =
      o.moved s b d + if caller = s ∧ a = b ∧ route.transfer = d then 1 else 0 := by
  rw [moved, journal_call, Array.toList_push, List.countP_append, List.countP_singleton, moved]
  simp only [decide_eq_true_iff]

end Outside

namespace Machine

variable {c c' c₁ c₂ : Machine} {a : Address} {t : TypeId} {d : Transfer} {route : Route}

/-! ## Routes -/

theorem transfer_functionRoute (h : (c.functionRoute t d).2 = some route) : route.transfer = d := by
  rw [functionRoute] at h
  split at h
  · cases h
    rfl
  · obtain ⟨e, -, rfl⟩ := Option.map_eq_some_iff.1 h
    rfl

theorem transfer_takeRoute (h : (c.takeRoute t).2 = some route) : route.transfer = .take := by
  rw [takeRoute] at h
  split_ifs at h
  · cases h
    rfl
  · exact transfer_functionRoute h

theorem transfer_giveBackRoute {g : Option Generation} (h : (c.giveBackRoute t g).2 = some route) :
    route.transfer = .giveBack := by
  rw [giveBackRoute] at h
  split_ifs at h
  · cases g <;> cases h <;> rfl
  · exact transfer_functionRoute h

/-! ## Spending -/

/-- How many entries a bridge has for an object, none or one. -/
def entries (c : Machine) (a : Address) : Nat := (c.holding? a).toList.length

theorem entries_of_weak (h : c'.cache.weak[a]? = c.cache.weak[a]?) : c'.entries a = c.entries a := by
  rw [entries, entries, holding?, holding?, h]
  cases c.cache.weak[a]? <;> rfl

theorem entries_of_eq_none (h : c.cache.weak[a]? = none) : c.entries a = 0 := by
  rw [entries, holding?_eq_none_iff.2 h]
  rfl

theorem entries_of_eq_some {e : CachedProxy} (h : c.cache.weak[a]? = some e) : c.entries a = 1 := by
  rw [entries, holding?, h]
  rfl

/-- The second machine is the bridge of the first one after it dropped references.  For each of them it
took one, or gave up an entry, or had one in its budget, and so it had for each new entry. -/
structure Spends (c c' : Machine) (budget : Address → Nat) : Prop where
  serial : c'.bridge.serial = c.bridge.serial
  other : ∀ s a d, s ≠ c.bridge.serial → c'.outside.moved s a d = c.outside.moved s a d
  own : ∀ a, c'.outside.moved c.bridge.serial a .giveBack + c'.entries a +
      c.outside.moved c.bridge.serial a .take ≤
    c.outside.moved c.bridge.serial a .giveBack + c.entries a +
      c'.outside.moved c.bridge.serial a .take + budget a

theorem spends_of_eq (hs : c'.bridge.serial = c.bridge.serial)
    (hj : c'.outside.journal = c.outside.journal) (hw : c'.cache.weak = c.cache.weak) :
    c.Spends c' fun _ => 0 := by
  refine ⟨hs, fun s a d _ => Outside.moved_of_journal hj s a d, fun a => ?_⟩
  have he : c'.entries a = c.entries a := entries_of_weak (by rw [hw])
  rw [Outside.moved_of_journal hj, Outside.moved_of_journal hj, he, Nat.add_zero]

namespace Spends

variable {b b₁ b₂ : Address → Nat}

theorem trans (h₁ : c.Spends c₁ b₁) (h₂ : c₁.Spends c₂ b₂) : c.Spends c₂ fun a => b₁ a + b₂ a := by
  refine ⟨h₂.serial.trans h₁.serial, fun s a d hs => ?_, fun a => ?_⟩
  · rw [h₂.other s a d (h₁.serial ▸ hs), h₁.other s a d hs]
  · have ho₁ := h₁.own a
    have ho₂ := h₂.own a
    rw [h₁.serial] at ho₂
    omega

theorem mono (h : c.Spends c' b₁) (hb : ∀ a, b₁ a ≤ b₂ a) : c.Spends c' b₂ :=
  ⟨h.serial, h.other, fun a => (h.own a).trans (Nat.add_le_add_left (hb a) _)⟩

/-- Entries that are given up beforehand are a budget. -/
theorem of_entries (h : c₁.Spends c' b) (hs : c₁.bridge.serial = c.bridge.serial)
    (hj : c₁.outside.journal = c.outside.journal) (he : ∀ a, c₁.entries a + b a ≤ c.entries a) :
    c.Spends c' fun _ => 0 := by
  refine ⟨h.serial.trans hs, fun s a d hne => ?_, fun a => ?_⟩
  · rw [h.other s a d (hs ▸ hne), Outside.moved_of_journal hj]
  · have ho := h.own a
    have hb := he a
    rw [hs, Outside.moved_of_journal hj, Outside.moved_of_journal hj] at ho
    omega

end Spends

theorem spends_catchUp (c : Machine) : c.Spends c.catchUp fun _ => 0 :=
  spends_of_eq c.toggles_catchUp.serial c.journal_catchUp c.weak_catchUp

/-- Giving back a reference drops one at most. -/
theorem spends_giveBack (c : Machine) (a : Address) (g : Option Generation) :
    c.Spends (c.giveBack a g) fun b => if a = b then 1 else 0 := by
  have hw (b : Address) : (c.giveBack a g).entries b = c.entries b :=
    entries_of_weak (congrArg (fun m => m.cache.weak[b]?) (memory_giveBack c a g))
  refine ⟨(alike_giveBack c a g).serial, fun s b d hs => ?_, fun b => ?_⟩
  · rw [outside_giveBack]
    cases (c.giveBackRoute (c.host.typeOf a) g).2 with
    | none => rfl
    | some route => simp [Outside.moved_call, Ne.symm hs]
  · rw [hw, outside_giveBack]
    cases hg : (c.giveBackRoute (c.host.typeOf a) g).2 with
    | none =>
      rw [Option.elim_none]
      omega
    | some route =>
      simp only [Option.elim_some, Outside.moved_call, transfer_giveBackRoute hg, true_and, and_true,
        reduceCtorEq, and_false, if_false]
      omega

theorem spends_giveBackAll (c : Machine) (items : List (Address × CachedProxy)) :
    c.Spends (c.giveBackAll items) fun b => (items.map Prod.fst).count b := by
  induction items generalizing c with
  | nil => exact spends_of_eq rfl rfl rfl
  | cons item items ih =>
    refine ((spends_giveBack c item.1 item.2.toggle).trans (ih _)).mono fun b => ?_
    rw [List.map_cons, List.count_cons, Nat.add_comm]
    simp only [beq_iff_eq, Nat.le_refl]

/-- Giving back the references behind entries that are given up beforehand. -/
theorem spends_items {items : List (Address × CachedProxy)} {m : NativeProxies.Memory}
    (hd : (items.map Prod.fst).Nodup)
    (he : ∀ (a : Address) (e : CachedProxy), (a, e) ∈ items →
      c.cache.weak[a]? = some e ∧ m.cache.weak[a]? = none)
    (hm : ∀ (a : Address) (e : CachedProxy), m.cache.weak[a]? = some e → c.cache.weak[a]? = some e) :
    c.Spends ((c.setMemory m).giveBackAll items) fun _ => 0 := by
  refine (spends_giveBackAll (c.setMemory m) items).of_entries rfl rfl fun a => ?_
  by_cases ha : a ∈ items.map Prod.fst
  · obtain ⟨⟨_, e⟩, hi, rfl⟩ := List.mem_map.1 ha
    obtain ⟨hw, hn⟩ := he _ e hi
    rw [entries_of_eq_none (c := c.setMemory m) hn, entries_of_eq_some hw, Nat.zero_add]
    exact List.nodup_iff_count.1 hd _
  · rw [List.count_eq_zero_of_not_mem ha, Nat.add_zero]
    cases hw : (c.setMemory m).cache.weak[a]? with
    | none => rw [entries_of_eq_none hw]; exact Nat.zero_le _
    | some e => rw [entries_of_eq_some hw, entries_of_eq_some (hm a e hw)]

theorem spends_dismiss (h : c.Sound) (v : Value) : c.Spends (c.dismiss v).1 fun _ => 0 := by
  cases hv : c.heap.heldProxy? v with
  | none => exact dismiss_of_none hv ▸ spends_of_eq rfl rfl rfl
  | some found =>
    obtain ⟨p, r⟩ := found
    obtain ⟨-, hp, hrel⟩ := heldProxy?_spec hv
    obtain ⟨e, he, -⟩ := h.memory.cached r.object p ⟨r, hp, rfl, hrel⟩
    have hw (b : Address) : (c.forgotten p r.object).cache.weak[b]? =
        if b = r.object then none else c.cache.weak[b]? := by
      rw [weak_forgotten]
      grind
    rw [dismiss_of_some hv]
    refine (spends_giveBack _ r.object _).of_entries (alike_forgotten h p r.object).serial
      c.journal_catchUp fun b => ?_
    by_cases hb : r.object = b
    · subst hb
      rw [if_pos rfl, entries_of_eq_none (by rw [hw, if_pos rfl]), entries_of_eq_some he]
    · have hk : (c.forgotten p r.object).entries b = c.entries b :=
        entries_of_weak (by rw [hw, if_neg (Ne.symm hb)])
      rw [if_neg hb, hk, Nat.add_zero]

theorem spends_swept (c : Machine) : c.Spends c.swept fun _ => 0 := by
  have hs : c.Spends ((c.setMemory c.swept.memory).giveBackAll c.dead) fun _ => 0 := by
    refine spends_items c.nodup_dead (fun a e hi => ?_) fun a e he => (weak_swept.1 he).1
    obtain ⟨hw, hm⟩ := mem_dead.1 hi
    refine ⟨hw, Option.eq_none_iff_forall_ne_some.2 fun e' he' => ?_⟩
    obtain ⟨hw', hm'⟩ := weak_swept.1 he'
    cases hw.symm.trans hw'
    simp [hm] at hm'
  have ho : ((c.setMemory c.swept.memory).giveBackAll c.dead).outside = c.swept.outside := by
    rw [giveBackAll_setMemory, outside_swept]
    rfl
  refine hs.trans (spends_of_eq ?_ (congrArg Outside.journal ho.symm) ?_)
  · rw [(alike_giveBackAll _ _).serial, (alike_swept c).serial]
    rfl
  · exact congrArg (fun m => m.cache.weak) (memory_giveBackAll (c.setMemory c.swept.memory) c.dead).symm

theorem spends_countCollection (c : Machine) : c.Spends c.countCollection fun _ => 0 :=
  spends_of_eq rfl rfl rfl

theorem spends_collect (c : Machine) : c.Spends c.collect fun _ => 0 :=
  (spends_catchUp c).trans
    ((spends_swept _).trans ((spends_countCollection _).trans (spends_catchUp _)))

theorem spends_leave (c : Machine) : c.Spends c.leave fun _ => 0 := by
  rcases c.leave_eq with he | he <;> rw [he]
  · exact spends_catchUp c
  · exact (spends_catchUp c).trans (spends_collect _)

/-- Closing a bridge gives up all of its entries. -/
theorem moved_close (h : c.Sound) (a : Address) :
    c.close.outside.moved c.bridge.serial a .giveBack +
        c.outside.moved c.bridge.serial a .take ≤
      c.outside.moved c.bridge.serial a .giveBack + c.entries a +
        c.close.outside.moved c.bridge.serial a .take := by
  have hi : c.catchUp.Spends
      ((c.catchUp.setMemory { c.catchUp.memory with cache := { } }).giveBackAll
        c.catchUp.cache.weak.toList) fun _ => 0 := by
    refine spends_items c.catchUp.nodup_entries (fun a e hi => ?_) (by simp)
    exact ⟨Std.ExtTreeMap.mem_toList_iff_getElem?_eq_some.1 hi, by simp⟩
  have ho : ((c.catchUp.setMemory { c.catchUp.memory with cache := { } }).giveBackAll
      c.catchUp.cache.weak.toList).outside = c.close.outside := by
    rw [giveBackAll_setMemory, outside_close h.memory]
    rfl
  have hc := ((spends_catchUp c).trans hi).own a
  rw [ho] at hc
  omega

theorem moved_close_other (h : c.Sound) {s : Nat} (hs : s ≠ c.bridge.serial) (a : Address)
    (d : Transfer) : c.close.outside.moved s a d = c.outside.moved s a d := by
  rw [outside_close h.memory]
  exact ((spends_catchUp c).trans (spends_giveBackAll _ _)).other s a d hs

/-! ## Wrapping -/

/-- Whether converting an object makes a proxy without a reference of its own. -/
def borrows (c : Machine) (a : Address) (handedOver : Bool) : Bool :=
  !handedOver && (c.proxyOf? a).isNone && (c.takeRoute (c.host.typeOf a)).2.isNone

theorem moved_claim (c : Machine) (a : Address) (s : Nat) (b : Address) (d : Transfer) :
    (c.claim a).1.outside.moved s b d = c.outside.moved s b d +
      if (c.claim a).2 ∧ c.bridge.serial = s ∧ a = b ∧ .take = d then 1 else 0 := by
  rw [outside_claim, snd_claim]
  cases hr : (c.takeRoute (c.host.typeOf a)).2 with
  | none => simp
  | some route => simp [Outside.moved_call, transfer_takeRoute hr]

theorem moved_startWatching (c : Machine) (a : Address) (g : Generation) (owned : Bool) (s : Nat)
    (b : Address) (d : Transfer) :
    (c.startWatching a g owned).outside.moved s b d = c.outside.moved s b d +
      (if c.bridge.serial = s ∧ a = b ∧ .take = d then 1 else 0) +
      if owned ∧ c.bridge.serial = s ∧ a = b ∧ .giveBack = d then 1 else 0 := by
  rw [outside_startWatching]
  cases owned with
  | false =>
    rw [if_neg Bool.false_ne_true, Outside.moved_call]
    grind [Route.transfer]
  | true =>
    rw [if_pos rfl, Outside.moved_call, Outside.moved_call]
    grind [Route.transfer]

/-- A bridge that settles the reference behind a new proxy takes one, or gets one, or the proxy borrows
one. -/
theorem moved_own (c : Machine) (a : Address) (g : Option Generation) (handedOver : Bool) :
    (∀ s b d, s ≠ c.bridge.serial ∨ b ≠ a →
      (c.own a g handedOver).outside.moved s b d = c.outside.moved s b d) ∧
    (c.own a g handedOver).outside.moved c.bridge.serial a .giveBack + 1 +
        c.outside.moved c.bridge.serial a .take ≤
      c.outside.moved c.bridge.serial a .giveBack +
        (c.own a g handedOver).outside.moved c.bridge.serial a .take + handedOver.toNat +
        (!handedOver && (c.takeRoute (c.host.typeOf a)).2.isNone).toNat := by
  have hk := (alike_claim c a).serial
  have hs := snd_claim c a
  have hm (s b d) := moved_claim c a s b d
  cases handedOver with
  | true =>
    refine ⟨fun s b d hne => ?_, ?_⟩
    · cases g with
      | none => rfl
      | some g =>
        rw [own, if_pos rfl, Option.elim_some, moved_startWatching]
        grind
    · cases g with
      | none =>
        simp only [own, if_true, Option.elim_none, Bool.toNat_true]
        omega
      | some g =>
        simp only [own, if_true, Option.elim_some, moved_startWatching, Bool.toNat_true]
        grind
  | false =>
    refine ⟨fun s b d hne => ?_, ?_⟩
    · cases g with
      | none =>
        rw [own, if_neg Bool.false_ne_true, Option.elim_none, hm]
        grind
      | some g =>
        rw [own, if_neg Bool.false_ne_true, Option.elim_some, moved_startWatching, hk, hm]
        grind
    · cases g with
      | none =>
        rw [own, if_neg Bool.false_ne_true, Option.elim_none, hm, hm, hs]
        cases (c.takeRoute (c.host.typeOf a)).2 <;> simp <;> omega
      | some g =>
        rw [own, if_neg Bool.false_ne_true, Option.elim_some, moved_startWatching,
          moved_startWatching, hk, hm, hm, hs]
        cases (c.takeRoute (c.host.typeOf a)).2 <;> simp <;> omega

theorem spends_wrap (h : c.Sound) (a : Address) (handedOver : Bool) :
    c.Spends (c.wrap a handedOver).1 fun b =>
      if a = b then handedOver.toNat + (c.borrows a handedOver).toNat else 0 := by
  rcases proxyOf?_or h.memory a with ⟨p, hp⟩ | hw
  · rw [wrap_of_some hp]
    have hb : c.Spends (c.bump .cacheHits) fun _ => 0 := spends_of_eq rfl rfl rfl
    cases handedOver with
    | false => exact hb.mono fun _ => Nat.zero_le _
    | true =>
      refine (hb.trans (spends_giveBack (c.bump .cacheHits) a none)).mono fun b => ?_
      rw [Nat.zero_add]
      split_ifs <;> simp
  · have hp : c.proxyOf? a = none := h.memory.proxyOf?_eq_none_iff.2 hw
    have he := alike_entered h a
    have hj := c.journal_entered a
    have hroute : ((c.entered a).takeRoute ((c.entered a).host.typeOf a)).2 =
        (c.takeRoute (c.host.typeOf a)).2 := by
      rw [he.typeOf, takeRoute, takeRoute, he.types]
      split_ifs
      · rfl
      · exact he.functionRoute _ _
    obtain ⟨hother, hown⟩ := moved_own (c.entered a) a (c.registerProxy a).2 handedOver
    have hwrap : (c.wrap a handedOver).1.outside =
        ((c.entered a).own a (c.registerProxy a).2 handedOver).outside := by
      rw [wrap_of_none h.memory hw, outside_countCreated]
    have hweak := weak_wrap_of_none h.memory hw handedOver
    refine ⟨(alike_wrap h a handedOver).serial, fun s b d hs => ?_, fun b => ?_⟩
    · rw [hwrap, hother s b d (.inl (he.serial ▸ hs)), Outside.moved_of_journal hj]
    · by_cases hb : a = b
      · subst hb
        have hone : (c.wrap a handedOver).1.entries a = 1 :=
          entries_of_eq_some ((hweak a).trans (if_pos rfl))
        rw [he.serial, hroute, Outside.moved_of_journal hj, Outside.moved_of_journal hj] at hown
        rw [hwrap, hone, entries_of_eq_none hw, if_pos rfl, borrows, hp, Option.isNone_none,
          Bool.and_true]
        omega
      · have hsame : (c.wrap a handedOver).1.entries b = c.entries b :=
          entries_of_weak ((hweak b).trans (if_neg (Ne.symm hb)))
        have hne (d : Transfer) : (c.wrap a handedOver).1.outside.moved c.bridge.serial b d =
            c.outside.moved c.bridge.serial b d := by
          rw [hwrap, hother _ b d (.inr (Ne.symm hb)), Outside.moved_of_journal hj]
        rw [hsame, hne, hne, if_neg hb, Nat.add_zero]

end Machine

end NativeProxies
