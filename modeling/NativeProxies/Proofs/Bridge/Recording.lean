import Mathlib.Data.List.Nodup
import Mathlib.Data.List.Perm.Basic
import NativeProxies.Proofs.Bridge.Calling
import NativeProxies.Proofs.Bridge.Departure

/-!
# Registrations on record

The journal tells what became of a registration.  While an entry of the cache has it, the journal has one
call that added it to the object (`Outside.Added`).  Once the entry is gone there is one more call, which
removed it from the same object while it was in the list there (`Outside.Settled`).  Every operation of a
bridge keeps this (`Machine.Recorded`).
-/

namespace NativeProxies

/-- A list without repetitions is filtered to the one element that has the property. -/
theorem filter_eq_singleton {α : Type} {l : List α} {q : α → Prop} [DecidablePred q] {x : α}
    (hd : l.Nodup) (hx : x ∈ l) (hq : q x) (h : ∀ y ∈ l, q y → y = x) : l.filter q = [x] := by
  have hf : (l.filter q).Nodup := hd.filter _
  refine List.perm_singleton.1 ((List.perm_ext_iff_of_nodup hf (List.nodup_singleton x)).2 fun y => ?_)
  rw [List.mem_filter, List.mem_singleton, decide_eq_true_iff]
  exact ⟨fun ⟨hy, hyq⟩ => h y hy hyq, fun hy => hy ▸ ⟨hx, hq⟩⟩

namespace Call

/-- The call that adds a registration to an object that was not freed. -/
def addition (s : Nat) (g : Generation) (a : Address) : Call :=
  ⟨s, .method (.watch (.bridge s g)), a, false, false⟩

/-- The call that removes a registration from an object that has it. -/
def removal (s : Nat) (g : Generation) (a : Address) : Call :=
  ⟨s, .method (.unwatch (.bridge s g)), a, false, false⟩

end Call

namespace Outside

variable {o o' : Outside} {s : Nat} {g : Generation} {a : Address}

/-- A registration was added to an object, and nothing else happened to it. -/
def Added (o : Outside) (s : Nat) (g : Generation) (a : Address) : Prop :=
  o.callsFor s g = [.addition s g a]

/-- A registration was never used, or it was added to an object once and removed from it once, in this
order. -/
def Settled (o : Outside) (s : Nat) (g : Generation) : Prop :=
  o.callsFor s g = [] ∨ ∃ a, o.callsFor s g = [.addition s g a, .removal s g a]

theorem Added.object_eq {b : Address} (ha : o.Added s g a) (hb : o.Added s g b) : a = b := by
  have h := ha.symm.trans hb
  rw [List.cons.injEq, Call.addition, Call.addition, Call.mk.injEq] at h
  exact h.1.2.2.1

theorem Added.congr (h : o'.callsFor s g = o.callsFor s g) : o'.Added s g a ↔ o.Added s g a := by
  rw [Added, Added, h]

theorem Settled.congr (h : o'.callsFor s g = o.callsFor s g) : o'.Settled s g ↔ o.Settled s g := by
  rw [Settled, Settled, h]

end Outside

theorem Host.isAlive_of_mem_watchers {h : Host} {a : Address} {w : Watcher} (hw : w ∈ h.watchers a) :
    h.isAlive a := by
  rw [watchers] at hw
  rw [isAlive]
  cases hc : h.counts? a with
  | none => simp [hc] at hw
  | some c => rfl

namespace Machine

variable {c c' : Machine} {a : Address} {e : CachedProxy} {g : Generation}

/-- Every registration in the cache is in the list of its object, which is of the base kind. -/
def Attached (c : Machine) : Prop :=
  ∀ (a : Address) (e : CachedProxy) (g : Generation), c.cache.weak[a]? = some e → e.toggle = some g →
    c.types.isObject (c.host.typeOf a) ∧ .bridge c.bridge.serial g ∈ c.host.watchers a

/-- The journal tells about every registration of a bridge what the cache says of it. -/
structure Recorded (c : Machine) : Prop where
  unissued : ∀ g : Generation, c.mailbox.nextGeneration ≤ g →
    c.outside.callsFor c.bridge.serial g = []
  current : ∀ (a : Address) (e : CachedProxy) (g : Generation), c.cache.weak[a]? = some e →
    e.toggle = some g → c.outside.Added c.bridge.serial g a
  past : ∀ g : Generation,
    (∀ (a : Address) (e : CachedProxy), c.cache.weak[a]? = some e → e.toggle ≠ some g) →
    c.outside.Settled c.bridge.serial g

theorem Alike.nextGeneration_le (h : c.Alike c') (hc : c.Sound) :
    c.mailbox.nextGeneration ≤ c'.mailbox.nextGeneration := by
  obtain ⟨m, hm⟩ := hc.mailbox
  obtain ⟨m', hm', hle⟩ := h.outside.issued _ m hm
  rw [mailbox, mailbox, h.serial, Outside.mailbox_eq hm, Outside.mailbox_eq hm']
  exact hle

/-- No calls for registrations, and no change of the entries. -/
theorem Recorded.of_eq (hr : c.Recorded) (hs : c'.bridge.serial = c.bridge.serial)
    (hg : c.mailbox.nextGeneration ≤ c'.mailbox.nextGeneration)
    (hw : c'.cache.weak = c.cache.weak)
    (hj : ∀ g, c'.outside.callsFor c.bridge.serial g = c.outside.callsFor c.bridge.serial g) :
    c'.Recorded := by
  refine ⟨fun g hle => ?_, fun a e g he ht => ?_, fun g hn => ?_⟩
  · rw [hs, hj]
    exact hr.unissued g (hg.trans hle)
  · rw [hs, Outside.Added.congr (hj g)]
    exact hr.current a e g (hw ▸ he) ht
  · rw [hs, Outside.Settled.congr (hj g)]
    exact hr.past g fun a e he => hn a e (hw ▸ he)

/-! ## Giving back -/

theorem registration?_functionRoute {t : TypeId} {d : Transfer} {route : Route}
    (h : (c.functionRoute t d).2 = some route) : route.registration? = none := by
  cases route with
  | method r => exact absurd rfl (functionRoute_ne_method h r)
  | function e d => rfl

theorem registration?_giveBackRoute {t : TypeId} {route : Route}
    (h : (c.giveBackRoute t none).2 = some route) : route.registration? = none := by
  rw [giveBackRoute] at h
  split_ifs at h
  · cases h
    rfl
  · exact registration?_functionRoute h

/-- Giving back a toggle reference removes the registration, and giving back a plain one removes none. -/
theorem callsFor_giveBack {x : Option Generation}
    (hx : ∀ n, x = some n → c.types.isObject (c.host.typeOf a) ∧
      .bridge c.bridge.serial n ∈ c.host.watchers a) (g : Generation) :
    (c.giveBack a x).outside.callsFor c.bridge.serial g =
      c.outside.callsFor c.bridge.serial g ++
        if x = some g then [.removal c.bridge.serial g a] else [] := by
  rw [outside_giveBack]
  cases x with
  | none =>
    rw [if_neg (by simp), List.append_nil]
    cases hr : (c.giveBackRoute (c.host.typeOf a) none).2 with
    | none => rfl
    | some route =>
      rw [Option.elim_some, Outside.callsFor_call, if_neg]
      simp [registration?_giveBackRoute hr]
  | some n =>
    obtain ⟨ho, hw⟩ := hx n rfl
    have ha : c.outside.host.isAlive a := Host.isAlive_of_mem_watchers hw
    have hm : (Route.method (.unwatch (.bridge c.bridge.serial n))).misses c.outside.host a = false := by
      rw [Outside.misses_unwatch, Bool.not_eq_false', decide_eq_true_iff]
      exact hw
    rw [giveBackRoute_of_isObject ho, Option.elim_some, Outside.callsFor_call]
    simp only [Option.elim_some, hm, ha, Bool.not_true, Route.registration?, Option.some.injEq,
      Prod.mk.injEq, true_and]
    split_ifs with hn
    · rw [hn]
      rfl
    · rw [List.append_nil]

theorem watchers_giveBack_of_ne {b : Address} (hb : b ≠ a) (x : Option Generation) :
    (c.giveBack a x).host.watchers b = c.host.watchers b :=
  congrArg Account.watchers (account_giveBack_of_ne (c := c) hb x 0 [])

/-- Giving back several references removes the registrations of their entries. -/
theorem callsFor_giveBackAll {items : List (Address × CachedProxy)}
    (hd : (items.map Prod.fst).Nodup)
    (ha : ∀ a e n, (a, e) ∈ items → e.toggle = some n →
      c.types.isObject (c.host.typeOf a) ∧ .bridge c.bridge.serial n ∈ c.host.watchers a)
    (g : Generation) :
    (c.giveBackAll items).outside.callsFor c.bridge.serial g =
      c.outside.callsFor c.bridge.serial g ++
        (items.filter fun item => item.2.toggle = some g).map fun item =>
          .removal c.bridge.serial g item.1 := by
  induction items generalizing c with
  | nil => exact (List.append_nil _).symm
  | cons item items ih =>
    obtain ⟨a, e⟩ := item
    rw [List.map_cons, List.nodup_cons] at hd
    have hk := alike_giveBack c a e.toggle
    have hc := callsFor_giveBack (fun n hn => ha a e n List.mem_cons_self hn) g
    have hi := ih (c := c.giveBack a e.toggle) hd.2 fun b x n hm hn => by
      have hb : b ≠ a := by
        rintro rfl
        exact hd.1 (List.mem_map.2 ⟨_, hm, rfl⟩)
      rw [hk.types, hk.typeOf, hk.serial, watchers_giveBack_of_ne hb]
      exact ha b x n (List.mem_cons_of_mem _ hm) hn
    rw [hk.serial, hc] at hi
    rw [giveBackAll_cons, hi, List.append_assoc, List.filter_cons]
    simp only [decide_eq_true_eq]
    split_ifs <;> rfl

/-! ## Entries that go -/

theorem Recorded.entry_eq (hr : c.Recorded) {b : Address} {x : CachedProxy}
    (he : c.cache.weak[a]? = some e) (ht : e.toggle = some g) (hx : c.cache.weak[b]? = some x)
    (hxt : x.toggle = some g) : (b, x) = (a, e) := by
  cases (hr.current a e g he ht).object_eq (hr.current b x g hx hxt)
  cases he.symm.trans hx
  rfl

/-- What happens to the registrations of a bridge that drops entries. -/
theorem Recorded.frees {items : List (Address × CachedProxy)} (hr : c.Recorded) (ha : c.Attached)
    (hk : c.Alike c') (hc : c.Sound) (hf : c.Frees items c') : c'.Recorded := by
  have hkc := alike_catchUp hc
  have hcalls (g : Generation) : c'.outside.callsFor c.bridge.serial g =
      c.outside.callsFor c.bridge.serial g ++
        (items.filter fun item => item.2.toggle = some g).map fun item =>
          .removal c.bridge.serial g item.1 := by
    have hg := callsFor_giveBackAll (c := c.catchUp) hf.nodup (fun a e n hi hn => by
      rw [hkc.types, hkc.typeOf, hkc.serial, host_catchUp]
      exact ha a e n (hf.entries a e hi) hn) g
    rw [hkc.serial, Outside.callsFor_of_journal c.journal_catchUp] at hg
    rw [Outside.callsFor_of_journal hf.journal, hg]
  have hnone (g : Generation) (hn : ∀ a e, (a, e) ∈ items → e.toggle ≠ some g) :
      c'.outside.callsFor c.bridge.serial g = c.outside.callsFor c.bridge.serial g := by
    have hi : (items.filter fun item => item.2.toggle = some g) = [] := by
      refine List.filter_eq_nil_iff.2 fun item hi => ?_
      simpa using hn item.1 item.2 hi
    rw [hcalls, hi, List.map_nil, List.append_nil]
  refine ⟨fun g hle => ?_, fun a e g he ht => ?_, fun g hn => ?_⟩
  · have hu := hr.unissued g ((hk.nextGeneration_le hc).trans hle)
    rw [hk.serial, hnone g fun a e hi ht => ?_, hu]
    have hadd := hr.current a e g (hf.entries a e hi) ht
    rw [Outside.Added, hu] at hadd
    exact List.cons_ne_nil _ _ hadd.symm
  · obtain ⟨he, hni⟩ := (hf.weak a e).1 he
    rw [hk.serial, Outside.Added.congr (hnone g fun b x hi hx => ?_)]
    · exact hr.current a e g he ht
    · exact hni (hr.entry_eq he ht (hf.entries b x hi) hx ▸ hi)
  · rw [hk.serial]
    by_cases hex : ∃ a e, (a, e) ∈ items ∧ e.toggle = some g
    · obtain ⟨a, e, hi, ht⟩ := hex
      have hone : (items.filter fun item => item.2.toggle = some g) = [(a, e)] :=
        filter_eq_singleton (List.Nodup.of_map _ hf.nodup) hi ht fun ⟨b, x⟩ hx hxt =>
          hr.entry_eq (hf.entries a e hi) ht (hf.entries b x hx) hxt
      refine .inr ⟨a, ?_⟩
      rw [hcalls, hone, hr.current a e g (hf.entries a e hi) ht]
      rfl
    · rw [Outside.Settled.congr (hnone g fun a e hi ht => hex ⟨a, e, hi, ht⟩)]
      refine hr.past g fun a e he ht => ?_
      by_cases hi : (a, e) ∈ items
      · exact hex ⟨a, e, hi, ht⟩
      · exact hn a e ((hf.weak a e).2 ⟨he, hi⟩) ht

/-- A closed bridge has settled all of its registrations. -/
theorem Recorded.settled_close (hr : c.Recorded) (ha : c.Attached) (hc : c.Sound) (g : Generation) :
    c.close.outside.Settled c.bridge.serial g := by
  have hk : c.Alike c.close := by
    obtain ⟨m, -, he⟩ := close_eq hc.memory
    rw [he]
    exact (alike_catchUp hc).trans ((alike_giveBackAll _ _).trans (alike_setMemory _ m))
  rw [← hk.serial]
  refine (hr.frees ha hk hc (frees_close hc)).past g fun a e he => ?_
  rw [cache_close hc.memory] at he
  simp at he

/-! ## Wrapping -/

theorem callsFor_startWatching (ha : c.host.isAlive a) (n : Generation) (owned : Bool)
    (g : Generation) : (c.startWatching a n owned).outside.callsFor c.bridge.serial g =
      c.outside.callsFor c.bridge.serial g ++
        if n = g then [.addition c.bridge.serial g a] else [] := by
  have ha' : c.outside.host.isAlive a := ha
  have hcall : (c.outside.call c.bridge.serial
      (.method (.watch (.bridge c.bridge.serial n))) a).callsFor c.bridge.serial g =
        c.outside.callsFor c.bridge.serial g ++
          if n = g then [.addition c.bridge.serial g a] else [] := by
    rw [Outside.callsFor_call]
    simp only [ha', Bool.not_true, Route.registration?, Option.some.injEq, Prod.mk.injEq, true_and,
      Route.misses]
    split_ifs with hn
    · rw [hn]
      rfl
    · rw [List.append_nil]
  rw [outside_startWatching]
  cases owned with
  | true => rw [if_pos rfl, Outside.callsFor_call, if_neg (by simp [Route.registration?]), hcall]
  | false => exact hcall

theorem callsFor_claim (c : Machine) (a : Address) (g : Generation) :
    (c.claim a).1.outside.callsFor c.bridge.serial g = c.outside.callsFor c.bridge.serial g := by
  rw [outside_claim]
  cases hr : (c.takeRoute (c.host.typeOf a)).2 with
  | none => rfl
  | some route =>
    rw [Option.elim_some, Outside.callsFor_call, if_neg]
    rw [takeRoute] at hr
    split_ifs at hr
    · cases hr
      simp [Route.registration?]
    · simp [registration?_functionRoute hr]

/-- Settling the reference behind a new proxy adds the registration. -/
theorem callsFor_own {x : Option Generation} (ha : c.host.isAlive a)
    (hx : x.isSome → c.types.isObject (c.host.typeOf a)) (handedOver : Bool) (g : Generation) :
    (c.own a x handedOver).outside.callsFor c.bridge.serial g =
      c.outside.callsFor c.bridge.serial g ++
        if x = some g then [.addition c.bridge.serial g a] else [] := by
  cases x with
  | none =>
    rw [if_neg (by simp), List.append_nil]
    cases handedOver with
    | true => rfl
    | false => exact callsFor_claim c a g
  | some n =>
    simp only [Option.some.injEq]
    cases handedOver with
    | true => exact callsFor_startWatching ha n true g
    | false =>
      obtain ⟨-, he⟩ := account_claim_self (c := c) (a := a) (r := .sink)
        (takeRoute_of_isObject (hx rfl) ▸ rfl)
      have hca : (c.claim a).1.host.isAlive a :=
        (congrArg (fun x : Account => x.counts.isSome) (he 0 0 [] [])).trans
          (Account.counts_change_sink (x := c.outside.account a 0 []) ha _ _)
      have hw := callsFor_startWatching hca n (c.claim a).2 g
      rw [(alike_claim c a).serial, callsFor_claim] at hw
      exact hw

/-- Wrapping an object without a proxy adds the registration, if there is one. -/
theorem callsFor_wrap (h : c.Sound) (ha : c.host.isAlive a) (hw : c.cache.weak[a]? = none)
    (handedOver : Bool) (g : Generation) :
    (c.wrap a handedOver).1.outside.callsFor c.bridge.serial g =
      c.outside.callsFor c.bridge.serial g ++
        if (c.registerProxy a).2 = some g then [.addition c.bridge.serial g a] else [] := by
  have he := alike_entered h a
  have hae : (c.entered a).host.isAlive a :=
    (congrArg (fun x : Account => x.counts.isSome) (account_entered h a a 0 [])).trans ha
  have hobj : (c.registerProxy a).2.isSome →
      (c.entered a).types.isObject ((c.entered a).host.typeOf a) := by
    intro hg
    rw [he.types, he.typeOf]
    by_contra ho
    simp [registerProxy, ho] at hg
  have ho := callsFor_own hae hobj handedOver g
  rw [he.serial, Outside.callsFor_of_journal (c.journal_entered a)] at ho
  rw [wrap_of_none h.memory hw, outside_countCreated]
  exact ho

/-- The registration of a new proxy is one that was not issued before. -/
theorem generation_registerProxy (h : c.Sound) (hw : c.cache.weak[a]? = none) (handedOver : Bool)
    {g : Generation} (hg : (c.registerProxy a).2 = some g) :
    g = c.mailbox.nextGeneration ∧ g < (c.wrap a handedOver).1.mailbox.nextGeneration := by
  have hi : (c.entered a).Issued g := issued_entered hg
  have hk : (c.entered a).Alike (c.wrap a handedOver).1 := by
    rw [wrap_of_none h.memory hw]
    exact (alike_own (fun _ hg => issued_entered hg) a handedOver).trans (alike_countCreated _)
  obtain ⟨m, hm, hlt⟩ := hk.issued hi
  refine ⟨?_, by rwa [mailbox, Outside.mailbox_eq hm]⟩
  rw [registerProxy] at hg
  split_ifs at hg
  exact (Option.some.inj hg).symm

theorem Recorded.wrap (hr : c.Recorded) (h : c.Sound) (ha : c.host.isAlive a) (handedOver : Bool) :
    (c.wrap a handedOver).1.Recorded := by
  have hk := alike_wrap h a handedOver
  rcases proxyOf?_or h.memory a with ⟨p, hp⟩ | hw
  · refine hr.of_eq hk.serial (hk.nextGeneration_le h) ?_ fun g => ?_
    · exact congrArg (fun m => m.cache.weak) (memory_wrap_of_some hp handedOver)
    · rw [wrap_of_some hp]
      cases handedOver with
      | false => rfl
      | true =>
        have hg := callsFor_giveBack (c := c.bump .cacheHits) (a := a) (x := none) (by simp) g
        rw [if_neg (by simp), List.append_nil] at hg
        exact hg
  · have hcalls (g : Generation) := callsFor_wrap h ha hw handedOver g
    have hweak := weak_wrap_of_none h.memory hw handedOver
    have hissued {g : Generation} (hg : (c.registerProxy a).2 = some g) :=
      generation_registerProxy h hw handedOver hg
    refine ⟨fun g hle => ?_, fun b e g hb ht => ?_, fun g hn => ?_⟩
    · have hg : (c.registerProxy a).2 ≠ some g := fun hg => (hissued hg).2.not_ge hle
      rw [hk.serial, hcalls, if_neg hg, hr.unissued g ((hk.nextGeneration_le h).trans hle)]
      rfl
    · rw [hweak] at hb
      rw [hk.serial, Outside.Added, hcalls]
      split_ifs at hb with hba
      · cases hb
        rw [if_pos ht, hr.unissued g (hissued ht).1.ge, hba]
        rfl
      · have hadd := hr.current b e g hb ht
        rw [if_neg fun hg => ?_, hadd]
        · rfl
        · rw [Outside.Added, hr.unissued g (hissued hg).1.ge] at hadd
          exact List.cons_ne_nil _ _ hadd.symm
    · have hg : (c.registerProxy a).2 ≠ some g := hn a _ (by rw [hweak, if_pos rfl])
      have hj : (c.wrap a handedOver).1.outside.callsFor c.bridge.serial g =
          c.outside.callsFor c.bridge.serial g := by
        rw [hcalls, if_neg hg, List.append_nil]
      rw [hk.serial, Outside.Settled.congr hj]
      refine hr.past g fun b e hb => hn b e ?_
      rw [hweak, if_neg, hb]
      rintro rfl
      exact absurd (hw.symm.trans hb) (by simp)

end Machine

end NativeProxies
