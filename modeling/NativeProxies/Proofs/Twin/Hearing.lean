import NativeProxies.Proofs.Bridge.Calling
import NativeProxies.Proofs.Twin.Script

/-!
# Hearing early

A bridge may hear what waits for it early, which leaves it as it will be once it has caught up
(`Machine.Ahead`).  Nothing that others do depends on it: what a bridge does outside is a matter of the
calls that it makes (`Outside.Acts.replay`), so whoever makes the same calls leaves the same
notifications for everyone else.
-/

namespace NativeProxies

/-! ## Calls made over again -/

namespace Outside

variable {R : Nat → Mailbox → Mailbox → Prop} {s : Nat} {o o' o₁ o₁' : Outside}

/-- What is outside but for the mailbox of one bridge. -/
def without (o : Outside) (s : Nat) : Outside := { o with mailboxes := o.mailboxes.erase s }

theorem without_setMailbox (o : Outside) (s : Nat) (m : Mailbox) :
    (o.setMailbox s m).without s = o.without s := by
  have he : (o.mailboxes.insert s m).erase s = o.mailboxes.erase s := by
    ext1 t
    grind
  rw [without, setMailbox, he, without]

theorem without_tell (o : Outside) (s : Nat) (foreign : Bool) (a : Address) (n : Notice) :
    (o.tell foreign a n).without s = (o.without s).tell foreign a n := by
  rw [tell, tell]
  cases n.watcher with
  | recorder name => rfl
  | bridge t g =>
    have he (f : Mailbox → Mailbox) :
        (o.mailboxes.modify t f).erase s = (o.mailboxes.erase s).modify t f := by
      ext1 k
      grind
    simp only [without, he]

theorem without_change (o : Outside) (s : Nat) (foreign : Bool) (a : Address) (r : RefChange) :
    (o.change foreign a r).without s = (o.without s).change foreign a r := by
  rw [change, change, show (o.without s).host = o.host from rfl]
  cases (o.host.apply a r).2 with
  | none => rfl
  | some n => exact without_tell _ s foreign a n

theorem without_call (o : Outside) (s caller : Nat) (route : Route) (a : Address) :
    (o.call caller route a).without s = (o.without s).call caller route a := by
  rw [call, call]
  cases route.change? with
  | none => rfl
  | some r => exact without_change _ s false a r

theorem Related.without (h : o.Related R o') (s : Nat) : (o.without s).Related R (o'.without s) := by
  obtain ⟨boxes, rfl, hb⟩ := h
  refine ⟨boxes.erase s, rfl, fun t => ?_⟩
  by_cases ht : s = t
  · simp [Outside.without, ht]
  · simpa [Outside.without, Std.ExtTreeMap.getElem?_erase, ht] using hb t

theorem Related.of_without (h : (o.without s).Related R (o'.without s))
    (hs : Option.Rel (R s) o.mailboxes[s]? o'.mailboxes[s]?) : o.Related R o' := by
  have hhost : o'.host = o.host := h.host
  have htapes : o'.tapes = o.tapes := h.tapes
  have hjournal : o'.journal = o.journal := h.journal
  refine ⟨o'.mailboxes, by rw [← hhost, ← htapes, ← hjournal], fun t => ?_⟩
  by_cases ht : s = t
  · exact ht ▸ hs
  · simpa [Outside.without, Std.ExtTreeMap.getElem?_erase, ht] using h.mailboxes t

/-- Makes the calls of a list over again. -/
def replay (o : Outside) (calls : List Call) : Outside :=
  calls.foldl (fun o c => o.call c.caller c.route c.object) o

theorem Related.replay (hR : KeptByPost R) (h : o.Related R o') (calls : List Call) :
    (o.replay calls).Related R (o'.replay calls) := by
  induction calls generalizing o o' with
  | nil => exact h
  | cons c calls ih => exact ih (call hR h c.caller c.route c.object)

/-- All that a bridge does outside is to make calls, but for its own mailbox. -/
theorem Acts.replay (h : o.Acts s o') : ∃ calls : List Call,
    o'.journal.toList = o.journal.toList ++ calls ∧ o'.without s = (o.without s).replay calls := by
  induction h with
  | refl => exact ⟨[], (List.append_nil _).symm, rfl⟩
  | @tail o₁ _ _ ha ih =>
    obtain ⟨calls, hj, he⟩ := ih
    cases ha with
    | mailbox m => exact ⟨calls, hj, by rw [without_setMailbox, he]⟩
    | @call route a _ =>
      refine ⟨calls ++ [⟨s, route, a, !o₁.host.isAlive a, route.misses o₁.host a⟩], ?_, ?_⟩
      · rw [journal_call, Array.toList_push, hj, List.append_assoc]
      · rw [without_call, he, Outside.replay, Outside.replay, List.foldl_append]
        rfl

/-- Whoever makes the same calls leaves the same for every other bridge. -/
theorem Related.acts (hR : KeptByPost R) (h : o.Related R o') (ha : o.Acts s o₁)
    (ha' : o'.Acts s o₁') (hj : o₁'.journal = o₁.journal)
    (hs : Option.Rel (R s) o₁.mailboxes[s]? o₁'.mailboxes[s]?) : o₁.Related R o₁' := by
  obtain ⟨calls, hc, he⟩ := ha.replay
  obtain ⟨calls', hc', he'⟩ := ha'.replay
  rw [hj, hc, h.journal] at hc'
  cases List.append_cancel_left hc'
  refine .of_without ?_ hs
  rw [he, he']
  exact (h.without s).replay hR calls

end Outside

/-! ## What a bridge hears -/

namespace Bridge

/-- The bridge after a notification; what is outside does not matter to it. -/
def hear (b : Bridge) (n : Notification) : Bridge :=
  (Machine.applyNotification ⟨b, { }⟩ n).bridge

/-- The bridge after several notifications. -/
def hearAll (b : Bridge) (ns : List Notification) : Bridge := ns.foldl hear b

@[simp] theorem hearAll_nil (b : Bridge) : b.hearAll [] = b := rfl

theorem hearAll_append (b : Bridge) (ns ns' : List Notification) :
    b.hearAll (ns ++ ns') = (b.hearAll ns).hearAll ns' :=
  List.foldl_append

end Bridge

namespace Machine

variable {c c' : Machine}

/-- A change that leaves the cache, the heap and the counters alone can come before a notification or
after it. -/
theorem map_applyNotification {f : Machine → Machine} (hc : (f c).cache = c.cache)
    (hh : (f c).heap = c.heap) (hs : ∀ x, f (c.setCache x) = (f c).setCache x)
    (hb : ∀ c k, f (bump c k) = (f c).bump k) (n : Notification) :
    f (c.applyNotification n) = (f c).applyNotification n := by
  rw [applyNotification, applyNotification, hc, hh]
  cases (c.cache.applyNotification c.heap n).2 with
  | none => exact hs _
  | some k => cases k <;> exact (hb _ _).trans (congrArg (bump · _) (hs _))

theorem applyNotification_eq (c : Machine) (n : Notification) :
    c.applyNotification n = ⟨c.bridge.hear n, c.outside⟩ := by
  have hb : (⟨(c.applyNotification n).bridge, { }⟩ : Machine) = applyNotification ⟨c.bridge, { }⟩ n :=
    map_applyNotification (f := fun c => ⟨c.bridge, { }⟩) rfl rfl (fun _ => rfl) (fun _ _ => rfl) n
  rw [Bridge.hear, ← hb, ← (c.toggles_applyNotification n).outside]

theorem foldl_applyNotification_eq (c : Machine) (ns : List Notification) :
    ns.foldl applyNotification c = ⟨c.bridge.hearAll ns, c.outside⟩ := by
  induction ns generalizing c with
  | nil => rfl
  | cons n ns ih =>
    rw [List.foldl_cons, ih, applyNotification_eq]
    rfl

theorem serial_hearAll (b : Bridge) (ns : List Notification) : (b.hearAll ns).serial = b.serial := by
  have h := (toggles_foldl_applyNotification ⟨b, { }⟩ ns).serial
  rwa [foldl_applyNotification_eq] at h

theorem catchUp_eq (c : Machine) : c.catchUp = ⟨c.bridge.hearAll c.mailbox.pending.toList,
    c.outside.setMailbox c.bridge.serial c.mailbox.takeAll.1⟩ :=
  foldl_applyNotification_eq _ _

end Machine

/-! ## Bridges that are ahead -/

/-- The second mailbox is the first one without the notifications at its front. -/
structure Mailbox.Ahead (heard : List Notification) (m m' : Mailbox) : Prop where
  pending : m.pending.toList = heard ++ m'.pending.toList
  nextGeneration : m'.nextGeneration = m.nextGeneration
  foreign : m'.foreign = m.foreign

namespace Mailbox.Ahead

variable {heard : List Notification} {m m' : Mailbox}

theorem refl (m : Mailbox) : m.Ahead [] m := ⟨rfl, rfl, rfl⟩

theorem eq (h : m.Ahead [] m') : m' = m := by
  obtain ⟨pending, next, foreign⟩ := m
  obtain ⟨pending', next', foreign'⟩ := m'
  obtain ⟨hp, rfl, rfl⟩ := h
  cases Array.toList_inj.1 hp
  rfl

theorem post (h : m.Ahead heard m') (foreign : Bool) (n : Notification) :
    (m.post foreign n).Ahead heard (m'.post foreign n) where
  pending := by simp only [Mailbox.post, Array.toList_push, h.pending, List.append_assoc]
  nextGeneration := h.nextGeneration
  foreign := by simp only [Mailbox.post, h.foreign]

theorem takeAll (h : m.Ahead heard m') : m.takeAll.1.Ahead [] m'.takeAll.1 :=
  ⟨rfl, h.nextGeneration, h.foreign⟩

/-- Taking all out of the second mailbox only puts it ahead of the first one altogether. -/
theorem takeAll_right (h : m.Ahead heard m') : m.Ahead m.pending.toList m'.takeAll.1 :=
  ⟨(List.append_nil _).symm, h.nextGeneration, h.foreign⟩

end Mailbox.Ahead

namespace Machine

/-- Nothing for a bridge is left out for it to ignore. -/
theorem ignores_own (c : Machine) : c.Ignores fun _ => c.bridge.serial == c.bridge.serial :=
  fun _ hn => by simp at hn

/-- The second machine is the first one after its bridge has heard some of what waits for it, and other
bridges have heard some of what waits for them. -/
structure Ahead (heard : Nat → List Notification) (c c' : Machine) : Prop where
  bridge : c'.bridge = c.bridge.hearAll (heard c.bridge.serial)
  outside : c.outside.Related (fun s => Mailbox.Ahead (heard s)) c'.outside

namespace Ahead

variable {heard : Nat → List Notification} {c c' r r' : Machine}

theorem keptByPost (heard : Nat → List Notification) :
    Outside.KeptByPost fun s => Mailbox.Ahead (heard s) :=
  fun _ _ _ hm => hm.post

variable (h : c.Ahead heard c')
include h

theorem serial : c'.bridge.serial = c.bridge.serial := by
  rw [h.bridge, serial_hearAll]

theorem mailbox (hc : c.Sound) : c.mailbox.Ahead (heard c.bridge.serial) c'.mailbox := by
  obtain ⟨m, hm⟩ := hc.mailbox
  rw [Machine.mailbox, Machine.mailbox, h.serial, Outside.mailbox, Outside.mailbox]
  rcases Outside.rel_iff.1 (h.outside.mailboxes c.bridge.serial) with ⟨hn, -⟩ | ⟨m, m', hm, hm', ha⟩
  · rw [hm] at hn
    cases hn
  · rw [hm, hm']
    exact ha

/-- A bridge that catches up is where one is that heard some of it before. -/
theorem bridge_catchUp (hc : c.Sound) : c'.catchUp.bridge = c.catchUp.bridge := by
  rw [catchUp_eq, catchUp_eq, h.bridge, ← Bridge.hearAll_append, (h.mailbox hc).pending]

theorem setMailbox {ns : List Notification} {m m' : Mailbox} (hm : m.Ahead ns m') :
    (c.outside.setMailbox c.bridge.serial m).Related
      (fun s => Mailbox.Ahead (Function.update heard c.bridge.serial ns s))
      (c'.outside.setMailbox c'.bridge.serial m') := by
  rw [h.serial]
  refine h.outside.setMailbox (fun t ht m m' hx => ?_) ?_
  · rwa [Function.update_of_ne ht]
  · rwa [Function.update_self]

theorem catchUp (hc : c.Sound) :
    c.catchUp.Ahead (Function.update heard c.bridge.serial []) c'.catchUp where
  bridge := by
    rw [h.bridge_catchUp hc, (alike_catchUp hc).serial, Function.update_self, Bridge.hearAll_nil]
  outside := by
    rw [c.toggles_catchUp.outside, c'.toggles_catchUp.outside]
    exact h.setMailbox (h.mailbox hc).takeAll

omit h in
theorem update_catchUp (heard : Nat → List Notification) (hc : c.Sound) :
    Function.update heard c.bridge.serial [] c.catchUp.bridge.serial = [] := by
  rw [(alike_catchUp hc).serial, Function.update_self]

/-- If the second bridge catches up alone, it has heard all that waits for the first one. -/
theorem pump (hc : c.Sound) :
    c.Ahead (Function.update heard c.bridge.serial c.mailbox.pending.toList) c'.catchUp where
  bridge := by
    rw [h.bridge_catchUp hc, catchUp_eq, Function.update_self]
  outside := by
    have hs := h.setMailbox (h.mailbox hc).takeAll_right
    rw [c'.toggles_catchUp.outside]
    rwa [show c.outside.setMailbox c.bridge.serial c.mailbox = c.outside from
      congrArg Machine.outside (setMailbox_mailbox hc)] at hs

/-! ## A bridge that has heard the same -/

section

variable (h₀ : heard c.bridge.serial = [])
include h₀

theorem bridge_eq : c'.bridge = c.bridge := by
  rw [h.bridge, h₀, Bridge.hearAll_nil]

theorem mailbox_eq (hc : c.Sound) : c'.mailbox = c.mailbox := by
  have hm := h.mailbox hc
  rw [h₀] at hm
  exact hm.eq

/-- The machines are twins in all that matters to the bridge. -/
theorem twins : c.Twins (fun s _ => s == c.bridge.serial) none c' := by
  refine ⟨c'.outside, h.outside.mono fun s m m' hm => ?_, by rw [Bridge.asStrict_none, ← h.bridge_eq h₀]⟩
  by_cases hs : s = c.bridge.serial
  · subst hs
    rw [h₀] at hm
    cases hm.eq
    exact .refl _ m
  · have hf : (s == c.bridge.serial) = false := beq_false_of_ne hs
    refine ⟨?_, hm.nextGeneration, fun _ => hm.foreign⟩
    simp only [hf, List.filter_false]

/-- What the bridge does to itself and by calls, it does in both machines. -/
theorem of_twins (hr : r.Twins (fun s _ => s == c.bridge.serial) none r') (ha : c.Acts r)
    (ha' : c'.Acts r') : r.Ahead heard r' where
  bridge := by
    rw [hr.bridge, ha.serial, h₀]
    rfl
  outside := by
    -- its own mailbox is that of the twins, and the others have got what the same calls bring about
    have hb := h.serial ▸ ha'.outside
    refine h.outside.acts (keptByPost heard) ha.outside hb hr.outside.journal ?_
    have hs := hr.outside.related.mailboxes c.bridge.serial
    rcases Outside.rel_iff.1 hs with ⟨hm, hm'⟩ | ⟨m, m', hm, hm', ht⟩ <;> rw [hm, hm']
    · exact .none
    · cases ht.eq (by simp)
      exact .some (h₀ ▸ .refl m)

theorem leave : c.leave.Ahead heard c'.leave :=
  h.of_twins h₀ ((h.twins h₀).leave (ignores_own c)) (acts_leave c) (acts_leave c')

end

/-- A collection lets the bridge catch up first. -/
theorem collect (hc : c.Sound) :
    c.collect.Ahead (Function.update heard c.bridge.serial []) c'.collect := by
  have hk := h.catchUp hc
  have h₀ := update_catchUp heard hc
  rw [← collect_catchUp c, ← collect_catchUp c']
  exact hk.of_twins h₀ ((hk.twins h₀).collect (ignores_own _)) (acts_collect _) (acts_collect _)

/-- So does closing the bridge. -/
theorem close (hc : c.Sound) (hc' : c'.Sound) : c.close.outside.Related
    (fun s => Mailbox.Ahead (Function.update heard c.bridge.serial [] s)) c'.close.outside := by
  have hk := h.catchUp hc
  have h₀ := update_catchUp heard hc
  have ht := hk.twins h₀
  rw [outside_close hc.memory, outside_close hc'.memory, ht.cache]
  exact (hk.of_twins h₀ (ht.giveBackAll _) (acts_giveBackAll _ _) (acts_giveBackAll _ _)).outside

end Ahead

/-! ## What notifications do not matter to -/

/-- Notifications do not matter to what a step does to a bridge and what it answers, nor does what is
outside but for the host. -/
structure Overlooks (k : Machine → Machine × Answer) : Prop where
  notification : ∀ c n, k (c.applyNotification n) = ((k c).1.applyNotification n, (k c).2)
  serial : ∀ c, (k c).1.bridge.serial = c.bridge.serial
  outside : ∀ c, (k c).1.outside = c.outside
  twins : ∀ c c', c.Twins (fun _ _ => false) none c' →
    (k c).1.Twins (fun _ _ => false) none (k c').1 ∧ (k c').2 = (k c).2

variable {heard : Nat → List Notification} {c c' : Machine} {k : Machine → Machine × Answer}

theorem Overlooks.foldl (hk : Overlooks k) (c : Machine) (ns : List Notification) :
    k (ns.foldl applyNotification c) = (ns.foldl applyNotification (k c).1, (k c).2) := by
  induction ns generalizing c with
  | nil => rfl
  | cons n ns ih => rw [List.foldl_cons, ih, hk.notification, List.foldl_cons]

theorem Overlooks.ahead (hk : Overlooks k) (h : c.Ahead heard c') :
    (k c).1.Ahead heard (k c').1 ∧ (k c').2 = (k c).2 := by
  -- between the two stands the bridge of the first machine with what is outside in the second one
  have ht : c.Twins (fun _ _ => false) none ⟨c.bridge, c'.outside⟩ := by
    refine ⟨c'.outside, h.outside.mono fun s m m' hm => ?_, rfl⟩
    exact ⟨by rw [List.filter_false, List.filter_false], hm.nextGeneration, fun _ => hm.foreign⟩
  obtain ⟨hr, he⟩ := hk.twins c _ ht
  have hc' : c' = (heard c.bridge.serial).foldl applyNotification ⟨c.bridge, c'.outside⟩ := by
    rw [foldl_applyNotification_eq, ← h.bridge]
  have hf := hk.foldl ⟨c.bridge, c'.outside⟩ (heard c.bridge.serial)
  rw [← hc', foldl_applyNotification_eq] at hf
  rw [hf]
  refine ⟨⟨?_, ?_⟩, he⟩
  · rw [hr.bridge, hk.serial]
    rfl
  · rw [hk.outside, hk.outside]
    exact h.outside

theorem setCatalog_applyNotification (c : Machine) (n : Notification) (k : Catalog) :
    (c.applyNotification n).setCatalog k = (c.setCatalog k).applyNotification n :=
  map_applyNotification (f := fun c => c.setCatalog k) rfl rfl (fun _ => rfl) (fun _ _ => rfl) n

theorem overlooks_unroot (stash : String) : Overlooks fun c =>
    (c.setMemory (c.memory.unroot stash).1, .flag (c.memory.unroot stash).2) where
  notification c n := by
    have hm := map_applyNotification (c := c) (f := fun c => c.setMemory (c.memory.unroot stash).1)
      rfl rfl (fun _ => rfl) (fun _ _ => rfl) n
    have hf : (c.applyNotification n).memory.roots = c.memory.roots :=
      (c.toggles_applyNotification n).roots
    refine Prod.ext hm (congrArg Answer.flag ?_)
    rw [Memory.unroot, hf, Memory.unroot]
  serial _ := rfl
  outside _ := rfl
  twins c c' h := by
    rw [h.memory]
    exact ⟨h.setMemory _, rfl⟩

theorem overlooks_register (d : Descriptor) :
    Overlooks fun c => (c.register d, .descriptor (some d)) where
  notification c n := by
    rw [register, (c.toggles_applyNotification n).catalog, setCatalog_applyNotification, register]
  serial _ := rfl
  outside _ := rfl
  twins c c' h := ⟨h.register d, rfl⟩

theorem overlooks_catalogStep (q : CatalogStep) : Overlooks fun c => q.run c where
  notification c n := by
    have ht := c.toggles_applyNotification n
    have htypes : (c.applyNotification n).types = c.types :=
      congrArg (fun o : Outside => o.host.types) ht.outside
    cases q <;> simp only [CatalogStep.run, locate, labelFor, hook?, htypes, ht.catalog,
      setCatalog_applyNotification]
  serial c := (recalls_catalogStep c q).quiet.serial
  outside c := (recalls_catalogStep c q).quiet.outside
  twins c c' h := h.catalogStep q

end Machine

end NativeProxies
