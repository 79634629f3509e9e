import Mathlib.Data.List.Perm.Basic
import NativeProxies.Proofs.Bridge.Books

/-!
# Order

A release touches nothing that concerns another object (`Outside.AgreeOn`), and notifications about
different objects may be heard in any order (`Machine.applyNotification_comm`).  So when several entries
are dropped it does not matter in which order the references behind them are given back: afterwards the
same is outside but for how things about different objects follow each other (`Outside.Shuffled`), and
that no bridge can tell.
-/

namespace NativeProxies

/-! ## Folding over shuffled lists -/

section Fold

variable {α κ σ : Type} {key : α → κ} {f : σ → α → σ}

theorem foldl_step_comm (hf : ∀ s x y, key x ≠ key y → f (f s x) y = f (f s y) x) {x : α} {xs : List α}
    (h : ∀ y ∈ xs, key y ≠ key x) (s : σ) : f (xs.foldl f s) x = xs.foldl f (f s x) := by
  induction xs generalizing s with
  | nil => rfl
  | cons y xs ih =>
    have hy := h y List.mem_cons_self
    rw [List.foldl_cons, ih (fun z hz => h z (List.mem_cons_of_mem _ hz)), hf s y x hy]
    rfl

/-- Where steps under different keys commute, only the order of those under the same key counts. -/
theorem foldl_eq_of_filter [DecidableEq κ]
    (hf : ∀ s x y, key x ≠ key y → f (f s x) y = f (f s y) x) {xs ys : List α}
    (h : ∀ k, xs.filter (fun x => key x = k) = ys.filter fun x => key x = k) (s : σ) :
    xs.foldl f s = ys.foldl f s := by
  induction xs generalizing ys s with
  | nil =>
    cases ys with
    | nil => rfl
    | cons y ys => simpa using h (key y)
  | cons x xs ih =>
    -- the first of the steps under the key of `x` can be made first
    have hx := h (key x)
    rw [List.filter_cons, if_pos (by simp)] at hx
    obtain ⟨l₁, l₂, rfl, hl₁, -, hl₂⟩ := List.filter_eq_cons_iff.1 hx.symm
    have hne : ∀ y ∈ l₁, key y ≠ key x := fun y hy => by simpa using hl₁ y hy
    have hrest : ∀ k, xs.filter (fun y => key y = k) = (l₁ ++ l₂).filter fun y => key y = k := by
      intro k
      by_cases hk : key x = k
      · subst hk
        rw [List.filter_append, List.filter_eq_nil_iff.2 hl₁, List.nil_append]
        exact hl₂.symm
      · have hk' := h k
        rw [List.filter_cons, if_neg (by simpa using hk), List.filter_append, List.filter_cons,
          if_neg (by simpa using hk)] at hk'
        rw [hk', List.filter_append]
    rw [List.foldl_cons, ih hrest, List.foldl_append, List.foldl_append, List.foldl_cons,
      foldl_step_comm hf hne]

end Fold

/-! ## Notifications about different objects -/

namespace ProxyCache
variable {k k' : ProxyCache} {h : Heap} {m n : Notification} {a : Address}

theorem strong_applyNotification_of_ne (ha : a ≠ n.object) :
    (k.applyNotification h n).1.strong[a]? = k.strong[a]? := by
  simp only [applyNotification, weaken, strengthen]
  grind

/-- What a notification does depends on the entry of its object only. -/
theorem applyNotification_congr (hw : k'.weak = k.weak)
    (hs : k'.strong[n.object]? = k.strong[n.object]?) :
    (k'.applyNotification h n).1.strong[n.object]? = (k.applyNotification h n).1.strong[n.object]? ∧
      (k'.applyNotification h n).2 = (k.applyNotification h n).2 := by
  have hc : k'.strong.contains n.object = k.strong.contains n.object := by
    rw [Std.ExtTreeMap.contains_eq_isSome_getElem?, hs, Std.ExtTreeMap.contains_eq_isSome_getElem?]
  simp only [applyNotification, weaken, strengthen, generation, proxyOf?, hw, hc]
  grind

theorem applyNotification_comm (hne : m.object ≠ n.object) :
    ((k.applyNotification h m).1.applyNotification h n).1 =
      ((k.applyNotification h n).1.applyNotification h m).1 := by
  have hw (k : ProxyCache) (n : Notification) := k.weak_applyNotification h n
  have hs : ((k.applyNotification h m).1.applyNotification h n).1.strong =
      ((k.applyNotification h n).1.applyNotification h m).1.strong := by
    ext1 a
    by_cases han : a = n.object
    · subst han
      rw [strong_applyNotification_of_ne hne.symm]
      exact (applyNotification_congr (hw k m) (strong_applyNotification_of_ne hne.symm)).1
    · rw [strong_applyNotification_of_ne han]
      by_cases ham : a = m.object
      · subst ham
        exact (applyNotification_congr (hw k n) (strong_applyNotification_of_ne han)).1.symm
      · rw [strong_applyNotification_of_ne ham, strong_applyNotification_of_ne ham,
          strong_applyNotification_of_ne han]
  have hweak := ((hw _ n).trans (hw k m)).trans ((hw _ m).trans (hw k n)).symm
  cases hl : ((k.applyNotification h m).1.applyNotification h n).1
  cases hr : ((k.applyNotification h n).1.applyNotification h m).1
  rw [hl, hr] at hs hweak
  cases hs
  cases hweak
  rfl
end ProxyCache

namespace Machine

variable {c c' : Machine}

theorem applyNotification_twice (c : Machine) (m n : Notification) :
    (c.applyNotification m).applyNotification n =
      ((c.setCache ((c.cache.applyNotification c.heap m).1.applyNotification c.heap n).1).countSwitch
        (c.cache.applyNotification c.heap m).2).countSwitch
        ((c.cache.applyNotification c.heap m).1.applyNotification c.heap n).2 := by
  rw [applyNotification, cache_applyNotification, (c.toggles_applyNotification m).heap,
    applyNotification]
  cases (c.cache.applyNotification c.heap m).2 with
  | none => rfl
  | some i => cases i <;> rfl

theorem countSwitch_comm (c : Machine) (i j : Option Switch) :
    (c.countSwitch i).countSwitch j = (c.countSwitch j).countSwitch i := by
  cases i with
  | none => rfl
  | some i =>
    cases j with
    | none => rfl
    | some j => cases i <;> cases j <;> rfl

theorem applyNotification_comm (c : Machine) {m n : Notification} (hne : m.object ≠ n.object) :
    (c.applyNotification m).applyNotification n = (c.applyNotification n).applyNotification m := by
  obtain ⟨-, hm⟩ := ProxyCache.applyNotification_congr (h := c.heap)
    (c.cache.weak_applyNotification c.heap m) (ProxyCache.strong_applyNotification_of_ne hne.symm)
  obtain ⟨-, hn⟩ := ProxyCache.applyNotification_congr (h := c.heap)
    (c.cache.weak_applyNotification c.heap n) (ProxyCache.strong_applyNotification_of_ne hne)
  rw [applyNotification_twice, applyNotification_twice, hm, hn,
    ProxyCache.applyNotification_comm hne, countSwitch_comm]
end Machine

/-! ## What concerns one object -/

theorem Host.instances_apply_self (h : Host) (a : Address) (r : RefChange) :
    (h.apply a r).1.instances[a]? = h.instances[a]?.map fun x =>
      { x with counts := x.counts.bind fun c => (c.apply r).1 } := by
  rw [apply, counts?]
  cases hi : h.instances[a]? with
  | none => simp [hi]
  | some x =>
    obtain ⟨tag, counts⟩ := x
    cases counts with
    | none => simp [hi]
    | some c => simp [typeOf, hi]

theorem Host.instances_apply_of_ne {h : Host} {a b : Address} (hb : b ≠ a) (r : RefChange) :
    (h.apply a r).1.instances[b]? = h.instances[b]? := by
  rw [apply]
  split
  · rfl
  · grind

namespace Outside

variable {o o' o₁ : Outside} {a b : Address}

/-- The calls that bridges made for an object. -/
def callsOn (o : Outside) (a : Address) : List Call := o.journal.toList.filter fun x => x.object = a

/-- What a bridge is told about an object when it catches up. -/
def pendingOn (o : Outside) (a : Address) (s : Nat) : Option (List Notification) :=
  o.mailboxes[s]?.map fun m => m.pending.toList.filter fun n => n.object = a

/-- Two outsides agree on everything that concerns an object. -/
structure AgreeOn (o o' : Outside) (a : Address) : Prop where
  instances : o'.host.instances[a]? = o.host.instances[a]?
  calls : o'.callsOn a = o.callsOn a
  pending : ∀ s, o'.pendingOn a s = o.pendingOn a s

theorem AgreeOn.refl (o : Outside) (a : Address) : o.AgreeOn o a := ⟨rfl, rfl, fun _ => rfl⟩

theorem AgreeOn.symm (h : o.AgreeOn o' a) : o'.AgreeOn o a :=
  ⟨h.instances.symm, h.calls.symm, fun s => (h.pending s).symm⟩

theorem AgreeOn.trans (h₁ : o.AgreeOn o₁ a) (h₂ : o₁.AgreeOn o' a) : o.AgreeOn o' a :=
  ⟨h₂.instances.trans h₁.instances, h₂.calls.trans h₁.calls,
    fun s => (h₂.pending s).trans (h₁.pending s)⟩

theorem AgreeOn.counts? (h : o.AgreeOn o' a) : o'.host.counts? a = o.host.counts? a :=
  congrArg (fun i : Option Instance => i.bind Instance.counts) h.instances

theorem boxes_eq_pendingOn (o : Outside) (a : Address) : o.boxes a = fun s =>
    (o.pendingOn a s).map fun ns => ns.map fun n => (n.generation, n.isLast) := by
  funext s
  rw [boxes, pendingOn, Option.map_map]
  rfl

theorem AgreeOn.account (h : o.AgreeOn o' a) (l : Nat) (hs : List Holding) :
    o'.account a l hs = o.account a l hs := by
  have hb : o'.boxes a = o.boxes a := by simp only [boxes_eq_pendingOn, h.pending]
  rw [Outside.account, Outside.account, h.counts?, hb]

/-- What a notice about an object puts in the mailbox of a bridge. -/
def posted (a : Address) (s : Nat) (n : Notice) : List Notification :=
  match n.watcher with
  | .bridge s' g => if s' = s then [⟨a, g, n.isLast⟩] else []
  | .recorder _ => []

theorem pendingOn_tell_self (o : Outside) (foreign : Bool) (a : Address) (n : Notice) (s : Nat) :
    (o.tell foreign a n).pendingOn a s = (o.pendingOn a s).map (· ++ posted a s n) := by
  obtain ⟨w, isLast⟩ := n
  cases w with
  | recorder r => simp [tell, pendingOn, posted, Function.comp_def]
  | bridge s' g =>
    by_cases hs : s' = s
    · subst hs
      cases hm : o.mailboxes[s']? <;> simp [tell, pendingOn, posted, Mailbox.post, hm]
    · simp [tell, pendingOn, posted, hs, Std.ExtTreeMap.getElem?_modify, Function.comp_def]

theorem pendingOn_tell_of_ne (hb : b ≠ a) (foreign : Bool) (n : Notice) (s : Nat) :
    (o.tell foreign a n).pendingOn b s = o.pendingOn b s := by
  obtain ⟨w, isLast⟩ := n
  cases w with
  | recorder r => rfl
  | bridge s' g =>
    by_cases hs : s' = s
    · subst hs
      cases hm : o.mailboxes[s']? <;> simp [tell, pendingOn, Mailbox.post, hm, Ne.symm hb]
    · simp [tell, pendingOn, hs, Std.ExtTreeMap.getElem?_modify]

theorem callsOn_of_journal (h : o'.journal = o.journal) (a : Address) : o'.callsOn a = o.callsOn a := by
  rw [callsOn, callsOn, h]

theorem agreeOn_change_of_ne (hb : b ≠ a) (foreign : Bool) (r : RefChange) :
    o.AgreeOn (o.change foreign a r) b where
  instances := by rw [host_change, Host.instances_apply_of_ne hb]
  calls := callsOn_of_journal (journal_change o foreign a r) b
  pending s := by
    rw [change]
    cases (o.host.apply a r).2 with
    | none => rfl
    | some n => exact pendingOn_tell_of_ne hb foreign n s

/-- A change of the references of an object depends on nothing else. -/
theorem AgreeOn.change (h : o.AgreeOn o' a) (foreign : Bool) (r : RefChange) :
    (o.change foreign a r).AgreeOn (o'.change foreign a r) a where
  instances := by
    rw [host_change, host_change, Host.instances_apply_self, Host.instances_apply_self, h.instances]
  calls := by
    rw [callsOn_of_journal (journal_change o foreign a r), callsOn_of_journal (journal_change o' ..)]
    exact h.calls
  pending s := by
    have hp (o : Outside) : (o.change foreign a r).pendingOn a s =
        ((o.host.counts? a).bind fun c => (c.apply r).2).elim (o.pendingOn a s) fun n =>
          (o.pendingOn a s).map (· ++ posted a s n) := by
      rw [Outside.change, Host.notice_apply]
      cases (o.host.counts? a).bind fun c => (c.apply r).2 with
      | none => rfl
      | some n => exact pendingOn_tell_self _ foreign a n s
    rw [hp, hp, h.counts?, h.pending s]

theorem agreeOn_call_of_ne (hb : b ≠ a) (caller : Nat) (route : Route) :
    o.AgreeOn (o.call caller route a) b := by
  have hj (x : Call) (hx : x.object = a) : o.AgreeOn { o with journal := o.journal.push x } b :=
    ⟨rfl, by simp [callsOn, hx, Ne.symm hb], fun _ => rfl⟩
  rw [call]
  cases route.change? with
  | none => exact hj _ rfl
  | some r => exact (hj _ rfl).trans (agreeOn_change_of_ne hb false r)

/-- A call for an object depends on nothing else. -/
theorem AgreeOn.call (h : o.AgreeOn o' a) (caller : Nat) (route : Route) :
    (o.call caller route a).AgreeOn (o'.call caller route a) a := by
  have hd : o'.host.isAlive a = o.host.isAlive a := congrArg Option.isSome h.counts?
  have hm : route.misses o'.host a = route.misses o.host a := by
    unfold Route.misses
    split
    · rw [h.counts?]
    · rfl
  have hj (x : Call) : AgreeOn { o with journal := o.journal.push x }
      { o' with journal := o'.journal.push x } a := by
    refine ⟨h.instances, ?_, h.pending⟩
    have hc := h.calls
    rw [callsOn, callsOn] at hc
    rw [callsOn, callsOn, Array.toList_push, Array.toList_push, List.filter_append,
      List.filter_append, hc]
  rw [Outside.call, Outside.call, hd, hm]
  cases route.change? with
  | none => exact hj _
  | some r => exact (hj _).change false r

/-- Bridges call on their own thread. -/
theorem foreign_call (o : Outside) (caller : Nat) (route : Route) (a : Address) (s : Nat) :
    ((o.call caller route a).mailbox s).foreign = (o.mailbox s).foreign := by
  have ht (o : Outside) (n : Notice) : ((o.tell false a n).mailbox s).foreign = (o.mailbox s).foreign := by
    obtain ⟨w, isLast⟩ := n
    cases w with
    | recorder r => rfl
    | bridge s' g =>
      simp only [tell, mailbox, Std.ExtTreeMap.getElem?_modify]
      by_cases hs : s' = s
      · subst hs
        cases o.mailboxes[s']? <;> simp [Mailbox.post]
      · simp [hs]
  rw [call]
  cases route.change? with
  | none => rfl
  | some r =>
    rw [Option.elim_some, change]
    cases (Host.apply _ a r).2 with
    | none => rfl
    | some n => exact ht _ n

/-- Two outsides differ in nothing but the order of what concerns different objects. -/
structure Shuffled (o o' : Outside) : Prop where
  types : o'.host.types = o.host.types
  agree : ∀ a, o.AgreeOn o' a
  foreign : ∀ s, (o'.mailbox s).foreign = (o.mailbox s).foreign

theorem Shuffled.host (h : o.Shuffled o') : o'.host = o.host := by
  have hi : o'.host.instances = o.host.instances :=
    Std.ExtTreeMap.ext_getElem? fun a => (h.agree a).instances
  have ht := h.types
  cases ho : o.host
  cases ho' : o'.host
  rw [ho, ho'] at hi ht
  cases hi
  cases ht
  rfl

theorem Shuffled.pending (h : o.Shuffled o') (s : Nat) (a : Address) :
    (o'.mailbox s).pending.toList.filter (fun n => n.object = a) =
      (o.mailbox s).pending.toList.filter fun n => n.object = a := by
  have hp := (h.agree a).pending s
  rw [pendingOn, pendingOn] at hp
  rw [mailbox, mailbox]
  cases hm : o.mailboxes[s]? <;> cases hm' : o'.mailboxes[s]? <;> simp_all

end Outside

namespace Machine

variable {c c' : Machine} {a b : Address} {g : Option Generation}
  {items items' : List (Address × CachedProxy)}

/-! ## Giving back in any order -/

theorem agreeOn_giveBack_of_ne (hb : b ≠ a) (g : Option Generation) :
    c.outside.AgreeOn (c.giveBack a g).outside b := by
  rw [outside_giveBack]
  cases (c.giveBackRoute (c.host.typeOf a) g).2 with
  | none => exact .refl _ _
  | some route => exact Outside.agreeOn_call_of_ne hb _ _

theorem Alike.agreeOn_giveBack (h : c.Alike c') (ho : c.outside.AgreeOn c'.outside a)
    (g : Option Generation) : (c.giveBack a g).outside.AgreeOn (c'.giveBack a g).outside a := by
  rw [outside_giveBack, outside_giveBack, h.giveBackRoute, h.serial]
  cases (c.giveBackRoute (c.host.typeOf a) g).2 with
  | none => exact ho
  | some route => exact ho.call _ _

theorem agreeOn_giveBackAll_of_not_mem (ha : a ∉ items.map Prod.fst) :
    c.outside.AgreeOn (c.giveBackAll items).outside a := by
  induction items generalizing c with
  | nil => exact .refl _ _
  | cons item items ih =>
    rw [List.map_cons, List.mem_cons, not_or] at ha
    exact (agreeOn_giveBack_of_ne ha.1 _).trans (ih ha.2)

/-- Of several references given back, one concerns an object. -/
theorem agreeOn_giveBackAll_of_mem (hd : (items.map Prod.fst).Nodup) {e : CachedProxy}
    (ha : (a, e) ∈ items) :
    (c.giveBack a e.toggle).outside.AgreeOn (c.giveBackAll items).outside a := by
  induction items generalizing c with
  | nil => simp at ha
  | cons item items ih =>
    rw [List.map_cons, List.nodup_cons] at hd
    rw [giveBackAll_cons]
    rcases List.mem_cons.1 ha with rfl | ha
    · exact agreeOn_giveBackAll_of_not_mem hd.1
    · have hne : a ≠ item.1 := by
        rintro rfl
        exact hd.1 (List.mem_map.2 ⟨_, ha, rfl⟩)
      have hk := alike_giveBack c item.1 item.2.toggle
      exact (hk.agreeOn_giveBack (agreeOn_giveBack_of_ne hne _) _).trans (ih hd.2 ha)

theorem foreign_giveBackAll (c : Machine) (items : List (Address × CachedProxy)) (s : Nat) :
    ((c.giveBackAll items).outside.mailbox s).foreign = (c.outside.mailbox s).foreign := by
  induction items generalizing c with
  | nil => rfl
  | cons item items ih =>
    rw [giveBackAll_cons, ih, outside_giveBack]
    cases (c.giveBackRoute (c.host.typeOf item.1) item.2.toggle).2 with
    | none => rfl
    | some route => exact Outside.foreign_call ..

/-- Giving back references in another order leaves the same outside but for the order. -/
theorem shuffled_giveBackAll (hp : items.Perm items') (hd : (items.map Prod.fst).Nodup) :
    (c.giveBackAll items).outside.Shuffled (c.giveBackAll items').outside where
  types := (alike_giveBackAll c items').types.trans (alike_giveBackAll c items).types.symm
  agree a := by
    by_cases ha : a ∈ items.map Prod.fst
    · obtain ⟨⟨_, e⟩, hi, rfl⟩ := List.mem_map.1 ha
      have hd' : (items'.map Prod.fst).Nodup := (hp.map _).nodup_iff.1 hd
      exact (agreeOn_giveBackAll_of_mem hd hi).symm.trans
        (agreeOn_giveBackAll_of_mem hd' (hp.mem_iff.1 hi))
    · exact (agreeOn_giveBackAll_of_not_mem ha).symm.trans
        (agreeOn_giveBackAll_of_not_mem fun ha' => ha ((hp.map _).mem_iff.2 ha'))
  foreign s := (foreign_giveBackAll c items' s).trans (foreign_giveBackAll c items s).symm

end Machine

/-- Counters may be bumped in any order. -/
instance : RightCommutative Counters.bump where
  right_comm m j k := by cases j <;> cases k <;> rfl

namespace Machine

variable {c c' : Machine} {items items' : List (Address × CachedProxy)}

theorem counters_giveBackAll (c : Machine) (items : List (Address × CachedProxy)) :
    (c.giveBackAll items).bridge.counters =
      (items.map fun item => if c.canReturn item.1 item.2.toggle then Counter.releases else .leaks).foldl
        Counters.bump c.bridge.counters := by
  induction items generalizing c with
  | nil => rfl
  | cons item items ih =>
    obtain ⟨k, hk⟩ := c.bridge_giveBack item.1 item.2.toggle
    rw [giveBackAll_cons, ih, List.map_cons, List.foldl_cons, hk]
    simp only [(alike_giveBack c item.1 item.2.toggle).canReturn]
    rfl

theorem counters_giveBackAll_of_perm (hp : items.Perm items') :
    (c.giveBackAll items').bridge.counters = (c.giveBackAll items).bridge.counters := by
  rw [counters_giveBackAll, counters_giveBackAll]
  exact ((hp.map _).foldl_eq _).symm

/-! ## Hearing in any order -/

/-- Two machines remember the same and have counted the same. -/
structure Matches (c c' : Machine) : Prop where
  memory : c'.memory = c.memory
  counters : c'.bridge.counters = c.bridge.counters

theorem Matches.applyNotification (h : c.Matches c') (n : Notification) :
    (c.applyNotification n).Matches (c'.applyNotification n) := by
  have hk : c'.cache.applyNotification c'.heap n = c.cache.applyNotification c.heap n := by
    have hm : c'.bridge.memory = c.bridge.memory := h.memory
    rw [cache, cache, heap, heap, hm]
  have hs (k : ProxyCache) : (c.setCache k).Matches (c'.setCache k) :=
    ⟨congrArg (fun m : NativeProxies.Memory => { m with cache := k }) h.memory, h.counters⟩
  rw [Machine.applyNotification, Machine.applyNotification, hk]
  cases (c.cache.applyNotification c.heap n).2 with
  | none => exact hs _
  | some i =>
    have hb (k : Counter) : c'.bridge.counters.bump k = c.bridge.counters.bump k :=
      congrArg (fun m : Counters => m.bump k) h.counters
    cases i with
    | strengthened => exact ⟨(hs _).memory, hb .promotions⟩
    | weakened => exact ⟨(hs _).memory, hb .demotions⟩

theorem Matches.foldl_applyNotification (h : c.Matches c') (ns : List Notification) :
    (ns.foldl Machine.applyNotification c).Matches (ns.foldl Machine.applyNotification c') := by
  induction ns generalizing c c' with
  | nil => exact h
  | cons n ns ih => exact ih (h.applyNotification n)

/-- What a bridge hears about different objects it may hear in any order. -/
theorem Matches.catchUp (h : c.Matches c') (hs : c'.bridge.serial = c.bridge.serial)
    (ho : c.outside.Shuffled c'.outside) : c.catchUp.Matches c'.catchUp := by
  have hp : c'.mailbox.takeAll.2.foldl Machine.applyNotification (c'.setMailbox c'.mailbox.takeAll.1) =
      c.mailbox.takeAll.2.foldl Machine.applyNotification (c'.setMailbox c'.mailbox.takeAll.1) := by
    have hf (c : Machine) (m n : Notification) (hne : m.object ≠ n.object) :=
      c.applyNotification_comm hne
    refine foldl_eq_of_filter hf (fun a => ?_) _
    rw [mailbox, mailbox, hs]
    exact ho.pending _ a
  have hm : (c.setMailbox c.mailbox.takeAll.1).Matches (c'.setMailbox c'.mailbox.takeAll.1) :=
    ⟨h.memory, h.counters⟩
  rw [Machine.catchUp, Machine.catchUp, hp]
  exact hm.foldl_applyNotification _

end Machine

/-- Afterwards nobody can tell that the mailbox was emptied in another order. -/
theorem Outside.Shuffled.takeAll {o o' : Outside} (h : o.Shuffled o') (s : Nat) :
    (o.setMailbox s (o.mailbox s).takeAll.1).Shuffled (o'.setMailbox s (o'.mailbox s).takeAll.1) where
  types := h.types
  agree a := by
    refine ⟨(h.agree a).instances, (h.agree a).calls, fun s' => ?_⟩
    by_cases hs : s = s'
    · subst hs
      simp [pendingOn, setMailbox, Mailbox.takeAll]
    · have hp := (h.agree a).pending s'
      simpa [pendingOn, setMailbox, Std.ExtTreeMap.getElem?_insert, hs] using hp
  foreign s' := by
    have hf := h.foreign s'
    by_cases hs : s = s'
    · subst hs
      simpa [mailbox, setMailbox, Mailbox.takeAll] using hf
    · simpa [mailbox, setMailbox, Std.ExtTreeMap.getElem?_insert, hs] using hf

namespace Machine

variable {c c' : Machine}

theorem shuffled_catchUp (hs : c'.bridge.serial = c.bridge.serial)
    (ho : c.outside.Shuffled c'.outside) : c.catchUp.outside.Shuffled c'.catchUp.outside := by
  rw [c.toggles_catchUp.outside, c'.toggles_catchUp.outside]
  simp only [setMailbox, mailbox, hs]
  exact ho.takeAll _

/-- One bridge, in two outsides that differ in the order of things only, comes to the same. -/
structure SameOutcome (c c' : Machine) : Prop where
  host : c'.host = c.host
  calls : ∀ a, c'.outside.callsOn a = c.outside.callsOn a
  cache : c'.cache = c.cache
  counters : c'.counters = c.counters
  /-- Whatever a bridge is like, it makes the same of what it is told. -/
  heard : ∀ b : Bridge,
    (catchUp ⟨b, c'.outside⟩).cache = (catchUp ⟨b, c.outside⟩).cache ∧
      (catchUp ⟨b, c'.outside⟩).counters = (catchUp ⟨b, c.outside⟩).counters

theorem counters_eq (hk : c'.bridge.counters = c.bridge.counters)
    (hs : c'.bridge.serial = c.bridge.serial) (ho : c.outside.Shuffled c'.outside) :
    c'.counters = c.counters := by
  rw [counters, counters, hk, mailbox, mailbox, hs, ho.foreign]

theorem sameOutcome_of_shuffled (hm : c'.cache = c.cache)
    (hk : c'.bridge.counters = c.bridge.counters) (hs : c'.bridge.serial = c.bridge.serial)
    (ho : c.outside.Shuffled c'.outside) : c.SameOutcome c' where
  host := ho.host
  calls a := (ho.agree a).calls
  cache := hm
  counters := counters_eq hk hs ho
  heard b := by
    have hr : Matches ⟨b, c.outside⟩ ⟨b, c'.outside⟩ := ⟨rfl, rfl⟩
    have hb := hr.catchUp rfl ho
    have hb' : (catchUp ⟨b, c.outside⟩).outside.Shuffled (catchUp ⟨b, c'.outside⟩).outside :=
      shuffled_catchUp rfl ho
    refine ⟨congrArg Memory.cache hb.memory, counters_eq hb.counters ?_ hb'⟩
    rw [(toggles_catchUp _).serial, (toggles_catchUp _).serial]
    rfl

end Machine

end NativeProxies
