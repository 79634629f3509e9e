import NativeProxies.Proofs.Bridge.Recording
import NativeProxies.Proofs.Bridge.Shuffle
import NativeProxies.Proofs.Script.Members
import NativeProxies.Scenario

/-!
# How things stand with an object

What a bridge sees of one object: its counts, what waits to be heard about it, and the entry
(`Machine.standing`).  It comes from the account of the object, so whatever leaves the account alone
leaves the standing alone.  A collection while all entries are strong changes nothing but what is counted
(`Machine.collect_of_strong`), and one after all entries were let go gives everything back
(`Machine.Abandoned.collect`).
-/

namespace NativeProxies

theorem ofNat_succ (n : Nat) : UInt64.ofNat (n + 1) = 1 + .ofNat n := by
  rw [Nat.add_comm, UInt64.ofNat_add]
  rfl

/-! ## Work -/

/-- The second bridge is the first one with another memory and other counters, after questions to its
catalog. -/
def Bridge.Works (b b' : Bridge) : Prop :=
  ∃ m k n, b' = { b with memory := m, catalog := k, counters := n }

namespace Bridge.Works

variable {b b₁ b' : Bridge}

theorem refl (b : Bridge) : b.Works b := ⟨_, _, _, rfl⟩

theorem trans (h₁ : b.Works b₁) (h₂ : b₁.Works b') : b.Works b' := by
  obtain ⟨_, _, _, rfl⟩ := h₁
  obtain ⟨m, k, n, rfl⟩ := h₂
  exact ⟨m, k, n, rfl⟩

theorem settings (h : b.Works b') : b'.settings = b.settings := by
  obtain ⟨_, _, _, rfl⟩ := h
  rfl

theorem created (h : b.Works b') : b'.created = b.created := by
  obtain ⟨_, _, _, rfl⟩ := h
  rfl

end Bridge.Works

namespace Machine

variable {c c' : Machine} {a b : Address}

theorem Recalls.works (h : c.Recalls c') : c.bridge.Works c'.bridge := by
  obtain ⟨k, rfl, -⟩ := h
  exact ⟨_, k, _, rfl⟩

theorem Recalls.counters_eq (h : c.Recalls c') : c'.counters = c.counters := by
  obtain ⟨_, rfl, -⟩ := h
  rfl

theorem works_applyNotification (c : Machine) (n : Notification) :
    c.bridge.Works (c.applyNotification n).bridge := by
  rw [applyNotification]
  cases (c.cache.applyNotification c.heap n).2 with
  | none => exact ⟨_, _, _, rfl⟩
  | some i => cases i <;> exact ⟨_, _, _, rfl⟩

theorem works_catchUp (c : Machine) : c.bridge.Works c.catchUp.bridge :=
  List.foldlRecOn (motive := fun c' : Machine => c.bridge.Works c'.bridge) _ _ (.refl _) fun c' h n _ =>
    h.trans (works_applyNotification c' n)

theorem works_giveBackAll (c : Machine) (items : List (Address × CachedProxy)) :
    c.bridge.Works (c.giveBackAll items).bridge :=
  List.foldlRecOn (motive := fun c' : Machine => c.bridge.Works c'.bridge) _ _ (.refl _)
    fun c' h item _ => by
      obtain ⟨k, hk⟩ := c'.bridge_giveBack item.1 item.2.toggle
      exact h.trans ⟨_, k, _, hk⟩

theorem works_swept (c : Machine) : c.bridge.Works c.swept.bridge := by
  have hg : c.bridge.Works ((c.setMemory c.memory.evict.1).giveBackAll c.memory.evict.2).bridge :=
    .trans ⟨_, _, _, rfl⟩ (works_giveBackAll _ _)
  exact hg.trans ⟨_, _, _, rfl⟩

theorem works_claim (c : Machine) (a : Address) : c.bridge.Works (c.claim a).1.bridge := by
  obtain ⟨c₁, hr, he⟩ := c.claim_eq a
  rw [he]
  split <;> exact hr.works

theorem works_own (c : Machine) (a : Address) (g : Option Generation) :
    c.bridge.Works (c.own a g false).bridge := by
  rw [own, if_neg Bool.false_ne_true]
  cases g with
  | none => exact works_claim c a
  | some g =>
    have hn := (works_claim c a).trans (works_applyNotification
      ((c.claim a).1.call (.method (.watch (.bridge (c.claim a).1.bridge.serial g))) a) ⟨a, g, false⟩)
    rw [Option.elim_some, startWatching]
    split_ifs <;> exact hn

end Machine

/-! ## Standings -/

/-- How things stand with an object, as a bridge sees it. -/
structure Standing where
  counts : Option Counts
  /-- What waits for the bridge to hear about the object. -/
  waiting : List (Generation × Bool)
  entry : Option Holding

namespace Standing

/-- There is no such object. -/
def gone : Standing := ⟨none, [], none⟩

/-- An object with a floating reference that no bridge knows. -/
def unknown (refs : Nat) : Standing := ⟨some ⟨refs, true, []⟩, [], none⟩

/-- An object that a bridge has wrapped and heard everything about. -/
def wrapped (serial : Nat) (g : Generation) (refs : Nat) (strong : Bool) : Standing :=
  ⟨some ⟨refs, false, [.bridge serial g]⟩, [], some ⟨serial, some g, strong⟩⟩

end Standing

/-- How things stand according to an account. -/
def Account.standing (x : Account) (serial : Nat) : Standing :=
  ⟨x.counts, (x.boxes serial).getD [], x.holdings.head?⟩

namespace Machine

variable {c c' : Machine} {a b : Address} {s : Settings}

/-- How things stand with an object. -/
def standing (c : Machine) (a : Address) : Standing :=
  ⟨c.host.counts? a, c.mailbox.about a, c.holding? a⟩

theorem standing_eq (c : Machine) (a : Address) :
    c.standing a = (c.account a 0 []).standing c.bridge.serial := by
  rw [standing, Account.standing, account, Outside.account, about_mailbox]
  cases c.holding? a <;> rfl

theorem standing_of_account (hs : c'.bridge.serial = c.bridge.serial)
    (h : c'.account a 0 [] = c.account a 0 []) : c'.standing a = c.standing a := by
  rw [standing_eq, standing_eq, h, hs]

theorem standing_countCollection (c : Machine) (a : Address) :
    c.countCollection.standing a = c.standing a := rfl

theorem counts?_of_standing {x : Standing} (h : c.standing a = x) : c.host.counts? a = x.counts :=
  congrArg Standing.counts h

theorem weak_of_standing (h : (c.standing a).entry = none) : c.cache.weak[a]? = none :=
  holding?_eq_none_iff.1 h

/-- A mailbox is empty if nothing waits about any object. -/
theorem pending_eq_empty (h : ∀ a, (c.standing a).waiting = []) : c.mailbox.pending = #[] := by
  refine Array.toList_eq_nil_iff.1 (List.eq_nil_iff_forall_not_mem.2 fun n hn => ?_)
  have hm : (n.generation, n.isLast) ∈ (c.standing n.object).waiting :=
    List.mem_map.2 ⟨n, List.mem_filter.2 ⟨hn, by simp⟩, rfl⟩
  simp [h] at hm

theorem Sound.mailbox_eq (h : c.Sound) : c.outside.mailboxes[c.bridge.serial]? = some c.mailbox := by
  obtain ⟨m, hm⟩ := h.mailbox
  rw [hm, Machine.mailbox, Outside.mailbox_eq hm]

theorem Sound.catchUp_of_idle (h : c.Sound) (hi : ∀ a, (c.standing a).waiting = []) :
    c.catchUp = c :=
  Machine.catchUp_of_idle h.mailbox_eq (pending_eq_empty hi)

/-! ## The demonstration's bridge -/

/-- The bridge of the demonstration, when nothing is stashed. -/
structure Staged (c : Machine) (s : Settings) : Prop where
  sound : c.Sound
  isObject : c.types.isObject Scenario.widget
  located : (c.locate Scenario.widget).2.isSome
  responder : c.bridge.responder = .environment
  settings : c.bridge.settings = s
  roots : c.memory.roots = ∅

theorem Staged.next (h : c.Staged s) (hk : c.Alike c')
    (hw : c'.bridge.settings = c.bridge.settings) (hs : c'.memory.Sound)
    (hr : c'.memory.roots = c.memory.roots) : c'.Staged s where
  sound := h.sound.of_alike hk hs
  isObject := hk.types ▸ h.isObject
  located := by
    have hl := hk.catalog.locate Scenario.widget
    rw [locate, hk.types, hl]
    exact h.located
  responder := hk.responder.trans h.responder
  settings := hw.trans h.settings
  roots := hr.trans h.roots

theorem Staged.catchUp (h : c.Staged s) : c.catchUp.Staged s :=
  h.next (alike_catchUp h.sound) (works_catchUp c).settings h.sound.catchUp.memory c.roots_catchUp

theorem Staged.swept (h : c.Staged s) : c.swept.Staged s := by
  refine h.next c.alike_swept c.works_swept.settings h.sound.swept.memory ?_
  rw [memory_swept]
  rfl

theorem Staged.countCollection (h : c.Staged s) : c.countCollection.Staged s :=
  ⟨h.sound.countCollection, h.isObject, h.located, h.responder, h.settings, h.roots⟩

theorem Staged.collect (h : c.Staged s) : c.collect.Staged s := h.catchUp.swept.countCollection.catchUp

/-! ## Collections -/

/-- The proxy of an object keeps a number. -/
def Keeps (c : Machine) (a : Address) (i : Nat) : Prop :=
  ∃ p r, c.heap.proxy? p = some r ∧ r.object = a ∧ r.released = false ∧
    c.heap.get r.env Scenario.indexMember = .integer (Int64.ofNat i)

theorem counters_swept (c : Machine) :
    c.swept.bridge.counters = (c.giveBackAll c.dead).bridge.counters := by
  rw [swept, releaseDead_eq]
  rfl

section Strong

variable (h : c.Sound) (hs : ∀ a e, c.cache.weak[a]? = some e → c.cache.isStrong a)
include h hs

/-- Every proxy is kept alive. -/
theorem contains_marks_of_strong {p : ProxyId} {r : ProxyState} (hp : c.heap.proxy? p = some r)
    (hr : r.released = false) :
    c.memory.marks.contains (.proxy p) ∧ c.memory.marks.contains (.table r.env) := by
  obtain ⟨e, he, rfl⟩ := h.memory.cached r.object p ⟨r, hp, rfl, hr⟩
  obtain ⟨e', he', hq⟩ := h.memory.exists_of_isStrong (hs r.object e he)
  cases he.symm.trans he'
  have hm := h.memory.contains_marks_of_mem (Memory.mem_rootProxies.2 (.inr ⟨_, hq⟩))
  have henv : (Node.table r.env) ∈ c.memory.heap.successors (.proxy e.proxy) :=
    Heap.mem_successors_proxy.2 ⟨r, hp, rfl⟩
  exact ⟨hm, Memory.Sound.contains_marks_iff.2 (.step (Memory.Sound.contains_marks_iff.1 hm) henv
    (h.memory.closed.holds_env hp))⟩

theorem contains_marks_of_weak {e : CachedProxy} (he : c.cache.weak[a]? = some e) :
    c.memory.marks.contains (.proxy e.proxy) := by
  obtain ⟨r, hr, -, hrel⟩ := h.memory.live a e he
  exact (contains_marks_of_strong h hs hr hrel).1

theorem dead_of_strong : c.dead = [] := by
  refine List.eq_nil_iff_forall_not_mem.2 ?_
  rintro ⟨a, e⟩ hd
  obtain ⟨he, hu⟩ := mem_dead.1 hd
  simp [contains_marks_of_weak h hs he] at hu

theorem outside_swept_of_strong : c.swept.outside = c.outside := by
  rw [outside_swept, dead_of_strong h hs]
  rfl

theorem mailbox_swept_of_strong : c.swept.mailbox = c.mailbox := by
  rw [mailbox, outside_swept_of_strong h hs, c.alike_swept.serial]
  rfl

theorem standing_swept_of_strong (a : Address) : c.swept.standing a = c.standing a := by
  have hw : c.swept.cache.weak[a]? = c.cache.weak[a]? :=
    Option.ext fun e => weak_swept.trans (and_iff_left_of_imp (contains_marks_of_weak h hs))
  rw [standing, standing, host, outside_swept_of_strong h hs, mailbox_swept_of_strong h hs, holding?,
    hw, isStrong_swept, c.alike_swept.serial]
  rfl

theorem keeps_swept_of_strong {i : Nat} (hi : c.Keeps a i) : c.swept.Keeps a i := by
  obtain ⟨p, r, hp, ha, hr, hn⟩ := hi
  obtain ⟨hmp, hmt⟩ := contains_marks_of_strong h hs hp hr
  have hh : c.swept.heap = c.heap.sweep c.memory.marks := congrArg Memory.heap c.memory_swept
  refine ⟨p, r, ?_, ha, hr, ?_⟩
  · rw [hh, Heap.proxy?_sweep, if_pos hmp, hp]
  · rw [hh, Heap.get, Heap.entries_sweep hmt]
    exact hn

theorem counters_swept_of_strong : c.swept.counters = c.counters := by
  rw [counters, counters_swept, dead_of_strong h hs, mailbox_swept_of_strong h hs]
  rfl

/-- A collection drops nothing if nothing waits and all entries are strong. -/
theorem collect_of_strong (hi : ∀ a, (c.standing a).waiting = []) :
    (∀ a, c.collect.standing a = c.standing a) ∧ (∀ a i, c.Keeps a i → c.collect.Keeps a i) ∧
      c.collect.counters = c.counters.countCollection 0 0 ∧ c.collect.bridge.created = 0 := by
  have hst (a : Address) : c.swept.countCollection.standing a = c.standing a := by
    rw [standing_countCollection, standing_swept_of_strong h hs]
  have he : c.collect = c.swept.countCollection := by
    rw [collect_eq, h.catchUp_of_idle hi]
    exact h.swept.countCollection.catchUp_of_idle fun a => hst a ▸ hi a
  rw [he]
  refine ⟨hst, fun a i hk => keeps_swept_of_strong h hs hk, ?_, rfl⟩
  rw [counters_countCollection, counters_swept_of_strong h hs]

end Strong

/-! ## Letting go -/

theorem rootProxies_eq_nil (h : c.Staged s) (hw : ∀ a, c.cache.isStrong a = false) :
    c.memory.rootProxies = [] := by
  refine List.eq_nil_iff_forall_not_mem.2 fun p hp => ?_
  rcases Memory.mem_rootProxies.1 hp with ⟨name, hn⟩ | ⟨a, ha⟩
  · rw [h.roots] at hn
    simp at hn
  · have hs : c.cache.isStrong a := ProxyCache.isStrong_iff_exists.2 ⟨p, ha⟩
    simp [hw a] at hs

/-- A collection drops all entries if none is strong. -/
theorem mem_dead_of_weak (h : c.Staged s) (hw : ∀ a, c.cache.isStrong a = false) {e : CachedProxy} :
    (a, e) ∈ c.dead ↔ c.cache.weak[a]? = some e := by
  have hm : c.memory.marks.contains (.proxy e.proxy) = false := by
    refine Bool.eq_false_iff.2 fun hn => ?_
    have hr := Memory.Sound.contains_marks_iff.1 hn
    rw [rootProxies_eq_nil h hw] at hr
    generalize Node.proxy e.proxy = n at hr
    clear hn
    induction hr with
    | root hp _ => simp at hp
    | step _ _ _ ih => exact ih
  rw [mem_dead, hm]
  exact and_iff_left rfl

/-- A dead entry gives its toggle reference back. -/
theorem account_swept_of_mem {e : CachedProxy} {g : Generation} (ha : (a, e) ∈ c.dead)
    (ho : c.types.isObject (c.host.typeOf a)) (hg : e.toggle = some g) (l l' : Nat)
    (hs hs' : List Holding) : c.swept.outside.account a l' hs' =
      (c.outside.account a l hs).change (.unwatch (.bridge c.bridge.serial g)) l' hs' := by
  have hr : (c.giveBackRoute (c.host.typeOf a) e.toggle).2.bind Route.change? =
      some (.unwatch (.bridge c.bridge.serial g)) := by
    rw [giveBackRoute_of_isObject ho, hg]
    rfl
  rw [outside_swept, (agreeOn_giveBackAll_of_mem c.nodup_dead ha).account, account_giveBack_self hr l hs]

/-- Hearing that everybody else let go of some objects makes their proxies weak. -/
theorem counters_foldl_weaken {ns : List Notification} (hd : (ns.map Notification.object).Nodup)
    (h : ∀ n ∈ ns, n.isLast ∧ c.cache.generation n.object = some n.generation ∧
      c.cache.isStrong n.object) :
    (ns.foldl applyNotification c).bridge.counters =
      { c.bridge.counters with demotions := c.bridge.counters.demotions + .ofNat ns.length } := by
  induction ns generalizing c with
  | nil => simp
  | cons n ns ih =>
    rw [List.map_cons, List.nodup_cons] at hd
    obtain ⟨hl, hg, hs⟩ := h n List.mem_cons_self
    have hn : (c.applyNotification n).bridge.counters = c.bridge.counters.bump .demotions := by
      have hs' : c.cache.strong.contains n.object = true := hs
      rw [applyNotification, ProxyCache.applyNotification, if_pos hg, if_pos hl, ProxyCache.weaken,
        if_pos hg, hs']
      rfl
    rw [List.foldl_cons, ih hd.2, hn, List.length_cons, ofNat_succ]
    · rw [← UInt64.add_assoc]
      rfl
    · intro m hm
      have hne : m.object ≠ n.object := fun he => hd.1 (he ▸ List.mem_map_of_mem hm)
      obtain ⟨hl', hg', hs'⟩ := h m (List.mem_cons_of_mem _ hm)
      refine ⟨hl', ?_, ?_⟩
      · rw [cache_applyNotification, ProxyCache.generation, ProxyCache.weak_applyNotification]
        exact hg'
      · rw [cache_applyNotification, ProxyCache.isStrong_iff_exists,
          ProxyCache.strong_applyNotification_of_ne hne]
        exact ProxyCache.isStrong_iff_exists.1 hs'

/-- Releases are counted one by one. -/
theorem foldl_bump_releases (k : Counters) (n : Nat) :
    (List.replicate n Counter.releases).foldl Counters.bump k =
      { k with releases := k.releases + .ofNat n } := by
  induction n generalizing k with
  | zero => simp
  | succ n ih =>
    rw [List.replicate_succ, List.foldl_cons, ih, ofNat_succ, ← UInt64.add_assoc]
    rfl

/-- Everybody else let go of some objects that are wrapped, and the bridge has yet to hear of it.  No
other object exists. -/
structure Abandoned (c : Machine) (g : Address → Generation) (xs : List Address) : Prop where
  nodup : xs.Nodup
  pending : c.mailbox.pending.toList = xs.map fun a => ⟨a, g a, true⟩
  counts : ∀ a ∈ xs, c.host.counts? a = some ⟨1, false, [.bridge c.bridge.serial (g a)]⟩
  entries : ∀ a ∈ xs, c.holding? a = some ⟨c.bridge.serial, some (g a), true⟩
  typeOf : ∀ a ∈ xs, c.host.typeOf a = Scenario.widget
  gone : ∀ a ∉ xs, c.host.counts? a = none ∧ c.holding? a = none

namespace Abandoned

variable {g : Address → Generation} {xs : List Address} (h : c.Abandoned g xs)
include h

theorem about_of_mem (ha : a ∈ xs) : c.mailbox.about a = [(g a, true)] := by
  have hp : (c.mailbox.pending.toList.filter fun n => n.object = a) = [⟨a, g a, true⟩] := by
    rw [h.pending]
    refine filter_eq_singleton (h.nodup.map fun b b' hb => congrArg Notification.object hb)
      (List.mem_map_of_mem ha) rfl fun n hn hna => ?_
    obtain ⟨b, -, rfl⟩ := List.mem_map.1 hn
    cases hna
    rfl
  rw [Mailbox.about, hp]
  rfl

theorem holding?_catchUp (hs : c.Sound) (a : Address) :
    c.catchUp.holding? a = if a ∈ xs then some ⟨c.bridge.serial, some (g a), false⟩ else none := by
  rw [Machine.holding?_catchUp hs.memory]
  split_ifs with ha
  · rw [h.entries a ha, h.about_of_mem ha]
    simp [Holding.hear]
  · rw [(h.gone a ha).2]
    rfl

theorem isStrong_catchUp (hs : c.Sound) (a : Address) : c.catchUp.cache.isStrong a = false := by
  have hh := h.holding?_catchUp hs a
  split_ifs at hh with ha
  · obtain ⟨e, -, hx⟩ := Option.map_eq_some_iff.1 hh
    exact congrArg Holding.strong hx
  · exact hs.catchUp.memory.isStrong_of_weak_eq_none (holding?_eq_none_iff.1 hh)

theorem mem_dead (hs : c.Staged s) {e : CachedProxy} :
    (a, e) ∈ c.catchUp.dead ↔ c.catchUp.cache.weak[a]? = some e :=
  mem_dead_of_weak hs.catchUp (h.isStrong_catchUp hs.sound)

/-- Every one of the objects has a dead entry. -/
theorem dead_of_mem (hs : c.Staged s) (ha : a ∈ xs) :
    ∃ e, (a, e) ∈ c.catchUp.dead ∧ e.toggle = some (g a) := by
  have hh := h.holding?_catchUp hs.sound a
  rw [if_pos ha] at hh
  obtain ⟨e, he, hx⟩ := Option.map_eq_some_iff.1 hh
  exact ⟨e, (h.mem_dead hs).2 he, congrArg Holding.toggle hx⟩

theorem mem_of_dead (hs : c.Staged s) {e : CachedProxy} (hd : (a, e) ∈ c.catchUp.dead) : a ∈ xs := by
  by_contra ha
  have hh := h.holding?_catchUp hs.sound a
  rw [if_neg ha] at hh
  exact absurd ((holding?_eq_none_iff.1 hh).symm.trans ((h.mem_dead hs).1 hd)) (by simp)

theorem length_dead (hs : c.Staged s) : c.catchUp.dead.length = xs.length := by
  have hp : (c.catchUp.dead.map Prod.fst).Perm xs := by
    refine (List.perm_ext_iff_of_nodup c.catchUp.nodup_dead h.nodup).2 fun a => ⟨fun ha => ?_, fun ha => ?_⟩
    · obtain ⟨⟨_, e⟩, hd, rfl⟩ := List.mem_map.1 ha
      exact h.mem_of_dead hs hd
    · obtain ⟨e, hd, -⟩ := h.dead_of_mem hs ha
      exact List.mem_map.2 ⟨_, hd, rfl⟩
  rw [← hp.length_eq, List.length_map]

/-- The objects are freed. -/
theorem standing_swept (hs : c.Staged s) (a : Address) : c.catchUp.swept.standing a = .gone := by
  have hk := alike_catchUp hs.sound
  have hw : c.catchUp.swept.holding? a = none := by
    refine holding?_eq_none_iff.2 (Option.eq_none_iff_forall_ne_some.2 fun e he => ?_)
    obtain ⟨he, hm⟩ := weak_swept.1 he
    have hd := (Machine.mem_dead.1 ((h.mem_dead hs).2 he)).2
    simp [hm] at hd
  have hb : (c.catchUp.outside.boxes a c.catchUp.bridge.serial).getD [] = [] := by
    rw [← about_mailbox, about_catchUp]
  rw [standing_eq, account, hw, c.catchUp.alike_swept.serial]
  by_cases ha : a ∈ xs
  · obtain ⟨e, hd, ht⟩ := h.dead_of_mem hs ha
    have ho : c.catchUp.types.isObject (c.catchUp.host.typeOf a) := by
      rw [hk.types, hk.typeOf, h.typeOf a ha]
      exact hs.isObject
    have hc : c.catchUp.outside.host.counts? a = some ⟨1, false, [.bridge c.catchUp.bridge.serial (g a)]⟩ := by
      rw [← Machine.host, host_catchUp, h.counts a ha, hk.serial]
    rw [account_swept_of_mem hd ho ht 0 0 [] _]
    simp [Account.standing, Account.change, Outside.account, hc, hb, Counts.apply, Counts.decrement,
      Standing.gone]
  · have hd : a ∉ c.catchUp.dead.map Prod.fst := by
      rintro hm
      obtain ⟨⟨_, e⟩, hd, rfl⟩ := List.mem_map.1 hm
      exact ha (h.mem_of_dead hs hd)
    have hc : c.catchUp.outside.host.counts? a = none := by
      rw [← Machine.host, host_catchUp, (h.gone a ha).1]
    rw [outside_swept, account_giveBackAll_of_not_mem hd]
    simp [Account.standing, Outside.account, hc, hb, Standing.gone]

theorem counters_catchUp : c.catchUp.bridge.counters =
    { c.bridge.counters with demotions := c.bridge.counters.demotions + .ofNat xs.length } := by
  have hp : c.mailbox.takeAll.2 = xs.map fun a => ⟨a, g a, true⟩ := h.pending
  have hd : ((xs.map fun a => (⟨a, g a, true⟩ : Notification)).map Notification.object).Nodup := by
    rw [List.map_map]
    exact (List.map_id xs).symm ▸ h.nodup
  have hn (n : Notification) (hn : n ∈ xs.map fun a => (⟨a, g a, true⟩ : Notification)) :
      n.isLast ∧ c.cache.generation n.object = some n.generation ∧ c.cache.isStrong n.object := by
    obtain ⟨a, ha, rfl⟩ := List.mem_map.1 hn
    obtain ⟨e, he, hx⟩ := Option.map_eq_some_iff.1 (h.entries a ha)
    exact ⟨rfl, Option.bind_eq_some_iff.2 ⟨e, he, congrArg Holding.toggle hx⟩,
      congrArg Holding.strong hx⟩
  have hc := counters_foldl_weaken (c := c.setMailbox c.mailbox.takeAll.1) hd hn
  rw [List.length_map] at hc
  rw [catchUp, hp, hc]
  rfl

/-- Nothing leaks. -/
theorem counters_swept (hs : c.Staged s) : c.catchUp.swept.bridge.counters =
    { c.bridge.counters with
      demotions := c.bridge.counters.demotions + .ofNat xs.length
      releases := c.bridge.counters.releases + .ofNat xs.length } := by
  have hk := alike_catchUp hs.sound
  have hr : (c.catchUp.dead.map fun item => if c.catchUp.canReturn item.1 item.2.toggle then
      Counter.releases else .leaks) = List.replicate xs.length .releases := by
    rw [← h.length_dead hs, ← List.map_const']
    refine List.map_congr_left fun ⟨a, e⟩ hd => if_pos ?_
    rw [canReturn, giveBackRoute_of_isObject]
    · rfl
    · rw [hk.types, hk.typeOf, h.typeOf a (h.mem_of_dead hs hd)]
      exact hs.isObject
  rw [Machine.counters_swept, counters_giveBackAll, hr, foldl_bump_releases, h.counters_catchUp]

/-- A collection gives everything back. -/
theorem collect (hs : c.Staged s) : (∀ a, c.collect.standing a = .gone) ∧
    c.collect.counters =
      { c.counters.countCollection 0 0 with
        demotions := c.counters.demotions + .ofNat xs.length
        releases := c.counters.releases + .ofNat xs.length } ∧
    c.collect.bridge.created = 0 := by
  have hg (a : Address) : c.catchUp.swept.countCollection.standing a = .gone := by
    rw [standing_countCollection, h.standing_swept hs]
  have he : c.collect = c.catchUp.swept.countCollection := by
    rw [collect_eq]
    exact hs.catchUp.swept.countCollection.sound.catchUp_of_idle fun a =>
      congrArg Standing.waiting (hg a)
  have hf : c.catchUp.swept.mailbox.foreign = c.mailbox.foreign := by
    have hm := congrArg Mailbox.foreign c.mailbox_catchUp
    rw [mailbox, outside_swept, c.catchUp.alike_swept.serial, foreign_giveBackAll]
    exact hm
  rw [he]
  refine ⟨hg, ?_, rfl⟩
  rw [counters_countCollection, counters, hf, h.counters_swept hs]
  rfl

end Abandoned

end Machine

end NativeProxies
