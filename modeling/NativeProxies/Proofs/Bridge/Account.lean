import NativeProxies.Bridge.Wrap
import NativeProxies.Proofs.Bridge.Ownership
import NativeProxies.Proofs.Memory

/-!
# Bridges and accounts

The account of an object as a bridge sees it (`Machine.account`), and what notifications do to it.
A notification changes nothing but what the cache keeps alive (`Machine.Toggles`), and a bridge that
catches up hears what waits for it about every object (`Machine.account_catchUp`).
-/

namespace NativeProxies

namespace Machine

variable {c c' c₁ c₂ : Machine} {a b : Address}

/-- The entry of a bridge for an object. -/
def holding? (c : Machine) (a : Address) : Option Holding :=
  c.cache.weak[a]?.map fun e => ⟨c.bridge.serial, e.toggle, c.cache.isStrong a⟩

/-- The account of an object as a bridge sees it, with the loose references and the entries of other
bridges. -/
def account (c : Machine) (a : Address) (loose : Nat) (others : List Holding) : Account :=
  c.outside.account a loose ((c.holding? a).toList ++ others)

/-- The memory is sound, and the bridge has a mailbox. -/
structure Sound (c : Machine) : Prop where
  memory : c.memory.Sound
  mailbox : ∃ m, c.outside.mailboxes[c.bridge.serial]? = some m

theorem holding?_eq_none_iff : c.holding? a = none ↔ c.cache.weak[a]? = none := by
  rw [holding?, Option.map_eq_none_iff]

theorem serial_of_holding? {h : Holding} (hh : c.holding? a = some h) :
    h.serial = c.bridge.serial := by
  obtain ⟨e, -, rfl⟩ := Option.map_eq_some_iff.1 hh
  rfl

theorem account_of_outside (ho : c'.outside = c.outside) (hh : c'.holding? a = c.holding? a)
    (l : Nat) (hs : List Holding) : c'.account a l hs = c.account a l hs := by
  rw [account, account, ho, hh]

theorem holding?_of_memory (hs : c'.bridge.serial = c.bridge.serial)
    (hm : c'.memory = c.memory) (a : Address) : c'.holding? a = c.holding? a := by
  have hc : c'.cache = c.cache := congrArg Memory.cache hm
  rw [holding?, holding?, hs, hc]

/-! ## Notifications -/

/-- The second machine is the first one but for what its cache keeps alive, and what it counts. -/
structure Toggles (c c' : Machine) : Prop where
  serial : c'.bridge.serial = c.bridge.serial
  responder : c'.bridge.responder = c.bridge.responder
  settings : c'.bridge.settings = c.bridge.settings
  catalog : c'.bridge.catalog = c.bridge.catalog
  outside : c'.outside = c.outside
  heap : c'.heap = c.heap
  roots : c'.memory.roots = c.memory.roots
  weak : c'.cache.weak = c.cache.weak
  sound : c.memory.Sound → c'.memory.Sound

theorem Toggles.refl (c : Machine) : c.Toggles c :=
  ⟨rfl, rfl, rfl, rfl, rfl, rfl, rfl, rfl, id⟩

theorem Toggles.trans (h₁ : c.Toggles c₁) (h₂ : c₁.Toggles c₂) : c.Toggles c₂ where
  serial := h₂.serial.trans h₁.serial
  responder := h₂.responder.trans h₁.responder
  settings := h₂.settings.trans h₁.settings
  catalog := h₂.catalog.trans h₁.catalog
  outside := h₂.outside.trans h₁.outside
  heap := h₂.heap.trans h₁.heap
  roots := h₂.roots.trans h₁.roots
  weak := h₂.weak.trans h₁.weak
  sound := h₂.sound ∘ h₁.sound

theorem Toggles.alike (h : c.Toggles c') : c.Alike c' :=
  ⟨h.serial, h.responder, h.catalog ▸ .refl _ _, h.outside ▸ .refl _⟩

theorem toggles_applyNotification (c : Machine) (n : Notification) :
    c.Toggles (c.applyNotification n) := by
  have hw := c.cache.weak_applyNotification c.heap n
  have ht : c.Toggles (c.setCache (c.cache.applyNotification c.heap n).1) :=
    ⟨rfl, rfl, rfl, rfl, rfl, rfl, rfl, hw, fun h => h.applyNotification n⟩
  rw [applyNotification]
  cases (c.cache.applyNotification c.heap n).2 with
  | none => exact ht
  | some k => cases k <;> exact ht.trans ⟨rfl, rfl, rfl, rfl, rfl, rfl, rfl, rfl, id⟩

theorem toggles_foldl_applyNotification (c : Machine) (ns : List Notification) :
    c.Toggles (ns.foldl applyNotification c) :=
  List.foldlRecOn (motive := c.Toggles) _ _ (.refl c) fun c' h n _ =>
    h.trans (toggles_applyNotification c' n)

theorem cache_applyNotification (c : Machine) (n : Notification) :
    (c.applyNotification n).cache = (c.cache.applyNotification c.heap n).1 := by
  rw [applyNotification]
  cases (c.cache.applyNotification c.heap n).2 with
  | none => rfl
  | some k => cases k <;> rfl

theorem holding?_applyNotification (h : c.memory.Sound) (n : Notification) (a : Address) :
    (c.applyNotification n).holding? a = (c.holding? a).map fun e =>
      if n.object = a then e.hear [(n.generation, n.isLast)] else e := by
  have ht := c.toggles_applyNotification n
  have hi : (c.applyNotification n).cache.isStrong a =
      if n.object = a ∧ c.cache.generation a = some n.generation then !n.isLast
      else c.cache.isStrong a := by
    rw [cache_applyNotification]
    exact h.isStrong_applyNotification n a
  rw [holding?, holding?, ht.weak, ht.serial, hi]
  cases he : c.cache.weak[a]? with
  | none => rfl
  | some e =>
    have hg : c.cache.generation a = e.toggle := by simp [ProxyCache.generation, he]
    rw [hg]
    by_cases hn : n.object = a
    · simp [hn, Holding.hear, apply_ite (f := fun b => (⟨c.bridge.serial, e.toggle, b⟩ : Holding))]
    · simp [hn]

theorem holding?_foldl_applyNotification (h : c.memory.Sound) (ns : List Notification)
    (a : Address) :
    (ns.foldl applyNotification c).holding? a = (c.holding? a).map fun e =>
      e.hear ((ns.filter fun n => n.object = a).map fun n => (n.generation, n.isLast)) := by
  induction ns generalizing c with
  | nil => simp [Holding.hear]
  | cons n ns ih =>
    have hs := (c.toggles_applyNotification n).sound h
    rw [List.foldl_cons, ih hs, holding?_applyNotification h, Option.map_map]
    by_cases hn : n.object = a
    · simp [hn, Holding.hear, Function.comp_def]
    · simp [hn, Function.comp_def]

/-- What catching up leaves alone; the cache changes as the notifications say. -/
theorem toggles_catchUp (c : Machine) :
    (c.setMailbox c.mailbox.takeAll.1).Toggles c.catchUp :=
  toggles_foldl_applyNotification _ _

theorem weak_catchUp (c : Machine) : c.catchUp.cache.weak = c.cache.weak := c.toggles_catchUp.weak

theorem heap_catchUp (c : Machine) : c.catchUp.heap = c.heap := c.toggles_catchUp.heap

theorem roots_catchUp (c : Machine) : c.catchUp.memory.roots = c.memory.roots :=
  c.toggles_catchUp.roots

theorem host_catchUp (c : Machine) : c.catchUp.host = c.host := by
  rw [host, c.toggles_catchUp.outside]
  rfl

theorem journal_catchUp (c : Machine) : c.catchUp.outside.journal = c.outside.journal := by
  rw [c.toggles_catchUp.outside]
  rfl

theorem mailbox_catchUp (c : Machine) : c.catchUp.mailbox = c.mailbox.takeAll.1 := by
  rw [mailbox, c.toggles_catchUp.outside, c.toggles_catchUp.serial]
  exact Outside.mailbox_eq Std.ExtTreeMap.getElem?_insert_self

theorem pending_catchUp (c : Machine) : c.catchUp.mailbox.pending = #[] :=
  congrArg Mailbox.pending c.mailbox_catchUp

/-- A mailbox that is there is put back as it is. -/
theorem setMailbox_mailbox (h : c.Sound) : c.setMailbox c.mailbox = c := by
  obtain ⟨m, hm⟩ := h.mailbox
  rw [setMailbox, mailbox, Outside.mailbox_eq hm, Outside.setMailbox_eq hm]

theorem about_mailbox (c : Machine) (a : Address) :
    c.mailbox.about a = (c.outside.boxes a c.bridge.serial).getD [] := by
  rw [mailbox, Outside.mailbox, Outside.boxes]
  cases c.outside.mailboxes[c.bridge.serial]? <;> rfl

theorem about_catchUp (c : Machine) (a : Address) : c.catchUp.mailbox.about a = [] := by
  rw [Mailbox.about, pending_catchUp]
  rfl

/-- Nothing happens to a bridge that has nothing to hear. -/
theorem catchUp_of_idle {m : Mailbox} (hm : c.outside.mailboxes[c.bridge.serial]? = some m)
    (hp : m.pending = #[]) : c.catchUp = c := by
  have he : c.mailbox = m := Outside.mailbox_eq hm
  have ht : m.takeAll = (m, []) := by
    obtain ⟨pending, next, foreign⟩ := m
    cases hp
    rfl
  rw [catchUp, he, ht, setMailbox, Outside.setMailbox_eq hm]
  rfl

/-- A bridge that has caught up has nothing left to hear. -/
theorem catchUp_catchUp (c : Machine) : c.catchUp.catchUp = c.catchUp := by
  refine catchUp_of_idle (m := c.mailbox.takeAll.1) ?_ rfl
  rw [c.toggles_catchUp.outside, c.toggles_catchUp.serial]
  exact Std.ExtTreeMap.getElem?_insert_self

theorem alike_catchUp (h : c.Sound) : c.Alike c.catchUp := by
  obtain ⟨m, hm⟩ := h.mailbox
  have he : c.mailbox = m := Outside.mailbox_eq hm
  have ha : c.Alike (c.setMailbox c.mailbox.takeAll.1) :=
    ⟨rfl, rfl, .refl _ _, Outside.evolves_setMailbox hm (he ▸ Nat.le_refl _) (by simp [Mailbox.takeAll])⟩
  exact ha.trans c.toggles_catchUp.alike

theorem holding?_catchUp (h : c.memory.Sound) (a : Address) :
    c.catchUp.holding? a = (c.holding? a).map fun e => e.hear (c.mailbox.about a) :=
  holding?_foldl_applyNotification (c := c.setMailbox c.mailbox.takeAll.1) h _ a

theorem Sound.of_alike (h : c.Sound) (hk : c.Alike c') (hm : c'.memory.Sound) : c'.Sound where
  memory := hm
  mailbox := by
    obtain ⟨m, hm⟩ := h.mailbox
    obtain ⟨m', hm', -⟩ := hk.outside.issued _ m hm
    rw [hk.serial]
    exact ⟨m', hm'⟩

theorem Sound.catchUp (h : c.Sound) : c.catchUp.Sound :=
  h.of_alike (alike_catchUp h) (c.toggles_catchUp.sound h.memory)

/-- A bridge that catches up hears what waits for it about an object. -/
theorem account_catchUp (h : c.Sound) (a : Address) (l : Nat) {hs : List Holding}
    (hne : c.bridge.serial ∉ hs.map Holding.serial) :
    c.catchUp.account a l hs = (c.account a l hs).hear c.bridge.serial := by
  obtain ⟨m, hm⟩ := h.mailbox
  have hbox : c.outside.boxes a c.bridge.serial = some (c.mailbox.about a) := by
    rw [Outside.boxes, hm, mailbox, Outside.mailbox_eq hm]
    rfl
  have hs' : hs.map (fun e => if e.serial = c.bridge.serial then
      e.hear ((c.outside.boxes a c.bridge.serial).getD []) else e) = hs := by
    refine (List.map_congr_left fun e he => ?_).trans (List.map_id hs)
    have hse : e.serial ≠ c.bridge.serial := fun hse => hne (hse ▸ List.mem_map_of_mem he)
    rw [if_neg hse, id]
  have ho : c.catchUp.outside = c.outside.setMailbox c.bridge.serial c.mailbox.takeAll.1 :=
    c.toggles_catchUp.outside
  simp only [account, Outside.account, Account.hear, ho, Account.mk.injEq, true_and]
  refine ⟨rfl, ?_, ?_⟩
  · rw [Outside.boxes_setMailbox, hbox]
    rfl
  · rw [List.map_append, hs', holding?_catchUp h.memory, hbox]
    cases he : c.holding? a with
    | none => rfl
    | some e => simp [serial_of_holding? he]

theorem deeds_catchUp {fair : Bool} (h : c.Sound) (a : Address) (l : Nat) {hs : List Holding}
    (hne : c.bridge.serial ∉ hs.map Holding.serial) :
    Deeds fair (c.account a l hs) (c.catchUp.account a l hs) := by
  rw [account_catchUp h a l hne]
  exact .single (.hear _)

theorem Sound.applyNotification (h : c.Sound) (n : Notification) :
    (c.applyNotification n).Sound :=
  h.of_alike (c.toggles_applyNotification n).alike ((c.toggles_applyNotification n).sound h.memory)

/-- A hint that is true of the registration of an entry is a fair deed. -/
theorem deeds_applyNotification {fair : Bool} (h : c.Sound) (n : Notification) (a : Address) (l : Nat)
    {hs : List Holding} (hne : c.bridge.serial ∉ hs.map Holding.serial)
    (hn : fair → n.object = a → c.cache.generation a = some n.generation →
      n.isLast = decide ((c.outside.account a l hs).refs < 2)) :
    Deeds fair (c.account a l hs) ((c.applyNotification n).account a l hs) := by
  have hh := holding?_applyNotification h.memory n a
  have ho := (c.toggles_applyNotification n).outside
  by_cases ha : n.object = a
  · by_cases hg : c.cache.generation a = some n.generation
    · have he : (c.applyNotification n).account a l hs =
          (c.account a l hs).hint c.bridge.serial n.generation n.isLast := by
        have hs' : hs.map (fun e => if e.serial = c.bridge.serial then
            e.hear [(n.generation, n.isLast)] else e) = hs := by
          refine (List.map_congr_left fun e he => ?_).trans (List.map_id hs)
          have hse : e.serial ≠ c.bridge.serial := fun hse => hne (hse ▸ List.mem_map_of_mem he)
          rw [if_neg hse, id]
        simp only [account, Outside.account, Account.hint, ho, hh, ha, if_true, List.map_append, hs',
          Account.mk.injEq, true_and]
        cases he : c.holding? a with
        | none => rfl
        | some e => simp [serial_of_holding? he]
      rw [he]
      exact .single (.hint _ _ _ fun hf => hn hf ha hg)
    · have he : (c.applyNotification n).holding? a = c.holding? a := by
        rw [hh, holding?, Option.map_map]
        refine Option.map_congr fun e he => ?_
        have ht : e.toggle ≠ some n.generation := by
          simpa [ProxyCache.generation, Option.mem_def.1 he] using hg
        rw [Function.comp_apply, if_pos ha, Holding.hear_of_forall_ne (by simpa using ht)]
      rw [account_of_outside ho he]
  · have he : (c.applyNotification n).holding? a = c.holding? a := by
      simp [hh, ha]
    rw [account_of_outside ho he]

end Machine

end NativeProxies
