import NativeProxies.Proofs.Bridge.Account

/-!
# Wrapping

Wrapping an object answers a live proxy of it and keeps the memory sound (`Machine.wrap_spec`).  For
the account of the object it is a deed that enters the object, with the reference handed over or one
that is claimed, unless it was entered before (`Machine.deeds_wrap`).
-/

namespace NativeProxies

namespace Machine

variable {c c' : Machine} {a b : Address}

/-! ## Making a proxy -/

@[simp] theorem memory_registerProxy (c : Machine) (a : Address) :
    (c.registerProxy a).1.memory = c.memory := by
  rw [registerProxy]
  split_ifs <;> rfl

theorem alike_registerProxy (h : c.Sound) (a : Address) : c.Alike (c.registerProxy a).1 := by
  obtain ⟨m, hm⟩ := h.mailbox
  have he : c.mailbox = m := Outside.mailbox_eq hm
  rw [registerProxy]
  split_ifs
  · exact ⟨rfl, rfl, .refl _ _,
      Outside.evolves_setMailbox hm (he ▸ Nat.le_succ _) fun n hn => he ▸ hn⟩
  · exact .refl c

theorem account_registerProxy (h : c.Sound) (a b : Address) (l : Nat) (hs : List Holding) :
    (c.registerProxy a).1.outside.account b l hs = c.outside.account b l hs := by
  obtain ⟨m, hm⟩ := h.mailbox
  rw [registerProxy]
  split_ifs
  · have hbox : c.outside.boxes b c.bridge.serial = some (c.mailbox.issue.1.about b) := by
      rw [Outside.boxes, hm, mailbox, Outside.mailbox_eq hm]
      rfl
    have ho : (c.setMailbox c.mailbox.issue.1).outside.boxes b = c.outside.boxes b := by
      rw [setMailbox, Outside.boxes_setMailbox, ← hbox, Function.update_eq_self]
    exact congrArg (fun x : Boxes => (⟨c.host.counts? b, x, l, hs⟩ : Account)) ho
  · rfl

/-- The machine that entered a new proxy in its cache and has yet to settle the reference behind
it. -/
def entered (c : Machine) (a : Address) : Machine :=
  let r := c.registerProxy a
  r.1.setMemory
    { c.memory with
      heap := (c.heap.newProxy a).1
      cache := { c.cache with weak := c.cache.weak.insert a ⟨(c.heap.newProxy a).2, r.2⟩ } }

theorem create_eq (ha : c.cache.weak[a]? = none) (handedOver : Bool) :
    c.create a handedOver =
      (((c.entered a).own a (c.registerProxy a).2 handedOver).countCreated,
        .ok (c.heap.newProxy a).2) := by
  have hadd (e : CachedProxy) :
      c.cache.add a e = .ok { c.cache with weak := c.cache.weak.insert a e } := by
    rw [ProxyCache.add, if_neg]
    simpa using ha
  have hm := memory_registerProxy c a
  rw [create, entered]
  generalize c.registerProxy a = r at hm
  obtain ⟨⟨bridge, outside⟩, g⟩ := r
  cases bridge
  cases hm
  have henroll := hadd ⟨(c.heap.newProxy a).2, g⟩
  simp only [newProxy, enroll, heap, cache, memory, setHeap, setMemory] at henroll ⊢
  rw [henroll]
  rfl

theorem weak_entered_self (c : Machine) (a : Address) : (c.entered a).cache.weak[a]? =
    some ⟨(c.heap.newProxy a).2, (c.registerProxy a).2⟩ :=
  Std.ExtTreeMap.getElem?_insert_self

theorem alike_entered (h : c.Sound) (a : Address) : c.Alike (c.entered a) :=
  (alike_registerProxy h a).trans ⟨rfl, rfl, .refl _ _, .refl _⟩

theorem journal_entered (c : Machine) (a : Address) :
    (c.entered a).outside.journal = c.outside.journal := by
  rw [entered, registerProxy]
  split_ifs <;> rfl

/-! ## Settling the reference behind a new proxy -/

/-- What settling the reference behind a proxy leaves alone. -/
theorem own_memory (h : c.memory.Sound) (a : Address) (g : Option Generation) (handedOver : Bool) :
    (c.own a g handedOver).memory.Sound ∧ (c.own a g handedOver).heap = c.heap ∧
      (c.own a g handedOver).memory.roots = c.memory.roots ∧
      (c.own a g handedOver).cache.weak = c.cache.weak := by
  have hr : (if handedOver then (c, true) else c.claim a).1.memory = c.memory := by
    cases handedOver <;> simp
  rw [own]
  generalize (if handedOver then (c, true) else c.claim a) = r at hr
  cases g with
  | none => exact ⟨hr ▸ h, congrArg Memory.heap hr, congrArg Memory.roots hr,
      congrArg (fun m => m.cache.weak) hr⟩
  | some g =>
    have ht := toggles_applyNotification
      (r.1.call (.method (.watch (.bridge r.1.bridge.serial g))) a) ⟨a, g, false⟩
    have hw : (r.1.startWatching a g r.2).memory =
        ((r.1.call (.method (.watch (.bridge r.1.bridge.serial g))) a).applyNotification
          ⟨a, g, false⟩).memory := by
      rw [startWatching]
      split_ifs <;> rfl
    have hs : (r.1.call (.method (.watch (.bridge r.1.bridge.serial g))) a).memory = c.memory := hr
    refine ⟨?_, ?_, ?_, ?_⟩
    · exact hw ▸ ht.sound (hs ▸ h)
    · exact (congrArg Memory.heap hw).trans (ht.heap.trans (congrArg Memory.heap hs))
    · exact (congrArg Memory.roots hw).trans (ht.roots.trans (congrArg Memory.roots hs))
    · exact (congrArg (fun m => m.cache.weak) hw).trans
        (ht.weak.trans (congrArg (fun m => m.cache.weak) hs))

/-- A registration was given out by the mailbox of the bridge. -/
def Issued (c : Machine) (g : Generation) : Prop :=
  ∃ m, c.outside.mailboxes[c.bridge.serial]? = some m ∧ g < m.nextGeneration

theorem Alike.issued {g : Generation} (h : c.Alike c') (hg : c.Issued g) : c'.Issued g := by
  obtain ⟨m, hm, hlt⟩ := hg
  obtain ⟨m', hm', hle⟩ := h.outside.issued _ m hm
  exact ⟨m', h.serial ▸ hm', Nat.lt_of_lt_of_le hlt hle⟩

theorem alike_startWatching {g : Generation} (hg : c.Issued g) (a : Address) (owned : Bool) :
    c.Alike (c.startWatching a g owned) := by
  have hw : c.Alike (c.call (.method (.watch (.bridge c.bridge.serial g))) a) :=
    alike_call (fun s g' he => by cases he; exact hg) a
  have hn := hw.trans (toggles_applyNotification _ ⟨a, g, false⟩).alike
  rw [startWatching]
  split_ifs
  · exact hn.trans (alike_call (fun _ _ he => by cases he) a)
  · exact hn

theorem alike_own {g : Option Generation} (hg : ∀ n ∈ g, c.Issued n) (a : Address)
    (handedOver : Bool) : c.Alike (c.own a g handedOver) := by
  have hr : c.Alike (if handedOver then (c, true) else c.claim a).1 := by
    cases handedOver
    · exact alike_claim c a
    · exact .refl c
  rw [own]
  cases g with
  | none => exact hr
  | some g => exact hr.trans (alike_startWatching (hr.issued (hg g rfl)) a _)

theorem outside_startWatching (c : Machine) (a : Address) (g : Generation) (owned : Bool) :
    (c.startWatching a g owned).outside =
      if owned then
        (c.outside.call c.bridge.serial (.method (.watch (.bridge c.bridge.serial g))) a).call
          c.bridge.serial (.method .drop) a
      else c.outside.call c.bridge.serial (.method (.watch (.bridge c.bridge.serial g))) a := by
  have ht := toggles_applyNotification
    (c.call (.method (.watch (.bridge c.bridge.serial g))) a) ⟨a, g, false⟩
  cases owned with
  | false => exact ht.outside
  | true =>
    refine Eq.trans ?_
      (congrArg (fun o : Outside => o.call c.bridge.serial (.method .drop) a) ht.outside)
    exact congrArg (fun s => Outside.call _ s (.method .drop) a) ht.serial

theorem account_startWatching_of_ne (hb : b ≠ a) (g : Generation) (owned : Bool) (l : Nat)
    (hs : List Holding) :
    (c.startWatching a g owned).outside.account b l hs = c.outside.account b l hs := by
  have hw (r : RefChange) (c : Machine) :
      (c.call (.method r) a).outside.account b l hs = c.outside.account b l hs :=
    Outside.account_call_of_ne hb _ _ l hs
  rw [startWatching]
  split_ifs
  · rw [hw, (toggles_applyNotification _ _).outside, hw]
  · rw [(toggles_applyNotification _ _).outside, hw]

theorem account_own_of_ne (hb : b ≠ a) (g : Option Generation) (handedOver : Bool) (l : Nat)
    (hs : List Holding) :
    (c.own a g handedOver).outside.account b l hs = c.outside.account b l hs := by
  have hr : (if handedOver then (c, true) else c.claim a).1.outside.account b l hs =
      c.outside.account b l hs := by
    cases handedOver
    · exact account_claim_of_ne hb l hs
    · rfl
  rw [own]
  cases g with
  | none => exact hr
  | some g => exact (account_startWatching_of_ne hb g _ l hs).trans hr

/-- An entry whose object is watched is strong. -/
theorem account_startWatching_self {g : Generation} (h : c.memory.Sound)
    (hg : c.cache.generation a = some g) (l l' : Nat) (hs hs' : List Holding) :
    (c.startWatching a g true).account a l' hs' =
      ((c.outside.account a l hs).change (.watch (.bridge c.bridge.serial g)) l hs).change .drop l'
        (⟨c.bridge.serial, some g, true⟩ :: hs') := by
  let c₁ := c.call (.method (.watch (.bridge c.bridge.serial g))) a
  let c₂ := c₁.applyNotification ⟨a, g, false⟩
  have ho₂ : c₂.outside = c₁.outside := (toggles_applyNotification _ _).outside
  have h₂ : c₂.holding? a = some ⟨c.bridge.serial, some g, true⟩ := by
    obtain ⟨n, hn, hng⟩ := Option.bind_eq_some_iff.1 hg
    have hh₁ : c₁.holding? a = some ⟨c.bridge.serial, some g, c.cache.isStrong a⟩ := by
      rw [← hng]
      exact Option.map_eq_some_iff.2 ⟨n, hn, rfl⟩
    rw [holding?_applyNotification (c := c₁) h, hh₁]
    simp [Holding.hear]
  have h₁ : c₁.outside.account a l hs =
      (c.outside.account a l hs).change (.watch (.bridge c.bridge.serial g)) l hs :=
    Outside.account_call_self _ _ rfl a
  have hh : (c.startWatching a g true).holding? a = some ⟨c.bridge.serial, some g, true⟩ := h₂
  rw [account, hh, ← h₁, ← ho₂]
  exact Outside.account_call_self _ _ rfl a

/-- A loose reference turns into the toggle reference of a new entry. -/
theorem deeds_startWatching {fair : Bool} {g : Generation} {l : Nat} {hs : List Holding}
    (h : c.memory.Sound) (hg : c.cache.generation a = some g)
    (hne : c.bridge.serial ∉ hs.map Holding.serial)
    (hbox : ∃ box, c.outside.boxes a c.bridge.serial = some box)
    (hu : (c.outside.account a l hs).Unused c.bridge.serial g) (ha : c.host.isAlive a) (hl : 0 < l)
    (hrec : fair → (c.outside.account a l hs).recorded < l)
    (hf : fair → (c.outside.account a l hs).floats = false) :
    Deeds fair (c.outside.account a l hs) ((c.startWatching a g true).account a (l - 1) hs) := by
  obtain ⟨box, hbox⟩ := hbox
  rw [account_startWatching_self h hg l (l - 1) hs hs]
  refine .trans (.single (.enlist _ g box ha hne hbox (hu.boxes box hbox) hf))
    (.single (.drop (fun hfair => ?_) hl))
  exact (Account.recorded_change _ (by simp) _ _).trans_lt (hrec hfair)

theorem holding?_startWatching_of_ne (h : c.memory.Sound) (hb : b ≠ a) (g : Generation)
    (owned : Bool) : (c.startWatching a g owned).holding? b = c.holding? b := by
  have hn := holding?_applyNotification (c := c.call (.method (.watch (.bridge c.bridge.serial g))) a)
    h ⟨a, g, false⟩ b
  simp only [Ne.symm hb, if_false, Option.map_id'] at hn
  rw [startWatching]
  split_ifs <;> exact hn

theorem holding?_own_of_ne (h : c.memory.Sound) (hb : b ≠ a) (g : Option Generation)
    (handedOver : Bool) : (c.own a g handedOver).holding? b = c.holding? b := by
  have hr : (if handedOver then (c, true) else c.claim a).1.memory = c.memory := by
    cases handedOver <;> simp
  have hs : (if handedOver then (c, true) else c.claim a).1.bridge.serial = c.bridge.serial := by
    cases handedOver
    · exact (alike_claim c a).serial
    · rfl
  have hh := holding?_of_memory hs hr b
  rw [own]
  cases g with
  | none => exact hh
  | some g => exact (holding?_startWatching_of_ne (hr ▸ h) hb g _).trans hh

/-- An object of the base kind gets an entry with a registration. -/
theorem deeds_own_some {fair handedOver : Bool} {g : Generation} {l : Nat} {hs : List Holding}
    (h : c.memory.Sound) (hg : c.cache.generation a = some g) (hi : c.Issued g)
    (hne : c.bridge.serial ∉ hs.map Holding.serial)
    (hu : (c.outside.account a l hs).Unused c.bridge.serial g) (ha : c.host.isAlive a)
    (hobj : c.types.isObject (c.host.typeOf a)) (hl : handedOver.toNat ≤ l)
    (hrec : fair → (c.outside.account a l hs).recorded + handedOver.toNat ≤ l)
    (hfl : fair → handedOver → c.host.floats a = false) :
    Deeds fair (c.outside.account a l hs)
      ((c.own a (some g) handedOver).account a (l - handedOver.toNat) hs) := by
  have hbox {c' : Machine} (hi : c'.Issued g) :
      ∃ box, c'.outside.boxes a c'.bridge.serial = some box := by
    obtain ⟨m, hm, -⟩ := hi
    exact ⟨m.about a, by rw [Outside.boxes, hm, Option.map_some]⟩
  cases handedOver with
  | true => exact deeds_startWatching h hg hne (hbox hi) hu ha hl hrec fun hf => hfl hf rfl
  | false =>
    have hk := alike_claim c a
    obtain ⟨hok, he⟩ := account_claim_self (c := c) (a := a) (r := .sink)
      (takeRoute_of_isObject hobj ▸ rfl)
    have he := he l (l + 1) hs hs
    have hm : (c.claim a).1.memory = c.memory := memory_claim c a
    have hx : (c.claim a).1.host.isAlive a :=
      (congrArg (fun x : Account => x.counts.isSome) he).trans
        (Account.counts_change_sink (x := c.outside.account a l hs) ha _ _)
    have hsink : Deed fair (c.outside.account a l hs)
        ((c.claim a).1.outside.account a (l + 1) hs) := he ▸ .sink ha
    rw [own, if_neg Bool.false_ne_true, Option.elim_some, hok]
    refine .head hsink (deeds_startWatching (hm ▸ h) ?_ ?_ (hbox (hk.issued hi)) ?_ hx
      (Nat.succ_pos l) (fun hf => ?_) fun _ => ?_)
    · exact (congrArg (fun m => m.cache.generation a) hm).trans hg
    · exact hk.serial ▸ hne
    · rw [he, hk.serial]
      exact hu.change (by simp) _ _
    · rw [he]
      exact Nat.lt_succ_of_le ((Account.recorded_change _ (by simp) _ _).trans (hrec hf))
    · rw [he]
      exact Account.floats_change_sink _ _ _

/-- An object of another kind gets an entry without a registration. -/
theorem deeds_own_none {handedOver : Bool} {l : Nat} {hs : List Holding}
    (hh : c.holding? a = some ⟨c.bridge.serial, none, false⟩)
    (hne : c.bridge.serial ∉ hs.map Holding.serial) (ha : c.host.isAlive a)
    (hc : c.Serves (c.host.typeOf a)) (hl : handedOver.toNat ≤ l) :
    Deeds false (c.outside.account a l hs)
      ((c.own a none handedOver).account a (l - handedOver.toNat) hs) := by
  cases handedOver with
  | true =>
    refine .single ?_
    rw [account, show (c.own a none true).holding? a = c.holding? a from rfl, hh]
    exact .adopt c.bridge.serial rfl hne hl
  | false =>
    obtain ⟨-, hd⟩ : _ ∧ Deeds false _ _ := deeds_claim l hs hc ha
    have hh' : (c.own a none false).holding? a = some ⟨c.bridge.serial, none, false⟩ :=
      (holding?_of_memory (alike_claim c a).serial (memory_claim c a) a).trans hh
    refine hd.tail ?_
    rw [account, hh']
    exact .adopt c.bridge.serial rfl hne (Nat.succ_pos l)

/-! ## Wrapping -/

theorem issued_registerProxy {g : Generation} (hg : (c.registerProxy a).2 = some g) :
    (c.registerProxy a).1.Issued g := by
  rw [registerProxy] at hg ⊢
  split_ifs at hg ⊢
  cases hg
  refine ⟨c.mailbox.issue.1, ?_, Nat.lt_succ_self _⟩
  simp [setMailbox, Outside.setMailbox]

theorem issued_entered {g : Generation} (hg : (c.registerProxy a).2 = some g) :
    (c.entered a).Issued g :=
  issued_registerProxy hg

/-- The number that a mailbox gives out next is not in use. -/
theorem unused_registerProxy (h : c.Sound) (hf : c.outside.Fresh) {g : Generation}
    (hg : (c.registerProxy a).2 = some g) (b : Address) (l : Nat) (hs : List Holding) :
    (c.outside.account b l hs).Unused c.bridge.serial g := by
  obtain ⟨m, hm⟩ := h.mailbox
  have hn : g = m.nextGeneration := by
    rw [registerProxy] at hg
    split_ifs at hg
    rw [mailbox, Outside.mailbox_eq hm] at hg
    exact (Option.some.inj hg).symm
  refine ⟨fun box hb e he heg => ?_, fun hw => ?_⟩
  · simp only [Outside.account, Outside.boxes, hm, Option.map_some, Option.some.injEq] at hb
    subst hb
    obtain ⟨n, hnm, rfl⟩ := List.mem_map.1 he
    have hlt := hf.pending _ m hm n (Array.mem_toList_iff.1 (List.mem_filter.1 hnm).1)
    rw [← hn, ← heg] at hlt
    exact Nat.lt_irrefl _ hlt
  · obtain ⟨m', hm', hlt⟩ := hf.watching b _ g hw
    cases hm.symm.trans hm'
    rw [hn] at hlt
    exact Nat.lt_irrefl _ hlt

theorem memory_countCreated (c : Machine) : c.countCreated.memory = c.memory := rfl

theorem outside_countCreated (c : Machine) : c.countCreated.outside = c.outside := rfl

theorem alike_countCreated (c : Machine) : c.Alike c.countCreated :=
  ⟨rfl, rfl, .refl _ _, .refl _⟩

theorem account_countCreated (c : Machine) (a : Address) (l : Nat) (hs : List Holding) :
    c.countCreated.account a l hs = c.account a l hs := rfl

theorem sound_entered (h : c.memory.Sound) (ha : c.cache.weak[a]? = none) :
    (c.entered a).memory.Sound :=
  h.enroll ha _

theorem wrap_of_some {p : ProxyId} (hp : c.proxyOf? a = some p) (handedOver : Bool) :
    c.wrap a handedOver =
      (if handedOver then (c.bump .cacheHits).giveBack a none else c.bump .cacheHits, .ok p) := by
  rw [wrap, hp]

theorem wrap_of_none (h : c.memory.Sound) (ha : c.cache.weak[a]? = none) (handedOver : Bool) :
    c.wrap a handedOver =
      (((c.entered a).own a (c.registerProxy a).2 handedOver).countCreated,
        .ok (c.heap.newProxy a).2) := by
  have hp : c.proxyOf? a = none := h.proxyOf?_eq_none_iff.2 ha
  rw [wrap, hp]
  exact create_eq ha handedOver

theorem memory_wrap_of_some {p : ProxyId} (hp : c.proxyOf? a = some p) (handedOver : Bool) :
    (c.wrap a handedOver).1.memory = c.memory := by
  rw [wrap_of_some hp]
  cases handedOver
  · rfl
  · exact memory_giveBack _ a none

theorem memory_wrap_of_none (h : c.memory.Sound) (ha : c.cache.weak[a]? = none)
    (handedOver : Bool) : (c.wrap a handedOver).1.memory =
      ((c.entered a).own a (c.registerProxy a).2 handedOver).memory := by
  rw [wrap_of_none h ha, memory_countCreated]

theorem heap_wrap_of_none (h : c.memory.Sound) (ha : c.cache.weak[a]? = none) (handedOver : Bool) :
    (c.wrap a handedOver).1.heap = (c.heap.newProxy a).1 := by
  obtain ⟨-, hh, -⟩ := own_memory (sound_entered h ha) a (c.registerProxy a).2 handedOver
  exact (congrArg Memory.heap (memory_wrap_of_none h ha handedOver)).trans hh

/-- A new proxy gets an entry, and no other entry changes. -/
theorem weak_wrap_of_none (h : c.memory.Sound) (ha : c.cache.weak[a]? = none) (handedOver : Bool)
    (b : Address) : (c.wrap a handedOver).1.cache.weak[b]? =
      if b = a then some ⟨(c.heap.newProxy a).2, (c.registerProxy a).2⟩ else c.cache.weak[b]? := by
  have hm := memory_wrap_of_none h ha handedOver
  obtain ⟨-, -, -, hw⟩ := own_memory (sound_entered h ha) a (c.registerProxy a).2 handedOver
  have hb : (c.wrap a handedOver).1.cache.weak[b]? = (c.entered a).cache.weak[b]? :=
    (congrArg (fun m => m.cache.weak[b]?) hm).trans (congrArg (fun m => m[b]?) hw)
  rw [hb]
  split_ifs with hba
  · rw [hba, weak_entered_self]
  · simp only [entered, cache, setMemory]
    grind

theorem proxyOf?_or (h : c.memory.Sound) (a : Address) :
    (∃ p, c.proxyOf? a = some p) ∨ c.cache.weak[a]? = none := by
  cases hp : c.proxyOf? a with
  | none => exact .inr (h.proxyOf?_eq_none_iff.1 hp)
  | some p => exact .inl ⟨p, rfl⟩

theorem alike_wrap (h : c.Sound) (a : Address) (handedOver : Bool) :
    c.Alike (c.wrap a handedOver).1 := by
  rcases proxyOf?_or h.memory a with ⟨p, hp⟩ | ha
  · rw [wrap_of_some hp]
    cases handedOver
    · exact alike_bump c _
    · exact (alike_bump c _).trans (alike_giveBack _ a none)
  · rw [wrap_of_none h.memory ha]
    exact (alike_entered h a).trans
      ((alike_own (fun _ hg => issued_entered hg) a handedOver).trans (alike_countCreated _))

/-- Wrapping answers a live proxy of the object and keeps the memory sound. -/
theorem wrap_spec (h : c.memory.Sound) (a : Address) (handedOver : Bool) :
    (c.wrap a handedOver).1.memory.Sound ∧ c.heap.Sub (c.wrap a handedOver).1.heap ∧
      ∃ p, (c.wrap a handedOver).2 = .ok p ∧ (c.wrap a handedOver).1.heap.IsLive p a := by
  rcases proxyOf?_or h a with ⟨p, hp⟩ | ha
  · have hm := memory_wrap_of_some hp handedOver
    have hh : (c.wrap a handedOver).1.heap = c.heap := congrArg Memory.heap hm
    refine ⟨hm ▸ h, hh ▸ .refl _, p, by rw [wrap_of_some hp], ?_⟩
    rw [hh]
    exact h.proxyOf?_eq_some_iff.1 hp
  · obtain ⟨hs, -⟩ := own_memory (sound_entered h ha) a (c.registerProxy a).2 handedOver
    have hm := memory_wrap_of_none h ha handedOver
    have hw := heap_wrap_of_none h ha handedOver
    refine ⟨hm ▸ hs, fun n hn => ?_, (c.heap.newProxy a).2, ?_, ?_⟩
    · rw [hw]
      exact (Heap.holds_newProxy a).2 (.inl hn)
    · rw [wrap_of_none h ha]
    · rw [hw]
      exact Heap.isLive_newProxy.2 (.inl ⟨rfl, rfl⟩)

theorem Sound.wrap (h : c.Sound) (a : Address) (handedOver : Bool) :
    (c.wrap a handedOver).1.Sound :=
  h.of_alike (alike_wrap h a handedOver) (wrap_spec h.memory a handedOver).1

theorem account_entered (h : c.Sound) (a b : Address) (l : Nat) (hs : List Holding) :
    (c.entered a).outside.account b l hs = c.outside.account b l hs :=
  account_registerProxy h a b l hs

theorem holding?_entered_of_ne (h : c.Sound) (hb : b ≠ a) :
    (c.entered a).holding? b = c.holding? b := by
  have hw : (c.cache.weak.insert a ⟨(c.heap.newProxy a).2, (c.registerProxy a).2⟩)[b]? =
      c.cache.weak[b]? := by
    grind
  simp only [holding?, cache]
  rw [show (c.entered a).bridge.serial = c.bridge.serial from (alike_entered h a).serial]
  exact congrArg _ hw

/-- Wrapping an object touches no account of another object. -/
theorem account_wrap_of_ne (h : c.Sound) (hb : b ≠ a) (handedOver : Bool) (l : Nat)
    (hs : List Holding) : (c.wrap a handedOver).1.account b l hs = c.account b l hs := by
  rcases proxyOf?_or h.memory a with ⟨p, hp⟩ | ha
  · rw [wrap_of_some hp]
    cases handedOver
    · rfl
    · have hg := alike_giveBack (c.bump .cacheHits) a none
      have hh : ((c.bump .cacheHits).giveBack a none).holding? b = c.holding? b :=
        holding?_of_memory hg.serial (memory_giveBack _ a none) b
      rw [account, if_pos rfl, hh]
      exact account_giveBack_of_ne hb none l _
  · have hs' := sound_entered h.memory ha
    rw [wrap_of_none h.memory ha, account_countCreated, account, holding?_own_of_ne hs' hb,
      holding?_entered_of_ne h hb, account_own_of_ne hb, account_entered h]
    rfl

/-- Wrapping an object enters it with a reference of its own, unless it was entered before.  The
reference handed over is one of the loose ones. -/
theorem deeds_wrap {fair handedOver : Bool} {l : Nat} {hs : List Holding} (h : c.Sound)
    (hfresh : c.outside.Fresh) (hne : c.bridge.serial ∉ hs.map Holding.serial)
    (ha : c.host.isAlive a) (hc : c.Serves (c.host.typeOf a))
    (hobj : fair → c.types.isObject (c.host.typeOf a))
    (hl : handedOver.toNat ≤ l)
    (hrec : fair → (c.outside.account a l hs).recorded + handedOver.toNat ≤ l)
    (hfl : fair → handedOver → c.host.floats a = false) :
    Deeds fair (c.account a l hs)
      ((c.wrap a handedOver).1.account a (l - handedOver.toNat) hs) := by
  rcases proxyOf?_or h.memory a with ⟨p, hp⟩ | hw
  · rw [wrap_of_some hp]
    cases handedOver with
    | false => exact .refl
    | true =>
      have hg := alike_giveBack (c.bump .cacheHits) a none
      have hh : ((c.bump .cacheHits).giveBack a none).holding? a = c.holding? a :=
        holding?_of_memory hg.serial (memory_giveBack _ a none) a
      rw [account, account, if_pos rfl, hh]
      exact deeds_giveBack_loose (c := c.bump .cacheHits) hl (fun hf => hrec hf)
        ((alike_bump c _).serves hc)
  · have hh : c.holding? a = none := holding?_eq_none_iff.2 hw
    have he := alike_entered h a
    have hce : (c.entered a).Serves ((c.entered a).host.typeOf a) := he.typeOf a ▸ he.serves hc
    have hae : (c.entered a).host.isAlive a := by
      have := congrArg (fun x : Account => x.counts.isSome) (account_entered h a a l hs)
      exact this.trans ha
    rw [wrap_of_none h.memory hw, account_countCreated, account, hh, Option.toList_none,
      List.nil_append, ← account_entered h a a l hs]
    have hne' : (c.entered a).bridge.serial ∉ hs.map Holding.serial := he.serial ▸ hne
    cases hg : (c.registerProxy a).2 with
    | some g =>
      have ho : c.types.isObject (c.host.typeOf a) := by
        by_contra ho
        simp [registerProxy, ho] at hg
      have hu := unused_registerProxy h hfresh hg a l hs
      rw [← account_entered h a a l hs, ← he.serial] at hu
      refine deeds_own_some (sound_entered h.memory hw) ?_ (issued_entered hg) hne' hu hae
        ?_ hl (by rwa [account_entered h a]) ?_
      · rw [ProxyCache.generation, weak_entered_self, hg]
        rfl
      · rw [he.types, he.typeOf]
        exact ho
      · intro hf hho
        have := congrArg Account.floats (account_entered h a a l hs)
        exact this.trans (hfl hf hho)
    | none =>
      have ho : c.types.isObject (c.host.typeOf a) = false := by
        by_contra ho
        rw [Bool.not_eq_false] at ho
        simp [registerProxy, ho] at hg
      have hf : fair = false := by
        cases fair
        · rfl
        · simp [hobj rfl] at ho
      have hst : c.cache.isStrong a = false := h.memory.isStrong_of_weak_eq_none hw
      subst hf
      refine deeds_own_none ?_ hne' hae hce hl
      rw [holding?, weak_entered_self, hg]
      exact congrArg (fun b => some (⟨(c.entered a).bridge.serial, none, b⟩ : Holding)) hst

end Machine

end NativeProxies
