import NativeProxies.Proofs.Scenario.Standing

/-!
# Numbers

Wrapping and numbering objects that are held from outside, and looking for the numbers later on.  Each
object gets a proxy that is strong at once and keeps its number (`Scenario.numberAll_spec`), and as long as
both is so the proxy counts as retained (`Scenario.countRetained_spec`).
-/

namespace NativeProxies

theorem Memory.Sound.applyNotification_strengthened {m : Memory} (h : m.Sound) {a : Address}
    {g : Generation} (hg : m.cache.generation a = some g) (hs : m.cache.isStrong a = false) :
    (m.cache.applyNotification m.heap ⟨a, g, false⟩).2 = some .strengthened := by
  obtain ⟨e, he, -⟩ := Option.bind_eq_some_iff.1 hg
  have hp : m.cache.proxyOf? m.heap a = some e.proxy := by
    have ho := h.proxyOf?_eq (a := a)
    rwa [he] at ho
  have hs' : m.cache.strong.contains a = false := hs
  simp [ProxyCache.applyNotification, ProxyCache.strengthen, hg, hs', hp]

/-- An object with two references, one of them floating, that is sunk, watched, and no longer held
otherwise. -/
theorem Account.standing_enlisted {x : Account} {n : Nat} {g : Generation}
    (hc : x.counts = some ⟨2, true, []⟩) (hb : (x.boxes n).getD [] = []) :
    Account.standing (((x.change .sink 0 []).change (.watch (.bridge n g)) 0 []).change .drop 0
      [⟨n, some g, true⟩]) n = .wrapped n g 2 true := by
  simp [Account.standing, Account.change, hc, hb, Counts.apply, Counts.increment, Counts.decrement,
    Standing.wrapped]

namespace Machine

variable {c c' c₁ : Machine} {a b : Address} {g : Generation} {s : Settings}

/-! ## Making a proxy -/

/-- An object of the base kind is sunk, watched, and no longer held otherwise. -/
theorem account_own_self (h : c.memory.Sound) (hg : c.cache.generation a = some g)
    (ho : c.types.isObject (c.host.typeOf a)) (l l' : Nat) (hs hs' : List Holding) :
    (c.own a (some g) false).account a l' hs' =
      (((c.outside.account a l hs).change .sink l hs).change (.watch (.bridge c.bridge.serial g)) l
        hs).change .drop l' (⟨c.bridge.serial, some g, true⟩ :: hs') := by
  obtain ⟨hok, he⟩ := account_claim_self (c := c) (a := a) (r := .sink) (takeRoute_of_isObject ho ▸ rfl)
  have hm : (c.claim a).1.memory = c.memory := memory_claim c a
  rw [own, if_neg Bool.false_ne_true, Option.elim_some, hok,
    account_startWatching_self (hm ▸ h) ((congrArg (fun m => m.cache.generation a) hm).trans hg) l l' hs,
    he l l hs hs, (alike_claim c a).serial]

theorem counters_own (h : c.memory.Sound) (hg : c.cache.generation a = some g)
    (hs : c.cache.isStrong a = false) :
    (c.own a (some g) false).bridge.counters = c.bridge.counters.bump .promotions := by
  have hk : (c.claim a).1.memory = c.memory ∧ (c.claim a).1.bridge.counters = c.bridge.counters := by
    obtain ⟨_, ⟨k, rfl, -⟩, he⟩ := c.claim_eq a
    rw [he]
    split <;> exact ⟨rfl, rfl⟩
  have hn (c₁ : Machine) (hm : c₁.memory = c.memory) :
      (c₁.applyNotification ⟨a, g, false⟩).bridge.counters = c₁.bridge.counters.bump .promotions := by
    have hi := h.applyNotification_strengthened hg hs
    rw [← hm] at hi
    rw [applyNotification, show (c₁.cache.applyNotification c₁.heap ⟨a, g, false⟩).2 = _ from hi]
    rfl
  have hw := hn ((c.claim a).1.call (.method (.watch (.bridge (c.claim a).1.bridge.serial g))) a) hk.1
  have hc : ((c.claim a).1.call (.method (.watch (.bridge (c.claim a).1.bridge.serial g)))
    a).bridge.counters = c.bridge.counters := hk.2
  rw [hc] at hw
  rw [own, if_neg Bool.false_ne_true, Option.elim_some, startWatching]
  split_ifs <;> exact hw

theorem foreign_own (c : Machine) (a : Address) (g : Generation) (n : Nat) :
    ((c.own a (some g) false).outside.mailbox n).foreign = (c.outside.mailbox n).foreign := by
  have hc : ((c.claim a).1.outside.mailbox n).foreign = (c.outside.mailbox n).foreign := by
    rw [outside_claim]
    cases (c.takeRoute (c.host.typeOf a)).2 with
    | none => rfl
    | some route => exact Outside.foreign_call ..
  rw [own, if_neg Bool.false_ne_true, Option.elim_some, outside_startWatching]
  split_ifs
  · rw [Outside.foreign_call, Outside.foreign_call, hc]
  · rw [Outside.foreign_call, hc]

theorem registerProxy_of_isObject (ho : c.types.isObject (c.host.typeOf a)) :
    c.registerProxy a = (c.setMailbox c.mailbox.issue.1, some c.mailbox.nextGeneration) := by
  rw [registerProxy, if_pos ho]
  rfl

theorem generation_entered (ho : c.types.isObject (c.host.typeOf a)) :
    (c.entered a).cache.generation a = some c.mailbox.nextGeneration := by
  rw [ProxyCache.generation, weak_entered_self, registerProxy_of_isObject ho]
  rfl

theorem bridge_entered (c : Machine) (a : Address) :
    (c.entered a).bridge = { c.bridge with memory := (c.entered a).memory } := by
  have hb := bridge_registerProxy c a
  rw [entered, setMemory, hb]
  rfl

theorem foreign_entered (ho : c.types.isObject (c.host.typeOf a)) :
    ((c.entered a).outside.mailbox c.bridge.serial).foreign = c.mailbox.foreign := by
  have hm : (c.outside.setMailbox c.bridge.serial c.mailbox.issue.1).mailbox c.bridge.serial =
      c.mailbox.issue.1 := Outside.mailbox_eq Std.ExtTreeMap.getElem?_insert_self
  have he : (c.entered a).outside = c.outside.setMailbox c.bridge.serial c.mailbox.issue.1 := by
    rw [entered, registerProxy_of_isObject ho]
    rfl
  rw [he, hm]
  rfl

/-- What a machine is once the reference behind a new proxy is settled. -/
theorem own_entered (h : c.Staged s) (ha : c.standing a = .unknown 2)
    (ho : c.types.isObject (c.host.typeOf a)) {d : Machine}
    (hd : d = (c.entered a).own a (some c.mailbox.nextGeneration) false) :
    c.bridge.Works d.bridge ∧ d.memory.roots = c.memory.roots ∧
      d.standing a = .wrapped c.bridge.serial c.mailbox.nextGeneration 2 true ∧
      d.counters = c.counters.bump .promotions := by
  have hn : c.cache.weak[a]? = none := weak_of_standing (by rw [ha]; rfl)
  have hk := alike_entered h.sound a
  have hm := sound_entered h.sound.memory hn
  have hgen := generation_entered ho
  have hs : d.bridge.serial = c.bridge.serial := by
    rw [hd, (alike_own (fun _ hg => ?_) a false).serial, hk.serial]
    exact issued_entered (registerProxy_of_isObject ho ▸ hg)
  have hx : d.account a 0 [] =
      (((c.outside.account a 0 []).change .sink 0 []).change (.watch (.bridge c.bridge.serial
        c.mailbox.nextGeneration)) 0 []).change .drop 0
        [⟨c.bridge.serial, some c.mailbox.nextGeneration, true⟩] := by
    rw [hd, account_own_self hm hgen (by rwa [hk.types, hk.typeOf]) 0 0 [] [], account_entered h.sound,
      hk.serial]
  have hc : c.host.counts? a = some ⟨2, true, []⟩ := counts?_of_standing ha
  have hb : ((c.account a 0 []).boxes c.bridge.serial).getD [] = [] :=
    congrArg Standing.waiting ((c.standing_eq a).symm.trans ha)
  have hworks := works_own (c.entered a) a (some c.mailbox.nextGeneration)
  have hroots : d.memory.roots = c.memory.roots := hd ▸ (own_memory hm a _ false).2.2.1
  have hstrong : (c.entered a).cache.isStrong a = false := by
    have hi := h.sound.memory.isStrong_of_weak_eq_none hn
    exact hi
  have hcount := counters_own hm hgen hstrong
  have hforeign := foreign_own (c.entered a) a c.mailbox.nextGeneration c.bridge.serial
  rw [← hd] at hworks hcount hforeign
  rw [bridge_entered] at hworks hcount
  refine ⟨.trans ⟨_, _, _, rfl⟩ hworks, hroots, ?_, ?_⟩
  · rw [standing_eq, hx, hs]
    exact Account.standing_enlisted hc hb
  · have hf : d.mailbox.foreign = c.mailbox.foreign := by
      rw [mailbox, hs, hforeign, foreign_entered ho]
    rw [counters, hcount, hf]
    rfl

/-- Wrapping an object that somebody else holds, too, makes a strong proxy. -/
theorem wrap_held (h : c.Staged s) (ha : c.standing a = .unknown 2)
    (ht : c.host.typeOf a = Scenario.widget) :
    (c.wrap a false).1.Staged s ∧
      (c.wrap a false).1.standing a = .wrapped c.bridge.serial c.mailbox.nextGeneration 2 true ∧
      (c.wrap a false).1.bridge.created = c.bridge.created + 1 ∧
      (c.wrap a false).1.counters = (c.counters.bump .promotions).bump .proxiesCreated := by
  have ho : c.types.isObject (c.host.typeOf a) := ht ▸ h.isObject
  have hn : c.cache.weak[a]? = none := weak_of_standing (by rw [ha]; rfl)
  have hk := alike_wrap h.sound a false
  have hs := (h.sound.wrap a false).memory
  have hw := wrap_of_none h.sound.memory hn false
  rw [registerProxy_of_isObject ho] at hw
  obtain ⟨hworks, hroots, hst, hcount⟩ := own_entered h ha ho rfl
  rw [hw] at hk hs ⊢
  generalize (c.entered a).own a (some c.mailbox.nextGeneration) false = d at *
  refine ⟨h.next hk hworks.settings hs hroots, hst, congrArg (· + 1) hworks.created, ?_⟩
  exact congrArg (fun m : Counters => m.bump .proxiesCreated) hcount

/-! ## Keeping numbers -/

/-- A proxy that keeps a number serves it. -/
theorem Staged.exposes (h : c.Staged s) {p : ProxyId} {r : ProxyState} (hp : c.heap.proxy? p = some r)
    (hr : r.released = false) (ht : c.host.typeOf r.object = Scenario.widget) : c.Exposes p r :=
  ⟨hp, hr, h.responder, ht ▸ h.located⟩

theorem Keeps.wrap {i : Nat} (h : c.Keeps b i) (hc : c.Sound) (a : Address) :
    (c.wrap a false).1.Keeps b i := by
  obtain ⟨p, r, hp, hb, hr, hi⟩ := h
  have henv := hc.memory.closed.holds_env hp
  refine ⟨p, r, proxy?_wrap hc.memory hp a false, hb, hr, ?_⟩
  rw [Heap.get, entries_wrap hc.memory henv]
  exact hi

/-- Numbering a proxy, and what comes of other proxies. -/
theorem write_number (h : c.Staged s) {p : ProxyId} (hp : c.heap.IsLive p a)
    (ht : c.host.typeOf a = Scenario.widget) (i : Nat) :
    (c.useMember (.proxy p) Scenario.indexMember (some (.integer (Int64.ofNat i)))).2 = .ok .nil ∧
      ∃ c', (c.useMember (.proxy p) Scenario.indexMember (some (.integer (Int64.ofNat i)))).1 = c' ∧
        c'.Staged s ∧ c.Alike c' ∧ c'.bridge.created = c.bridge.created ∧ c'.counters = c.counters ∧
        (∀ b, c'.standing b = c.standing b) ∧ c'.Keeps a i ∧
        ∀ b ≠ a, ∀ j, c.Keeps b j → c'.Keeps b j := by
  obtain ⟨r, hp, rfl, hr⟩ := hp
  obtain ⟨_, ⟨k, rfl, hk⟩, he⟩ := (h.exposes hp hr ht).useMember_eq Scenario.indexMember
    (some (.integer (Int64.ofNat i)))
  rw [he]
  have hset : c.Alike ((c.setCatalog k).setHeap
      (c.heap.set r.env Scenario.indexMember (.integer (Int64.ofNat i)))) := ⟨rfl, rfl, hk, .refl _⟩
  have henv := h.sound.memory.closed.holds_env hp
  refine ⟨rfl, _, rfl, h.next hset rfl ?_ rfl, hset, rfl, rfl, fun _ => rfl, ⟨p, r, hp, rfl, hr, ?_⟩,
    fun b hb j ⟨q, r', hq, hb', hr', hj⟩ => ⟨q, r', hq, hb', hr', ?_⟩⟩
  · exact h.sound.memory.setHeap rfl
      (h.sound.memory.closed.set _ _ (Heap.knows_of_node?_eq_none rfl))
  · change Heap.get (c.heap.set r.env _ _) _ _ = _
    rw [Heap.get, Heap.entries_set, if_pos ⟨rfl, henv⟩, Heap.Entries.get_set, if_pos rfl]
  · have hne : r'.env ≠ r.env := by
      intro henv
      have hpq : q = p := by
        rw [← h.sound.memory.closed.env_succ q r' hq, ← h.sound.memory.closed.env_succ p r hp, henv]
      subst hpq
      cases hp.symm.trans hq
      exact hb hb'.symm
    change Heap.get (c.heap.set r.env _ _) _ _ = _
    rw [Heap.get, Heap.entries_set, if_neg fun he => hne he.1]
    exact hj

end Machine

namespace Scenario

variable {c c' c₁ : Machine} {s : Settings} {a : Address} {i : Nat} {xs : List Address}

/-- What becomes of a machine that numbers objects from `i` on. -/
structure Numbers (s : Settings) (i : Nat) (xs : List Address) (c c' : Machine) : Prop where
  staged : c'.Staged s
  alike : c.Alike c'
  created : c'.bridge.created = c.bridge.created + xs.length
  counters : c'.counters =
    { c.counters with
      proxiesCreated := c.counters.proxiesCreated + .ofNat xs.length
      promotions := c.counters.promotions + .ofNat xs.length }
  wrapped : ∀ a ∈ xs, ∃ g, c'.standing a = .wrapped c.bridge.serial g 2 true
  numbered : ∀ x ∈ xs.zipIdx i, c'.Keeps x.1 x.2
  others : ∀ b ∉ xs, c'.standing b = c.standing b ∧ ∀ j, c.Keeps b j → c'.Keeps b j

theorem Numbers.nil (h : c.Staged s) (i : Nat) : Numbers s i [] c c where
  staged := h
  alike := .refl c
  created := rfl
  counters := by simp
  wrapped := by simp
  numbered := by simp
  others _ _ := ⟨rfl, fun _ => id⟩

theorem Numbers.cons (h : Numbers s i [a] c c₁) (h' : Numbers s (i + 1) xs c₁ c') (ha : a ∉ xs) :
    Numbers s i (a :: xs) c c' where
  staged := h'.staged
  alike := h.alike.trans h'.alike
  created := by
    rw [h'.created, h.created]
    simp only [List.length_cons, List.length_nil]
    omega
  counters := by
    have hl : UInt64.ofNat (a :: xs).length = .ofNat [a].length + .ofNat xs.length := ofNat_succ _
    rw [h'.counters, h.counters, hl, ← UInt64.add_assoc, ← UInt64.add_assoc]
  wrapped b hb := by
    rcases List.mem_cons.1 hb with rfl | hb
    · rw [(h'.others b ha).1]
      exact h.wrapped b List.mem_cons_self
    · rw [← h.alike.serial]
      exact h'.wrapped b hb
  numbered x hx := by
    rw [List.zipIdx_cons] at hx
    rcases List.mem_cons.1 hx with rfl | hx
    · exact (h'.others a ha).2 i (h.numbered (a, i) (by simp))
    · exact h'.numbered x hx
  others b hb := by
    rw [List.mem_cons, not_or] at hb
    have h₁ := h.others b (by simpa using hb.1)
    have h₂ := h'.others b hb.2
    exact ⟨h₂.1.trans h₁.1, fun j hj => h₂.2 j (h₁.2 j hj)⟩

/-- Wrapping and numbering an object that somebody else holds, too, goes well. -/
theorem number_spec (h : c.Staged s) (ha : c.standing a = .unknown 2) (ht : c.host.typeOf a = widget)
    (i : Nat) : (number c i a).2 = true ∧ Numbers s i [a] c (number c i a).1 := by
  obtain ⟨hs, hst, hcr, hcnt⟩ := Machine.wrap_held h ha ht
  obtain ⟨-, -, p, hok, hlive⟩ := Machine.wrap_spec h.sound.memory a false
  have hk := Machine.alike_wrap h.sound a false
  obtain ⟨hw, c', hc', hs', hk', hcr', hcnt', hst', hkeep, hkeeps⟩ :=
    Machine.write_number hs hlive ((hk.typeOf a).trans ht) i
  have hv : c.toValue (some a) false = ((c.wrap a false).1, .ok (.proxy p)) := by
    rw [Machine.toValue, hok]
    rfl
  have hn : number c i a = (c', true) := by
    rw [number, hv]
    simp only [hw, hc']
    rfl
  rw [hn]
  refine ⟨rfl, hs', hk.trans hk', hcr'.trans hcr, hcnt'.trans (hcnt.trans ?_), fun b hb => ?_,
    fun x hx => ?_, fun b hb => ?_⟩
  · rfl
  · rw [List.mem_singleton.1 hb]
    exact ⟨_, (hst' a).trans hst⟩
  · rw [List.zipIdx_singleton, List.mem_singleton] at hx
    rw [hx]
    exact hkeep
  · have hne : b ≠ a := by simpa using hb
    refine ⟨(hst' b).trans (Machine.standing_of_account hk.serial ?_), fun j hj => ?_⟩
    · exact Machine.account_wrap_of_ne h.sound hne false 0 []
    · exact hkeeps b hne j (hj.wrap h.sound a)

/-- Wrapping and numbering objects that somebody else holds, too, goes well to the end. -/
theorem numberAll_spec (h : c.Staged s) (hd : xs.Nodup) (hx : ∀ a ∈ xs, c.standing a = .unknown 2)
    (ht : ∀ a ∈ xs, c.host.typeOf a = widget) (i : Nat) :
    (numberAll c i xs).2 = false ∧ Numbers s i xs c (numberAll c i xs).1 := by
  induction xs generalizing c i with
  | nil => exact ⟨rfl, .nil h i⟩
  | cons a xs ih =>
    rw [List.nodup_cons] at hd
    obtain ⟨hok, hn⟩ := number_spec h (hx a List.mem_cons_self) (ht a List.mem_cons_self) i
    have hb {b : Address} (hb : b ∈ xs) : b ∉ [a] := by
      rw [List.mem_singleton]
      rintro rfl
      exact hd.1 hb
    obtain ⟨hok', hn'⟩ := ih hn.staged hd.2
      (fun b hm => (hn.others b (hb hm)).1.trans (hx b (List.mem_cons_of_mem _ hm)))
      (fun b hm => (hn.alike.typeOf b).trans (ht b (List.mem_cons_of_mem _ hm))) (i + 1)
    rw [numberAll, hok, if_pos rfl]
    exact ⟨hok', hn.cons hn' hd.1⟩

/-! ## Looking for numbers -/

/-- A proxy that is strong and keeps its number is retained. -/
theorem isRetained_spec (h : c.Staged s) (ht : c.host.typeOf a = widget) {g : Generation} {n : Nat}
    (ha : c.standing a = .wrapped c.bridge.serial g n true) (hi : c.Keeps a i) :
    ∃ c', c.Recalls c' ∧ isRetained c i a = (c', true) := by
  obtain ⟨p, r, hp, rfl, hr, hn⟩ := hi
  have hq : c.proxyOf? r.object = some p := h.sound.memory.proxyOf?_eq_some_iff.2 ⟨r, hp, rfl, hr⟩
  obtain ⟨c', hc', he⟩ := (h.exposes hp hr ht).useMember_eq indexMember none
  obtain ⟨e, -, hx⟩ := Option.map_eq_some_iff.1 (congrArg Standing.entry ha)
  have hs : c'.cache.isStrong r.object = true := by
    rw [hc'.quiet.cache]
    exact congrArg Holding.strong hx
  refine ⟨c', hc', ?_⟩
  simp only [isRetained, hq, he, hn, Option.elim_none, hs, beq_self_eq_true, Bool.and_self]

theorem staged_recalls (h : c.Staged s) (hr : c.Recalls c') : c'.Staged s := by
  have hm := hr.memory
  exact h.next hr.alike hr.works.settings (hm ▸ h.sound.memory) (congrArg Memory.roots hm)

theorem standing_recalls (hr : c.Recalls c') (a : Address) : c'.standing a = c.standing a := by
  obtain ⟨k, rfl, -⟩ := hr
  rfl

theorem keeps_recalls (hr : c.Recalls c') (hi : c.Keeps a i) : c'.Keeps a i := by
  obtain ⟨k, rfl, -⟩ := hr
  exact hi

/-- All proxies that are strong and keep their numbers are found. -/
theorem countRetained_spec (h : c.Staged s) (ht : ∀ a ∈ xs, c.host.typeOf a = widget)
    (hw : ∀ a ∈ xs, ∃ g n, c.standing a = .wrapped c.bridge.serial g n true)
    (hi : ∀ x ∈ xs.zipIdx i, c.Keeps x.1 x.2) :
    ∃ c', c.Recalls c' ∧ countRetained c i xs = (c', xs.length) := by
  induction xs generalizing c i with
  | nil => exact ⟨c, .refl c, rfl⟩
  | cons a xs ih =>
    rw [List.zipIdx_cons] at hi
    obtain ⟨g, n, ha⟩ := hw a List.mem_cons_self
    obtain ⟨c₁, h₁, he₁⟩ := isRetained_spec h (ht a List.mem_cons_self) ha (hi _ List.mem_cons_self)
    have hk := h₁.alike
    obtain ⟨c', h', he'⟩ := ih (staged_recalls h h₁)
      (fun b hb => (hk.typeOf b).trans (ht b (List.mem_cons_of_mem _ hb)))
      (fun b hb => by
        rw [hk.serial, standing_recalls h₁]
        exact hw b (List.mem_cons_of_mem _ hb))
      (fun x hx => keeps_recalls h₁ (hi x (List.mem_cons_of_mem _ hx)))
    refine ⟨c', h₁.trans h', ?_⟩
    rw [countRetained, he₁, he']
    rfl

end Scenario

end NativeProxies
