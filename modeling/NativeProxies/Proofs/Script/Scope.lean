import NativeProxies.Proofs.Bridge.Account
import NativeProxies.Script.Expr

/-!
# Scopes

In a sound scope the memory is sound and no variable holds a value that was reclaimed.  Evaluating an
expression makes tables and binds their keys, and does nothing else (`Machine.Quiet`): it keeps the
scope sound and gives a value that the heap knows (`Scope.eval_cases`).
-/

namespace NativeProxies

namespace Machine

variable {c c' c₁ c₂ : Machine}

/-- The second machine is the first one with other tables, after questions to its catalog. -/
structure Quiet (c c' : Machine) : Prop where
  serial : c'.bridge.serial = c.bridge.serial
  responder : c'.bridge.responder = c.bridge.responder
  catalog : c.bridge.catalog.Alike c.types c'.bridge.catalog
  outside : c'.outside = c.outside
  cache : c'.cache = c.cache
  counters : c'.bridge.counters = c.bridge.counters
  settings : c'.bridge.settings = c.bridge.settings
  created : c'.bridge.created = c.bridge.created
  proxies : c'.heap.proxies = c.heap.proxies
  next : c.heap.next ≤ c'.heap.next
  sub : c.heap.Sub c'.heap

theorem Quiet.refl (c : Machine) : c.Quiet c :=
  ⟨rfl, rfl, .refl _ _, rfl, rfl, rfl, rfl, rfl, rfl, Nat.le_refl _, .refl _⟩

theorem Quiet.trans (h₁ : c.Quiet c₁) (h₂ : c₁.Quiet c₂) : c.Quiet c₂ where
  serial := h₂.serial.trans h₁.serial
  responder := h₂.responder.trans h₁.responder
  catalog := by
    have ht : c₁.types = c.types := congrArg (fun o : Outside => o.host.types) h₁.outside
    exact h₁.catalog.trans (ht ▸ h₂.catalog)
  outside := h₂.outside.trans h₁.outside
  cache := h₂.cache.trans h₁.cache
  counters := h₂.counters.trans h₁.counters
  settings := h₂.settings.trans h₁.settings
  created := h₂.created.trans h₁.created
  proxies := h₂.proxies.trans h₁.proxies
  next := h₁.next.trans h₂.next
  sub := h₁.sub.trans h₂.sub

theorem Quiet.alike (h : c.Quiet c') : c.Alike c' :=
  ⟨h.serial, h.responder, h.catalog, h.outside ▸ .refl _⟩

theorem Quiet.weak (h : c.Quiet c') (a : Address) :
    c'.cache.weak[a]? = c.cache.weak[a]? := by
  rw [h.cache]

theorem Quiet.account (h : c.Quiet c') (a : Address) (l : Nat) (hs : List Holding) :
    c'.account a l hs = c.account a l hs := by
  refine account_of_outside h.outside ?_ l hs
  rw [holding?, holding?, h.cache, h.serial]

theorem Recalls.quiet (h : c.Recalls c') : c.Quiet c' := by
  obtain ⟨k, rfl, hk⟩ := h
  exact ⟨rfl, rfl, hk, rfl, rfl, rfl, rfl, rfl, rfl, Nat.le_refl _, .refl _⟩

theorem Recalls.memory (h : c.Recalls c') : c'.memory = c.memory := by
  obtain ⟨k, rfl, -⟩ := h
  rfl

theorem quiet_setHeap {h : Heap} (hp : h.proxies = c.heap.proxies) (hn : c.heap.next ≤ h.next)
    (hs : c.heap.Sub h) : c.Quiet (c.setHeap h) :=
  ⟨rfl, rfl, .refl _ _, rfl, rfl, rfl, rfl, rfl, hp, hn, hs⟩

theorem quiet_set (c : Machine) (t : TableId) (key : String) (v : Value) :
    c.Quiet (c.setHeap (c.heap.set t key v)) :=
  quiet_setHeap rfl (Nat.le_refl _) fun n hn => by rwa [Heap.holds_set]

theorem Sound.set (h : c.Sound) (t : TableId) (key : String) {v : Value} (hv : c.heap.Knows v) :
    (c.setHeap (c.heap.set t key v)).Sound :=
  h.of_alike (quiet_set c t key v).alike (h.memory.setHeap rfl (h.memory.closed.set t key hv))

end Machine

namespace Scope

variable {s s' s₁ s₂ : Scope} {v : Value}

/-- The memory is sound, and variables hold nothing that was reclaimed. -/
structure Sound (s : Scope) : Prop where
  machine : s.machine.Sound
  vars : ∀ (name : String) (v : Value), s.vars[name]? = some v → s.heap.Knows v

/-- The second scope is sound, and the first one but for variables, tables and what its catalog
remembers. -/
structure Quiet (s s' : Scope) : Prop where
  machine : s.machine.Quiet s'.machine
  sound : s'.Sound

theorem Quiet.refl (h : s.Sound) : s.Quiet s := ⟨.refl _, h⟩

theorem Quiet.trans (h₁ : s.Quiet s₁) (h₂ : s₁.Quiet s₂) : s.Quiet s₂ :=
  ⟨h₁.machine.trans h₂.machine, h₂.sound⟩

/-- A scope goes on with another machine whose heap has the nodes of the first one. -/
theorem Sound.into (h : s.Sound) {c : Machine} (hc : c.Sound) (hs : s.machine.heap.Sub c.heap) :
    Sound { s with machine := c } :=
  ⟨hc, fun name v hv => (h.vars name v hv).mono hs⟩

theorem Sound.keep (h : s.Sound) (name : Option String) (hv : s.heap.Knows v) :
    (s.keep name v).Sound := by
  cases name with
  | none => exact h
  | some n =>
    refine ⟨h.machine, fun m w hw => ?_⟩
    simp only [Scope.keep, Option.elim_some] at hw
    by_cases hm : m = n
    · subst hm
      rw [Std.ExtTreeMap.getElem?_insert_self] at hw
      exact Option.some.inj hw ▸ hv
    · exact h.vars m w (by grind)

theorem quiet_keep (h : s.Sound) (name : Option String) (hv : s.heap.Knows v) :
    s.Quiet (s.keep name v) := by
  refine ⟨?_, h.keep name hv⟩
  cases name <;> exact .refl _

theorem quiet_setHeap_set (h : s.Sound) (t : TableId) (key : String) (hv : s.heap.Knows v) :
    s.Quiet (s.setHeap (s.heap.set t key v)) := by
  have hq := Machine.quiet_set s.machine t key v
  exact ⟨hq, h.into (h.machine.set t key hv) hq.sub⟩

theorem quiet_newTable (h : s.Sound) : s.Quiet (s.setHeap s.heap.newTable.1) := by
  have hs : s.heap.Sub s.heap.newTable.1 := fun n hn => Heap.holds_newTable.2 (.inl hn)
  have hq := Machine.quiet_setHeap (h := s.heap.newTable.1) rfl (Nat.le_succ _) hs
  refine ⟨hq, h.into (h.machine.of_alike hq.alike ?_) hs⟩
  exact h.machine.memory.setHeap rfl h.machine.memory.closed.newTable

end Scope

/-! ## Evaluation -/

mutual

theorem Expr.quiet_eval {s s' : Scope} {v : Value} (h : s.Sound) :
    ∀ e : Expr, e.eval s = .ok (s', v) → s.Quiet s' ∧ s'.heap.Knows v
  | .nil, he | .boolean _, he | .integer _, he | .number _, he | .string _, he | .pointer _, he => by
    cases he
    exact ⟨.refl h, Heap.knows_of_node?_eq_none rfl⟩
  | .table items, he => by
    simp only [Expr.eval] at he
    have hq := Scope.quiet_newTable h
    cases hf : items.fill (s.setHeap s.heap.newTable.1) s.heap.newTable.2 with
    | error r => simp [hf, Except.map] at he
    | ok s₁ =>
      simp only [hf, Except.map, Except.ok.injEq, Prod.mk.injEq] at he
      obtain ⟨rfl, rfl⟩ := he
      have hq' := TableItems.quiet_fill hq.sound items hf
      refine ⟨hq.trans hq', Heap.knows_table_iff.2 (hq'.machine.sub _ ?_)⟩
      exact Heap.holds_newTable.2 (.inr rfl)
  | .cached a, he => by
    simp only [Expr.eval] at he
    cases hp : s.machine.proxyOf? a with
    | none => simp [hp] at he
    | some p =>
      simp only [hp, Option.elim_some, Except.ok.injEq, Prod.mk.injEq] at he
      obtain ⟨rfl, rfl⟩ := he
      refine ⟨.refl h, Heap.knows_proxy_iff.2 ?_⟩
      exact (h.machine.memory.proxyOf?_eq_some_iff.1 hp).holds
  | .var name, he => by
    simp only [Expr.eval] at he
    cases hv : s.vars[name]? with
    | none => simp [hv] at he
    | some w =>
      simp only [hv, Option.elim_some, Except.ok.injEq, Prod.mk.injEq] at he
      obtain ⟨rfl, rfl⟩ := he
      exact ⟨.refl h, h.vars name w hv⟩
  | .stash name, he => by
    simp only [Expr.eval] at he
    cases hp : s.machine.memory.roots[name]? with
    | none => simp [hp] at he
    | some p =>
      simp only [hp, Option.elim_some, Except.ok.injEq, Prod.mk.injEq] at he
      obtain ⟨rfl, rfl⟩ := he
      exact ⟨.refl h, Heap.knows_proxy_iff.2 (h.machine.memory.rooted name p hp)⟩

theorem TableItems.quiet_fill {s s' : Scope} {t : TableId} (h : s.Sound) :
    ∀ items : TableItems, items.fill s t = .ok s' → s.Quiet s'
  | .nil, hf => by
    cases hf
    exact .refl h
  | .cons key e rest, hf => by
    simp only [TableItems.fill] at hf
    cases he : e.eval s with
    | error r => simp [he] at hf
    | ok r =>
      rw [he] at hf
      obtain ⟨hq, hv⟩ := Expr.quiet_eval h e he
      have hs := Scope.quiet_setHeap_set hq.sound t key hv
      exact hq.trans (hs.trans (TableItems.quiet_fill hs.sound rest hf))

end

namespace Scope

variable {s : Scope}

/-- Evaluating an expression is quiet, and goes on with a value that the heap knows. -/
theorem eval_cases (h : s.Sound) (e : Expr) (k : Scope → Value → Scope × Answer) :
    (∃ r, s.eval e k = (s, .refused r)) ∨
      ∃ s' v, s.Quiet s' ∧ s'.heap.Knows v ∧ s.eval e k = k s' v := by
  rw [eval]
  cases he : e.eval s with
  | error r => exact .inl ⟨r, rfl⟩
  | ok r =>
    obtain ⟨hq, hv⟩ := Expr.quiet_eval h e he
    exact .inr ⟨r.1, r.2, hq, hv, rfl⟩

end Scope

end NativeProxies
