import NativeProxies.Proofs.Script.Action
import NativeProxies.Proofs.Twin.Bridge

/-!
# Twin scripts

A script does the same in twin bridges: every action makes twins of twins and gives the same answer
(`Action.twins_run`).
-/

namespace NativeProxies

/-! ## What a script asks of a proxy -/

namespace Machine.Twins

variable {P : Nat → Notification → Bool} {strict : Option Bool} {c c' : Machine}
  (h : c.Twins P strict c')
include h

theorem responder : c'.bridge.responder = c.bridge.responder := by
  rw [h.bridge]
  rfl

theorem conforms (t ancestor : TypeId) : c'.conforms t ancestor = c.conforms t ancestor := by
  have ha : c'.bridge.ancestorsOnly = c.bridge.ancestorsOnly := by
    rw [h.bridge]
    rfl
  rw [Machine.conforms, ha, h.types, Machine.conforms]

theorem objectOf? (v : Value) (expected : Option TypeId) :
    c'.objectOf? v expected = c.objectOf? v expected := by
  simp only [Machine.objectOf?, matches?, h.heap, h.host, h.conforms]

theorem refuse {α : Type} (v : Value) (position : Nat) (expected : Option TypeId) :
    (c.refuse (α := α) v position expected).1.Twins P strict
        (c'.refuse (α := α) v position expected).1 ∧
      (c'.refuse (α := α) v position expected).2 = (c.refuse v position expected).2 := by
  obtain ⟨hl, he⟩ := h.labelFor expected
  rw [Machine.refuse, mismatch, Machine.refuse, mismatch, he]
  exact ⟨hl, rfl⟩

theorem toNative (v : Value) (position : Nat) (need : Requirement) :
    (c.toNative v position need).1.Twins P strict (c'.toNative v position need).1 ∧
      (c'.toNative v position need).2 = (c.toNative v position need).2 := by
  rw [Machine.toNative, Machine.toNative, h.objectOf?]
  split_ifs
  · exact ⟨h, rfl⟩
  · cases c.objectOf? v need.expected with
    | some a => exact ⟨h, rfl⟩
    | none => exact ⟨h, rfl⟩
  · cases c.objectOf? v need.expected with
    | some a => exact ⟨h, rfl⟩
    | none => exact h.refuse v position need.expected

theorem describe (v : Value) :
    (c.describe v).1.Twins P strict (c'.describe v).1 ∧ (c'.describe v).2 = (c.describe v).2 := by
  cases v with
  | proxy p =>
    simp only [Machine.describe, h.heap, h.host, h.types]
    cases c.heap.proxy? p with
    | none => exact ⟨h, rfl⟩
    | some r =>
      dsimp only
      split_ifs
      · exact ⟨h, rfl⟩
      · obtain ⟨hl, he⟩ := h.locate (c.host.typeOf r.object)
        exact ⟨hl, by rw [he]⟩
  | _ => exact ⟨h, rfl⟩

theorem respond (d : Descriptor) (r : ProxyState) (member : String) (new : Option Value) :
    (c.respond d r member new).1.Twins P strict (c'.respond d r member new).1 ∧
      (c'.respond d r member new).2 = (c.respond d r member new).2 := by
  simp only [Machine.respond, h.responder, h.heap]
  cases c.bridge.responder with
  | echo => exact ⟨h, rfl⟩
  | environment =>
    cases new with
    | none => exact ⟨h, rfl⟩
    | some v => exact ⟨h.setHeap _, rfl⟩

theorem useMember (v : Value) (member : String) (new : Option Value) :
    (c.useMember v member new).1.Twins P strict (c'.useMember v member new).1 ∧
      (c'.useMember v member new).2 = (c.useMember v member new).2 := by
  rw [Machine.useMember, Machine.useMember, h.heap]
  cases c.heap.heldProxy? v with
  | none => exact h.refuse v 1 none
  | some found =>
    obtain ⟨hl, he⟩ := h.locate (c.host.typeOf found.2.object)
    dsimp only
    rw [h.host, he]
    cases (c.locate (c.host.typeOf found.2.object)).2 with
    | none => exact hl.refuse v 1 _
    | some f =>
      obtain ⟨hr, he⟩ := hl.respond f.descriptor found.2 member new
      exact ⟨hr, congrArg Except.ok he⟩

theorem useField (v : Value) (field : RawField) (new : Option Value) :
    (c.useField v field new).1.Twins P strict (c'.useField v field new).1 ∧
      (c'.useField v field new).2 = (c.useField v field new).2 := by
  rw [Machine.useField, Machine.useField, h.heap]
  cases c.heap.heldProxy? v with
  | none => exact h.refuse v 1 none
  | some found => exact ⟨h, by simp only [respondField, h.responder]⟩

theorem inspect (v : Value) (aspect : Aspect) (tag : Option TypeId) :
    (c.inspect v aspect tag).1.Twins P strict (c'.inspect v aspect tag).1 ∧
      (c'.inspect v aspect tag).2 = (c.inspect v aspect tag).2 := by
  rw [Machine.inspect, Machine.inspect, h.heap]
  cases c.heap.heldProxy? v with
  | none => exact ⟨h, rfl⟩
  | some found =>
    obtain ⟨hl, he⟩ := h.locate (tag.getD (c.host.typeOf found.2.object))
    dsimp only
    rw [h.host]
    cases aspect with
    | tag => exact ⟨h, rfl⟩
    | environment => exact ⟨h, rfl⟩
    | descriptor => exact ⟨hl, by rw [he]⟩
    | classRecord => exact ⟨hl, by rw [he]⟩

theorem inspectAs (v : Value) (word : String) (tag : Value) :
    (c.inspectAs v word tag).1.Twins P strict (c'.inspectAs v word tag).1 ∧
      (c'.inspectAs v word tag).2 = (c.inspectAs v word tag).2 := by
  rw [Machine.inspectAs, Machine.inspectAs, h.catalog]
  cases Aspect.ofText word with
  | error failure => exact ⟨h, rfl⟩
  | ok aspect =>
    obtain ⟨hi, he⟩ := h.inspect v aspect (c.bridge.catalog.readType tag)
    exact ⟨hi, congrArg Except.ok he⟩

theorem catalogStep (q : CatalogStep) :
    (q.run c).1.Twins P strict (q.run c').1 ∧ (q.run c').2 = (q.run c).2 := by
  cases q with
  | locate t =>
    obtain ⟨hl, he⟩ := h.locate t
    exact ⟨hl, congrArg Answer.located he⟩
  | labelFor t =>
    obtain ⟨hl, he⟩ := h.labelFor t
    exact ⟨hl, congrArg Answer.text he⟩
  | hook d t =>
    obtain ⟨hl, he⟩ := h.hook? t d
    exact ⟨hl, by rw [CatalogStep.run, CatalogStep.run, he]⟩
  | descriptor t => exact ⟨h, by rw [CatalogStep.run, CatalogStep.run, h.catalog]⟩
  | named name => exact ⟨h, by rw [CatalogStep.run, CatalogStep.run, h.catalog]⟩
  | extent => exact ⟨h, by rw [CatalogStep.run, CatalogStep.run, h.catalog]⟩

end Machine.Twins

/-! ## Scopes -/

/-- Twin machines with the same variables. -/
structure Scope.Twins (P : Nat → Notification → Bool) (strict : Option Bool) (s s' : Scope) : Prop where
  machine : s.machine.Twins P strict s'.machine
  vars : s'.vars = s.vars

/-- Twin scopes with the same answer. -/
def Scope.Agree (P : Nat → Notification → Bool) (strict : Option Bool) (r r' : Scope × Answer) : Prop :=
  r.1.Twins P strict r'.1 ∧ r'.2 = r.2

namespace Scope.Twins

variable {P : Nat → Notification → Bool} {strict : Option Bool} {s s' : Scope}
  (h : s.Twins P strict s')
include h

theorem heap : s'.heap = s.heap := h.machine.heap

theorem into {c c' : Machine} (hc : c.Twins P strict c') : (s.into c).Twins P strict (s'.into c') :=
  ⟨hc, h.vars⟩

theorem setHeap (x : Heap) : (s.setHeap x).Twins P strict (s'.setHeap x) :=
  ⟨h.machine.setHeap x, h.vars⟩

theorem keep (name : Option String) (v : Value) : (s.keep name v).Twins P strict (s'.keep name v) := by
  cases name with
  | none => exact h
  | some n => exact ⟨h.machine, congrArg (fun x : Map String Value => x.insert n v) h.vars⟩

theorem agree (a : Answer) : Agree P strict (s, a) (s', a) := ⟨h, rfl⟩

theorem answer (name : Option String) (r : Except Failure Value) :
    Agree P strict (s.answer name r) (s'.answer name r) := by
  cases r with
  | error e => exact h.agree _
  | ok v =>
    refine ⟨h.keep name v, ?_⟩
    rw [Scope.answer, Scope.answer, present, present, h.heap]

theorem afterValue (name : Option String) {r r' : Machine × Except Failure Value}
    (hr : r.1.Twins P strict r'.1 ∧ r'.2 = r.2) :
    Agree P strict (s.afterValue name r) (s'.afterValue name r') := by
  rw [Scope.afterValue, Scope.afterValue, hr.2]
  exact (h.into hr.1).answer name r.2

theorem after {α : Type} {r r' : Machine × α} (hr : r.1.Twins P strict r'.1 ∧ r'.2 = r.2)
    (f : α → Answer) : Agree P strict (s.after r f) (s'.after r' f) :=
  ⟨h.into hr.1, congrArg f hr.2⟩

theorem keepFound (name : Option String) (i : Option Finding) :
    (s.keepFound name i).Twins P strict (s'.keepFound name i) := by
  cases i with
  | none => exact h
  | some i =>
    cases i with
    | environment t _ => exact h.keep name (.table t)
    | _ => exact h

theorem answerFinding (name : Option String) (i : Except Failure (Option Finding)) :
    Agree P strict (s.answerFinding name i) (s'.answerFinding name i) := by
  cases i with
  | error e => exact h.agree _
  | ok i => exact ⟨h.keepFound name i, rfl⟩

theorem table? (v : Value) : s'.table? v = s.table? v := by
  cases v <;> simp only [Scope.table?, h.heap]

end Scope.Twins

/-! ## Evaluation -/

section Evaluation

variable {P : Nat → Notification → Bool} {strict : Option Bool}

mutual

theorem Expr.twins_eval {s s' : Scope} (h : s.Twins P strict s') : ∀ e : Expr,
    (∃ r, e.eval s = .error r ∧ e.eval s' = .error r) ∨
      ∃ t t' v, e.eval s = .ok (t, v) ∧ e.eval s' = .ok (t', v) ∧ t.Twins P strict t'
  | .nil | .boolean _ | .integer _ | .number _ | .string _ | .pointer _ =>
    .inr ⟨s, s', _, rfl, rfl, h⟩
  | .table items => by
    simp only [Expr.eval, h.heap]
    rcases TableItems.twins_fill (h.setHeap s.heap.newTable.1) s.heap.newTable.2 items with
      ⟨r, he, he'⟩ | ⟨t, t', he, he', ht⟩
    · rw [he, he']
      exact .inl ⟨r, rfl, rfl⟩
    · rw [he, he']
      exact .inr ⟨t, t', _, rfl, rfl, ht⟩
  | .cached a => by
    simp only [Expr.eval, h.machine.proxyOf?]
    cases s.machine.proxyOf? a with
    | none => exact .inl ⟨_, rfl, rfl⟩
    | some p => exact .inr ⟨s, s', _, rfl, rfl, h⟩
  | .var name => by
    simp only [Expr.eval, h.vars]
    cases s.vars[name]? with
    | none => exact .inl ⟨_, rfl, rfl⟩
    | some v => exact .inr ⟨s, s', _, rfl, rfl, h⟩
  | .stash name => by
    simp only [Expr.eval, h.machine.memory]
    cases s.machine.memory.roots[name]? with
    | none => exact .inl ⟨_, rfl, rfl⟩
    | some p => exact .inr ⟨s, s', _, rfl, rfl, h⟩

theorem TableItems.twins_fill {s s' : Scope} (h : s.Twins P strict s') (t : TableId) :
    ∀ items : TableItems,
      (∃ r, items.fill s t = .error r ∧ items.fill s' t = .error r) ∨
        ∃ u u', items.fill s t = .ok u ∧ items.fill s' t = .ok u' ∧ u.Twins P strict u'
  | .nil => .inr ⟨s, s', rfl, rfl, h⟩
  | .cons key e rest => by
    simp only [TableItems.fill]
    rcases Expr.twins_eval h e with ⟨r, he, he'⟩ | ⟨u, u', v, he, he', hu⟩
    · rw [he, he']
      exact .inl ⟨r, rfl, rfl⟩
    · rw [he, he']
      dsimp only
      rw [hu.heap]
      exact TableItems.twins_fill (hu.setHeap _) t rest

end

end Evaluation

namespace Scope.Twins

variable {P : Nat → Notification → Bool} {strict : Option Bool} {s s' : Scope}
  (h : s.Twins P strict s')
include h

theorem eval (e : Expr) {k k' : Scope → Value → Scope × Answer}
    (hk : ∀ t t' v, e.eval s = .ok (t, v) → t.Twins P strict t' → Agree P strict (k t v) (k' t' v)) :
    Agree P strict (s.eval e k) (s'.eval e k') := by
  rw [Scope.eval, Scope.eval]
  rcases e.twins_eval h with ⟨r, he, he'⟩ | ⟨t, t', v, he, he', ht⟩
  · rw [he, he']
    exact h.agree _
  · rw [he, he']
    exact hk t t' v he ht

theorem evalOption (e : Option Expr) {k k' : Scope → Option Value → Scope × Answer}
    (hk : ∀ t t' v, t.Twins P strict t' → Agree P strict (k t v) (k' t' v)) :
    Agree P strict (s.evalOption e k) (s'.evalOption e k') := by
  cases e with
  | none => exact hk s s' none h
  | some e => exact h.eval e fun t t' v _ ht => hk t t' (some v) ht

theorem evalTable (e : Expr) {k k' : Scope → TableId → Scope × Answer}
    (hk : ∀ t t' x, t.Twins P strict t' → Agree P strict (k t x) (k' t' x)) :
    Agree P strict (s.evalTable e k) (s'.evalTable e k') := by
  refine h.eval e fun t t' v _ ht => ?_
  rw [ht.table?]
  cases t.table? v with
  | none => exact ht.agree _
  | some x => exact hk t t' x ht

end Scope.Twins

/-- An action makes twins of twins, and gives the same answer. -/
theorem Action.twins_run {P : Nat → Notification → Bool} {strict : Option Bool} {s s' : Scope}
    (hs : s.Sound) (h : s.Twins P strict s')
    (hi : s.machine.Ignores (P s.machine.bridge.serial)) (a : Action) :
    Scope.Agree P strict (a.run s) (a.run s') := by
  cases a with
  | keep e name => exact h.eval e fun t t' v _ ht => ht.answer name _
  | wrap a handedOver name =>
    have hw := h.afterValue name (h.machine.toValue hs.machine.memory a handedOver)
    cases a with
    | none => exact hw
    | some a =>
      rw [run, run, h.machine.host]
      split_ifs
      · exact h.agree _
      · exact h.agree _
      · exact hw
  | toNative need e position =>
    exact h.eval e fun t t' v _ ht => ht.after (ht.machine.toNative v position need) _
  | dismiss e =>
    refine h.eval e fun t t' v he ht => ht.after (ht.machine.dismiss ?_ v) _
    have hq := (Expr.quiet_eval hs e he).1.machine
    rw [hq.serial]
    exact hi.of_weak (congrArg ProxyCache.weak hq.cache)
  | describe e => exact h.eval e fun t t' v _ ht => ht.after (ht.machine.describe v) _
  | typeName e => exact h.eval e fun t t' v _ ht => ht.agree _
  | isNil e => exact h.eval e fun t t' v _ ht => ht.agree _
  | useMember e new member name =>
    exact h.eval e fun t t' v _ ht => ht.evalOption new fun u u' new hu =>
      hu.afterValue name (hu.machine.useMember v member new)
  | useField e new raw name =>
    exact h.eval e fun t t' v _ ht => ht.evalOption new fun u u' new hu =>
      hu.afterValue name (hu.machine.useField v raw new)
  | inspect aspect e t name =>
    refine h.eval e fun u u' v _ hu => ?_
    obtain ⟨hm, he⟩ := hu.machine.inspect v aspect t
    dsimp only
    rw [he]
    exact (hu.into hm).answerFinding name _
  | inspectAs e t word name =>
    refine h.eval e fun u u' v _ hu => hu.eval t fun x x' t _ hx => ?_
    obtain ⟨hm, he⟩ := hx.machine.inspectAs v word t
    dsimp only
    rw [he]
    exact (hx.into hm).answerFinding name _
  | readType e =>
    refine h.eval e fun t t' v _ ht => ⟨ht, ?_⟩
    dsimp only
    rw [ht.machine.catalog]
  | notify n => exact ⟨h.into (h.machine.applyNotification n), rfl⟩
  | catchUp => exact ⟨h.into (h.machine.catchUp hi), rfl⟩
  | find a name =>
    rw [run, run, h.machine.proxyOf?]
    cases s.machine.proxyOf? a with
    | none => exact h.agree _
    | some p => exact h.answer name (.ok (.proxy p))
  | cached a => exact ⟨h, by rw [run, run, h.machine.cache]⟩
  | cacheSizes => exact ⟨h, by rw [run, run, h.machine.cache]⟩
  | stash e name =>
    refine h.eval e fun t t' v _ ht => ?_
    cases v.proxy? with
    | none => exact ht.agree _
    | some p =>
      refine ⟨ht.into ?_, rfl⟩
      rw [ht.machine.memory]
      exact ht.machine.setMemory _
  | same e f =>
    refine h.eval e fun t t' v _ ht => ht.eval f fun u u' w _ hu => ?_
    split
    · exact hu.agree _
    · exact hu.agree _
  | debug e =>
    refine h.eval e fun t t' v _ ht => ⟨ht, ?_⟩
    dsimp only
    rw [ht.heap]
  | get e key name =>
    refine h.evalTable e fun t t' x ht => ?_
    rw [ht.heap]
    exact ht.answer name _
  | set e new key =>
    refine h.evalTable e fun t t' x ht => ht.eval new fun u u' v _ hu => ?_
    dsimp only
    rw [hu.heap]
    exact ⟨hu.setHeap _, rfl⟩
  | extent e =>
    refine h.evalTable e fun t t' x ht => ⟨ht, ?_⟩
    dsimp only
    rw [ht.heap]
  | catalog q => exact h.after (h.machine.catalogStep q) id
  | host t =>
    obtain ⟨ho, he⟩ := h.machine.outside.run t
    exact ⟨h.into (h.machine.setOutside ho), he⟩

end NativeProxies
