import NativeProxies.Proofs.Script.Action

/-!
# Members

What an action does to one proxy and the table behind it.  As long as a bridge serves the members of a
proxy (`Machine.Exposes`), an action leaves them as they are or writes one of them
(`Action.get_run`), and it does not release the proxy unless it dismisses it (`Action.proxy?_run`).
-/

namespace NativeProxies

namespace Machine

variable {c : Machine} {v : Value} {p : ProxyId} {r : ProxyState} {member : String}
  {new : Option Value}

/-- A bridge serves the members of a proxy from its environment. -/
structure Exposes (c : Machine) (p : ProxyId) (r : ProxyState) : Prop where
  proxy : c.heap.proxy? p = some r
  released : r.released = false
  responder : c.bridge.responder = .environment
  located : (c.locate (c.host.typeOf r.object)).2.isSome

theorem Exposes.heldProxy? (h : c.Exposes p r) : c.heap.heldProxy? (.proxy p) = some (p, r) := by
  simp [Heap.heldProxy?, Value.proxy?, h.proxy, h.released]

/-- Using a member goes to the environment, after a question to the catalog. -/
theorem Exposes.useMember_eq (h : c.Exposes p r) (member : String) (new : Option Value) :
    ∃ c', c.Recalls c' ∧ c.useMember (.proxy p) member new =
      new.elim (c', .ok (c.heap.get r.env member)) fun v =>
        (c'.setHeap (c.heap.set r.env member v), .ok .nil) := by
  obtain ⟨f, hf⟩ := Option.isSome_iff_exists.1 h.located
  have hl := recalls_locate c (c.host.typeOf r.object)
  have hr : (c.locate (c.host.typeOf r.object)).1.bridge.responder = .environment := h.responder
  have hh : (c.locate (c.host.typeOf r.object)).1.heap = c.heap := congrArg Memory.heap hl.memory
  refine ⟨_, hl, ?_⟩
  simp only [useMember, h.heldProxy?, hf, respond, hr, hh]
  cases new <;> rfl

/-- Reading a member answers what is bound in the environment. -/
theorem Exposes.useMember_none (h : c.Exposes p r) (member : String) :
    (c.useMember (.proxy p) member none).2 = .ok (c.heap.get r.env member) := by
  obtain ⟨_, -, he⟩ := h.useMember_eq member none
  rw [he]
  rfl

/-- Writing a member binds it in the environment. -/
theorem Exposes.heap_useMember_some (h : c.Exposes p r) (member : String) (v : Value) :
    (c.useMember (.proxy p) member (some v)).1.heap = c.heap.set r.env member v := by
  obtain ⟨_, -, he⟩ := h.useMember_eq member (some v)
  rw [he]
  rfl

theorem Exposes.quiet {c' : Machine} (h : c.Exposes p r) (hq : c.Quiet c') : c'.Exposes p r where
  proxy := (congrArg (fun m : Map ProxyId ProxyState => m[p]?) hq.proxies).trans h.proxy
  released := h.released
  responder := hq.responder.trans h.responder
  located := by
    have hk := hq.alike
    have hl := hk.catalog.locate (c.host.typeOf r.object)
    rw [locate, hk.typeOf, hk.types, hl]
    exact h.located

/-- Using a member binds a key in the environment of the proxy, or nothing. -/
theorem heap_useMember_or (c : Machine) (v : Value) (member : String) (new : Option Value) :
    (c.useMember v member new).1.heap = c.heap ∨
      ∃ p r x, v = .proxy p ∧ c.heap.proxy? p = some r ∧ new = some x ∧
        (c.useMember v member new).1.heap = c.heap.set r.env member x := by
  rw [useMember]
  cases hp : c.heap.heldProxy? v with
  | none => exact .inl (congrArg Memory.heap (recalls_refuse (α := Value) c v 1 none).memory)
  | some found =>
    obtain ⟨p, r⟩ := found
    obtain ⟨hv, hr, -⟩ := heldProxy?_spec hp
    have hl := recalls_locate c (c.host.typeOf r.object)
    dsimp only
    split
    · exact .inl (congrArg Memory.heap (hl.trans (recalls_refuse (α := Value) _ v 1 _)).memory)
    · unfold respond
      split
      · cases new with
        | none => exact .inl rfl
        | some x => exact .inr ⟨p, r, x, hv, hr, rfl, rfl⟩
      · exact .inl rfl

/-- The environments of other proxies are left alone. -/
theorem entries_useMember_of_ne (h : c.Sound) (hp : c.heap.proxy? p = some r) (hv : v ≠ .proxy p)
    (member : String) (new : Option Value) :
    (c.useMember v member new).1.heap.entries r.env = c.heap.entries r.env := by
  rcases heap_useMember_or c v member new with he | ⟨q, r', x, rfl, hq, -, he⟩
  · rw [he]
  · have hne : r.env ≠ r'.env := by
      rintro henv
      refine hv (congrArg Value.proxy ?_)
      rw [← h.memory.closed.env_succ q r' hq, ← h.memory.closed.env_succ p r hp, henv]
    rw [he, Heap.entries_set, if_neg (by simp [hne])]

/-- Wrapping leaves all tables alone. -/
theorem entries_wrap (h : c.memory.Sound) {t : TableId} (ht : c.heap.holds (.table t)) (a : Address)
    (handedOver : Bool) : (c.wrap a handedOver).1.heap.entries t = c.heap.entries t := by
  rcases proxyOf?_or h a with ⟨p, hp⟩ | ha
  · exact congrArg (fun m : Memory => m.heap.entries t) (memory_wrap_of_some hp handedOver)
  · have hne : t ≠ c.heap.next := h.closed.ne_next ht
    rw [heap_wrap_of_none h ha, Heap.entries_newProxy, if_neg hne]

theorem proxy?_wrap (h : c.memory.Sound) (hp : c.heap.proxy? p = some r) (a : Address)
    (handedOver : Bool) : (c.wrap a handedOver).1.heap.proxy? p = some r := by
  rcases proxyOf?_or h a with ⟨q, hq⟩ | ha
  · exact (congrArg (fun m : Memory => m.heap.proxy? p) (memory_wrap_of_some hq handedOver)).trans hp
  · have hlt : p < c.heap.next := h.closed.lt_next (.proxy p) (Heap.holds_proxy_iff.2 ⟨r, hp⟩)
    have hne : p ≠ c.heap.next + 1 := Nat.ne_of_lt (Nat.lt_succ_of_lt hlt)
    rw [heap_wrap_of_none h ha, Heap.proxy?_newProxy, if_neg hne, hp]

/-- Dismissing a value leaves all tables alone. -/
theorem entries_dismiss (c : Machine) (v : Value) (t : TableId) :
    (c.dismiss v).1.heap.entries t = c.heap.entries t := by
  cases hv : c.heap.heldProxy? v with
  | none => rw [dismiss_of_none hv]
  | some found =>
    rw [heap_dismiss_of_some (p := found.1) (r := found.2) hv]
    rfl

theorem proxy?_dismiss_of_ne (hv : v ≠ .proxy p) : (c.dismiss v).1.heap.proxy? p = c.heap.proxy? p := by
  cases hd : c.heap.heldProxy? v with
  | none => rw [dismiss_of_none hd]
  | some found =>
    obtain ⟨q, r⟩ := found
    obtain ⟨rfl, -, -⟩ := heldProxy?_spec hd
    rw [heap_dismiss_of_some hd, Heap.proxy?_release, if_neg fun h => hv (congrArg Value.proxy h.symm)]

end Machine

/-! ## Evaluation -/

mutual

/-- Evaluating an expression leaves alone the tables that are there. -/
theorem Expr.entries_eval {s s' : Scope} {v : Value} {t : TableId} (h : s.Sound)
    (ht : s.heap.holds (.table t)) :
    ∀ e : Expr, e.eval s = .ok (s', v) → s'.heap.entries t = s.heap.entries t
  | .nil, he | .boolean _, he | .integer _, he | .number _, he | .string _, he | .pointer _, he => by
    cases he
    rfl
  | .table items, he => by
    simp only [Expr.eval] at he
    have hq := Scope.quiet_newTable h
    have hne : t ≠ s.heap.next := h.machine.memory.closed.ne_next ht
    have hnew : (s.setHeap s.heap.newTable.1).heap.entries t = s.heap.entries t := by
      change s.heap.newTable.1.entries t = _
      rw [Heap.entries_newTable, if_neg hne]
    cases hf : items.fill (s.setHeap s.heap.newTable.1) s.heap.newTable.2 with
    | error r => simp [hf, Except.map] at he
    | ok s₁ =>
      simp only [hf, Except.map, Except.ok.injEq, Prod.mk.injEq] at he
      obtain ⟨rfl, rfl⟩ := he
      exact (TableItems.entries_fill hq.sound (hq.machine.sub _ ht) hne items hf).trans hnew
  | .cached a, he => by
    simp only [Expr.eval] at he
    cases hp : s.machine.proxyOf? a <;> simp_all
  | .var name, he => by
    simp only [Expr.eval] at he
    cases hv : s.vars[name]? <;> simp_all
  | .stash name, he => by
    simp only [Expr.eval] at he
    cases hp : s.machine.memory.roots[name]? <;> simp_all

/-- Only the table that is filled changes. -/
theorem TableItems.entries_fill {s s' : Scope} {t u : TableId} (h : s.Sound)
    (ht : s.heap.holds (.table t)) (hu : t ≠ u) :
    ∀ items : TableItems, items.fill s u = .ok s' → s'.heap.entries t = s.heap.entries t
  | .nil, hf => by
    cases hf
    rfl
  | .cons key e rest, hf => by
    simp only [TableItems.fill] at hf
    cases he : e.eval s with
    | error r => simp [he] at hf
    | ok r =>
      rw [he] at hf
      obtain ⟨hq, hv⟩ := Expr.quiet_eval h e he
      have hs := Scope.quiet_setHeap_set hq.sound u key hv
      have hset : (r.1.setHeap (r.1.heap.set u key r.2)).heap.entries t = r.1.heap.entries t := by
        change (r.1.heap.set u key r.2).entries t = _
        rw [Heap.entries_set, if_neg (by simp [hu])]
      have hsub := (hq.trans hs).machine.sub _ ht
      exact (TableItems.entries_fill hs.sound hsub hu rest hf).trans
        (hset.trans (Expr.entries_eval h ht e he))

end

namespace Scope

variable {s s' : Scope} {t : TableId} {k : Scope → Value → Scope × Answer}

theorem heap_answer (s : Scope) (name : Option String) (v : Except Failure Value) :
    (s.answer name v).1.heap = s.heap := by
  cases v with
  | error e => rfl
  | ok v => cases name <;> rfl

theorem heap_answerFinding (s : Scope) (name : Option String)
    (i : Except Failure (Option Finding)) : (s.answerFinding name i).1.heap = s.heap := by
  cases i with
  | error e => rfl
  | ok i =>
    cases i with
    | none => rfl
    | some f => cases f <;> first | rfl | cases name <;> rfl

/-- What goes on with the value of an expression leaves a table alone if it does so from there. -/
theorem entries_eval (h : s.Sound) (ht : s.heap.holds (.table t)) (e : Expr)
    (hk : ∀ s' v, e.eval s = .ok (s', v) → s.Quiet s' → s'.heap.holds (.table t) →
      (k s' v).1.heap.entries t = s'.heap.entries t) :
    (s.eval e k).1.heap.entries t = s.heap.entries t := by
  rw [eval]
  cases he : e.eval s with
  | error r => rfl
  | ok r =>
    obtain ⟨hq, -⟩ := Expr.quiet_eval h e he
    exact (hk r.1 r.2 he hq (hq.machine.sub _ ht)).trans (Expr.entries_eval h ht e he)

theorem entries_evalOption (h : s.Sound) (ht : s.heap.holds (.table t)) (e : Option Expr)
    {k : Scope → Option Value → Scope × Answer}
    (hk : ∀ s' v, (∀ f ∈ e, ∃ x, f.eval s = .ok (s', x) ∧ v = some x) → (e = none → v = none) →
      s.Quiet s' → (k s' v).1.heap.entries t = s'.heap.entries t) :
    (s.evalOption e k).1.heap.entries t = s.heap.entries t := by
  cases e with
  | none => exact hk s none (by simp) (fun _ => rfl) (.refl h)
  | some e =>
    exact entries_eval h ht e fun s' v he hq _ => hk s' (some v) (by simpa using he) (by simp) hq

end Scope

namespace Action

variable {s : Scope} {p : ProxyId} {r : ProxyState} {t : TableId}

/-- The value that an action writes to a member of a proxy. -/
def written? (s : Scope) (p : ProxyId) (member : String) : Action → Option Value
  | useMember e (some new) key _ =>
    (e.eval s).toOption.bind fun x =>
      (new.eval x.1).toOption.bind fun y => if x.2 = .proxy p ∧ key = member then some y.2 else none
  | _ => none

/-- The value that an action dismisses. -/
def dismissed? (s : Scope) : Action → Option Value
  | dismiss e => (e.eval s).toOption.map Prod.snd
  | _ => none

/-- The table in which an action binds a key itself. -/
def bound? (s : Scope) : Action → Option TableId
  | set e new _ =>
    (e.eval s).toOption.bind fun x =>
      (x.1.table? x.2).bind fun t => (new.eval x.1).toOption.map fun _ => t
  | _ => none

/-- An action that does not dismiss a proxy leaves it as it is. -/
theorem proxy?_run (h : s.Sound) (hp : s.machine.heap.proxy? p = some r) (a : Action)
    (hd : a.dismissed? s ≠ some (.proxy p)) : (a.run s).1.machine.heap.proxy? p = some r := by
  have hq {s' : Scope} (hq : s.Quiet s') : s'.machine.heap.proxy? p = some r :=
    (congrArg (fun m : Map ProxyId ProxyState => m[p]?) hq.machine.proxies).trans hp
  by_cases hdis : ∃ e, a = .dismiss e
  · obtain ⟨e, rfl⟩ := hdis
    rw [run, Scope.eval]
    cases he : e.eval s with
    | error x => exact hp
    | ok x =>
      have hv : x.2 ≠ .proxy p := by
        intro hv
        simp [dismissed?, he, Except.toOption, hv] at hd
      exact (Machine.proxy?_dismiss_of_ne hv).trans (hq (Expr.quiet_eval h e he).1)
  · rcases run_cases h a with ⟨hs, -⟩ | ⟨n, rfl⟩ | rfl | ⟨b, handedOver, name, rfl, -, he⟩ |
      ⟨e, s', v, rfl, -, -⟩ | ⟨n, rfl⟩
    · exact hq hs.toQuiet
    · exact (congrArg (Heap.proxy? · p) (s.machine.toggles_applyNotification n).heap).trans hp
    · exact (congrArg (Heap.proxy? · p) s.machine.heap_catchUp).trans hp
    · rw [he, machine_afterValue]
      exact Machine.proxy?_wrap h.machine.memory hp b handedOver
    · exact absurd ⟨e, rfl⟩ hdis
    · exact hp

theorem entries_run_useMember (h : s.Sound) (hp : s.machine.heap.proxy? p = some r) {e : Expr}
    {new : Option Expr} {key : String} {name : Option String}
    (hw : (useMember e new key name).written? s p key = none) :
    ((useMember e new key name).run s).1.machine.heap.entries r.env =
      s.machine.heap.entries r.env := by
  have ht : s.heap.holds (.table r.env) := h.machine.memory.closed.holds_env hp
  refine Scope.entries_eval h ht e fun s₁ v he hq₁ ht₁ => ?_
  refine Scope.entries_evalOption hq₁.sound ht₁ new fun s₂ x hx hn hq₂ => ?_
  change (s₂.afterValue name _).1.machine.heap.entries r.env = _
  rw [machine_afterValue]
  have hp₂ : s₂.machine.heap.proxy? p = some r :=
    (congrArg (fun m : Map ProxyId ProxyState => m[p]?) (hq₁.trans hq₂).machine.proxies).trans hp
  cases new with
  | none =>
    obtain rfl := hn rfl
    rcases s₂.machine.heap_useMember_or v key none with heap | ⟨_, _, _, -, -, hnew, -⟩
    · exact congrArg (Heap.entries · r.env) heap
    · cases hnew
  | some f =>
    obtain ⟨y, hy, rfl⟩ := hx f rfl
    refine Machine.entries_useMember_of_ne hq₂.sound.machine hp₂ (fun hv => ?_) key _
    simp [written?, he, hy, hv, Except.toOption] at hw

theorem entries_run_set (h : s.Sound) (ht : s.heap.holds (.table t)) {e new : Expr} {key : String}
    (hb : (set e new key).bound? s ≠ some t) :
    ((set e new key).run s).1.machine.heap.entries t = s.machine.heap.entries t := by
  rw [run, Scope.evalTable]
  refine Scope.entries_eval h ht e fun s₁ v he hq₁ ht₁ => ?_
  cases htab : s₁.table? v with
  | none => rfl
  | some u =>
    rw [Option.elim_some]
    refine Scope.entries_eval hq₁.sound ht₁ new fun s₂ x hx _ _ => ?_
    have hne : t ≠ u := by
      rintro rfl
      simp [bound?, he, hx, htab, Except.toOption] at hb
    change (s₂.heap.set u key x).entries t = _
    rw [Heap.entries_set, if_neg (by simp [hne])]

/-- An action that writes no member of a proxy and binds no key in its environment leaves the
environment as it is. -/
theorem entries_run (h : s.Sound) (hp : s.machine.heap.proxy? p = some r) (a : Action)
    (hw : ∀ member, a.written? s p member = none) (hb : a.bound? s ≠ some r.env) :
    (a.run s).1.machine.heap.entries r.env = s.machine.heap.entries r.env := by
  have ht : s.heap.holds (.table r.env) := h.machine.memory.closed.holds_env hp
  have hsame {e : Expr} {k : Scope → Value → Scope × Answer}
      (hk : ∀ s' v, (k s' v).1.heap = s'.heap) :
      (s.eval e k).1.heap.entries r.env = s.heap.entries r.env :=
    Scope.entries_eval h ht e fun s' v _ _ _ => congrArg (Heap.entries · r.env) (hk s' v)
  have hrecalls {c c' : Machine} (hc : c.Recalls c') : c'.heap = c.heap :=
    congrArg Memory.heap hc.memory
  cases a with
  | keep e name => exact hsame fun s' v => s'.heap_answer name _
  | wrap b handedOver name =>
    cases b with
    | none => exact congrArg (Heap.entries · r.env) (s.heap_answer name _)
    | some b =>
      rw [run]
      split_ifs
      · rfl
      · rfl
      · rw [wrapObject, machine_afterValue]
        exact Machine.entries_wrap h.machine.memory ht b handedOver
  | toNative need e position =>
    exact hsame fun s' v => hrecalls (Machine.recalls_toNative _ v position need)
  | dismiss e => exact Scope.entries_eval h ht e fun s' v _ _ _ => s'.machine.entries_dismiss v _
  | describe e => exact hsame fun s' v => hrecalls (Machine.recalls_describe _ v)
  | typeName e | isNil e | readType e | debug e => exact hsame fun _ _ => rfl
  | useMember e new key name => exact entries_run_useMember h hp (hw key)
  | useField e new raw name =>
    refine Scope.entries_eval h ht e fun s₁ v _ hq₁ ht₁ => ?_
    refine Scope.entries_evalOption hq₁.sound ht₁ new fun s₂ x _ _ _ => ?_
    refine congrArg (Heap.entries · r.env) ((Scope.heap_answer _ name _).trans ?_)
    exact hrecalls (Machine.recalls_useField _ v raw x)
  | inspect aspect e t name =>
    exact hsame fun s' v => (Scope.heap_answerFinding _ name _).trans
      (hrecalls (Machine.recalls_inspect _ v aspect t))
  | inspectAs e f word name =>
    refine Scope.entries_eval h ht e fun s₁ v _ hq₁ ht₁ => ?_
    refine Scope.entries_eval hq₁.sound ht₁ f fun s₂ x _ _ _ => ?_
    refine congrArg (Heap.entries · r.env) ((Scope.heap_answerFinding _ name _).trans ?_)
    exact hrecalls (Machine.recalls_inspectAs _ v word x)
  | notify n => exact congrArg (Heap.entries · r.env) (s.machine.toggles_applyNotification n).heap
  | catchUp => exact congrArg (Heap.entries · r.env) s.machine.heap_catchUp
  | find b name =>
    rw [run]
    cases s.machine.proxyOf? b with
    | none => rfl
    | some q => exact congrArg (Heap.entries · r.env) (s.heap_answer name (.ok (.proxy q)))
  | cached b => rfl
  | cacheSizes => rfl
  | stash e name =>
    refine hsame fun s' v => ?_
    cases v.proxy? <;> rfl
  | same e f =>
    refine Scope.entries_eval h ht e fun s₁ v _ hq₁ ht₁ => ?_
    refine Scope.entries_eval hq₁.sound ht₁ f fun s₂ x _ _ _ => ?_
    split <;> rfl
  | get e key name =>
    refine hsame fun s' v => ?_
    cases s'.table? v with
    | none => rfl
    | some t => exact s'.heap_answer name (.ok _)
  | set e new key => exact entries_run_set h ht hb
  | extent e =>
    refine hsame fun s' v => ?_
    cases s'.table? v <;> rfl
  | catalog q => exact congrArg (Heap.entries · r.env) (hrecalls (Machine.recalls_catalogStep _ q))
  | host n => rfl

/-- Writing a member of a proxy that is served binds it in the environment. -/
theorem entries_run_write (h : s.Sound) (hx : s.machine.Exposes p r) {e new : Expr} {s₁ s₂ : Scope}
    {v : Value} (he : e.eval s = .ok (s₁, .proxy p)) (hn : new.eval s₁ = .ok (s₂, v)) (key : String)
    (name : Option String) : ((useMember e (some new) key name).run s).1.machine.heap.entries r.env =
      (s.machine.heap.entries r.env).set key v := by
  obtain ⟨hq₁, -⟩ := Expr.quiet_eval h e he
  obtain ⟨hq₂, -⟩ := Expr.quiet_eval hq₁.sound new hn
  have hq := hq₁.trans hq₂
  have ht : s.machine.heap.holds (.table r.env) := h.machine.memory.closed.holds_env hx.proxy
  have henv : s₂.machine.heap.entries r.env = s.machine.heap.entries r.env :=
    (Expr.entries_eval hq₁.sound (hq₁.machine.sub _ ht) new hn).trans (Expr.entries_eval h ht e he)
  have hrun : ((useMember e (some new) key name).run s).1.machine.heap =
      s₂.machine.heap.set r.env key v := by
    rw [run, Scope.eval, he, ← (hx.quiet hq.machine).heap_useMember_some key v]
    dsimp only
    rw [Scope.evalOption, Scope.eval, hn]
    exact congrArg Machine.heap (machine_afterValue s₂ name _)
  rw [hrun, Heap.entries_set, if_pos ⟨rfl, hq.machine.sub _ ht⟩, henv]

/-- After an action, a member of a proxy that is served has the value that the action wrote to it, or the
one from before. -/
theorem get_run (h : s.Sound) (hx : s.machine.Exposes p r) (a : Action)
    (hb : a.bound? s ≠ some r.env) (member : String) :
    (a.run s).1.machine.heap.get r.env member =
      (a.written? s p member).getD (s.machine.heap.get r.env member) := by
  by_cases hw : ∀ key, a.written? s p key = none
  · rw [hw, Option.getD_none, Heap.get, entries_run h hx.proxy a hw hb]
    rfl
  · obtain ⟨e, new, key, name, rfl⟩ : ∃ e new key name, a = .useMember e (some new) key name := by
      by_contra hn
      refine hw fun member => ?_
      cases a with
      | useMember e new key name =>
        cases new with
        | none => rfl
        | some f => exact absurd ⟨e, f, key, name, rfl⟩ hn
      | _ => rfl
    cases he : e.eval s with
    | error _ => simp [written?, he, Except.toOption] at hw
    | ok x =>
      obtain ⟨s₁, u⟩ := x
      cases hn : new.eval s₁ with
      | error _ => simp [written?, he, hn, Except.toOption] at hw
      | ok y =>
        obtain ⟨s₂, v⟩ := y
        obtain rfl : u = .proxy p := by
          by_contra hu
          simp [written?, he, hn, hu, Except.toOption] at hw
        have hv : (useMember e (some new) key name).written? s p member =
            if key = member then some v else none := by
          simp [written?, he, hn, Except.toOption]
        rw [hv, Heap.get, entries_run_write h hx he hn, Heap.Entries.get_set]
        by_cases hk : key = member
        · rw [if_pos hk, if_pos hk.symm, Option.getD_some]
        · rw [if_neg hk, if_neg (Ne.symm hk), Option.getD_none, Heap.get]

end Action

end NativeProxies
