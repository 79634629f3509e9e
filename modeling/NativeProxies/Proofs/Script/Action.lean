import NativeProxies.Proofs.Bridge.Release
import NativeProxies.Proofs.Bridge.Wrap
import NativeProxies.Proofs.Run
import NativeProxies.Proofs.Script.HostStep
import NativeProxies.Proofs.Script.Scope

/-!
# Steps within a bridge

Most actions are quiet: they make tables, keep values and ask questions.  The others apply
notifications, wrap an object, dismiss a proxy, or work on the host (`Action.run_cases`).  All of them
keep a scope sound, and answer with nodes that the heap holds (`Action.run_spec`).
-/

namespace NativeProxies

namespace Machine

variable {c c' : Machine} {v : Value}

theorem recalls_refuse {α : Type} (c : Machine) (v : Value) (position : Nat)
    (expected : Option TypeId) : c.Recalls (c.refuse (α := α) v position expected).1 := by
  cases expected with
  | none => exact .refl c
  | some t => exact recalls_locate c t

theorem recalls_toNative (c : Machine) (v : Value) (position : Nat) (need : Requirement) :
    c.Recalls (c.toNative v position need).1 := by
  rw [toNative]
  split
  · exact .refl c
  · split
    · exact .refl c
    · split
      · exact .refl c
      · exact recalls_refuse c v position need.expected

theorem recalls_describe (c : Machine) (v : Value) : c.Recalls (c.describe v).1 := by
  cases v with
  | proxy p =>
    rw [describe]
    split
    · exact .refl c
    · split_ifs
      · exact .refl c
      · exact recalls_locate c _
  | _ => exact .refl c

theorem recalls_useField (c : Machine) (v : Value) (field : RawField) (new : Option Value) :
    c.Recalls (c.useField v field new).1 := by
  rw [useField]
  split
  · exact recalls_refuse c v 1 none
  · exact .refl c

theorem knows_useField {field : RawField} {new : Option Value} {w : Value}
    (hn : ∀ w ∈ new, c.heap.Knows w) (hw : (c.useField v field new).2 = .ok w) :
    c.heap.Knows w := by
  rw [useField] at hw
  split at hw
  · simp [refuse] at hw
  · dsimp only at hw
    rw [respondField] at hw
    split at hw
    · simp at hw
    · cases new with
      | none =>
        cases hw
        exact Heap.knows_of_node?_eq_none rfl
      | some w' =>
        cases hw
        exact hn _ rfl

theorem recalls_inspect (c : Machine) (v : Value) (aspect : Aspect) (tag : Option TypeId) :
    c.Recalls (c.inspect v aspect tag).1 := by
  rw [inspect]
  split
  · exact .refl c
  · cases aspect with
    | tag | environment => exact .refl c
    | descriptor | classRecord => exact recalls_locate c _

theorem recalls_inspectAs (c : Machine) (v : Value) (word : String) (tag : Value) :
    c.Recalls (c.inspectAs v word tag).1 := by
  rw [inspectAs]
  split
  · exact .refl c
  · exact recalls_inspect c v _ _

theorem recalls_catalogStep (c : Machine) (q : CatalogStep) : c.Recalls (q.run c).1 := by
  cases q with
  | locate t => exact recalls_locate c t
  | labelFor t =>
    cases t with
    | none => exact .refl c
    | some t => exact recalls_locate c t
  | hook d t => exact recalls_hook? c t d
  | descriptor t => exact .refl c
  | named name => exact .refl c
  | extent => exact .refl c

/-- The environment of an inspected proxy is held. -/
theorem holds_inspect (h : c.memory.Sound) {aspect : Aspect} {tag : Option TypeId} {t : TableId}
    {n : Nat} (hi : (c.inspect v aspect tag).2 = some (.environment t n)) :
    c.heap.holds (.table t) := by
  rw [inspect] at hi
  split at hi
  · simp at hi
  · rename_i p r hp
    obtain ⟨-, hr, -⟩ := heldProxy?_spec hp
    cases aspect <;> simp at hi
    exact hi.1 ▸ h.closed.holds_env hr

theorem holds_inspectAs (h : c.memory.Sound) {word : String} {tag : Value} {t : TableId} {n : Nat}
    (hi : (c.inspectAs v word tag).2 = .ok (some (.environment t n))) : c.heap.holds (.table t) := by
  rw [inspectAs] at hi
  split at hi
  · simp at hi
  · exact holds_inspect h (Except.ok.inj hi)

/-- A bridge gives out registrations in ascending order. -/
theorem Sound.nextGeneration_le (h : c.Sound) (hs : c'.bridge.serial = c.bridge.serial)
    (hg : c.outside.Grows c'.outside) : c.mailbox.nextGeneration ≤ c'.mailbox.nextGeneration := by
  obtain ⟨m, hm⟩ := h.mailbox
  obtain ⟨m', hm', hle⟩ := hg.issued _ m hm
  rw [Machine.mailbox, Machine.mailbox, hs, Outside.mailbox_eq hm, Outside.mailbox_eq hm']
  exact hle

theorem Sound.grows (h : c.Sound) {o : Outside} (hg : c.outside.Grows o) : Sound ⟨c.bridge, o⟩ where
  memory := h.memory
  mailbox := by
    obtain ⟨m, hm⟩ := h.mailbox
    obtain ⟨m', hm', -⟩ := hg.issued _ m hm
    exact ⟨m', hm'⟩

theorem Sound.recalls (h : c.Sound) (hc : c.Recalls c') : c'.Sound :=
  h.of_alike hc.alike (hc.memory ▸ h.memory)

theorem respond_spec (h : c.Sound) (d : Descriptor) (r : ProxyState) (member : String)
    {new : Option Value} (hn : ∀ w ∈ new, c.heap.Knows w) :
    c.Quiet (c.respond d r member new).1 ∧ (c.respond d r member new).1.Sound ∧
      (c.respond d r member new).1.heap.Knows (c.respond d r member new).2 := by
  unfold respond
  split
  · cases new with
    | none => exact ⟨.refl c, h, h.memory.closed.knows_get _ _⟩
    | some w =>
      exact ⟨quiet_set c _ _ w, h.set _ _ (hn w rfl), Heap.knows_of_node?_eq_none rfl⟩
  · exact ⟨.refl c, h, Heap.knows_of_node?_eq_none rfl⟩

theorem useMember_spec (h : c.Sound) (v : Value) (member : String) {new : Option Value}
    (hn : ∀ w ∈ new, c.heap.Knows w) :
    c.Quiet (c.useMember v member new).1 ∧ (c.useMember v member new).1.Sound ∧
      ∀ w, (c.useMember v member new).2 = .ok w → (c.useMember v member new).1.heap.Knows w := by
  rw [useMember]
  cases hp : c.heap.heldProxy? v with
  | none =>
    have hr : c.Recalls (c.refuse (α := Value) v 1 none).1 := recalls_refuse c v 1 none
    exact ⟨hr.quiet, h.recalls hr, by simp [refuse]⟩
  | some found =>
    obtain ⟨p, r⟩ := found
    have hl := recalls_locate c (c.host.typeOf r.object)
    dsimp only
    cases hf : (c.locate (c.host.typeOf r.object)).2 with
    | none =>
      have hr := hl.trans (recalls_refuse (α := Value) (c.locate (c.host.typeOf r.object)).1 v 1
        (some (c.host.typeOf r.object)))
      exact ⟨hr.quiet, h.recalls hr, by simp [refuse]⟩
    | some f =>
      obtain ⟨hq, hs, hv⟩ := respond_spec (h.recalls hl) f.descriptor r member
        fun w hw => (hn w hw).mono hl.quiet.sub
      refine ⟨hl.quiet.trans hq, hs, fun w hw => ?_⟩
      cases hw
      exact hv

end Machine

namespace Scope

variable {s s' : Scope} {v : Value} {k : Scope → Value → Scope × Answer}

/-- An answer given quietly, with nodes that the heap holds. -/
structure Answers (s : Scope) (r : Scope × Answer) : Prop extends Quiet s r.1 where
  nodes : ∀ n ∈ r.2.nodes, r.1.heap.holds n

theorem Answers.of_quiet {r : Scope × Answer} (hq : s.Quiet s') (hr : s'.Answers r) :
    s.Answers r :=
  ⟨hq.trans hr.toQuiet, hr.nodes⟩

/-- What every action does to a scope, and with what it answers. -/
structure Steps (s : Scope) (r : Scope × Answer) : Prop where
  serial : r.1.machine.bridge.serial = s.machine.bridge.serial
  grows : s.machine.outside.Grows r.1.machine.outside
  sound : r.1.Sound
  sub : s.machine.heap.Sub r.1.machine.heap
  nodes : ∀ n ∈ r.2.nodes, r.1.machine.heap.holds n

theorem Answers.steps {r : Scope × Answer} (h : s.Answers r) : s.Steps r :=
  ⟨h.machine.serial, h.machine.alike.outside.grows, h.sound, h.machine.sub, h.nodes⟩

theorem steps_into (h : s.Sound) {c : Machine} (hk : s.machine.Alike c) (hc : c.Sound)
    (hs : s.machine.heap.Sub c.heap) {x : Answer} (hx : x.nodes = []) : s.Steps (s.into c, x) :=
  ⟨hk.serial, hk.outside.grows, h.into hc hs, hs, by simp [hx]⟩

theorem Steps.of_quiet {r : Scope × Answer} (hq : s.Quiet s') (hr : s'.Steps r) : s.Steps r where
  serial := hr.serial.trans hq.machine.serial
  grows := hq.machine.outside ▸ hr.grows
  sound := hr.sound
  sub := hq.machine.sub.trans hr.sub
  nodes := hr.nodes

/-- An answer without nodes. -/
theorem answers_plain (h : s.Sound) {x : Answer} (hx : x.nodes = []) : s.Answers (s, x) :=
  ⟨.refl h, by simp [hx]⟩

theorem quiet_into {c : Machine} (h : s.Sound) (hc : s.machine.Recalls c) : s.Quiet (s.into c) :=
  ⟨hc.quiet, h.into (h.machine.recalls hc) hc.quiet.sub⟩

theorem answers_into {c : Machine} (h : s.Sound) (hc : s.machine.Recalls c) {x : Answer}
    (hx : x.nodes = []) : s.Answers (s.into c, x) :=
  ⟨quiet_into h hc, by simp [hx]⟩

theorem holds_of_view {h : Heap} (hv : h.Knows v) {n : Node} (hn : n ∈ (h.view v).node?) :
    h.holds n := by
  cases v with
  | table t => exact hv n hn
  | proxy p =>
    cases hp : h.proxy? p with
    | none => simp [Heap.view, hp, View.node?] at hn
    | some r =>
      simp only [Heap.view, hp, Option.elim_some, View.node?, Option.mem_def, Option.some.injEq] at hn
      exact hn ▸ Heap.holds_proxy_iff.2 ⟨r, hp⟩
  | _ => simp [Heap.view, View.node?] at hn

theorem heap_keep (s : Scope) (name : Option String) (v : Value) :
    (s.keep name v).heap = s.heap := by
  cases name <;> rfl

theorem answers_ok (h : s.Sound) (name : Option String) (hv : s.heap.Knows v) :
    s.Answers (s.answer name (.ok v)) := by
  refine ⟨quiet_keep h name hv, fun n hn => ?_⟩
  rw [answer, heap_keep]
  exact holds_of_view hv (Option.mem_toList.1 hn)

theorem answers_answer (h : s.Sound) (name : Option String) {r : Except Failure Value}
    (hr : ∀ v, r = .ok v → s.heap.Knows v) : s.Answers (s.answer name r) := by
  cases r with
  | error e => exact answers_plain h rfl
  | ok v => exact answers_ok h name (hr v rfl)

theorem answers_eval (h : s.Sound) (e : Expr)
    (hk : ∀ s' v, s.Quiet s' → s'.heap.Knows v → s'.Answers (k s' v)) :
    s.Answers (s.eval e k) := by
  rcases eval_cases h e k with ⟨r, he⟩ | ⟨s', v, hq, hv, he⟩
  · rw [he]
    exact answers_plain h rfl
  · rw [he]
    exact .of_quiet hq (hk s' v hq hv)

theorem answers_evalOption (h : s.Sound) (e : Option Expr) {k : Scope → Option Value → Scope × Answer}
    (hk : ∀ s' v, s.Quiet s' → (∀ w ∈ v, s'.heap.Knows w) → s'.Answers (k s' v)) :
    s.Answers (s.evalOption e k) := by
  cases e with
  | none => exact hk s none (.refl h) (by simp)
  | some e => exact answers_eval h e fun s' v hq hv => hk s' (some v) hq (by simpa using hv)

theorem answers_evalTable (h : s.Sound) (e : Expr) {k : Scope → TableId → Scope × Answer}
    (hk : ∀ s' t, s.Quiet s' → s'.Answers (k s' t)) : s.Answers (s.evalTable e k) := by
  refine answers_eval h e fun s' v hq _ => ?_
  cases ht : s'.table? v with
  | none => exact answers_plain hq.sound rfl
  | some t => exact hk s' t hq

theorem answers_finding (h : s.Sound) (name : Option String)
    {r : Except Failure (Option Finding)}
    (hr : ∀ t n, r = .ok (some (.environment t n)) → s.heap.holds (.table t)) :
    s.Answers (s.answerFinding name r) := by
  cases r with
  | error e => exact answers_plain h rfl
  | ok i =>
    cases i with
    | none => exact answers_plain h rfl
    | some f =>
      cases f with
      | environment t n =>
        have ht := hr t n rfl
        refine ⟨quiet_keep h name (Heap.knows_table_iff.2 ht), fun m hm => ?_⟩
        rw [answerFinding, keepFound, heap_keep]
        cases List.mem_singleton.1 hm
        exact ht
      | _ => exact answers_plain h rfl

end Scope

theorem CatalogStep.nodes_run (c : Machine) (q : CatalogStep) : (q.run c).2.nodes = [] := by
  cases q <;> rfl

namespace Action

variable {s : Scope}

theorem settle_wrap_of_dead {b : Address} (hb : s.machine.host.isAlive b = false)
    (handedOver : Bool) (name : Option String) (l : Ledger) :
    (wrap (some b) handedOver name).settle s l = l := by
  cases handedOver with
  | false => rfl
  | true => rw [settle, if_neg (by simp [hb])]

/-- An action answers quietly, or is one of those that do more. -/
theorem run_cases (h : s.Sound) (a : Action) :
    (s.Answers (a.run s) ∧ ∀ l, a.settle s l = l) ∨ (∃ n, a = .notify n) ∨ a = .catchUp ∨
      (∃ b handedOver name, a = .wrap (some b) handedOver name ∧ s.machine.host.isAlive b ∧
        a.run s = s.afterValue name (s.machine.toValue (some b) handedOver)) ∨
      (∃ e s' v, a = .dismiss e ∧ s.Quiet s' ∧
        a.run s = (s'.into (s'.machine.dismiss v).1, .flag (s'.machine.dismiss v).2)) ∨
      ∃ t, a = .host t := by
  cases a with
  | wrap b handedOver name =>
    cases b with
    | none => exact .inl ⟨Scope.answers_ok h name (Heap.knows_of_node?_eq_none rfl), fun _ => rfl⟩
    | some b =>
      rw [run]
      split_ifs with hi ha
      · have ha : s.machine.host.isAlive b = false := by
          by_contra ha
          simp [Host.contains_of_isAlive (by simpa using ha)] at hi
        exact .inl ⟨Scope.answers_plain h rfl, fun l => settle_wrap_of_dead ha handedOver name l⟩
      · refine .inl ⟨Scope.answers_plain h rfl, fun l => ?_⟩
        exact settle_wrap_of_dead (by simpa using ha) handedOver name l
      · exact .inr (.inr (.inr (.inl ⟨b, handedOver, name, rfl, by simpa using ha, rfl⟩)))
  | dismiss e =>
    rcases Scope.eval_cases h e fun s v => s.after (s.machine.dismiss v) .flag with
      ⟨r, he⟩ | ⟨s', v, hq, -, he⟩
    · refine .inl ⟨?_, fun _ => rfl⟩
      rw [run, he]
      exact Scope.answers_plain h rfl
    · exact .inr (.inr (.inr (.inr (.inl ⟨e, s', v, rfl, hq, he⟩))))
  | notify n => exact .inr (.inl ⟨n, rfl⟩)
  | catchUp => exact .inr (.inr (.inl rfl))
  | host t => exact .inr (.inr (.inr (.inr (.inr ⟨t, rfl⟩))))
  | keep e name =>
    refine .inl ⟨?_, fun _ => rfl⟩
    rw [run]
    exact Scope.answers_eval h e fun s' v hq hv => Scope.answers_ok hq.sound name hv
  | toNative need e position =>
    refine .inl ⟨?_, fun _ => rfl⟩
    rw [run]
    refine Scope.answers_eval h e fun s' v hq _ => ?_
    refine Scope.answers_into hq.sound (Machine.recalls_toNative _ v position need) ?_
    cases (s'.machine.toNative v position need).2 <;> rfl
  | describe e =>
    refine .inl ⟨?_, fun _ => rfl⟩
    rw [run]
    refine Scope.answers_eval h e fun s' v hq _ => ?_
    exact Scope.answers_into hq.sound (Machine.recalls_describe _ v) rfl
  | typeName e =>
    refine .inl ⟨?_, fun _ => rfl⟩
    rw [run]
    exact Scope.answers_eval h e fun s' v hq _ => Scope.answers_plain hq.sound rfl
  | isNil e =>
    refine .inl ⟨?_, fun _ => rfl⟩
    rw [run]
    exact Scope.answers_eval h e fun s' v hq _ => Scope.answers_plain hq.sound rfl
  | readType e =>
    refine .inl ⟨?_, fun _ => rfl⟩
    rw [run]
    exact Scope.answers_eval h e fun s' v hq _ => Scope.answers_plain hq.sound rfl
  | debug e =>
    refine .inl ⟨?_, fun _ => rfl⟩
    rw [run]
    refine Scope.answers_eval h e fun s' v hq hv => ⟨.refl hq.sound, fun n hn => ?_⟩
    exact Scope.holds_of_view hv (Option.mem_toList.1 hn)
  | useMember e new member name =>
    refine .inl ⟨?_, fun _ => rfl⟩
    rw [run]
    refine Scope.answers_eval h e fun s₁ v hq₁ _ => ?_
    refine Scope.answers_evalOption hq₁.sound new fun s₂ new hq₂ hn => ?_
    obtain ⟨hq, hs, hv⟩ := Machine.useMember_spec hq₂.sound.machine v member hn
    have hq₃ : s₂.Quiet (s₂.into (s₂.machine.useMember v member new).1) :=
      ⟨hq, hq₂.sound.into hs hq.sub⟩
    exact .of_quiet hq₃ (Scope.answers_answer hq₃.sound name hv)
  | useField e new raw name =>
    refine .inl ⟨?_, fun _ => rfl⟩
    rw [run]
    refine Scope.answers_eval h e fun s₁ v hq₁ _ => ?_
    refine Scope.answers_evalOption hq₁.sound new fun s₂ new hq₂ hn => ?_
    have hr := Machine.recalls_useField s₂.machine v raw new
    have hq₃ := Scope.quiet_into hq₂.sound hr
    refine .of_quiet hq₃ (Scope.answers_answer hq₃.sound name fun w hw => ?_)
    exact (Machine.knows_useField hn hw).mono hr.quiet.sub
  | inspect aspect e t name =>
    refine .inl ⟨?_, fun _ => rfl⟩
    rw [run]
    refine Scope.answers_eval h e fun s' v hq _ => ?_
    have hr := Machine.recalls_inspect s'.machine v aspect t
    have hq' := Scope.quiet_into hq.sound hr
    refine .of_quiet hq' (Scope.answers_finding hq'.sound name fun t n ht => ?_)
    exact hr.quiet.sub _ (Machine.holds_inspect hq.sound.machine.memory (Except.ok.inj ht))
  | inspectAs e t word name =>
    refine .inl ⟨?_, fun _ => rfl⟩
    rw [run]
    refine Scope.answers_eval h e fun s₁ v hq₁ _ => ?_
    refine Scope.answers_eval hq₁.sound t fun s₂ t hq₂ _ => ?_
    have hr := Machine.recalls_inspectAs s₂.machine v word t
    have hq₃ := Scope.quiet_into hq₂.sound hr
    refine .of_quiet hq₃ (Scope.answers_finding hq₃.sound name fun t n ht => ?_)
    exact hr.quiet.sub _ (Machine.holds_inspectAs hq₂.sound.machine.memory ht)
  | find b name =>
    refine .inl ⟨?_, fun _ => rfl⟩
    rw [run]
    cases hp : s.machine.proxyOf? b with
    | none => exact Scope.answers_plain h rfl
    | some p =>
      refine Scope.answers_ok h name (Heap.knows_proxy_iff.2 ?_)
      exact (h.machine.memory.proxyOf?_eq_some_iff.1 hp).holds
  | cached b => exact .inl ⟨Scope.answers_plain h rfl, fun _ => rfl⟩
  | cacheSizes => exact .inl ⟨Scope.answers_plain h rfl, fun _ => rfl⟩
  | stash e name =>
    refine .inl ⟨?_, fun _ => rfl⟩
    rw [run]
    refine Scope.answers_eval h e fun s' v hq hv => ?_
    cases hp : v.proxy? with
    | none => exact Scope.answers_plain hq.sound rfl
    | some p =>
      have hv' : v = .proxy p := by cases v <;> simp_all [Value.proxy?]
      have hr := hq.sound.machine.memory.root name (Heap.knows_proxy_iff.1 (hv' ▸ hv))
      have hq' : s'.machine.Quiet (s'.machine.setMemory (s'.machine.memory.root name p)) :=
        ⟨rfl, rfl, .refl _ _, rfl, rfl, rfl, rfl, rfl, rfl, Nat.le_refl _, .refl _⟩
      have hs := hq.sound.into (hq.sound.machine.of_alike hq'.alike hr) hq'.sub
      exact ⟨⟨hq', hs⟩, by simp [Answer.nodes]⟩
  | same e f =>
    refine .inl ⟨?_, fun _ => rfl⟩
    rw [run]
    refine Scope.answers_eval h e fun s₁ v hq₁ _ => ?_
    refine Scope.answers_eval hq₁.sound f fun s₂ w hq₂ _ => ?_
    split <;> exact Scope.answers_plain hq₂.sound rfl
  | get e key name =>
    refine .inl ⟨?_, fun _ => rfl⟩
    rw [run]
    refine Scope.answers_evalTable h e fun s' t hq => ?_
    exact Scope.answers_ok hq.sound name (hq.sound.machine.memory.closed.knows_get t key)
  | set e new key =>
    refine .inl ⟨?_, fun _ => rfl⟩
    rw [run]
    refine Scope.answers_evalTable h e fun s₁ t hq₁ => ?_
    refine Scope.answers_eval hq₁.sound new fun s₂ v hq₂ hv => ?_
    exact ⟨Scope.quiet_setHeap_set hq₂.sound t key hv, by simp [Answer.nodes]⟩
  | extent e =>
    refine .inl ⟨?_, fun _ => rfl⟩
    rw [run]
    exact Scope.answers_evalTable h e fun s' t hq => Scope.answers_plain hq.sound rfl
  | catalog q =>
    refine .inl ⟨?_, fun _ => rfl⟩
    rw [run]
    exact Scope.answers_into h (Machine.recalls_catalogStep _ q) (CatalogStep.nodes_run _ q)

/-- Every action keeps a scope sound, and answers with nodes that the heap holds. -/
theorem run_spec (h : s.Sound) (a : Action) : s.Steps (a.run s) := by
  have hm := h.machine
  rcases run_cases h a with ⟨ha, -⟩ | ⟨n, rfl⟩ | rfl | ⟨b, handedOver, name, rfl, -, he⟩ |
    ⟨e, s', v, rfl, hq, he⟩ | ⟨t, rfl⟩
  · exact ha.steps
  · have ht := s.machine.toggles_applyNotification n
    exact Scope.steps_into h ht.alike (hm.applyNotification n) (ht.heap ▸ .refl _) rfl
  · have ht := s.machine.toggles_catchUp
    have hs : s.machine.heap.Sub s.machine.catchUp.heap := fun n hn => ht.heap ▸ hn
    exact Scope.steps_into h (Machine.alike_catchUp hm) hm.catchUp hs rfl
  · have hk := Machine.alike_wrap hm b handedOver
    obtain ⟨-, hs, p, hp, hl⟩ := Machine.wrap_spec hm.memory b handedOver
    have hi : (s.into (s.machine.wrap b handedOver).1).Sound := h.into (hm.wrap b handedOver) hs
    have ha := Scope.answers_ok (v := .proxy p) hi name (Heap.knows_proxy_iff.2 hl.holds)
    have hr : run s (.wrap (some b) handedOver name) =
        (s.into (s.machine.wrap b handedOver).1).answer name (.ok (.proxy p)) := by
      rw [he, Scope.afterValue, Machine.toValue]
      dsimp only
      rw [hp]
      rfl
    rw [hr]
    have hst := ha.steps
    exact ⟨hst.serial.trans hk.serial, hk.outside.grows.trans hst.grows, hst.sound, hs.trans hst.sub,
      hst.nodes⟩
  · have hm' := hq.sound.machine
    rw [he]
    exact .of_quiet hq (Scope.steps_into hq.sound (Machine.alike_dismiss hm' v) (hm'.dismiss v)
      (Machine.dismiss_spec hm'.memory v).2 rfl)
  · have hg := HostStep.grows_run s.machine.outside t
    refine ⟨rfl, hg, h.into (hm.grows hg) (.refl _), .refl _, fun n hn => ?_⟩
    rw [run, HostStep.nodes_run] at hn
    simp at hn

/-! ## Deeds of a script -/

/-- What keeps the account of an object in order: the script gives up owned references only, it wraps
the object only if its references can be taken and given back, and in a fair deed it does not lie to
the bridge about the object. -/
structure Heeds (fair : Bool) (tied : Host → Address → Nat) (s : Scope) (l : Ledger) (b : Address)
    (a : Action) : Prop where
  affords : a.Affords tied s l
  serves : ∀ handedOver name, a = .wrap (some b) handedOver name → s.machine.host.isAlive b →
    s.machine.Serves (s.machine.host.typeOf b) ∧
      (fair → s.machine.types.isObject (s.machine.host.typeOf b))
  genuine : ∀ n, a = .notify n → fair → n.object = b →
    s.machine.cache.generation b = some n.generation →
      n.isLast = decide (s.machine.host.refs b < 2)

theorem machine_afterValue (s : Scope) (name : Option String)
    (r : Machine × Except Failure Value) : (s.afterValue name r).1.machine = r.1 := by
  obtain ⟨c, v⟩ := r
  cases v with
  | error e => rfl
  | ok v => cases name <;> rfl

/-- An action is a row of deeds for the account of every object that it heeds. -/
theorem deeds_run {fair : Bool} {tied : Host → Address → Nat} {l : Ledger} {b : Address}
    {hs : List Holding} (h : s.Sound) (hfresh : s.machine.outside.Fresh) (a : Action)
    (hne : s.machine.bridge.serial ∉ hs.map Holding.serial)
    (hx : (s.machine.account b (l b) hs).Kept fair) (hr : s.machine.Returns fair b)
    (ha : a.Heeds fair tied s l b)
    (ht : fair → (s.machine.account b (l b) hs).recorded ≤ tied s.machine.host b) :
    Deeds fair (s.machine.account b (l b) hs)
      ((a.run s).1.machine.account b (a.settle s l b) hs) := by
  have hm := h.machine
  rcases run_cases h a with ⟨hq, hl⟩ | ⟨n, rfl⟩ | rfl | ⟨b', handedOver, name, rfl, hb', he⟩ |
    ⟨e, s', v, rfl, hq, he⟩ | ⟨t, rfl⟩
  · rw [hl, hq.machine.account]
  · exact Machine.deeds_applyNotification hm n b (l b) hne fun hf => ha.genuine n rfl hf
  · exact Machine.deeds_catchUp hm b (l b) hne
  · have hmach : (run s (.wrap (some b') handedOver name)).1.machine =
        (s.machine.wrap b' handedOver).1 := by
      rw [he, machine_afterValue]
      rfl
    rw [hmach]
    by_cases hb : b = b'
    · subst hb
      obtain ⟨hc, hobj⟩ := ha.serves handedOver name rfl hb'
      cases handedOver with
      | false =>
        refine Machine.deeds_wrap hm hfresh hne hb' hc hobj (Nat.zero_le _) (fun hf => ?_) (by simp)
        exact (hx.tracked hf).recorded_le
      | true =>
        obtain ⟨hfl, hl⟩ := ha.affords hb'
        rw [settle, if_pos hb', Ledger.debit_self]
        refine Machine.deeds_wrap hm hfresh hne hb' hc hobj (Nat.le_of_add_left_le hl) (fun hf => ?_)
          fun _ _ => hfl
        exact (Nat.add_le_add_right (ht hf) 1).trans hl
    · have hl : settle s l (.wrap (some b') handedOver name) b = l b := by
        cases handedOver with
        | false => rfl
        | true => rw [settle, if_pos hb', Ledger.debit_of_ne hb]
      rw [hl, Machine.account_wrap_of_ne hm hb]
  · have hm' := hq.sound.machine
    have hr := hq.machine.alike.returns (hq.machine.weak b) hr
    rw [he, ← hq.machine.account]
    exact Machine.deeds_dismiss hm' v b (l b) (hq.machine.serial ▸ hne) hr
  · exact HostStep.deeds_run t hx ha.affords ht

end Action

end NativeProxies
