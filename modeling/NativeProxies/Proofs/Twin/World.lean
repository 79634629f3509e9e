import NativeProxies.Proofs.Twin.Script
import NativeProxies.Proofs.World

/-!
# Twin worlds

Two runs side by side.  In the second one bridges may be opened with another strictness, and notifications
may wait that the bridges of the first one ignore.  Every move makes twins of twins, and has the same
reply in both (`World.Twins.next`, `World.Twins.reply`).
-/

namespace NativeProxies

/-! ## Strictness of what is opened -/

/-- The step, but with the strictness asked for if it opens a bridge. -/
def Step.asStrict (strict : Option Bool) : Step → Step
  | .open name settings responder ancestorsOnly =>
    .open name (settings.asStrict strict) responder ancestorsOnly
  | t => t

/-- The move, but with the strictness asked for if it opens a bridge. -/
def Move.asStrict (strict : Option Bool) : Move → Move
  | .step t => .step (t.asStrict strict)
  | m => m

theorem Step.asStrict_none (t : Step) : t.asStrict none = t := by cases t <;> rfl

theorem Move.asStrict_none (m : Move) : m.asStrict none = m := by
  cases m with
  | step t => exact congrArg Move.step t.asStrict_none
  | _ => rfl

theorem Step.isVisit_asStrict (strict : Option Bool) (t : Step) :
    (t.asStrict strict).isVisit = t.isVisit := by
  cases t <;> rfl

theorem Step.bridge?_asStrict (strict : Option Bool) (t : Step) :
    (t.asStrict strict).bridge? = t.bridge? := by
  cases t <;> rfl

/-! ## Sessions -/

/-- Twin bridges by the same names, with twins outside. -/
structure Session.Twins (P : Nat → Notification → Bool) (strict : Option Bool) (s s' : Session) :
    Prop where
  nextSerial : s'.nextSerial = s.nextSerial
  outside : s.outside.Twins P s'.outside
  bridges : ∀ name : String, s'.bridges[name]? = s.bridges[name]?.map fun b => b.asStrict strict

/-- The bridges are sound, and ignore what the filter leaves out. -/
def Session.Ready (P : Nat → Notification → Bool) (s : Session) : Prop :=
  ∀ name c, s.machine? name = some c → c.Sound ∧ c.Ignores (P c.bridge.serial)

/-- Twin sessions with the same answer. -/
def Session.Agree {α : Type} (P : Nat → Notification → Bool) (strict : Option Bool)
    (r r' : Session × α) : Prop :=
  r.1.Twins P strict r'.1 ∧ r'.2 = r.2

namespace Session.Twins

variable {P Q : Nat → Notification → Bool} {strict : Option Bool} {s s' : Session} {name : String}

theorem refl (P : Nat → Notification → Bool) (s : Session) : s.Twins P none s :=
  ⟨rfl, .refl P _, fun name => by simp⟩

variable (h : s.Twins P strict s')
include h

theorem mono (hq : ∀ s n, Q s n → P s n) : s.Twins Q strict s' :=
  ⟨h.nextSerial, h.outside.mono hq, h.bridges⟩

theorem agree {α : Type} (x : α) : Agree P strict (s, x) (s', x) := ⟨h, rfl⟩

theorem contains (name : String) : s'.bridges.contains name = s.bridges.contains name := by
  rw [Std.ExtTreeMap.contains_eq_isSome_getElem?, h.bridges, Option.isSome_map,
    Std.ExtTreeMap.contains_eq_isSome_getElem?]

theorem machine?_eq_none (hc : s.machine? name = none) : s'.machine? name = none := by
  rw [machine?, Option.map_eq_none_iff] at hc ⊢
  rw [h.bridges, hc, Option.map_none]

theorem machine?_eq_some {c : Machine} (hc : s.machine? name = some c) :
    ∃ c', s'.machine? name = some c' ∧ c.Twins P strict c' := by
  obtain ⟨b, hb, rfl⟩ := Option.map_eq_some_iff.1 hc
  refine ⟨⟨b.asStrict strict, s'.outside⟩, ?_, s'.outside, h.outside, rfl⟩
  rw [machine?, h.bridges, hb]
  rfl

theorem put {c c' : Machine} (hc : c.Twins P strict c') (name : String) :
    (s.put name c).Twins P strict (s'.put name c') where
  nextSerial := h.nextSerial
  outside := hc.outside
  bridges n := by
    have hn := h.bridges n
    have hb := hc.bridge
    by_cases hname : name = n
    · subst hname
      simp [Session.put, hb]
    · simp only [Session.put]
      grind

theorem setOutside {o o' : Outside} (ho : o.Twins P o') :
    Twins P strict { s with outside := o } { s' with outside := o' } :=
  ⟨h.nextSerial, ho, h.bridges⟩

theorem withMachine (name : String) {k : Machine → Machine × Answer}
    (hk : ∀ c c', s.machine? name = some c → c.Twins P strict c' →
      (k c).1.Twins P strict (k c').1 ∧ (k c').2 = (k c).2) :
    Agree P strict (s.withMachine name k) (s'.withMachine name k) := by
  rw [Session.withMachine, Session.withMachine]
  cases hc : s.machine? name with
  | none =>
    rw [h.machine?_eq_none hc]
    exact h.agree _
  | some c =>
    obtain ⟨c', hc', ht⟩ := h.machine?_eq_some hc
    rw [hc']
    obtain ⟨hr, he⟩ := hk c c' hc ht
    exact ⟨h.put hr name, he⟩

theorem openBridge (name : String) (settings : Settings) (responder : Responder)
    (ancestorsOnly : Bool) :
    Agree P strict (s.openBridge name settings responder ancestorsOnly)
      (s'.openBridge name (settings.asStrict strict) responder ancestorsOnly) := by
  rw [Session.openBridge, Session.openBridge, h.contains, h.nextSerial]
  split_ifs
  · exact h.agree _
  · refine ⟨⟨rfl, h.outside.setMailbox (.refl _ _), fun n => ?_⟩, rfl⟩
    have hn := h.bridges n
    by_cases hname : name = n
    · subst hname
      simp [Bridge.asStrict]
    · dsimp only
      grind

theorem closeBridge (hr : s.Ready P) (name : String) :
    Agree P strict (s.closeBridge name) (s'.closeBridge name) := by
  rw [Session.closeBridge, Session.closeBridge]
  cases hc : s.machine? name with
  | none =>
    rw [h.machine?_eq_none hc]
    exact h.agree _
  | some c =>
    obtain ⟨c', hc', ht⟩ := h.machine?_eq_some hc
    obtain ⟨hs, hi⟩ := hr name c hc
    rw [hc']
    refine ⟨⟨h.nextSerial, ht.outside_close hs.memory hi, fun n => ?_⟩, rfl⟩
    have hn := h.bridges n
    dsimp only
    grind

omit h in
theorem reply {r r' : Session × Answer} (hr : Agree P strict r r') {n n' : Nat} (hn : n' = n) :
    Agree P strict (Session.reply n r) (Session.reply n' r') := by
  refine ⟨hr.1, ?_⟩
  rw [Session.reply, Session.reply, hr.2, hr.1.outside.callsSince, hn]

/-- A step that is no visit makes twins of twins, and has the same reply. -/
theorem step (hr : s.Ready P) {t : Step} (hv : t.isVisit = false) :
    Agree P strict (s.step t) (s'.step (t.asStrict strict)) := by
  have hj : s'.outside.journal.size = s.outside.journal.size := by rw [h.outside.journal]
  cases t with
  | enter name actions => cases hv
  | «open» name settings responder ancestorsOnly =>
    exact reply (h.openBridge name settings responder ancestorsOnly) hj
  | catchUp name =>
    have hk := h.withMachine name (k := fun c => (c.catchUp, .done)) fun c c' hc ht =>
      ⟨ht.catchUp (hr name c hc).2, rfl⟩
    exact reply hk hj
  | collect name =>
    have hk := h.withMachine name (k := fun c => (c.collect, .done)) fun c c' hc ht =>
      ⟨ht.collect (hr name c hc).2, rfl⟩
    exact reply hk hj
  | close name => exact reply (h.closeBridge hr name) hj
  | unstash name stash =>
    have hk := h.withMachine name
      (k := fun c => (c.setMemory (c.memory.unroot stash).1, .flag (c.memory.unroot stash).2))
      fun c c' _ ht => by
        rw [ht.memory]
        exact ⟨ht.setMemory _, rfl⟩
    exact reply hk hj
  | register name d =>
    have hk := h.withMachine name (k := fun c => (c.register d, .descriptor (some d)))
      fun c c' _ ht => ⟨ht.register d, rfl⟩
    exact reply hk hj
  | catalog name q => exact reply (h.withMachine name fun c c' _ ht => ht.catalogStep q) hj
  | host t =>
    obtain ⟨ho, he⟩ := h.outside.run t
    have ht : Agree P strict ({ s with outside := (t.run s.outside).1 }, (t.run s.outside).2)
        ({ s' with outside := (t.run s'.outside).1 }, (t.run s'.outside).2) := ⟨h.setOutside ho, he⟩
    exact reply ht hj

end Session.Twins

/-! ## Books -/

/-- Only the host matters for the books. -/
theorem HostStep.settle_congr {o o' : Outside} (ho : o'.host = o.host) (l : Ledger) (t : HostStep) :
    t.settle o' l = t.settle o l := by
  cases t <;> simp only [settle, ho]

theorem Action.settle_congr {s s' : Scope} (hs : s'.machine.outside.host = s.machine.outside.host)
    (l : Ledger) (a : Action) : a.settle s' l = a.settle s l := by
  cases a with
  | wrap b handedOver name =>
    cases b with
    | none => rfl
    | some b =>
      cases handedOver with
      | false => rfl
      | true => rw [settle, settle, Machine.host, hs, Machine.host]
  | host t => exact HostStep.settle_congr hs l t
  | _ => rfl

/-! ## Worlds -/

namespace World

/-- What a move answers, if it answers anything. -/
def outcome? (w : World) : Move → Option Outcome
  | .act name a => (w.scope? name).map fun s => .single (a.run s).2
  | .step t => if w.isFree t then some (w.session.step t).2.outcome else none
  | _ => none

/-- What a move answers, and the calls that bridges make in it. -/
def reply (w : World) (m : Move) : Option Outcome × List Call :=
  (w.outcome? m, (w.next m).session.outside.callsSince w.session.outside.journal.size)

/-- Twin sessions with the same visits and the same books. -/
structure Twins (P : Nat → Notification → Bool) (strict : Option Bool) (w w' : World) : Prop where
  session : w.session.Twins P strict w'.session
  visits : w'.visits = w.visits
  owned : w'.owned = w.owned

namespace Twins

variable {P : Nat → Notification → Bool} {strict : Option Bool} {w w' : World} {name : String}

theorem refl (P : Nat → Notification → Bool) (w : World) : w.Twins P none w :=
  ⟨.refl P _, rfl, rfl⟩

variable (h : w.Twins P strict w')
include h

theorem scope?_eq_none (hs : w.scope? name = none) : w'.scope? name = none :=
  scope?_eq_none_of h.visits h.session.machine?_eq_none hs

theorem scope?_eq_some {s : Scope} (hs : w.scope? name = some s) :
    ∃ s', w'.scope? name = some s' ∧ s.Twins P strict s' := by
  simp only [scope?, Option.bind_eq_some_iff, Option.map_eq_some_iff] at hs
  obtain ⟨v, hv, c, hc, rfl⟩ := hs
  obtain ⟨c', hc', ht⟩ := h.session.machine?_eq_some hc
  refine ⟨⟨c', v.vars⟩, ?_, ht, rfl⟩
  rw [scope?, h.visits, hv, hc']
  rfl

theorem isFree (t : Step) : w'.isFree (t.asStrict strict) = w.isFree t := by
  rw [World.isFree, World.isFree, h.visits, t.isVisit_asStrict, t.bridge?_asStrict]

/-- Every move makes twins of twins, and has the same answer. -/
theorem next (hw : w.Sound) (hr : w.session.Ready P) (m : Move) :
    (w.next m).Twins P strict (w'.next (m.asStrict strict)) ∧
      w'.outcome? (m.asStrict strict) = w.outcome? m := by
  cases m with
  | enter name =>
    refine ⟨?_, rfl⟩
    simp only [Move.asStrict]
    rw [World.next, World.next, h.visits]
    split_ifs
    · exact h
    · rw [Session.beginVisit, Session.beginVisit]
      cases hc : w.session.machine? name with
      | none =>
        rw [h.session.machine?_eq_none hc]
        exact h
      | some c =>
        obtain ⟨c', hc', ht⟩ := h.session.machine?_eq_some hc
        rw [hc']
        exact ⟨h.session.put (ht.catchUp (hr name c hc).2) name, rfl, h.owned⟩
  | act name a =>
    simp only [Move.asStrict]
    cases hs : w.scope? name with
    | none =>
      have hs' := h.scope?_eq_none hs
      rw [World.next, World.next, outcome?, outcome?, hs, hs']
      exact ⟨h, rfl⟩
    | some s =>
      obtain ⟨s', hs', ht⟩ := h.scope?_eq_some hs
      obtain ⟨hm, he⟩ := Action.twins_run (hw.scope hs) ht (hr name _ (machine?_of_scope? hs)).2 a
      rw [next_act hs, next_act hs', outcome?, outcome?, hs, hs', h.visits, h.owned,
        Action.settle_congr ht.machine.host, he, hm.vars]
      exact ⟨⟨h.session.put hm.machine name, rfl, rfl⟩, by rw [Option.map_some, Option.map_some, he]⟩
  | leave name =>
    refine ⟨?_, rfl⟩
    simp only [Move.asStrict]
    cases hs : w.scope? name with
    | none =>
      have hs' := h.scope?_eq_none hs
      rw [World.next, World.next, hs, hs']
      exact h
    | some s =>
      obtain ⟨s', hs', ht⟩ := h.scope?_eq_some hs
      rw [next_leave hs, next_leave hs', h.visits]
      exact ⟨h.session.put (ht.machine.leave (hr name _ (machine?_of_scope? hs)).2) name, rfl, h.owned⟩
  | step t =>
    rw [Move.asStrict, outcome?, outcome?, h.isFree]
    cases hf : w.isFree t with
    | false =>
      rw [next_of_not_isFree hf, next_of_not_isFree ((h.isFree t).trans hf)]
      exact ⟨h, rfl⟩
    | true =>
      obtain ⟨hs, he⟩ := h.session.step hr (isFree_iff.1 hf).1
      rw [next_of_isFree hf, next_of_isFree ((h.isFree t).trans hf), he]
      refine ⟨⟨hs, h.visits, ?_⟩, rfl⟩
      cases t with
      | host t =>
        rw [h.owned]
        exact HostStep.settle_congr h.session.outside.host _ t
      | _ => exact h.owned
  | reuse a t floating =>
    refine ⟨?_, rfl⟩
    simp only [Move.asStrict]
    rw [World.next, World.next, h.session.outside.host, h.owned]
    split_ifs
    · exact h
    · exact ⟨h.session.setOutside (h.session.outside.setHost _), h.visits, rfl⟩

/-- Every move has the same reply. -/
theorem reply (hw : w.Sound) (hr : w.session.Ready P) (m : Move) :
    w'.reply (m.asStrict strict) = w.reply m := by
  obtain ⟨hn, he⟩ := h.next hw hr m
  rw [World.reply, World.reply, he, hn.session.outside.callsSince, h.session.outside.journal]

end Twins

end World

end NativeProxies
