import Mathlib.Logic.Function.Basic
import NativeProxies.Proofs.Host.Basic
import NativeProxies.Script.Session

/-!
# Runs

What happens to a host and its bridges in the course of time.  Scripts enter bridges, act there and
leave, bridges are opened, collected and closed, and the code around them works on the host.  Each
of these is a `Move`, and `World.run` makes one move after the other.  Visits to different bridges
may overlap, and an address may be used again once its instance was freed.  Every script of a
session is such a run (`World.run_moves`).

A world also keeps the books of the code around the bridges: how many references to each object it
owns (`World.owned`).  It gets one with every instance that does not float and with every reference
it takes, and gives one up with every reference it drops or hands over.
-/

namespace NativeProxies

/-! ## Books -/

/-- How many references to each object the code around the bridges owns. -/
abbrev Ledger : Type := Address → Nat

namespace Ledger

/-- Enters `n` more references to an object. -/
def credit (l : Ledger) (a : Address) (n : Nat) : Ledger := Function.update l a (l a + n)

/-- Strikes out `n` references to an object. -/
def debit (l : Ledger) (a : Address) (n : Nat) : Ledger := Function.update l a (l a - n)

/-- Opens the account of a new instance, whose reference is owned unless it floats. -/
def start (l : Ledger) (a : Address) (floating : Bool) : Ledger :=
  Function.update l a (if floating then 0 else 1)

@[simp] theorem credit_self (l : Ledger) (a : Address) (n : Nat) : l.credit a n a = l a + n := by
  simp [credit]

@[simp] theorem debit_self (l : Ledger) (a : Address) (n : Nat) : l.debit a n a = l a - n := by
  simp [debit]

@[simp] theorem start_self (l : Ledger) (a : Address) (floating : Bool) :
    l.start a floating a = if floating then 0 else 1 := by
  simp [start]

section Other

variable {a b : Address} (h : b ≠ a)
include h

@[simp] theorem credit_of_ne (l : Ledger) (n : Nat) : l.credit a n b = l b :=
  Function.update_of_ne h _ _

@[simp] theorem debit_of_ne (l : Ledger) (n : Nat) : l.debit a n b = l b :=
  Function.update_of_ne h _ _

@[simp] theorem start_of_ne (l : Ledger) (floating : Bool) : l.start a floating b = l b :=
  Function.update_of_ne h _ _

end Other

end Ledger

namespace HostStep

/-- The books after a step on the host.  A storm gives back what it takes. -/
def settle (o : Outside) (l : Ledger) : HostStep → Ledger
  | create a _ floating => if o.host.instances.contains a then l else l.start a floating
  | take a n _ => if o.host.isAlive a then l.credit a n else l
  | sink a n _ => if o.host.isAlive a then l.credit a n else l
  | watch a _ => if o.host.isAlive a then l.credit a 1 else l
  | drop a n _ => if o.host.isAlive a then l.debit a n else l
  | unwatch a r => if .recorder r ∈ o.host.watchers a then l.debit a 1 else l
  | _ => l

/-- A step on the host gives up owned references only.  Of the references to an object, `tied` may
not be dropped. -/
def Affords (tied : Host → Address → Nat) (o : Outside) (l : Ledger) : HostStep → Prop
  | drop a n _ => o.host.isAlive a → tied o.host a + n ≤ l a
  | unwatch a r => .recorder r ∈ o.host.watchers a → 1 ≤ l a
  | _ => True

instance (tied : Host → Address → Nat) (o : Outside) (l : Ledger) :
    ∀ h : HostStep, Decidable (h.Affords tied o l)
  | drop a n _ => inferInstanceAs (Decidable (o.host.isAlive a → tied o.host a + n ≤ l a))
  | unwatch a r => inferInstanceAs (Decidable (.recorder r ∈ o.host.watchers a → 1 ≤ l a))
  | addClass .. | addFundamental .. | addInterface .. | addConformance .. | setFunctions ..
  | typeSummary .. | conformance .. | classRecord .. | typeOf .. | create .. | take .. | sink ..
  | nullPointer | storm .. | watch .. | tape .. | instanceSummary .. | totals => isTrue trivial

end HostStep

namespace Action

/-- The books after a step in a bridge. -/
def settle (s : Scope) (l : Ledger) : Action → Ledger
  | wrap (some a) true _ => if s.machine.host.isAlive a then l.debit a 1 else l
  | host h => h.settle s.machine.outside l
  | _ => l

/-- A step in a bridge gives up owned references only, and hands none over to an object that
floats. -/
def Affords (tied : Host → Address → Nat) (s : Scope) (l : Ledger) : Action → Prop
  | wrap (some a) true _ => s.machine.host.isAlive a →
    s.machine.host.floats a = false ∧ tied s.machine.host a + 1 ≤ l a
  | host h => h.Affords tied s.machine.outside l
  | _ => True

instance (tied : Host → Address → Nat) (s : Scope) (l : Ledger) :
    ∀ a : Action, Decidable (a.Affords tied s l)
  | wrap (some a) true _ => inferInstanceAs (Decidable (s.machine.host.isAlive a →
    s.machine.host.floats a = false ∧ tied s.machine.host a + 1 ≤ l a))
  | host h => inferInstanceAs (Decidable (h.Affords tied s.machine.outside l))
  | wrap none .. | wrap (some _) false _ | keep .. | toNative .. | dismiss .. | describe ..
  | typeName .. | isNil .. | useMember .. | useField .. | inspect .. | inspectAs .. | readType ..
  | notify .. | catchUp | find .. | cached .. | cacheSizes | stash .. | same .. | debug .. | get ..
  | set .. | extent .. | catalog .. => isTrue trivial

end Action

/-! ## What scripts are given -/

/-- The table or proxy that a reader sees. -/
def View.node? : View → Option Node
  | .table t _ => some (.table t)
  | .proxy p _ _ => some (.proxy p)
  | _ => none

/-- The tables and proxies in an answer. -/
def Answer.nodes : Answer → List Node
  | .value v => v.node?.toList
  | .debugged v => v.node?.toList
  | .inspected (some (.environment t _)) => [.table t]
  | _ => []

/-- A visit to a bridge. -/
structure Visit where
  vars : Map String Value := ∅
  /-- The tables and proxies in the answers of this visit. -/
  given : List Node := []

/-! ## Moves -/

/-- What may happen next. -/
inductive Move
  /-- A script enters a bridge. -/
  | enter (name : String)
  /-- The script in a bridge carries out an action. -/
  | act (name : String) (a : Action)
  /-- The script leaves a bridge. -/
  | leave (name : String)
  /-- A step of a session that is no visit. -/
  | step (t : Step)
  /-- A new instance is made where another one was freed. -/
  | reuse (a : Address) (t : TypeId) (floating : Bool)

namespace Step

/-- The bridge that a step works on. -/
def bridge? : Step → Option String
  | .open name .. | .enter name _ | .catchUp name | .collect name | .close name | .unstash name _
  | .register name _ | .catalog name _ => some name
  | .host _ => none

def isVisit : Step → Bool
  | .enter .. => true
  | _ => false

/-- The moves that make up a step. -/
def moves : Step → List Move
  | .enter name actions => .enter name :: (actions.map (.act name) ++ [.leave name])
  | t => [.step t]

end Step

/-- A session under way. -/
structure World where
  session : Session := { }
  /-- The visits that go on, by the names of the bridges. -/
  visits : Map String Visit := ∅
  owned : Ledger := fun _ => 0

namespace World

/-- The scope of the visit to a bridge. -/
def scope? (w : World) (name : String) : Option Scope :=
  w.visits[name]?.bind fun v => (w.session.machine? name).map fun c => ⟨c, v.vars⟩

/-- Whether a step is no visit, and is not on a bridge that is being visited. -/
def isFree (w : World) (t : Step) : Bool := !t.isVisit && !t.bridge?.any w.visits.contains

/-- The world after a move; a move that is not possible changes nothing. -/
def next (w : World) : Move → World
  | .enter name =>
    if w.visits.contains name then w
    else (w.session.beginVisit name).elim w fun s =>
      { w with
        session := w.session.put name s.machine
        visits := w.visits.insert name { vars := s.vars } }
  | .act name a => (w.scope? name).elim w fun s =>
    let r := a.run s
    { session := w.session.put name r.1.machine
      visits := w.visits.modify name fun v =>
        { vars := r.1.vars, given := v.given ++ r.2.nodes }
      owned := a.settle s w.owned }
  | .leave name => (w.scope? name).elim w fun s =>
    { w with session := w.session.endVisit name s, visits := w.visits.erase name }
  | .step t =>
    if w.isFree t then
      { w with
        session := (w.session.step t).1
        owned := match t with
          | .host h => h.settle w.session.outside w.owned
          | _ => w.owned }
    else w
  | .reuse a t floating =>
    if w.session.outside.host.isAlive a then w
    else
      { w with
        session := { w.session with
          outside := { w.session.outside with host := w.session.outside.host.create a t floating } }
        owned := w.owned.start a floating }

/-- The world after several moves. -/
def run (w : World) (ms : List Move) : World := ms.foldl next w

/-- What happens in the course of a run, where `f` says what happens in each move. -/
def trace {α : Type} (w : World) (f : World → Move → List α) : List Move → List α
  | [] => []
  | m :: ms => f w m ++ (w.next m).trace f ms

/-- Whether every move of a run is as a rule on worlds and moves demands. -/
def Along (rule : World → Move → Prop) (w : World) : List Move → Prop
  | [] => True
  | m :: ms => rule w m ∧ Along rule (w.next m) ms

instance (rule : World → Move → Prop) [∀ w m, Decidable (rule w m)] :
    ∀ (w : World) (ms : List Move), Decidable (w.Along rule ms)
  | _, [] => isTrue trivial
  | w, m :: ms =>
    have := instDecidableAlong rule (w.next m) ms
    inferInstanceAs (Decidable (rule w m ∧ Along rule (w.next m) ms))

/-- A move gives up only references that the code around the bridges owns.  Of the references to an
object, `tied` may not be dropped or handed over. -/
def Affords (tied : Host → Address → Nat) (w : World) : Move → Prop
  | .act name a => ∀ s ∈ w.scope? name, a.Affords tied s w.owned
  | .step (.host h) => h.Affords tied w.session.outside w.owned
  | _ => True

instance (tied : Host → Address → Nat) (w : World) : ∀ m : Move, Decidable (w.Affords tied m)
  | .act name a => inferInstanceAs (Decidable (∀ s ∈ w.scope? name, a.Affords tied s w.owned))
  | .step (.host h) => inferInstanceAs (Decidable (h.Affords tied w.session.outside w.owned))
  | .enter .. | .leave .. | .reuse .. | .step (.open ..) | .step (.enter ..) | .step (.catchUp ..)
  | .step (.collect ..) | .step (.close ..) | .step (.unstash ..) | .step (.register ..)
  | .step (.catalog ..) => isTrue trivial

/-! ## Runs and sessions -/

variable {rule : World → Move → Prop} {P : World → Prop}

/-- What every move of a run keeps, the run keeps. -/
theorem Along.preserves (hs : ∀ w m, P w → rule w m → P (w.next m)) {w : World} {ms : List Move}
    (h : w.Along rule ms) (hw : P w) : P (w.run ms) := by
  induction ms generalizing w with
  | nil => exact hw
  | cons m ms ih => exact ih h.2 (hs w m hw h.1)

theorem along_true (w : World) (ms : List Move) : w.Along (fun _ _ => True) ms := by
  induction ms generalizing w with
  | nil => trivial
  | cons m ms ih => exact ⟨trivial, ih _⟩

theorem run_append (w : World) (ms ms' : List Move) : w.run (ms ++ ms') = (w.run ms).run ms' :=
  List.foldl_append

theorem along_append {w : World} {ms ms' : List Move} :
    w.Along rule (ms ++ ms') ↔ w.Along rule ms ∧ (w.run ms).Along rule ms' := by
  induction ms generalizing w with
  | nil => exact iff_of_eq (true_and _).symm
  | cons m ms ih => exact (and_congr_right fun _ => ih).trans and_assoc.symm

theorem trace_append {α : Type} (f : World → Move → List α) (w : World) (ms ms' : List Move) :
    w.trace f (ms ++ ms') = w.trace f ms ++ (w.run ms).trace f ms' := by
  induction ms generalizing w with
  | nil => rfl
  | cons m ms ih => exact (congrArg (f w m ++ ·) (ih _)).trans (List.append_assoc ..).symm

end World

namespace Session

variable {s : Session} {name : String} {c c' : Machine}

@[simp] theorem machine?_put (s : Session) (name : String) (c : Machine) :
    (s.put name c).machine? name = some c := by
  simp [machine?, put]

@[simp] theorem put_put (s : Session) (name : String) (c c' : Machine) :
    (s.put name c).put name c' = s.put name c' := by
  simp only [put, mk.injEq, true_and, and_true]
  ext1 k
  grind

theorem put_of_machine? (h : s.machine? name = some c) : s.put name c = s := by
  obtain ⟨b, hb, rfl⟩ := Option.map_eq_some_iff.1 h
  have hm : s.bridges.insert name b = s.bridges := by
    ext1 k
    grind
  simp only [put, hm]

end Session

namespace World

variable {w : World} {name : String} {s : Scope}

theorem machine?_of_scope? (h : w.scope? name = some s) :
    w.session.machine? name = some s.machine := by
  simp only [scope?, Option.bind_eq_some_iff, Option.map_eq_some_iff] at h
  obtain ⟨v, -, c, hc, rfl⟩ := h
  exact hc

/-- There is no scope of a visit where there was none, if there are the same visits and no more
bridges. -/
theorem scope?_eq_none_of {w' : World} (hv : w'.visits = w.visits)
    (hc : w.session.machine? name = none → w'.session.machine? name = none)
    (hs : w.scope? name = none) : w'.scope? name = none := by
  simp only [scope?, Option.bind_eq_none_iff, Option.map_eq_none_iff] at hs ⊢
  rw [hv]
  exact fun v hv => hc (hs v hv)

theorem isFree_iff {t : Step} : w.isFree t ↔
    t.isVisit = false ∧ ∀ name, t.bridge? = some name → w.visits.contains name = false := by
  cases hb : t.bridge? <;> simp [isFree, hb]

theorem next_act (h : w.scope? name = some s) (a : Action) :
    w.next (.act name a) =
      { session := w.session.put name (a.run s).1.machine
        visits := w.visits.modify name fun v =>
          { vars := (a.run s).1.vars, given := v.given ++ (a.run s).2.nodes }
        owned := a.settle s w.owned } := by
  rw [next, h, Option.elim_some]

theorem next_leave (h : w.scope? name = some s) :
    w.next (.leave name) =
      { w with session := w.session.endVisit name s, visits := w.visits.erase name } := by
  rw [next, h, Option.elim_some]

theorem scope?_act (h : w.scope? name = some s) (a : Action) :
    (w.next (.act name a)).scope? name = some (a.run s).1 := by
  obtain ⟨v, hv⟩ : ∃ v, w.visits[name]? = some v := by
    simp only [scope?, Option.bind_eq_some_iff] at h
    exact ⟨_, h.choose_spec.1⟩
  rw [next_act h, scope?]
  simp [hv]

/-- The moves of a visit do what the visit does. -/
theorem run_acts (h : w.scope? name = some s) (actions : List Action) :
    (w.run (actions.map (.act name))).scope? name = some (s.actAll actions).1 ∧
      (w.run (actions.map (.act name))).session = w.session.put name (s.actAll actions).1.machine ∧
      (w.run (actions.map (.act name))).visits.erase name = w.visits.erase name := by
  induction actions generalizing w s with
  | nil => exact ⟨h, (Session.put_of_machine? (machine?_of_scope? h)).symm, rfl⟩
  | cons a actions ih =>
    obtain ⟨hs, hp, hv⟩ := ih (scope?_act h a)
    refine ⟨hs, hp.trans ?_, hv.trans ?_⟩
    · simp [next_act h, Scope.actAll, Scope.act]
    · rw [next_act h]
      ext1 k
      grind

theorem run_idle {ms : List Move} (h : ∀ m ∈ ms, w.next m = w) : w.run ms = w := by
  induction ms with
  | nil => rfl
  | cons m ms ih =>
    rw [run, List.foldl_cons, h m List.mem_cons_self]
    exact ih fun m' hm' => h m' (List.mem_cons_of_mem _ hm')

theorem run_visit (hv : w.visits = ∅) (name : String) (actions : List Action) :
    (w.run (Step.enter name actions).moves).session = (w.session.visit name actions).1 ∧
      (w.run (Step.enter name actions).moves).visits = ∅ := by
  cases hb : w.session.beginVisit name with
  | none =>
    rw [run_idle fun m hm => ?_]
    · simp [Session.visit, hb, hv]
    · have hs : w.scope? name = none := by simp [scope?, hv]
      simp only [Step.moves, List.mem_cons, List.mem_append, List.mem_map, List.not_mem_nil,
        or_false] at hm
      rcases hm with rfl | ⟨a, -, rfl⟩ | rfl
      · simp [next, hb, hv]
      all_goals rw [next, hs, Option.elim_none]
  | some scope =>
    have hn : w.next (.enter name) =
        { w with
          session := w.session.put name scope.machine
          visits := w.visits.insert name { vars := scope.vars } } := by
      simp [next, hv, hb]
    have hs : (w.next (.enter name)).scope? name = some scope := by
      rw [hn]
      simp [scope?]
    obtain ⟨hs', hp, he⟩ := run_acts hs actions
    have hr : w.run (Step.enter name actions).moves =
        ((w.next (.enter name)).run (actions.map (.act name))).next (.leave name) := by
      rw [Step.moves, run, List.foldl_cons, List.foldl_append]
      rfl
    rw [hr, next_leave hs']
    refine ⟨?_, ?_⟩
    · rw [hn] at hp ⊢
      simp only [hp, Session.visit, hb, Session.endVisit, Session.put_put]
    · rw [he, hn, hv]
      ext1 k
      grind

/-- A step of a session is the run of its moves. -/
theorem run_step (hv : w.visits = ∅) (t : Step) :
    (w.run t.moves).session = (w.session.step t).1 ∧ (w.run t.moves).visits = ∅ := by
  cases ht : t.isVisit with
  | true =>
    obtain ⟨name, actions, rfl⟩ : ∃ name actions, t = .enter name actions := by
      cases t <;> simp_all [Step.isVisit]
    exact run_visit hv name actions
  | false =>
    have hm : t.moves = [.step t] := by cases t <;> simp_all [Step.isVisit, Step.moves]
    have hf : w.isFree t := isFree_iff.2 ⟨ht, fun name _ => by simp [hv]⟩
    simp [hm, run, next, hf, hv]

/-- A script is the run of the moves of its steps. -/
theorem run_moves (hv : w.visits = ∅) (steps : List Step) :
    (w.run (steps.flatMap Step.moves)).session = (w.session.run steps).1 := by
  induction steps generalizing w with
  | nil => rfl
  | cons t steps ih =>
    obtain ⟨hs, hv'⟩ := run_step hv t
    rw [List.flatMap_cons, run_append, ih hv', hs]
    rfl

end World

end NativeProxies
