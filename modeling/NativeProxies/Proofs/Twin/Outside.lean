import NativeProxies.Proofs.Script.HostStep

/-!
# Twin mailboxes

Nothing outside reads a mailbox.  So two processes that differ by their mailboxes only stay alike, as long
as a notification that comes in on both sides keeps the mailboxes related (`Outside.Related`): changes of
references, calls of bridges and steps on the host give the same answers and keep the relation
(`Outside.Related.run`).  Two processes are twins if they differ only by notifications that nobody will
heed: of what waits in their mailboxes, the part that a filter lets through is the same
(`Outside.Twins`).
-/

namespace NativeProxies

/-- The second mailbox is the first one but for notifications that `p` leaves out. -/
structure Mailbox.Twins (p : Notification → Bool) (m m' : Mailbox) : Prop where
  pending : m'.pending.toList.filter p = m.pending.toList.filter p
  nextGeneration : m'.nextGeneration = m.nextGeneration
  foreign : (∀ n, p n) → m'.foreign = m.foreign

namespace Mailbox.Twins

variable {p q : Notification → Bool} {m m' : Mailbox}

theorem refl (p : Notification → Bool) (m : Mailbox) : m.Twins p m := ⟨rfl, rfl, fun _ => rfl⟩

theorem eq (h : m.Twins p m') (hp : ∀ n, p n) : m' = m := by
  obtain ⟨pending, next, foreign⟩ := m
  obtain ⟨pending', next', foreign'⟩ := m'
  obtain ⟨hpending, rfl, hforeign⟩ := h
  have hall (l : List Notification) : l.filter p = l := List.filter_eq_self.2 fun n _ => hp n
  cases Array.toList_inj.1 ((hall _).symm.trans (hpending.trans (hall _)))
  cases hforeign hp
  rfl

/-- Leaving out more leaves less to compare. -/
theorem mono (h : m.Twins p m') (hq : ∀ n, q n → p n) : m.Twins q m' where
  pending := by
    have hf (l : List Notification) : l.filter q = (l.filter p).filter q := by
      rw [List.filter_filter]
      exact List.filter_congr fun n _ => by cases hn : q n <;> simp [hn, hq]
    rw [hf, h.pending, ← hf]
  nextGeneration := h.nextGeneration
  foreign hall := h.foreign fun n => hq n (hall n)

theorem post (h : m.Twins p m') (foreign : Bool) (n : Notification) :
    (m.post foreign n).Twins p (m'.post foreign n) where
  pending := by simp only [Mailbox.post, Array.toList_push, List.filter_append, h.pending]
  nextGeneration := h.nextGeneration
  foreign hall := by simp only [Mailbox.post, h.foreign hall]

/-- A notification that is left out may come in addition. -/
theorem inject (h : m.Twins p m') {n : Notification} (hn : p n = false) (foreign : Bool) :
    m.Twins p (m'.post foreign n) where
  pending := by
    rw [Mailbox.post, Array.toList_push, List.filter_append, h.pending]
    simp [hn]
  nextGeneration := h.nextGeneration
  foreign hall := absurd (hall n) (by simp [hn])

theorem issue (h : m.Twins p m') : m.issue.1.Twins p m'.issue.1 :=
  ⟨h.pending, congrArg (· + 1) h.nextGeneration, h.foreign⟩

theorem takeAll (h : m.Twins p m') : m.takeAll.1.Twins p m'.takeAll.1 :=
  ⟨rfl, h.nextGeneration, h.foreign⟩

end Mailbox.Twins

namespace Outside

variable {R S : Nat → Mailbox → Mailbox → Prop} {P Q : Nat → Notification → Bool} {o o' : Outside}

theorem rel_iff {α β : Type} {r : α → β → Prop} {x : Option α} {y : Option β} : Option.Rel r x y ↔
    (x = none ∧ y = none) ∨ ∃ a b, x = some a ∧ y = some b ∧ r a b := by
  constructor
  · rintro (h | -)
    · exact .inr ⟨_, _, rfl, rfl, h⟩
    · exact .inl ⟨rfl, rfl⟩
  · rintro (⟨rfl, rfl⟩ | ⟨a, b, rfl, rfl, h⟩)
    · exact .none
    · exact .some h

/-! ## Related mailboxes -/

/-- The second process is the first one but for the mailboxes: those of the bridge with the serial number
`s` are related by `R s`. -/
def Related (R : Nat → Mailbox → Mailbox → Prop) (o o' : Outside) : Prop :=
  ∃ boxes : Map Nat Mailbox, o' = { o with mailboxes := boxes } ∧
    ∀ s : Nat, Option.Rel (R s) o.mailboxes[s]? boxes[s]?

/-- Mailboxes stay related when the same notification comes in. -/
def KeptByPost (R : Nat → Mailbox → Mailbox → Prop) : Prop :=
  ∀ s m m', R s m m' → ∀ foreign n, R s (m.post foreign n) (m'.post foreign n)

namespace Related

theorem refl (hR : ∀ s m, R s m m) (o : Outside) : o.Related R o := by
  refine ⟨o.mailboxes, rfl, fun s => ?_⟩
  cases o.mailboxes[s]? with
  | none => exact .none
  | some m => exact .some (hR s m)

section

variable (h : o.Related R o')
include h

theorem host : o'.host = o.host := by
  obtain ⟨boxes, rfl, -⟩ := h
  rfl

theorem journal : o'.journal = o.journal := by
  obtain ⟨boxes, rfl, -⟩ := h
  rfl

theorem tapes : o'.tapes = o.tapes := by
  obtain ⟨boxes, rfl, -⟩ := h
  rfl

theorem callsSince (n : Nat) : o'.callsSince n = o.callsSince n := by
  rw [Outside.callsSince, Outside.callsSince, h.journal]

theorem mailboxes (s : Nat) : Option.Rel (R s) o.mailboxes[s]? o'.mailboxes[s]? := by
  obtain ⟨boxes, rfl, hb⟩ := h
  exact hb s

theorem mono (hS : ∀ s m m', R s m m' → S s m m') : o.Related S o' := by
  obtain ⟨boxes, rfl, hb⟩ := h
  refine ⟨boxes, rfl, fun s => ?_⟩
  rcases rel_iff.1 (hb s) with ⟨h, h'⟩ | ⟨m, m', h, h', hm⟩ <;> rw [h, h']
  · exact .none
  · exact .some (hS s m m' hm)

/-- Only the mailboxes of one bridge have to be related in another way. -/
theorem setMailbox {s : Nat} {m m' : Mailbox} (hS : ∀ t ≠ s, ∀ m m', R t m m' → S t m m')
    (hm : S s m m') : (o.setMailbox s m).Related S (o'.setMailbox s m') := by
  obtain ⟨boxes, rfl, hb⟩ := h
  refine ⟨boxes.insert s m', rfl, fun t => ?_⟩
  by_cases ht : t = s
  · subst ht
    simpa [Outside.setMailbox] using Option.Rel.some hm
  · have hk (x : Map Nat Mailbox) (y : Mailbox) : (x.insert s y)[t]? = x[t]? := by grind
    rw [Outside.setMailbox, hk, hk]
    rcases rel_iff.1 (hb t) with ⟨h, h'⟩ | ⟨m, m', h, h', hm⟩ <;> rw [h, h']
    · exact .none
    · exact .some (hS t ht m m' hm)

theorem setHost (host : Host) : Related R { o with host := host } { o' with host := host } := by
  obtain ⟨boxes, rfl, hb⟩ := h
  exact ⟨boxes, rfl, hb⟩

theorem ifAlive (a : Address) {k k' : Outside × Answer} (hk : k.1.Related R k'.1 ∧ k'.2 = k.2) :
    (o.ifAlive a k).1.Related R (o'.ifAlive a k').1 ∧ (o'.ifAlive a k').2 = (o.ifAlive a k).2 := by
  rw [Outside.ifAlive, Outside.ifAlive, h.host]
  split_ifs
  · exact ⟨h, rfl⟩
  · exact ⟨h, rfl⟩
  · exact hk

end

variable (hR : KeptByPost R)
include hR

theorem tell (h : o.Related R o') (foreign : Bool) (a : Address) (n : Notice) :
    (o.tell foreign a n).Related R (o'.tell foreign a n) := by
  obtain ⟨boxes, rfl, hb⟩ := h
  rw [Outside.tell, Outside.tell]
  cases n.watcher with
  | recorder name => exact ⟨boxes, rfl, hb⟩
  | bridge s g =>
    refine ⟨_, rfl, fun t => ?_⟩
    by_cases ht : t = s
    · subst ht
      rw [Std.ExtTreeMap.getElem?_modify_self, Std.ExtTreeMap.getElem?_modify_self]
      rcases rel_iff.1 (hb t) with ⟨h, h'⟩ | ⟨m, m', h, h', hm⟩ <;> rw [h, h']
      · exact .none
      · exact .some (hR _ _ _ hm foreign _)
    · have hk (x : Map Nat Mailbox) (f : Mailbox → Mailbox) : (x.modify s f)[t]? = x[t]? := by grind
      rw [hk, hk]
      exact hb t

theorem change (h : o.Related R o') (foreign : Bool) (a : Address) (r : RefChange) :
    (o.change foreign a r).Related R (o'.change foreign a r) := by
  rw [Outside.change, Outside.change, h.host]
  have hs := h.setHost (o.host.apply a r).1
  cases (o.host.apply a r).2 with
  | none => exact hs
  | some n => exact tell hR hs foreign a n

theorem changeTimes (h : o.Related R o') (foreign : Bool) (a : Address) (r : RefChange) (n : Nat) :
    (o.changeTimes foreign a r n).Related R (o'.changeTimes foreign a r n) := by
  induction n generalizing o o' with
  | zero => exact h
  | succ n ih =>
    rw [changeTimes_succ, changeTimes_succ]
    exact ih (change hR h foreign a r)

theorem call (h : o.Related R o') (caller : Nat) (route : Route) (a : Address) :
    (o.call caller route a).Related R (o'.call caller route a) := by
  have hj : Related R
      { o with journal :=
          o.journal.push ⟨caller, route, a, !o.host.isAlive a, route.misses o.host a⟩ }
      { o' with journal :=
          o'.journal.push ⟨caller, route, a, !o'.host.isAlive a, route.misses o'.host a⟩ } := by
    obtain ⟨boxes, rfl, hb⟩ := h
    exact ⟨boxes, rfl, hb⟩
  rw [Outside.call, Outside.call]
  cases route.change? with
  | none => exact hj
  | some r => exact change hR hj false a r

theorem foldl (h : o.Related R o') (foreign : Bool) (r : RefChange) (objects : List Address) :
    Related R (objects.foldl (fun o a => o.change foreign a r) o)
      (objects.foldl (fun o a => o.change foreign a r) o') := by
  induction objects generalizing o o' with
  | nil => exact h
  | cons a objects ih => exact ih (change hR h foreign a r)

theorem stormShare (h : o.Related R o') (objects : List Address) (rounds : Nat) :
    (o.stormShare objects rounds).Related R (o'.stormShare objects rounds) := by
  induction rounds generalizing o o' with
  | zero => exact h
  | succ n ih => exact ih (foldl hR (foldl hR h true .take objects) true .drop objects)

theorem storm (h : o.Related R o') (objects : List Address) (workers rounds : Nat) :
    (o.storm objects workers rounds).Related R (o'.storm objects workers rounds) := by
  rw [Outside.storm, Outside.storm]
  induction Shares.among objects workers generalizing o o' with
  | nil => exact h
  | cons share shares ih => exact ih (stormShare hR h share rounds)

/-- A step on the host keeps mailboxes related, and gives the same answer. -/
theorem run (h : o.Related R o') (t : HostStep) :
    (t.run o).1.Related R (t.run o').1 ∧ (t.run o').2 = (t.run o).2 := by
  cases t with
  | take a n foreign => exact h.ifAlive a ⟨changeTimes hR h foreign a .take n, rfl⟩
  | drop a n foreign => exact h.ifAlive a ⟨changeTimes hR h foreign a .drop n, rfl⟩
  | sink a n foreign => exact h.ifAlive a ⟨changeTimes hR h foreign a .sink n, rfl⟩
  | watch a r => exact h.ifAlive a ⟨change hR h false a (.watch (.recorder r)), rfl⟩
  | unwatch a r => exact h.ifAlive a ⟨change hR h false a (.unwatch (.recorder r)), rfl⟩
  | classRecord a t => exact h.ifAlive a ⟨h, by rw [h.host]⟩
  | typeOf a => exact h.ifAlive a ⟨h, by rw [h.host]⟩
  | storm objects workers rounds =>
    rw [HostStep.run, HostStep.run, h.host]
    split
    · exact h.ifAlive _ ⟨h, rfl⟩
    · exact ⟨storm hR h objects workers rounds, rfl⟩
  | create a t floating =>
    rw [HostStep.run, HostStep.run, h.host]
    split_ifs
    · exact ⟨h, rfl⟩
    · exact ⟨h.setHost _, rfl⟩
  | instanceSummary a =>
    rw [HostStep.run, HostStep.run, h.host]
    split_ifs
    · exact ⟨h, rfl⟩
    · exact ⟨h, rfl⟩
  | _ =>
    obtain ⟨boxes, rfl, hb⟩ := h
    exact ⟨⟨boxes, rfl, hb⟩, rfl⟩

end Related

/-! ## Twins -/

/-- The second process is the first one but for notifications that wait: of those for the bridge with the
serial number `s`, the part that `P s` lets through is the same. -/
def Twins (P : Nat → Notification → Bool) (o o' : Outside) : Prop :=
  ∃ boxes : Map Nat Mailbox, o' = { o with mailboxes := boxes } ∧
    ∀ s : Nat, Option.Rel (Mailbox.Twins (P s)) o.mailboxes[s]? boxes[s]?

namespace Twins

theorem keptByPost (P : Nat → Notification → Bool) : KeptByPost fun s => Mailbox.Twins (P s) :=
  fun _ _ _ hm => hm.post

theorem refl (P : Nat → Notification → Bool) (o : Outside) : o.Twins P o :=
  Related.refl (fun s => .refl (P s)) o

variable (h : o.Twins P o')
include h

theorem related : o.Related (fun s => Mailbox.Twins (P s)) o' := h

theorem mono (hq : ∀ s n, Q s n → P s n) : o.Twins Q o' :=
  h.related.mono fun s _ _ hm => hm.mono (hq s)

theorem host : o'.host = o.host := h.related.host

theorem journal : o'.journal = o.journal := h.related.journal

theorem tapes : o'.tapes = o.tapes := h.related.tapes

theorem callsSince (n : Nat) : o'.callsSince n = o.callsSince n := h.related.callsSince n

theorem mailbox (s : Nat) : (o.mailbox s).Twins (P s) (o'.mailbox s) := by
  rw [Outside.mailbox, Outside.mailbox]
  rcases rel_iff.1 (h.related.mailboxes s) with ⟨h, h'⟩ | ⟨m, m', h, h', hm⟩ <;> rw [h, h']
  · exact .refl _ _
  · exact hm

/-- If nothing is left out, twins are the same. -/
theorem eq (hp : ∀ s n, P s n) : o' = o := by
  obtain ⟨boxes, rfl, hb⟩ := h
  have hboxes : boxes = o.mailboxes := by
    ext1 s
    rcases rel_iff.1 (hb s) with ⟨h, h'⟩ | ⟨m, m', h, h', hm⟩ <;> rw [h, h']
    rw [hm.eq (hp s)]
  rw [hboxes]

theorem setMailbox {s : Nat} {m m' : Mailbox} (hm : m.Twins (P s) m') :
    (o.setMailbox s m).Twins P (o'.setMailbox s m') :=
  h.related.setMailbox (fun _ _ _ _ => id) hm

theorem setHost (host : Host) : Twins P { o with host := host } { o' with host := host } :=
  h.related.setHost host

theorem call (caller : Nat) (route : Route) (a : Address) :
    (o.call caller route a).Twins P (o'.call caller route a) :=
  Related.call (keptByPost P) h caller route a

/-- A step on the host makes twins of twins, and gives the same answer. -/
theorem run (t : HostStep) :
    (t.run o).1.Twins P (t.run o').1 ∧ (t.run o').2 = (t.run o).2 :=
  Related.run (keptByPost P) h t

end Twins

end Outside

end NativeProxies
