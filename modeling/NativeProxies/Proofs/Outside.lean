import NativeProxies.Outside
import NativeProxies.Proofs.Account
import NativeProxies.Proofs.Host.Basic

/-!
# What a change of a reference leaves alone

A change of the references of one object is a change of its account, and touches no account of
another object (`Outside.account_change_self`, `Outside.account_change_of_ne`).  Types and the tags
of instances stay as they are, and registrations stay fresh: a bridge never hears of a number that it
has not given out (`Outside.Evolves`).  Every registration in the list of an object was written down
when it was added there (`Outside.Written`).
-/

namespace NativeProxies

/-- What waits in a mailbox about an object. -/
def Mailbox.about (m : Mailbox) (a : Address) : List (Generation × Bool) :=
  (m.pending.toList.filter fun n => n.object = a).map fun n => (n.generation, n.isLast)

theorem Mailbox.about_post (m : Mailbox) (foreign : Bool) (n : Notification) (b : Address) :
    (m.post foreign n).about b =
      if b = n.object then m.about b ++ [(n.generation, n.isLast)] else m.about b := by
  by_cases hb : b = n.object
  · simp [about, post, hb]
  · simp [about, post, hb, Ne.symm hb]

/-- The registration that is added or removed on a route. -/
def Route.registration? : Route → Option (Nat × Generation)
  | .method (.watch (.bridge s g)) => some (s, g)
  | .method (.unwatch (.bridge s g)) => some (s, g)
  | _ => none

namespace Call

/-- Whether a call adds a toggle reference to an object. -/
def adds (a : Address) (c : Call) : Bool :=
  match c.route with
  | .method (.watch _) => c.object == a
  | _ => false

/-- Whether a call removes a toggle reference that an object has. -/
def removes (a : Address) (c : Call) : Bool :=
  match c.route with
  | .method (.unwatch _) => c.object == a && !c.missed
  | _ => false

end Call

namespace Outside

variable {o : Outside} {a b : Address}

/-- What waits for the bridges to hear about an object. -/
def boxes (o : Outside) (a : Address) : Boxes := fun s => o.mailboxes[s]?.map fun m => m.about a

/-- The account of an object with the given loose references and entries. -/
def account (o : Outside) (a : Address) (loose : Nat) (holdings : List Holding) : Account :=
  ⟨o.host.counts? a, o.boxes a, loose, holdings⟩

@[simp] theorem host_tell (o : Outside) (foreign : Bool) (a : Address) (n : Notice) :
    (o.tell foreign a n).host = o.host := by
  rw [tell]
  split <;> rfl

theorem boxes_tell_self (o : Outside) (foreign : Bool) (a : Address) (n : Notice) :
    (o.tell foreign a n).boxes a = (o.boxes a).deliver n := by
  obtain ⟨w, isLast⟩ := n
  cases w with
  | recorder r => rfl
  | bridge s g =>
    funext s'
    simp only [tell, Boxes.deliver, boxes, Function.update_apply]
    by_cases hs : s' = s
    · subst hs
      cases hm : o.mailboxes[s']? <;> simp [hm, Mailbox.about_post]
    · grind

theorem boxes_tell_of_ne (hb : b ≠ a) (foreign : Bool) (n : Notice) :
    (o.tell foreign a n).boxes b = o.boxes b := by
  obtain ⟨w, isLast⟩ := n
  cases w with
  | recorder r => rfl
  | bridge s g =>
    funext s'
    simp only [tell, boxes]
    by_cases hs : s' = s
    · subst hs
      cases hm : o.mailboxes[s']? <;> simp [hm, Mailbox.about_post, hb]
    · grind

theorem host_change (o : Outside) (foreign : Bool) (a : Address) (r : RefChange) :
    (o.change foreign a r).host = (o.host.apply a r).1 := by
  rw [change]
  cases (o.host.apply a r).2 <;> simp

/-- A change of the references of an object is one of its account. -/
theorem account_change_self (o : Outside) (foreign : Bool) (a : Address) (r : RefChange)
    (l : Nat) (hs : List Holding) {l' : Nat} {hs' : List Holding} :
    (o.change foreign a r).account a l' hs' = (o.account a l hs).change r l' hs' := by
  simp only [account, Account.change, host_change, Host.counts?_apply_self, Account.mk.injEq,
    true_and, and_true]
  simp only [change, Host.notice_apply]
  cases hn : (o.host.counts? a).bind fun c => (c.apply r).2 with
  | none => rfl
  | some n => exact boxes_tell_self _ foreign a n

theorem account_change_of_ne (hb : b ≠ a) (foreign : Bool) (r : RefChange) (l : Nat)
    (hs : List Holding) : (o.change foreign a r).account b l hs = o.account b l hs := by
  simp only [account, host_change, Host.counts?_apply_of_ne hb, Account.mk.injEq, true_and,
    and_true]
  simp only [change]
  cases hn : (o.host.apply a r).2 with
  | none => rfl
  | some n => exact boxes_tell_of_ne hb foreign n

/-! ## Fresh registrations -/

/-- What waits in a mailbox, and every registration of its bridge, has a number that the mailbox has
given out. -/
structure Fresh (o : Outside) : Prop where
  pending : ∀ (s : Nat) (m : Mailbox), o.mailboxes[s]? = some m →
    ∀ n ∈ m.pending, n.generation < m.nextGeneration
  watching : ∀ (a : Address) (s : Nat) (g : Generation), .bridge s g ∈ o.host.watchers a →
    ∃ m, o.mailboxes[s]? = some m ∧ g < m.nextGeneration

/-- The calls that add or remove a registration. -/
def callsFor (o : Outside) (s : Nat) (g : Generation) : List Call :=
  o.journal.toList.filter fun c => c.route.registration? = some (s, g)

/-- A registration is in the list of an object at most as often as it was added there and not removed
since. -/
def Written (o : Outside) : Prop :=
  ∀ a s g, (o.host.watchers a).count (.bridge s g) + (o.callsFor s g).countP (Call.removes a) ≤
    (o.callsFor s g).countP (Call.adds a)

/-- What operations of bridges, and changes of references by others, do to what is outside. -/
structure Evolves (o o' : Outside) : Prop where
  types : o'.host.types = o.host.types
  tag? : ∀ a, o'.host.tag? a = o.host.tag? a
  issued : ∀ (s : Nat) (m : Mailbox), o.mailboxes[s]? = some m →
    ∃ m', o'.mailboxes[s]? = some m' ∧ m.nextGeneration ≤ m'.nextGeneration
  unopened : ∀ s : Nat, o.mailboxes[s]? = none → o'.mailboxes[s]? = none
  fresh : o.Fresh → o'.Fresh
  written : o.Written → o'.Written

namespace Evolves

variable {o o' o₁ o₂ : Outside}

theorem refl (o : Outside) : o.Evolves o :=
  ⟨rfl, fun _ => rfl, fun _ m hm => ⟨m, hm, Nat.le_refl _⟩, fun _ => id, id, id⟩

theorem trans (h₁ : o.Evolves o₁) (h₂ : o₁.Evolves o₂) : o.Evolves o₂ where
  types := h₂.types.trans h₁.types
  tag? a := (h₂.tag? a).trans (h₁.tag? a)
  issued s m hm := by
    obtain ⟨m₁, hm₁, hle₁⟩ := h₁.issued s m hm
    obtain ⟨m₂, hm₂, hle₂⟩ := h₂.issued s m₁ hm₁
    exact ⟨m₂, hm₂, Nat.le_trans hle₁ hle₂⟩
  unopened s := h₂.unopened s ∘ h₁.unopened s
  fresh := h₂.fresh ∘ h₁.fresh
  written := h₂.written ∘ h₁.written

theorem typeOf (h : o.Evolves o') (a : Address) : o'.host.typeOf a = o.host.typeOf a := by
  rw [Host.typeOf_eq, h.tag? a, Host.typeOf_eq]

end Evolves

theorem issued_tell (o : Outside) (foreign : Bool) (a : Address) (n : Notice) (s : Nat) :
    ((o.tell foreign a n).mailboxes[s]?).map Mailbox.nextGeneration =
      (o.mailboxes[s]?).map Mailbox.nextGeneration := by
  obtain ⟨w, isLast⟩ := n
  cases w with
  | recorder r => rfl
  | bridge s' g =>
    simp only [tell]
    by_cases hs : s' = s
    · subst hs
      cases hm : o.mailboxes[s']? <;> simp [hm, Mailbox.post]
    · grind

theorem fresh_tell (h : o.Fresh) (foreign : Bool) (a : Address) {n : Notice}
    (hn : ∀ s g, n.watcher = .bridge s g →
      ∃ m, o.mailboxes[s]? = some m ∧ g < m.nextGeneration) :
    (o.tell foreign a n).Fresh := by
  obtain ⟨w, isLast⟩ := n
  cases w with
  | recorder r => exact ⟨h.pending, h.watching⟩
  | bridge s' g =>
    obtain ⟨m', hm', hg⟩ := hn s' g rfl
    have hmail (s : Nat) : (o.tell foreign a ⟨.bridge s' g, isLast⟩).mailboxes[s]? =
        if s = s' then some (m'.post foreign ⟨a, g, isLast⟩) else o.mailboxes[s]? := by
      simp only [tell]
      by_cases hs : s' = s
      · subst hs
        simp [hm']
      · grind
    refine ⟨fun s m hm n hn => ?_, fun b s g' hw => ?_⟩
    · rw [hmail] at hm
      split_ifs at hm with hs
      · cases hm
        rcases Array.mem_push.1 hn with hn | rfl
        · exact h.pending s' m' hm' n hn
        · exact hg
      · exact h.pending s m hm n hn
    · obtain ⟨m, hm, hg'⟩ := h.watching b s g' hw
      rw [hmail]
      split_ifs with hs
      · subst hs
        cases hm'.symm.trans hm
        exact ⟨_, rfl, hg'⟩
      · exact ⟨m, hm, hg'⟩

theorem issued_change (o : Outside) (foreign : Bool) (a : Address) (r : RefChange) (s : Nat) :
    ((o.change foreign a r).mailboxes[s]?).map Mailbox.nextGeneration =
      (o.mailboxes[s]?).map Mailbox.nextGeneration := by
  rw [change]
  cases (o.host.apply a r).2 with
  | none => rfl
  | some n => exact issued_tell _ foreign a n s

theorem fresh_change (h : o.Fresh) (foreign : Bool) (a : Address) (r : RefChange)
    (hr : ∀ s g, r = .watch (.bridge s g) → ∃ m, o.mailboxes[s]? = some m ∧ g < m.nextGeneration) :
    (o.change foreign a r).Fresh := by
  have hh : ({ o with host := (o.host.apply a r).1 } : Outside).Fresh := by
    refine ⟨h.pending, fun b s g hw => ?_⟩
    rcases Host.mem_watchers_of_apply hw with hw | hw
    · exact h.watching b s g hw
    · exact hr s g hw
  rw [change]
  cases hn : (o.host.apply a r).2 with
  | none => exact hh
  | some n =>
    exact fresh_tell hh foreign a fun s g hw =>
      h.watching a s g (hw ▸ Host.watcher_mem_of_apply hn)

/-- A change of references is no call of a bridge. -/
theorem journal_change (o : Outside) (foreign : Bool) (a : Address) (r : RefChange) :
    (o.change foreign a r).journal = o.journal := by
  rw [change]
  cases (o.host.apply a r).2 with
  | none => rfl
  | some n =>
    rw [Option.elim_some, tell]
    split <;> rfl

theorem callsFor_of_journal {o o' : Outside} (h : o'.journal = o.journal) (s : Nat)
    (g : Generation) : o'.callsFor s g = o.callsFor s g := by
  rw [callsFor, callsFor, h]

theorem evolves_change (o : Outside) (foreign : Bool) (a : Address) (r : RefChange)
    (hr : ∀ s g, r ≠ .watch (.bridge s g)) : o.Evolves (o.change foreign a r) where
  types := by rw [host_change, Host.types_apply]
  tag? b := by rw [host_change, Host.tag?_apply]
  issued s m hm := by
    have hi := issued_change o foreign a r s
    rw [hm, Option.map_some, Option.map_eq_some_iff] at hi
    obtain ⟨m', hm', hi⟩ := hi
    exact ⟨m', hm', Nat.le_of_eq hi.symm⟩
  unopened s hs := by
    have hi := issued_change o foreign a r s
    rw [hs] at hi
    exact Option.map_eq_none_iff.1 hi
  fresh h := fresh_change h foreign a r fun s g he => absurd he (hr s g)
  written h b s g := by
    have hc := o.host.count_watchers_apply_le a b r (.bridge s g)
    rw [if_neg fun he => hr s g he.1] at hc
    rw [host_change, callsFor_of_journal (journal_change o foreign a r)]
    exact (Nat.add_le_add_right hc _).trans (h b s g)

/-! ## Calls and mailboxes -/

/-- A call that registers a bridge for an object does so under a number given out before. -/
def Registered (o : Outside) (route : Route) : Prop :=
  ∀ s g, route = .method (.watch (.bridge s g)) →
    ∃ m, o.mailboxes[s]? = some m ∧ g < m.nextGeneration

theorem host_call (o : Outside) (caller : Nat) (route : Route) (a : Address) :
    (o.call caller route a).host = route.change?.elim o.host fun r => (o.host.apply a r).1 := by
  rw [call]
  cases route.change? with
  | none => rfl
  | some r => exact host_change _ false a r

theorem journal_call (o : Outside) (caller : Nat) (route : Route) (a : Address) :
    (o.call caller route a).journal =
      o.journal.push ⟨caller, route, a, !o.host.isAlive a, route.misses o.host a⟩ := by
  rw [call]
  cases route.change? with
  | none => rfl
  | some r => exact journal_change _ false a r

theorem mailboxes_call_map (o : Outside) (caller : Nat) (route : Route) (a : Address) (s : Nat) :
    ((o.call caller route a).mailboxes[s]?).map Mailbox.nextGeneration =
      (o.mailboxes[s]?).map Mailbox.nextGeneration := by
  rw [call]
  cases route.change? with
  | none => rfl
  | some r => exact issued_change _ false a r s

theorem callsFor_call (o : Outside) (caller : Nat) (route : Route) (a : Address) (s : Nat)
    (g : Generation) : (o.call caller route a).callsFor s g =
      if route.registration? = some (s, g) then
        o.callsFor s g ++ [⟨caller, route, a, !o.host.isAlive a, route.misses o.host a⟩]
      else o.callsFor s g := by
  rw [callsFor, journal_call, Array.toList_push, List.filter_append, callsFor]
  split_ifs with hr <;> simp [hr]

theorem misses_unwatch (h : Host) (a : Address) (w : Watcher) :
    (Route.method (.unwatch w)).misses h a = !decide (w ∈ h.watchers a) := by
  rw [Route.misses, Host.watchers]
  cases h.counts? a with
  | none => rfl
  | some c => exact congrArg not (decide_eq_decide.2 Iff.rfl)

/-- A call is written down, and what it adds or removes with it. -/
theorem written_call (h : o.Written) (caller : Nat) (route : Route) (a : Address) :
    (o.call caller route a).Written := by
  intro b s g
  have hb := h b s g
  rw [callsFor_call, host_call]
  by_cases hr : route.registration? = some (s, g)
  · rw [if_pos hr, List.countP_append, List.countP_append]
    unfold Route.registration? at hr
    split at hr
    · cases hr
      have hc := o.host.count_watchers_apply_le a b (.watch (.bridge s g)) (.bridge s g)
      simp only [true_and] at hc
      simp only [Route.change?, Option.elim_some, List.countP_singleton, Call.removes, Call.adds,
        beq_iff_eq, Bool.false_eq_true, if_false, eq_comm (a := a)]
      omega
    · cases hr
      have hc := o.host.count_watchers_apply_le a b (.unwatch (.bridge s g)) (.bridge s g)
      rw [if_neg (by simp)] at hc
      simp only [Route.change?, Option.elim_some, List.countP_singleton, Call.removes, Call.adds,
        misses_unwatch, Bool.not_not, Bool.and_eq_true, beq_iff_eq, decide_eq_true_iff,
        Bool.false_eq_true, if_false]
      split_ifs with hw
      · obtain ⟨rfl, hw⟩ := hw
        have hlt := Host.count_watchers_unwatch_lt hw
        omega
      · omega
    · simp at hr
  · rw [if_neg hr]
    cases hc : route.change? with
    | none => exact hb
    | some r =>
      have hle := o.host.count_watchers_apply_le a b r (.bridge s g)
      rw [if_neg] at hle
      · exact (Nat.add_le_add_right hle _).trans hb
      · rintro ⟨rfl, -⟩
        cases route with
        | method r => simp_all [Route.change?, Route.registration?]
        | function e d => cases e <;> cases d <;> simp_all [Route.change?]

theorem evolves_call (caller : Nat) {route : Route} (hr : o.Registered route) (a : Address) :
    o.Evolves (o.call caller route a) where
  types := by
    rw [host_call]
    cases route.change? <;> simp
  tag? b := by
    rw [host_call]
    cases route.change? <;> simp [Host.tag?_apply]
  issued s m hm := by
    have hi := mailboxes_call_map o caller route a s
    rw [hm, Option.map_some, Option.map_eq_some_iff] at hi
    obtain ⟨m', hm', hi⟩ := hi
    exact ⟨m', hm', Nat.le_of_eq hi.symm⟩
  unopened s hs := by
    have hi := mailboxes_call_map o caller route a s
    rw [hs] at hi
    exact Option.map_eq_none_iff.1 hi
  fresh h := by
    have hj (j : Array Call) : ({ o with journal := j } : Outside).Fresh := ⟨h.pending, h.watching⟩
    rw [call]
    cases hc : route.change? with
    | none => exact hj _
    | some r =>
      refine fresh_change (hj _) false a r fun s g hw => hr s g ?_
      cases route with
      | method r' => simpa [Route.change?, hw] using hc
      | function e d => cases e <;> cases d <;> simp_all [Route.change?]
  written h := written_call h caller route a

theorem account_call_self (o : Outside) (caller : Nat) {route : Route} {r : RefChange}
    (hr : route.change? = some r) (a : Address) {l l' : Nat} {hs hs' : List Holding} :
    (o.call caller route a).account a l' hs' = (o.account a l hs).change r l' hs' := by
  rw [call, hr, Option.elim_some, account_change_self]
  rfl

theorem account_call_of_ne (hb : b ≠ a) (caller : Nat) (route : Route) (l : Nat)
    (hs : List Holding) : (o.call caller route a).account b l hs = o.account b l hs := by
  rw [call]
  cases route.change? with
  | none => rfl
  | some r => exact account_change_of_ne hb false r l hs

theorem boxes_setMailbox (o : Outside) (s : Nat) (m : Mailbox) (a : Address) :
    (o.setMailbox s m).boxes a = Function.update (o.boxes a) s (some (m.about a)) := by
  funext s'
  simp only [setMailbox, boxes, Function.update_apply]
  grind

theorem mailbox_eq {s : Nat} {m : Mailbox} (hm : o.mailboxes[s]? = some m) : o.mailbox s = m := by
  rw [mailbox, hm, Option.getD_some]

theorem setMailbox_eq {s : Nat} {m : Mailbox} (hm : o.mailboxes[s]? = some m) :
    o.setMailbox s m = o := by
  have hb : o.mailboxes.insert s m = o.mailboxes := by
    ext1 t
    grind
  rw [setMailbox, hb]

theorem evolves_setMailbox {s : Nat} {m₀ m : Mailbox} (h₀ : o.mailboxes[s]? = some m₀)
    (hg : m₀.nextGeneration ≤ m.nextGeneration) (hp : ∀ n ∈ m.pending, n ∈ m₀.pending) :
    o.Evolves (o.setMailbox s m) := by
  have hmail (s' : Nat) : (o.setMailbox s m).mailboxes[s']? =
      if s' = s then some m else o.mailboxes[s']? := by
    simp only [setMailbox]
    grind
  refine ⟨rfl, fun _ => rfl, fun s' m' hm' => ?_, fun s' hs' => ?_, fun h =>
    ⟨fun s' m' hm' n hn => ?_, fun b s' g hw => ?_⟩, fun h => h⟩
  · rw [hmail]
    split_ifs with hs
    · subst hs
      cases h₀.symm.trans hm'
      exact ⟨m, rfl, hg⟩
    · exact ⟨m', hm', Nat.le_refl _⟩
  · rw [hmail]
    split_ifs with hs
    · subst hs
      exact absurd (h₀.symm.trans hs') (by simp)
    · exact hs'
  · rw [hmail] at hm'
    split_ifs at hm' with hs
    · cases hm'
      exact Nat.lt_of_lt_of_le (h.pending s m₀ h₀ n (hp n hn)) hg
    · exact h.pending s' m' hm' n hn
  · obtain ⟨m', hm', hlt⟩ := h.watching b s' g hw
    rw [hmail]
    split_ifs with hs
    · subst hs
      cases h₀.symm.trans hm'
      exact ⟨m, rfl, Nat.lt_of_lt_of_le hlt hg⟩
    · exact ⟨m', hm', hlt⟩

/-- A new mailbox has nothing in it that could be stale. -/
theorem fresh_open (h : o.Fresh) {s : Nat} (hs : o.mailboxes[s]? = none) :
    (o.setMailbox s { }).Fresh := by
  have hmail {s' : Nat} {m : Mailbox} (hm : o.mailboxes[s']? = some m) :
      (o.setMailbox s { }).mailboxes[s']? = some m := by
    simp only [setMailbox]
    grind
  refine ⟨fun s' m hm n hn => ?_, fun b s' g hw => ?_⟩
  · simp only [setMailbox] at hm
    by_cases he : s' = s
    · rw [he, Std.ExtTreeMap.getElem?_insert_self] at hm
      cases hm
      simp at hn
    · exact h.pending s' m (by grind) n hn
  · obtain ⟨m, hm, hlt⟩ := h.watching b s' g hw
    exact ⟨m, hmail hm, hlt⟩

end Outside

end NativeProxies
