import NativeProxies.Proofs.Bridge.Spending
import NativeProxies.Proofs.World

/-!
# Borrowed references

A bridge drops a reference for every proxy that goes away.  Each of these is one that the bridge took,
one that was handed over to it, or one that the proxy only borrowed (`World.moved_run`).  The last kind
is there because a proxy borrows if there is no way to take a reference, while dropping one asks only
for a way to give it back (`World.not_moved_le`).
-/

namespace NativeProxies

/-- A conversion of an object by a bridge. -/
structure Conversion where
  serial : Nat
  object : Address
  /-- Whether the caller handed a reference over. -/
  handedOver : Bool
  /-- Whether a proxy was made that has no reference of its own. -/
  borrowed : Bool
deriving DecidableEq, Repr

namespace Action

/-- The conversion that an action makes. -/
def conversion? (s : Scope) : Action → Option Conversion
  | wrap (some a) handedOver _ =>
    if s.machine.host.isAlive a then
      some ⟨s.machine.bridge.serial, a, handedOver, s.machine.borrows a handedOver⟩
    else none
  | _ => none

theorem serial_of_conversion? {s : Scope} {a : Action} {x : Conversion}
    (h : a.conversion? s = some x) : x.serial = s.machine.bridge.serial := by
  unfold conversion? at h
  split at h
  · split_ifs at h
    cases h
    rfl
  · cases h

theorem spends_run {s : Scope} (h : s.Sound) (a : Action) :
    s.machine.Spends (a.run s).1.machine fun b => (a.conversion? s).elim 0 fun x =>
      if x.object = b then x.handedOver.toNat + x.borrowed.toNat else 0 := by
  have hm := h.machine
  rcases run_cases h a with ⟨hq, -⟩ | ⟨n, rfl⟩ | rfl | ⟨b, handedOver, name, rfl, hb, he⟩ |
    ⟨e, s', v, rfl, hq, he⟩ | ⟨t, rfl⟩
  · refine Machine.Spends.mono (Machine.spends_of_eq hq.machine.serial ?_ ?_) fun _ => Nat.zero_le _
    · rw [hq.machine.outside]
    · rw [hq.machine.cache]
  · have ht := s.machine.toggles_applyNotification n
    exact Machine.spends_of_eq ht.serial (congrArg Outside.journal ht.outside) ht.weak
  · exact s.machine.spends_catchUp
  · rw [he, machine_afterValue, conversion?, if_pos hb]
    exact Machine.spends_wrap hm b handedOver
  · have hs : s.machine.Spends s'.machine fun _ => 0 := by
      refine Machine.spends_of_eq hq.machine.serial ?_ ?_
      · rw [hq.machine.outside]
      · rw [hq.machine.cache]
    rw [he]
    exact hs.trans (Machine.spends_dismiss hq.sound.machine v)
  · exact Machine.spends_of_eq rfl (HostStep.journal_run _ t) rfl

end Action

namespace World

variable {w : World} {name : String} {c c' : Machine} {b : Address → Nat}

/-- The conversion that a move makes, if any. -/
def conversions (w : World) : Move → List Conversion
  | .act name a => (w.scope? name).toList.filterMap a.conversion?
  | _ => []

/-- How many references to an object conversions handed over to a bridge. -/
def handedOver (cs : List Conversion) (s : Nat) (a : Address) : Nat :=
  cs.countP fun x => x.serial = s ∧ x.object = a ∧ x.handedOver

/-- How many proxies of an object a bridge made without a reference. -/
def borrowed (cs : List Conversion) (s : Nat) (a : Address) : Nat :=
  cs.countP fun x => x.serial = s ∧ x.object = a ∧ x.borrowed

/-- How many references to an object a bridge took, or dropped. -/
def moved (w : World) (s : Nat) (a : Address) (d : Transfer) : Nat := w.session.outside.moved s a d

/-- How many entries a bridge has for an object, none or one. -/
def entries (w : World) (s : Nat) (a : Address) : Nat :=
  (w.session.holdings a).countP fun h => h.serial = s

theorem countP_others (h : w.Sound) (hc : w.session.machine? name = some c) (a : Address) :
    (w.session.others name a).countP (fun h => h.serial = c.bridge.serial) = 0 := by
  rw [List.countP_eq_zero]
  intro x hx he
  exact h.serial_not_mem_others hc a (List.mem_map.2 ⟨x, hx, of_decide_eq_true he⟩)

/-- The entries of a bridge and those of all others. -/
theorem countP_holdings (h : w.Sound) (hc : w.session.machine? name = some c) (s : Nat)
    (a : Address) : w.entries s a =
      if s = c.bridge.serial then c.entries a
      else (w.session.others name a).countP fun h => h.serial = s := by
  have hp := (Session.holdings_perm hc a).countP_eq fun h => h.serial = s
  have hown : (c.holding? a).toList.countP (fun h => h.serial = s) =
      if s = c.bridge.serial then c.entries a else 0 := by
    rw [Machine.entries]
    cases hh : c.holding? a with
    | none => simp
    | some x => simp [Machine.serial_of_holding? hh, eq_comm]
  rw [entries, hp, List.countP_append, hown]
  split_ifs with hs
  · rw [hs, countP_others h hc, Nat.add_zero]
  · exact Nat.zero_add _

/-- What a bridge spends is within its budget, and others spend nothing. -/
theorem moved_put (h : w.Sound) (hc : w.session.machine? name = some c) (hs : c.Spends c' b)
    {w' : World} (hw : w'.session = w.session.put name c') (hw' : w'.Sound) (s : Nat) (a : Address) :
    w'.moved s a .giveBack + w'.entries s a + w.moved s a .take ≤
      w.moved s a .giveBack + w.entries s a + w'.moved s a .take +
        if s = c.bridge.serial then b a else 0 := by
  have hc' : w'.session.machine? name = some c' := hw ▸ Session.machine?_put _ _ _
  have ho : w'.session.others name a = w.session.others name a := hw ▸ Session.others_put _ _ _ _
  have hout : w'.session.outside = c'.outside := hw ▸ rfl
  rw [countP_holdings h hc, countP_holdings hw' hc', hs.serial, ho]
  simp only [moved, hout, ← Session.outside_of_machine? hc]
  split_ifs with hse
  · subst hse
    exact hs.own a
  · rw [hs.other s a _ hse, hs.other s a _ hse, Nat.add_zero]

/-- A move that makes no call and leaves the entries alone. -/
theorem moved_of_journal {w' : World} (hj : w'.session.outside.journal = w.session.outside.journal)
    (s : Nat) (a : Address) (hh : w'.entries s a = w.entries s a) (n : Nat) :
    w'.moved s a .giveBack + w'.entries s a + w.moved s a .take ≤
      w.moved s a .giveBack + w.entries s a + w'.moved s a .take + n := by
  rw [hh, moved, moved, moved, moved, Outside.moved_of_journal hj, Outside.moved_of_journal hj]
  exact Nat.le_add_right _ _

theorem spends_tends {t : Step} (ht : Tends c t c') : c.Spends c' fun _ => 0 := by
  cases ht with
  | catchUp name => exact c.spends_catchUp
  | collect name => exact c.spends_collect
  | unstash name stash => exact Machine.spends_of_eq rfl rfl rfl
  | register name d => exact Machine.spends_of_eq rfl rfl rfl
  | catalog name q =>
    have hq := (Machine.recalls_catalogStep c q).quiet
    refine Machine.spends_of_eq hq.serial ?_ ?_
    · rw [hq.outside]
    · rw [hq.cache]

/-- What a bridge drops in a move. -/
theorem moved_next (h : w.Sound) (m : Move) (s : Nat) (a : Address) :
    (w.next m).moved s a .giveBack + (w.next m).entries s a + w.moved s a .take ≤
      w.moved s a .giveBack + w.entries s a + (w.next m).moved s a .take +
        (handedOver (w.conversions m) s a + borrowed (w.conversions m) s a) := by
  have hw' := h.next m
  have hb := w.becomes_next m
  generalize w.next m = w' at hb hw'
  have hzero {name : String} {c c' : Machine} (hc : w.session.machine? name = some c)
      (hs : c.Spends c' fun _ => 0) (hw : w'.session = w.session.put name c') (n : Nat) :
      w'.moved s a .giveBack + w'.entries s a + w.moved s a .take ≤
        w.moved s a .giveBack + w.entries s a + w'.moved s a .take + n := by
    have hp := moved_put h hc hs hw hw' s a
    rw [ite_self] at hp
    exact hp.trans (Nat.add_le_add_left (Nat.zero_le n) _)
  cases hb with
  | idle => exact moved_of_journal (w := w) rfl s a rfl _
  | @enter name c hc => exact hzero hc c.spends_catchUp rfl _
  | @act name sc action hs =>
    refine (moved_put h (machine?_of_scope? hs) (Action.spends_run (h.scope hs) action) rfl hw' s
      a).trans (Nat.add_le_add_left ?_ _)
    rw [conversions, hs, Option.toList_some, List.filterMap_cons, List.filterMap_nil]
    cases hx : action.conversion? sc with
    | none => simp [handedOver]
    | some x =>
      rw [Option.elim_some, handedOver, borrowed, List.countP_singleton, List.countP_singleton,
        Action.serial_of_conversion? hx]
      grind
  | @leave name sc hs => exact hzero (machine?_of_scope? hs) sc.machine.spends_leave rfl _
  | tend hn hc hv ht => exact hzero hc (spends_tends ht) rfl _
  | «open» settings responder ancestorsOnly hn =>
    refine moved_of_journal (w := w) (by rfl) s a ?_ _
    exact (Session.holdings_insert_perm hn rfl a).countP_eq _
  | @close name c hc hv =>
    have hent : (w.session.others name a).countP (fun h => h.serial = s) =
        if s = c.bridge.serial then 0 else w.entries s a := by
      have he := countP_holdings h hc s a
      split_ifs at he ⊢ with hs
      · exact hs ▸ countP_others h hc a
      · exact he.symm
    have he := countP_holdings h hc s a
    change c.close.outside.moved s a _ + (w.session.others name a).countP (fun h => h.serial = s) +
      w.session.outside.moved s a _ ≤ w.session.outside.moved s a _ + _ +
        c.close.outside.moved s a _ + _
    rw [hent, ← Session.outside_of_machine? hc]
    split_ifs at he ⊢ with hs
    · have hm := Machine.moved_close (h.machine hc) a
      subst hs
      omega
    · rw [Machine.moved_close_other (h.machine hc) hs, Machine.moved_close_other (h.machine hc) hs]
      omega
  | host t => exact moved_of_journal (by exact HostStep.journal_run _ t) s a (by rfl) _
  | reuse t floating => exact moved_of_journal (by rfl) s a (by rfl) _

/-- After every run, the references to an object that a bridge dropped, and the one behind its entry if
it has one, are no more than those that it took, those that were handed over to it, and those that its
proxies borrowed. -/
theorem moved_run (ms : List Move) (s : Nat) (a : Address) :
    (run { } ms).moved s a .giveBack + (run { } ms).entries s a ≤
      (run { } ms).moved s a .take + handedOver (trace { } conversions ms) s a +
        borrowed (trace { } conversions ms) s a := by
  induction ms using List.reverseRecOn with
  | nil => exact Nat.zero_le _
  | append_singleton ms m ih =>
    have hm := moved_next (sound_empty.run ms) m s a
    rw [run_append, trace_append]
    have ht : (run { } ms).trace conversions [m] = (run { } ms).conversions m := List.append_nil _
    rw [ht, handedOver, borrowed, List.countP_append, List.countP_append]
    change ((run { } ms).next m).moved s a _ + ((run { } ms).next m).entries s a ≤
      ((run { } ms).next m).moved s a _ + _ + _
    simp only [handedOver, borrowed] at ih hm
    omega

/-- The reference to a token can be given back but not taken. -/
def lent : List Move :=
  [.step (.host (.addFundamental "Token" (some ⟨none, some .fundamental⟩))),
   .step (.host (.create { value := 1 } ⟨1⟩ false)),
   .step (.open "b" .standard .environment false),
   .enter "b",
   .act "b" (.wrap (some { value := 1 }) false none),
   .leave "b",
   .step (.collect "b")]

/-- A bridge may drop a reference that it neither took nor was given: the proxy only borrowed it, and the
object is freed while the code around the bridges still owns its reference. -/
theorem not_moved_le :
    (run { } lent).moved 0 { value := 1 } .giveBack = 1 ∧
      (run { } lent).moved 0 { value := 1 } .take = 0 ∧
      handedOver (trace { } conversions lent) 0 { value := 1 } = 0 ∧
      borrowed (trace { } conversions lent) 0 { value := 1 } = 1 ∧
      (run { } lent).owned { value := 1 } = 1 ∧
      (run { } lent).session.outside.host.isAlive { value := 1 } = false := by
  decide +kernel

end World

end NativeProxies
