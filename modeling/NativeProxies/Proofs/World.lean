import Mathlib.Data.List.Nodup
import Mathlib.Data.List.Perm.Basic
import NativeProxies.Proofs.Script.Action

/-!
# Worlds

What every move keeps, in any order and with any number of bridges.  In a sound world the bridges
have different serial numbers and sound memories, and visits hold nothing that was reclaimed
(`World.Sound.next`).  Every object has an account with the entries of all bridges (`World.account`),
which stays balanced or tracked if the move heeds the object (`World.kept_next`).
-/

namespace NativeProxies

/-! ## The entries of all bridges -/

namespace Session

variable {s : Session} {name : String} {c c' : Machine} {a : Address}

/-- The entries of all bridges for an object. -/
def holdings (s : Session) (a : Address) : List Holding :=
  s.bridges.toList.filterMap fun item => (⟨item.2, s.outside⟩ : Machine).holding? a

/-- The entries of all bridges but one. -/
def others (s : Session) (name : String) (a : Address) : List Holding :=
  (s.bridges.erase name).toList.filterMap fun item => (⟨item.2, s.outside⟩ : Machine).holding? a

theorem ne_of_contains {α : Type} {m : Map String α} {k n : String} {x : α}
    (hk : m.contains k = false) (hn : m[n]? = some x) : n ≠ k := by
  rintro rfl
  rw [Std.ExtTreeMap.contains_eq_isSome_getElem?, hn] at hk
  simp at hk

theorem toList_perm {α : Type} {m : Map String α} {k : String} {x : α} (h : m[k]? = some x) :
    m.toList.Perm ((k, x) :: (m.erase k).toList) := by
  have hd (m : Map String α) : m.toList.Nodup := .of_map Prod.fst (nodup_keys_toList m)
  have hk : (k, x) ∉ (m.erase k).toList := by
    rw [Std.ExtTreeMap.mem_toList_iff_getElem?_eq_some]
    simp
  refine (List.perm_ext_iff_of_nodup (hd m) (List.nodup_cons.2 ⟨hk, hd _⟩)).2 fun item => ?_
  obtain ⟨k', x'⟩ := item
  rw [List.mem_cons, Std.ExtTreeMap.mem_toList_iff_getElem?_eq_some,
    Std.ExtTreeMap.mem_toList_iff_getElem?_eq_some, Prod.mk.injEq]
  grind

theorem holdings_perm (h : s.machine? name = some c) (a : Address) :
    (s.holdings a).Perm ((c.holding? a).toList ++ s.others name a) := by
  obtain ⟨b, hb, rfl⟩ := Option.map_eq_some_iff.1 h
  refine ((toList_perm hb).filterMap _).trans ?_
  rw [List.filterMap_cons, others]
  cases (⟨b, s.outside⟩ : Machine).holding? a <;> rfl

theorem others_put (s : Session) (name : String) (c : Machine) (a : Address) :
    (s.put name c).others name a = s.others name a := by
  have he : (s.bridges.insert name c.bridge).erase name = s.bridges.erase name := by
    ext1 k
    grind
  simp only [others, put, he]
  rfl

/-- A bridge without entries makes no difference. -/
theorem holdings_insert_perm {b : Bridge} {o : Outside} {n : Nat}
    (hn : s.bridges.contains name = false) (hb : b.memory.cache.weak = ∅) (a : Address) :
    (holdings { outside := o, bridges := s.bridges.insert name b, nextSerial := n } a).Perm
      (s.holdings a) := by
  have he : (s.bridges.insert name b).erase name = s.bridges := by
    ext1 k
    grind
  have hp := toList_perm (m := s.bridges.insert name b) (k := name) (x := b)
    Std.ExtTreeMap.getElem?_insert_self
  rw [he] at hp
  have hh : (⟨b, o⟩ : Machine).holding? a = none := by
    rw [Machine.holding?_eq_none_iff]
    simp [Machine.cache, hb]
  refine (hp.filterMap _).trans ?_
  rw [List.filterMap_cons, hh]
  exact .refl _

theorem outside_of_machine? (h : s.machine? name = some c) : c.outside = s.outside := by
  obtain ⟨b, -, rfl⟩ := Option.map_eq_some_iff.1 h
  rfl

theorem mem_holdings {h : Holding} : h ∈ s.holdings a ↔
    ∃ name c, s.machine? name = some c ∧ c.holding? a = some h := by
  simp only [holdings, List.mem_filterMap, Prod.exists, machine?, Option.map_eq_some_iff,
    Std.ExtTreeMap.mem_toList_iff_getElem?_eq_some]
  constructor
  · rintro ⟨name, b, hb, hh⟩
    exact ⟨name, _, ⟨b, hb, rfl⟩, hh⟩
  · rintro ⟨name, _, ⟨b, hb, rfl⟩, hh⟩
    exact ⟨name, b, hb, hh⟩

theorem mem_others {h : Holding} : h ∈ s.others name a ↔
    ∃ name' c, name' ≠ name ∧ s.machine? name' = some c ∧ c.holding? a = some h := by
  simp only [others, List.mem_filterMap, Prod.exists, machine?, Option.map_eq_some_iff,
    Std.ExtTreeMap.mem_toList_iff_getElem?_eq_some]
  constructor
  · rintro ⟨name', b, hb, hh⟩
    exact ⟨name', _, by grind, ⟨b, by grind, rfl⟩, hh⟩
  · rintro ⟨name', _, hn, ⟨b, hb, rfl⟩, hh⟩
    exact ⟨name', b, by grind, hh⟩

end Session

/-- A visit holds nothing that was reclaimed. -/
structure Visit.Held (v : Visit) (h : Heap) : Prop where
  vars : ∀ (name : String) (x : Value), v.vars[name]? = some x → h.Knows x
  given : ∀ n ∈ v.given, h.holds n

namespace World

/-! ## What a move does -/

/-- What a step that is no visit does to the bridge that it works on. -/
inductive Tends (c : Machine) : Step → Machine → Prop
  | catchUp (name : String) : Tends c (.catchUp name) c.catchUp
  | collect (name : String) : Tends c (.collect name) c.collect
  | unstash (name stash : String) :
    Tends c (.unstash name stash) (c.setMemory (c.memory.unroot stash).1)
  | register (name : String) (d : Descriptor) : Tends c (.register name d) (c.register d)
  | catalog (name : String) (q : CatalogStep) : Tends c (.catalog name q) (q.run c).1

/-- The world after a move, by what the move is. -/
inductive Becomes (w : World) : Move → World → Prop
  /-- The move is not possible. -/
  | idle (m : Move) : Becomes w m w
  | enter {name : String} {c : Machine} : w.session.machine? name = some c →
    Becomes w (.enter name)
      { w with
        session := w.session.put name c.catchUp
        visits := w.visits.insert name { } }
  | act {name : String} {s : Scope} (a : Action) : w.scope? name = some s →
    Becomes w (.act name a)
      { session := w.session.put name (a.run s).1.machine
        visits := w.visits.modify name fun v =>
          { vars := (a.run s).1.vars, given := v.given ++ (a.run s).2.nodes }
        owned := a.settle s w.owned }
  | leave {name : String} {s : Scope} : w.scope? name = some s →
    Becomes w (.leave name)
      { w with
        session := w.session.put name s.machine.leave
        visits := w.visits.erase name }
  | tend {name : String} {c c' : Machine} {t : Step} : t.bridge? = some name →
    w.session.machine? name = some c → w.visits.contains name = false → Tends c t c' →
    Becomes w (.step t) { w with session := w.session.put name c' }
  | «open» {name : String} (settings : Settings) (responder : Responder) (ancestorsOnly : Bool) :
    w.session.bridges.contains name = false →
    Becomes w (.step (.open name settings responder ancestorsOnly))
      { w with
        session :=
          { outside := w.session.outside.setMailbox w.session.nextSerial { }
            bridges := w.session.bridges.insert name
              { serial := w.session.nextSerial, settings, responder, ancestorsOnly }
            nextSerial := w.session.nextSerial + 1 } }
  | close {name : String} {c : Machine} : w.session.machine? name = some c →
    w.visits.contains name = false →
    Becomes w (.step (.close name))
      { w with
        session :=
          { w.session with outside := c.close.outside, bridges := w.session.bridges.erase name } }
  | host (h : HostStep) :
    Becomes w (.step (.host h))
      { w with
        session := { w.session with outside := (h.run w.session.outside).1 }
        owned := h.settle w.session.outside w.owned }
  | reuse {a : Address} (t : TypeId) (floating : Bool) : w.session.outside.host.isAlive a = false →
    Becomes w (.reuse a t floating)
      { w with
        session :=
          { w.session with
            outside :=
              { w.session.outside with host := w.session.outside.host.create a t floating } }
        owned := w.owned.start a floating }

variable {w : World}

theorem next_of_isFree {t : Step} : w.isFree t → w.next (.step t) =
    { w with
      session := (w.session.step t).1
      owned := match t with
        | .host h => h.settle w.session.outside w.owned
        | _ => w.owned } :=
  fun hf => if_pos hf

theorem next_of_not_isFree {t : Step} (hf : w.isFree t = false) : w.next (.step t) = w :=
  if_neg (by simp [hf])

theorem becomes_withMachine {name : String} {t : Step} {k : Machine → Machine × Answer}
    (hb : t.bridge? = some name) (hv : w.visits.contains name = false)
    (hk : ∀ c, Tends c t (k c).1) :
    w.Becomes (.step t) { w with session := (w.session.withMachine name k).1 } := by
  rw [Session.withMachine]
  cases hc : w.session.machine? name with
  | none => exact .idle _
  | some c => exact .tend hb hc hv (hk c)

theorem becomes_next (w : World) (m : Move) : w.Becomes m (w.next m) := by
  cases m with
  | enter name =>
    rw [next]
    split_ifs
    · exact .idle _
    · rw [Session.beginVisit]
      cases hc : w.session.machine? name with
      | none => exact .idle _
      | some c => exact .enter hc
  | act name a =>
    cases hs : w.scope? name with
    | none =>
      rw [next, hs]
      exact .idle _
    | some s =>
      rw [next_act hs]
      exact .act a hs
  | leave name =>
    cases hs : w.scope? name with
    | none =>
      rw [next, hs]
      exact .idle _
    | some s =>
      rw [next_leave hs]
      exact .leave hs
  | reuse a t floating =>
    rw [next]
    split_ifs with ha
    · exact .idle _
    · exact .reuse t floating (by simpa using ha)
  | step t =>
    cases hf : w.isFree t with
    | false =>
      rw [next_of_not_isFree hf]
      exact .idle _
    | true =>
      obtain ⟨hvisit, hv⟩ := isFree_iff.1 hf
      rw [next_of_isFree hf]
      cases t with
      | enter name actions => cases hvisit
      | «open» name settings responder ancestorsOnly =>
        have ho : (w.session.step (.open name settings responder ancestorsOnly)).1 =
            (w.session.openBridge name settings responder ancestorsOnly).1 := rfl
        rw [ho, Session.openBridge]
        split_ifs with hn
        · exact .idle _
        · exact .open settings responder ancestorsOnly (Bool.eq_false_iff.2 hn)
      | close name =>
        have ho : (w.session.step (.close name)).1 = (w.session.closeBridge name).1 := rfl
        rw [ho, Session.closeBridge]
        cases hc : w.session.machine? name with
        | none => exact .idle _
        | some c => exact .close hc (hv name rfl)
      | catchUp name => exact becomes_withMachine rfl (hv name rfl) fun c => .catchUp name
      | collect name => exact becomes_withMachine rfl (hv name rfl) fun c => .collect name
      | unstash name stash => exact becomes_withMachine rfl (hv name rfl) fun c => .unstash name stash
      | register name d => exact becomes_withMachine rfl (hv name rfl) fun c => .register name d
      | catalog name q => exact becomes_withMachine rfl (hv name rfl) fun c => .catalog name q
      | host h => exact .host h

/-! ## Sound worlds -/

/-- The bridges are sound and have different serial numbers, and so are registrations and visits. -/
structure Sound (w : World) : Prop where
  machines : ∀ (name : String) (b : Bridge), w.session.bridges[name]? = some b →
    Machine.Sound ⟨b, w.session.outside⟩
  serial_lt : ∀ (name : String) (b : Bridge), w.session.bridges[name]? = some b →
    b.serial < w.session.nextSerial
  distinct : ∀ (name name' : String) (b b' : Bridge), w.session.bridges[name]? = some b →
    w.session.bridges[name']? = some b' → b.serial = b'.serial → name = name'
  unopened : ∀ s : Nat, w.session.nextSerial ≤ s → w.session.outside.mailboxes[s]? = none
  fresh : w.session.outside.Fresh
  written : w.session.outside.Written
  visits : ∀ (name : String) (v : Visit), w.visits[name]? = some v →
    ∃ b, w.session.bridges[name]? = some b ∧ v.Held b.memory.heap

theorem sound_empty : Sound { } := by
  refine ⟨?_, ?_, ?_, ?_, ⟨?_, ?_⟩, ?_, ?_⟩ <;>
    simp [Host.watchers, Host.counts?, Outside.Written, Outside.callsFor]

namespace Sound

variable (h : w.Sound) {name : String} {c c' : Machine}
include h

theorem machine (hc : w.session.machine? name = some c) : c.Sound := by
  obtain ⟨b, hb, rfl⟩ := Option.map_eq_some_iff.1 hc
  exact h.machines name b hb

theorem scope {s : Scope} (hs : w.scope? name = some s) : s.Sound := by
  refine ⟨h.machine (machine?_of_scope? hs), fun n v hv => ?_⟩
  simp only [scope?, Option.bind_eq_some_iff, Option.map_eq_some_iff] at hs
  obtain ⟨u, hu, c, hc, rfl⟩ := hs
  obtain ⟨b, hb, hheld⟩ := h.visits name u hu
  obtain ⟨b', hb', rfl⟩ := Option.map_eq_some_iff.1 hc
  cases hb.symm.trans hb'
  exact hheld.vars n v hv

theorem held {s : Scope} (hs : w.scope? name = some s) {v : Visit} (hv : w.visits[name]? = some v) :
    ∀ n ∈ v.given, s.machine.heap.holds n := by
  obtain ⟨b, hb, hheld⟩ := h.visits name v hv
  obtain ⟨b', hb', he⟩ := Option.map_eq_some_iff.1 (machine?_of_scope? hs)
  cases hb.symm.trans hb'
  rw [← he]
  exact hheld.given

/-- A bridge goes on, and visits of other bridges are left alone. -/
theorem put (hc : w.session.machine? name = some c) (hs : c'.bridge.serial = c.bridge.serial)
    (hg : c.outside.Grows c'.outside) (hc' : c'.Sound) {vs : Map String Visit}
    (hv : ∀ n v, vs[n]? = some v →
      (n = name ∧ v.Held c'.heap) ∨ (n ≠ name ∧ w.visits[n]? = some v)) (l : Ledger) :
    Sound { session := w.session.put name c', visits := vs, owned := l } := by
  obtain ⟨b, hb, rfl⟩ := Option.map_eq_some_iff.1 hc
  have hput {n : String} {b' : Bridge}
      (hb' : (w.session.bridges.insert name c'.bridge)[n]? = some b') :
      (n = name ∧ b' = c'.bridge) ∨ (n ≠ name ∧ w.session.bridges[n]? = some b') := by
    grind
  refine ⟨fun n b' hb' => ?_, fun n b' hb' => ?_, fun n n' b₁ b₂ hb₁ hb₂ he => ?_, fun s hs => ?_,
    hg.fresh h.fresh, hg.written h.written, fun n v hn => ?_⟩
  · rcases hput hb' with ⟨rfl, rfl⟩ | ⟨-, hb'⟩
    · exact hc'
    · exact (h.machines n b' hb').grows hg
  · rcases hput hb' with ⟨rfl, rfl⟩ | ⟨-, hb'⟩
    · exact hs ▸ h.serial_lt n b hb
    · exact h.serial_lt n b' hb'
  · rcases hput hb₁ with ⟨rfl, rfl⟩ | ⟨-, hn⟩ <;> rcases hput hb₂ with ⟨rfl, rfl⟩ | ⟨-, hn'⟩
    · rfl
    · exact h.distinct n n' b b₂ hb hn' (hs.symm.trans he)
    · exact h.distinct n n' b₁ b hn hb (he.trans hs)
    · exact h.distinct n n' b₁ b₂ hn hn' he
  · exact hg.unopened s (h.unopened s hs)
  · rcases hv n v hn with ⟨rfl, hheld⟩ | ⟨hne, hn⟩
    · exact ⟨c'.bridge, Std.ExtTreeMap.getElem?_insert_self, hheld⟩
    · obtain ⟨b', hb', hheld⟩ := h.visits n v hn
      exact ⟨b', by simp only [Session.put]; grind, hheld⟩

/-- What is outside goes on, and all bridges are left alone. -/
theorem outside {o : Outside} (hg : w.session.outside.Grows o) (l : Ledger) :
    Sound { w with session := { w.session with outside := o }, owned := l } :=
  ⟨fun n b hb => (h.machines n b hb).grows hg, h.serial_lt, h.distinct,
    fun s hs => hg.unopened s (h.unopened s hs), hg.fresh h.fresh, hg.written h.written, h.visits⟩

theorem close (hc : w.session.machine? name = some c) (hv : w.visits.contains name = false) :
    Sound
      { w with
        session :=
          { w.session with outside := c.close.outside, bridges := w.session.bridges.erase name } } := by
  obtain ⟨b, hb, rfl⟩ := Option.map_eq_some_iff.1 hc
  have hg := (Machine.evolves_close (h.machines name b hb)).grows
  have herase {n : String} {b' : Bridge} (hb' : (w.session.bridges.erase name)[n]? = some b') :
      w.session.bridges[n]? = some b' := by
    grind
  refine ⟨fun n b' hb' => (h.machines n b' (herase hb')).grows hg,
    fun n b' hb' => h.serial_lt n b' (herase hb'),
    fun n n' b₁ b₂ hb₁ hb₂ he => h.distinct n n' b₁ b₂ (herase hb₁) (herase hb₂) he,
    fun s hs => hg.unopened s (h.unopened s hs), hg.fresh h.fresh, hg.written h.written,
    fun n v hn => ?_⟩
  obtain ⟨b', hb', hheld⟩ := h.visits n v hn
  have hne := Session.ne_of_contains hv hn
  exact ⟨b', by grind, hheld⟩

theorem «open» (hn : w.session.bridges.contains name = false) (settings : Settings)
    (responder : Responder) (ancestorsOnly : Bool) :
    Sound
      { w with
        session :=
          { outside := w.session.outside.setMailbox w.session.nextSerial { }
            bridges := w.session.bridges.insert name
              { serial := w.session.nextSerial, settings, responder, ancestorsOnly }
            nextSerial := w.session.nextSerial + 1 } } := by
  have hnew := h.unopened _ (Nat.le_refl _)
  have hput {n : String} {b b₀ : Bridge} (hb : (w.session.bridges.insert name b₀)[n]? = some b) :
      (n = name ∧ b = b₀) ∨ (n ≠ name ∧ w.session.bridges[n]? = some b) := by
    grind
  have hlt {n : String} {b : Bridge} (hb : w.session.bridges[n]? = some b) :
      b.serial ≠ w.session.nextSerial := Nat.ne_of_lt (h.serial_lt n b hb)
  refine ⟨fun n b hb => ?_, fun n b hb => ?_, fun n n' b₁ b₂ hb₁ hb₂ he => ?_, fun s hs => ?_,
    Outside.fresh_open h.fresh hnew, h.written, fun n v hv => ?_⟩
  · rcases hput hb with ⟨rfl, rfl⟩ | ⟨-, hb⟩
    · exact ⟨Memory.sound_empty, { }, Std.ExtTreeMap.getElem?_insert_self⟩
    · obtain ⟨hm, m, hbox⟩ := h.machines n b hb
      have hne := hlt hb
      exact ⟨hm, m, by simp only [Outside.setMailbox] at hbox ⊢; grind⟩
  · rcases hput hb with ⟨rfl, rfl⟩ | ⟨-, hb⟩
    · exact Nat.lt_succ_self _
    · exact Nat.lt_succ_of_lt (h.serial_lt n b hb)
  · rcases hput hb₁ with ⟨rfl, rfl⟩ | ⟨-, hn₁⟩ <;> rcases hput hb₂ with ⟨rfl, rfl⟩ | ⟨-, hn₂⟩
    · rfl
    · exact absurd he.symm (hlt hn₂)
    · exact absurd he (hlt hn₁)
    · exact h.distinct n n' b₁ b₂ hn₁ hn₂ he
  · have hs' := h.unopened s (Nat.le_of_succ_le hs)
    have hne : s ≠ w.session.nextSerial := Nat.ne_of_gt hs
    simp only [Outside.setMailbox]
    grind
  · obtain ⟨b, hb, hheld⟩ := h.visits n v hv
    have hne := Session.ne_of_contains hn hb
    exact ⟨b, by grind, hheld⟩

omit h in
theorem tends {t : Step} (hc : c.Sound) (ht : Tends c t c') :
    c'.bridge.serial = c.bridge.serial ∧ c.outside.Evolves c'.outside ∧ c'.Sound := by
  cases ht with
  | catchUp name =>
    have hk := Machine.alike_catchUp hc
    exact ⟨hk.serial, hk.outside, hc.catchUp⟩
  | collect name =>
    have hk := Machine.alike_collect hc
    exact ⟨hk.serial, hk.outside, hc.collect⟩
  | unstash name stash => exact ⟨rfl, .refl _, hc.memory.unroot stash, hc.mailbox⟩
  | register name d => exact ⟨rfl, .refl _, hc.memory, hc.mailbox⟩
  | catalog name q =>
    have hr := Machine.recalls_catalogStep c q
    exact ⟨hr.alike.serial, hr.alike.outside, hc.recalls hr⟩

/-- Every move keeps a world sound. -/
theorem next (m : Move) : (w.next m).Sound := by
  have hb := w.becomes_next m
  generalize w.next m = w' at hb
  cases hb with
  | idle => exact h
  | @enter name c hc =>
    have hm := h.machine hc
    have hk := Machine.alike_catchUp hm
    refine h.put hc hk.serial hk.outside.grows hm.catchUp (fun n v hv => ?_) _
    by_cases hn : n = name
    · rw [hn, Std.ExtTreeMap.getElem?_insert_self] at hv
      cases hv
      exact .inl ⟨hn, by simp, by simp⟩
    · exact .inr ⟨hn, by grind⟩
  | @act name s a hs =>
    have hst := Action.run_spec (h.scope hs) a
    refine h.put (machine?_of_scope? hs) hst.serial hst.grows hst.sound.machine (fun n v hv => ?_) _
    by_cases hn : n = name
    · rw [hn, Std.ExtTreeMap.getElem?_modify_self] at hv
      obtain ⟨u, hu, rfl⟩ := Option.map_eq_some_iff.1 hv
      refine .inl ⟨hn, hst.sound.vars, fun m hm => ?_⟩
      rcases List.mem_append.1 hm with hm | hm
      · exact hst.sub m (h.held hs hu m hm)
      · exact hst.nodes m hm
    · exact .inr ⟨hn, by grind⟩
  | leave hs =>
    have hm := (h.scope hs).machine
    have hk := Machine.alike_leave hm
    refine h.put (machine?_of_scope? hs) hk.serial hk.outside.grows hm.leave (fun n v hv => ?_) _
    exact .inr (by grind)
  | tend hn hc hv ht =>
    obtain ⟨hs, hg, hc'⟩ := tends (h.machine hc) ht
    exact h.put hc hs hg.grows hc' (fun n v hn => .inr ⟨Session.ne_of_contains hv hn, hn⟩) _
  | «open» settings responder ancestorsOnly hn => exact h.open hn settings responder ancestorsOnly
  | close hc hv => exact h.close hc hv
  | host t => exact h.outside (HostStep.grows_run _ t) _
  | reuse t floating => exact h.outside (Outside.grows_create _ _ t floating) _

theorem run (ms : List Move) : (w.run ms).Sound :=
  Along.preserves (fun _ m hw _ => hw.next m) (along_true w ms) h

end Sound

/-! ## The account of an object -/

/-- The account of an object with the entries of all bridges; what is loose is owned by the code around
them. -/
def account (w : World) (a : Address) : Account :=
  w.session.outside.account a (w.owned a) (w.session.holdings a)

/-- How many bridges have an entry for an object. -/
def holders (w : World) (a : Address) : Nat :=
  w.session.bridges.toList.countP fun item => item.2.memory.cache.contains a

theorem length_holdings (w : World) (a : Address) :
    (w.session.holdings a).length = w.holders a := by
  rw [Session.holdings, List.length_filterMap_eq_countP]
  refine List.countP_congr fun item _ => ?_
  rw [Machine.holding?, Option.isSome_map, ProxyCache.contains,
    Std.ExtTreeMap.contains_eq_isSome_getElem?]
  rfl

theorem kept_empty (fair : Bool) (a : Address) : (account { } a).Kept fair := by
  refine .of_unborn ?_ rfl ?_
  · simp [account, Outside.account, Host.counts?]
  · simp [account, Outside.account, Session.holdings]

/-- What keeps the account of an object in order during a move.  All references behind its entries can
be given back, actions and steps on the host heed the object, and no instance is made at its address
while bridges have entries for it. -/
structure Heeds (fair : Bool) (tied : Host → Address → Nat) (w : World) (m : Move) (a : Address) :
    Prop where
  returns : ∀ name c, w.session.machine? name = some c → c.Returns fair a
  acts : ∀ name action s, m = .act name action → w.scope? name = some s →
    action.Heeds fair tied s w.owned a
  hosts : ∀ h, m = .step (.host h) → h.Affords tied w.session.outside w.owned
  tied : fair → (w.account a).recorded ≤ tied w.session.outside.host a
  reuse : ∀ t floating, m = .reuse a t floating → w.session.outside.host.isAlive a = false →
    w.session.holdings a = []

variable {fair : Bool} {a : Address} {name : String} {c c' : Machine}

theorem Sound.serial_not_mem_others (h : w.Sound) (hc : w.session.machine? name = some c)
    (a : Address) : c.bridge.serial ∉ (w.session.others name a).map Holding.serial := by
  intro hm
  obtain ⟨e, he, hs⟩ := List.mem_map.1 hm
  obtain ⟨name', c', hn, hc', hh⟩ := Session.mem_others.1 he
  obtain ⟨b, hb, rfl⟩ := Option.map_eq_some_iff.1 hc
  obtain ⟨b', hb', rfl⟩ := Option.map_eq_some_iff.1 hc'
  exact hn (h.distinct name' name b' b hb' hb ((Machine.serial_of_holding? hh).symm.trans hs))

theorem kept_machine (hc : w.session.machine? name = some c) (hx : (w.account a).Kept fair) :
    (c.account a (w.owned a) (w.session.others name a)).Kept fair := by
  have hp := Session.holdings_perm hc a
  obtain ⟨b, hb, rfl⟩ := Option.map_eq_some_iff.1 hc
  exact hx.of_perm rfl rfl rfl hp.symm

theorem kept_put {l : Ledger} {vs : Map String Visit}
    (hx : (c'.account a (l a) (w.session.others name a)).Kept fair) :
    (account { session := w.session.put name c', visits := vs, owned := l } a).Kept fair := by
  have hp := Session.holdings_perm (Session.machine?_put w.session name c') a
  rw [Session.others_put] at hp
  exact hx.of_perm rfl rfl rfl hp

theorem kept_tends {t : Step} {l : Nat} {hs : List Holding} (hc : c.Sound) (ht : Tends c t c')
    (hne : c.bridge.serial ∉ hs.map Holding.serial) (hr : c.Returns fair a)
    (hx : (c.account a l hs).Kept fair) : (c'.account a l hs).Kept fair := by
  cases ht with
  | catchUp name => exact hx.deeds (Machine.deeds_catchUp hc a l hne)
  | collect name => exact hx.deeds (Machine.deeds_collect hc a l hne hr)
  | unstash name stash => exact hx
  | register name d => exact hx
  | catalog name q =>
    rw [(Machine.recalls_catalogStep c q).quiet.account]
    exact hx

/-- A new instance at an address without entries has its first reference only. -/
theorem kept_reuse (hh : w.session.holdings a = []) (t : TypeId) (floating : Bool) :
    (account
      { w with
        session :=
          { w.session with
            outside :=
              { w.session.outside with host := w.session.outside.host.create a t floating } }
        owned := w.owned.start a floating } a).Kept fair := by
  have hu : Account.Kept fair ⟨none, w.session.outside.boxes a, 0, []⟩ := .of_unborn rfl rfl rfl
  refine (hu.deeds (.single (.create floating rfl rfl))).of_perm ?_ rfl ?_ (.of_eq hh)
  · exact Host.counts?_create_self _ a t floating
  · exact Ledger.start_self _ a floating

/-- A move keeps the account of every object that it heeds. -/
theorem kept_next {tied : Host → Address → Nat} {m : Move} (h : w.Sound)
    (hx : (w.account a).Kept fair) (hm : w.Heeds fair tied m a) :
    ((w.next m).account a).Kept fair := by
  have hb := w.becomes_next m
  generalize w.next m = w' at hb
  cases hb with
  | idle => exact hx
  | enter hc =>
    have hne := h.serial_not_mem_others hc a
    exact kept_put ((kept_machine hc hx).deeds (Machine.deeds_catchUp (h.machine hc) a _ hne))
  | @act name s action hs =>
    have hc := machine?_of_scope? hs
    have hne := h.serial_not_mem_others hc a
    have hk := kept_machine hc hx
    have ho := Session.outside_of_machine? hc
    refine kept_put (hk.deeds (Action.deeds_run (h.scope hs) (ho ▸ h.fresh) action hne hk
      (hm.returns _ _ hc) (hm.acts _ _ s rfl hs) fun hf => ?_))
    have ht : (w.session.outside.account a (w.owned a) (w.session.holdings a)).recorded ≤
        tied w.session.outside.host a := hm.tied hf
    rw [← ho] at ht
    exact ht
  | leave hs =>
    have hc := machine?_of_scope? hs
    have hne := h.serial_not_mem_others hc a
    exact kept_put ((kept_machine hc hx).deeds
      (Machine.deeds_leave (h.machine hc) a _ hne (hm.returns _ _ hc)))
  | tend hn hc hv ht =>
    have hne := h.serial_not_mem_others hc a
    exact kept_put (kept_tends (h.machine hc) ht hne (hm.returns _ _ hc) (kept_machine hc hx))
  | @«open» name settings responder ancestorsOnly hn =>
    have hd : Deed fair (w.account a)
        ((w.session.outside.setMailbox w.session.nextSerial { }).account a (w.owned a)
          (w.session.holdings a)) := by
      rw [Outside.account, Outside.boxes_setMailbox]
      refine .open w.session.nextSerial fun hs => ?_
      obtain ⟨e, he, hs⟩ := List.mem_map.1 hs
      obtain ⟨n, c, hc, hh⟩ := Session.mem_holdings.1 he
      obtain ⟨b, hb, rfl⟩ := Option.map_eq_some_iff.1 hc
      have hlt := h.serial_lt n b hb
      rw [← hs, Machine.serial_of_holding? hh] at hlt
      exact Nat.lt_irrefl _ hlt
    refine (hx.deeds (.single hd)).of_perm rfl rfl rfl ?_
    exact Session.holdings_insert_perm hn rfl a
  | close hc hv =>
    have hne := h.serial_not_mem_others hc a
    exact (kept_machine hc hx).deeds
      (Machine.deeds_close (h.machine hc) a _ hne (hm.returns _ _ hc))
  | host t => exact hx.deeds (HostStep.deeds_run t hx (hm.hosts t rfl) hm.tied)
  | @reuse b t floating ha =>
    by_cases hb : a = b
    · subst hb
      exact kept_reuse (hm.reuse t floating rfl ha) t floating
    · refine hx.of_perm ?_ rfl ?_ (.refl _)
      · exact Host.counts?_create_of_ne hb _ t floating
      · exact Ledger.start_of_ne hb _ floating

end World

end NativeProxies
