import NativeProxies.Proofs.Registration

/-!
# Registrations of all bridges

In every run where registrations in caches are in the lists of their objects, the journal tells about
each registration ever used that an entry of an open bridge has it now, or that it was added to an object
once and removed from it once (`World.Recorded`).  So a registration in the list of an object is that of an
entry, and a bridge that was closed left none behind (`Outside.Settled.not_mem`).
-/

namespace NativeProxies

namespace Outside

variable {o : Outside} {s : Nat} {g : Generation} {a : Address}

/-- A settled registration is in no list. -/
theorem Settled.not_mem (h : o.Settled s g) (hw : o.Written) (a : Address) :
    .bridge s g ∉ o.host.watchers a := by
  intro hm
  have hc := hw a s g
  have hpos := List.count_pos_iff.2 hm
  rcases h with h | ⟨b, h⟩
  · rw [h] at hc
    exact absurd (hpos.trans_le (Nat.le_of_add_right_le hc)) (Nat.lt_irrefl 0)
  · rw [h] at hc
    simp only [List.countP_cons, List.countP_nil, Call.addition, Call.removal, Call.adds, Call.removes,
      Bool.not_false, Bool.and_true, Bool.false_eq_true, if_false, beq_iff_eq] at hc
    omega

/-- A registration that was added to an object is at most once in its list, and in no other. -/
theorem Added.count_le (h : o.Added s g a) (hw : o.Written) (b : Address) :
    (o.host.watchers b).count (.bridge s g) ≤ if a = b then 1 else 0 := by
  have hc := hw b s g
  rw [show o.callsFor s g = [.addition s g a] from h] at hc
  simp only [List.countP_cons, List.countP_nil, Call.addition, Call.adds, Call.removes,
    Bool.false_eq_true, if_false, beq_iff_eq] at hc
  omega

end Outside

namespace Machine

variable {c : Machine} {o : Outside}

/-- What others do outside does not matter to the registrations of a bridge. -/
theorem Recorded.outside (hr : c.Recorded) (hc : c.Sound) (hg : c.outside.Grows o)
    (hj : ∀ g, o.callsFor c.bridge.serial g = c.outside.callsFor c.bridge.serial g) :
    Recorded ⟨c.bridge, o⟩ :=
  hr.of_eq rfl (hc.nextGeneration_le rfl hg) rfl hj

end Machine

namespace Action

variable {s : Scope}

/-- Every action but a step on the host does outside only what its bridge does there. -/
theorem acts_run (h : s.Sound) (a : Action) :
    s.machine.Acts (a.run s).1.machine ∨ ∃ t, a = .host t := by
  have hm := h.machine
  rcases run_cases h a with ⟨hq, -⟩ | ⟨x, rfl⟩ | rfl | ⟨b, handedOver, name, rfl, -, he⟩ |
    ⟨e, s', v, rfl, hq, he⟩ | ⟨t, rfl⟩
  · exact .inl (Machine.acts_of_eq hq.machine.serial hq.machine.outside)
  · exact .inl (s.machine.toggles_applyNotification x).acts
  · exact .inl s.machine.acts_catchUp
  · rw [he, machine_afterValue]
    exact .inl (Machine.acts_wrap hm b handedOver)
  · rw [he]
    exact .inl ((Machine.acts_of_eq hq.machine.serial hq.machine.outside).trans (s'.machine.acts_dismiss v))
  · exact .inr ⟨t, rfl⟩

/-- No action makes calls for the registrations of another bridge. -/
theorem callsFor_run (h : s.Sound) (a : Action) {n : Nat} (hn : n ≠ s.machine.bridge.serial)
    (g : Generation) :
    (a.run s).1.machine.outside.callsFor n g = s.machine.outside.callsFor n g := by
  rcases acts_run h a with ha | ⟨t, rfl⟩
  · exact ha.outside.callsFor hn g
  · exact Outside.callsFor_of_journal (HostStep.journal_run _ t) n g

theorem recorded_run (h : s.Sound) (hr : s.machine.Recorded) (ha : s.machine.Attached) (a : Action) :
    (a.run s).1.machine.Recorded := by
  have hm := h.machine
  have hquiet {c : Machine} (hq : s.machine.Quiet c) : c.Recorded := by
    refine hr.of_eq hq.serial (hq.alike.nextGeneration_le hm) ?_ fun g => ?_
    · rw [hq.cache]
    · rw [hq.outside]
  rcases run_cases h a with ⟨hq, -⟩ | ⟨x, rfl⟩ | rfl | ⟨b, handedOver, name, rfl, hb, he⟩ |
    ⟨e, s', v, rfl, hq, he⟩ | ⟨t, rfl⟩
  · exact hquiet hq.machine
  · have ht := s.machine.toggles_applyNotification x
    exact hr.of_eq ht.serial (ht.alike.nextGeneration_le hm) ht.weak fun g =>
      Outside.callsFor_of_journal (congrArg Outside.journal ht.outside) _ g
  · exact hr.frees ha (Machine.alike_catchUp hm) hm s.machine.frees_catchUp
  · rw [he, machine_afterValue]
    exact hr.wrap hm hb handedOver
  · have hs := hq.sound.machine
    have ha' : s'.machine.Attached := by
      intro b x g hx hg
      have hh : s'.machine.host = s.machine.host := congrArg Outside.host hq.machine.outside
      rw [hq.machine.alike.types, hh, hq.machine.serial]
      exact ha b x g (hq.machine.cache ▸ hx) hg
    rw [he]
    exact (hquiet hq.machine).frees ha' (Machine.alike_dismiss hs v) hs (Machine.frees_dismiss hs v)
  · exact hr.outside hm (HostStep.grows_run _ t) fun g =>
      Outside.callsFor_of_journal (HostStep.journal_run _ t) _ g

end Action

namespace World

variable {w : World} {name : String} {c c' : Machine}

/-- The journal tells about every registration of every bridge what the caches say of it. -/
structure Recorded (w : World) : Prop where
  machines : ∀ name c, w.session.machine? name = some c → c.Recorded
  unopened : ∀ s g, w.session.nextSerial ≤ s → w.session.outside.callsFor s g = []
  closed : ∀ s g, (∀ name c, w.session.machine? name = some c → c.bridge.serial ≠ s) →
    w.session.outside.Settled s g

theorem recorded_empty : Recorded { } := by
  refine ⟨fun name c hc => ?_, fun s g _ => rfl, fun s g _ => .inl rfl⟩
  simp [Session.machine?] at hc

/-- A bridge goes on. -/
theorem Recorded.put (hr : w.Recorded) (h : w.Sound) (hc : w.session.machine? name = some c)
    (hs : c'.bridge.serial = c.bridge.serial) (hg : c.outside.Grows c'.outside)
    (hj : ∀ s g, s ≠ c.bridge.serial → c'.outside.callsFor s g = c.outside.callsFor s g)
    (hc' : c'.Recorded) {w' : World} (hw : w'.session = w.session.put name c') : w'.Recorded := by
  obtain ⟨b, hb, rfl⟩ := Option.map_eq_some_iff.1 hc
  have hout : w'.session.outside = c'.outside := by rw [hw]; rfl
  have hself : w'.session.machine? name = some c' := hw ▸ Session.machine?_put _ _ _
  have hother {n : String} {x : Bridge} (hn : n ≠ name) (hx : w.session.bridges[n]? = some x) :
      w'.session.machine? n = some ⟨x, c'.outside⟩ := by
    refine Option.map_eq_some_iff.2 ⟨x, ?_, by rw [hout]⟩
    rw [hw, Session.put]
    grind
  refine ⟨fun n x hx => ?_, fun s g hle => ?_, fun s g hn => ?_⟩
  · by_cases hname : n = name
    · subst hname
      cases hself.symm.trans hx
      exact hc'
    · obtain ⟨y, hy, rfl⟩ := Option.map_eq_some_iff.1 hx
      have hy : w.session.bridges[n]? = some y := by
        rw [hw, Session.put] at hy
        grind
      have hm : w.session.machine? n = some ⟨y, w.session.outside⟩ :=
        Option.map_eq_some_iff.2 ⟨y, hy, rfl⟩
      rw [hout]
      exact (hr.machines n _ hm).outside (h.machines n y hy) hg fun g =>
        hj _ g fun hse => hname (h.distinct n name y b hy hb hse)
  · have hle : w.session.nextSerial ≤ s := by
      rw [hw] at hle
      exact hle
    have hlt := h.serial_lt name b hb
    rw [hout, hj s g (Nat.ne_of_gt (hlt.trans_le hle))]
    exact hr.unopened s g hle
  · have hse : s ≠ b.serial := fun hse => hn name c' hself (hs.trans hse.symm)
    rw [hout, Outside.Settled.congr (hj s g hse)]
    refine hr.closed s g fun n x hx => ?_
    obtain ⟨y, hy, rfl⟩ := Option.map_eq_some_iff.1 hx
    by_cases hname : n = name
    · subst hname
      cases hb.symm.trans hy
      exact hse.symm
    · have hx' := hn n _ (hother hname hy)
      exact hx'

/-- What is outside goes on without calls. -/
theorem Recorded.outside (hr : w.Recorded) (h : w.Sound) {o : Outside}
    (hg : w.session.outside.Grows o) (hj : o.journal = w.session.outside.journal) (l : Ledger) :
    Recorded { w with session := { w.session with outside := o }, owned := l } := by
  have hcalls (s : Nat) (g : Generation) : o.callsFor s g = w.session.outside.callsFor s g :=
    Outside.callsFor_of_journal hj s g
  refine ⟨fun n x hx => ?_, fun s g hle => ?_, fun s g hn => ?_⟩
  · obtain ⟨b, hb, rfl⟩ := Option.map_eq_some_iff.1 hx
    exact (hr.machines n _ (Option.map_eq_some_iff.2 ⟨b, hb, rfl⟩)).outside (h.machines n b hb) hg
      fun g => hcalls _ g
  · exact (hcalls s g).trans (hr.unopened s g hle)
  · refine (Outside.Settled.congr (hcalls s g)).2 (hr.closed s g fun n x hx => ?_)
    obtain ⟨b, hb, rfl⟩ := Option.map_eq_some_iff.1 hx
    exact hn n ⟨b, o⟩ (Option.map_eq_some_iff.2 ⟨b, hb, rfl⟩)

theorem Recorded.open (hr : w.Recorded) (h : w.Sound) (hn : w.session.bridges.contains name = false)
    (settings : Settings) (responder : Responder) (ancestorsOnly : Bool) :
    Recorded
      { w with
        session :=
          { outside := w.session.outside.setMailbox w.session.nextSerial { }
            bridges := w.session.bridges.insert name
              { serial := w.session.nextSerial, settings, responder, ancestorsOnly }
            nextSerial := w.session.nextSerial + 1 } } := by
  have hput {n : String} {b b₀ : Bridge} (hb : (w.session.bridges.insert name b₀)[n]? = some b) :
      (n = name ∧ b = b₀) ∨ (n ≠ name ∧ w.session.bridges[n]? = some b) := by
    grind
  refine ⟨fun n x hx => ?_, fun s g hle => hr.unopened s g (Nat.le_of_succ_le hle), fun s g hc => ?_⟩
  · obtain ⟨b, hb, rfl⟩ := Option.map_eq_some_iff.1 hx
    rcases hput hb with ⟨rfl, rfl⟩ | ⟨-, hb⟩
    · have hnil (g : Generation) : w.session.outside.callsFor w.session.nextSerial g = [] :=
        hr.unopened _ g (Nat.le_refl _)
      refine ⟨fun g _ => hnil g, fun a e g he => ?_, fun g _ => .inl (hnil g)⟩
      simp [Machine.cache] at he
    · refine (hr.machines n _ (Option.map_eq_some_iff.2 ⟨b, hb, rfl⟩)).of_eq rfl ?_ rfl fun _ => rfl
      have hne : b.serial ≠ w.session.nextSerial := Nat.ne_of_lt (h.serial_lt n b hb)
      have hm : (w.session.outside.setMailbox w.session.nextSerial { }).mailboxes[b.serial]? =
          w.session.outside.mailboxes[b.serial]? := by
        simp only [Outside.setMailbox]
        grind
      simp only [Machine.mailbox, Outside.mailbox, hm, Nat.le_refl]
  · refine hr.closed s g fun n x hx => ?_
    obtain ⟨b, hb, rfl⟩ := Option.map_eq_some_iff.1 hx
    have hne := Session.ne_of_contains hn hb
    have hx' := hc n _ (Option.map_eq_some_iff.2 ⟨b, by grind, rfl⟩)
    exact hx'

theorem Recorded.close (hr : w.Recorded) (h : w.Sound) (hc : w.session.machine? name = some c)
    (ha : c.Attached) :
    Recorded
      { w with
        session :=
          { w.session with outside := c.close.outside, bridges := w.session.bridges.erase name } } := by
  obtain ⟨b, hb, rfl⟩ := Option.map_eq_some_iff.1 hc
  have hm := h.machines name b hb
  have hj {s : Nat} (hs : s ≠ b.serial) (g : Generation) :
      (Machine.close ⟨b, w.session.outside⟩).outside.callsFor s g =
        w.session.outside.callsFor s g := (Machine.acts_close hm).callsFor hs g
  have herase {n : String} {x : Bridge} (hx : (w.session.bridges.erase name)[n]? = some x) :
      n ≠ name ∧ w.session.bridges[n]? = some x := by
    grind
  refine ⟨fun n x hx => ?_, fun s g hle => ?_, fun s g hn => ?_⟩
  · obtain ⟨y, hy, rfl⟩ := Option.map_eq_some_iff.1 hx
    obtain ⟨hname, hy⟩ := herase hy
    refine (hr.machines n _ (Option.map_eq_some_iff.2 ⟨y, hy, rfl⟩)).outside (h.machines n y hy)
      (Machine.evolves_close hm).grows fun g => hj (fun hse => hname ?_) g
    exact h.distinct n name y b hy hb hse
  · exact (hj (Nat.ne_of_gt ((h.serial_lt name b hb).trans_le hle)) g).trans (hr.unopened s g hle)
  · by_cases hs : s = b.serial
    · rw [hs]
      exact (hr.machines name _ hc).settled_close ha hm g
    · refine (Outside.Settled.congr (hj hs g)).2 (hr.closed s g fun n x hx => ?_)
      obtain ⟨y, hy, rfl⟩ := Option.map_eq_some_iff.1 hx
      by_cases hname : n = name
      · subst hname
        cases hb.symm.trans hy
        exact Ne.symm hs
      · have hx' := hn n _ (Option.map_eq_some_iff.2 ⟨y, by grind, rfl⟩)
        exact hx'

theorem acts_tends {t : Step} (ht : Tends c t c') : c.Acts c' := by
  cases ht with
  | catchUp name => exact c.acts_catchUp
  | collect name => exact c.acts_collect
  | unstash name stash => exact Machine.acts_of_eq rfl rfl
  | register name d => exact Machine.acts_of_eq rfl rfl
  | catalog name q =>
    have hq := (Machine.recalls_catalogStep c q).quiet
    exact Machine.acts_of_eq hq.serial hq.outside

theorem recorded_tends {t : Step} (hc : c.Sound) (hr : c.Recorded) (ha : c.Attached)
    (ht : Tends c t c') : c'.Recorded := by
  cases ht with
  | catchUp name => exact hr.frees ha (Machine.alike_catchUp hc) hc c.frees_catchUp
  | collect name => exact hr.frees ha (Machine.alike_collect hc) hc c.frees_collect
  | unstash name stash => exact hr.of_eq rfl (Nat.le_refl _) rfl fun _ => rfl
  | register name d => exact hr.of_eq rfl (Nat.le_refl _) rfl fun _ => rfl
  | catalog name q =>
    have hq := (Machine.recalls_catalogStep c q).quiet
    refine hr.of_eq hq.serial (hq.alike.nextGeneration_le hc) ?_ ?_
    · rw [hq.cache]
    · exact fun g => by rw [hq.outside]

/-- Every move keeps the journal true of the registrations. -/
theorem Recorded.next (hr : w.Recorded) (h : w.Sound)
    (ha : ∀ name c, w.session.machine? name = some c → c.Attached) (m : Move) :
    (w.next m).Recorded := by
  have hb := w.becomes_next m
  generalize w.next m = w' at hb
  cases hb with
  | idle => exact hr
  | @enter name c hc =>
    have hm := h.machine hc
    have hk := Machine.alike_catchUp hm
    exact hr.put h hc hk.serial hk.outside.grows (fun s g hs => c.acts_catchUp.outside.callsFor hs g)
      ((hr.machines name c hc).frees (ha name c hc) hk hm c.frees_catchUp) rfl
  | @act name s action hs =>
    have hc := machine?_of_scope? hs
    have hsc := h.scope hs
    have hst := Action.run_spec hsc action
    exact hr.put h hc hst.serial hst.grows (fun n g hn => Action.callsFor_run hsc action hn g)
      (Action.recorded_run hsc (hr.machines _ _ hc) (ha _ _ hc) action) rfl
  | @leave name s hs =>
    have hc := machine?_of_scope? hs
    have hm := h.machine hc
    have hk := Machine.alike_leave hm
    exact hr.put h hc hk.serial hk.outside.grows
      (fun n g hn => s.machine.acts_leave.outside.callsFor hn g)
      ((hr.machines _ _ hc).frees (ha _ _ hc) hk hm s.machine.frees_leave) rfl
  | @tend name c c' t hn hc hv ht =>
    have hm := h.machine hc
    obtain ⟨hs, hg, -⟩ := Sound.tends hm ht
    exact hr.put h hc hs hg.grows (fun n g hn => (acts_tends ht).outside.callsFor hn g)
      (recorded_tends hm (hr.machines name c hc) (ha name c hc) ht) rfl
  | «open» settings responder ancestorsOnly hn => exact hr.open h hn settings responder ancestorsOnly
  | @close name c hc hv => exact hr.close h hc (ha name c hc)
  | host t => exact hr.outside h (HostStep.grows_run _ t) (HostStep.journal_run _ t) _
  | reuse t floating hdead => exact hr.outside h (Outside.grows_create _ _ t floating) rfl _

/-- In an orderly run the accounts stay balanced and the journal true. -/
theorem recorded_run {tied : Host → Address → Nat} {ms : List Move}
    (h : Along (Orderly tied) { } ms) : (run { } ms).Recorded := by
  have hp := h.preserves
    (P := fun w => w.Sound ∧ w.session.outside.host.Typed ∧ w.Balanced ∧ w.Regular ∧ w.Recorded)
    (fun w m ⟨hs, ht, hb, hr, hj⟩ hm =>
      ⟨hs.next m, (develops_next hs m).typed hm.defined ht, balanced_next hs ht hb hm,
        regular_next hs ht.object hr (spares_of_vacant ht hb hm.vacant),
        hj.next hs (fun _ _ hc => attached hb hr hc) m⟩)
    ⟨sound_empty, typed_empty, fun a _ => (kept_empty false a).balanced, regular_empty, recorded_empty⟩
  exact hp.2.2.2.2

end World

end NativeProxies
