import NativeProxies.Proofs.Releases

/-!
# The numbers of registrations

A bridge gives out no registration twice.  In every move it keeps entries, drops some, and makes new
ones with new registrations (`Machine.GoesOn`), so at any time no two entries have the same registration
(`World.numbered_run`), and one that was given back never comes again.
-/

namespace NativeProxies

namespace Machine

variable {c c' c₁ : Machine}

/-- The registrations in the cache were there before, or are new ones; none of these is in two entries
unless it was in one before. -/
def Renews (c c' : Machine) : Prop :=
  ∀ (a : Address) (g : Generation), c'.cache.generation a = some g →
    c.cache.generation a = some g ∨
      c.mailbox.nextGeneration ≤ g ∧ g < c'.mailbox.nextGeneration ∧
        ∀ b : Address, c'.cache.generation b = some g → b = a ∨ c.cache.generation b = some g

theorem renews_of_sub (hw : ∀ (a : Address) (e : CachedProxy), c'.cache.weak[a]? = some e →
    c.cache.weak[a]? = some e) : c.Renews c' := by
  intro a g hg
  obtain ⟨e, he, ht⟩ := Option.bind_eq_some_iff.1 hg
  exact .inl (Option.bind_eq_some_iff.2 ⟨e, hw a e he, ht⟩)

theorem renews_of_weak (hw : c'.cache.weak = c.cache.weak) : c.Renews c' :=
  renews_of_sub fun _ _ he => hw ▸ he

theorem Frees.renews {items : List (Address × CachedProxy)} (hf : c.Frees items c') : c.Renews c' :=
  renews_of_sub fun a e he => ((hf.weak a e).1 he).1

/-- What is done before an operation may make tables. -/
theorem Quiet.renews (hq : c.Quiet c₁) (hr : c₁.Renews c') : c.Renews c' := by
  have hm : c₁.mailbox = c.mailbox := by rw [mailbox, mailbox, hq.outside, hq.serial]
  intro a g hg
  rw [← hq.cache, ← hm]
  exact hr a g hg

theorem renews_wrap (h : c.Sound) (a : Address) (handedOver : Bool) :
    c.Renews (c.wrap a handedOver).1 := by
  rcases proxyOf?_or h.memory a with ⟨p, hp⟩ | ha
  · exact renews_of_weak (congrArg (fun m => m.cache.weak) (memory_wrap_of_some hp handedOver))
  · have hw (b : Address) : (c.wrap a handedOver).1.cache.generation b =
        if b = a then (c.registerProxy a).2 else c.cache.generation b := by
      rw [ProxyCache.generation, weak_wrap_of_none h.memory ha handedOver b]
      split_ifs <;> rfl
    intro b g hg
    rw [hw] at hg
    split_ifs at hg with hb
    · obtain ⟨rfl, hlt⟩ := generation_registerProxy h ha handedOver hg
      refine .inr ⟨Nat.le_refl _, hlt, fun b' hg' => ?_⟩
      rw [hw] at hg'
      split_ifs at hg' with hb'
      · exact .inl (hb'.trans hb.symm)
      · exact .inr hg'
    · exact .inl hg

/-- What any move makes of a bridge that stays open. -/
structure GoesOn (c c' : Machine) : Prop where
  serial : c'.bridge.serial = c.bridge.serial
  next : c.mailbox.nextGeneration ≤ c'.mailbox.nextGeneration
  renews : c.Renews c'

theorem Sound.goesOn (h : c.Sound) (hs : c'.bridge.serial = c.bridge.serial)
    (hg : c.outside.Grows c'.outside) (hr : c.Renews c') : c.GoesOn c' :=
  ⟨hs, h.nextGeneration_le hs hg, hr⟩

theorem GoesOn.refl (c : Machine) : c.GoesOn c := ⟨rfl, Nat.le_refl _, renews_of_weak rfl⟩

theorem GoesOn.trans (h₁ : c.GoesOn c₁) (h₂ : c₁.GoesOn c') : c.GoesOn c' where
  serial := h₂.serial.trans h₁.serial
  next := h₁.next.trans h₂.next
  renews a g hg := by
    rcases h₂.renews a g hg with hg₁ | ⟨hle, hlt, hone⟩
    · refine (h₁.renews a g hg₁).imp_right fun ⟨hle, hlt, hone⟩ => ⟨hle, hlt.trans_le h₂.next, ?_⟩
      exact fun b hb => hone b ((h₂.renews b g hb).resolve_right fun hb => hb.1.not_gt hlt)
    · refine .inr ⟨h₁.next.trans hle, hlt, fun b hb => (hone b hb).imp_right fun hb => ?_⟩
      exact (h₁.renews b g hb).resolve_right fun hb => hle.not_gt hb.2.1

/-- The registrations in the cache were given out, each for one object. -/
structure Numbered (c : Machine) : Prop where
  issued : ∀ (a : Address) (g : Generation), c.cache.generation a = some g →
    g < c.mailbox.nextGeneration
  distinct : ∀ (a b : Address) (g : Generation), c.cache.generation a = some g →
    c.cache.generation b = some g → a = b

theorem Numbered.goesOn (hx : c.Numbered) (h : c.GoesOn c') : c'.Numbered where
  issued a g hg := by
    rcases h.renews a g hg with hg | ⟨-, hlt, -⟩
    · exact (hx.issued a g hg).trans_le h.next
    · exact hlt
  distinct a b g ha hb := by
    rcases h.renews a g ha with ha | ⟨hle, -, hone⟩ <;>
      rcases h.renews b g hb with hb' | ⟨hle', -, -⟩
    · exact hx.distinct a b g ha hb'
    · exact absurd (hx.issued a g ha) hle'.not_gt
    · exact absurd (hx.issued b g hb') hle.not_gt
    · exact ((hone b hb).resolve_right fun hb' => hle.not_gt (hx.issued b g hb')).symm

end Machine

namespace Action

variable {s : Scope}

theorem renews_run (h : s.Sound) (a : Action) : s.machine.Renews (a.run s).1.machine := by
  rcases run_cases h a with ⟨hq, -⟩ | ⟨n, rfl⟩ | rfl | ⟨b, handedOver, name, rfl, -, he⟩ |
    ⟨e, s', v, rfl, hq, he⟩ | ⟨t, rfl⟩
  · exact Machine.renews_of_weak (congrArg ProxyCache.weak hq.machine.cache)
  · exact Machine.renews_of_weak (Machine.toggles_applyNotification _ n).weak
  · exact s.machine.frees_catchUp.renews
  · rw [he, machine_afterValue]
    exact Machine.renews_wrap h.machine b handedOver
  · rw [he]
    exact hq.machine.renews (Machine.frees_dismiss hq.sound.machine v).renews
  · exact Machine.renews_of_weak rfl

end Action

namespace World

variable {w : World} {name : String} {c c' : Machine}

/-! ## What becomes of a bridge -/

/-- A bridge that is open after one went on. -/
theorem Sound.goesOn_put (h : w.Sound) {n : String} {x y : Machine} (hx : w.session.machine? n = some x)
    (hs : y.bridge.serial = x.bridge.serial) (hg : x.outside.Grows y.outside) (hr : x.Renews y)
    (hc : (w.session.put n y).machine? name = some c') :
    ∃ c, w.session.machine? name = some c ∧ c.GoesOn c' := by
  obtain ⟨b', hb', rfl⟩ := Option.map_eq_some_iff.1 hc
  by_cases hn : n = name
  · subst hn
    have hy := Option.some.inj ((Session.machine?_put w.session n y).symm.trans hc)
    exact ⟨x, hx, hy ▸ (h.machine hx).goesOn hs hg hr⟩
  · have hb : w.session.bridges[name]? = some b' := by
      rw [Session.put] at hb'
      grind
    refine ⟨⟨b', w.session.outside⟩, Option.map_eq_some_iff.2 ⟨b', hb, rfl⟩,
      (h.machines name b' hb).goesOn rfl ?_ (Machine.renews_of_weak rfl)⟩
    exact Session.outside_of_machine? hx ▸ hg

/-- A bridge that is open after what is outside changed. -/
theorem Sound.goesOn_outside (h : w.Sound) {s : Session} (hc : s.machine? name = some c')
    (hg : w.session.outside.Grows s.outside)
    (hb : ∀ b, s.bridges[name]? = some b → w.session.bridges[name]? = some b) :
    ∃ c, w.session.machine? name = some c ∧ c.GoesOn c' := by
  obtain ⟨b, hb', rfl⟩ := Option.map_eq_some_iff.1 hc
  exact ⟨_, Option.map_eq_some_iff.2 ⟨b, hb b hb', rfl⟩,
    (h.machines name b (hb b hb')).goesOn rfl hg (Machine.renews_of_weak rfl)⟩

theorem renews_tends {t : Step} (ht : Tends c t c') : c.Renews c' := by
  cases ht with
  | catchUp name => exact c.frees_catchUp.renews
  | collect name => exact c.frees_collect.renews
  | unstash name stash => exact Machine.renews_of_weak rfl
  | register name d => exact Machine.renews_of_weak rfl
  | catalog name q =>
    exact Machine.renews_of_weak
      (congrArg ProxyCache.weak (Machine.recalls_catalogStep c q).quiet.cache)

/-- A bridge that is open after a move was just opened, or it went on. -/
theorem Sound.goesOn_next (h : w.Sound) (m : Move) (hc : (w.next m).session.machine? name = some c') :
    (w.session.nextSerial ≤ c'.bridge.serial ∧ c'.cache.weak = ∅) ∨
      ∃ c, w.session.machine? name = some c ∧ c.GoesOn c' := by
  have hb := w.becomes_next m
  generalize w.next m = w' at hb hc
  cases hb with
  | idle => exact .inr ⟨c', hc, .refl c'⟩
  | @enter n x hx =>
    have hk := Machine.alike_catchUp (h.machine hx)
    exact .inr (h.goesOn_put hx hk.serial hk.outside.grows x.frees_catchUp.renews hc)
  | @act n sc action hs =>
    have hst := Action.run_spec (h.scope hs) action
    exact .inr (h.goesOn_put (machine?_of_scope? hs) hst.serial hst.grows
      (Action.renews_run (h.scope hs) action) hc)
  | @leave n sc hs =>
    have hx := machine?_of_scope? hs
    have hk := Machine.alike_leave (h.machine hx)
    exact .inr (h.goesOn_put hx hk.serial hk.outside.grows sc.machine.frees_leave.renews hc)
  | tend hn hx hv ht =>
    obtain ⟨hs, hg, -⟩ := Sound.tends (h.machine hx) ht
    exact .inr (h.goesOn_put hx hs hg.grows (renews_tends ht) hc)
  | @«open» n settings responder ancestorsOnly hn =>
    obtain ⟨b, hb, rfl⟩ := Option.map_eq_some_iff.1 hc
    by_cases hname : n = name
    · subst hname
      cases (Std.ExtTreeMap.getElem?_insert_self.symm.trans hb : some _ = some b)
      exact .inl ⟨Nat.le_refl _, rfl⟩
    · have hb' : w.session.bridges[name]? = some b := by
        dsimp only at hb
        grind
      have hne : b.serial ≠ w.session.nextSerial := Nat.ne_of_lt (h.serial_lt name b hb')
      refine .inr ⟨_, Option.map_eq_some_iff.2 ⟨b, hb', rfl⟩, rfl, le_of_eq ?_,
        Machine.renews_of_weak rfl⟩
      simp only [Machine.mailbox, Outside.mailbox, Outside.setMailbox]
      grind
  | @close n x hx hv =>
    refine .inr (h.goesOn_outside hc ?_ fun b hb => ?_)
    · exact Session.outside_of_machine? hx ▸ (Machine.evolves_close (h.machine hx)).grows
    · dsimp only at hb
      grind
  | host t => exact .inr (h.goesOn_outside hc (HostStep.grows_run _ t) fun _ hb => hb)
  | reuse t floating =>
    exact .inr (h.goesOn_outside hc (Outside.grows_create _ _ t floating) fun _ hb => hb)

theorem Sound.goesOn_run (h : w.Sound) (ms : List Move)
    (hc : (w.run ms).session.machine? name = some c') :
    w.session.nextSerial ≤ c'.bridge.serial ∨
      ∃ name c, w.session.machine? name = some c ∧ c.GoesOn c' := by
  induction ms generalizing w with
  | nil => exact .inr ⟨name, c', hc, .refl c'⟩
  | cons m ms ih =>
    rcases ih (h.next m) hc with hle | ⟨name, c₁, hc₁, hg₁⟩
    · exact .inl ((nextSerial_le_next w m).trans hle)
    · rcases h.goesOn_next m hc₁ with ⟨hle, -⟩ | ⟨c, hc, hg⟩
      · exact .inl (hg₁.serial ▸ hle)
      · exact .inr ⟨name, c, hc, hg.trans hg₁⟩

theorem numbered_run (ms : List Move) (hc : (run { } ms).session.machine? name = some c) :
    c.Numbered := by
  have hp := (along_true { } ms).preserves
    (P := fun w => w.Sound ∧ ∀ name c, w.session.machine? name = some c → c.Numbered)
    (fun w m ⟨h, hn⟩ _ => ⟨h.next m, fun name c hc => ?_⟩)
    ⟨sound_empty, fun name c hc => by simp [Session.machine?] at hc⟩
  · exact hp.2 name c hc
  · rcases h.goesOn_next m hc with ⟨-, hw⟩ | ⟨c₀, hc₀, hg⟩
    · have hnone (a : Address) : c.cache.generation a = none := by simp [ProxyCache.generation, hw]
      exact ⟨fun a g hg => absurd hg (by simp [hnone]), fun a b g hg => absurd hg (by simp [hnone])⟩
    · exact (hn name c₀ hc₀).goesOn hg

end World

end NativeProxies
