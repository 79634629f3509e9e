import NativeProxies.Proofs.Candor

/-!
# Orderly runs

In an orderly run the code around the bridges gives up only references that it owns, makes instances of
defined types only, and uses no address again that a bridge has an entry for (`World.Orderly`).  Scripts
may tell their bridges anything.  Then every reference to an object of the base kind has one owner at any
time (`World.Balanced`).  Steps of sessions use no address again (`World.vacant_of_mem_moves`).
-/

namespace NativeProxies

namespace World

variable {w : World} {m : Move} {a : Address} {tied : Host → Address → Nat}

/-- The rule of the code around the bridges.  Of the references to an object, `tied` may not be dropped
or handed over. -/
structure Orderly (tied : Host → Address → Nat) (w : World) (m : Move) : Prop where
  affords : w.Affords tied m
  defined : w.Defined m
  vacant : w.Vacant m

instance (tied : Host → Address → Nat) (w : World) (m : Move) : Decidable (w.Orderly tied m) :=
  decidable_of_iff (w.Affords tied m ∧ w.Defined m ∧ w.Vacant m)
    ⟨fun h => ⟨h.1, h.2.1, h.2.2⟩, fun h => ⟨h.1, h.2, h.3⟩⟩

theorem vacant_of_mem_moves {t : Step} (hm : m ∈ t.moves) : w.Vacant m := by
  have hr : m.reused? = none := by
    cases t with
    | enter name actions =>
      simp only [Step.moves, List.mem_cons, List.mem_append, List.mem_map, List.not_mem_nil,
        or_false] at hm
      obtain rfl | ⟨action, -, rfl⟩ | rfl := hm <;> rfl
    | _ =>
      obtain rfl := List.mem_singleton.1 hm
      rfl
  intro a ha
  rw [hr] at ha
  cases ha

/-- The account of every object of the base kind is balanced, also before there is one. -/
def Balanced (w : World) : Prop :=
  ∀ a, w.session.outside.host.types.isObject (w.session.outside.host.typeOf a) →
    (w.account a).Balanced

theorem Watched.balanced (hw : w.Watched) : w.Balanced := fun a ha => (hw a ha).balanced

theorem Orderly.heeds (hm : w.Orderly tied m)
    (ha : w.session.outside.host.types.isObject (w.session.outside.host.typeOf a))
    (hx : (w.account a).Balanced) : w.Heeds false tied m a where
  returns name c hc e _ := by
    have ho := Session.outside_of_machine? hc
    rw [← ho] at ha
    exact ⟨.inl ha, by simp⟩
  acts name action s he hs := by
    subst he
    have ho := Session.outside_of_machine? (machine?_of_scope? hs)
    rw [← ho] at ha
    exact ⟨hm.affords s hs, fun _ _ _ _ => ⟨.inl ha, by simp⟩, by simp⟩
  hosts h he := by
    subst he
    exact hm.affords
  tied := by simp
  reuse t floating _ hdead := hx.holdings_eq_nil (Host.counts?_of_dead hdead)

theorem balanced_next (h : w.Sound) (ht : w.session.outside.host.Typed) (hw : w.Balanced)
    (hm : w.Orderly tied m) : (w.next m).Balanced := by
  intro a ha
  rcases (develops_next h m).isObject ht ha with ha | ⟨t, floating, rfl, hdead⟩
  · have hx : (w.account a).Kept false := ⟨hw a ha, by simp⟩
    exact (kept_next h hx (hm.heeds ha (hw a ha))).balanced
  · have hv := hm.vacant a rfl hdead
    have hn := List.eq_nil_of_length_eq_zero ((length_holdings w a).trans hv)
    have hk : Account.Kept false _ := kept_reuse (w := w) hn t floating
    rw [next, if_neg (by simp [hdead])]
    exact hk.balanced

end World

end NativeProxies
