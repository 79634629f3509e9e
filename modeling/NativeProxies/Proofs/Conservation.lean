import NativeProxies.Proofs.World

/-!
# Conservation of references

As long as the code around the bridges gives up only references that it owns, every reference to an
object has one owner: that code, the floating reference, or a bridge with an entry for the object
(`World.refs_run`).  No bridge takes a reference twice, and none is lost.
-/

namespace NativeProxies

/-- The bridge and the object of a move that wraps an object. -/
def Move.wrapped? : Move → Option (String × Address)
  | .act name (.wrap (some a) _ _) => some (name, a)
  | _ => none

namespace World

variable {w : World}

/-- References to the objects that bridges have entries for can be taken and given back, and so can
those to an object that is to be wrapped. -/
def Supports (w : World) (m : Move) : Prop :=
  (∀ item ∈ w.session.bridges.toList, ∀ entry ∈ item.2.memory.cache.weak.toList,
    Machine.Serves ⟨item.2, w.session.outside⟩ (w.session.outside.host.typeOf entry.1)) ∧
  ∀ target ∈ m.wrapped?, ∀ s ∈ w.scope? target.1, s.machine.host.isAlive target.2 →
    s.machine.Serves (s.machine.host.typeOf target.2)

instance (w : World) (m : Move) : Decidable (w.Supports m) := inferInstanceAs (Decidable (_ ∧ _))

/-- The rule of the code around the bridges. -/
def Conserves (w : World) (m : Move) : Prop := w.Affords (fun _ _ => 0) m ∧ w.Supports m

instance (w : World) (m : Move) : Decidable (w.Conserves m) := inferInstanceAs (Decidable (_ ∧ _))

theorem Supports.returns {m : Move} (hm : w.Supports m) {name : String} {c : Machine}
    (hc : w.session.machine? name = some c) (a : Address) : c.Returns false a := by
  obtain ⟨b, hb, rfl⟩ := Option.map_eq_some_iff.1 hc
  intro e he
  have hi := Std.ExtTreeMap.mem_toList_iff_getElem?_eq_some.2 hb
  exact ⟨hm.1 _ hi (a, e) (Std.ExtTreeMap.mem_toList_iff_getElem?_eq_some.2 he), by simp⟩

theorem Supports.heeds {tied : Host → Address → Nat} {m : Move} (hm : w.Supports m)
    (hf : w.Affords tied m) {a : Address} (hx : (w.account a).Kept false) :
    w.Heeds false tied m a where
  returns name c hc := hm.returns hc a
  acts name action s he hs := by
    subst he
    refine ⟨hf s hs, fun handedOver v hw ha => ⟨?_, by simp⟩, by simp⟩
    subst hw
    exact hm.2 (name, a) rfl s hs ha
  hosts h he := by
    subst he
    exact hf
  tied := by simp
  reuse t floating he ha := hx.balanced.holdings_eq_nil (Host.counts?_of_dead ha)

/-- Every move keeps all accounts balanced. -/
theorem kept_run {ms : List Move} (h : Along Conserves { } ms) (a : Address) :
    ((run { } ms).account a).Kept false := by
  have hp := h.preserves (P := fun w => w.Sound ∧ ∀ a, (w.account a).Kept false)
    (fun w m hw hm => ⟨hw.1.next m, fun a => kept_next hw.1 (hw.2 a) (hm.2.heeds hm.1 (hw.2 a))⟩)
    ⟨sound_empty, kept_empty false⟩
  exact hp.2 a

/-- After every run, with any number of bridges, the references to an object are those that the code
around the bridges owns, the floating one, and one for every bridge with an entry for the object. -/
theorem refs_run {ms : List Move} (h : Along Conserves { } ms) (a : Address) :
    (run { } ms).session.outside.host.refs a =
      (run { } ms).owned a + ((run { } ms).session.outside.host.floats a).toNat +
        (run { } ms).holders a := by
  have hb := (kept_run h a).balanced.refs_eq
  rw [show ((run { } ms).account a).holdings.length = (run { } ms).holders a from
    length_holdings _ a] at hb
  rw [Nat.add_right_comm]
  exact hb

/-- Two bridges share an object of a kind that the host counts, and one of them gets a reference that it
does not need. -/
def sharedToken : List Move :=
  [.step (.host (.addFundamental "Token" (some .native))),
   .step (.host (.create { value := 1 } ⟨1⟩ false)),
   .step (.open "left" .standard .environment false),
   .step (.open "right" .standard .environment false),
   .enter "left",
   .enter "right",
   .act "left" (.wrap (some { value := 1 }) false none),
   .act "right" (.wrap (some { value := 1 }) false none),
   .step (.host (.take { value := 1 } 2 true)),
   .act "left" (.wrap (some { value := 1 }) true none),
   .leave "left"]

theorem refs_run_sharedToken :
    Along Conserves { } sharedToken ∧
      (run { } sharedToken).session.outside.host.refs { value := 1 } =
        (run { } sharedToken).owned { value := 1 } +
          ((run { } sharedToken).session.outside.host.floats { value := 1 }).toNat +
          (run { } sharedToken).holders { value := 1 } ∧
      (run { } sharedToken).owned { value := 1 } = 2 ∧
      (run { } sharedToken).holders { value := 1 } = 2 :=
  ⟨by decide +kernel, refs_run (by decide +kernel) _, by decide +kernel, by decide +kernel⟩

end World

end NativeProxies
