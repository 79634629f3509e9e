import Mathlib.Tactic.Common
import NativeProxies.Heap.Reach

/-!
# Marking finds what can be reached

The depth-first walk `Heap.mark` marks exactly the nodes that `Heap.Reaches` describes
(`contains_mark_iff`).  That a marked node can be reached follows along the walk.  For the other
direction, a visit leaves no newly marked node with an unmarked successor (`visit_covers`), as long
as its bound is no less than the number of nodes that are held and unmarked.
-/

namespace NativeProxies

namespace Heap

namespace Marks

@[simp] theorem contains_insert (m : Marks) (c d : Node) :
    (m.insert c).contains d = (decide (c = d) || m.contains d) := by
  cases c <;> cases d <;>
    simp [contains, insert, Std.ExtTreeSet.contains_insert, Bool.beq_eq_decide_eq]

@[simp] theorem contains_empty (c : Node) : ({ } : Marks).contains c = false := by
  cases c <;> simp [contains]

/-- One set of marks includes another. -/
def Sub (m m' : Marks) : Prop := ∀ c, m.contains c → m'.contains c

theorem Sub.refl (m : Marks) : m.Sub m := fun _ hc => hc

theorem Sub.trans {m₁ m₂ m₃ : Marks} (h₁ : m₁.Sub m₂) (h₂ : m₂.Sub m₃) : m₁.Sub m₃ :=
  fun c hc => h₂ c (h₁ c hc)

theorem sub_insert (m : Marks) (c : Node) : m.Sub (m.insert c) := by
  intro d hd
  simp [hd]

end Marks

variable {h : Heap} {m m' : Marks} {c d : Node} {n : Nat}

theorem Reaches.holds {roots : List ProxyId} (hc : h.Reaches roots c) : h.holds c := by
  cases hc <;> assumption

/-! ## The nodes that are left to mark -/

/-- All nodes of the heap. -/
def nodes (h : Heap) : List Node := h.proxies.keys.map .proxy ++ h.tables.keys.map .table

theorem mem_nodes : c ∈ h.nodes ↔ h.holds c := by
  cases c <;> simp [nodes, holds]

/-- How many nodes are held and not marked. -/
def unmarked (h : Heap) (m : Marks) : Nat := h.nodes.countP fun c => !m.contains c

theorem unmarked_le_size (h : Heap) (m : Marks) : h.unmarked m ≤ h.size := by
  have hl : h.nodes.length = h.size := by simp [nodes, size, Std.ExtTreeMap.length_keys]
  rw [← hl]
  exact List.countP_le_length

theorem unmarked_anti (hs : m.Sub m') : h.unmarked m' ≤ h.unmarked m := by
  refine List.countP_mono_left fun c _ hc => ?_
  have := hs c
  grind

theorem countP_lt {α : Type} {p q : α → Bool} {l : List α} {x : α}
    (hpq : ∀ y ∈ l, p y → q y) (hx : x ∈ l) (hp : p x = false) (hq : q x) :
    l.countP p < l.countP q := by
  induction l with
  | nil => simp at hx
  | cons y l ih =>
    have hle : l.countP p ≤ l.countP q :=
      List.countP_mono_left fun z hz => hpq z (List.mem_cons_of_mem _ hz)
    rw [List.countP_cons, List.countP_cons]
    rcases List.mem_cons.1 hx with rfl | hx
    · simp only [hp, hq, Bool.false_eq_true, if_true, if_false]
      omega
    · have := ih (fun z hz => hpq z (List.mem_cons_of_mem _ hz)) hx
      have := hpq y List.mem_cons_self
      split_ifs <;> grind

theorem unmarked_insert_lt (hc : h.holds c) (hm : m.contains c = false) :
    h.unmarked (m.insert c) < h.unmarked m := by
  refine countP_lt (x := c) (fun d _ hd => ?_) (mem_nodes.2 hc) ?_ ?_
  · have := Marks.sub_insert m c d
    grind
  · simp
  · simp [hm]

/-! ## A walk marks only what can be reached -/

section Sound

/- Whatever property the held successors of a node inherit from it, the marks have, too. -/
variable {P : Node → Prop} (hP : ∀ c d, P c → d ∈ h.successors c → h.holds d → P d)
include hP

theorem forall_visit (hm : ∀ d, m.contains d → P d) (hc : h.holds c → P c) :
    ∀ d, (h.visit n m c).contains d → P d := by
  induction n generalizing m c with
  | zero => exact hm
  | succ n ih =>
    rw [visit]
    split_ifs with hv
    · exact hm
    · have hh : h.holds c := by simp_all
      refine List.foldlRecOn (motive := fun m : Marks => ∀ d, m.contains d → P d) _ _ ?_ ?_
      · intro d hd
        rcases (by simpa using hd : c = d ∨ m.contains d) with rfl | hd
        · exact hc hh
        · exact hm d hd
      · exact fun m₁ hm₁ e he => ih hm₁ fun hhe => hP c e (hc hh) he hhe

end Sound

theorem mark_eq_foldl (h : Heap) (roots : List ProxyId) :
    h.mark roots = (roots.map .proxy).foldl (h.visit h.size) { } := by
  rw [List.foldl_map]
  rfl

theorem reaches_of_contains_mark {roots : List ProxyId} (hd : (h.mark roots).contains d) :
    h.Reaches roots d := by
  rw [mark_eq_foldl] at hd
  refine List.foldlRecOn (motive := fun m : Marks => ∀ d, m.contains d → h.Reaches roots d)
    _ _ (by simp) (fun m hm c hc => ?_) d hd
  obtain ⟨p, hp, rfl⟩ := List.mem_map.1 hc
  exact forall_visit (fun _ _ => .step) hm (.root hp)

/-! ## A walk misses nothing -/

/-- The marks grew to include some nodes, and every node that is new has its successors marked. -/
structure Covers (h : Heap) (l : List Node) (m m' : Marks) : Prop where
  sub : m.Sub m'
  mem : ∀ c ∈ l, h.holds c → m'.contains c
  new : ∀ c, m'.contains c → m.contains c = false → ∀ d ∈ h.successors c, h.holds d →
    m'.contains d

theorem Covers.nil (h : Heap) (m : Marks) : h.Covers [] m m :=
  ⟨.refl m, by simp, fun c hc hm => by simp [hc] at hm⟩

theorem Covers.cons {m₁ m₂ : Marks} {l : List Node} (hc : h.Covers [c] m m₁)
    (hl : h.Covers l m₁ m₂) : h.Covers (c :: l) m m₂ := by
  refine ⟨hc.sub.trans hl.sub, fun d hd hh => ?_, fun d hd hm e he hh => ?_⟩
  · rcases List.mem_cons.1 hd with rfl | hd
    · exact hl.sub d (hc.mem d (by simp) hh)
    · exact hl.mem d hd hh
  · cases hd₁ : m₁.contains d with
    | true => exact hl.sub e (hc.new d hd₁ hm e he hh)
    | false => exact hl.new d hd hd₁ e he hh

/-- If single visits miss nothing while at most `n` nodes are left to mark, nor do several. -/
theorem covers_foldl {f : Marks → Node → Marks}
    (hf : ∀ m c, h.unmarked m ≤ n → h.Covers [c] m (f m c)) (l : List Node)
    (hm : h.unmarked m ≤ n) : h.Covers l m (l.foldl f m) := by
  induction l generalizing m with
  | nil => exact .nil h m
  | cons c l ih =>
    have hc := hf m c hm
    exact hc.cons (ih (Nat.le_trans (unmarked_anti hc.sub) hm))

theorem visit_covers (hn : h.unmarked m ≤ n) : h.Covers [c] m (h.visit n m c) := by
  induction n generalizing m c with
  | zero =>
    refine ⟨.refl m, fun d hd hh => ?_, fun d hd hm => by simp [visit, hm] at hd⟩
    rw [List.mem_singleton.1 hd] at hh ⊢
    rw [visit]
    by_contra hm
    have := unmarked_insert_lt hh (Bool.eq_false_iff.2 hm)
    omega
  | succ n ih =>
    rw [visit]
    split_ifs with hv
    · refine ⟨.refl m, fun d hd hh => ?_, fun d hd hm => by simp [hd] at hm⟩
      rw [List.mem_singleton.1 hd] at hh ⊢
      simpa [hh] using hv
    · obtain ⟨hm, hh⟩ : m.contains c = false ∧ h.holds c := by simp_all
      have hlt := unmarked_insert_lt hh hm
      have hs := covers_foldl (fun m c => ih) (h.successors c) (m := m.insert c) (by omega)
      refine ⟨(m.sub_insert c).trans hs.sub, fun d hd _ => ?_, fun d hd hdm e he hhe => ?_⟩
      · exact hs.sub d (by simp_all)
      · by_cases hcd : c = d
        · subst hcd
          exact hs.mem e he hhe
        · exact hs.new d hd (by simp [hcd, hdm]) e he hhe

theorem contains_mark_of_reaches {roots : List ProxyId} (hd : h.Reaches roots d) :
    (h.mark roots).contains d := by
  have hc : h.Covers (roots.map .proxy) { } (h.mark roots) := by
    rw [mark_eq_foldl]
    exact covers_foldl (fun _ _ => visit_covers) _ (unmarked_le_size h _)
  induction hd with
  | root hp hh => exact hc.mem _ (List.mem_map.2 ⟨_, hp, rfl⟩) hh
  | step _ hs hh ih => exact hc.new _ ih (by simp) _ hs hh

/-- Marking marks what can be reached from the roots, and nothing else. -/
theorem contains_mark_iff {roots : List ProxyId} :
    (h.mark roots).contains d ↔ h.Reaches roots d :=
  ⟨reaches_of_contains_mark, contains_mark_of_reaches⟩

end Heap

end NativeProxies
