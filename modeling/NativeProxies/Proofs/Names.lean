import Mathlib.Data.List.Induction
import NativeProxies.Catalog

/-!
# Descriptors by name

A catalog keeps the tag under which a name was registered last, and the descriptor that was registered
last for a tag.  Registering a tag again under another name leaves its old name behind, so a name is
resolved to a descriptor that carries it if and only if the tag of its last registration was not
registered again (`Catalog.resolves_ofList_iff`).
-/

namespace NativeProxies

/-- The last entry of a list with a property splits the list. -/
theorem getLast?_filter_eq_some_iff {α : Type} {p : α → Bool} {xs : List α} {x : α} :
    (xs.filter p).getLast? = some x ↔
      ∃ l₁ l₂, xs = l₁ ++ x :: l₂ ∧ p x ∧ ∀ y ∈ l₂, ¬p y := by
  rw [List.getLast?_eq_some_iff]
  constructor
  · rintro ⟨ys, h⟩
    obtain ⟨l₁, l₂, rfl, -, h⟩ := List.filter_eq_append_iff.1 h
    obtain ⟨m₁, m₂, rfl, -, hx, h⟩ := List.filter_eq_cons_iff.1 h
    exact ⟨l₁ ++ m₁, m₂, by rw [List.append_assoc], hx, List.filter_eq_nil_iff.1 h⟩
  · rintro ⟨l₁, l₂, rfl, hx, h⟩
    refine ⟨l₁.filter p, ?_⟩
    rw [List.filter_append, List.filter_cons_of_pos hx, List.filter_eq_nil_iff.2 h]

namespace Catalog

variable {k : Catalog} {ds ds₁ ds₂ : List Descriptor} {d e : Descriptor} {t : TypeId} {n : String}

/-! ## What a row of registrations leaves -/

/-- The catalog after descriptors were registered in order. -/
def ofList (ds : List Descriptor) : Catalog := ds.foldl register { }

/-- The last descriptor registered under a name. -/
def lastNamed? (ds : List Descriptor) (n : String) : Option Descriptor :=
  (ds.filter fun d => d.name = n).getLast?

/-- The last descriptor registered for a tag. -/
def lastTagged? (ds : List Descriptor) (t : TypeId) : Option Descriptor :=
  (ds.filter fun d => d.tag = t).getLast?

theorem lastNamed?_append (ds₁ ds₂ : List Descriptor) (n : String) :
    lastNamed? (ds₁ ++ ds₂) n = (lastNamed? ds₂ n).or (lastNamed? ds₁ n) := by
  unfold lastNamed?
  rw [List.filter_append, List.getLast?_append]

theorem lastTagged?_append (ds₁ ds₂ : List Descriptor) (t : TypeId) :
    lastTagged? (ds₁ ++ ds₂) t = (lastTagged? ds₂ t).or (lastTagged? ds₁ t) := by
  unfold lastTagged?
  rw [List.filter_append, List.getLast?_append]

theorem ofList_concat (ds : List Descriptor) (d : Descriptor) :
    ofList (ds ++ [d]) = (ofList ds).register d := by
  unfold ofList
  rw [List.foldl_append]
  rfl

theorem descriptor?_ofList (ds : List Descriptor) (t : TypeId) :
    (ofList ds).descriptor? t = lastTagged? ds t := by
  induction ds using List.reverseRecOn with
  | nil => rfl
  | append_singleton ds d ih =>
    rw [ofList_concat, lastTagged?_append, ← ih]
    by_cases ht : d.tag = t <;> simp [descriptor?, register, lastTagged?, ht, Std.ExtTreeMap.getElem?_insert]

theorem names_ofList (ds : List Descriptor) (n : String) :
    (ofList ds).names[n]? = (lastNamed? ds n).map Descriptor.tag := by
  induction ds using List.reverseRecOn with
  | nil => rfl
  | append_singleton ds d ih =>
    rw [ofList_concat, lastNamed?_append, Option.map_or, ← ih]
    by_cases hn : d.name = n <;> simp [register, lastNamed?, hn, Std.ExtTreeMap.getElem?_insert]

theorem named?_ofList (ds : List Descriptor) (n : String) :
    (ofList ds).named? n = (lastNamed? ds n).bind fun d => lastTagged? ds d.tag := by
  rw [named?, names_ofList]
  cases lastNamed? ds n with
  | none => rfl
  | some d => exact descriptor?_ofList ds d.tag

/-! ## Names that outlive their descriptor -/

/-- A name is answered with a current descriptor that carries it, if there is one; as a type it stands for
the tag of that descriptor. -/
structure Resolves (k : Catalog) (n : String) : Prop where
  found : (k.named? n).isSome ↔ ∃ t d, k.descriptor? t = some d ∧ d.name = n
  carries : ∀ d, k.named? n = some d → d.name = n ∧ k.descriptor? d.tag = some d
  readType : k.readType (.string n) = (k.named? n).map Descriptor.tag
  selects : ∀ t, k.readType (.string n) = some t → ∃ d, k.descriptor? t = some d ∧ d.name = n

/-- The tag of the last registration under a name was registered again, under another name. -/
def Outdated (ds : List Descriptor) (n : String) : Prop :=
  ∃ ds₁ d ds₂, ds = ds₁ ++ d :: ds₂ ∧ d.name = n ∧ (∀ e ∈ ds₂, e.name ≠ n) ∧ ∃ e ∈ ds₂, e.tag = d.tag

theorem lastNamed?_eq_some_iff : lastNamed? ds n = some d ↔
    ∃ ds₁ ds₂, ds = ds₁ ++ d :: ds₂ ∧ d.name = n ∧ ∀ e ∈ ds₂, e.name ≠ n := by
  simp only [lastNamed?, getLast?_filter_eq_some_iff, decide_eq_true_eq, ne_eq]

theorem lastNamed?_eq_none_iff : lastNamed? ds n = none ↔ ∀ d ∈ ds, d.name ≠ n := by
  simp [lastNamed?]

theorem lastTagged?_eq_none_iff : lastTagged? ds t = none ↔ ∀ d ∈ ds, d.tag ≠ t := by
  simp [lastTagged?]

theorem mem_of_lastTagged? (h : lastTagged? ds t = some d) : d ∈ ds ∧ d.tag = t := by
  simpa [lastTagged?] using List.mem_of_getLast? h

theorem lastTagged?_append_cons (ds₁ ds₂ : List Descriptor) (d : Descriptor) :
    lastTagged? (ds₁ ++ d :: ds₂) d.tag = (lastTagged? ds₂ d.tag).or (some d) := by
  have hd : lastTagged? [d] d.tag = some d := by simp [lastTagged?]
  rw [lastTagged?_append, ← List.singleton_append, lastTagged?_append, hd, Option.or_assoc,
    Option.some_or]

/-- A name that is out of date is answered with a descriptor of another name. -/
theorem Outdated.named? (h : Outdated ds n) : ∃ e, (ofList ds).named? n = some e ∧ e.name ≠ n := by
  obtain ⟨ds₁, d, ds₂, rfl, hd, hlast, e, he, het⟩ := h
  have hlastNamed : lastNamed? (ds₁ ++ d :: ds₂) n = some d :=
    lastNamed?_eq_some_iff.2 ⟨ds₁, ds₂, rfl, hd, hlast⟩
  cases ht : lastTagged? ds₂ d.tag with
  | none => exact absurd het (lastTagged?_eq_none_iff.1 ht e he)
  | some e' =>
    refine ⟨e', ?_, hlast e' (mem_of_lastTagged? ht).1⟩
    rw [named?_ofList, hlastNamed, Option.bind_some, lastTagged?_append_cons, ht, Option.some_or]

theorem not_resolves_of_outdated (h : Outdated ds n) : ¬(ofList ds).Resolves n := by
  obtain ⟨e, he, hne⟩ := h.named?
  exact fun hr => hne (hr.carries e he).1

/-- A name that is not out of date is answered with the last descriptor registered under it. -/
theorem named?_of_not_outdated (h : ¬Outdated ds n) :
    (ofList ds).named? n = lastNamed? ds n ∧
      ∀ d, lastNamed? ds n = some d → (ofList ds).descriptor? d.tag = some d := by
  cases hn : lastNamed? ds n with
  | none => exact ⟨by rw [named?_ofList, hn, Option.bind_none], nofun⟩
  | some d =>
    obtain ⟨ds₁, ds₂, rfl, hd, hlast⟩ := lastNamed?_eq_some_iff.1 hn
    have ht : lastTagged? ds₂ d.tag = none := by
      rw [lastTagged?_eq_none_iff]
      exact fun e he het => h ⟨ds₁, d, ds₂, rfl, hd, hlast, e, he, het⟩
    have hcurrent : lastTagged? (ds₁ ++ d :: ds₂) d.tag = some d := by
      rw [lastTagged?_append_cons, ht, Option.none_or]
    refine ⟨by rw [named?_ofList, hn, Option.bind_some, hcurrent], fun d' hd' => ?_⟩
    cases hd'
    rw [descriptor?_ofList, hcurrent]

theorem resolves_of_not_outdated (h : ¬Outdated ds n) : (ofList ds).Resolves n := by
  obtain ⟨hnamed, hcurrent⟩ := named?_of_not_outdated h
  have hcarries : ∀ d, (ofList ds).named? n = some d →
      d.name = n ∧ (ofList ds).descriptor? d.tag = some d := by
    intro d hd
    rw [hnamed] at hd
    obtain ⟨-, -, -, hname, -⟩ := lastNamed?_eq_some_iff.1 hd
    exact ⟨hname, hcurrent d hd⟩
  refine ⟨⟨fun hs => ?_, ?_⟩, hcarries, rfl, fun t ht => ?_⟩
  · obtain ⟨d, hd⟩ := Option.isSome_iff_exists.1 hs
    exact ⟨d.tag, d, (hcarries d hd).2, (hcarries d hd).1⟩
  · rintro ⟨t, d, hd, hname⟩
    rw [descriptor?_ofList] at hd
    rw [hnamed, Option.isSome_iff_ne_none, ne_eq, lastNamed?_eq_none_iff]
    exact fun hnone => hnone d (mem_of_lastTagged? hd).1 hname
  · obtain ⟨d, hd, rfl⟩ := Option.map_eq_some_iff.1 ht
    exact ⟨d, (hcarries d hd).2, (hcarries d hd).1⟩

/-- After any registrations, a name is answered with the current descriptor of the tag for which it was
registered last; that descriptor carries the name, and is found by it, if and only if the name is not out
of date. -/
theorem resolves_ofList_iff (ds : List Descriptor) (n : String) :
    ((ofList ds).named? n = (lastNamed? ds n).bind fun d => lastTagged? ds d.tag) ∧
      ((ofList ds).Resolves n ↔ ¬Outdated ds n) :=
  ⟨named?_ofList ds n, fun hr ho => not_resolves_of_outdated ho hr, resolves_of_not_outdated⟩

/-- One tag is registered under two names. -/
def renamed : List Descriptor := [{ name := "A", tag := .object }, { name := "B", tag := .object }]

/-- The old name of a tag still selects it. -/
theorem not_resolves_renamed : ¬(ofList renamed).Resolves "A" := by
  intro h
  have hb : (ofList renamed).named? "A" = some { name := "B", tag := .object } := by decide +kernel
  exact absurd (h.carries _ hb).1 (by decide)

end Catalog

end NativeProxies
