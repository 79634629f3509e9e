import NativeProxies.Proofs.Candor

/-!
# Toggle coherence

A bridge keeps the proxy of an object of the base kind alive exactly while somebody else has a
reference to the object.  It learns of the others by notifications, so this holds whenever it has
applied all that waited (`World.isStrong_run`).  The runs at the end show what goes wrong when a script
makes up a notification, when an observer's reference is dropped without removing the observer, or when
an address is used again under a stale entry (`World.not_isStrong_solvent`).
-/

namespace NativeProxies

namespace Machine

variable {c : Machine} {a : Address}

theorem holding?_of_contains (ha : c.cache.contains a) :
    ∃ g, c.holding? a = some ⟨c.bridge.serial, g, c.cache.isStrong a⟩ := by
  rw [ProxyCache.contains, Std.ExtTreeMap.contains_eq_isSome_getElem?] at ha
  obtain ⟨e, he⟩ := Option.isSome_iff_exists.1 ha
  exact ⟨e.toggle, by rw [holding?, he, Option.map_some]⟩

theorem contains_of_holding? {h : Holding} (hh : c.holding? a = some h) : c.cache.contains a := by
  obtain ⟨e, he, -⟩ := Option.map_eq_some_iff.1 hh
  rw [ProxyCache.contains, Std.ExtTreeMap.contains_eq_isSome_getElem?, he]
  rfl

theorem pending_leave (c : Machine) : c.leave.mailbox.pending = #[] := by
  rcases c.leave_eq with he | he <;> rw [he]
  · exact pending_catchUp c
  · exact pending_catchUp _

end Machine

namespace World

variable {w : World} {m : Move} {name : String} {c : Machine} {a : Address}

/-- A world that a run by a rule leads to. -/
def Reached (rule : World → Move → Prop) (w : World) : Prop :=
  ∃ ms, Along rule { } ms ∧ run { } ms = w

theorem Reached.next {rule : World → Move → Prop} (hw : w.Reached rule) (hm : rule w m) :
    (w.next m).Reached rule := by
  obtain ⟨ms, h, rfl⟩ := hw
  exact ⟨ms ++ [m], along_append.2 ⟨h, hm, trivial⟩, run_append _ _ _⟩

/-- A move that is possible, and after which a bridge has applied all notifications that waited. -/
inductive Drains (w : World) (name : String) : Move → Prop
  | enter : w.visits.contains name = false → Drains w name (.enter name)
  | act : w.visits.contains name → Drains w name (.act name .catchUp)
  | leave : w.visits.contains name → Drains w name (.leave name)
  | catchUp : w.visits.contains name = false → Drains w name (.step (.catchUp name))
  | collect : w.visits.contains name = false → Drains w name (.step (.collect name))

theorem scope?_eq (hv : w.visits.contains name) :
    ∃ vars, w.scope? name = (w.session.machine? name).map fun c => ⟨c, vars⟩ := by
  rw [Std.ExtTreeMap.contains_eq_isSome_getElem?] at hv
  obtain ⟨v, hv⟩ := Option.isSome_iff_exists.1 hv
  exact ⟨v.vars, by rw [scope?, hv, Option.bind_some]⟩

/-- What a draining move makes of the bridge. -/
theorem machine?_next_of_drains (hd : w.Drains name m) :
    ∃ f, (f = Machine.catchUp ∨ f = Machine.leave ∨ f = Machine.collect) ∧
      (w.next m).session.machine? name = (w.session.machine? name).map f := by
  have hfree {t : Step} (ht : t.isVisit = false) (hb : t.bridge? = some name)
      (hv : w.visits.contains name = false) : w.isFree t :=
    isFree_iff.2 ⟨ht, fun n hn => Option.some_inj.1 (hb.symm.trans hn) ▸ hv⟩
  have hwith (k : Machine → Machine × Answer) :
      (w.session.withMachine name k).1.machine? name =
        (w.session.machine? name).map fun c => (k c).1 := by
    rw [Session.withMachine]
    cases hm : w.session.machine? name with
    | none => exact hm
    | some c => exact Session.machine?_put _ _ _
  cases hd with
  | enter hv =>
    refine ⟨Machine.catchUp, .inl rfl, ?_⟩
    rw [next, if_neg (by simp [hv]), Session.beginVisit]
    cases hm : w.session.machine? name with
    | none => exact hm
    | some c => exact Session.machine?_put _ _ _
  | act hv =>
    obtain ⟨vars, hs⟩ := scope?_eq hv
    refine ⟨Machine.catchUp, .inl rfl, ?_⟩
    rw [next, hs]
    cases hm : w.session.machine? name with
    | none => exact hm
    | some c => exact Session.machine?_put _ _ _
  | leave hv =>
    obtain ⟨vars, hs⟩ := scope?_eq hv
    refine ⟨Machine.leave, .inr (.inl rfl), ?_⟩
    rw [next, hs]
    cases hm : w.session.machine? name with
    | none => exact hm
    | some c => exact Session.machine?_put _ _ _
  | catchUp hv =>
    refine ⟨Machine.catchUp, .inl rfl, ?_⟩
    rw [next_of_isFree (hfree rfl rfl hv)]
    exact hwith fun c => (c.catchUp, .done)
  | collect hv =>
    refine ⟨Machine.collect, .inr (.inr rfl), ?_⟩
    rw [next_of_isFree (hfree rfl rfl hv)]
    exact hwith fun c => (c.collect, .done)

theorem pending_next (hd : w.Drains name m) (hc : (w.next m).session.machine? name = some c) :
    c.mailbox.pending = #[] := by
  obtain ⟨f, hf, he⟩ := machine?_next_of_drains hd
  obtain ⟨c₀, -, rfl⟩ := Option.map_eq_some_iff.1 (he ▸ hc)
  rcases hf with rfl | rfl | rfl
  · exact Machine.pending_catchUp c₀
  · exact Machine.pending_leave c₀
  · exact Machine.pending_catchUp _

theorem others_ne_nil_iff : w.session.others name a ≠ [] ↔
    ∃ name' c', name' ≠ name ∧ w.session.machine? name' = some c' ∧ c'.cache.contains a := by
  constructor
  · intro hne
    obtain ⟨h, hh⟩ := List.exists_mem_of_ne_nil _ hne
    obtain ⟨name', c', hn, hc', hh⟩ := Session.mem_others.1 hh
    exact ⟨name', c', hn, hc', Machine.contains_of_holding? hh⟩
  · rintro ⟨name', c', hn, hc', ha⟩
    obtain ⟨g, hh⟩ := Machine.holding?_of_contains ha
    exact List.ne_nil_of_mem (Session.mem_others.2 ⟨name', c', hn, hc', hh⟩)

/-- A bridge that has heard everything keeps a proxy alive exactly while there are two references, that
is, while somebody else has one. -/
theorem isStrong_iff (hx : (w.account a).Tracked) (hc : w.session.machine? name = some c)
    (hp : c.mailbox.pending = #[]) (ha : c.cache.contains a) :
    (c.cache.isStrong a ↔ 2 ≤ c.host.refs a) ∧
      (2 ≤ c.host.refs a ↔ 0 < w.owned a ∨ w.session.others name a ≠ []) := by
  obtain ⟨g, hh⟩ := Machine.holding?_of_contains ha
  have hmem := Session.mem_holdings.2 ⟨name, c, hc, hh⟩
  have hlen := (Session.holdings_perm hc a).length_eq
  have ho := Session.outside_of_machine? hc
  have hrefs : (w.account a).refs = c.host.refs a := by
    rw [Machine.host, ho]
    rfl
  constructor
  · obtain ⟨g', box, -, hbox, hs⟩ := hx.heard _ hmem
    have hnil : box = [] := by
      obtain ⟨m, hm, rfl⟩ := Option.map_eq_some_iff.1 hbox
      have hmail : c.mailbox = m := Outside.mailbox_eq (ho ▸ hm)
      rw [Mailbox.about, ← hmail, hp]
      rfl
    rw [hnil, hrefs] at hs
    rw [show c.cache.isStrong a = decide (2 ≤ c.host.refs a) from hs, decide_eq_true_iff]
  · have hb := hx.refs_eq
    have hf := hx.sunk (List.ne_nil_of_mem hmem)
    rw [hh, Option.toList_some, List.singleton_append, List.length_cons] at hlen
    have hl : (w.account a).holdings.length = (w.session.others name a).length + 1 := hlen
    rw [hf, hrefs, hl] at hb
    have hloose : (w.account a).loose = w.owned a := rfl
    rw [← List.length_pos_iff_ne_nil, hb, hloose, Bool.toNat_false]
    omega

/-- In a candid run, whenever a bridge has applied all notifications that waited, an object of the base
kind with an entry is in the strong map exactly if it has two references at least, that is, if the
code around the bridges owns one or another bridge has an entry for it. -/
theorem isStrong_run (hw : w.Reached Candid) (hm : w.Candid m) (hd : w.Drains name m)
    (hc : (w.next m).session.machine? name = some c) (ha : c.cache.contains a)
    (hobj : c.types.isObject (c.host.typeOf a)) :
    (c.cache.isStrong a ↔ 2 ≤ c.host.refs a) ∧
      (2 ≤ c.host.refs a ↔ 0 < (w.next m).owned a ∨
        ∃ name' c', name' ≠ name ∧ (w.next m).session.machine? name' = some c' ∧
          c'.cache.contains a) := by
  obtain ⟨ms, h, rfl⟩ := hw
  obtain ⟨ht, hwatch⟩ := watched_run h
  have hwatch' := watched_next (sound_empty.run ms) ht hwatch hm
  have ho := Session.outside_of_machine? hc
  have hobj' : (((run { } ms).next m).account a).Kept true := by
    refine hwatch' a ?_
    rw [← ho]
    exact hobj
  rw [← others_ne_nil_iff]
  exact isStrong_iff (hobj'.tracked rfl) hc (pending_next hd hc) ha

/-- Two bridges share an object, one of them with a reference that is handed over. -/
def shared : List Move :=
  [.step (.host (.create { value := 1 } .object false)),
   .step (.open "left" .standard .environment false),
   .step (.open "right" .standard .environment false),
   .enter "left",
   .act "left" (.wrap (some { value := 1 }) false none),
   .leave "left",
   .enter "right",
   .act "right" (.wrap (some { value := 1 }) true none),
   .leave "right"]

theorem isStrong_run_shared :
    Along Candid { } shared ∧ ∃ c,
      ((run { } shared).next (.step (.catchUp "left"))).session.machine? "left" = some c ∧
      c.cache.contains { value := 1 } ∧ c.host.refs { value := 1 } = 2 ∧
      c.cache.isStrong { value := 1 } := by
  let w := (run { } shared).next (.step (.catchUp "left"))
  let c := (w.session.machine? "left").get (by decide +kernel)
  have h : Along Candid { } shared := by decide +kernel
  have hc : w.session.machine? "left" = some c := (Option.some_get _).symm
  have ha : c.cache.contains { value := 1 } := by decide +kernel
  have hr : c.host.refs { value := 1 } = 2 := by decide +kernel
  have hd : (run { } shared).Drains "left" (.step (.catchUp "left")) := .catchUp (by decide +kernel)
  have hs := isStrong_run ⟨shared, h, rfl⟩ (by decide +kernel) hd hc ha (by decide +kernel)
  exact ⟨h, c, hc, ha, hr, hs.1.2 hr.ge⟩

/-! ## Runs that are not candid -/

/-- A move gives up owned references only, and makes instances of defined types only. -/
def Solvent (w : World) (m : Move) : Prop := w.Affords (fun _ _ => 0) m ∧ w.Defined m

instance (w : World) (m : Move) : Decidable (w.Solvent m) := inferInstanceAs (Decidable (_ ∧ _))

/-- Whether a bridge is wrong about an object of the base kind that it has an entry for. -/
def errs (w : World) (name : String) (a : Address) : Bool :=
  (w.session.machine? name).any fun c => c.cache.contains a && c.types.isObject (c.host.typeOf a) &&
    c.cache.isStrong a != decide (2 ≤ c.host.refs a)

/-- A script tells its bridge that the reference of the proxy became the last one, which it is not. -/
def forged : List Move :=
  [.step (.host (.create { value := 1 } .object false)),
   .step (.open "b" .standard .environment false),
   .enter "b",
   .act "b" (.wrap (some { value := 1 }) false none),
   .act "b" (.notify ⟨{ value := 1 }, 1, true⟩)]

/-- The reference of an observer is dropped, but the observer stays. -/
def untied : List Move :=
  [.step (.host (.create { value := 1 } .object false)),
   .step (.open "b" .standard .environment false),
   .enter "b",
   .act "b" (.wrap (some { value := 1 }) false none),
   .act "b" (.host (.watch { value := 1 } "r")),
   .act "b" (.host (.drop { value := 1 } 2 false))]

/-- An address is used again while the bridge has a stale entry for an instance without references. -/
def recycled : List Move :=
  [.step (.host (.addFundamental "Plain" none)),
   .step (.host (.create { value := 1 } ⟨1⟩ false)),
   .step (.open "b" .standard .environment false),
   .enter "b",
   .act "b" (.wrap (some { value := 1 }) false none),
   .act "b" (.host (.drop { value := 1 } 1 false)),
   .reuse { value := 1 } .object false,
   .act "b" (.host (.take { value := 1 } 1 false))]

/-- It is not enough that the code around the bridges gives up only references that it owns. -/
theorem not_isStrong_solvent :
    (Along Solvent { } (forged ++ [.leave "b"]) ∧ (run { } forged).Drains "b" (.leave "b") ∧
      errs ((run { } forged).next (.leave "b")) "b" { value := 1 }) ∧
    (Along Solvent { } (untied ++ [.leave "b"]) ∧ (run { } untied).Drains "b" (.leave "b") ∧
      errs ((run { } untied).next (.leave "b")) "b" { value := 1 }) ∧
    (Along Solvent { } (recycled ++ [.leave "b"]) ∧ (run { } recycled).Drains "b" (.leave "b") ∧
      errs ((run { } recycled).next (.leave "b")) "b" { value := 1 }) :=
  ⟨⟨by decide +kernel, .leave (by decide +kernel), by decide +kernel⟩,
    ⟨by decide +kernel, .leave (by decide +kernel), by decide +kernel⟩,
    ⟨by decide +kernel, .leave (by decide +kernel), by decide +kernel⟩⟩

end World

end NativeProxies
