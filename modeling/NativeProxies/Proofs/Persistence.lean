import NativeProxies.Proofs.Collection
import NativeProxies.Proofs.Descriptors
import NativeProxies.Proofs.Releases
import NativeProxies.Proofs.Script.Members

/-!
# Persistence

State that is kept with a proxy outlasts every collection while somebody else has a reference to the
object.  As long as an object has two references at least and its proxy is not dismissed, the bridge
goes on to answer the same proxy for it, with the members that were written last
(`World.sustained_run`).  The runs at the end show that owned references alone are not enough for this
(`World.not_sustained_solvent`).
-/

namespace NativeProxies

namespace Move

/-- The action that a script carries out in a bridge. -/
def action? (name : String) : Move → Option Action
  | .act n a => if n = name then some a else none
  | _ => none

/-- The bridge that a move is to close. -/
def closed? : Move → Option String
  | .step (.close name) => some name
  | _ => none

end Move

namespace World

variable {w : World} {m : Move} {name : String} {c c' : Machine} {a : Address} {p : ProxyId}
  {r : ProxyState}

/-! ## One bridge in a move -/

/-- What a move makes of a bridge that it does not close. -/
inductive Turns (w : World) (name : String) (c : Machine) : Move → Machine → Prop
  /-- The move works elsewhere. -/
  | rest {m : Move} {o : Outside} : (∀ a ∈ m.action? name, w.scope? name = none) →
    c.types.Extends o.host.types → Turns w name c m ⟨c.bridge, o⟩
  | enter : Turns w name c (.enter name) c.catchUp
  | act {s : Scope} (a : Action) : w.scope? name = some s → s.machine = c →
    Turns w name c (.act name a) (a.run s).1.machine
  | leave {s : Scope} : w.scope? name = some s → s.machine = c → Turns w name c (.leave name) c.leave
  | tend {t : Step} {c' : Machine} : w.visits.contains name = false → t.bridge? = some name →
    Tends c t c' → Turns w name c (.step t) c'

theorem action?_eq_some {action : Action} (h : m.action? name = some action) :
    m = .act name action := by
  cases m with
  | act n x =>
    simp only [Move.action?, Option.ite_none_right_eq_some, Option.some.injEq] at h
    rw [h.1, h.2]
  | _ => cases h

/-- A bridge is left alone when another one goes on. -/
theorem turns_put {n : String} {x y : Machine} {w' : World}
    (hc : w.session.machine? name = some c)
    (ha : ∀ action ∈ m.action? name, w.scope? name = none) (hn : n ≠ name)
    (hx : w.session.machine? n = some x) (hg : x.types.Extends y.types)
    (hw : w'.session = w.session.put n y) :
    ∃ c', w'.session.machine? name = some c' ∧ w.Turns name c m c' := by
  obtain ⟨b, hb, rfl⟩ := Option.map_eq_some_iff.1 hc
  have hb' : (w.session.bridges.insert n y.bridge)[name]? = some b := by grind
  have hg : w.session.outside.host.types.Extends y.types := Session.outside_of_machine? hx ▸ hg
  refine ⟨⟨b, y.outside⟩, ?_, .rest ha hg⟩
  rw [hw]
  exact Option.map_eq_some_iff.2 ⟨b, hb', rfl⟩

/-- A bridge is left alone when only what is outside changes. -/
theorem turns_outside {w' : World} (hc : w.session.machine? name = some c)
    (ha : ∀ action ∈ m.action? name, w.scope? name = none)
    (hg : w.session.outside.host.types.Extends w'.session.outside.host.types)
    (hb : w'.session.bridges[name]? = w.session.bridges[name]?) :
    ∃ c', w'.session.machine? name = some c' ∧ w.Turns name c m c' := by
  obtain ⟨b, hb', rfl⟩ := Option.map_eq_some_iff.1 hc
  exact ⟨⟨b, _⟩, Option.map_eq_some_iff.2 ⟨b, hb.trans hb', rfl⟩, .rest ha hg⟩

theorem turns_next (h : w.Sound) (hc : w.session.machine? name = some c)
    (hm : m.closed? ≠ some name) :
    ∃ c', (w.next m).session.machine? name = some c' ∧ w.Turns name c m c' := by
  by_cases ha : ∃ action ∈ m.action? name, w.scope? name ≠ none
  · obtain ⟨action, ha, hs⟩ := ha
    obtain ⟨s, hs⟩ := Option.ne_none_iff_exists'.1 hs
    obtain rfl := action?_eq_some ha
    refine ⟨_, ?_, .act action hs (Option.some.inj ((machine?_of_scope? hs).symm.trans hc))⟩
    rw [next_act hs]
    exact Session.machine?_put _ _ _
  have ha : ∀ action ∈ m.action? name, w.scope? name = none := by simpa using ha
  have hb := w.becomes_next m
  generalize w.next m = w' at hb
  -- Each kind of move works in one bridge: this one, or another one.
  cases hb with
  | idle => exact turns_outside hc ha (.refl _) rfl
  | @enter n x hx =>
    by_cases hn : n = name
    · subst hn
      cases hc.symm.trans hx
      exact ⟨_, Session.machine?_put _ _ _, .enter⟩
    · exact turns_put hc ha hn hx (Machine.alike_catchUp (h.machine hx)).outside.grows.types rfl
  | @act n s action hs =>
    have hn : n ≠ name := by
      rintro rfl
      have hnone := ha action (by simp [Move.action?])
      simp [hs] at hnone
    have hg := (Action.run_spec (h.scope hs) action).grows
    exact turns_put hc ha hn (machine?_of_scope? hs) hg.types rfl
  | @leave n s hs =>
    have hx := machine?_of_scope? hs
    by_cases hn : n = name
    · subst hn
      cases hc.symm.trans hx
      exact ⟨_, Session.machine?_put _ _ _, .leave hs rfl⟩
    · exact turns_put hc ha hn hx (Machine.alike_leave (h.machine hx)).outside.grows.types rfl
  | @tend n x y t hn' hx hv ht =>
    by_cases hn : n = name
    · subst hn
      cases hc.symm.trans hx
      exact ⟨_, Session.machine?_put _ _ _, .tend hv hn' ht⟩
    · exact turns_put hc ha hn hx (Sound.tends (h.machine hx) ht).2.1.grows.types rfl
  | @«open» n settings responder ancestorsOnly hn =>
    refine turns_outside hc ha (.refl _) ?_
    obtain ⟨b, hb, -⟩ := Option.map_eq_some_iff.1 hc
    have hne := Session.ne_of_contains hn hb
    grind
  | @close n x hx hv =>
    have hn : n ≠ name := by
      rintro rfl
      exact hm rfl
    refine turns_outside hc ha ?_ (by grind)
    rw [← Session.outside_of_machine? hx]
    exact (Machine.evolves_close (h.machine hx)).grows.types
  | host t => exact turns_outside hc ha (HostStep.grows_run _ t).types rfl
  | reuse t floating => exact turns_outside hc ha (Outside.grows_create _ _ t floating).types rfl

theorem Turns.describes (h : w.Sound) (hc : w.session.machine? name = some c)
    (ht : w.Turns name c m c') : c.Describes c' := by
  have hm := h.machine hc
  cases ht with
  | rest _ hg => exact Machine.describes_outside hg
  | enter => exact (Machine.alike_catchUp hm).describes
  | act action hs he => exact he ▸ Action.describes_run (h.scope hs) action
  | leave hs he => exact (Machine.alike_leave hm).describes
  | tend hv hb ht => exact describes_tends hm ht

/-! ## Collections of shared objects -/

/-- The references to an object, by their owners. -/
theorem refs_eq_of_tracked (hx : (w.account a).Tracked) :
    w.session.outside.host.refs a = w.owned a + (w.session.holdings a).length +
        (w.session.outside.host.floats a).toNat ∧
      (w.session.holdings a ≠ [] → w.session.outside.host.floats a = false) :=
  ⟨hx.refs_eq, hx.sunk⟩

/-- If there are two references to an object after one bridge went on, then there were two before. -/
theorem two_le_refs_of_put {w' : World} (hx : (w.account a).Tracked) (hx' : (w'.account a).Tracked)
    (hc : w.session.machine? name = some c) (ha : c.cache.contains a)
    (hs : w'.session = w.session.put name c') (hl : w'.owned = w.owned)
    (h2 : 2 ≤ w'.session.outside.host.refs a) : 2 ≤ c.host.refs a := by
  obtain ⟨g, hh⟩ := Machine.holding?_of_contains ha
  obtain ⟨hr, hf⟩ := refs_eq_of_tracked hx
  obtain ⟨hr', hf'⟩ := refs_eq_of_tracked hx'
  have hne := List.ne_nil_of_mem (Session.mem_holdings.2 ⟨name, c, hc, hh⟩)
  have hlen : (w.session.holdings a).length = (w.session.others name a).length + 1 := by
    rw [(Session.holdings_perm hc a).length_eq, hh, List.length_append]
    exact Nat.add_comm _ _
  have hlen' : (w'.session.holdings a).length =
      (c'.holding? a).toList.length + (w.session.others name a).length := by
    rw [hs, (Session.holdings_perm (Session.machine?_put w.session name c') a).length_eq,
      Session.others_put, List.length_append]
  have hone : (c'.holding? a).toList.length ≤ 1 := by
    cases c'.holding? a <;> simp
  rw [hl] at hr'
  rw [Machine.host, Session.outside_of_machine? hc, hr, hf hne, Bool.toNat_false]
  by_cases hnil : w'.session.holdings a = []
  · rw [hnil, List.length_nil] at hlen' hr'
    have := Bool.toNat_le (w'.session.outside.host.floats a)
    omega
  · rw [hf' hnil, Bool.toNat_false] at hr'
    omega

/-- A collection keeps an anchored proxy and its environment. -/
theorem collect_of_anchored (h : c.Sound)
    (hr : ∀ q, q ∈ c.catchUp.memory.rootProxies ↔ c.Anchored q) (hp : c.heap.proxy? p = some r)
    (ha : c.Anchored p) :
    c.collect.heap.proxy? p = some r ∧ c.collect.heap.entries r.env = c.heap.entries r.env := by
  have hk := Machine.collects h hr
  have hl : c.Lasts (.proxy p) := .anchored ha
  exact ⟨(hk.proxies p hl).trans hp, hk.tables r.env (.env hl hp)⟩

/-- If there are two references to the object of a proxy after a bridge collected, the bridge kept the
proxy and its environment. -/
theorem collect_of_shared (hw : w.Reached Candid) (hm : w.Candid m)
    (hc : w.session.machine? name = some c) (hs : (w.next m).session = w.session.put name c')
    (hl : (w.next m).owned = w.owned) (hp : c.heap.proxy? p = some r) (hrel : r.released = false)
    (hobj : c.types.isObject (c.host.typeOf r.object))
    (h2 : 2 ≤ (w.next m).session.outside.host.refs r.object) :
    c.collect.heap.proxy? p = some r ∧ c.collect.heap.entries r.env = c.heap.entries r.env := by
  obtain ⟨ms, h, rfl⟩ := hw
  have hsound := sound_empty.run ms
  obtain ⟨ht, hwatch⟩ := watched_run h
  obtain ⟨e, he, rfl⟩ : ∃ e, c.cache.weak[r.object]? = some e ∧ e.proxy = p :=
    (hsound.machine hc).memory.cached r.object p ⟨r, hp, rfl, hrel⟩
  have ho := Session.outside_of_machine? hc
  have hcon : c.cache.contains r.object := by
    rw [ProxyCache.contains, Std.ExtTreeMap.contains_eq_isSome_getElem?, he, Option.isSome_some]
  have hx : ((run { } ms).account r.object).Tracked := by
    refine (hwatch _ ?_).tracked rfl
    rw [← ho]
    exact hobj
  have hx' : (((run { } ms).next m).account r.object).Tracked := by
    refine (watched_next hsound ht hwatch hm _ ?_).tracked rfl
    rw [isObject_next hsound (spares_of_vacant ht hwatch.balanced hm.vacant) (holdings_ne_nil hc he)
      (ht.defined _), ← ho]
    exact hobj
  have hr := mem_rootProxies_iff_anchored hsound hwatch (regular_run h) hc
  exact collect_of_anchored (hsound.machine hc) hr hp
    (.shared he hobj (two_le_refs_of_put hx hx' hc hcon hs hl h2))

/-! ## Runs in which somebody else holds an object -/

/-- What a move leaves as it should be while the proxy of an object is to be kept in a bridge: there
are two references, neither is the proxy dismissed nor the bridge closed, and members of the proxy are
written in no other way than by using them. -/
structure Sustains (name : String) (a : Address) (p : ProxyId) (w : World) (m : Move) : Prop where
  shared : 2 ≤ (w.next m).session.outside.host.refs a
  unclosed : m.closed? ≠ some name
  undismissed : ∀ action ∈ m.action? name, ∀ s ∈ w.scope? name, action.dismissed? s ≠ some (.proxy p)
  unbound : ∀ action ∈ m.action? name, ∀ s ∈ w.scope? name, ∀ r ∈ s.machine.heap.proxy? p,
    action.bound? s ≠ some r.env

instance (name : String) (a : Address) (p : ProxyId) (w : World) (m : Move) :
    Decidable (w.Sustains name a p m) :=
  decidable_of_iff (2 ≤ (w.next m).session.outside.host.refs a ∧ m.closed? ≠ some name ∧
      (∀ action ∈ m.action? name, ∀ s ∈ w.scope? name, action.dismissed? s ≠ some (.proxy p)) ∧
      ∀ action ∈ m.action? name, ∀ s ∈ w.scope? name, ∀ r ∈ s.machine.heap.proxy? p,
        action.bound? s ≠ some r.env)
    ⟨fun h => ⟨h.1, h.2.1, h.2.2.1, h.2.2.2⟩, fun h => ⟨h.1, h.2, h.3, h.4⟩⟩

/-- What a move writes to a member of a proxy. -/
def written (name : String) (p : ProxyId) (member : String) (w : World) (m : Move) : List Value :=
  ((m.action? name).bind fun action => (w.scope? name).bind fun s => action.written? s p member).toList

theorem written_of_act {s : Scope} (hs : w.scope? name = some s) (action : Action) (p : ProxyId)
    (member : String) :
    written name p member w (.act name action) = (action.written? s p member).toList := by
  simp [written, Move.action?, hs]

theorem written_eq_nil (h : ∀ action ∈ m.action? name, w.scope? name = none) (p : ProxyId)
    (member : String) : written name p member w m = [] := by
  rw [written]
  cases ha : m.action? name with
  | none => rfl
  | some action => simp [h action ha]

/-- The heap of a bridge in a move that keeps the proxy of a shared object. -/
theorem Turns.heap (hw : w.Reached Candid) (hcm : w.Candid m) (hm : w.Sustains name r.object p m)
    (hc : w.session.machine? name = some c) (ht : w.Turns name c m c') (hx : c.Exposes p r)
    (hobj : c.types.isObject (c.host.typeOf r.object)) :
    c'.heap.proxy? p = some r ∧ ∀ member, c'.heap.get r.env member =
      (written name p member w m).getLast?.getD (c.heap.get r.env member) := by
  have hsound : w.Sound := by
    obtain ⟨ms, -, rfl⟩ := hw
    exact sound_empty.run ms
  have hkeep {h : Heap} (hn : ∀ member, written name p member w m = [])
      (hh : h.proxy? p = some r ∧ h.entries r.env = c.heap.entries r.env) :
      h.proxy? p = some r ∧ ∀ member, h.get r.env member =
        (written name p member w m).getLast?.getD (c.heap.get r.env member) := by
    refine ⟨hh.1, fun member => ?_⟩
    rw [hn, List.getLast?_nil, Option.getD_none, Heap.get, hh.2, Heap.get]
  cases ht with
  | rest ha hg => exact hkeep (fun member => written_eq_nil ha p member) ⟨hx.proxy, rfl⟩
  | enter => exact hkeep (fun _ => rfl) (by rw [c.heap_catchUp]; exact ⟨hx.proxy, rfl⟩)
  | @act s action hs he =>
    subst he
    have ha : action ∈ (Move.act name action).action? name := by simp [Move.action?]
    refine ⟨Action.proxy?_run (hsound.scope hs) hx.proxy action (hm.undismissed action ha s hs),
      fun member => ?_⟩
    rw [written_of_act hs, Action.get_run (hsound.scope hs) hx action
      (hm.unbound action ha s hs r hx.proxy) member]
    cases action.written? s p member <;> rfl
  | @leave s hs he =>
    subst he
    refine hkeep (fun _ => rfl) ?_
    have hn := next_leave hs
    have hput : (w.next (.leave name)).session = w.session.put name s.machine.leave := by
      rw [hn]
      rfl
    rcases s.machine.leave_eq with hl | hl <;> rw [hl]
    · rw [s.machine.heap_catchUp]
      exact ⟨hx.proxy, rfl⟩
    · rw [Machine.collect_catchUp]
      exact collect_of_shared hw hcm hc hput (by rw [hn]) hx.proxy hx.released hobj hm.shared
  | @tend t c' hv hb ht =>
    refine hkeep (fun _ => rfl) ?_
    cases ht with
    | catchUp => rw [c.heap_catchUp]; exact ⟨hx.proxy, rfl⟩
    | collect n =>
      obtain rfl := Option.some.inj hb
      have hn := next_collect hv hc
      have hput : (w.next (.step (.collect n))).session = w.session.put n c.collect := by
        rw [hn]
      exact collect_of_shared hw hcm hc hput (by rw [hn]) hx.proxy hx.released hobj hm.shared
    | unstash | register => exact ⟨hx.proxy, rfl⟩
    | catalog n q =>
      rw [show (q.run c).1.heap = c.heap from
        congrArg Memory.heap (Machine.recalls_catalogStep c q).memory]
      exact ⟨hx.proxy, rfl⟩

/-- A move that keeps the proxy of a shared object changes its members only by writing them. -/
theorem exposes_next (hw : w.Reached Candid) (hcm : w.Candid m) (hm : w.Sustains name r.object p m)
    (hc : w.session.machine? name = some c) (hx : c.Exposes p r)
    (hobj : c.types.isObject (c.host.typeOf r.object)) :
    ∃ c', (w.next m).session.machine? name = some c' ∧ c'.Exposes p r ∧
      c'.types.isObject (c'.host.typeOf r.object) ∧ ∀ member, c'.heap.get r.env member =
        (written name p member w m).getLast?.getD (c.heap.get r.env member) := by
  have hw₀ := hw
  obtain ⟨ms, h, rfl⟩ := hw₀
  have hsound := sound_empty.run ms
  obtain ⟨ht, hwatch⟩ := watched_run h
  obtain ⟨c', hc', hturn⟩ := turns_next hsound hc hm.unclosed
  obtain ⟨hp, hget⟩ := hturn.heap hw hcm hm hc hx hobj
  have hd := hturn.describes hsound hc
  have ho := Session.outside_of_machine? hc
  have ho' := Session.outside_of_machine? hc'
  obtain ⟨e, he, -⟩ := (hsound.machine hc).memory.cached r.object p ⟨r, hx.proxy, rfl, hx.released⟩
  have hne := holdings_ne_nil hc he
  have hspares := spares_of_vacant ht hwatch.balanced hcm.vacant
  have htag : c'.host.typeOf r.object = c.host.typeOf r.object := by
    rw [Machine.host, Machine.host, ho, ho', Host.typeOf_eq, Host.typeOf_eq,
      tag?_next hsound hspares hne]
  refine ⟨c', hc', ⟨hp, hx.released, hd.responder.trans hx.responder, ?_⟩, ?_, hget⟩
  · rw [htag]
    exact hd.located (faithful_run ms name c hc) _ hx.located
  · rw [Machine.types, Machine.host, ho', isObject_next hsound hspares hne (ht.defined _), ← ho]
    exact hobj

theorem exposes_run (hw : w.Reached Candid) (hc : w.session.machine? name = some c)
    (hx : c.Exposes p r) (hobj : c.types.isObject (c.host.typeOf r.object)) {ms : List Move}
    (h : w.Along (fun w m => w.Candid m ∧ w.Sustains name r.object p m) ms) :
    ∃ c', (w.run ms).session.machine? name = some c' ∧ c'.Exposes p r ∧
      ∀ member, c'.heap.get r.env member =
        (w.trace (written name p member) ms).getLast?.getD (c.heap.get r.env member) := by
  induction ms generalizing w c with
  | nil => exact ⟨c, hc, hx, fun _ => rfl⟩
  | cons m ms ih =>
    obtain ⟨c₁, hc₁, hx₁, hobj₁, hget₁⟩ := exposes_next hw h.1.1 h.1.2 hc hx hobj
    obtain ⟨c₂, hc₂, hx₂, hget₂⟩ := ih (hw.next h.1.1) hc₁ hx₁ hobj₁ h.2
    refine ⟨c₂, hc₂, hx₂, fun member => ?_⟩
    rw [hget₂, hget₁, trace, List.getLast?_append]
    cases ((w.next m).trace (written name p member) ms).getLast? <;> rfl

/-- Between two moments of a candid run, let there be two references to an object of the base kind
after every move, and let the proxy that a bridge had for it at first not be dismissed.  Then the
bridge still answers this proxy for the object, and every member of it has the value that was written
last, or the one from the beginning. -/
theorem sustained_run (hw : w.Reached Candid) (hc : w.session.machine? name = some c)
    (hr : c.bridge.responder = .environment) (hp : c.proxyOf? a = some p)
    (hobj : c.types.isObject (c.host.typeOf a)) (hd : (c.locate (c.host.typeOf a)).2.isSome)
    {ms : List Move} (h : w.Along (fun w m => w.Candid m ∧ w.Sustains name a p m) ms) :
    ∃ c', (w.run ms).session.machine? name = some c' ∧ c'.proxyOf? a = some p ∧
      (∀ handedOver, (c'.toValue (some a) handedOver).2 = .ok (.proxy p)) ∧
      ∀ member, ∃ v, (c.useMember (.proxy p) member none).2 = .ok v ∧
        (c'.useMember (.proxy p) member none).2 =
          .ok ((w.trace (written name p member) ms).getLast?.getD v) := by
  have hsound : w.Sound := by
    obtain ⟨ms, -, rfl⟩ := hw
    exact sound_empty.run ms
  have hlive : c.heap.IsLive p a := (hsound.machine hc).memory.proxyOf?_eq_some_iff.1 hp
  obtain ⟨r, hproxy, rfl, hrel⟩ := hlive
  have hx : c.Exposes p r := ⟨hproxy, hrel, hr, hd⟩
  obtain ⟨c', hc', hx', hget⟩ := exposes_run hw hc hx hobj h
  have hp' : c'.proxyOf? r.object = some p :=
    ((hsound.run ms).machine hc').memory.proxyOf?_eq_some_iff.2 ⟨r, hx'.proxy, rfl, hx'.released⟩
  refine ⟨c', hc', hp', fun handedOver => ?_, fun member => ⟨_, hx.useMember_none member, ?_⟩⟩
  · rw [Machine.toValue, Machine.wrap_of_some hp']
    rfl
  · rw [hx'.useMember_none, hget]

/-- A bridge has the proxy of an object that the code around it has a reference to. -/
def kept : List Move :=
  [.step (.host (.create { value := 1 } .object false)),
   .step (.open "b" .standard .environment false),
   .step (.register "b" { name := "Object", tag := .object }),
   .enter "b",
   .act "b" (.wrap (some { value := 1 }) false (some "x"))]

/-- Two members are written, and one of them is cleared again; then the bridge collects, and another
one wraps the object. -/
def keptOn : List Move :=
  [.act "b" (.useMember (.var "x") (some (.integer 7)) "size" none),
   .act "b" (.useMember (.var "x") (some (.string "red")) "color" none),
   .act "b" (.useMember (.cached { value := 1 }) (some .nil) "color" none),
   .leave "b",
   .step (.collect "b"),
   .step (.open "other" .standard .echo false),
   .enter "other",
   .act "other" (.wrap (some { value := 1 }) false none),
   .leave "other",
   .step (.collect "b")]

theorem sustained_run_kept :
    Along Candid { } kept ∧
      (run { } kept).Along (fun w m => w.Candid m ∧ w.Sustains "b" { value := 1 } 1 m) keptOn ∧
      ∃ c, ((run { } kept).run keptOn).session.machine? "b" = some c ∧
        c.host.refs { value := 1 } = 3 ∧ c.proxyOf? { value := 1 } = some 1 ∧
        (c.useMember (.proxy 1) "size" none).2 = .ok (.integer 7) ∧
        (c.useMember (.proxy 1) "color" none).2 = .ok .nil := by
  let c := ((run { } kept).session.machine? "b").get (by decide +kernel)
  have h : Along Candid { } kept := by decide +kernel
  have h' : (run { } kept).Along (fun w m => w.Candid m ∧ w.Sustains "b" { value := 1 } 1 m)
      keptOn := by
    decide +kernel
  have hc : (run { } kept).session.machine? "b" = some c := (Option.some_get _).symm
  obtain ⟨c', hc', hp, -, hget⟩ := sustained_run ⟨kept, h, rfl⟩ hc (by decide +kernel)
    (by decide +kernel) (by decide +kernel) (by decide +kernel) h'
  have hrefs : c'.host.refs { value := 1 } = 3 := by
    rw [Machine.host, Session.outside_of_machine? hc']
    decide +kernel
  have hsize : ((run { } kept).trace (written "b" 1 "size") keptOn).getLast? = some (.integer 7) := by
    decide +kernel
  have hcolor : ((run { } kept).trace (written "b" 1 "color") keptOn).getLast? = some .nil := by
    decide +kernel
  obtain ⟨_, -, h₁⟩ := hget "size"
  obtain ⟨_, -, h₂⟩ := hget "color"
  rw [hsize] at h₁
  rw [hcolor] at h₂
  exact ⟨h, h', c', hc', hrefs, hp, h₁, h₂⟩

/-! ## Runs that are not candid -/

/-- Whether a bridge has a certain proxy for an object of the base kind and can serve its members. -/
def serves (w : World) (name : String) (a : Address) (p : ProxyId) : Bool :=
  (w.session.machine? name).any fun c =>
    c.bridge.responder = .environment && c.proxyOf? a = some p && c.types.isObject (c.host.typeOf a) &&
      (c.locate (c.host.typeOf a)).2.isSome

/-- A script tells its bridge that the reference of the proxy became the last one, which it is not. -/
def misled : List Move :=
  [.step (.host (.create { value := 1 } .object false)),
   .step (.host (.take { value := 1 } 1 false)),
   .step (.open "b" .standard .environment false),
   .step (.register "b" { name := "Object", tag := .object }),
   .enter "b",
   .act "b" (.wrap (some { value := 1 }) false none),
   .act "b" (.notify ⟨{ value := 1 }, 1, true⟩)]

/-- A script tells its bridge the truth, but an observer whose reference was dropped is in the way of
the notification that would follow. -/
def unheard : List Move :=
  [.step (.host (.create { value := 1 } .object false)),
   .step (.open "b" .standard .environment false),
   .step (.register "b" { name := "Object", tag := .object }),
   .enter "b",
   .act "b" (.wrap (some { value := 1 }) false none),
   .act "b" (.host (.watch { value := 1 } "r")),
   .act "b" (.host (.drop { value := 1 } 2 false)),
   .act "b" (.notify ⟨{ value := 1 }, 1, true⟩)]

/-- An address is used again while the bridge has a stale entry for an instance without references. -/
def mistaken : List Move :=
  [.step (.host (.addFundamental "Plain" none)),
   .step (.host (.create { value := 1 } ⟨1⟩ false)),
   .step (.open "b" .standard .environment false),
   .step (.register "b" { name := "Object", tag := .object }),
   .enter "b",
   .act "b" (.wrap (some { value := 1 }) false none),
   .act "b" (.host (.drop { value := 1 } 1 false)),
   .reuse { value := 1 } .object false]

/-- Two references are taken, and the bridge collects. -/
def taken : List Move :=
  [.act "b" (.host (.take { value := 1 } 2 false)),
   .leave "b",
   .step (.collect "b")]

/-- A run with owned references only, after which the bridge loses the proxy as two references are
taken and it collects. -/
def Loses (ms : List Move) : Prop :=
  Along Solvent { } ms ∧ (run { } ms).serves "b" { value := 1 } 1 ∧
    (run { } ms).Along (fun w m => w.Solvent m ∧ w.Sustains "b" { value := 1 } 1 m) taken ∧
    ∃ c ∈ ((run { } ms).run taken).session.machine? "b", c.proxyOf? { value := 1 } = none

instance (ms : List Move) : Decidable (Loses ms) :=
  inferInstanceAs (Decidable (_ ∧ _ ∧ _ ∧ _))

/-- It is not enough that the code around the bridges gives up only references that it owns: a bridge
may lose a proxy although there are two references to the object all the time. -/
theorem not_sustained_solvent : Loses misled ∧ Loses unheard ∧ Loses mistaken := by
  decide +kernel

end World

end NativeProxies
