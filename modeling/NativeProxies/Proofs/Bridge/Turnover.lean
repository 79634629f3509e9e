import NativeProxies.Proofs.Bridge.Departure
import NativeProxies.Proofs.Script.Action

/-!
# Turnover of entries

Every operation of a bridge either keeps an entry of the cache or drops it, and no proxy gets an entry
twice: a new entry is that of a new proxy.  A proxy in the heap counts as released only if its entry was
dropped (`Memory.Turnover`).
-/

namespace NativeProxies

/-- The second memory is the first one after an operation that dropped some entries. -/
structure Memory.Turnover (m : Memory) (items : List (Address × CachedProxy)) (m' : Memory) :
    Prop where
  next : m.heap.next ≤ m'.heap.next
  nodup : (items.map Prod.fst).Nodup
  entries : ∀ (a : Address) (e : CachedProxy), (a, e) ∈ items → m.cache.weak[a]? = some e
  stays : ∀ (a : Address) (e : CachedProxy), m.cache.weak[a]? = some e →
    (a, e) ∈ items ∨ m'.cache.weak[a]? = some e
  came : ∀ (a : Address) (e : CachedProxy), m'.cache.weak[a]? = some e →
    (a, e) ∉ items ∧ (m.cache.weak[a]? = some e ∨ m.heap.next ≤ e.proxy)
  spent : ∀ (p : ProxyId) (r : ProxyState), m'.heap.proxy? p = some r → r.released →
    m.heap.proxy? p = some r ∨ ∃ e, (r.object, e) ∈ items ∧ e.proxy = p

/-- An operation that leaves entries and proxies alone. -/
theorem Memory.turnover_nil {m m' : Memory} (hn : m.heap.next ≤ m'.heap.next)
    (hw : m'.cache.weak = m.cache.weak) (hp : m'.heap.proxies = m.heap.proxies) :
    m.Turnover [] m' where
  next := hn
  nodup := List.nodup_nil
  entries := by simp
  stays a e he := .inr (hw ▸ he)
  came a e he := ⟨by simp, .inl (hw ▸ he)⟩
  spent p r hr _ := .inl (by rwa [Heap.proxy?, hp] at hr)

theorem Memory.turnover_refl (m : Memory) : m.Turnover [] m := turnover_nil (Nat.le_refl _) rfl rfl

namespace Machine

variable {c c' c₁ : Machine} {a : Address} {e : CachedProxy} {items : List (Address × CachedProxy)}

theorem Toggles.turnover (h : c.Toggles c') : c.memory.Turnover [] c'.memory :=
  Memory.turnover_nil (congrArg Heap.next h.heap).ge h.weak (congrArg Heap.proxies h.heap)

theorem turnover_catchUp (c : Machine) : c.memory.Turnover [] c.catchUp.memory :=
  c.toggles_catchUp.turnover

theorem Quiet.turnover (h : c.Quiet c') : c.memory.Turnover [] c'.memory :=
  Memory.turnover_nil h.next (congrArg ProxyCache.weak h.cache) h.proxies

/-- What is done before an operation may make tables. -/
theorem Quiet.turnover_trans (hq : c.Quiet c₁) (ht : c₁.memory.Turnover items c'.memory) :
    c.memory.Turnover items c'.memory where
  next := hq.next.trans ht.next
  nodup := ht.nodup
  entries a e hi := (hq.weak a).symm.trans (ht.entries a e hi)
  stays a e he := ht.stays a e ((hq.weak a).trans he)
  came a e he := by
    obtain ⟨hi, hc⟩ := ht.came a e he
    exact ⟨hi, hc.imp (hq.weak a).symm.trans hq.next.trans⟩
  spent p r hr hrel := by
    have hp : c₁.heap.proxy? p = c.heap.proxy? p := congrArg (fun m => m[p]?) hq.proxies
    exact (ht.spent p r hr hrel).imp_left hp.symm.trans

theorem Frees.turnover (hf : c.Frees items c') (hn : c.heap.next ≤ c'.heap.next)
    (hp : ∀ p r, c'.heap.proxy? p = some r → r.released →
      c.heap.proxy? p = some r ∨ ∃ e, (r.object, e) ∈ items ∧ e.proxy = p) :
    c.memory.Turnover items c'.memory where
  next := hn
  nodup := hf.nodup
  entries := hf.entries
  stays a e he := by
    by_cases hi : (a, e) ∈ items
    · exact .inl hi
    · exact .inr ((hf.weak a e).2 ⟨he, hi⟩)
  came a e he := by
    obtain ⟨he, hi⟩ := (hf.weak a e).1 he
    exact ⟨hi, .inl he⟩
  spent := hp

theorem turnover_dismiss (h : c.Sound) (v : Value) :
    c.memory.Turnover (c.dismissals v) (c.dismiss v).1.memory := by
  have hf := frees_dismiss h v
  cases hv : c.heap.heldProxy? v with
  | none =>
    rw [dismissals, hv, dismiss_of_none hv]
    exact c.memory.turnover_refl
  | some found =>
    obtain ⟨p, r⟩ := found
    obtain ⟨-, hp, -⟩ := heldProxy?_spec hv
    have hh : (c.dismiss v).1.heap = c.heap.release p := heap_dismiss_of_some hv
    refine hf.turnover ?_ fun q r' hq hrel => ?_
    · rw [hh]
      exact Nat.le_refl _
    · rw [hh, Heap.proxy?_release] at hq
      split_ifs at hq with hqp
      · subst hqp
        obtain ⟨x, hx, rfl⟩ := Option.map_eq_some_iff.1 hq
        cases hp.symm.trans hx
        refine .inr ⟨⟨q, c.cache.generation r.object⟩, ?_, rfl⟩
        rw [dismissals, hv]
        exact List.mem_singleton_self _
      · exact .inl hq

theorem turnover_collect (c : Machine) : c.memory.Turnover c.catchUp.dead c.collect.memory := by
  refine c.frees_collect.turnover ?_ fun p r hp _ => .inl ?_
  · rw [heap_collect]
    exact Nat.le_refl _
  · rw [heap_collect, Heap.proxy?_sweep] at hp
    split_ifs at hp
    exact hp

theorem turnover_leave (c : Machine) : c.memory.Turnover c.departures c.leave.memory := by
  rw [leave_eq_ite, departures]
  split_ifs
  · exact turnover_collect c
  · exact c.turnover_catchUp

theorem turnover_wrap (h : c.memory.Sound) (a : Address) (handedOver : Bool) :
    c.memory.Turnover [] (c.wrap a handedOver).1.memory := by
  rcases proxyOf?_or h a with ⟨p, hp⟩ | ha
  · rw [memory_wrap_of_some hp]
    exact c.memory.turnover_refl
  · have hw : ∀ b : Address, (c.wrap a handedOver).1.memory.cache.weak[b]? = _ :=
      weak_wrap_of_none h ha handedOver
    have hh : (c.wrap a handedOver).1.memory.heap = _ := heap_wrap_of_none h ha handedOver
    refine ⟨?_, List.nodup_nil, by simp, fun b e he => .inr ?_, fun b e he => ⟨by simp, ?_⟩,
      fun p r hp hrel => .inl ?_⟩
    · rw [hh]
      exact Nat.le_add_right _ 2
    · rw [hw, if_neg]
      · exact he
      · rintro rfl
        exact absurd (ha.symm.trans he) (by simp)
    · rw [hw] at he
      split_ifs at he
      · cases he
        exact .inr (Nat.le_succ _)
      · exact .inl he
    · rw [hh, Heap.proxy?_newProxy] at hp
      split_ifs at hp
      · cases hp
        simp at hrel
      · exact hp

end Machine

/-! ## Releases -/

/-- Why the reference behind a proxy is given back. -/
inductive Occasion
  | dismissal
  | collection
  | closing
deriving DecidableEq, Repr

/-- That a bridge gives back the reference behind a proxy. -/
structure Release where
  proxy : ProxyId
  object : Address
  occasion : Occasion
deriving DecidableEq, Repr

/-- A bridge that drops entries, the occasion for it, and the entries in order. -/
structure Parting where
  machine : Machine
  occasion : Occasion
  items : List (Address × CachedProxy)

namespace Parting

/-- The releases of the proxies whose entries are dropped. -/
def releases (x : Parting) : List Release :=
  x.items.map fun item => ⟨item.2.proxy, item.1, x.occasion⟩

/-- What is outside once the bridge has caught up and given back the reference behind each entry. -/
def Leaves (x : Parting) (o : Outside) : Prop :=
  o.host = (x.machine.catchUp.giveBackAll x.items).host ∧
    o.journal = (x.machine.catchUp.giveBackAll x.items).outside.journal

end Parting

theorem Machine.Frees.leaves {c c' : Machine} {items : List (Address × CachedProxy)}
    (h : c.Frees items c') (occasion : Occasion) :
    Parting.Leaves ⟨c, occasion, items⟩ c'.outside :=
  ⟨h.host, h.journal⟩

namespace Action

variable {s : Scope}

/-- The entry that a script drops in an action. -/
def parting? (s : Scope) : Action → Option Parting
  | dismiss e =>
    match e.eval s with
    | .error _ => none
    | .ok r => some ⟨r.1.machine, .dismissal, r.1.machine.dismissals r.2⟩
  | _ => none

theorem turnover_run (h : s.Sound) (a : Action) :
    s.machine.memory.Turnover ((a.parting? s).elim [] Parting.items) (a.run s).1.machine.memory := by
  by_cases hd : ∃ e, a = .dismiss e
  · obtain ⟨e, rfl⟩ := hd
    rw [parting?, run, Scope.eval]
    cases he : e.eval s with
    | error r => exact s.machine.memory.turnover_refl
    | ok r =>
      obtain ⟨hq, -⟩ := Expr.quiet_eval h e he
      exact hq.machine.turnover_trans (Machine.turnover_dismiss hq.sound.machine r.2)
  · have hn : a.parting? s = none := by
      cases a <;> first | rfl | exact absurd ⟨_, rfl⟩ hd
    rw [hn]
    rcases run_cases h a with ⟨hq, -⟩ | ⟨n, rfl⟩ | rfl | ⟨b, handedOver, name, rfl, -, he⟩ |
      ⟨e, s', v, rfl, -, -⟩ | ⟨t, rfl⟩
    · exact hq.machine.turnover
    · exact (s.machine.toggles_applyNotification n).turnover
    · exact s.machine.turnover_catchUp
    · rw [he, machine_afterValue]
      exact Machine.turnover_wrap h.machine.memory b handedOver
    · exact absurd ⟨e, rfl⟩ hd
    · exact s.machine.memory.turnover_refl

/-- A script drops entries of its own bridge only, and gives back the references behind them. -/
theorem parting?_spec (h : s.Sound) {a : Action} {x : Parting} (hx : a.parting? s = some x) :
    x.machine.bridge.serial = s.machine.bridge.serial ∧ x.Leaves (a.run s).1.machine.outside := by
  cases a with
  | dismiss e =>
    rw [parting?] at hx
    cases he : e.eval s with
    | error r => simp [he] at hx
    | ok r =>
      obtain ⟨hq, -⟩ := Expr.quiet_eval h e he
      simp only [he, Option.some.injEq] at hx
      subst hx
      rw [run, Scope.eval, he]
      exact ⟨hq.machine.serial, (Machine.frees_dismiss hq.sound.machine r.2).leaves _⟩
  | _ => simp [parting?] at hx

end Action

end NativeProxies
