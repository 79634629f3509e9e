import NativeProxies.Proofs.Bridge.Shuffle
import NativeProxies.Proofs.World

/-!
# Interchange

A collection and the end of a bridge give back the references behind several proxies.  The cache lists
its entries in the order of their addresses here, but nothing hangs on that: in whatever order a
collection goes (`Machine.collectIn`), and in whatever order a closing bridge goes
(`Machine.closeIn`), the outcome is the same.  This is `World.interchange_run`.
-/

namespace NativeProxies

namespace Machine

variable {c : Machine} {items items' : List (Address × CachedProxy)} {left left' : List CachedProxy}

/-! ## Collections -/

/-- A collection that gives back the references behind some entries, in order. -/
def collectIn (c : Machine) (items : List (Address × CachedProxy)) : Machine :=
  ((c.catchUp.setMemory c.catchUp.memory.evict.1).giveBackAll items).reclaim.countCollection.catchUp

theorem collect_eq_collectIn (c : Machine) : c.collect = c.collectIn c.catchUp.dead := rfl

theorem sameOutcome_collectIn (hp : items.Perm items') (hd : (items.map Prod.fst).Nodup) :
    (c.collectIn items).SameOutcome (c.collectIn items') := by
  let before (l : List (Address × CachedProxy)) : Machine :=
    ((c.catchUp.setMemory c.catchUp.memory.evict.1).giveBackAll l).reclaim.countCollection
  have hs : (before items').bridge.serial = (before items).bridge.serial :=
    (alike_giveBackAll _ items').serial.trans (alike_giveBackAll _ items).serial.symm
  have ho : (before items).outside.Shuffled (before items').outside := shuffled_giveBackAll hp hd
  have hm : (before items).Matches (before items') :=
    ⟨congrArg Memory.reclaim ((memory_giveBackAll _ items').trans (memory_giveBackAll _ items).symm),
      congrArg (fun m : Counters => m.countCollection 0 0) (counters_giveBackAll_of_perm hp)⟩
  have hk := hm.catchUp hs ho
  refine sameOutcome_of_shuffled (congrArg Memory.cache hk.memory) hk.counters ?_
    (shuffled_catchUp hs ho)
  exact ((before items').toggles_catchUp.serial.trans hs).trans (before items).toggles_catchUp.serial.symm

/-! ## The end of a bridge -/

/-- Closing a bridge, with its entries retired in order. -/
def closeIn (c : Machine) (left : List CachedProxy) : Machine :=
  left.foldl retire (c.catchUp.setCache { })

theorem close_eq_closeIn (c : Machine) :
    c.close = c.closeIn (c.catchUp.cache.drain c.catchUp.heap).2 := rfl

/-- Retiring the entries in some order gives back the references in some order. -/
theorem closeIn_eq (h : c.memory.Sound)
    (hp : left.Perm (c.catchUp.cache.drain c.catchUp.heap).2) :
    ∃ items m, items.Perm c.catchUp.cache.weak.toList ∧ m.cache = { } ∧
      c.closeIn left = (c.catchUp.giveBackAll items).setMemory m := by
  have hs : c.catchUp.memory.Sound := c.toggles_catchUp.sound h
  rw [snd_drain hs] at hp
  -- the proxy of an entry knows its object
  let item (e : CachedProxy) : Address × CachedProxy :=
    ((c.catchUp.heap.proxy? e.proxy).elim { value := 1 } ProxyState.object, e)
  have hi : (c.catchUp.cache.weak.toList.map Prod.snd).map item = c.catchUp.cache.weak.toList := by
    rw [List.map_map]
    refine (List.map_congr_left fun x hx => ?_).trans (List.map_id _)
    obtain ⟨r, hr, ha, -⟩ := isLive_of_mem_entries hs hx
    simp only [item, Function.comp_apply, hr, Option.elim_some, ha, id_eq]
  have hp' : (left.map item).Perm c.catchUp.cache.weak.toList := hi ▸ hp.map item
  have hsnd : (left.map item).map Prod.snd = left := by simp [item, Function.comp_def]
  have hl (x : Address × CachedProxy) (hx : x ∈ left.map item) :
      (c.catchUp.setCache { }).heap.IsLive x.2.proxy x.1 :=
    isLive_of_mem_entries (c := c.catchUp) hs (hp'.mem_iff.1 hx)
  obtain ⟨m, hm, he⟩ := foldl_retire hl ((hp'.map _).nodup_iff.2 c.catchUp.nodup_entries)
  have hg : (c.catchUp.setCache { }).giveBackAll (left.map item) =
      (c.catchUp.giveBackAll (left.map item)).setMemory _ := giveBackAll_setMemory _ _ _
  rw [hsnd, hg] at he
  exact ⟨_, m, hp', hm, he⟩

theorem sameOutcome_closeIn (h : c.memory.Sound)
    (hp : left.Perm (c.catchUp.cache.drain c.catchUp.heap).2)
    (hp' : left'.Perm (c.catchUp.cache.drain c.catchUp.heap).2) :
    (c.closeIn left).SameOutcome (c.closeIn left') := by
  obtain ⟨items, m, hi, hm, he⟩ := closeIn_eq h hp
  obtain ⟨items', m', hi', hm', he'⟩ := closeIn_eq h hp'
  have hd : (items.map Prod.fst).Nodup := (hi.map _).nodup_iff.2 c.catchUp.nodup_entries
  have hii := hi.trans hi'.symm
  rw [he, he']
  exact sameOutcome_of_shuffled (hm'.trans hm.symm) (counters_giveBackAll_of_perm hii)
    ((alike_giveBackAll _ items').serial.trans (alike_giveBackAll _ items).serial.symm)
    (shuffled_giveBackAll hii hd)

end Machine

namespace World

variable {name : String} {c : Machine}

/-- After any run, the order in which a collection of a bridge, or its end, gives back references makes
no difference: not for the host, not for the calls made for an object, not for the cache and the
counters of the bridge, and not for those of any bridge that catches up. -/
theorem interchange_run (ms : List Move) (hc : (run { } ms).session.machine? name = some c) :
    (c.collect = c.collectIn c.catchUp.dead ∧
      ∀ items items', items.Perm c.catchUp.dead → items'.Perm c.catchUp.dead →
        (c.collectIn items).SameOutcome (c.collectIn items')) ∧
    (c.close = c.closeIn (c.catchUp.cache.drain c.catchUp.heap).2 ∧
      ∀ left left', left.Perm (c.catchUp.cache.drain c.catchUp.heap).2 →
        left'.Perm (c.catchUp.cache.drain c.catchUp.heap).2 →
        (c.closeIn left).SameOutcome (c.closeIn left')) := by
  have hs := (sound_empty.run ms).machine hc
  refine ⟨⟨c.collect_eq_collectIn, fun items items' hp hp' => ?_⟩, c.close_eq_closeIn,
    fun left left' hp hp' => Machine.sameOutcome_closeIn hs.memory hp hp'⟩
  exact Machine.sameOutcome_collectIn (hp.trans hp'.symm) ((hp.map _).nodup_iff.2 c.catchUp.nodup_dead)

/-- Two objects that two bridges share, and two that one of the bridges has for itself. -/
def crossing : List Move :=
  [.step (.host (.create { value := 1 } .object true)),
   .step (.host (.create { value := 2 } .object true)),
   .step (.host (.create { value := 3 } .object true)),
   .step (.host (.create { value := 4 } .object true)),
   .step (.open "a" .standard .environment false),
   .step (.open "b" .standard .environment false),
   .enter "a",
   .act "a" (.wrap (some { value := 1 }) false none),
   .act "a" (.wrap (some { value := 2 }) false none),
   .leave "a",
   .enter "b",
   .act "b" (.wrap (some { value := 1 }) false none),
   .act "b" (.wrap (some { value := 2 }) false none),
   .act "b" (.wrap (some { value := 3 }) false none),
   .act "b" (.wrap (some { value := 4 }) false none),
   .leave "b"]

theorem interchange_run_crossing :
    ∃ c, (run { } crossing).session.machine? "b" = some c ∧
      c.catchUp.dead.map Prod.fst = [{ value := 3 }, { value := 4 }] ∧
      c.collect.SameOutcome (c.collectIn c.catchUp.dead.reverse) ∧
      (c.catchUp.cache.drain c.catchUp.heap).2.length = 4 ∧
      (c.close.outside.mailbox 0).pending.toList.map Notification.object ≠
        ((c.closeIn (c.catchUp.cache.drain c.catchUp.heap).2.reverse).outside.mailbox
          0).pending.toList.map Notification.object ∧
      c.close.SameOutcome (c.closeIn (c.catchUp.cache.drain c.catchUp.heap).2.reverse) := by
  let c := ((run { } crossing).session.machine? "b").get (by decide +kernel)
  have hc : (run { } crossing).session.machine? "b" = some c := (Option.some_get _).symm
  obtain ⟨⟨h, hi⟩, h', hi'⟩ := interchange_run crossing hc
  refine ⟨c, hc, by decide +kernel, ?_, by decide +kernel, by decide +kernel, ?_⟩
  · rw [h]
    exact hi _ _ (.refl _) (List.reverse_perm _)
  · rw [h']
    exact hi' _ _ (.refl _) (List.reverse_perm _)

end World

end NativeProxies
