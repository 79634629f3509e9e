import Mathlib.Data.List.Induction
import NativeProxies.SharedLibraries

/-!
# Loading libraries

Libraries and their hooks are asked for in the course of time, while files come and go in the root directory
and the loader changes its mind.  A library that was opened for a name stays its library, and the loader is
not asked for it again; if opening fails, nothing is left behind, and the next request asks the loader anew
(`Libraries.loading_run`).
-/

namespace NativeProxies

/-- What libraries are asked for. -/
inductive LibraryRequest
  | library (name : String)
  | hooks (name : String) (sink drop : Option String)

/-- What a request is answered with. -/
inductive LibraryResponse
  | library (r : Except Failure Library)
  | hooks (r : Except Failure OwnershipHooks)

/-- A request, with the files and the loader that it meets. -/
structure LibraryCall where
  listing : List String
  loader : Loader
  request : LibraryRequest

namespace LibraryRequest

/-- The name of the library. -/
def name : LibraryRequest → String
  | library name | hooks name _ _ => name

end LibraryRequest

namespace LibraryResponse

/-- The library that is handed out, or kept for the hooks. -/
def library? : LibraryResponse → Option LibraryId
  | library (.ok lib) => some lib.id
  | hooks (.ok h) => h.keepalive
  | _ => none

def failure? : LibraryResponse → Option Failure
  | library (.error e) | hooks (.error e) => some e
  | _ => none

end LibraryResponse

/-- The first of some symbols that a library lacks, with the reason. -/
def Library.lack? (lib : Library) (loader : Loader) (symbols : List String) : Option (String × String) :=
  symbols.findSome? fun symbol =>
    match loader.symbol lib.path symbol with
    | .ok _ => none
    | .error reason => some (symbol, reason)

/-- The hooks made of two symbols of a library, either of which may be left out.  The symbol for taking is
looked up before the one for giving back. -/
def Library.provide (lib : Library) (loader : Loader) (name : String) (sink drop : Option String) :
    Except Failure OwnershipHooks :=
  match lib.lack? loader (sink.toList ++ drop.toList) with
  | some (symbol, reason) => .error (.unloadable (name ++ "::" ++ symbol) reason)
  | none => .ok { sink := sink.map .symbol, drop := drop.map .symbol, keepalive := some lib.id }

namespace LibraryCall

def name (c : LibraryCall) : String := c.request.name

/-- What the loader says if it is asked to open the library. -/
def opens (c : LibraryCall) : Except String Unit :=
  c.loader.opens (Libraries.pathFor { listing := c.listing } c.name)

/-- The answer to the call, given the library or the reason why there is none. -/
def answer (c : LibraryCall) (r : Except Failure Library) : LibraryResponse :=
  match c.request with
  | .library _ => .library r
  | .hooks name sink drop => .hooks (r.bind fun lib => lib.provide c.loader name sink drop)

theorem failure?_answer (c : LibraryCall) (e : Failure) : (c.answer (.error e)).failure? = some e := by
  unfold answer
  cases c.request <;> rfl

theorem library?_answer {c : LibraryCall} {lib : Library}
    (h : (c.answer (.ok lib)).failure? = none) : (c.answer (.ok lib)).library? = some lib.id := by
  unfold answer at h ⊢
  cases hr : c.request with
  | library name => rfl
  | hooks name sink drop =>
    simp only [hr, Except.bind, Library.provide] at h ⊢
    cases hl : lib.lack? c.loader (sink.toList ++ drop.toList) with
    | some x => simp [hl, LibraryResponse.failure?] at h
    | none => rfl

end LibraryCall

namespace Libraries

variable {s : Libraries} {loader : Loader} {name n : String} {lib : Library} {c : LibraryCall}
  {cs : List LibraryCall} {reason : String}

/-! ## One library -/

/-- The loader is asked to open a library: what it says makes a difference. -/
def Asks (s : Libraries) (name : String) : Prop :=
  ∃ loader loader', s.get loader name ≠ s.get loader' name

theorem get_of_loaded (h : s.loaded[name]? = some lib) (loader : Loader) :
    s.get loader name = (s, .ok lib) := by
  unfold get
  rw [h]

theorem not_asks_of_loaded (h : s.loaded[name]? = some lib) : ¬s.Asks name := by
  rintro ⟨loader, loader', hne⟩
  exact hne ((get_of_loaded h loader).trans (get_of_loaded h loader').symm)

theorem get_of_error (hn : s.loaded[name]? = none)
    (h : loader.opens (s.pathFor name) = .error reason) :
    s.get loader name = (s, .error (.unloadable name reason)) := by
  unfold get
  rw [hn]
  simp only [h]

theorem get_of_ok (hn : s.loaded[name]? = none) (h : loader.opens (s.pathFor name) = .ok ()) :
    s.get loader name =
      ({ s with loaded := s.loaded.insert name ⟨s.next, s.pathFor name⟩, next := s.next + 1 },
        .ok ⟨s.next, s.pathFor name⟩) := by
  unfold get
  rw [hn]
  simp only [h]

/-- The loader is asked for the libraries that are not loaded. -/
theorem asks_iff : s.Asks name ↔ s.loaded[name]? = none := by
  constructor
  · intro hask
    cases hn : s.loaded[name]? with
    | none => rfl
    | some lib => exact absurd hask (not_asks_of_loaded hn)
  · intro hn
    let willing : Loader := ⟨fun _ => .ok (), fun _ _ => .ok ()⟩
    let refusing : Loader := ⟨fun _ => .error "", fun _ _ => .error ""⟩
    have hok := get_of_ok hn (show willing.opens (s.pathFor name) = .ok () from rfl)
    have herror := get_of_error hn (show refusing.opens (s.pathFor name) = .error "" from rfl)
    refine ⟨willing, refusing, fun he => ?_⟩
    rw [hok, herror] at he
    cases congrArg Prod.snd he

/-! ## One call -/

/-- A call, and what it is answered with. -/
def serve (s : Libraries) (c : LibraryCall) : Libraries × LibraryResponse :=
  let s := { s with listing := c.listing }
  match c.request with
  | .library name =>
    let r := s.get c.loader name
    (r.1, .library r.2)
  | .hooks name sink drop =>
    let r := s.hooks c.loader name sink drop
    (r.1, .hooks r.2)

theorem entry_eq (loader : Loader) (name : String) (lib : Library) (symbol? : Option String) :
    entry loader name lib symbol? =
      match lib.lack? loader symbol?.toList with
      | some (symbol, reason) => .error (.unloadable (name ++ "::" ++ symbol) reason)
      | none => .ok (symbol?.map .symbol) := by
  cases symbol? with
  | none => rfl
  | some symbol =>
    unfold entry Library.lack?
    cases h : loader.symbol lib.path symbol <;> simp [h]

theorem lack?_append (lib : Library) (loader : Loader) (symbols symbols' : List String) :
    lib.lack? loader (symbols ++ symbols') =
      (lib.lack? loader symbols).or (lib.lack? loader symbols') := by
  unfold Library.lack?
  exact List.findSome?_append

theorem hooks_eq (s : Libraries) (loader : Loader) (name : String) (sink drop : Option String) :
    s.hooks loader name sink drop =
      ((s.get loader name).1,
        (s.get loader name).2.bind fun lib => lib.provide loader name sink drop) := by
  unfold hooks Library.provide
  refine Prod.ext rfl (congrArg (Except.bind _) (funext fun lib => ?_))
  rw [entry_eq, entry_eq, lack?_append]
  -- the second symbol is looked up only if the first one is there
  cases lib.lack? loader sink.toList with
  | some x => rfl
  | none => cases lib.lack? loader drop.toList <;> rfl

/-- A call gets what the library has to offer, or the reason why there is none. -/
theorem serve_eq {r : Libraries × Except Failure Library}
    (h : ({ s with listing := c.listing } : Libraries).get c.loader c.name = r) :
    s.serve c = (r.1, c.answer r.2) := by
  rw [← h]
  unfold serve LibraryCall.answer LibraryCall.name
  cases c.request with
  | library name => rfl
  | hooks name sink drop => simp only [hooks_eq, LibraryRequest.name]

theorem serve_of_loaded (h : s.loaded[c.name]? = some lib) :
    s.serve c = ({ s with listing := c.listing }, c.answer (.ok lib)) :=
  serve_eq (get_of_loaded (s := { s with listing := c.listing }) h c.loader)

theorem serve_of_error (hn : s.loaded[c.name]? = none) (h : c.opens = .error reason) :
    s.serve c = ({ s with listing := c.listing }, c.answer (.error (.unloadable c.name reason))) :=
  serve_eq (get_of_error (s := { s with listing := c.listing }) hn h)

/-- A call finds a loaded library, or opens one, or fails to. -/
theorem serve_cases (s : Libraries) (c : LibraryCall) :
    (∃ lib, s.loaded[c.name]? = some lib ∧
        s.serve c = ({ s with listing := c.listing }, c.answer (.ok lib))) ∨
      s.loaded[c.name]? = none ∧
        ((∃ reason, c.opens = .error reason ∧
            s.serve c =
              ({ s with listing := c.listing }, c.answer (.error (.unloadable c.name reason)))) ∨
          c.opens = .ok () ∧ ∃ lib : Library, lib.id = s.next ∧ s.serve c =
            ({ listing := c.listing, loaded := s.loaded.insert c.name lib, next := s.next + 1 },
              c.answer (.ok lib))) := by
  cases hn : s.loaded[c.name]? with
  | some lib => exact .inl ⟨lib, rfl, serve_of_loaded hn⟩
  | none =>
    refine .inr ⟨rfl, ?_⟩
    cases h : c.opens with
    | error reason => exact .inl ⟨reason, rfl, serve_of_error hn h⟩
    | ok u =>
      exact .inr ⟨rfl, _, rfl, serve_eq (get_of_ok (s := { s with listing := c.listing }) hn h)⟩

/-- If the library can be opened in case the loader is asked for it, the call gets it and it is loaded. -/
theorem loaded_of_opens (h : s.Asks c.name → c.opens = .ok ()) :
    ∃ lib, (s.serve c).1.loaded[c.name]? = some lib ∧ (s.serve c).2 = c.answer (.ok lib) := by
  obtain ⟨lib, hn, he⟩ | ⟨hn, ⟨reason, ho, he⟩ | ⟨ho, lib, -, he⟩⟩ := serve_cases s c
  · rw [he]
    exact ⟨lib, hn, rfl⟩
  · have hopen := h (asks_iff.2 hn)
    rw [ho] at hopen
    cases hopen
  · rw [he]
    exact ⟨lib, Std.ExtTreeMap.getElem?_insert_self, rfl⟩

/-- What is loaded stays loaded. -/
theorem loaded_serve (h : s.loaded[n]? = some lib) (c : LibraryCall) :
    (s.serve c).1.loaded[n]? = some lib := by
  obtain ⟨found, -, he⟩ | ⟨hn, ⟨reason, -, he⟩ | ⟨-, new, -, he⟩⟩ := serve_cases s c
  · rw [he]
    exact h
  · rw [he]
    exact h
  · rw [he]
    have hne : c.name ≠ n := fun hcn => by simp [← hcn, hn] at h
    simpa [Std.ExtTreeMap.getElem?_insert, hne] using h

/-- A call that succeeds got the library that is loaded now. -/
theorem library?_serve (h : (s.serve c).2.failure? = none) :
    ∃ lib, (s.serve c).1.loaded[c.name]? = some lib ∧ (s.serve c).2.library? = some lib.id := by
  obtain ⟨lib, hn, he⟩ | ⟨hn, ⟨reason, -, he⟩ | ⟨-, lib, -, he⟩⟩ := serve_cases s c
  · rw [he] at h ⊢
    exact ⟨lib, hn, LibraryCall.library?_answer h⟩
  · rw [he, LibraryCall.failure?_answer] at h
    cases h
  · rw [he] at h ⊢
    exact ⟨lib, Std.ExtTreeMap.getElem?_insert_self, LibraryCall.library?_answer h⟩

/-- Each library got a number of its own, and the next number is not taken. -/
structure Numbered (s : Libraries) : Prop where
  lt_next : ∀ {n : String} {lib : Library}, s.loaded[n]? = some lib → lib.id < s.next
  name_eq : ∀ {n n' : String} {lib lib' : Library}, s.loaded[n]? = some lib →
    s.loaded[n']? = some lib' → lib.id = lib'.id → n = n'

theorem Numbered.insert (hs : s.Numbered) (h : lib.id = s.next) (listing : List String) (name : String) :
    Numbered { listing, loaded := s.loaded.insert name lib, next := s.next + 1 } := by
  have hmem : ∀ {n : String} {lib' : Library}, (s.loaded.insert name lib)[n]? = some lib' →
      name = n ∧ lib' = lib ∨ name ≠ n ∧ s.loaded[n]? = some lib' := by
    intro n lib' hn
    rw [Std.ExtTreeMap.getElem?_insert] at hn
    split at hn
    next he => exact .inl ⟨Std.LawfulEqCmp.eq_of_compare he, (Option.some.inj hn).symm⟩
    next he => exact .inr ⟨fun heq => he (heq ▸ Std.ReflCmp.compare_self), hn⟩
  constructor
  · intro n lib' hn
    show lib'.id < s.next + 1
    obtain ⟨-, rfl⟩ | ⟨-, hn⟩ := hmem hn
    · exact h ▸ Nat.lt_succ_self _
    · exact Nat.lt_succ_of_lt (hs.lt_next hn)
  · intro n n' lib₁ lib₂ hn hn' hid
    obtain ⟨rfl, rfl⟩ | ⟨-, hold₁⟩ := hmem hn <;> obtain ⟨rfl, rfl⟩ | ⟨-, hold₂⟩ := hmem hn'
    · rfl
    · exact absurd (hid.symm.trans h) (Nat.ne_of_lt (hs.lt_next hold₂))
    · exact absurd (hid.trans h) (Nat.ne_of_lt (hs.lt_next hold₁))
    · exact hs.name_eq hold₁ hold₂ hid

theorem Numbered.serve (hs : s.Numbered) (c : LibraryCall) : (s.serve c).1.Numbered := by
  obtain ⟨lib, -, he⟩ | ⟨-, ⟨reason, -, he⟩ | ⟨-, lib, hid, he⟩⟩ := serve_cases s c
  · rw [he]
    exact ⟨hs.lt_next, hs.name_eq⟩
  · rw [he]
    exact ⟨hs.lt_next, hs.name_eq⟩
  · rw [he]
    exact hs.insert hid c.listing c.name

/-! ## All calls -/

/-- The libraries after some calls. -/
def after (cs : List LibraryCall) : Libraries :=
  cs.foldl (fun s c => (s.serve c).1) {}

theorem after_concat (cs : List LibraryCall) (c : LibraryCall) :
    after (cs ++ [c]) = ((after cs).serve c).1 :=
  List.foldl_append ..

theorem numbered_after (cs : List LibraryCall) : (after cs).Numbered := by
  induction cs using List.reverseRecOn with
  | nil =>
    have hnone : ∀ {n : String} {lib : Library}, (after []).loaded[n]? ≠ some lib :=
      fun h => by cases Std.ExtTreeMap.getElem?_empty.symm.trans h
    exact ⟨fun h => absurd h hnone, fun h => absurd h hnone⟩
  | append_singleton cs c ih =>
    rw [after_concat]
    exact ih.serve c

theorem loaded_after (h : (after cs).loaded[n]? = some lib) (cs' : List LibraryCall) :
    (after (cs ++ cs')).loaded[n]? = some lib := by
  induction cs' using List.reverseRecOn with
  | nil => rwa [List.append_nil]
  | append_singleton cs' c ih =>
    rw [← List.append_assoc, after_concat]
    exact loaded_serve ih c

/-- Libraries and hooks are asked for in any order, with any files in the root directory and any loader.  An
attempt to open a library that fails is reported and leaves things as they are, so the loader is asked again the
next time.  Any other call gets what the library has to offer; from then on this library is the library of the
name, and the loader is not asked for it any more.  Two calls that succeed got the same library just if they
asked for the same name. -/
theorem loading_run (cs : List LibraryCall) (c : LibraryCall) :
    (∀ reason, (after cs).Asks c.name → c.opens = .error reason →
      ((after cs).serve c).2 = c.answer (.error (.unloadable c.name reason)) ∧
        (after (cs ++ [c])).loaded = (after cs).loaded ∧ (after (cs ++ [c])).Asks c.name) ∧
    (((after cs).Asks c.name → c.opens = .ok ()) → ∃ lib,
      ((after cs).serve c).2 = c.answer (.ok lib) ∧
        ∀ cs', (after (cs ++ [c] ++ cs')).loaded[c.name]? = some lib ∧
          ¬(after (cs ++ [c] ++ cs')).Asks c.name) ∧
    ∀ cs' d, ((after cs).serve c).2.failure? = none →
      ((after (cs ++ [c] ++ cs')).serve d).2.failure? = none →
      ∃ i j, ((after cs).serve c).2.library? = some i ∧
        ((after (cs ++ [c] ++ cs')).serve d).2.library? = some j ∧ (i = j ↔ c.name = d.name) := by
  refine ⟨fun reason hask ho => ?_, fun hask => ?_, fun cs' d hc hd => ?_⟩
  · have hn := asks_iff.1 hask
    rw [after_concat, serve_of_error hn ho, asks_iff]
    exact ⟨rfl, rfl, hn⟩
  · obtain ⟨lib, hlib, hserve⟩ := loaded_of_opens hask
    refine ⟨lib, hserve, fun cs' => ?_⟩
    have hlater := loaded_after ((after_concat cs c).symm ▸ hlib) cs'
    exact ⟨hlater, not_asks_of_loaded hlater⟩
  · obtain ⟨lib, hlib, hi⟩ := library?_serve hc
    obtain ⟨lib', hlib', hj⟩ := library?_serve hd
    refine ⟨lib.id, lib'.id, hi, hj, ?_⟩
    rw [← after_concat] at hlib hlib'
    have hlater := loaded_after (loaded_after hlib cs') [d]
    constructor
    · intro hid
      exact (numbered_after _).name_eq hlater hlib' hid
    · intro hname
      rw [← hname] at hlib'
      cases hlater.symm.trans hlib'
      rfl

/-- A loader that finds no file. -/
def absent : Loader := ⟨fun _ => .error "no such file", fun _ _ => .ok ()⟩

/-- A loader that opens every file, and finds a single symbol there. -/
def present : Loader :=
  ⟨fun _ => .ok (), fun _ symbol => if symbol = "free" then .ok () else .error "undefined"⟩

/-- The first attempt fails, and the second one finds a symbol missing; yet it loaded the library, which
the third one gets from a loader that would refuse it, and so does the last one. -/
theorem loading_run_retried :
    let first : LibraryCall := ⟨[], absent, .hooks "libc" none (some "free")⟩
    let second : LibraryCall := ⟨[], present, .hooks "libc" (some "take") (some "free")⟩
    let last : LibraryCall := ⟨[], present, .library "libc"⟩
    ((after []).Asks "libc" ∧ first.opens = .error "no such file" ∧ (after [first]).Asks "libc") ∧
    (∃ lib, second.opens = .ok () ∧ ((after [first]).serve second).2 = second.answer (.ok lib) ∧
      ((after [first]).serve second).2.failure? = some (.unloadable "libc::take" "undefined") ∧
      ¬(after [first, second]).Asks "libc") ∧
    ∃ i, ((after [first, second]).serve first).2.library? = some i ∧
      ((after [first, second, first]).serve last).2.library? = some i := by
  intro first second last
  have hask : (after []).Asks "libc" := asks_iff.2 (by decide +kernel)
  have hfirst : first.opens = .error "no such file" := rfl
  obtain ⟨-, -, hask'⟩ := (loading_run [] first).1 _ hask hfirst
  obtain ⟨lib, hserve, hlater⟩ := (loading_run [first] second).2.1 fun _ => rfl
  obtain ⟨i, j, hi, hj, hij⟩ :=
    (loading_run [first, second] first).2.2 [] last (by decide +kernel) (by decide +kernel)
  obtain rfl := hij.2 rfl
  exact ⟨⟨hask, hfirst, hask'⟩, ⟨lib, rfl, hserve, by decide +kernel, (hlater []).2⟩, i, hi, hj⟩

end Libraries

end NativeProxies
