import Mathlib.Data.List.Forall2
import NativeProxies.Proofs.Loading

/-!
# Listings of the root directory

The files of the root directory are listed in no particular order, and the first listed file whose name begins
with the requested one is taken.  So any file whose name begins with it may be taken, and one of exactly this
name may be passed over (`Libraries.not_determined_versions`).  The path is determined by the files if and only
if no two of them come into question (`Libraries.determined_iff`), and then runs that find the files listed in
different orders get the same answers (`Libraries.listing_run`).
-/

namespace NativeProxies

namespace Libraries

variable {s : Libraries} {c d : LibraryCall} {cs ds : List LibraryCall} {files l : List String}
  {name file : String}

/-! ## The first file -/

/-- The files that come into question for a name. -/
def candidates (files : List String) (name : String) : List String :=
  files.filter fun file => file.startsWith name

theorem mem_candidates_self (h : name ∈ files) : name ∈ candidates files name :=
  List.mem_filter.2 ⟨h, String.startsWith_string_iff.2 List.prefix_rfl⟩

theorem pathFor_eq (listing : List String) (name : String) :
    pathFor { listing } name = ((candidates listing name).head?.map .inRoot).getD (.plain name) := by
  rw [candidates, List.head?_filter]
  rfl

/-- In whatever order the files are listed, a candidate is taken, or the name itself if there is none. -/
theorem pathFor_cases (hl : l.Perm files) (name : String) :
    (∃ file ∈ candidates files name, pathFor { listing := l } name = .inRoot file) ∨
      candidates files name = [] ∧ pathFor { listing := l } name = .plain name := by
  have hperm : (candidates l name).Perm (candidates files name) := hl.filter _
  rw [pathFor_eq]
  cases hc : candidates l name with
  | nil =>
    rw [hc] at hperm
    exact .inr ⟨hperm.symm.eq_nil, rfl⟩
  | cons file rest => exact .inl ⟨file, hperm.mem_iff.1 (hc ▸ List.mem_cons_self), rfl⟩

theorem pathFor_eq_plain (hl : l.Perm files) (h : candidates files name = []) :
    pathFor { listing := l } name = .plain name := by
  obtain ⟨file, hfile, -⟩ | ⟨-, he⟩ := pathFor_cases hl name
  · rw [h] at hfile
    exact absurd hfile List.not_mem_nil
  · exact he

/-- Each candidate is taken if the files are listed in a suitable order. -/
theorem exists_pathFor_of_mem (h : file ∈ candidates files name) :
    ∃ l : List String, l.Perm files ∧ pathFor { listing := l } name = .inRoot file := by
  obtain ⟨hmem, hstarts⟩ := List.mem_filter.1 h
  have hc : candidates (file :: files.erase file) name = file :: candidates (files.erase file) name :=
    List.filter_cons_of_pos hstarts
  refine ⟨file :: files.erase file, (List.perm_cons_erase hmem).symm, ?_⟩
  rw [pathFor_eq, hc]
  rfl

/-- What may be taken for a name, in one order of the files or another. -/
theorem exists_pathFor_iff {path : LibraryPath} :
    (∃ l : List String, l.Perm files ∧ pathFor { listing := l } name = path) ↔
      (∃ file ∈ candidates files name, path = .inRoot file) ∨
        candidates files name = [] ∧ path = .plain name := by
  constructor
  · rintro ⟨l, hl, rfl⟩
    exact pathFor_cases hl name
  · rintro (⟨file, hfile, rfl⟩ | ⟨hc, rfl⟩)
    · exact exists_pathFor_of_mem hfile
    · exact ⟨files, .refl files, pathFor_eq_plain (.refl files) hc⟩

/-! ## Names without ambiguity -/

/-- For a name the same path is taken in whatever order the files are listed, and it is the file of exactly this
name if there is one. -/
structure Determined (files : List String) (name : String) : Prop where
  unique : ∀ l l' : List String, l.Perm files → l'.Perm files →
    pathFor { listing := l } name = pathFor { listing := l' } name
  named : name ∈ files → ∀ l : List String, l.Perm files → pathFor { listing := l } name = .inRoot name

/-- If no two files come into question, one that does is taken. -/
theorem pathFor_eq_inRoot
    (h : ∀ file ∈ candidates files name, ∀ file' ∈ candidates files name, file = file')
    (hl : l.Perm files) (hfile : file ∈ candidates files name) :
    pathFor { listing := l } name = .inRoot file := by
  obtain ⟨file', hfile', he⟩ | ⟨hc, -⟩ := pathFor_cases hl name
  · rw [he, h file' hfile' file hfile]
  · rw [hc] at hfile
    exact absurd hfile List.not_mem_nil

/-- The path for a name is determined by the files if and only if no two of them come into question. -/
theorem determined_iff : Determined files name ↔
    ∀ file ∈ candidates files name, ∀ file' ∈ candidates files name, file = file' := by
  constructor
  · intro h file hfile file' hfile'
    obtain ⟨l, hl, he⟩ := exists_pathFor_of_mem hfile
    obtain ⟨l', hl', he'⟩ := exists_pathFor_of_mem hfile'
    exact LibraryPath.inRoot.inj (he.symm.trans ((h.unique l l' hl hl').trans he'))
  · intro h
    refine ⟨fun l l' hl hl' => ?_, fun hname l hl => pathFor_eq_inRoot h hl (mem_candidates_self hname)⟩
    obtain ⟨file, hfile, -⟩ | ⟨hc, -⟩ := pathFor_cases (.refl files) name
    · rw [pathFor_eq_inRoot h hl hfile, pathFor_eq_inRoot h hl' hfile]
    · rw [pathFor_eq_plain hl hc, pathFor_eq_plain hl' hc]

/-- Two versions of a library, the name of one of which begins with the name of the other. -/
def versions : List String := ["libhooks.so.10", "libhooks.so.1"]

/-- The version that is listed first is taken for the other one, which is there as well. -/
theorem not_determined_versions : ¬Determined versions "libhooks.so.1" := by
  intro h
  have hfirst : pathFor { listing := versions } "libhooks.so.1" = .inRoot "libhooks.so.10" := by
    decide +kernel
  have hnamed := h.named (by decide) versions (.refl versions)
  exact absurd (hfirst.symm.trans hnamed) (by decide)

/-! ## Calls -/

/-- The order of the files does not matter if the same path is taken, or none is needed. -/
theorem get_relisted (loader : Loader)
    (h : s.Asks name → pathFor { listing := l } name = s.pathFor name) :
    ({ s with listing := l } : Libraries).get loader name =
      ({ (s.get loader name).1 with listing := l }, (s.get loader name).2) := by
  cases hn : s.loaded[name]? with
  | some lib =>
    rw [get_of_loaded hn]
    exact get_of_loaded (s := { s with listing := l }) hn loader
  | none =>
    have hpath : ({ s with listing := l } : Libraries).pathFor name = s.pathFor name := h (asks_iff.2 hn)
    cases ho : loader.opens (s.pathFor name) with
    | error reason =>
      rw [get_of_error hn ho]
      exact get_of_error (s := { s with listing := l }) hn (hpath.symm ▸ ho)
    | ok u =>
      rw [get_of_ok hn ho, get_of_ok (s := { s with listing := l }) hn (hpath.symm ▸ ho), hpath]

theorem serve_relisted
    (h : s.Asks c.name → pathFor { listing := l } c.name = pathFor { listing := c.listing } c.name) :
    s.serve { c with listing := l } = ({ (s.serve c).1 with listing := l }, (s.serve c).2) := by
  have hasks : ({ s with listing := c.listing } : Libraries).Asks c.name → s.Asks c.name :=
    fun ha => asks_iff.2 (asks_iff.1 ha :)
  have hget := get_relisted (s := { s with listing := c.listing }) c.loader fun ha => h (hasks ha)
  rw [serve_eq (c := c) rfl]
  exact serve_eq (s := s) (c := { c with listing := l }) hget

/-- It is not left to the order of the files which library a call gets. -/
def Settled (s : Libraries) (c : LibraryCall) : Prop := s.Asks c.name → Determined c.listing c.name

theorem Settled.serve_relisted (h : s.Settled c) (hl : l.Perm c.listing) :
    s.serve { c with listing := l } = ({ (s.serve c).1 with listing := l }, (s.serve c).2) :=
  Libraries.serve_relisted fun ha => (h ha).unique l c.listing hl (.refl c.listing)

/-- A loader that can open a single file, and finds every symbol in it. -/
def opensOnly (file : String) : Loader where
  opens path := if path = .inRoot file then .ok () else .error "no such file"
  symbol _ _ := .ok ()

theorem failure?_answer_opensOnly (c : LibraryCall) (lib : Library) :
    (({ c with loader := opensOnly file } : LibraryCall).answer (.ok lib)).failure? = none := by
  unfold LibraryCall.answer
  cases c.request with
  | library name => rfl
  | hooks name sink drop =>
    have hlack : lib.lack? (opensOnly file) (sink.toList ++ drop.toList) = none :=
      List.findSome?_eq_none_iff.2 fun symbol _ => rfl
    simp only [Except.bind, Library.provide, hlack, LibraryResponse.failure?]

/-- With a loader that can open a single file, just the calls that take its path succeed. -/
theorem failure?_serve_opensOnly (h : s.Asks c.name) :
    (s.serve { c with loader := opensOnly file }).2.failure? = none ↔
      pathFor { listing := c.listing } c.name = .inRoot file := by
  have hn := asks_iff.1 h
  have hopens : ({ c with loader := opensOnly file } : LibraryCall).opens =
      if pathFor { listing := c.listing } c.name = .inRoot file then .ok () else .error "no such file" := rfl
  split_ifs at hopens with hp
  · have hget := get_of_ok (s := { s with listing := c.listing }) hn hopens
    rw [serve_eq (c := { c with loader := opensOnly file }) hget]
    exact iff_of_true (failure?_answer_opensOnly c _) hp
  · rw [serve_of_error (c := { c with loader := opensOnly file }) hn hopens, LibraryCall.failure?_answer]
    exact iff_of_false nofun hp

/-- The order of the files does not matter to a call if and only if it is settled. -/
theorem settled_iff : s.Settled c ↔ ∀ (loader : Loader) (l : List String), l.Perm c.listing →
    (s.serve { c with loader, listing := l }).2 = (s.serve { c with loader }).2 := by
  constructor
  · intro h loader l hl
    have hserve := Settled.serve_relisted (c := { c with loader }) h hl
    rw [hserve]
  · intro h hask
    -- otherwise the loader could refuse all but one of the files that come into question
    have htaken : ∀ file ∈ candidates c.listing c.name,
        pathFor { listing := c.listing } c.name = .inRoot file := by
      intro file hfile
      obtain ⟨l, hl, he⟩ := exists_pathFor_of_mem hfile
      rw [← failure?_serve_opensOnly hask, ← h _ l hl]
      exact (failure?_serve_opensOnly (c := { c with listing := l }) hask).2 he
    refine determined_iff.2 fun file hfile file' hfile' => ?_
    exact LibraryPath.inRoot.inj ((htaken file hfile).symm.trans (htaken file' hfile'))

/-! ## All calls -/

/-- What calls are answered with. -/
def answers (s : Libraries) : List LibraryCall → List LibraryResponse
  | [] => []
  | c :: cs => (s.serve c).2 :: (s.serve c).1.answers cs

/-- Each call in turn is settled. -/
def SettledAlong (s : Libraries) : List LibraryCall → Prop
  | [] => True
  | c :: cs => s.Settled c ∧ (s.serve c).1.SettledAlong cs

/-- The same call finds the same files, but may find them listed in another order. -/
def Reorders (c d : LibraryCall) : Prop := ∃ l : List String, l.Perm c.listing ∧ d = { c with listing := l }

theorem answers_reordered (h : List.Forall₂ Reorders cs ds) (hs : s.SettledAlong cs) (l : List String) :
    ({ s with listing := l } : Libraries).answers ds = s.answers cs := by
  induction h generalizing s l with
  | nil => rfl
  | @cons c d cs ds hcd _ ih =>
    obtain ⟨hc, hcs⟩ := hs
    obtain ⟨l', hl', rfl⟩ := hcd
    have hserve : ({ s with listing := l } : Libraries).serve { c with listing := l' } =
        ({ (s.serve c).1 with listing := l' }, (s.serve c).2) := hc.serve_relisted hl'
    rw [answers, answers, hserve, ih hcs]

/-- Files are listed in any order, and libraries are asked for in the course of time.  For a name any of the files
that come into question may be taken, and the name itself if there are none; so the path is determined by the
files just if no two of them come into question.  A call depends on the order of the files just if the library
is not loaded and the path is not determined.  Where no call does, the same calls are answered alike in whatever
orders they find the files listed. -/
theorem listing_run (cs : List LibraryCall) (c : LibraryCall) :
    (∀ path, (∃ l : List String, l.Perm c.listing ∧ pathFor { listing := l } c.name = path) ↔
      (∃ file ∈ candidates c.listing c.name, path = .inRoot file) ∨
        candidates c.listing c.name = [] ∧ path = .plain c.name) ∧
    (Determined c.listing c.name ↔ ∀ file ∈ candidates c.listing c.name,
      ∀ file' ∈ candidates c.listing c.name, file = file') ∧
    ((after cs).Settled c ↔ ∀ (loader : Loader) (l : List String), l.Perm c.listing →
      ((after cs).serve { c with loader, listing := l }).2 = ((after cs).serve { c with loader }).2) ∧
    ∀ ds, List.Forall₂ Reorders cs ds → SettledAlong {} cs → answers {} ds = answers {} cs :=
  ⟨fun _ => exists_pathFor_iff, determined_iff, settled_iff, fun _ h hs => answers_reordered h hs []⟩

/-- A library is asked for under a name with which a single file begins.  When another such file is there the
library is loaded, and asked for once more. -/
theorem listing_run_reordered :
    let library (files : List String) (name : String) : LibraryCall := ⟨files, present, .library name⟩
    let cs := [library ["libm.so.6", "libhooks.so.1"] "libhooks.so.1", library versions "libm.so.6",
      library versions "libhooks.so.1"]
    let ds := [library ["libhooks.so.1", "libm.so.6"] "libhooks.so.1", library versions.reverse "libm.so.6",
      library versions.reverse "libhooks.so.1"]
    SettledAlong {} cs ∧ List.Forall₂ Reorders cs ds ∧ ¬Determined versions "libhooks.so.1" ∧
      answers {} ds = answers {} cs ∧
      (answers {} ds).map LibraryResponse.library? = [some 0, some 1, some 0] := by
  intro library cs ds
  have hsettled : SettledAlong {} cs := by
    refine ⟨fun _ => determined_iff.2 (by decide +kernel), fun _ => determined_iff.2 (by decide +kernel),
      fun hask => absurd (asks_iff.1 hask) (by decide +kernel), trivial⟩
  have hreorders : List.Forall₂ Reorders cs ds :=
    .cons ⟨_, by decide, rfl⟩ (.cons ⟨_, by decide, rfl⟩ (.cons ⟨_, by decide, rfl⟩ .nil))
  obtain ⟨-, hdetermined, -, hanswers⟩ := listing_run cs (library versions "libhooks.so.1")
  have hversions : ¬Determined versions "libhooks.so.1" := fun h => by
    have heq := hdetermined.1 h "libhooks.so.10" (by decide +kernel) "libhooks.so.1" (by decide +kernel)
    exact absurd heq (by decide)
  have he := hanswers ds hreorders hsettled
  exact ⟨hsettled, hreorders, hversions, he, he ▸ by decide +kernel⟩

end Libraries

end NativeProxies
