import NativeProxies.Catalog

/-!
# Shared libraries

Libraries that provide ownership hooks are loaded once for each name.  A name is looked up in a
root directory first, where the first listed file whose name begins with it is taken; otherwise
the loader gets the name as it is.
-/

namespace NativeProxies

/-- What the loader is asked to open. -/
inductive LibraryPath
  /-- A file of the root directory. -/
  | inRoot (file : String)
  /-- A name that the loader resolves itself. -/
  | plain (name : String)
deriving DecidableEq, Repr

/-- The behaviour of the dynamic loader. -/
structure Loader where
  /-- Whether opening succeeds, or the reason why not. -/
  opens : LibraryPath → Except String Unit
  /-- Whether an opened library has a symbol, or the reason why not. -/
  symbol : LibraryPath → String → Except String Unit

/-- A library that is loaded. -/
structure Library where
  id : LibraryId
  path : LibraryPath
deriving DecidableEq, Repr

/-- The loaded libraries. -/
structure Libraries where
  /-- The files of the root directory as they are listed; a missing directory lists none. -/
  listing : List String := []
  loaded : Map String Library := ∅
  /-- The number of the next library. -/
  next : LibraryId := 0

namespace Libraries

/-- The path for a name: the first listed file whose name begins with it, else the name itself.  File names are
texts here, so files whose names are not UTF-8, which would be compared with replacement characters in them, are
left out of account. -/
def pathFor (s : Libraries) (name : String) : LibraryPath :=
  ((s.listing.find? fun file => file.startsWith name).map .inRoot).getD (.plain name)

/-- The library of a name, loaded if it is not. -/
def get (s : Libraries) (loader : Loader) (name : String) : Libraries × Except Failure Library :=
  match s.loaded[name]? with
  | some lib => (s, .ok lib)
  | none =>
    let path := s.pathFor name
    match loader.opens path with
    | .error reason => (s, .error (.unloadable name reason))
    | .ok _ =>
      let lib := ⟨s.next, path⟩
      ({ s with loaded := s.loaded.insert name lib, next := s.next + 1 }, .ok lib)

/-- The entry point for a symbol of a library that is known by a name. -/
def entry (loader : Loader) (name : String) (lib : Library) :
    Option String → Except Failure (Option EntryPoint)
  | none => .ok none
  | some symbol =>
    match loader.symbol lib.path symbol with
    | .ok _ => .ok (some (.symbol symbol))
    | .error reason => .error (.unloadable (name ++ "::" ++ symbol) reason)

/-- The hooks made of two symbols of a library, either of which may be left out. -/
def hooks (s : Libraries) (loader : Loader) (name : String) (sink drop : Option String) :
    Libraries × Except Failure OwnershipHooks :=
  let r := s.get loader name
  (r.1, do
    let lib ← r.2
    let sink ← entry loader name lib sink
    let drop ← entry loader name lib drop
    return { sink, drop, keepalive := some lib.id })

end Libraries

end NativeProxies
