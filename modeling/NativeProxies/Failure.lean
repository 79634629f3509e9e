import NativeProxies.Identifier

/-!
# Failures

What can go wrong in an operation a script asks for (`Failure`), and the two ways in which the
ownership of a native object cannot be settled (`OwnershipFailure`), which a script never sees.
An object is named by its address unless the reader has better names (`Failure.messageWith`).
-/

namespace NativeProxies

/-- Why a member or field could not be accessed. -/
inductive AccessRefusal
  /-- Raw fields of this object are not served. -/
  | noFields (object : Address)
  /-- A reason in words. -/
  | because (reason : String)
deriving DecidableEq, Repr

/-- The failures of operations on a bridge. -/
inductive Failure
  /-- An argument is not of the expected type. -/
  | typeMismatch (position : Nat) (expected actual : String)
  /-- The cache holds an entry where none was expected. -/
  | staleEntry (object : Address)
  /-- A word that names nothing a proxy can be inspected for. -/
  | unknownAspect (word : String)
  /-- A member or field could not be read or written. -/
  | inaccessible (member : String) (reason : AccessRefusal)
  /-- A shared library, or a symbol in it, could not be loaded. -/
  | unloadable (name reason : String)
deriving DecidableEq, Repr

namespace AccessRefusal

/-- The reason in words, with objects called as `naming` says. -/
def text (naming : Address → String) : AccessRefusal → String
  | noFields a => "no field marshalling available for " ++ naming a
  | because reason => reason

end AccessRefusal

namespace Failure

/-- The message of a failure, with objects called as `naming` says. -/
def messageWith (naming : Address → String) : Failure → String
  | typeMismatch position expected actual =>
    "bad argument #" ++ toString position ++ " (" ++ expected ++ " expected, got " ++ actual ++ ")"
  | staleEntry a => "proxy cache already holds an entry for " ++ naming a
  | unknownAspect word => "bad query mode `" ++ word ++ "`"
  | inaccessible member reason => "cannot access `" ++ member ++ "`: " ++ reason.text naming
  | unloadable name reason => "cannot load `" ++ name ++ "`: " ++ reason

/-- The message of a failure. -/
def message : Failure → String := messageWith Address.text

end Failure

/-- The two directions in which ownership of a reference moves. -/
inductive Transfer
  /-- A reference is taken. -/
  | take
  /-- A reference is given back. -/
  | giveBack
deriving DecidableEq, Repr

/-- There is no way to move a reference to objects of this type. -/
structure OwnershipFailure where
  transfer : Transfer
  typeName : String
deriving DecidableEq, Repr

namespace Transfer

def verb : Transfer → String
  | take => "ref"
  | giveBack => "unref"

end Transfer

namespace OwnershipFailure

def message (e : OwnershipFailure) : String :=
  "no way to " ++ e.transfer.verb ++ " type `" ++ e.typeName ++ "`"

end OwnershipFailure

end NativeProxies
