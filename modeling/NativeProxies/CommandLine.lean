import NativeProxies.Text.Numeral

/-!
# The command line

Options may be written long (`--objects 5`, `--objects=5`) or short (`-o 5`, `-o5`, `-o=5`), each
at most once, and there are no positional arguments.  A value that stands in an argument of its
own is looked at only when the next option, or the end, shows that it is complete; so the first
fault met in that order is the one reported (`CommandLine.read`).
-/

namespace NativeProxies

/-- What a command line asks for. -/
structure CommandLine where
  /-- Objects wrapped in each round. -/
  objects : Nat := 1000
  /-- Threads that hold objects from outside. -/
  workers : Nat := 4
  rounds : Nat := 3
  /-- Takes the place of the threshold in the environment. -/
  threshold : Option Nat := none
  trace : Bool := false
deriving DecidableEq, Repr

/-- Faults of a command line. -/
inductive UsageError
  | unknownArgument
  /-- An option without its value. -/
  | missingValue
  /-- A value that is no count. -/
  | badValue
  /-- An option that was given before. -/
  | repeated
  /-- A value for an option that takes none. -/
  | unexpectedValue
deriving DecidableEq, Repr

/-- Why a command line asks for no run. -/
inductive Halt
  | help
  | version
  | usage (e : UsageError)
deriving DecidableEq, Repr

namespace Halt

/-- The exit code. -/
def code : Halt → Nat
  | usage _ => 2
  | _ => 0

end Halt

namespace CommandLine

/-- The options that take a value. -/
inductive Valued
  | objects
  | workers
  | rounds
  | threshold
deriving DecidableEq, Repr

/-- The options that take none. -/
inductive Flag
  | trace
  | help
  | version
deriving DecidableEq, Repr

/-- The option of a long name. -/
def longOption? (name : String) : Option (Valued ⊕ Flag) :=
  if name = "objects" then some (.inl .objects)
  else if name = "workers" then some (.inl .workers)
  else if name = "rounds" then some (.inl .rounds)
  else if name = "collect-threshold" then some (.inl .threshold)
  else if name = "trace" then some (.inr .trace)
  else if name = "help" then some (.inr .help)
  else if name = "version" then some (.inr .version)
  else none

/-- The option of a short name. -/
def shortOption? (c : Char) : Option (Valued ⊕ Flag) :=
  if c = 'o' then some (.inl .objects)
  else if c = 'w' then some (.inl .workers)
  else if c = 'r' then some (.inl .rounds)
  else if c = 'h' then some (.inr .help)
  else if c = 'V' then some (.inr .version)
  else none

/-- How far the reading has come. -/
structure Reading where
  objects : Option Nat := none
  workers : Option Nat := none
  rounds : Option Nat := none
  threshold : Option Nat := none
  trace : Bool := false
  /-- The option met last, with its value if that has been met, too. -/
  pending : Option (Valued × Option String) := none

namespace Reading

/-- The value given for an option. -/
def get (r : Reading) : Valued → Option Nat
  | .objects => r.objects
  | .workers => r.workers
  | .rounds => r.rounds
  | .threshold => r.threshold

def set (r : Reading) (n : Nat) : Valued → Reading
  | .objects => { r with objects := some n }
  | .workers => { r with workers := some n }
  | .rounds => { r with rounds := some n }
  | .threshold => { r with threshold := some n }

/-- Takes up the value of an option. -/
def assign (r : Reading) (o : Valued) (value : String) : Except Halt Reading :=
  if (r.get o).isSome then .error (.usage .repeated)
  else match Numeral.count? value with
    | none => .error (.usage .badValue)
    | some n => .ok (r.set n o)

/-- Takes up the option that is pending, which has to have its value by now. -/
def settle (r : Reading) : Except Halt Reading :=
  match r.pending with
  | none => .ok r
  | some (_, none) => .error (.usage .missingValue)
  | some (o, some value) => { r with pending := none }.assign o value

/-- Takes up an option without value. -/
def flag (r : Reading) (f : Flag) : Except Halt Reading :=
  match r.settle with
  | .error e => .error e
  | .ok r =>
    match f with
    | .trace => if r.trace then .error (.usage .repeated) else .ok { r with trace := true }
    | .help => .error .help
    | .version => .error .version

/-- Takes up an option, whose value may be attached to it. -/
def option (r : Reading) (value : Option String) : Option (Valued ⊕ Flag) → Except Halt Reading
  | none => .error (.usage .unknownArgument)
  | some (.inr f) => if value.isSome then .error (.usage .unexpectedValue) else r.flag f
  | some (.inl o) =>
    match r.settle with
    | .error e => .error e
    | .ok r =>
      match value with
      | some v => r.assign o v
      | none => .ok { r with pending := some (o, none) }

/-- Takes up an argument that is no option: the value that a pending option waits for. -/
def plain (r : Reading) (arg : String) : Except Halt Reading :=
  match r.pending with
  | some (o, none) => .ok { r with pending := some (o, some arg) }
  | _ => .error (.usage .unknownArgument)

/-- The value attached to a long option, after an equals sign. -/
def attachedLong : List Char → Option String
  | '=' :: cs => some (String.ofList cs)
  | _ => none

/-- The value attached to a short option, after an equals sign or not. -/
def attachedShort : List Char → Option String
  | [] => none
  | '=' :: cs => some (String.ofList cs)
  | cs => some (String.ofList cs)

/-- Takes up a short option with what is written directly behind it; nothing is read behind an
option without value. -/
def short (r : Reading) (o : Option (Valued ⊕ Flag)) (rest : List Char) : Except Halt Reading :=
  match o with
  | some (.inr f) => r.flag f
  | o => r.option (attachedShort rest) o

/-- Takes up an argument. -/
def argument (r : Reading) (arg : String) : Except Halt Reading :=
  match arg.toList with
  | '-' :: '-' :: cs =>
    r.option (attachedLong (cs.dropWhile (· ≠ '=')))
      (longOption? (String.ofList (cs.takeWhile (· ≠ '='))))
  | '-' :: c :: cs => r.short (shortOption? c) cs
  | _ => r.plain arg

/-- Takes up arguments in order; nothing may follow an argument of two dashes. -/
def arguments (r : Reading) : List String → Except Halt Reading
  | [] => r.settle
  | "--" :: rest => if rest.isEmpty then r.settle else .error (.usage .unknownArgument)
  | arg :: rest =>
    match r.argument arg with
    | .error e => .error e
    | .ok r => r.arguments rest

end Reading

/-- Reads the arguments after the program's name. -/
def read (args : List String) : Except Halt CommandLine :=
  (Reading.arguments { } args).map fun r =>
    { objects := r.objects.getD 1000
      workers := r.workers.getD 4
      rounds := r.rounds.getD 3
      threshold := r.threshold
      trace := r.trace }

/-- The lines that answer a request for help. -/
def helpLines : List String :=
  ["Exercises the proxy bridge against the in-process object host",
   "",
   "Usage: proxy-bridge [OPTIONS]",
   "",
   "Options:",
   "  -o, --objects <OBJECTS>            Objects wrapped per round [default: 1000]",
   "  -w, --workers <WORKERS>            Threads acting as external holders [default: 4]",
   "  -r, --rounds <ROUNDS>              [default: 3]",
   "      --collect-threshold <PROXIES>  Overrides PROXY_BRIDGE_COLLECT_THRESHOLD; "
     ++ "0 disables automatic collection",
   "      --trace                        Log bridge activity to stderr",
   "  -h, --help                         Print help",
   "  -V, --version                      Print version"]

/-- The line that answers a request for the version. -/
def versionLine : String := "proxy-bridge 0.1.0"

end CommandLine

namespace Halt

/-- The lines written instead of a run. -/
def output : Halt → List String
  | help => CommandLine.helpLines
  | version => [CommandLine.versionLine]
  | usage _ => []

end Halt

namespace UsageError

/-- What is wrong, in words. -/
def message : UsageError → String
  | unknownArgument => "unexpected argument"
  | missingValue => "a value is required"
  | badValue => "invalid value"
  | repeated => "an option cannot be used multiple times"
  | unexpectedValue => "unexpected value"

end UsageError

end NativeProxies
