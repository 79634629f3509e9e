import NativeProxies.Scenario

/-!
# The program

Reads the command line and the environment, runs the demonstration, and writes what it says.
-/

open NativeProxies

def main (args : List String) : IO UInt32 := do
  match CommandLine.read args with
  | .error halt =>
    halt.output.forM IO.println
    if let .usage e := halt then IO.eprintln ("error: " ++ e.message)
    return halt.code.toUInt32
  | .ok line =>
    let threshold ← IO.getEnv Settings.thresholdVariable
    let strict ← IO.getEnv Settings.strictVariable
    let env (name : String) : Option String :=
      if name = Settings.thresholdVariable then threshold
      else if name = Settings.strictVariable then strict
      else none
    let t := Scenario.run line env
    t.output.forM IO.println
    t.complaint.forM IO.eprintln
    return t.code.toUInt32
