import SignalChain.CommandLine

/-!
# The program

Runs a simulated chain in real time: every round of the simulation is held back until the clock of
the machine has come as far as the clock of the chain. The log goes to the standard error, the
counters to the standard output.
-/

namespace SignalChain.Program

/-- Read a file as text. -/
def readTextFile (path : String) : IO (Except CommandLine.ReadFault String) := do
  try
    let bytes ← IO.FS.readBinFile path
    match String.fromUTF8? bytes with
    | some text => return .ok text
    | none => return .error .notText
  catch e =>
    match e with
    | .noFileOrDirectory .. => return .error .missing
    | .inappropriateType none .. => return .error .isDirectory
    | .inappropriateType (some _) .. => return .error .notDirectory
    | .permissionDenied .. => return .error .denied
    | .invalidArgument (some _) .. => return .error .nameTooLong
    | e => return .error (.other (toString e))

/-- Write the lines of a journal to the log, those of the lowest level left out. -/
def writeLog (j : Journal) : IO Unit := do
  for l in j.fullLines do
    if l.severity ≠ .debug then
      IO.eprintln l.render

/-- Hold back until `instant`, counted in microseconds from `origin`. -/
def holdBack (origin : Nat) (instant : Nat) : IO Unit := do
  let now := (← IO.monoNanosNow) / 1000
  if now < origin + instant then
    IO.sleep (UInt32.ofNat ((origin + instant - now) / 1000 + 1))

/-- Rounds in real time, until the deadline or a halt. -/
partial def play (origin deadline : Nat) (s : Simulation) : IO Simulation := do
  let (s, journal) := s.round
  writeLog journal
  if s.goesOn deadline then
    holdBack origin s.chain.wiring.now.toNat
    play origin deadline s
  else
    holdBack origin (min deadline s.chain.wiring.now.toNat)
    return s

/-- Run the program to its end. The counters are printed unless a stage broke. -/
def execute (args : List String) (seconds : Option String) :
    IO (Except CommandLine.Failure Unit) := do
  let contents ← match args with
    | [] => pure (.error .missing)
    | path :: _ => readTextFile path
  match CommandLine.prepare (fun _ => contents) args with
  | .error failure => return .error failure
  | .ok simulation =>
    writeLog simulation.chain.opening
    let origin := (← IO.monoNanosNow) / 1000
    let s ← play origin (CommandLine.runSeconds seconds * 1000000) simulation
    let (s, journal) := s.stop
    writeLog journal
    if s.chain.exits.isOk then
      IO.println s.chain.counters.toPretty
    return CommandLine.conclude s

end SignalChain.Program

open SignalChain in
/-- Run the program as the environment asks for. -/
def main (args : List String) : IO UInt32 := do
  match ← Program.execute args (← IO.getEnv "SENSEPIPE_RUN_SECS") with
  | .ok _ => return 0
  | .error failure =>
    for line in failure.lines do
      IO.eprintln line
    return 1
