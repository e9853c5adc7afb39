import SignalChain.Counters.Json
import SignalChain.Settings.Json
import SignalChain.Simulation

/-!
# The command line

The program takes the name of a settings file, runs a simulated chain for a number of seconds and
prints the counters. This module decides everything but the passing of time: where the settings
come from, how long the run is, and what a failure prints.
-/

namespace SignalChain

namespace CommandLine

/-- Why a file could not be read as text. -/
inductive ReadFault where
  | missing
  | isDirectory
  /-- Something on the way to the file is no directory. -/
  | notDirectory
  /-- The name, or one step of it, is longer than names can be. -/
  | nameTooLong
  /-- The file may not be read. -/
  | denied
  /-- The bytes are no text. -/
  | notText
  /-- Any other reason, in the words of the system. -/
  | other (details : String)
  deriving DecidableEq

/-- The wording of a read fault. -/
def ReadFault.message : ReadFault → String
  | missing => "No such file or directory (os error 2)"
  | isDirectory => "Is a directory (os error 21)"
  | notDirectory => "Not a directory (os error 20)"
  | nameTooLong => "File name too long (os error 36)"
  | denied => "Permission denied (os error 13)"
  | notText => "stream did not contain valid UTF-8"
  | other details => details

/-- Why the program gives up. -/
inductive Failure where
  | reading (path : String) (cause : ReadFault)
  | parsing (path : String) (cause : Json.Fault)
  /-- The chain could not be run, or did not run to its end. -/
  | running (cause : Fault)

/-- The lines that report an error, and its cause if it has one. A name of a file may have line
breaks in it, a cause has none. -/
def report (error : String) (cause : Option String) : List String :=
  ("Error: " ++ error).splitOn "\n" ++
    match cause with
    | some cause => ["", "Caused by:", "    " ++ cause]
    | none => []

/-- The lines that a failure prints. -/
def Failure.lines : Failure → List String
  | reading path cause => report ("reading config " ++ path) (some cause.message)
  | parsing path cause => report ("parsing config " ++ path) (some cause.message)
  | running cause => report cause.message none

/-- The settings of a run: those in the file that the first argument names, or the defaults. -/
def loadSettings (readFile : String → Except ReadFault String) (args : List String) :
    Except Failure Settings :=
  match args with
  | [] => .ok {}
  | path :: _ =>
    match readFile path with
    | .error cause => .error (.reading path cause)
    | .ok text =>
      match Settings.parse text with
      | .error cause => .error (.parsing path cause)
      | .ok s => .ok s

/-- A number of sixty-four bits: digits, with a plus in front or without. -/
def wholeNumber? (text : String) : Option Nat :=
  let digits := match text.toList with
    | '+' :: rest => rest
    | cs => cs
  if digits.isEmpty || digits.any (!·.isDigit) then none
  else
    let n := digits.foldl (fun n c => n * 10 + (c.toNat - '0'.toNat)) 0
    if n < UInt64.size then some n else none

/-- The length of a run in seconds where nothing else is said. -/
def defaultSeconds : Nat := 30

/-- The length of a run in seconds. A length that is no number counts as not given. -/
def runSeconds (given : Option String) : Nat :=
  (given.bind wholeNumber?).getD defaultSeconds

/-- The simulation that a command line asks for. -/
def prepare (readFile : String → Except ReadFault String) (args : List String) :
    Except Failure Simulation := do
  let settings ← loadSettings readFile args
  match Simulation.start settings with
  | .error cause => .error (.running cause)
  | .ok s => .ok s

/-- What a simulation that has come to its end amounts to. -/
def conclude (s : Simulation) : Except Failure Unit :=
  match s.chain.exits with
  | .error stage => .error (.running (.broken stage.name))
  | .ok exits =>
    match exits.result with
    | .error cause => .error (.running cause)
    | .ok _ => .ok ()

/-- The whole program, with the passing of time left to the clock of the chain. -/
def run (readFile : String → Except ReadFault String) (args : List String)
    (seconds : Option String) : Except Failure Counters := do
  let s ← prepare readFile args
  let s := s.run (runSeconds seconds * 1000000)
  conclude s
  return s.chain.counters

end CommandLine

end SignalChain
