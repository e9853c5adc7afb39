import SignalChain.CommandLine

/-!
# Folders

A working folder that holds at most one file, `config.json`. Looking up a name in it gives what a
file system gives: the contents of the file, or the reason why there are none.
-/

namespace SignalChain.CommandLine

/-- A working folder. -/
structure Folder where
  /-- The bytes of `config.json`, if there is such a file. -/
  file : Option ByteArray

namespace Folder

/-- The name of the file. -/
def fileName : String := "config.json"

/-- Bytes as text. -/
def decode (bytes : ByteArray) : Except ReadFault String :=
  match String.fromUTF8? bytes with
  | some text => .ok text
  | none => .error .notText

/-- The greatest length of one step of a name, in bytes. -/
def maxStep : Nat := 255

/-- The greatest length of a whole name, in bytes. -/
def maxName : Nat := 4095

/-- Why a step leads nowhere. -/
def absence (step : String) : ReadFault :=
  if maxStep < step.utf8ByteSize then .nameTooLong else .missing

/-- Look up the steps of a name from a folder above. Only the folders above it are known to be
there, and the topmost is above itself. -/
def lookUpAbove : List String → Except ReadFault String
  | [] => .error .isDirectory
  | step :: rest =>
    if step = "" ∨ step = "." ∨ step = ".." then lookUpAbove rest else .error (absence step)

/-- Look up the steps of a name from inside the folder. -/
def lookUp (f : Folder) : List String → Except ReadFault String
  | [] => .error .isDirectory
  | step :: rest =>
    if step = "" ∨ step = "." then f.lookUp rest
    else if step = ".." then lookUpAbove rest
    else if step = fileName then
      match f.file, rest with
      | some bytes, [] => decode bytes
      | some _, _ :: _ => .error .notDirectory
      | none, _ => .error .missing
    else .error (absence step)

/-- Read a file as text. A name with a slash in front starts at the topmost folder. -/
def read (f : Folder) (path : String) : Except ReadFault String :=
  if path = "" then .error .missing
  else if maxName < path.utf8ByteSize then .error .nameTooLong
  else if path.startsWith "/" then lookUpAbove (path.splitOn "/")
  else f.lookUp (path.splitOn "/")

end Folder

end SignalChain.CommandLine
