import SignalChain.Json.Record

/-!
# Writing records

A record is written as an object with its members in the order of the record: in one line without
blanks, or with one member on each line, indented by two blanks.
-/

namespace SignalChain.Json

/-- The text of a value. -/
def Datum.chars : Datum → List Char
  | natural n => Nat.toDigits 10 n
  | boolean true => ['t', 'r', 'u', 'e']
  | boolean false => ['f', 'a', 'l', 's', 'e']

/-- A name in quotes. Names of fields have nothing in them that would need an escape. -/
def quote (name : String) : List Char :=
  '"' :: name.toList ++ ['"']

/-- A member with nothing between its parts. -/
def compactMember (m : String × Datum) : List Char :=
  quote m.1 ++ ':' :: m.2.chars

/-- A member on a line of its own. -/
def prettyMember (m : String × Datum) : List Char :=
  ['\n', ' ', ' '] ++ quote m.1 ++ [':', ' '] ++ m.2.chars

/-- An object in one line. -/
def compact (members : List (String × Datum)) : String :=
  String.ofList ('{' :: [','].intercalate (members.map compactMember) ++ ['}'])

/-- An object with one member on each line. -/
def pretty (members : List (String × Datum)) : String :=
  String.ofList ('{' :: [','].intercalate (members.map prettyMember) ++ ['\n', '}'])

end SignalChain.Json
