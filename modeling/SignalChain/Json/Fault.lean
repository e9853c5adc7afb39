import SignalChain.Decimal.Shortest
import SignalChain.Text.Shown

/-!
# Why a JSON text is refused

A text is refused for one of three kinds of reasons: it ends too early, it is not JSON, or it is
JSON that does not hold the record that is read. The first fault in the order of the text counts.
-/

namespace SignalChain.Json

/-- A value that was found in the text. Of lists and objects only the opening bracket has been
looked at. -/
inductive Found where
  | null
  | boolean (b : Bool)
  | integer (n : Int)
  | floating (negative : Bool) (x : Decimal.Binary)
  | text (s : List Char)
  | list
  | object
  deriving DecidableEq

/-- How messages call a value. -/
def Found.message : Found → String
  | null => "null"
  | boolean true => "boolean \x60true\x60"
  | boolean false => "boolean \x60false\x60"
  | integer n => "integer \x60" ++ toString n ++ "\x60"
  | floating negative x => "floating point \x60" ++ Decimal.text negative x ++ "\x60"
  | text s => "string " ++ Text.shown s
  | list => "sequence"
  | object => "map"

/-- Why a text is refused. -/
inductive Fault where
  /-- The text ends inside or before a value. -/
  | endInValue
  | endInString
  | endInObject
  | endInList
  /-- Something stands where a value is due. -/
  | expectedValue
  /-- A word other than the three that there are. -/
  | expectedWord
  | invalidNumber
  | numberOutOfRange
  /-- Something stands where an object goes on or ends. -/
  | expectedMember
  /-- Something stands where a list goes on or ends. -/
  | expectedElement
  | expectedColon
  | keyNotString
  | trailingComma
  | trailingCharacters
  | invalidEscape
  | controlCharacter
  /-- Half of a surrogate pair without the other half. -/
  | loneSurrogate
  /-- A high surrogate that no escape follows. -/
  | unfinishedPair
  /-- A value of another type than the one that is wanted. -/
  | wrongType (found : Found) (wanted : String)
  /-- A number outside the wanted type. -/
  | wrongValue (found : Found) (wanted : String)
  | duplicateField (name : String)
  | missingField (name : String)
  /-- A list that ends too early. -/
  | wrongLength (length : Nat) (wanted : String)
  deriving DecidableEq

/-- The kinds of faults. -/
inductive FaultKind where
  /-- The text ends too early. -/
  | cutShort
  /-- The text is not JSON. -/
  | malformed
  /-- The text does not hold the record. -/
  | unsuitable
  deriving DecidableEq

/-- The kind of a fault. -/
def Fault.kind : Fault → FaultKind
  | endInValue | endInString | endInObject | endInList => .cutShort
  | wrongType .. | wrongValue .. | duplicateField _ | missingField _ | wrongLength .. => .unsuitable
  | _ => .malformed

/-- The wording of a fault. -/
def Fault.message : Fault → String
  | endInValue => "EOF while parsing a value"
  | endInString => "EOF while parsing a string"
  | endInObject => "EOF while parsing an object"
  | endInList => "EOF while parsing a list"
  | expectedValue => "expected value"
  | expectedWord => "expected ident"
  | invalidNumber => "invalid number"
  | numberOutOfRange => "number out of range"
  | expectedMember => "expected \x60,\x60 or \x60\x7d\x60"
  | expectedElement => "expected \x60,\x60 or \x60]\x60"
  | expectedColon => "expected \x60:\x60"
  | keyNotString => "key must be a string"
  | trailingComma => "trailing comma"
  | trailingCharacters => "trailing characters"
  | invalidEscape => "invalid escape"
  | controlCharacter => "control character (\\u0000-\\u001F) found while parsing a string"
  | loneSurrogate => "lone leading surrogate in hex escape"
  | unfinishedPair => "unexpected end of hex escape"
  | wrongType found wanted => "invalid type: " ++ found.message ++ ", expected " ++ wanted
  | wrongValue found wanted => "invalid value: " ++ found.message ++ ", expected " ++ wanted
  | duplicateField name => "duplicate field \x60" ++ name ++ "\x60"
  | missingField name => "missing field \x60" ++ name ++ "\x60"
  | wrongLength length wanted =>
    "invalid length " ++ toString length ++ ", expected " ++ wanted

/-- What a reader says to the next character: that it goes on, that it is done with the character,
or that it was done before the character. -/
inductive Scan (σ ρ : Type) where
  | more (s : σ)
  | done (r : ρ)
  | before (r : ρ)

/-- The characters that may stand between values. -/
def isBlank (c : Char) : Bool :=
  c = ' ' || c = '\n' || c = '\t' || c = '\r'

/-- Whether a reader is strict. A strict reader makes sense of what it reads; the other one only
finds the end of it. -/
inductive Rigour where
  | strict
  | loose
  deriving DecidableEq

end SignalChain.Json
