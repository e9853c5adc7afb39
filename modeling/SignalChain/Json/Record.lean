import SignalChain.Json.Skip

/-!
# Records

A record is a list of named fields. It is read from an object that has the fields in any order, or
from a list that has them in the order of the record. An object may have other members, which are
passed over, but no field twice. Fields may be missing where the record has defaults for them, and
a list may then end early.

The reader takes the text one character at a time, so that the first fault of the text is the one
that counts: `Record.step` is what it makes of a character, `Record.finish` what it makes of the
end.
-/

namespace SignalChain.Json

/-- What a field holds. -/
inductive Kind where
  /-- A whole number from zero to `2 ^ bits - 1`, and how messages call it. -/
  | natural (bits : Nat) (name : String)
  | boolean
  deriving DecidableEq

/-- The value of a field. -/
inductive Datum where
  | natural (n : Nat)
  | boolean (b : Bool)
  deriving DecidableEq

/-- The number that was read for a field, or `default` where none was. -/
def naturalAt (values : List (Option Datum)) (index default : Nat) : Nat :=
  match values[index]? with
  | some (some (.natural n)) => n
  | _ => default

/-- The truth value that was read for a field, or `default` where none was. -/
def booleanAt (values : List (Option Datum)) (index : Nat) (default : Bool) : Bool :=
  match values[index]? with
  | some (some (.boolean b)) => b
  | _ => default

/-- Take a value for a field. Whole numbers that do not fit are the wrong value, everything else
that is no whole number is the wrong type. -/
def Kind.accept : Kind → Found → Except Fault Datum
  | natural bits name, .integer n =>
    if 0 ≤ n ∧ n < Nat.pow 2 bits then .ok (.natural n.toNat)
    else .error (.wrongValue (.integer n) name)
  | natural _ name, found => .error (.wrongType found name)
  | boolean, .boolean b => .ok (.boolean b)
  | boolean, found => .error (.wrongType found "a boolean")

/-- A field of a record. -/
structure Field where
  name : String
  kind : Kind
  deriving DecidableEq

/-- A record. -/
structure Record where
  /-- How messages call the record. -/
  title : String
  fields : List Field
  /-- Whether every field has to be there. -/
  required : Bool
  deriving DecidableEq

namespace Record

/-- The members of an object that has the given values for the fields. -/
def members (r : Record) (data : List Datum) : List (String × Datum) :=
  (r.fields.map (·.name)).zip data

/-- Where a value stands: as the member that belongs to a field, or as an element of a list. -/
inductive Slot where
  | member (index : Nat)
  | element (index : Nat)
  deriving DecidableEq

/-- The place in the record of the field that a value is for. -/
def Slot.index : Slot → Nat
  | member index | element index => index

/-- Where the reader stands. -/
inductive Place where
  /-- Before the record. -/
  | start
  /-- Inside a value that is no record. -/
  | stray (s : Scalar)
  /-- After the bracket that opens the object. -/
  | objectStart
  /-- After a member. -/
  | objectNext
  /-- After a comma in the object. -/
  | keyDue
  | key (q : Quoted)
  /-- After a key, which belongs to the given field if to any. -/
  | colon (field : Option Nat)
  /-- Where the value of a field is due. -/
  | due (slot : Slot)
  | value (slot : Slot) (s : Scalar)
  /-- Inside a member that belongs to no field. -/
  | skipping (s : Skip)
  /-- After the bracket that opens the list. -/
  | listStart
  /-- After the given number of elements. -/
  | listNext (count : Nat)
  /-- After a comma that follows the given number of elements. -/
  | elementDue (count : Nat)
  /-- After the record. -/
  | done
  deriving DecidableEq

/-- What has been read: the fields that have a value, and where the reader stands. -/
structure State where
  place : Place := .start
  /-- The values of the fields, in order. -/
  values : List (Option Datum)
  deriving DecidableEq

/-- A reader before the first character. -/
def initial (r : Record) : State where
  values := r.fields.map fun _ => none

/-- The place after a value. -/
def Slot.next : Slot → Place
  | member _ => .objectNext
  | element index => .listNext (index + 1)

variable (r : Record)

/-- The field that a key belongs to. -/
def indexOf? (key : List Char) : Option Nat :=
  r.fields.findIdx? fun f => f.name.toList = key

/-- The first field without a value. -/
def missing? (values : List (Option Datum)) : Option Field :=
  ((r.fields.zip values).find? fun p => p.2.isNone).map (·.1)

/-- A key has been read. -/
def closeKey (st : State) (key : List Char) : Except Fault State :=
  match r.indexOf? key with
  | none => .ok { st with place := .colon none }
  | some i =>
    match st.values[i]?, r.fields[i]? with
    | some (some _), some f => .error (.duplicateField f.name)
    | _, _ => .ok { st with place := .colon (some i) }

/-- The value of a field has been read. -/
def put (st : State) (slot : Slot) (found : Found) : Except Fault State :=
  match r.fields[slot.index]? with
  | none => .error .trailingCharacters
  | some f =>
    match f.kind.accept found with
    | .error fault => .error fault
    | .ok d => .ok { place := slot.next, values := st.values.set slot.index (some d) }

/-- The object ends. -/
def closeObject (st : State) : Except Fault State :=
  match r.required, r.missing? st.values with
  | true, some f => .error (.missingField f.name)
  | _, _ => .ok { st with place := .done }

/-- The list ends after the given number of elements. -/
def closeList (st : State) (count : Nat) : Except Fault State :=
  if r.required && count < r.fields.length then
    .error (.wrongLength count
      (r.title ++ " with " ++ toString r.fields.length ++ " elements"))
  else .ok { st with place := .done }

/-- Read a character where the value of a field is due. -/
def stepDue (st : State) (slot : Slot) (c : Char) : Except Fault State :=
  if isBlank c then .ok { st with place := .due slot }
  else if c = '[' then r.put st slot .list
  else if c = '{' then r.put st slot .object
  else
    match Scalar.start? .strict c with
    | some s => .ok { st with place := .value slot s }
    | none => .error .expectedValue

/-- Read a character after a member. -/
def stepObjectNext (st : State) (c : Char) : Except Fault State :=
  if isBlank c then .ok { st with place := .objectNext }
  else if c = ',' then .ok { st with place := .keyDue }
  else if c = '}' then r.closeObject st
  else .error .expectedMember

/-- Read a character after the given number of elements. -/
def stepListNext (st : State) (count : Nat) (c : Char) : Except Fault State :=
  if isBlank c then .ok { st with place := .listNext count }
  else if c = ']' then r.closeList st count
  else if c = ',' then .ok { st with place := .elementDue count }
  else if count < r.fields.length then .error .expectedElement
  else .error .trailingCharacters

/-- Read a character after a value. -/
def stepAfter (st : State) (slot : Slot) (c : Char) : Except Fault State :=
  match slot with
  | .member _ => r.stepObjectNext st c
  | .element index => r.stepListNext st (index + 1) c

/-- Read one more character. -/
def step (st : State) (c : Char) : Except Fault State :=
  match st.place with
  | .start =>
    if isBlank c then .ok st
    else if c = '{' then .ok { st with place := .objectStart }
    else if c = '[' then .ok { st with place := .listStart }
    else
      match Scalar.start? .strict c with
      | some s => .ok { st with place := .stray s }
      | none => .error .expectedValue
  | .stray s =>
    match s.step .strict c with
    | .error fault => .error fault
    | .ok (.more s) => .ok { st with place := .stray s }
    | .ok (.done found) | .ok (.before found) => .error (.wrongType found r.title)
  | .objectStart =>
    if isBlank c then .ok st
    else if c = '}' then r.closeObject st
    else if c = '"' then .ok { st with place := .key { rigour := .strict } }
    else .error .keyNotString
  | .objectNext => r.stepObjectNext st c
  | .keyDue =>
    if isBlank c then .ok st
    else if c = '}' then .error .trailingComma
    else if c = '"' then .ok { st with place := .key { rigour := .strict } }
    else .error .keyNotString
  | .key q =>
    match q.step c with
    | .error fault => .error fault
    | .ok (.more q) => .ok { st with place := .key q }
    | .ok (.done key) | .ok (.before key) => r.closeKey st key
  | .colon field =>
    if isBlank c then .ok st
    else if c = ':' then
      match field with
      | some i => .ok { st with place := .due (.member i) }
      | none => .ok { st with place := .skipping {} }
    else .error .expectedColon
  | .due slot => r.stepDue st slot c
  | .value slot s =>
    match s.step .strict c with
    | .error fault => .error fault
    | .ok (.more s) => .ok { st with place := .value slot s }
    | .ok (.done found) => r.put st slot found
    | .ok (.before found) =>
      match r.put st slot found with
      | .error fault => .error fault
      | .ok st => r.stepAfter st slot c
  | .skipping s =>
    match s.step c with
    | .error fault => .error fault
    | .ok (.more s) => .ok { st with place := .skipping s }
    | .ok (.done _) => .ok { st with place := .objectNext }
    | .ok (.before _) => r.stepObjectNext st c
  | .listStart =>
    if isBlank c then .ok st
    else if c = ']' then r.closeList st 0
    else r.stepDue st (.element 0) c
  | .listNext count => r.stepListNext st count c
  | .elementDue count =>
    if isBlank c then .ok st
    else if c = ']' then .error .trailingComma
    else if count < r.fields.length then r.stepDue st (.element count) c
    else .error .trailingCharacters
  | .done => if isBlank c then .ok st else .error .trailingCharacters

/-- The fault of a text that ends after a value. -/
def Slot.endFault : Slot → Fault
  | member _ => .endInObject
  | element _ => .endInList

/-- The text ends: the values that were read, or why that is too early. -/
def finish (st : State) : Except Fault (List (Option Datum)) :=
  match st.place with
  | .start => .error .endInValue
  | .stray s =>
    match s.finish .strict with
    | .error fault => .error fault
    | .ok found => .error (.wrongType found r.title)
  | .objectStart | .objectNext | .colon _ => .error .endInObject
  | .keyDue | .due _ => .error .endInValue
  | .key _ => .error .endInString
  | .value slot s =>
    match s.finish .strict with
    | .error fault => .error fault
    | .ok found =>
      match r.put st slot found with
      | .error fault => .error fault
      | .ok _ => .error slot.endFault
  | .skipping s => .error s.finish
  | .listStart | .listNext _ => .error .endInList
  | .elementDue count =>
    if count < r.fields.length then .error .endInValue else .error .trailingCharacters
  | .done => .ok st.values

/-- Read a list of characters. -/
def run (st : State) (cs : List Char) : Except Fault State :=
  cs.foldlM r.step st

/-- The values of the fields in a text, in the order of the record; `none` stands for a field that
is missing. -/
def read (text : String) : Except Fault (List (Option Datum)) :=
  match r.run r.initial text.toList with
  | .error fault => .error fault
  | .ok st => r.finish st

/-- Reading nothing changes nothing. -/
@[simp]
theorem run_nil (st : State) : r.run st [] = .ok st := rfl

/-- The first character is read first. -/
@[simp]
theorem run_cons (st : State) (c : Char) (cs : List Char) :
    r.run st (c :: cs) = (r.step st c).bind (r.run · cs) := rfl

/-- Reading can be broken off and taken up again anywhere. -/
theorem run_append (st : State) (cs ds : List Char) :
    r.run st (cs ++ ds) = (r.run st cs).bind (r.run · ds) := by
  simp only [run, List.foldlM_append]
  rfl

end Record

end SignalChain.Json
