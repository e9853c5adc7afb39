import SignalChain.Json.Scalar

/-!
# Values that are passed over

A value that nobody wants is read to its end, however deep its lists and objects are nested. The
brackets that are open are kept on a stack.
-/

namespace SignalChain.Json

/-- An open bracket. -/
inductive Bracket where
  | list
  | object
  deriving DecidableEq

/-- Where the reader stands in a value that is passed over. -/
inductive Skip.Place where
  /-- A value is due. -/
  | value
  | scalar (s : Scalar)
  /-- After the bracket that opens a list. -/
  | listStart
  /-- After the bracket that opens an object. -/
  | objectStart
  /-- After a comma in an object, where a key is due. -/
  | keyDue
  | key (q : Quoted)
  /-- After a key. -/
  | colon
  /-- After a value inside brackets. -/
  | after
  deriving DecidableEq

/-- What has been read of a value that is passed over. -/
structure Skip where
  place : Skip.Place := .value
  /-- The open brackets, the innermost first. -/
  opened : List Bracket := []
  deriving DecidableEq

namespace Skip

/-- A value ends with this character. -/
def close (opened : List Bracket) : Scan Skip Unit :=
  match opened with
  | [] => .done ()
  | opened => .more { place := .after, opened }

/-- Read the first character of a value. -/
def stepValue (s : Skip) (c : Char) : Except Fault (Scan Skip Unit) :=
  if isBlank c then .ok (.more { s with place := .value })
  else if c = '[' then .ok (.more { place := .listStart, opened := .list :: s.opened })
  else if c = '{' then .ok (.more { place := .objectStart, opened := .object :: s.opened })
  else
    match Scalar.start? .loose c with
    | some scalar => .ok (.more { s with place := .scalar scalar })
    | none => .error .expectedValue

/-- Read a character after a value inside brackets. -/
def stepAfter (opened : List Bracket) (c : Char) : Except Fault (Scan Skip Unit) :=
  match opened with
  | [] => .ok (.before ())
  | .list :: outer =>
    if isBlank c then .ok (.more { place := .after, opened })
    else if c = ',' then .ok (.more { place := .value, opened })
    else if c = ']' then .ok (close outer)
    else .error .expectedElement
  | .object :: outer =>
    if isBlank c then .ok (.more { place := .after, opened })
    else if c = ',' then .ok (.more { place := .keyDue, opened })
    else if c = '}' then .ok (close outer)
    else .error .expectedMember

/-- Read a character where a key is due. -/
def stepKey (s : Skip) (c : Char) : Except Fault (Scan Skip Unit) :=
  if isBlank c then .ok (.more s)
  else if c = '"' then .ok (.more { s with place := .key { rigour := .loose } })
  else .error .keyNotString

/-- Read one more character. -/
def step (s : Skip) (c : Char) : Except Fault (Scan Skip Unit) :=
  match s.place with
  | .value => s.stepValue c
  | .scalar scalar =>
    match scalar.step .loose c with
    | .error fault => .error fault
    | .ok (.more scalar) => .ok (.more { s with place := .scalar scalar })
    | .ok (.done _) => .ok (close s.opened)
    | .ok (.before _) => stepAfter s.opened c
  | .listStart =>
    if isBlank c then .ok (.more s)
    else if c = ']' then .ok (close s.opened.tail)
    else s.stepValue c
  | .objectStart => if c = '}' then .ok (close s.opened.tail) else s.stepKey c
  | .keyDue => s.stepKey c
  | .key q =>
    match q.step c with
    | .error fault => .error fault
    | .ok (.more q) => .ok (.more { s with place := .key q })
    | .ok _ => .ok (.more { s with place := .colon })
  | .colon =>
    if isBlank c then .ok (.more s)
    else if c = ':' then .ok (.more { s with place := .value })
    else .error .expectedColon
  | .after => stepAfter s.opened c

/-- The fault of a text that ends inside brackets, after a value. -/
def endAfter : List Bracket → Fault
  | .list :: _ => .endInList
  | _ => .endInObject

/-- The fault of a text that ends here. -/
def finish (s : Skip) : Fault :=
  match s.place with
  | .value => .endInValue
  | .scalar scalar =>
    match scalar.finish .loose with
    | .error fault => fault
    | .ok _ => endAfter s.opened
  | .listStart => .endInList
  | .objectStart | .keyDue | .colon => .endInObject
  | .key _ => .endInString
  | .after => endAfter s.opened

end Skip

end SignalChain.Json
