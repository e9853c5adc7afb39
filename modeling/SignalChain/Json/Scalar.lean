import SignalChain.Json.Numeral
import SignalChain.Json.Quoted

/-!
# Values without parts

Words, numbers and strings.
-/

namespace SignalChain.Json

/-- What has been read of a value without parts. -/
inductive Scalar where
  /-- A word: the letters to come, and what the word stands for. -/
  | word (rest : List Char) (found : Found)
  | number (n : Numeral)
  | text (q : Quoted)
  deriving DecidableEq

namespace Scalar

/-- Begin a value with its first character. -/
def start? (r : Rigour) (c : Char) : Option Scalar :=
  if c = 'n' then some (.word ['u', 'l', 'l'] .null)
  else if c = 't' then some (.word ['r', 'u', 'e'] (.boolean true))
  else if c = 'f' then some (.word ['a', 'l', 's', 'e'] (.boolean false))
  else if c = '"' then some (.text { rigour := r })
  else (Numeral.start? c).map .number

/-- What a reader of the given rigour makes of a number. -/
def numberFound (r : Rigour) (n : Numeral) : Except Fault Found :=
  match r with
  | .strict => n.found
  | .loose => .ok .null

/-- Read one more character. A loose reader does not care what was found. -/
def step (r : Rigour) (s : Scalar) (c : Char) : Except Fault (Scan Scalar Found) :=
  match s with
  | .word [] found => .ok (.before found)
  | .word (d :: rest) found =>
    if c ≠ d then .error .expectedWord
    else if rest.isEmpty then .ok (.done found)
    else .ok (.more (.word rest found))
  | .number n =>
    match n.step c with
    | .error fault => .error fault
    | .ok (.more n) => .ok (.more (.number n))
    | .ok (.done n) => .done <$> numberFound r n
    | .ok (.before n) => .before <$> numberFound r n
  | .text q =>
    match q.step c with
    | .error fault => .error fault
    | .ok (.more q) => .ok (.more (.text q))
    | .ok (.done t) => .ok (.done (.text t))
    | .ok (.before t) => .ok (.before (.text t))

/-- The text ends: what was found, or why that is too early. -/
def finish (r : Rigour) : Scalar → Except Fault Found
  | .word _ _ => .error .endInValue
  | .number n =>
    if n.isComplete then numberFound r n
    else
      match r with
      | .strict => .error .endInValue
      | .loose => .error .invalidNumber
  | .text _ => .error .endInString

end Scalar

end SignalChain.Json
