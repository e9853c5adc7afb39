import SignalChain.Json.Fault

/-!
# Strings

A string is read character by character, from after its opening quote. A strict reader puts
together what the escapes stand for, and wants surrogates in pairs. A loose one looks only at the
form of escapes.

The four digits of a hexadecimal escape are looked at as four bytes of the text: a text that ends
before the fourth byte has ended too early, even if a byte before that is no digit.
-/

namespace SignalChain.Json

/-- Where the reader stands in a string. -/
inductive Quoted.Place where
  /-- Between characters. -/
  | plain
  /-- After a backslash. -/
  | escape
  /-- Inside a hexadecimal escape, after the given number of bytes: whether one of them was no
  digit, and what they stand for. -/
  | hex (bytes : Nat) (bad : Bool) (code : Nat)
  /-- After a high surrogate, where a backslash is due. -/
  | pair
  /-- After a high surrogate and a backslash. -/
  | pairEscape
  deriving DecidableEq

/-- What has been read of a string. -/
structure Quoted where
  rigour : Rigour
  place : Quoted.Place := .plain
  /-- The characters read, the last one first. -/
  chars : List Char := []
  /-- The high surrogate that waits for its other half. -/
  high : Option Nat := none
  deriving DecidableEq

/-- The value of a hexadecimal digit. -/
def hexDigit? (c : Char) : Option Nat :=
  if c.isDigit then some (c.toNat - '0'.toNat)
  else if 'a' ≤ c ∧ c ≤ 'f' then some (c.toNat - 'a'.toNat + 10)
  else if 'A' ≤ c ∧ c ≤ 'F' then some (c.toNat - 'A'.toNat + 10)
  else none

/-- What a one-letter escape stands for. -/
def shortEscape? : Char → Option Char
  | '"' => some '"'
  | '\\' => some '\\'
  | '/' => some '/'
  | 'b' => some '\x08'
  | 'f' => some '\x0c'
  | 'n' => some '\n'
  | 'r' => some '\r'
  | 't' => some '\t'
  | _ => none

namespace Quoted

/-- One more character of the string. -/
def push (q : Quoted) (c : Char) : Quoted :=
  { q with place := .plain, chars := c :: q.chars, high := none }

/-- Whether a code is the first half of a pair. -/
def isHighSurrogate (code : Nat) : Bool :=
  0xD800 ≤ code && code ≤ 0xDBFF

/-- Whether a code is the second half of a pair. -/
def isLowSurrogate (code : Nat) : Bool :=
  0xDC00 ≤ code && code ≤ 0xDFFF

/-- The character that two surrogates stand for. -/
def joinPair (high low : Nat) : Char :=
  Char.ofNat ((high - 0xD800) * 0x400 + (low - 0xDC00) + 0x10000)

/-- The end of a hexadecimal escape. -/
def closeHex (q : Quoted) (code : Nat) : Except Fault Quoted :=
  match q.rigour, q.high with
  | .loose, _ => .ok { q with place := .plain }
  | .strict, some high =>
    if isLowSurrogate code then .ok (q.push (joinPair high code)) else .error .loneSurrogate
  | .strict, none =>
    if isLowSurrogate code then .error .loneSurrogate
    else if isHighSurrogate code then .ok { q with place := .pair, high := some code }
    else .ok (q.push (Char.ofNat code))

/-- One more character of a hexadecimal escape. -/
def stepHex (q : Quoted) (bytes : Nat) (bad : Bool) (code : Nat) (c : Char) :
    Except Fault Quoted :=
  let bytes := bytes + c.utf8Size
  let bad := bad || (hexDigit? c).isNone
  let code := code * 16 + (hexDigit? c).getD 0
  if bytes < 4 then .ok { q with place := .hex bytes bad code }
  else if bad then .error .invalidEscape
  else q.closeHex code

/-- Read one more character. Being done gives the string. -/
def step (q : Quoted) (c : Char) : Except Fault (Scan Quoted (List Char)) :=
  match q.place with
  | .plain =>
    if c = '"' then .ok (.done q.chars.reverse)
    else if c = '\\' then .ok (.more { q with place := .escape })
    else if c < ' ' then .error .controlCharacter
    else .ok (.more (q.push c))
  | .escape =>
    if c = 'u' then .ok (.more { q with place := .hex 0 false 0 })
    else
      match shortEscape? c with
      | some c => .ok (.more (q.push c))
      | none => .error .invalidEscape
  | .hex bytes bad code => .more <$> q.stepHex bytes bad code c
  | .pair =>
    if c = '\\' then .ok (.more { q with place := .pairEscape }) else .error .unfinishedPair
  | .pairEscape =>
    if c = 'u' then .ok (.more { q with place := .hex 0 false 0 }) else .error .unfinishedPair

end Quoted

end SignalChain.Json
