import SignalChain.Json.Fault

/-!
# Numbers

A number is read digit by digit. Its digits are collected as long as they fit sixty-four bits;
later digits are dropped, and the power of ten that the collected ones stand for makes up for it.

A number without point and exponent whose digits were all collected is an integer, except that a
negative one must fit sixty-four bits with its sign. Everything else is a floating-point number,
negative zero among them.
-/

namespace SignalChain.Json

/-- Which part of a number was read last. -/
inductive Numeral.Phase where
  | minus
  /-- A leading zero, which no digit may follow. -/
  | zero
  | digits
  | point
  | fraction
  /-- The letter in front of the exponent. -/
  | mark
  | sign
  | exponent
  deriving DecidableEq

/-- What has been read of a number. -/
structure Numeral where
  phase : Numeral.Phase
  negative : Bool := false
  /-- The digits that fit sixty-four bits. -/
  significand : Nat := 0
  /-- The power of ten that the significand stands for. -/
  scale : Int := 0
  /-- Whether digits of this part have been dropped. -/
  spilled : Bool := false
  /-- Whether the number has a point, an exponent or dropped digits. -/
  real : Bool := false
  negativeExponent : Bool := false
  exponentDigits : Nat := 0
  deriving DecidableEq

/-- The value of a decimal digit. -/
def digit? (c : Char) : Option Nat :=
  if c.isDigit then some (c.toNat - '0'.toNat) else none

namespace Numeral

/-- Begin a number with its first character. -/
def start? (c : Char) : Option Numeral :=
  if c = '-' then some { phase := .minus, negative := true }
  else if c = '0' then some { phase := .zero }
  else (digit? c).map fun d => { phase := .digits, significand := d }

/-- Whether one more digit fits. -/
def takes (n : Numeral) (d : Nat) : Bool :=
  !n.spilled && n.significand * 10 + d < UInt64.size

/-- One more digit in front of the point. -/
def addWhole (n : Numeral) (d : Nat) : Numeral :=
  if n.takes d then { n with phase := .digits, significand := n.significand * 10 + d }
  else { n with phase := .digits, spilled := true, real := true, scale := n.scale + 1 }

/-- One more digit after the point. -/
def addFraction (n : Numeral) (d : Nat) : Numeral :=
  if n.takes d then
    { n with phase := .fraction, significand := n.significand * 10 + d, scale := n.scale - 1 }
  else { n with phase := .fraction, spilled := true }

/-- One more digit of the exponent. -/
def addExponent (n : Numeral) (d : Nat) : Numeral :=
  { n with phase := .exponent, exponentDigits := n.exponentDigits * 10 + d }

/-- The point, after which digits are collected afresh. -/
def addPoint (n : Numeral) : Numeral :=
  { n with phase := .point, real := true, spilled := false }

/-- The letter in front of the exponent. -/
def addMark (n : Numeral) : Numeral :=
  { n with phase := .mark, real := true }

/-- What may follow the digits in front of the point. -/
def afterWhole (n : Numeral) (c : Char) : Scan Numeral Numeral :=
  if c = '.' then .more n.addPoint
  else if c = 'e' ∨ c = 'E' then .more n.addMark
  else .before n

/-- Read one more character. -/
def step (n : Numeral) (c : Char) : Except Fault (Scan Numeral Numeral) :=
  match n.phase, digit? c with
  | .minus, some d => .ok (.more (if d = 0 then { n with phase := .zero } else n.addWhole d))
  | .minus, none => .error .invalidNumber
  | .zero, some _ => .error .invalidNumber
  | .zero, none => .ok (n.afterWhole c)
  | .digits, some d => .ok (.more (n.addWhole d))
  | .digits, none => .ok (n.afterWhole c)
  | .point, some d | .fraction, some d => .ok (.more (n.addFraction d))
  | .point, none => .error .invalidNumber
  | .fraction, none =>
    .ok (if c = 'e' ∨ c = 'E' then .more n.addMark else .before n)
  | .mark, some d | .sign, some d | .exponent, some d => .ok (.more (n.addExponent d))
  | .mark, none =>
    if c = '+' ∨ c = '-' then
      .ok (.more { n with phase := .sign, negativeExponent := c = '-' })
    else .error .invalidNumber
  | .sign, none => .error .invalidNumber
  | .exponent, none => .ok (.before n)

/-- Whether the number may end here. -/
def isComplete (n : Numeral) : Bool :=
  match n.phase with
  | .zero | .digits | .fraction | .exponent => true
  | .minus | .point | .mark | .sign => false

/-- The greatest exponent that is looked at. -/
def maxExponent : Nat := Nat.pow 2 31 - 1

/-- The floating-point number that was read. Beyond the greatest exponent, a number is out of range
or zero. -/
def floating (n : Numeral) : Except Fault Found :=
  if maxExponent < n.exponentDigits then
    if n.significand = 0 ∨ n.negativeExponent then .ok (.floating n.negative .zero)
    else .error .numberOutOfRange
  else
    let e : Int := if n.negativeExponent then -n.exponentDigits else n.exponentDigits
    match Decimal.Binary.ofDecimal? n.significand (n.scale + e) with
    | some x => .ok (.floating n.negative x)
    | none => .error .numberOutOfRange

/-- The number that was read. -/
def found (n : Numeral) : Except Fault Found :=
  if n.real then n.floating
  else if n.negative then
    if 0 < n.significand ∧ n.significand ≤ Nat.pow 2 63 then .ok (.integer (-n.significand))
    else n.floating
  else .ok (.integer n.significand)

end Numeral

end SignalChain.Json
