/-!
# The manual override

A button steps the output through fixed levels. The level is stored as a byte, so that a press can
come from an interrupt as a single exchange of that byte; the byte stays below five, the number of
levels.
-/

namespace SignalChain

/-- Who drives the output. -/
inductive Level where
  /-- The smoothed value drives it. -/
  | auto
  | off
  | low
  | mid
  | full
  deriving DecidableEq

namespace Level

/-- The number of levels. -/
def count : UInt8 := 5

/-- The byte that stores a level. -/
def toByte : Level → UInt8
  | auto => 0
  | off => 1
  | low => 2
  | mid => 3
  | full => 4

/-- The level that a byte stores; bytes that store none count as `auto`. -/
def ofByte (b : UInt8) : Level :=
  if b = 1 then off
  else if b = 2 then low
  else if b = 3 then mid
  else if b = 4 then full
  else auto

/-- The forced duty in per cent; `auto` forces none. -/
def percent? : Level → Option UInt8
  | auto => none
  | off => some 0
  | low => some 33
  | mid => some 66
  | full => some 100

/-- The level that a press leads to. -/
def next : Level → Level
  | auto => off
  | off => low
  | low => mid
  | mid => full
  | full => auto

/-- The byte of a level stores that level. -/
@[simp]
theorem ofByte_toByte (l : Level) : ofByte l.toByte = l := by
  cases l <;> rfl

end Level

/-- The stored state of the override. -/
structure Override where
  /-- The byte that stores the level. -/
  byte : UInt8 := Level.auto.toByte
  deriving DecidableEq

namespace Override

/-- The level in force. -/
def level (o : Override) : Level :=
  .ofByte o.byte

/-- Put `l` into force. -/
def set (_ : Override) (l : Level) : Override where
  byte := l.toByte

/-- Give the output back to the smoothed value. -/
def clear (o : Override) : Override :=
  o.set .auto

/-- Step to the next level. The answer is computed from the byte that the press replaced, and is
the level that the press put into force. -/
def press (o : Override) : Level × Override :=
  (o.level.next, { byte := (o.byte + 1) % Level.count })

/-- The state after `n` presses. -/
def pressTimes (o : Override) : Nat → Override
  | 0 => o
  | n + 1 => o.press.2.pressTimes n

/-- The level that is set is in force. -/
@[simp]
theorem level_set (o : Override) (l : Level) : (o.set l).level = l :=
  Level.ofByte_toByte l

end Override

end SignalChain
