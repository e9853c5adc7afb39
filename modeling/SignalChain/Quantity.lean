/-!
# Readings and times

The words that the whole chain computes with. A converter answers with sixteen bits, and every
clock counts microseconds in sixty-four. Words wrap, so a sum of times that must not wrap goes
through `laterBy?`, which refuses it.
-/

namespace SignalChain

/-- A raw conversion of the sensor, and the scale that smoothed values live on. -/
abbrev Reading := UInt16

/-- A length of time in microseconds. -/
abbrev Micros := UInt64

/-- A point on a monotonic clock, in microseconds since the clock's origin. -/
abbrev Instant := UInt64

/-- The instant `span` after `start`, or `none` where the clock cannot represent it. -/
def laterBy? (start : Instant) (span : Micros) : Option Instant :=
  if start.toNat + span.toNat < UInt64.size then some (start + span) else none

/-- The clock after a sleep until `deadline` that starts at `now`. A deadline in the past is no
sleep at all. -/
def sleepUntil (now deadline : Instant) : Instant :=
  max now deadline

/-- A representable sum of times is the sum of the numbers. -/
theorem toNat_of_laterBy? {start stop : Instant} {span : Micros}
    (h : laterBy? start span = some stop) : stop.toNat = start.toNat + span.toNat := by
  unfold laterBy? at h
  split at h
  next hlt =>
    obtain rfl := Option.some.inj h
    rw [UInt64.toNat_add]
    exact Nat.mod_eq_of_lt hlt
  next => cases h

/-- Only an instant past the end of the clock is refused. -/
theorem laterBy?_eq_none_iff {start : Instant} {span : Micros} :
    laterBy? start span = none ↔ UInt64.size ≤ start.toNat + span.toNat := by
  unfold laterBy?
  split <;> simp <;> omega

end SignalChain
