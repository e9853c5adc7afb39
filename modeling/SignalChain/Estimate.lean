import SignalChain.Quantity

/-!
# The two-pass estimate

A list of readings is averaged twice. The first mean leaves out zeros, which stand for readings
that have not happened; the second keeps only the readings within ten per cent of the first mean.
Both quotients are cut off to whole numbers, and a mean of nothing is zero.

Sums and products are formed in words of thirty-two bits. They are exact for every list of at most
65537 readings, which is where the sum of full-scale readings reaches the top of the word.
-/

namespace SignalChain

/-- What two passes over a list of readings found. -/
structure Estimate where
  /-- The mean of the readings that are not zero. -/
  coarse : Reading := 0
  /-- The mean of the readings near the coarse mean. -/
  fine : Reading := 0
  /-- How many readings the coarse mean is of. -/
  nonzero : Nat := 0
  /-- How many readings the fine mean is of. -/
  kept : Nat := 0
  deriving DecidableEq

namespace Estimate

/-- The truncated mean of `rs` and the number of its readings, both zero for the empty list. -/
def mean (rs : List Reading) : Reading × Nat :=
  let total := rs.foldl (fun (t : UInt32 × UInt32) r => (t.1 + r.toUInt32, t.2 + 1)) (0, 0)
  if total.2 = 0 then (0, 0) else ((total.1 / total.2).toUInt16, total.2.toNat)

/-- The mean of the readings that are not zero. -/
def nonzeroMean (rs : List Reading) : Reading × Nat :=
  mean (rs.filter (· ≠ 0))

/-- Whether `r` lies within ten per cent of `center`, ends included. -/
def inBand (center r : Reading) : Bool :=
  let scaled := r.toUInt32 * 10
  center.toUInt32 * 9 ≤ scaled && scaled ≤ center.toUInt32 * 11

/-- The mean of the readings within ten per cent of `center`. -/
def bandMean (center : Reading) (rs : List Reading) : Reading × Nat :=
  mean (rs.filter (inBand center))

/-- Both passes over `rs`. The band of the second stands still at the mean of the first. -/
def ofReadings (rs : List Reading) : Estimate :=
  let first := nonzeroMean rs
  let second := bandMean first.1 rs
  { coarse := first.1, fine := second.1, nonzero := first.2, kept := second.2 }

end Estimate

end SignalChain
