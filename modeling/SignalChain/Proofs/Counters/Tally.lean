import Mathlib.Algebra.Group.Nat.Defs
import Mathlib.Data.List.Count
import SignalChain.Counters

/-!
# What counters count

Every count is the number of events of one kind, modulo the size of its word (`toNat_recordAll`),
and is that number itself while there are fewer events than fit the word (`toNat_recordAll_of_lt`).
The halt is on record exactly if there was one, and the worst lateness is the greatest there was.

The eight counts are the columns of the counters; all that is said of counts is said of a column.
-/

namespace SignalChain

/-- The lateness that an event tells of. -/
def Event.lateness? : Event → Option Micros
  | .overrun lateness => some lateness
  | _ => none

/-- The event tells of a halt. -/
def Event.isHalt : Event → Bool
  | .halted _ => true
  | _ => false

namespace Counters

/-- The counts of the counters. -/
inductive Column where
  | samplesPublished
  | readFailures
  | outOfRange
  | overruns
  | filterRuns
  | commandsIssued
  | overriddenCommands
  | actuationFailures
  deriving DecidableEq

/-- The count in a column. -/
def get (c : Counters) : Column → UInt32
  | .samplesPublished => c.samplesPublished
  | .readFailures => c.readFailures
  | .outOfRange => c.outOfRange
  | .overruns => c.overruns
  | .filterRuns => c.filterRuns
  | .commandsIssued => c.commandsIssued
  | .overriddenCommands => c.overriddenCommands
  | .actuationFailures => c.actuationFailures

/-- The events that a column counts. -/
def Column.counts : Column → Event → Bool
  | .samplesPublished, .published _ => true
  | .readFailures, .rejected (.readFailed _) => true
  | .outOfRange, .rejected (.outOfRange _) => true
  | .overruns, .overrun _ => true
  | .filterRuns, .filtered .. => true
  | .commandsIssued, .issued .. => true
  | .overriddenCommands, .issued _ _ manual => manual
  | .actuationFailures, .refused .. => true
  | _, _ => false

/-- The stage whose events a column counts. -/
def Column.stage : Column → Stage
  | .samplesPublished | .readFailures | .outOfRange | .overruns => .sampler
  | .filterRuns => .filter
  | .commandsIssued | .overriddenCommands | .actuationFailures => .actuator

theorem Column.stage_of_counts {k : Column} {e : Event} (h : k.counts e = true) :
    e.stage = k.stage := by
  cases e with
  | rejected reason => cases reason <;> cases k <;> first | rfl | cases h
  | _ => cases k <;> first | rfl | cases h

variable (c : Counters) (es : List Event)

/-- An event is one more in the columns that count it, and leaves the others. -/
theorem get_record (e : Event) (k : Column) :
    (c.record e).get k = if k.counts e then c.get k + 1 else c.get k := by
  cases e with
  | rejected reason => cases reason <;> cases k <;> rfl
  | issued value duty manual => cases manual <;> cases k <;> rfl
  | _ => cases k <;> rfl

/-- Counting starts with the first event. -/
theorem recordAll_cons (e : Event) : c.recordAll (e :: es) = (c.record e).recordAll es := rfl

/-- A column counts its events modulo the size of its word. -/
theorem toNat_recordAll (k : Column) :
    ((c.recordAll es).get k).toNat = ((c.get k).toNat + es.countP k.counts) % 2 ^ 32 := by
  -- on the events still to be counted, with whatever has been counted before them
  induction es generalizing c with
  | nil => exact (Nat.mod_eq_of_lt (c.get k).toNat_lt).symm
  | cons e es ih =>
    rw [recordAll_cons, ih, get_record, List.countP_cons]
    split
    · rw [UInt32.toNat_add, UInt32.toNat_one, Nat.mod_add_mod]
      congr 1
      omega
    · rfl

/-- Counters that have counted less than fits their words are the numbers of events. -/
theorem toNat_recordAll_of_lt (h : es.length < 2 ^ 32) (k : Column) :
    ((recordAll {} es).get k).toNat = es.countP k.counts := by
  have hzero : (get {} k).toNat = 0 := by cases k <;> rfl
  rw [toNat_recordAll, hzero, Nat.zero_add]
  exact Nat.mod_eq_of_lt (Nat.lt_of_le_of_lt List.countP_le_length h)

/-- A halt is on record exactly if there was one. -/
theorem actuatorHalted_recordAll :
    (c.recordAll es).actuatorHalted = (c.actuatorHalted || es.any Event.isHalt) := by
  induction es generalizing c with
  | nil => simp [recordAll]
  | cons e es ih =>
    rw [recordAll_cons, ih, List.any_cons, ← Bool.or_assoc]
    congr 1
    cases e with
    | rejected reason => cases reason <;> simp [record, Event.isHalt]
    | _ => simp [record, Event.isHalt]

/-- An overrun counts for the worst lateness, and nothing else does. -/
theorem worstLateness_recordAll :
    (c.recordAll es).worstLateness =
      (es.filterMap Event.lateness?).foldl max c.worstLateness := by
  induction es generalizing c with
  | nil => rfl
  | cons e es ih =>
    rw [recordAll_cons, ih]
    cases e with
    | rejected reason => cases reason <;> rfl
    | _ => rfl

/-- The worst lateness is the greatest that there was, zero if there was none. -/
theorem worstLateness_eq_max :
    (recordAll {} es).worstLateness = (es.filterMap Event.lateness?).max?.getD 0 := by
  rw [worstLateness_recordAll]
  cases es.filterMap Event.lateness? with
  | nil => rfl
  | cons lateness later =>
    -- the count starts from zero, which no lateness is below
    have hzero : max (0 : Micros) lateness = lateness := if_pos UInt64.zero_le
    show (later.foldl max (max 0 lateness)) = later.foldl max lateness
    rw [hzero]

end Counters

end SignalChain
