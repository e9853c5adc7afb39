import Mathlib.Data.List.Perm.Basic
import Mathlib.Order.MinMax
import SignalChain.Proofs.Counters.Tally

/-!
# Changes of counters

An event changes the counters in one place or in two, one place after the other, and each of these
changes is done at once. Changes commute (`change_right_comm`): a count that wraps, a greatest value
and a flag that is only ever set do not tell in which order they were reached. So all that counts is
which changes there were (`changeAll_perm`), and which events (`recordAll_perm`).

What they come to is the sum of the events (`sums_recordAll`).
-/

namespace SignalChain

open Counters (Column)

/-- A change of the counters that nothing can come in between of. -/
inductive Change where
  /-- One more in a column. -/
  | count (k : Column)
  /-- A lateness, which may be the worst so far. -/
  | delay (lateness : Micros)
  /-- The halt. -/
  | halt
  deriving DecidableEq

/-- The changes that an event makes, in order. -/
def Event.changes : Event → List Change
  | .published _ => [.count .samplesPublished]
  | .rejected (.readFailed _) => [.count .readFailures]
  | .rejected (.outOfRange _) => [.count .outOfRange]
  | .overrun lateness => [.count .overruns, .delay lateness]
  | .filtered .. => [.count .filterRuns]
  | .issued _ _ manual =>
    .count .commandsIssued :: if manual then [.count .overriddenCommands] else []
  | .refused .. => [.count .actuationFailures]
  | .halted _ => [.halt]
  | .stopped _ => []

namespace Counters

/-- Count one more in a column. -/
def bump (c : Counters) : Column → Counters
  | .samplesPublished => { c with samplesPublished := c.samplesPublished + 1 }
  | .readFailures => { c with readFailures := c.readFailures + 1 }
  | .outOfRange => { c with outOfRange := c.outOfRange + 1 }
  | .overruns => { c with overruns := c.overruns + 1 }
  | .filterRuns => { c with filterRuns := c.filterRuns + 1 }
  | .commandsIssued => { c with commandsIssued := c.commandsIssued + 1 }
  | .overriddenCommands => { c with overriddenCommands := c.overriddenCommands + 1 }
  | .actuationFailures => { c with actuationFailures := c.actuationFailures + 1 }

/-- Make a change. -/
def change (c : Counters) : Change → Counters
  | .count k => c.bump k
  | .delay lateness => { c with worstLateness := max c.worstLateness lateness }
  | .halt => { c with actuatorHalted := true }

/-- Make a list of changes, in order. -/
def changeAll (c : Counters) (us : List Change) : Counters :=
  us.foldl change c

variable {c d : Counters}

/-- Counters are what stands in their columns, the worst lateness and the halt. -/
theorem ext_get (hget : ∀ k, c.get k = d.get k) (hworst : c.worstLateness = d.worstLateness)
    (hhalted : c.actuatorHalted = d.actuatorHalted) : c = d := by
  cases c
  cases d
  simp only [mk.injEq]
  exact ⟨hget .samplesPublished, hget .readFailures, hget .outOfRange, hget .overruns, hworst,
    hget .filterRuns, hget .commandsIssued, hget .overriddenCommands, hget .actuationFailures,
    hhalted⟩

variable (c)

/-- One more in a column is one more there and nowhere else. -/
theorem get_change (u : Change) (k : Column) :
    (c.change u).get k = if u = .count k then c.get k + 1 else c.get k := by
  cases u with
  | count k' => cases k' <;> cases k <;> rfl
  | delay lateness => cases k <;> rfl
  | halt => cases k <;> rfl

/-- Only a lateness changes the worst one. -/
theorem worstLateness_change (u : Change) :
    (c.change u).worstLateness =
      match u with
      | .delay lateness => max c.worstLateness lateness
      | _ => c.worstLateness := by
  cases u with
  | count k => cases k <;> rfl
  | delay lateness => rfl
  | halt => rfl

/-- A halt is never taken back. -/
theorem actuatorHalted_change (u : Change) :
    (c.change u).actuatorHalted = (c.actuatorHalted || decide (u = .halt)) := by
  cases u with
  | count k => cases k <;> simp [change, bump]
  | delay lateness => simp [change]
  | halt => simp [change]

/-- Two changes come to the same in either order. -/
theorem change_right_comm (u v : Change) : (c.change u).change v = (c.change v).change u := by
  refine ext_get (fun k => ?_) ?_ ?_
  · simp only [get_change]
    split <;> split <;> rfl
  · simp only [worstLateness_change]
    cases u with
    | delay lateness =>
      cases v with
      | delay lateness' =>
        rw [← UInt64.toNat_inj]
        simp only [UInt64.toNat_max]
        exact max_right_comm _ _ _
      | count k => rfl
      | halt => rfl
    | count k => rfl
    | halt => rfl
  · simp only [actuatorHalted_change]
    exact Bool.or_right_comm _ _ _

/-- The order of changes makes no difference. -/
theorem changeAll_perm {us vs : List Change} (h : us.Perm vs) : c.changeAll us = c.changeAll vs :=
  h.foldl_eq' (fun u _ v _ c => c.change_right_comm u v) c

/-- Counting an event is making its changes. -/
theorem record_eq_changeAll (e : Event) : c.record e = c.changeAll e.changes := by
  cases e with
  | rejected reason => cases reason <;> rfl
  | issued value duty manual => cases manual <;> rfl
  | _ => rfl

/-- Counting events is making their changes, those of each event behind those of the one before. -/
theorem recordAll_eq_changeAll (es : List Event) :
    c.recordAll es = c.changeAll (es.flatMap Event.changes) := by
  induction es generalizing c with
  | nil => rfl
  | cons e es ih =>
    rw [recordAll_cons, ih, record_eq_changeAll, List.flatMap_cons]
    exact List.foldl_append.symm

/-- The order of events makes no difference. -/
theorem recordAll_perm {es fs : List Event} (h : es.Perm fs) : c.recordAll es = c.recordAll fs := by
  rw [recordAll_eq_changeAll, recordAll_eq_changeAll]
  exact c.changeAll_perm (h.flatMap_right Event.changes)

/-- Counters that sum up some events. -/
structure Sums (es : List Event) (c : Counters) : Prop where
  count_eq : ∀ k : Column, (c.get k).toNat = es.countP k.counts % 2 ^ 32
  /-- The greatest lateness, zero where there is none. -/
  worst_eq : c.worstLateness = (es.filterMap Event.lateness?).max?.getD 0
  halted_iff : c.actuatorHalted = true ↔ ∃ e ∈ es, e.isHalt = true

/-- Counters that have counted nothing else sum up the events that they have counted. -/
theorem sums_recordAll (es : List Event) : Sums es (recordAll {} es) where
  count_eq k := by
    have hzero : (get {} k).toNat = 0 := by cases k <;> rfl
    rw [toNat_recordAll, hzero, Nat.zero_add]
  worst_eq := worstLateness_eq_max es
  halted_iff := by
    rw [actuatorHalted_recordAll, Bool.false_or, List.any_eq_true]

end Counters

end SignalChain
