import Mathlib.Control.Monad.Basic
import SignalChain.Proofs.Chain.Trail

/-!
# What cycles answer

A single cycle of a stage says how it went: the stage goes on, it has come to its end, or the
sampler broke off at an instant that the clock cannot represent. The answer is plain from the state
that the cycle finds.

`Occasion.answer?` is the answer that goes with a record. A record is whole if its cycle did not
break off, and every record is that once the chain has been asked to stop
(`isWhole_of_stopRequested`).
-/

namespace SignalChain.Chain

variable {σ π : Type} [Sensor σ] [Output π]

/-- How a single cycle of a stage would go, `none` where the stage would have to wait. -/
def answer? (c : Chain σ π) : Stage → Option (Except InstantOverflow Cycle)
  | .sampler => some (c.sampler.cycle c.wiring).result
  | .filter => (c.filter.cycle? c.wiring).map fun t => .ok t.result
  | .actuator => (c.actuator.cycle? c.wiring).map fun t => .ok t.result

/-- How the cycle of a record went. Operations on the override and requests to stop have none. -/
def Occasion.answer? (o : Occasion σ π) : Option (Except InstantOverflow Cycle) :=
  o.deed.stage?.bind o.before.answer?

/-- The cycle of the record did not break off in the middle. -/
def Occasion.IsWhole (o : Occasion σ π) : Prop :=
  o.answer? ≠ some (.error {})

instance (o : Occasion σ π) : Decidable o.IsWhole :=
  inferInstanceAs (Decidable (_ ≠ _))

variable {c : Chain σ π}

theorem answer?_sampler_of_stop (h : c.wiring.stopRequested = true) :
    c.answer? .sampler = some (.ok (.left .shutdown)) := by
  rw [answer?, Sampler.cycle_of_stop h]

theorem answer?_sampler_of_no_release (hstop : c.wiring.stopRequested = false)
    (h : c.sampler.release? c.wiring.now = none) : c.answer? .sampler = some (.error {}) := by
  rw [answer?, Sampler.cycle_of_no_release hstop h]

theorem answer?_sampler_of_release {release : Instant} (hstop : c.wiring.stopRequested = false)
    (h : c.sampler.release? c.wiring.now = some release) :
    c.answer? .sampler =
      some (if (laterBy? release c.sampler.period).isSome then .ok .again else .error {}) := by
  rw [answer?, Sampler.cycle_of_release hstop h]

theorem answer?_filter_of_drained (hp : c.wiring.samples.pending = false)
    (hc : c.wiring.samples.closed = true) :
    c.answer? .filter = some (.ok (.left .shutdown)) := by
  rw [answer?, Filter.cycle?_of_drained hp hc, Option.map_some]

theorem answer?_actuator_of_pending (h : c.wiring.filtered.pending = true) :
    c.answer? .actuator = some (.ok (Actuator.cycleOf (c.actuator.serve c.wiring).result)) := by
  rw [answer?, Actuator.cycle?_of_pending h, Option.map_some]

theorem answer?_actuator_of_drained (hp : c.wiring.filtered.pending = false)
    (hc : c.wiring.filtered.closed = true) :
    c.answer? .actuator = some (.ok (.left .shutdown)) := by
  rw [answer?, Actuator.cycle?_of_drained hp hc, Option.map_some]

/-- Only the actuator halts, and it does so over a value that it has found. -/
theorem answer?_eq_halted_iff {stage : Stage} {cause : OutputFault} :
    c.answer? stage = some (.ok (.left (.halted cause))) ↔
      stage = .actuator ∧ c.wiring.filtered.pending = true ∧
        (c.actuator.serve c.wiring).result = .error (.halted cause) := by
  cases stage with
  | sampler =>
    refine iff_of_false (fun h => ?_) (by simp)
    cases hstop : c.wiring.stopRequested with
    | true => simp [answer?_sampler_of_stop hstop] at h
    | false =>
      cases hrelease : c.sampler.release? c.wiring.now with
      | none => simp [answer?_sampler_of_no_release hstop hrelease] at h
      | some release =>
        rw [answer?_sampler_of_release hstop hrelease] at h
        split at h <;> cases h
  | filter =>
    refine iff_of_false (fun h => ?_) (by simp)
    obtain ⟨t, ht, hresult⟩ := Option.map_eq_some_iff.mp h
    rcases Filter.cycle?_cases ht with ⟨-, rfl⟩ | ⟨-, -, rfl⟩ <;> cases hresult
  | actuator =>
    cases hpending : c.wiring.filtered.pending with
    | true =>
      rw [answer?_actuator_of_pending hpending]
      cases hresult : (c.actuator.serve c.wiring).result <;> simp [Actuator.cycleOf]
    | false =>
      refine iff_of_false (fun h => ?_) (by simp)
      obtain ⟨t, ht, hresult⟩ := Option.map_eq_some_iff.mp h
      rcases Actuator.cycle?_cases ht with ⟨htrue, -⟩ | ⟨-, -, rfl⟩
      · rw [hpending] at htrue
        cases htrue
      · cases hresult

/-- The record of a stage has the answer of that stage. -/
theorem answer?_of_stage {d : Deed} {stage : Stage} (h : d.stage? = some stage) (j : Journal) :
    (Occasion.mk c d j).answer? = c.answer? stage := by
  rw [Occasion.answer?, h, Option.bind_some]

/-- In the record of a halt, a value was taken, and the command for it used up the budget. -/
theorem halted_of_answer? {o : Occasion σ π} {cause : OutputFault}
    (h : o.answer? = some (.ok (.left (.halted cause)))) :
    o.valueTaken? ≠ none ∧
      (o.before.actuator.serve o.before.wiring).result = .error (.halted cause) := by
  obtain ⟨stage, hstage, hanswer⟩ := Option.bind_eq_some_iff.mp h
  obtain ⟨rfl, hpending, hresult⟩ := answer?_eq_halted_iff.mp hanswer
  refine ⟨?_, hresult⟩
  rw [Occasion.valueTaken?, if_pos hstage, Mailbox.offer?_of_pending hpending]
  exact nofun

/-- Only the sampler breaks off, and it does not once it has been asked to stop. -/
theorem isWhole_of_stopRequested {o : Occasion σ π} (h : o.before.wiring.stopRequested = true) :
    o.IsWhole := by
  intro hbroken
  obtain ⟨stage, -, hanswer⟩ := Option.bind_eq_some_iff.mp hbroken
  cases stage with
  | sampler =>
    rw [answer?_sampler_of_stop h] at hanswer
    cases hanswer
  | filter | actuator =>
    obtain ⟨t, -, ht⟩ := Option.map_eq_some_iff.mp hanswer
    cases ht

end SignalChain.Chain
