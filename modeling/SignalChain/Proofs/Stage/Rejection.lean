import SignalChain.Proofs.Stage.Work

/-!
# Rejected readings

A cycle whose reading is rejected differs from one that publishes in what it delivers and in nothing
else. Two cycles of a sampler that start at the same time and convert equally long have the same
result and the same timing, whatever they read (`cycle_alike`). So a rejection is reported once, the
mailbox is left as it was with all that is in it, and the rest is that of a cycle with a valid
reading (`rejects_cycle`).
-/

namespace SignalChain.Sampler

variable {σ π τ μ : Type} {s : Sampler} {w : Wiring σ π} {w' : Wiring τ μ}
variable {release : Instant} {reason : Rejection}

/-- Two turns of a sampler end alike. -/
structure EndsAlike (t : Turn Sampler σ π (Except InstantOverflow Cycle))
    (t' : Turn Sampler τ μ (Except InstantOverflow Cycle)) : Prop where
  result : t.result = t'.result
  stage : t.stage = t'.stage
  timing : Sampler.timing t = Sampler.timing t'

variable [Sensor σ] [Sensor τ]

/-- The turn `t` of a sampler that found `w` has rejected its reading and left no other trace of
it. -/
structure Rejects (s : Sampler) (w : Wiring σ π) (reason : Rejection)
    (t : Turn Sampler σ π (Except InstantOverflow Cycle)) : Prop where
  /-- The samples are left alone: value, permit, close and the name of who waits. -/
  samples_eq : t.wiring.samples = w.samples
  /-- Of the rest, the sensor has made one conversion and the clock may have gone on. -/
  wiring_eq : t.wiring =
    { w with sensor := (Sensor.convert w.sensor).2, now := t.wiring.now }
  /-- The reason is reported once, and nothing is published. -/
  deliveries_eq : t.journal.deliveries = [.rejected reason]
  /-- A cycle with a valid reading would have ended alike, had it converted equally long. -/
  endsAlike : ∀ {τ μ : Type} [Sensor τ] (w' : Wiring τ μ) (raw : Reading), w'.now = w.now →
    w'.stopRequested = w.stopRequested →
    (Sensor.convert w'.sensor).1.latency = (Sensor.convert w.sensor).1.latency →
    verdict s.fullScale (Sensor.convert w'.sensor).1.outcome = .ok raw → EndsAlike t (s.cycle w')

/-- The end of a cycle depends on the clock and on the length of the conversion, and not on what is
read. -/
theorem cycle_alike (hnow : w'.now = w.now) (hstop : w'.stopRequested = w.stopRequested)
    (hlatency : (Sensor.convert w'.sensor).1.latency = (Sensor.convert w.sensor).1.latency) :
    EndsAlike (s.cycle w) (s.cycle w') := by
  have hrelease' : s.release? w'.now = s.release? w.now := by rw [hnow]
  cases hrequest : w.stopRequested with
  | true =>
    rw [cycle_of_stop hrequest, cycle_of_stop (hstop.trans hrequest)]
    exact ⟨rfl, rfl, by simp only [timing, hnow]⟩
  | false =>
    have hrequest' := hstop.trans hrequest
    cases hrelease : s.release? w.now with
    | none =>
      rw [cycle_of_no_release hrequest hrelease,
        cycle_of_no_release hrequest' (hrelease'.trans hrelease)]
      exact ⟨rfl, rfl, by simp only [timing, hnow]⟩
    | some release =>
      -- all there is to the timing of the work is the clock at the end of the conversion
      obtain ⟨hend, hsleeps, hlatenesses⟩ := work_timing s w release
      obtain ⟨hend', hsleeps', hlatenesses'⟩ := work_timing s w' release
      rw [hnow, hlatency] at hend' hsleeps' hlatenesses'
      rw [cycle_of_release hrequest hrelease,
        cycle_of_release hrequest' (hrelease'.trans hrelease)]
      refine ⟨rfl, rfl, ?_⟩
      simp only [timing, hend, hsleeps, hlatenesses, hend', hsleeps', hlatenesses']

/-- A cycle with a release to work towards rejects a reading that has failed or is above full
scale. -/
theorem rejects_cycle (hstop : w.stopRequested = false) (hrelease : s.release? w.now = some release)
    (hverdict : verdict s.fullScale (Sensor.convert w.sensor).1.outcome = .error reason) :
    Rejects s w reason (s.cycle w) := by
  have hworks := works_work s w release
  have hsamples := hworks.samples_eq
  have hdeliveries := hworks.deliveries_eq
  rw [hverdict] at hsamples hdeliveries
  refine ⟨?_, ?_, ?_, fun w' raw hnow hstop' hlatency _ => cycle_alike hnow hstop' hlatency⟩ <;>
    rw [cycle_of_release hstop hrelease]
  · exact hsamples
  · have hwiring := hworks.wiring_eq
    rwa [hsamples] at hwiring
  · exact hdeliveries

end SignalChain.Sampler
