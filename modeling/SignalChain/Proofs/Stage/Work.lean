import SignalChain.Proofs.Stage.Cadence
import SignalChain.Proofs.Stage.Reports

/-!
# The whole work of a cycle

Between the two instants of its cycle the sampler converts once, delivers a reading or the reason
why there is none, and sleeps until its release or tells how late it is. `Sampler.Works` says all
of this of the wiring before and after, and `works_work` is the only place where it is read off the
text of the cycle.

## Main definitions

* `Sampler.verdict`: what the sampler makes of the outcome of a conversion.
* `Event.delivery`, `Journal.deliveries`: the events that tell of readings, published or rejected.
* `Sampler.Works`: what the work of a cycle comes to.
-/

namespace SignalChain

/-- The event that tells of a reading, or of the reason why there is none. -/
def Event.delivery : Except Rejection Reading → Event
  | .ok raw => .published raw
  | .error reason => .rejected reason

/-- The deliveries that a journal tells of. -/
def Journal.deliveries (j : Journal) : List Event :=
  j.events.filter Event.isDelivery

@[simp]
theorem Journal.deliveries_append (i j : Journal) :
    deliveries (i ++ j) = deliveries i ++ deliveries j := by
  simp [deliveries]

namespace Sampler

variable {σ π : Type}

/-- What a sampler with the given full scale makes of the outcome of a conversion. -/
def verdict (fullScale : Reading) : Except SensorFault Reading → Except Rejection Reading
  | .error cause => .error (.readFailed cause)
  | .ok raw => if fullScale < raw then .error (.outOfRange raw) else .ok raw

variable [Sensor σ]

/-- The sampler has found `w` and done its whole work for `release`: it has left the wiring `w'` and
the journal `j`. -/
structure Works (fullScale : Reading) (release : Instant) (w w' : Wiring σ π) (j : Journal) :
    Prop where
  /-- One conversion was made, and otherwise only the samples and the clock may have changed. -/
  wiring_eq : w' =
    { w with sensor := (Sensor.convert w.sensor).2, samples := w'.samples, now := w'.now }
  /-- A valid reading was published, and without one the mailbox was left alone. -/
  samples_eq : w'.samples = match verdict fullScale (Sensor.convert w.sensor).1.outcome with
    | .ok raw => w.samples.publish raw
    | .error _ => w.samples
  /-- What the reading came to was reported once. -/
  deliveries_eq : j.deliveries = [.delivery (verdict fullScale (Sensor.convert w.sensor).1.outcome)]
  /-- Before its release the cycle slept until then. From the release on it told how late it was. -/
  settled : let done := w.now + (Sensor.convert w.sensor).1.latency
    if done < release then w'.now = release ∧ j.sleeps = [release] ∧ j.latenesses = []
    else w'.now = done ∧ j.sleeps = [] ∧ j.latenesses = [done - release]

variable (s : Sampler) (w : Wiring σ π) (release : Instant)

theorem acquire_eq : s.acquire w =
    (verdict s.fullScale (Sensor.convert w.sensor).1.outcome,
      { w with
        sensor := (Sensor.convert w.sensor).2
        now := w.now + (Sensor.convert w.sensor).1.latency }) := by
  unfold acquire verdict
  obtain ⟨⟨outcome, latency⟩, sensor⟩ := Sensor.convert w.sensor
  cases outcome <;> rfl

/-- The end of a cycle delivers nothing. -/
theorem deliveries_settle (now : Instant) : (settle release now).2.deliveries = [] := by
  unfold settle
  split <;> rfl

/-- The work of the sampler is what it should be. -/
theorem works_work : Works s.fullScale release w (s.work w release).1 (s.work w release).2 := by
  refine ⟨rfl, ?_, ?_, ?_⟩
  · simp only [work, acquire_eq]
    cases verdict s.fullScale (Sensor.convert w.sensor).1.outcome <;> rfl
  · simp only [work, acquire_eq, Journal.deliveries_append, deliveries_settle]
    cases verdict s.fullScale (Sensor.convert w.sensor).1.outcome <;> rfl
  · obtain ⟨hnow, hsleeps, hlatenesses⟩ := work_timing s w release
    simp only [hnow, hsleeps, hlatenesses, settle]
    split
    next hlt => exact ⟨if_pos (UInt64.le_of_lt hlt), rfl, rfl⟩
    next => exact ⟨rfl, rfl, rfl⟩

end Sampler

end SignalChain
