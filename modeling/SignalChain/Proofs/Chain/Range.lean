import SignalChain.Proofs.Chain.Trail
import SignalChain.Proofs.Settings.Accepted
import SignalChain.Proofs.Stage.Memory

/-!
# Chains keep to their settings

Whatever is done to a chain, its stages keep the settings they were made with (`KeepsTo`), so that
every step of a trail may count on them (`trail_induction_of_keepsTo`). All values on their way
stay within the scale of the converter (`InScale`): the sampler lets no greater reading through, and
a mean is no greater than the readings it is of.
-/

namespace SignalChain.Chain

variable {σ π : Type} {s : Settings} {c c' : Chain σ π} {stage : Option Stage} {j : Journal}

/-- The stages of the chain have the settings `s`, apart from what they remember. -/
structure KeepsTo (s : Settings) (c : Chain σ π) : Prop where
  sampler_eq : c.sampler = { samplerOf s with nextRelease := c.sampler.nextRelease }
  actuator_eq : c.actuator = { actuatorOf s with failures := c.actuator.failures }

/-- The values on their way through the chain are within the scale of `s`. -/
structure InScale (s : Settings) (c : Chain σ π) : Prop where
  sample_le : c.wiring.samples.value ≤ s.fullScale
  recent_le : ∀ r ∈ c.filter.window.recent, r ≤ s.fullScale
  value_le : c.wiring.filtered.value ≤ s.fullScale

/-- The scale of the sampler is that of the settings. -/
theorem KeepsTo.sampler_fullScale (h : KeepsTo s c) : c.sampler.fullScale = s.fullScale := by
  rw [h.sampler_eq]
  rfl

/-- The actuator of the chain has at least the budget of its settings. -/
theorem KeepsTo.budget_le (h : KeepsTo s c) : s.failureBudget ≤ c.actuator.budget := by
  rw [h.actuator_eq]
  show s.failureBudget ≤ if s.failureBudget ≤ 1 then 1 else s.failureBudget
  split
  next hle => exact hle
  next => exact UInt8.le_refl _

/-- A chain before its first move keeps to its settings. -/
theorem KeepsTo.of_ofSettings {sensor : σ} {output : π} {now : Instant}
    (h : ofSettings s sensor output now = .ok c) : KeepsTo s c := by
  obtain ⟨-, rfl⟩ := ofSettings_eq_ok_iff.mp h
  exact ⟨rfl, rfl⟩

/-- A chain before its first move has only zeros on their way. -/
theorem InScale.of_ofSettings {sensor : σ} {output : π} {now : Instant}
    (h : ofSettings s sensor output now = .ok c) : InScale s c := by
  obtain ⟨-, rfl⟩ := ofSettings_eq_ok_iff.mp h
  refine ⟨UInt16.zero_le, fun r hr => ?_, UInt16.zero_le⟩
  rw [Window.recent_empty] at hr
  rw [List.eq_of_mem_replicate hr]
  exact UInt16.zero_le

variable [Sensor σ] [Output π]

/-- Nothing that can happen to a chain changes its settings. -/
theorem KeepsTo.of_happens (h : KeepsTo s c) (hh : Happens c stage c' j) : KeepsTo s c' := by
  obtain ⟨hsampler, hactuator⟩ := h
  -- only two things that happen touch a stage with settings, and each changes what it remembers
  cases hh with
  | works release next standing hstop hrelease hstanding =>
    exact ⟨by rw [hsampler], hactuator⟩
  | commands standing hpending hstanding =>
    refine ⟨hsampler, ?_⟩
    show (c.actuator.serve c.wiring).stage = _
    rw [Actuator.serve_stage, hactuator]
  | _ => exact ⟨hsampler, hactuator⟩

/-- What everything that can happen to a chain with settings `s` keeps, holds at the end of every
trail of it, if it does not look at the counters. -/
theorem trail_induction_of_keepsTo {P : List (Occasion σ π) → Chain σ π → Prop}
    (hcounters : ∀ os (c : Chain σ π) counters, P os c → P os { c with counters })
    (hhappens : ∀ os c d c' j, KeepsTo s c → P os c → Happens c d.stage? c' j →
      P (os ++ [{ before := c, deed := d, journal := j }]) c')
    {os : List (Occasion σ π)} {c : Chain σ π} (hs : KeepsTo s c) (h : P os c) (ds : List Deed) :
    KeepsTo s (c.arrive ds) ∧ P (os ++ c.trail ds) (c.arrive ds) := by
  refine trail_induction_of_happens (P := fun os c => KeepsTo s c ∧ P os c) ?_ ?_ ⟨hs, h⟩ ds
  · rintro os c counters ⟨hkeeps, hc⟩
    exact ⟨{ hkeeps with }, hcounters os c counters hc⟩
  · rintro os c d c' j ⟨hkeeps, hc⟩ hh
    exact ⟨hkeeps.of_happens hh, hhappens os c d c' j hkeeps hc hh⟩

/-- Nothing that can happen to a chain takes a value out of the scale. -/
theorem InScale.of_happens (hs : KeepsTo s c) (h : InScale s c) (hh : Happens c stage c' j) :
    InScale s c' := by
  obtain ⟨hsample, hrecent, hvalue⟩ := h
  cases hh with
  | works release next standing hstop hrelease hstanding =>
    rcases Sampler.work_samples (s := c.sampler) (w := c.wiring) release with
      ⟨raw, hraw, hsamples, -⟩ | ⟨hsamples, -⟩
    · -- the sampler compares with its own scale, which is that of the settings
      refine ⟨?_, hrecent, hvalue⟩
      rw [hsamples, Mailbox.value_publish, ← hs.sampler_fullScale]
      exact hraw
    · exact ⟨hsamples ▸ hsample, hrecent, hvalue⟩
  | observes hpending =>
    -- the sample comes into view first, and the fine mean is of what is in view then
    have hview : ∀ r ∈ (c.filter.observe c.wiring.samples.value).window.recent,
        r ≤ s.fullScale := by
      intro r hr
      rw [Filter.recent_observe] at hr
      rcases List.mem_cons.mp hr with rfl | hr
      · exact hsample
      · exact hrecent r (List.mem_of_mem_dropLast hr)
    refine ⟨hsample, hview, ?_⟩
    rw [Mailbox.value_publish, Filter.last_observe]
    exact Estimate.fine_le (by rw [Window.length_recent]; decide) hview
  | commands standing hpending hstanding =>
    refine ⟨?_, hrecent, ?_⟩
    · rw [Actuator.serve_samples]
      exact hsample
    · rw [Actuator.serve_filtered]
      exact hvalue
  | _ => exact ⟨hsample, hrecent, hvalue⟩

end SignalChain.Chain
