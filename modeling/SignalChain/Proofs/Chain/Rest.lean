import SignalChain.Proofs.Chain.Answers

/-!
# Stages at rest

A stage that has answered with a shutdown is at rest: the sampler because it has been asked to stop,
the filter and the actuator because their inputs are closed and drained. Nothing takes it out of
that state, neither the other stages nor values that are published into the mailboxes from outside
(`AtRest.disturbAll`), for a closed mailbox remembers such a value but never sets a permit for it.

## Main definitions

* `AtRest`: the condition, which is that of answering with a shutdown (`answer?_eq_shutdown_iff`).
* `Disturbance`: deeds, and values published from outside.
-/

namespace SignalChain

namespace Mailbox

variable {α : Type}

/-- The mailbox is closed, and there is nothing left to take from it. -/
def Exhausted (m : Mailbox α) : Prop :=
  m.pending = false ∧ m.closed = true

variable {m : Mailbox α}

/-- Nothing that is published into an exhausted mailbox can be taken. -/
theorem Exhausted.publish (h : m.Exhausted) (v : α) : (m.publish v).Exhausted := by
  refine ⟨?_, ?_⟩
  · rw [pending_publish, h.1, h.2]
    rfl
  · rw [closed_publish, h.2]

theorem Exhausted.close (h : m.Exhausted) : m.close.Exhausted :=
  ⟨h.1, rfl⟩

end Mailbox

namespace Chain

variable {σ π : Type}

/-- The stage has nothing more to do. -/
def AtRest (c : Chain σ π) : Stage → Prop
  | .sampler => c.wiring.stopRequested = true
  | .filter => c.wiring.samples.Exhausted
  | .actuator => c.wiring.filtered.Exhausted

/-- What can happen to a chain in surroundings that do not leave its mailboxes alone. -/
inductive Disturbance where
  | deed (d : Deed)
  /-- Somebody else publishes into the mailbox between sampler and filter. -/
  | sample (v : Reading)
  /-- Somebody else publishes into the mailbox between filter and actuator. -/
  | value (v : Reading)
  deriving DecidableEq

variable [Sensor σ] [Output π]

/-- The chain after a disturbance. A deed that cannot be done changes nothing. -/
def disturb (c : Chain σ π) : Disturbance → Chain σ π
  | .deed d => c.arrive [d]
  | .sample v => { c with wiring.samples := c.wiring.samples.publish v }
  | .value v => { c with wiring.filtered := c.wiring.filtered.publish v }

/-- The chain after some disturbances, in order. -/
def disturbAll (c : Chain σ π) (xs : List Disturbance) : Chain σ π :=
  xs.foldl disturb c

variable {c c' : Chain σ π} {stage : Stage}

/-- A stage answers with a shutdown exactly if it is at rest. -/
theorem answer?_eq_shutdown_iff :
    c.answer? stage = some (.ok (.left .shutdown)) ↔ c.AtRest stage := by
  cases stage with
  | sampler =>
    refine ⟨fun h => ?_, answer?_sampler_of_stop⟩
    cases hstop : c.wiring.stopRequested with
    | true => exact hstop
    | false =>
      -- a sampler that need not stop goes on or breaks off
      cases hrelease : c.sampler.release? c.wiring.now with
      | none =>
        rw [answer?_sampler_of_no_release hstop hrelease] at h
        cases h
      | some release =>
        rw [answer?_sampler_of_release hstop hrelease] at h
        split at h <;> cases h
  | filter =>
    refine ⟨fun h => ?_, fun h => answer?_filter_of_drained h.1 h.2⟩
    obtain ⟨t, ht, hresult⟩ := Option.map_eq_some_iff.mp h
    rcases Filter.cycle?_cases ht with ⟨-, rfl⟩ | ⟨hp, hc, -⟩
    · cases hresult
    · exact ⟨hp, hc⟩
  | actuator =>
    refine ⟨fun h => ?_, fun h => answer?_actuator_of_drained h.1 h.2⟩
    obtain ⟨t, ht, hresult⟩ := Option.map_eq_some_iff.mp h
    rcases Actuator.cycle?_cases ht with ⟨-, rfl⟩ | ⟨hp, hc, -⟩
    · -- an actuator that leaves over a command halts, which is another way to leave
      cases hserve : (c.actuator.serve c.wiring).result with
      | ok applied => simp [hserve, Actuator.cycleOf] at hresult
      | error exit =>
        obtain ⟨cause, rfl⟩ := Actuator.halted_of_apply _ _ _ hserve
        simp [hserve, Actuator.cycleOf] at hresult
    · exact ⟨hp, hc⟩

/-- A cycle of a stage at rest changes nothing and records nothing. -/
theorem AtRest.cycle?_eq (h : c.AtRest stage) : c.cycle? stage = some (c, []) := by
  cases stage with
  | sampler => rw [cycle?, Sampler.cycle_of_stop h]
  | filter => rw [cycle?, Filter.cycle?_of_drained h.1 h.2, Option.map_some]
  | actuator => rw [cycle?, Actuator.cycle?_of_drained h.1 h.2, Option.map_some]

/-- Whatever happens to a chain leaves a stage at rest. -/
theorem AtRest.of_happens {other : Option Stage} {j : Journal} (h : c.AtRest stage)
    (hh : Happens c other c' j) : c'.AtRest stage := by
  cases hh with
  | works release next standing hstop hrelease hstanding =>
    cases stage with
    | sampler => exact absurd h (by simp [AtRest, hstop])
    | filter =>
      show Mailbox.Exhausted (c.sampler.work c.wiring release).1.samples
      rcases Sampler.work_samples (s := c.sampler) (w := c.wiring) release with
        ⟨raw, -, hafter, -⟩ | ⟨hafter, -⟩
      · rw [hafter]
        exact Mailbox.Exhausted.publish h raw
      · rw [hafter]
        exact h
    | actuator => exact h
  | samplerLeaves hstop =>
    cases stage with
    | sampler => exact h
    | filter => exact Mailbox.Exhausted.close h
    | actuator => exact h
  | observes hpending =>
    cases stage with
    | sampler => exact h
    | filter => exact ⟨rfl, h.2⟩
    | actuator => exact Mailbox.Exhausted.publish h _
  | filterLeaves hpending hclosed =>
    cases stage with
    | sampler => exact h
    | filter => exact h
    | actuator => exact Mailbox.Exhausted.close h
  | commands standing hpending hstanding =>
    cases stage with
    | sampler =>
      show (c.actuator.serve c.wiring).wiring.stopRequested = true
      rw [Actuator.serve_stopRequested]
      exact h
    | filter =>
      show Mailbox.Exhausted (c.actuator.serve c.wiring).wiring.samples
      rw [Actuator.serve_samples]
      exact h
    | actuator => exact absurd h.1 (by simp [hpending])
  | asks =>
    cases stage with
    | sampler => rfl
    | filter => exact h
    | actuator => exact h
  | passes | filterIdles | actuatorIdles | actuatorLeaves | overrides => cases stage <;> exact h

/-- No disturbance takes a stage out of its rest. -/
theorem AtRest.disturb (h : c.AtRest stage) (x : Disturbance) : (c.disturb x).AtRest stage := by
  cases x with
  | deed d =>
    show (c.arrive [d]).AtRest stage
    simp only [arrive]
    cases hd : c.perform? d with
    | none => exact h
    | some p =>
      obtain ⟨⟨next, journal⟩, hattempt, rfl⟩ := Option.map_eq_some_iff.mp hd
      have hnext : next.AtRest stage := h.of_happens (happens_of_attempt? hattempt)
      cases stage <;> exact hnext
  | sample v =>
    cases stage with
    | sampler => exact h
    | filter => exact Mailbox.Exhausted.publish h v
    | actuator => exact h
  | value v =>
    cases stage with
    | sampler => exact h
    | filter => exact h
    | actuator => exact Mailbox.Exhausted.publish h v

/-- A stage at rest stays at rest, whatever comes after. -/
theorem AtRest.disturbAll (h : c.AtRest stage) (xs : List Disturbance) :
    (c.disturbAll xs).AtRest stage := by
  induction xs generalizing c with
  | nil => exact h
  | cons x xs ih => exact ih (h.disturb x)

end Chain

end SignalChain
