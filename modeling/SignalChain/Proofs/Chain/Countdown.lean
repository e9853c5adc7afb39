import SignalChain.Proofs.Chain.Trail

/-!
# The steps that are left

A chain that has been asked to stop has few steps left, in whatever order its stages are given their
turns. The sampler has one, to close the samples. The filter has two, as there may be a sample to
take before it finds its input drained. The actuator has three, as the filter may hand it a value
more than it finds.

`toDo` counts these steps for each stage. A step takes one from its own stage and adds none to the
others (`toDo_of_move?`), so that the steps of a run are bounded by what there was to do at its
start (`steps_add_toDo_le`).
-/

namespace SignalChain

/-- The move that gives a stage its turn. -/
def Stage.move : Stage → Chain.Move
  | sampler => .sample
  | filter => .filter
  | actuator => .actuate

/-- How many values wait to be taken from a mailbox. -/
def Mailbox.permits {α : Type} (m : Mailbox α) : Nat :=
  m.pending.toNat

namespace Chain

variable {σ π : Type} {c c' : Chain σ π} {j : Journal}

/-- How many records are of the given stage. -/
def steps (stage : Stage) (os : List (Occasion σ π)) : Nat :=
  os.countP fun o => o.deed.stage? = some stage

/-- How many steps a stage has left, once the chain has been asked to stop. -/
def toDo (c : Chain σ π) : Stage → Nat
  | .sampler => if c.samplerStanding = .running then 1 else 0
  | .filter => if c.filterStanding = .running then 1 + c.wiring.samples.permits else 0
  | .actuator =>
    if c.actuatorStanding = .running then
      1 + c.wiring.filtered.permits +
        if c.filterStanding = .running then c.wiring.samples.permits else 0
    else 0

/-- The most steps that a stage can have left. -/
def allowance : Stage → Nat
  | .sampler => 1
  | .filter => 2
  | .actuator => 3

/-! ### Counting down -/

theorem permits_le_one {α : Type} (m : Mailbox α) : m.permits ≤ 1 :=
  Bool.toNat_le m.pending

/-- No stage has more steps left than it is allowed. -/
theorem toDo_le (c : Chain σ π) (stage : Stage) : c.toDo stage ≤ allowance stage := by
  have hsamples := permits_le_one c.wiring.samples
  have hfiltered := permits_le_one c.wiring.filtered
  cases stage <;> simp only [toDo, allowance] <;> repeat' split
  all_goals omega

/-- The steps of a chain are those of its stages. -/
theorem countP_stage_eq (os : List (Occasion σ π)) :
    os.countP (fun o => o.deed.stage?.isSome) =
      steps .sampler os + steps .filter os + steps .actuator os := by
  induction os with
  | nil => rfl
  | cons o os ih =>
    simp only [steps, List.countP_cons] at ih ⊢
    rw [ih]
    cases hstage : o.deed.stage? with
    | none => simp
    | some stage => cases stage <;> simp <;> omega

variable [Sensor σ] [Output π]

/-- A step of the sampler after the request is its last. -/
theorem toDo_of_sample (hstop : c.wiring.stopRequested = true) (h : c.move? .sample = some (c', j))
    (stage : Stage) :
    c'.toDo stage + (if stage = .sampler then 1 else 0) ≤ c.toDo stage := by
  obtain ⟨hrunning, hturn⟩ := Option.ite_none_right_eq_some.mp h
  simp only [sampleTurn, Sampler.cycle_of_stop hstop] at hturn
  obtain ⟨rfl, rfl⟩ := Prod.mk.inj (Option.some.inj hturn)
  cases stage with
  | sampler => simp [toDo, hrunning]
  | filter | actuator => exact Nat.le_refl _

/-- A step of the filter takes the sample that is there and may leave a value in its place, or it is
the last of the filter. -/
theorem toDo_of_filter (h : c.move? .filter = some (c', j)) (stage : Stage) :
    c'.toDo stage + (if stage = .filter then 1 else 0) ≤ c.toDo stage := by
  obtain ⟨hrunning, hturn⟩ := Option.ite_none_right_eq_some.mp h
  obtain ⟨t, hcycle, ht⟩ := Option.map_eq_some_iff.mp hturn
  rcases Filter.cycle?_cases hcycle with ⟨hpending, rfl⟩ | ⟨hpending, hclosed, rfl⟩ <;>
    obtain ⟨rfl, rfl⟩ := Prod.mk.inj ht
  · have hbefore : c.wiring.samples.permits = 1 := by rw [Mailbox.permits, hpending]; rfl
    have hafter : Mailbox.permits { c.wiring.samples with pending := false } = 0 := rfl
    have hvalue := permits_le_one
      (c.wiring.filtered.publish (c.filter.observe c.wiring.samples.value).last.fine)
    cases stage with
    | sampler => exact Nat.le_refl _
    | filter => simp [toDo, hrunning, hbefore, hafter]
    | actuator =>
      -- the value that is published counts for no more than the sample that was taken for it
      simp only [toDo, hrunning, hbefore, hafter]
      split
      · simp
        omega
      · simp
  · have hbefore : c.wiring.samples.permits = 0 := by rw [Mailbox.permits, hpending]; rfl
    cases stage with
    | sampler => exact Nat.le_refl _
    | filter => simp [toDo, hrunning]
    | actuator =>
      -- the close leaves the permit of the values as it is
      have hclose : c.wiring.filtered.close.permits = c.wiring.filtered.permits := rfl
      simp [toDo, hrunning, hbefore, hclose]

/-- A step of the actuator takes the value that is there, or it is the last of the actuator. -/
theorem toDo_of_actuate (h : c.move? .actuate = some (c', j)) (stage : Stage) :
    c'.toDo stage + (if stage = .actuator then 1 else 0) ≤ c.toDo stage := by
  obtain ⟨hrunning, hturn⟩ := Option.ite_none_right_eq_some.mp h
  obtain ⟨t, hcycle, ht⟩ := Option.map_eq_some_iff.mp hturn
  rcases Actuator.cycle?_cases hcycle with ⟨hpending, rfl⟩ | ⟨hpending, hclosed, rfl⟩
  · have hbefore : c.wiring.filtered.permits = 1 := by rw [Mailbox.permits, hpending]; rfl
    have hafter : (c.actuator.serve c.wiring).wiring.filtered.permits = 0 := by
      rw [Actuator.serve_filtered]
      rfl
    have hsamples := Actuator.serve_samples c.actuator c.wiring
    -- whether it goes on or halts makes no difference to the other stages
    cases hresult : (c.actuator.serve c.wiring).result with
    | ok applied =>
      rw [hresult] at ht
      obtain ⟨rfl, rfl⟩ := Prod.mk.inj ht
      cases stage with
      | sampler => exact Nat.le_refl _
      | filter => simp [toDo]
      | actuator =>
        simp only [toDo, hrunning, hbefore, hafter, hsamples, if_true]
        omega
    | error exit =>
      rw [hresult] at ht
      obtain ⟨rfl, rfl⟩ := Prod.mk.inj ht
      cases stage with
      | sampler => exact Nat.le_refl _
      | filter => simp [toDo]
      | actuator =>
        simp only [toDo, hrunning, hbefore, reduceCtorEq, if_true, if_false]
        omega
  · obtain ⟨rfl, rfl⟩ := Prod.mk.inj ht
    cases stage with
    | sampler | filter => exact Nat.le_refl _
    | actuator =>
      simp only [toDo, hrunning, reduceCtorEq, if_true, if_false]
      omega

/-- A move that is made after the request leaves its stage with a step less, and no other stage with
a step more. -/
theorem toDo_of_move? {m : Move} (hstop : c.wiring.stopRequested = true)
    (h : c.move? m = some (c', j)) (stage : Stage) :
    c'.toDo stage + (if (Deed.move m).stage? = some stage then 1 else 0) ≤ c.toDo stage := by
  cases m with
  | sample => simpa [Deed.stage?, eq_comm] using toDo_of_sample hstop h stage
  | filter => simpa [Deed.stage?, eq_comm] using toDo_of_filter h stage
  | actuate => simpa [Deed.stage?, eq_comm] using toDo_of_actuate h stage
  | press | setLevel l | requestStop =>
    obtain ⟨rfl, rfl⟩ := Prod.mk.inj (Option.some.inj h)
    cases stage <;> exact Nat.le_refl _

/-- Nobody takes the request to stop back. -/
theorem stopRequested_of_happens {stage : Option Stage} (hstop : c.wiring.stopRequested = true)
    (h : Happens c stage c' j) : c'.wiring.stopRequested = true := by
  cases h with
  | works release next standing hrunning hrelease hstanding =>
    exact absurd hstop (by simp [hrunning])
  | commands standing hpending hstanding => exact (Actuator.serve_stopRequested _ _).trans hstop
  | asks => rfl
  | _ => exact hstop

/-- The steps that are made after the request were left to do, and those that are left after them as
well. -/
theorem steps_add_toDo_le (hstop : c.wiring.stopRequested = true) (ms : List Move) (stage : Stage) :
    steps stage (c.trail (ms.map .move)) + (c.arrive (ms.map .move)).toDo stage ≤ c.toDo stage := by
  -- on the moves still to be made, with what is left to do from where they start
  induction ms generalizing c with
  | nil => exact Nat.le_of_eq (Nat.zero_add _)
  | cons m ms ih =>
    simp only [List.map_cons, trail, arrive]
    cases hm : c.perform? (.move m) with
    | none => exact ih hstop
    | some p =>
      obtain ⟨⟨next, journal⟩, hattempt, rfl⟩ := Option.map_eq_some_iff.mp hm
      have hnext := stopRequested_of_happens hstop (happens_of_attempt? hattempt)
      have hstep := toDo_of_move? hstop hattempt stage
      -- the counters are no part of what is left to do
      have hcounters (counters : Counters) :
          ({ next with counters } : Chain σ π).toDo stage = next.toDo stage := by
        cases stage <;> rfl
      have hrest := ih (c := { next with counters := next.counters.recordAll journal.events }) hnext
      rw [hcounters] at hrest
      simp only [steps, List.countP_cons, decide_eq_true_eq] at hrest ⊢
      omega

end Chain

end SignalChain
