import SignalChain.Proofs.Chain.Countdown
import SignalChain.Proofs.Chain.Range
import SignalChain.Proofs.Chain.Rest
import SignalChain.Proofs.Chain.Shutdown
import SignalChain.Proofs.Stage.Reports

/-!
# The way to the end

A chain that has been asked to stop comes to its end, whatever turns its stages are given. It has
only so many steps left, and no stage is left waiting before it has left: the sampler never waits,
and each stage that has left has closed the mailbox that the next one waits for (`exits_of_stuck`).
An actuator that halts early leaves nobody waiting, for nobody waits for it.

## Main definitions and results

* `Departed`: where the stages stand, and why those that have left have done so.
* `Orderly`: what holds at any time of a chain that only its stages work on.
* `WindsUp`: how a chain that has been asked to stop takes some more moves.
* `windsUp_of_stopRequested`: every chain of accepted settings is orderly and winds up.
-/

namespace SignalChain.Chain

variable {σ π : Type} {s : Settings} {c c' : Chain σ π} {d : Deed} {j : Journal}
variable {os : List (Occasion σ π)}

/-- The refusals in a row have used up the budget at some time. -/
def BudgetSpent (s : Settings) (os : List (Occasion σ π)) (cause : OutputFault) : Prop :=
  ∃ o ∈ os, ∃ inARow, Event.refused cause inARow ∈ o.journal.events ∧ s.failureBudget ≤ inARow

variable [Sensor σ] [Output π]

/-! ### Where the stages stand -/

/-- Where stages stand, and what has happened to those that have not left as they were asked to. -/
structure Departed (s : Settings) (os : List (Occasion σ π)) (c : Chain σ π) : Prop where
  sampler : c.samplerStanding = .running ∨ c.samplerStanding = .left .shutdown ∨
    (c.samplerStanding = .broken ∧ ∃ o ∈ os, ¬ o.IsWhole)
  filter : c.filterStanding = .running ∨ c.filterStanding = .left .shutdown
  actuator : c.actuatorStanding = .running ∨ c.actuatorStanding = .left .shutdown ∨
    ∃ cause, c.actuatorStanding = .left (.halted cause) ∧ BudgetSpent s os cause

/-- A chain before its first move has not been left by any stage. -/
theorem Departed.of_ofSettings {sensor : σ} {output : π} {now : Instant}
    (h : ofSettings s sensor output now = .ok c) : Departed s [] c := by
  obtain ⟨-, rfl⟩ := ofSettings_eq_ok_iff.mp h
  exact ⟨Or.inl rfl, Or.inl rfl, Or.inl rfl⟩

/-- What was said of the stages goes on to hold when something is recorded. -/
theorem Departed.concat (h : Departed s os c) (o : Occasion σ π) : Departed s (os ++ [o]) c where
  sampler := by
    rcases h.sampler with hs | hs | ⟨hs, o', ho', hbroken⟩
    · exact Or.inl hs
    · exact Or.inr (Or.inl hs)
    · exact Or.inr (Or.inr ⟨hs, o', List.mem_append_left _ ho', hbroken⟩)
  filter := h.filter
  actuator := by
    rcases h.actuator with ha | ha | ⟨cause, ha, o', ho', hspent⟩
    · exact Or.inl ha
    · exact Or.inr (Or.inl ha)
    · exact Or.inr (Or.inr ⟨cause, ha, o', List.mem_append_left _ ho', hspent⟩)

/-- A stage leaves its loop only as it is asked to, over a spent budget, or in the middle of a
cycle. -/
theorem Departed.of_happens (hs : KeepsTo s c) (h : Departed s os c)
    (hh : Happens c d.stage? c' j) : Departed s (os ++ [⟨c, d, j⟩]) c' := by
  obtain ⟨hsampler, hfilter, hactuator⟩ := h.concat ⟨c, d, j⟩
  generalize hstage : d.stage? = stage at hh
  cases hh with
  | works release next standing hstop hrelease hstanding =>
    refine ⟨?_, hfilter, hactuator⟩
    rcases hstanding with rfl | ⟨rfl, hnone⟩
    · exact hsampler
    · refine Or.inr (Or.inr ⟨rfl, _, List.mem_append_right _ (List.mem_singleton_self _), ?_⟩)
      intro hwhole
      apply hwhole
      rw [answer?_of_stage hstage, answer?_sampler_of_release hstop hrelease, hnone]
      rfl
  | passes standing hidle hstanding =>
    refine ⟨?_, hfilter, hactuator⟩
    rcases hstanding with rfl | ⟨rfl, hstop⟩
    · exact hsampler
    · -- without a request to stop, it has no instant for its release
      have hnone : c.sampler.release? c.wiring.now = none := by
        rcases hidle with hrequest | hnone
        · rw [hstop] at hrequest
          cases hrequest
        · exact hnone
      refine Or.inr (Or.inr ⟨rfl, _, List.mem_append_right _ (List.mem_singleton_self _), ?_⟩)
      intro hwhole
      apply hwhole
      rw [answer?_of_stage hstage, answer?_sampler_of_no_release hstop hnone]
  | samplerLeaves hstop => exact ⟨Or.inr (Or.inl rfl), hfilter, hactuator⟩
  | filterLeaves hpending hclosed => exact ⟨hsampler, Or.inr rfl, hactuator⟩
  | commands standing hpending hstanding =>
    refine ⟨hsampler, hfilter, ?_⟩
    rcases hstanding with rfl | ⟨cause, rfl, hresult⟩
    · exact hactuator
    · refine Or.inr
        (Or.inr ⟨cause, rfl, _, List.mem_append_right _ (List.mem_singleton_self _), ?_⟩)
      -- of the three outcomes of a command, only a halt has this result
      cases Actuator.served_serve c.actuator c.wiring with
      | accepts hanswer hissued => simp [hissued] at hresult
      | refuses cause' hanswer hbudget hrefused => simp [hrefused] at hresult
      | halts cause' hanswer hbudget hhalted hfailures hevents =>
        obtain rfl : cause' = cause := by simpa [hhalted] using hresult
        refine ⟨c.actuator.refusals, ?_, UInt8.le_trans hs.budget_le hbudget⟩
        show _ ∈ Journal.events _
        rw [hevents]
        exact List.mem_cons_self
  | actuatorLeaves hpending hclosed => exact ⟨hsampler, hfilter, Or.inr (Or.inl rfl)⟩
  | observes | filterIdles | actuatorIdles | overrides | asks =>
    exact ⟨hsampler, hfilter, hactuator⟩

/-! ### No stage is left waiting -/

/-- Where the given stage stands. -/
def standing (c : Chain σ π) : Stage → Standing
  | .sampler => c.samplerStanding
  | .filter => c.filterStanding
  | .actuator => c.actuatorStanding

/-- A stage can be given its turn exactly if it has not left its loop and need not wait. -/
theorem isSome_step_move (c : Chain σ π) (stage : Stage) :
    (c.step stage.move).isSome = (decide (c.standing stage = .running) && c.ready stage) := by
  have hready := c.isSome_perform?_cycle stage
  simp only [perform?, attempt?, Option.isSome_map] at hready
  rw [step, Option.isSome_map, ← hready]
  cases stage with
  | sampler =>
    by_cases hrunning : c.samplerStanding = .running <;>
      simp [Stage.move, move?, standing, hrunning, cycle?]
  | filter =>
    by_cases hrunning : c.filterStanding = .running <;>
      simp [Stage.move, move?, filterTurn?, standing, hrunning, cycle?]
  | actuator =>
    by_cases hrunning : c.actuatorStanding = .running <;>
      simp [Stage.move, move?, actuateTurn?, standing, hrunning, cycle?]

/-- When no stage can be given a turn any more, all have left. -/
theorem exits_of_stuck (hcascade : Cascade c) (hdeparted : Departed s os c)
    (hwhole : ∀ o ∈ os, o.IsWhole) (hstuck : ∀ stage : Stage, c.step stage.move = none) :
    ∃ exit, c.exits = .ok ⟨.shutdown, .shutdown, exit⟩ := by
  have hwaits (stage : Stage) (hready : c.ready stage = true) : c.standing stage ≠ .running := by
    intro hrunning
    have hsome := c.isSome_step_move stage
    rw [hstuck stage, hrunning, hready] at hsome
    cases hsome
  -- the sampler never waits, and whoever has left has closed the mailbox that the next waits for
  have hsampler : c.samplerStanding = .left .shutdown := by
    rcases hdeparted.sampler with hs | hs | ⟨-, o, ho, hbroken⟩
    · exact absurd hs (hwaits .sampler rfl)
    · exact hs
    · exact absurd (hwhole o ho) hbroken
  have hsamples := hcascade.closed_of_samplerLeft _ hsampler
  have hfilter : c.filterStanding = .left .shutdown := by
    rcases hdeparted.filter with hf | hf
    · exact absurd hf (hwaits .filter (by simp [ready, Mailbox.isReady, hsamples]))
    · exact hf
  have hfiltered := hcascade.closed_of_filterLeft _ hfilter
  have hactuator : ∃ exit, c.actuatorStanding = .left exit := by
    rcases hdeparted.actuator with ha | ha | ⟨cause, ha, -⟩
    · exact absurd ha (hwaits .actuator (by simp [ready, Mailbox.isReady, hfiltered]))
    · exact ⟨_, ha⟩
    · exact ⟨_, ha⟩
  obtain ⟨exit, hexit⟩ := hactuator
  exact ⟨exit, exits_eq_ok_iff.mpr ⟨hsampler, hfilter, hexit⟩⟩

/-! ### The way to the end -/

/-- What holds at any time of a chain with settings `s` that only its stages work on. -/
structure Orderly (s : Settings) (os : List (Occasion σ π)) (c : Chain σ π) : Prop where
  /-- The mailboxes are closed from front to back, each when it has been drained. -/
  cascade : Cascade c
  /-- The stages leave only as they are asked to, unless they break off or halt. -/
  departed : Departed s os c
  /-- No sample is published into a closed mailbox. -/
  samples_open : ∀ o ∈ os, o.samples ≠ [] → o.before.wiring.samples.closed = false
  /-- No fine mean is published into a closed mailbox. -/
  values_open : ∀ o ∈ os, o.fines ≠ [] → o.before.wiring.filtered.closed = false

/-- How a chain that has been asked to stop after the records `os` takes some more moves. -/
structure WindsUp (os : List (Occasion σ π)) (c : Chain σ π) (ms : List Move) : Prop where
  steps_le : ∀ stage, steps stage (c.trail (ms.map .move)) ≤ allowance stage
  total_le : (c.trail (ms.map .move)).countP (fun o => o.deed.stage?.isSome) ≤ 6
  /-- When no stage can be given a turn any more, all have left. -/
  exits_of_stuck : (∀ o ∈ os, o.IsWhole) →
    (∀ stage : Stage, (c.arrive (ms.map .move)).step stage.move = none) →
      ∃ exit, (c.arrive (ms.map .move)).exits = .ok ⟨.shutdown, .shutdown, exit⟩

/-- Everything that can happen to an orderly chain leaves it orderly. -/
theorem Orderly.of_happens (hs : KeepsTo s c) (h : Orderly s os c) (hh : Happens c d.stage? c' j) :
    Orderly s (os ++ [⟨c, d, j⟩]) c' where
  cascade := h.cascade.of_happens hh
  departed := h.departed.of_happens hs hh
  samples_open := forall_mem_concat_iff.mpr ⟨h.samples_open, h.cascade.samples_open hh⟩
  values_open := forall_mem_concat_iff.mpr ⟨h.values_open, h.cascade.filtered_open hh⟩

/-- An orderly chain that keeps to its settings stays so along every trail. -/
theorem Orderly.trail (hs : KeepsTo s c) (h : Orderly s os c) (ds : List Deed) :
    KeepsTo s (c.arrive ds) ∧ Orderly s (os ++ c.trail ds) (c.arrive ds) := by
  refine trail_induction_of_keepsTo (P := Orderly s) ?_ ?_ hs h ds
  · -- the counters are no part of any of this
    intro os c counters horderly
    exact { horderly with
      cascade := { horderly.cascade with }
      departed := { horderly.departed with } }
  · intro os c d c' j hkeeps horderly hhappens
    exact horderly.of_happens hkeeps hhappens

/-- Only a sampler that works converts, and it does not work any more after the request. -/
theorem sensor_of_happens {stage : Option Stage} (hstop : c.wiring.stopRequested = true)
    (h : Happens c stage c' j) : c'.wiring.sensor = c.wiring.sensor := by
  cases h with
  | works release next standing hrunning => exact absurd hstop (by simp [hrunning])
  | commands standing hpending hstanding => exact Actuator.serve_sensor _ _
  | _ => rfl

/-- After the request nobody converts any more, and every record was made after the request. -/
theorem trail_of_stopRequested (hstop : c.wiring.stopRequested = true) (ds : List Deed) :
    (c.arrive ds).wiring.sensor = c.wiring.sensor ∧
      ∀ o ∈ c.trail ds, o.before.wiring.stopRequested = true := by
  have hlater : (c.arrive ds).wiring.stopRequested = true ∧
      (c.arrive ds).wiring.sensor = c.wiring.sensor ∧
        ∀ o ∈ [] ++ c.trail ds, o.before.wiring.stopRequested = true := by
    refine trail_induction_of_happens
      (P := fun os c' => c'.wiring.stopRequested = true ∧ c'.wiring.sensor = c.wiring.sensor ∧
        ∀ o ∈ os, o.before.wiring.stopRequested = true) ?_ ?_ ⟨hstop, rfl, by simp⟩ ds
    · exact fun os c counters h => h
    · rintro os b d b' j ⟨hb, hsensor, hos⟩ hh
      exact ⟨stopRequested_of_happens hb hh, (sensor_of_happens hb hh).trans hsensor,
        forall_mem_concat_iff.mpr ⟨hos, hb⟩⟩
  exact hlater.2

/-- An orderly chain that has been asked to stop winds up. -/
theorem Orderly.windsUp (hs : KeepsTo s c) (h : Orderly s os c)
    (hstop : c.wiring.stopRequested = true) (ms : List Move) : WindsUp os c ms := by
  have hsteps (stage : Stage) : steps stage (c.trail (ms.map .move)) ≤ allowance stage := by
    have hle := steps_add_toDo_le hstop ms stage
    have hallowed := c.toDo_le stage
    omega
  refine ⟨hsteps, ?_, fun hwhole hstuck => ?_⟩
  · rw [countP_stage_eq]
    have hsampler := hsteps .sampler
    have hfilter := hsteps .filter
    have hactuator := hsteps .actuator
    simp only [allowance] at hsampler hfilter hactuator
    omega
  · obtain ⟨-, hafter⟩ := h.trail hs (ms.map .move)
    refine Chain.exits_of_stuck hafter.cascade hafter.departed (fun o ho => ?_) hstuck
    -- after the request no cycle breaks off
    rcases List.mem_append.mp ho with ho | ho
    · exact hwhole o ho
    · exact isWhole_of_stopRequested ((trail_of_stopRequested hstop _).2 o ho)

/-- Whatever is done to a chain of accepted settings, with whatever sensor and output, it is
orderly. Once it has been asked to stop, it converts no more and winds up under whatever moves come
after. A stage that answers with a shutdown does so ever after and changes nothing, even if values
are published from outside. -/
theorem windsUp_of_stopRequested {sensor : σ} {output : π} {now : Instant}
    (h : ofSettings s sensor output now = .ok c) (ds : List Deed) :
    Orderly s (c.trail ds) (c.arrive ds) ∧
      ((c.arrive ds).wiring.stopRequested = true →
        (∀ ms, WindsUp (c.trail ds) (c.arrive ds) ms) ∧
          ∀ later, ((c.arrive ds).arrive later).wiring.sensor = (c.arrive ds).wiring.sensor) ∧
      ∀ stage, (c.arrive ds).answer? stage = some (.ok (.left .shutdown)) → ∀ xs,
        ((c.arrive ds).disturbAll xs).answer? stage = some (.ok (.left .shutdown)) ∧
          ((c.arrive ds).disturbAll xs).perform? (.cycle stage) =
            some ((c.arrive ds).disturbAll xs, []) := by
  have hstart : Orderly s [] c := by
    refine ⟨(Lossless.of_ofSettings h).cascade, .of_ofSettings h, by simp, by simp⟩
  obtain ⟨hkeeps, horderly⟩ := hstart.trail (.of_ofSettings h) ds
  refine ⟨horderly, fun hstop => ⟨horderly.windsUp hkeeps hstop, fun later => ?_⟩, ?_⟩
  · exact (trail_of_stopRequested hstop later).1
  · intro stage hanswer xs
    have hrest := (answer?_eq_shutdown_iff.mp hanswer).disturbAll xs
    refine ⟨answer?_eq_shutdown_iff.mpr hrest, ?_⟩
    rw [perform?, attempt?, hrest.cycle?_eq]
    rfl

/-- A chain that is asked to stop with a value in each mailbox, as an instance. It takes all the six
steps that it may have left, and its filter stays at rest when a sample comes from outside. -/
theorem windsUp_of_two_pending :
    ∃ (c : Chain Script Load) (ds : List Deed) (ms : List Move),
      ofSettings {} { entries := [{ outcome := .ok 300 }, { outcome := .ok 310 }] } {} = .ok c ∧
      (c.arrive ds).wiring.stopRequested = true ∧ (∀ o ∈ c.trail ds, o.IsWhole) ∧
      ((c.arrive ds).trail (ms.map .move)).length = 6 ∧
      (∀ stage : Stage, ((c.arrive ds).arrive (ms.map .move)).step stage.move = none) ∧
      (∃ exit, ((c.arrive ds).arrive (ms.map .move)).exits = .ok ⟨.shutdown, .shutdown, exit⟩) ∧
      (c.arrive (ds ++ ms.map .move)).answer? .filter = some (.ok (.left .shutdown)) ∧
      ((c.arrive (ds ++ ms.map .move)).disturbAll [.sample 7]).answer? .filter =
        some (.ok (.left .shutdown)) := by
  refine ⟨_, [.move .sample, .move .filter, .move .sample, .move .requestStop],
    [.sample, .actuate, .filter, .filter, .actuate, .actuate], rfl, by decide, by decide, by decide,
    ?_, ?_, by decide, ?_⟩
  · intro stage
    cases stage <;> rfl
  · refine WindsUp.exits_of_stuck
      (((windsUp_of_stopRequested (s := {}) rfl _).2.1 (by decide)).1 _) (by decide) fun stage => ?_
    cases stage <;> rfl
  · exact ((windsUp_of_stopRequested (s := {}) rfl _).2.2 .filter (by decide) _).1

end SignalChain.Chain
