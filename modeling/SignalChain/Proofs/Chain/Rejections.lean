import SignalChain.Device.Load
import SignalChain.Device.Script
import SignalChain.Proofs.Chain.Shutdown
import SignalChain.Proofs.Stage.Rejection

/-!
# A filter sees valid readings only

The readings of a sensor come to the filter through the sampler, which rejects some of them. What it
publishes are the valid readings of the conversions so far, in order (`Converts`), and what the
filter works out depends on the samples that it takes and on nothing else (`Filters`). If the filter
takes every sample before the sampler works again, then no sample is missed. The results of the
filter are then those of the valid readings, and the rejected ones between them leave no trace.

## Main definitions

* `Sensor.verdicts`, `Sensor.valid`: what a sampler makes of conversions in a row.
* `Filter.results`: what a filter makes of samples in a row.
* `SeesValid`: what a run shows in which no sample is missed (`rejects_and_seesValid`).
-/

namespace SignalChain

/-! ### Readings in a row -/

namespace Sensor

variable {σ : Type} [Sensor σ]

/-- What a sampler makes of the first `n` conversions of a sensor. -/
def verdicts (fullScale : Reading) (sensor : σ) (n : Nat) : List (Except Rejection Reading) :=
  (List.range n).map fun k => Sampler.verdict fullScale (convert (after sensor k)).1.outcome

/-- The valid readings among the first `n` conversions of a sensor. -/
def valid (fullScale : Reading) (sensor : σ) (n : Nat) : List Reading :=
  (verdicts fullScale sensor n).filterMap Except.toOption

theorem verdicts_succ (fullScale : Reading) (sensor : σ) (n : Nat) :
    verdicts fullScale sensor (n + 1) = verdicts fullScale sensor n ++
      [Sampler.verdict fullScale (convert (after sensor n)).1.outcome] := by
  simp [verdicts, List.range_succ]

end Sensor

/-- The valid readings of a script are those of its entries. -/
theorem Script.valid_eq (fullScale : Reading) (s : Script) (n : Nat) :
    Sensor.valid fullScale s n =
      (s.entries.take n).filterMap fun e => (Sampler.verdict fullScale e.outcome).toOption := by
  induction n with
  | zero => rfl
  | succ n ih =>
    rw [Sensor.valid, Sensor.verdicts_succ, List.filterMap_append, List.take_add_one,
      List.filterMap_append, ← ih, Script.convert_after]
    -- a script that has run out fails, which is no valid reading either
    cases s.entries[n]? <;> rfl

/-- What a filter makes of some samples, one after the other. -/
def Filter.results (f : Filter) : List Reading → List (Reading × Estimate)
  | [] => []
  | v :: vs => (v, (f.observe v).last) :: (f.observe v).results vs

theorem Filter.results_concat (f : Filter) (vs : List Reading) (v : Reading) :
    f.results (vs ++ [v]) =
      f.results vs ++ [(v, ((vs.foldl Filter.observe f).observe v).last)] := by
  -- the filter that meets the rest is the one that has observed the first
  induction vs generalizing f with
  | nil => rfl
  | cons u us ih => rw [List.cons_append, results, ih, results, List.cons_append, List.foldl_cons]

/-- The samples of a journal are those of its deliveries. -/
theorem Journal.samples_eq_deliveries (j : Journal) :
    j.samples = j.deliveries.filterMap Event.sample? := by
  rw [samples, deliveries, List.filterMap_filter]
  refine List.filterMap_congr fun e _ => ?_
  cases e <;> rfl

namespace Chain

variable {σ π : Type} {first c c' : Chain σ π} {d : Deed} {j : Journal}
variable {os : List (Occasion σ π)}

/-! ### What a run shows -/

/-- The sample that the filter took, with what it made of it. -/
def Occasion.result? (o : Occasion σ π) : Option (Reading × Estimate) :=
  o.sampleTaken?.map fun v => (v, (o.before.filter.observe v).last)

/-- The deliveries that some records tell of. -/
def deliveriesIn (os : List (Occasion σ π)) : List Event :=
  os.flatMap fun o => o.journal.deliveries

theorem deliveriesIn_concat : deliveriesIn (os ++ [⟨c, d, j⟩]) = deliveriesIn os ++ j.deliveries := by
  simp [deliveriesIn]

/-- The published samples are those of the deliveries. -/
theorem samples_eq_deliveriesIn (os : List (Occasion σ π)) :
    os.flatMap Occasion.samples = (deliveriesIn os).filterMap Event.sample? := by
  rw [deliveriesIn, List.filterMap_flatMap]
  exact List.flatMap_congr fun o _ => o.journal.samples_eq_deliveries

variable [Sensor σ]

/-- A chain that was `first` has converted once for every delivery, and each delivery tells of what
the sampler makes of its conversion. -/
structure Converts (first : Chain σ π) (os : List (Occasion σ π)) (c : Chain σ π) : Prop where
  fullScale_eq : c.sampler.fullScale = first.sampler.fullScale
  sensor_eq : c.wiring.sensor = Sensor.after first.wiring.sensor (deliveriesIn os).length
  deliveries_eq : deliveriesIn os = (Sensor.verdicts first.sampler.fullScale first.wiring.sensor
    (deliveriesIn os).length).map Event.delivery

/-- The filter of a chain that was `first` has made of the samples what a filter makes of them. -/
structure Filters (first : Chain σ π) (os : List (Occasion σ π)) (c : Chain σ π) : Prop where
  filter_eq : c.filter = (os.filterMap Occasion.sampleTaken?).foldl Filter.observe first.filter
  results_eq : os.filterMap Occasion.result? =
    first.filter.results (os.filterMap Occasion.sampleTaken?)
  reports_eq : os.flatMap (·.journal.reports) =
    (os.filterMap Occasion.result?).map fun r => (r.1, r.2.coarse, r.2.fine)

/-- All samples that a chain publishes are the valid readings of its conversions. -/
theorem Converts.samples_eq (h : Converts first os c) : os.flatMap Occasion.samples =
    Sensor.valid first.sampler.fullScale first.wiring.sensor (deliveriesIn os).length := by
  have hsample : Event.sample? ∘ Event.delivery = Except.toOption := by
    funext v
    cases v <;> rfl
  have hsamples := congrArg (List.filterMap Event.sample?) h.deliveries_eq
  rw [List.filterMap_map, hsample] at hsamples
  exact (samples_eq_deliveriesIn os).trans hsamples

variable [Output π]

/-! ### Deeds -/

/-- Either the sampler works in a deed, or nothing is converted and nothing is delivered. -/
theorem works_or_rests (h : Happens c d.stage? c' j) :
    (∃ release, d.stage? = some .sampler ∧ c.wiring.stopRequested = false ∧
        Sampler.Works c.sampler.fullScale release c.wiring c'.wiring j) ∨
      (c'.wiring.sensor = c.wiring.sensor ∧ j.deliveries = []) := by
  generalize d.stage? = stage at h
  -- nobody but the sampler delivers
  have hquiet (hne : stage ≠ some .sampler) : j.deliveries = [] :=
    List.filter_eq_nil_iff.mpr fun e he =>
      Bool.eq_false_iff.mp (unreported_of_happens Event.stage_of_isDelivery hne h e he)
  cases h with
  | works release next standing hstop hrelease hstanding =>
    exact Or.inl ⟨release, rfl, hstop, Sampler.works_work _ _ _⟩
  | commands standing hpending hstanding =>
    exact Or.inr ⟨Actuator.serve_sensor _ _, hquiet nofun⟩
  | passes | samplerLeaves => exact Or.inr ⟨rfl, rfl⟩
  | _ => exact Or.inr ⟨rfl, hquiet nofun⟩

/-- Nobody changes the scale of a sampler. -/
theorem fullScale_of_happens {stage : Option Stage} (h : Happens c stage c' j) :
    c'.sampler.fullScale = c.sampler.fullScale := by
  cases h <;> rfl

/-- A chain goes on converting, whatever happens to it. -/
theorem Converts.of_happens (h : Converts first os c) (hh : Happens c d.stage? c' j) :
    Converts first (os ++ [⟨c, d, j⟩]) c' := by
  have hscale := (fullScale_of_happens hh).trans h.fullScale_eq
  rcases works_or_rests hh with ⟨release, -, -, hworks⟩ | ⟨hsensor, hnone⟩
  · have hdelivery := hworks.deliveries_eq
    rw [h.fullScale_eq, h.sensor_eq] at hdelivery
    have hlength : (deliveriesIn (os ++ [⟨c, d, j⟩])).length = (deliveriesIn os).length + 1 := by
      rw [deliveriesIn_concat, hdelivery, List.length_append, List.length_singleton]
    refine ⟨hscale, ?_, ?_⟩ <;> rw [hlength]
    · rw [hworks.wiring_eq, h.sensor_eq]
      rfl
    · rw [deliveriesIn_concat, hdelivery, Sensor.verdicts_succ, List.map_append, ← h.deliveries_eq,
        List.map_singleton]
  · have hsame : deliveriesIn (os ++ [⟨c, d, j⟩]) = deliveriesIn os := by
      rw [deliveriesIn_concat, hnone, List.append_nil]
    refine ⟨hscale, ?_, ?_⟩ <;> rw [hsame]
    · exact hsensor.trans h.sensor_eq
    · exact h.deliveries_eq

/-- A filter goes on filtering, whatever happens to the chain. -/
theorem Filters.of_happens (h : Filters first os c) (hh : Happens c d.stage? c' j) :
    Filters first (os ++ [⟨c, d, j⟩]) c' := by
  have hresult : (Occasion.mk c d j).result? = (Occasion.mk c d j).sampleTaken?.map fun v =>
      (v, (c.filter.observe v).last) := rfl
  rcases filter_effect hh with ⟨hnone, hfilter, hreports⟩ | ⟨v, htaken, hfilter, hreports⟩
  · rw [hnone, Option.map_none] at hresult
    refine ⟨?_, ?_, ?_⟩
    · simpa [hnone, hfilter] using h.filter_eq
    · simpa [hnone, hresult] using h.results_eq
    · simpa [hresult, hreports] using h.reports_eq
  · rw [htaken, Option.map_some] at hresult
    have htakenAll : (os ++ [Occasion.mk c d j]).filterMap Occasion.sampleTaken? =
        os.filterMap Occasion.sampleTaken? ++ [v] := by
      simp [htaken]
    have hresultAll : (os ++ [Occasion.mk c d j]).filterMap Occasion.result? =
        os.filterMap Occasion.result? ++ [(v, (c.filter.observe v).last)] := by
      simp [hresult]
    refine ⟨?_, ?_, ?_⟩
    · rw [htakenAll, List.foldl_append, ← h.filter_eq, hfilter]
      rfl
    · rw [hresultAll, htakenAll, Filter.results_concat, ← h.results_eq, ← h.filter_eq]
    · rw [List.flatMap_append, hresultAll, List.map_append, h.reports_eq, List.flatMap_singleton,
        hreports, hfilter]
      rfl

/-! ### Runs -/

/-- In a run of deeds the filter has shown the results of the valid readings of all conversions, in
order, and has reported just these. -/
structure SeesValid (c : Chain σ π) (ds : List Deed) : Prop where
  /-- There was one conversion for every delivery. -/
  sensor_eq : (c.arrive ds).wiring.sensor =
    Sensor.after c.wiring.sensor (deliveriesIn (c.trail ds)).length
  /-- The deliveries tell what came of the conversions, whether valid or rejected. -/
  deliveries_eq : deliveriesIn (c.trail ds) =
    (Sensor.verdicts c.sampler.fullScale c.wiring.sensor
      (deliveriesIn (c.trail ds)).length).map Event.delivery
  /-- The filter has taken the valid readings and has made of them what a filter makes of them. -/
  results_eq : (c.trail ds).filterMap Occasion.result? = c.filter.results
    (Sensor.valid c.sampler.fullScale c.wiring.sensor (deliveriesIn (c.trail ds)).length)
  reports_eq : (c.trail ds).flatMap (·.journal.reports) =
    ((c.trail ds).filterMap Occasion.result?).map fun r => (r.1, r.2.coarse, r.2.fine)

/-- If every sample is taken before the sampler works again, no sample is missed. -/
theorem seesValid_of_drained (hopen : c.wiring.samples.closed = false)
    (hdrained : c.wiring.samples.pending = false) {ds : List Deed}
    (htaken : ∀ o ∈ c.trail ds, o.deed.stage? = some .sampler →
      o.before.wiring.samples.pending = false)
    (hend : (c.arrive ds).wiring.samples.pending = false) : SeesValid c ds := by
  let P (os : List (Occasion σ π)) (b : Chain σ π) : Prop :=
    Converts c os b ∧ Filters c os b ∧
      (b.wiring.samples.closed = true → b.wiring.stopRequested = true) ∧
      ((∀ o ∈ os, o.deed.stage? = some .sampler → o.before.wiring.samples.pending = false) →
        Mailbox.Relays Occasion.samples Occasion.sampleTaken? b.wiring.samples os)
  have hstart : P [] c := by
    refine ⟨⟨rfl, rfl, rfl⟩, ⟨rfl, rfl, rfl⟩, fun hclosed => ?_, fun _ => .nil hdrained⟩
    rw [hopen] at hclosed
    cases hclosed
  obtain ⟨hconverts, hfilters, -, hrelays⟩ : P ([] ++ c.trail ds) (c.arrive ds) := by
    refine trail_induction_of_happens ?_ ?_ hstart ds
    · -- the counters are no part of any of this
      rintro os b counters ⟨hconverts, hfilters, hrest⟩
      exact ⟨{ hconverts with }, { hfilters with }, hrest⟩
    · rintro os b d b' j ⟨hconverts, hfilters, hstopped, hrelays⟩ hh
      refine ⟨hconverts.of_happens hh, hfilters.of_happens hh,
        stop_of_closed_of_happens hstopped hh, fun hall => ?_⟩
      obtain ⟨hbefore, hnow⟩ := forall_mem_concat_iff.mp hall
      refine (hrelays hbefore).of_passage (samples_passage hh) fun hgive => ?_
      -- only a sampler that works publishes, and it finds the mailbox open and drained
      rcases works_or_rests hh with ⟨release, hsampler, hstop, -⟩ | ⟨-, hnone⟩
      · refine ⟨Bool.eq_false_iff.mpr fun hclosed => ?_, hnow hsampler⟩
        rw [hstopped hclosed] at hstop
        cases hstop
      · refine absurd ?_ hgive
        exact (Journal.samples_eq_deliveries j).trans (by rw [hnone, List.filterMap_nil])
  -- with nothing left in the mailbox, what was taken is all that was published
  have hall := hrelays htaken
  rw [Mailbox.Relays, Mailbox.offer?_of_drained hend, Option.toList_none, List.append_nil,
    List.nil_append] at hall
  refine ⟨hconverts.sensor_eq, hconverts.deliveries_eq, ?_, hfilters.reports_eq⟩
  exact hfilters.results_eq.trans (congrArg _ (hall.trans hconverts.samples_eq))

/-- A cycle that rejects its reading leaves no trace of it but the report of the rejection, whatever
the state of the mailbox, and ends as a cycle with a valid reading would have. So in every run in
which the filter takes each sample before the sampler works again, its results are those of the
valid readings alone, in order. The valid readings of a script are those of its entries. -/
theorem rejects_and_seesValid :
    (∀ (s : Sampler) (w : Wiring σ π) (release : Instant) (reason : Rejection),
        w.stopRequested = false → s.release? w.now = some release →
        Sampler.verdict s.fullScale (Sensor.convert w.sensor).1.outcome = .error reason →
        Sampler.Rejects s w reason (s.cycle w)) ∧
      (∀ (c : Chain σ π) (ds : List Deed),
        c.wiring.samples.closed = false → c.wiring.samples.pending = false →
        (∀ o ∈ c.trail ds, o.deed.stage? = some .sampler →
          o.before.wiring.samples.pending = false) →
        (c.arrive ds).wiring.samples.pending = false → SeesValid c ds) ∧
      ∀ (fullScale : Reading) (script : Script) (n : Nat),
        Sensor.valid fullScale script n = (script.entries.take n).filterMap fun e =>
          (Sampler.verdict fullScale e.outcome).toOption :=
  ⟨fun _ _ _ _ hstop hrelease hverdict => Sampler.rejects_cycle hstop hrelease hverdict,
    fun _ _ hopen hdrained htaken hend => seesValid_of_drained hopen hdrained htaken hend,
    Script.valid_eq⟩

/-- A script with a failed and an excessive reading between two valid ones, as an instance, and a
cycle that overruns its release over an excessive reading while a sample is still pending. -/
theorem rejects_and_seesValid_of_mixed_script :
    let w : Wiring Script Load :=
      { sensor := { entries := [{ outcome := .ok 2000, latency := 1300 }] }
        samples := { value := 7, pending := true, waiter := some 3 }
        output := {} }
    let s : Sampler := { period := 1000, fullScale := 1023 }
    (Sampler.Rejects s w (.outOfRange 2000) (s.cycle w) ∧
        (s.cycle w).journal.latenesses = [300]) ∧
      ∃ (c : Chain Script Load) (ds : List Deed),
        ofSettings {}
          { entries := [{ outcome := .ok 300 }, { outcome := .error .readFailed, latency := 70 },
              { outcome := .ok 5000 }, { outcome := .ok 310 }] } {} = .ok c ∧
        deliveriesIn (c.trail ds) = [.published 300, .rejected (.readFailed .readFailed),
          .rejected (.outOfRange 5000), .published 310] ∧
        Sensor.valid c.sampler.fullScale c.wiring.sensor 4 = [300, 310] ∧
        ((c.trail ds).filterMap Occasion.result?).map (·.1) = [300, 310] ∧ SeesValid c ds := by
  intro w s
  refine ⟨⟨?_, by decide⟩, _, [.move .sample, .move .filter, .move .sample, .move .actuate,
    .cycle .sampler, .move .sample, .move .filter], rfl, by decide, ?_, by decide, ?_⟩
  · exact rejects_and_seesValid.1 s w 1000 _ rfl (by decide) rfl
  · rw [Script.valid_eq]
    rfl
  · exact rejects_and_seesValid.2.1 _ _ rfl rfl (by decide) (by decide)

end Chain

end SignalChain
