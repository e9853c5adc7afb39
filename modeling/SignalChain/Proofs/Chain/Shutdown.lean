import SignalChain.Device.Load
import SignalChain.Device.Script
import SignalChain.Proofs.Chain.Effects

/-!
# The last sample at shutdown

A chain comes to its end from front to back. The sampler leaves when it is asked to stop, and closes
the samples; the filter leaves when these are drained, and closes the filtered values; the actuator
leaves when these are drained in turn. So nothing is published into a closed mailbox, and what was
published last is taken before the taker leaves (`delivered_of_exits`).

The actuator may leave before its turn, by halting over refused commands. Nobody then takes the last
values, and one of them may remain in the mailbox for good (`filtered_pending_of_halted`).

## Main definitions

* `Cascade`: how far the stages behind have come when one stage has left.
* `Delivered`: what is known once all stages have left.
-/

namespace SignalChain.Chain

variable {σ π : Type} {s : Settings} {c c' : Chain σ π} {d : Deed} {j : Journal}
variable {os : List (Occasion σ π)}

/-- The order in which mailboxes are closed and stages leave. -/
structure Cascade (c : Chain σ π) : Prop where
  stop_of_closed : c.wiring.samples.closed = true → c.wiring.stopRequested = true
  drained_of_closed : c.wiring.filtered.closed = true →
    c.wiring.samples.closed = true ∧ c.wiring.samples.pending = false
  closed_of_samplerLeft : ∀ exit, c.samplerStanding = .left exit → c.wiring.samples.closed = true
  closed_of_filterLeft : ∀ exit, c.filterStanding = .left exit → c.wiring.filtered.closed = true
  drained_of_actuatorLeft : c.actuatorStanding = .left .shutdown →
    c.wiring.filtered.closed = true ∧ c.wiring.filtered.pending = false

/-- How a chain stands on its way to the end: its mailboxes lose nothing but what a later value
replaces. -/
structure Lossless (os : List (Occasion σ π)) (c : Chain σ π) : Prop where
  cascade : Cascade c
  samples : Mailbox.Carries Occasion.samples Occasion.sampleTaken? c.wiring.samples os
  values : Mailbox.Carries Occasion.fines Occasion.valueTaken? c.wiring.filtered os
  samples_clear : Mailbox.Clears Occasion.samples Occasion.sampleTaken? c.wiring.samples os
  values_clear : Mailbox.Clears Occasion.fines Occasion.valueTaken? c.wiring.filtered os
  /-- Samples are taken to be reported on. -/
  reported : (os.flatMap (·.journal.reports)).map (·.1) = os.filterMap Occasion.sampleTaken?

/-- What is known of a chain whose actuator has left as told, and whose other stages have left as
well. -/
structure Delivered (os : List (Occasion σ π)) (c : Chain σ π) (actuator : Exit) : Prop where
  samples_closed : c.wiring.samples.closed = true
  samples_drained : c.wiring.samples.pending = false
  filtered_closed : c.wiring.filtered.closed = true
  filtered_drained : actuator = .shutdown → c.wiring.filtered.pending = false
  /-- The sample published last is the one that the filter reported on last, and its fine mean is
  the value that the actuator took last. -/
  last_sample : os.flatMap Occasion.samples ≠ [] →
    ∃ v coarse fine, (os.flatMap Occasion.samples).getLast? = some v ∧
      (os.flatMap (·.journal.reports)).getLast? = some (v, coarse, fine) ∧
      (actuator = .shutdown → (os.filterMap Occasion.valueTaken?).getLast? = some fine)

/-- The stages have come to their ends if each of them has left. -/
theorem exits_eq_ok_iff {e : Exits} :
    c.exits = .ok e ↔ c.samplerStanding = .left e.sampler ∧ c.filterStanding = .left e.filter ∧
      c.actuatorStanding = .left e.actuator := by
  obtain ⟨sampler, filter, actuator⟩ := e
  unfold exits
  split <;> simp_all

/-- The fine means are part of what was reported. -/
theorem fines_eq_map_reports (os : List (Occasion σ π)) :
    os.flatMap Occasion.fines = (os.flatMap (·.journal.reports)).map (·.2.2) := by
  rw [List.map_flatMap]
  rfl

/-- A lossless chain all of whose stages have left has delivered its last sample. -/
theorem Lossless.delivered {e : Exits} (h : Lossless os c) (he : c.exits = .ok e) :
    Delivered os c e.actuator := by
  obtain ⟨hsampler, hfilter, hactuator⟩ := exits_eq_ok_iff.mp he
  have hclosed := h.cascade.closed_of_filterLeft _ hfilter
  have hdrained := (h.cascade.drained_of_closed hclosed).2
  have hvalues (hz : e.actuator = .shutdown) : c.wiring.filtered.pending = false :=
    (h.cascade.drained_of_actuatorLeft (hz ▸ hactuator)).2
  refine ⟨h.cascade.closed_of_samplerLeft _ hsampler, hdrained, hclosed, hvalues, fun hsome => ?_⟩
  -- the last sample published is the last one taken, and so the last one reported on
  have hlast := h.samples_clear hdrained
  rw [← h.reported, List.getLast?_map] at hlast
  obtain ⟨v, hv⟩ := Option.isSome_iff_exists.mp (List.getLast?_isSome.mpr hsome)
  rw [hv] at hlast
  obtain ⟨⟨sample, coarse, fine⟩, hreport, rfl⟩ := Option.map_eq_some_iff.mp hlast
  refine ⟨sample, coarse, fine, hv, hreport, fun hz => ?_⟩
  -- and likewise for its fine mean, if the actuator has stayed to the end
  rw [h.values_clear (hvalues hz), fines_eq_map_reports, List.getLast?_map, hreport]
  rfl

/-- A chain before its first move has lost nothing and closed nothing. -/
theorem Lossless.of_ofSettings {sensor : σ} {output : π} {now : Instant}
    (h : ofSettings s sensor output now = .ok c) : Lossless [] c := by
  obtain ⟨-, rfl⟩ := ofSettings_eq_ok_iff.mp h
  exact ⟨⟨nofun, nofun, nofun, nofun, nofun⟩, .nil rfl, .nil rfl, .nil _, .nil _, rfl⟩

/-! ### The order of the close -/

/-- The samples are open until the chain is asked to stop. -/
theorem Cascade.samples_open_of_running (h : Cascade c) (hstop : c.wiring.stopRequested = false) :
    c.wiring.samples.closed = false := by
  refine Bool.eq_false_iff.mpr fun hclosed => ?_
  rw [h.stop_of_closed hclosed] at hstop
  cases hstop

/-- The filtered values are open while there is a sample to take. -/
theorem Cascade.filtered_open_of_pending (h : Cascade c) (hp : c.wiring.samples.pending = true) :
    c.wiring.filtered.closed = false := by
  refine Bool.eq_false_iff.mpr fun hclosed => ?_
  rw [(h.drained_of_closed hclosed).2] at hp
  cases hp

variable [Sensor σ] [Output π]

/-- The samples are closed by a sampler that has been asked to stop, and by nobody else. -/
theorem stop_of_closed_of_happens {stage : Option Stage}
    (hstopped : c.wiring.samples.closed = true → c.wiring.stopRequested = true)
    (h : Happens c stage c' j) :
    c'.wiring.samples.closed = true → c'.wiring.stopRequested = true := by
  cases h with
  | works release next standing hstop hrelease hstanding =>
    -- a reading may be published, but that closes nothing
    rcases Sampler.work_samples (s := c.sampler) (w := c.wiring) release with
      ⟨raw, -, hafter, -⟩ | ⟨hafter, -⟩ <;> simp only [hafter, Mailbox.closed_publish] <;>
      exact hstopped
  | commands standing hpending hstanding =>
    rw [Actuator.serve_samples, Actuator.serve_stopRequested]
    exact hstopped
  | samplerLeaves hstop => exact fun _ => hstop
  | asks => exact fun _ => rfl
  | _ => exact hstopped

/-- Nothing that can happen upsets the order of the close. -/
theorem Cascade.of_happens {stage : Option Stage} (h : Cascade c) (hh : Happens c stage c' j) :
    Cascade c' := by
  have ⟨hstopped, hdrained, hsampler, hfilter, hactuator⟩ := h
  have hstopped' := stop_of_closed_of_happens hstopped hh
  cases hh with
  | works release next standing hstop hrelease hstanding =>
    -- the samples are open, so that no premise about a close holds
    have hopen := h.samples_open_of_running hstop
    refine ⟨hstopped', fun hc => ?_, fun exit hexit => ?_, hfilter, hactuator⟩
    · simp [(hdrained hc).1] at hopen
    · rcases hstanding with rfl | ⟨rfl, -⟩
      · simp [hsampler exit hexit] at hopen
      · cases hexit
  | passes standing hidle hstanding =>
    refine ⟨hstopped', hdrained, fun exit hexit => ?_, hfilter, hactuator⟩
    rcases hstanding with rfl | ⟨rfl, -⟩
    · exact hsampler exit hexit
    · cases hexit
  | samplerLeaves hstop =>
    exact ⟨hstopped', fun hc => ⟨rfl, (hdrained hc).2⟩, fun _ _ => rfl, hfilter, hactuator⟩
  | observes hpending =>
    -- with a sample left to take, neither the filter nor the actuator can have come to its end
    have hopen := h.filtered_open_of_pending hpending
    refine ⟨hstopped', fun hc => ?_, hsampler, fun exit hexit => ?_, fun hexit => ?_⟩
    · simp [hopen] at hc
    · simp [hfilter exit hexit] at hopen
    · simp [(hactuator hexit).1] at hopen
  | filterIdles hpending hclosed => exact h
  | filterLeaves hpending hclosed =>
    exact ⟨hstopped', fun _ => ⟨hclosed, hpending⟩, hsampler, fun _ _ => rfl,
      fun hexit => ⟨rfl, (hactuator hexit).2⟩⟩
  | commands standing hpending hstanding =>
    have hsamples := Actuator.serve_samples c.actuator c.wiring
    have hfiltered := Actuator.serve_filtered c.actuator c.wiring
    refine ⟨hstopped', ?_, ?_, ?_, fun hexit => ?_⟩
    · rw [hsamples, hfiltered]
      exact hdrained
    · rw [hsamples]
      exact hsampler
    · rw [hfiltered]
      exact hfilter
    · rw [hfiltered]
      rcases hstanding with rfl | ⟨cause, rfl, -⟩
      · exact ⟨(hactuator hexit).1, rfl⟩
      · cases hexit
  | actuatorIdles hpending hclosed => exact h
  | actuatorLeaves hpending hclosed =>
    exact ⟨hstopped', hdrained, hsampler, hfilter, fun _ => ⟨hclosed, hpending⟩⟩
  | overrides manual => exact ⟨hstopped', hdrained, hsampler, hfilter, hactuator⟩
  | asks => exact ⟨hstopped', hdrained, hsampler, hfilter, hactuator⟩

/-- Samples are published only while the samples are open. -/
theorem Cascade.samples_open (h : Cascade c) (hh : Happens c d.stage? c' j)
    (hgive : (Occasion.mk c d j).samples ≠ []) : c.wiring.samples.closed = false := by
  generalize d.stage? = stage at hh
  cases hh with
  | works release next standing hstop hrelease hstanding => exact h.samples_open_of_running hstop
  | commands standing hpending hstanding =>
    exact absurd (Actuator.serve_journal_samples _ _) hgive
  | _ => exact absurd rfl hgive

/-- Fine means are published only while the filtered values are open. -/
theorem Cascade.filtered_open (h : Cascade c) (hh : Happens c d.stage? c' j)
    (hgive : (Occasion.mk c d j).fines ≠ []) : c.wiring.filtered.closed = false := by
  have hquiet (hreports : j.reports = []) : (Occasion.mk c d j).fines = [] :=
    List.map_eq_nil_iff.mpr hreports
  generalize d.stage? = stage at hh
  cases hh with
  | works release next standing hstop hrelease hstanding =>
    exact absurd (hquiet (Sampler.work_journal release).1) hgive
  | observes hpending => exact h.filtered_open_of_pending hpending
  | commands standing hpending hstanding =>
    exact absurd (hquiet (Actuator.serve_reports _ _)) hgive
  | _ => exact absurd rfl hgive

/-! ### The last sample -/

/-- A lossless chain loses nothing by anything that can happen to it. -/
theorem Lossless.of_happens (h : Lossless os c) (hh : Happens c d.stage? c' j) :
    Lossless (os ++ [⟨c, d, j⟩]) c' where
  cascade := h.cascade.of_happens hh
  samples := h.samples.of_passage (samples_passage hh)
  values := h.values.of_passage (fines_passage hh)
  samples_clear :=
    h.samples_clear.of_passage h.samples (samples_passage hh) (h.cascade.samples_open hh)
  values_clear :=
    h.values_clear.of_passage h.values (fines_passage hh) (h.cascade.filtered_open hh)
  reported := by
    rw [List.flatMap_append, List.map_append, List.filterMap_append, h.reported]
    rcases filter_effect hh with ⟨hnone, -, hreports⟩ | ⟨v, htaken, -, hreports⟩
    · simp [hnone, hreports]
    · simp [htaken, hreports]

/-- Once all stages have left, both mailboxes are closed, the last sample has been reported on, and
unless the actuator halted it took the fine mean of that sample last and nothing remains. -/
theorem delivered_of_exits {sensor : σ} {output : π} {now : Instant} {e : Exits}
    (h : ofSettings s sensor output now = .ok c) (ds : List Deed)
    (he : (c.arrive ds).exits = .ok e) :
    Delivered (c.trail ds) (c.arrive ds) e.actuator := by
  have hlossless : Lossless ([] ++ c.trail ds) (c.arrive ds) := by
    refine trail_induction_of_happens (P := fun os c => Lossless os c) ?_ ?_ (.of_ofSettings h) ds
    · intro os c counters hc
      have hcascade := hc.cascade
      exact { hc with cascade := ⟨hcascade.1, hcascade.2, hcascade.3, hcascade.4, hcascade.5⟩ }
    · intro os c d c' j hc hhappens
      exact hc.of_happens hhappens
  exact hlossless.delivered he

/-- A chain that is asked to stop with two values on their way, as an instance. -/
theorem delivered_of_exits_of_pending :
    ∃ (c : Chain Script Load) (ds : List Deed),
      ofSettings {} { entries := [{ outcome := .ok 300 }, { outcome := .ok 310 }] } {} = .ok c ∧
      (c.arrive ds).exits = .ok ⟨.shutdown, .shutdown, .shutdown⟩ ∧
      (c.trail ds).flatMap Occasion.samples = [300, 310] ∧
      (c.trail ds).filterMap Occasion.valueTaken? = [300, 305] ∧
      Delivered (c.trail ds) (c.arrive ds) .shutdown :=
  ⟨_, [.move .sample, .move .filter, .move .sample, .move .requestStop, .move .sample,
      .move .actuate, .move .filter, .move .filter, .move .actuate, .move .actuate], rfl,
    by decide, by decide, by decide,
    delivered_of_exits (s := {}) (e := ⟨.shutdown, .shutdown, .shutdown⟩) rfl _ (by decide)⟩

/-- An actuator that halts leaves a value of the filter behind, with its permit set for good. -/
theorem filtered_pending_of_halted :
    ∃ (c : Chain Script Load) (ds : List Deed),
      ofSettings {} { entries := [{ outcome := .ok 300 }, { outcome := .ok 310 }] }
        { refusing := some .writeFailed } = .ok c ∧
      (c.arrive ds).exits =
        .ok { sampler := .shutdown, filter := .shutdown, actuator := .halted .writeFailed } ∧
      (c.arrive ds).wiring.filtered.closed = true ∧
      (c.arrive ds).wiring.filtered.pending = true :=
  ⟨_, [.move .sample, .move .filter, .move .sample, .move .requestStop, .move .actuate,
      .move .sample, .move .filter, .move .filter], rfl, by decide, by decide, by decide⟩

end SignalChain.Chain
