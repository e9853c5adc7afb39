import SignalChain.Device.Load
import SignalChain.Device.Script
import SignalChain.Proofs.Chain.Answers
import SignalChain.Proofs.Chain.Effects
import SignalChain.Proofs.Chain.Range
import SignalChain.Proofs.Counters.Tally

/-!
# What the counters of a chain say of it

The counters of a chain are those of the events on its trail (`counters_arrive`). The numbers of
events keep step with the mailboxes: a sample is taken at most once for every time one was
published, and one that is pending is still to be taken; the same holds of the means. So the counts
go down from stage to stage, with one to spare for a permit that is set.

The numbers are tied to the trail by an invariant (`Balanced`), and the counters agree with them
while there are fewer events than fit a word (`consistent_of_lt`).
-/

namespace SignalChain.Chain

open Counters (Column)

variable {σ π : Type} {s : Settings} {c c' : Chain σ π} {d : Deed} {j : Journal}
variable {os : List (Occasion σ π)} {o : Occasion σ π}

/-- The events of some records, in order. -/
def reported (os : List (Occasion σ π)) : List Event :=
  os.flatMap fun o => o.journal.events

/-- How many events of some records a column counts. -/
def tally (k : Column) (os : List (Occasion σ π)) : Nat :=
  (reported os).countP k.counts

theorem reported_concat : reported (os ++ [⟨c, d, j⟩]) = reported os ++ j.events := by
  simp [reported]

theorem tally_concat (k : Column) :
    tally k (os ++ [⟨c, d, j⟩]) = tally k os + j.events.countP k.counts := by
  rw [tally, reported_concat, List.countP_append, tally]

/-- As many samples were counted as were published. -/
theorem tally_samplesPublished :
    tally .samplesPublished os = (os.flatMap Occasion.samples).length := by
  have hcounts : Column.samplesPublished.counts = fun e => e.sample?.isSome := by
    funext e
    cases e <;> rfl
  have hsamples : os.flatMap Occasion.samples = (reported os).filterMap Event.sample? :=
    List.filterMap_flatMap.symm
  rw [tally, hcounts, hsamples, List.length_filterMap_eq_countP]

/-- As many runs of the filter were counted as means were published. -/
theorem tally_filterRuns : tally .filterRuns os = (os.flatMap Occasion.fines).length := by
  have hcounts : Column.filterRuns.counts = fun e => e.report?.isSome := by
    funext e
    cases e <;> rfl
  have hreports : (os.flatMap Occasion.fines) =
      ((reported os).filterMap Event.report?).map fun report => report.2.2 := by
    rw [reported, List.filterMap_flatMap, List.map_flatMap]
    rfl
  rw [tally, hcounts, hreports, List.length_map, List.length_filterMap_eq_countP]

variable [Sensor σ] [Output π]

/-- The sampler has completed a cycle. -/
def Occasion.completes (o : Occasion σ π) : Bool :=
  o.deed.stage? = some .sampler ∧ o.answer? = some (.ok .again)

/-- The actuator has halted. -/
def Occasion.Halts (o : Occasion σ π) : Prop :=
  ∃ cause, o.answer? = some (.ok (.left (.halted cause)))

/-! ### Deeds -/

/-- Only the deeds of a stage count for its columns. -/
theorem countP_eq_zero_of_happens {k : Column} {stage : Option Stage} (hne : stage ≠ some k.stage)
    (h : Happens c stage c' j) : j.events.countP k.counts = 0 :=
  List.countP_eq_zero.mpr fun e he =>
    Bool.eq_false_iff.mp (unreported_of_happens Column.stage_of_counts hne h e he)

/-- The number of deliveries among some events, as the columns have it. -/
def deliveries (es : List Event) : Nat :=
  es.countP Column.samplesPublished.counts + es.countP Column.readFailures.counts +
    es.countP Column.outOfRange.counts

theorem deliveries_append (es fs : List Event) :
    deliveries (es ++ fs) = deliveries es + deliveries fs := by
  simp only [deliveries, List.countP_append]
  omega

/-- A delivery is counted once as such, and not as an overrun. -/
theorem deliveries_cons {e : Event} (h : e.isDelivery = true) (es : List Event) :
    deliveries (e :: es) = deliveries es + 1 ∧
      (e :: es).countP Column.overruns.counts = es.countP Column.overruns.counts := by
  have hcons (k : Column) :
      (e :: es).countP k.counts = es.countP k.counts + (k.counts e).toNat := by
    rw [List.countP_cons]
    cases k.counts e <;> rfl
  have hone : (Column.samplesPublished.counts e).toNat + (Column.readFailures.counts e).toNat +
      (Column.outOfRange.counts e).toNat = 1 ∧ (Column.overruns.counts e).toNat = 0 := by
    cases e with
    | published raw => exact ⟨rfl, rfl⟩
    | rejected reason => cases reason <;> exact ⟨rfl, rfl⟩
    | _ => cases h
  simp only [deliveries, hcons]
  omega

/-- A completed cycle of the sampler is one delivery and at most one overrun, and any other deed is
none, unless a cycle breaks off. -/
theorem deliveries_of_happens (h : Happens c d.stage? c' j)
    (hwhole : (Occasion.mk c d j).IsWhole) :
    deliveries j.events = (Occasion.mk c d j).completes.toNat ∧
      j.events.countP Column.overruns.counts ≤ (Occasion.mk c d j).completes.toNat := by
  by_cases hsampler : d.stage? = some .sampler
  · have hanswer := answer?_of_stage (c := c) hsampler j
    rw [hsampler] at h
    cases h with
    | works release next standing hstop hrelease hstanding =>
      rw [answer?_sampler_of_release hstop hrelease] at hanswer
      -- the work is done either way, but only a whole cycle has an answer that counts
      have hcompletes : (Occasion.mk c d (c.sampler.work c.wiring release).2).completes = true := by
        split at hanswer
        · simp [Occasion.completes, hsampler, hanswer]
        · exact absurd hanswer hwhole
      obtain ⟨delivery, hdelivery, hevents⟩ := Sampler.work_events c.sampler c.wiring release
      rw [hcompletes]
      rcases hevents with hevents | ⟨lateness, hevents⟩ <;> rw [hevents]
      · obtain ⟨hone, hnone⟩ := deliveries_cons hdelivery []
        exact ⟨hone, by simp [hnone]⟩
      · obtain ⟨hone, hnone⟩ := deliveries_cons hdelivery [.overrun lateness]
        refine ⟨hone, ?_⟩
        rw [hnone]
        exact List.countP_le_length
    | passes standing hidle hstanding =>
      have hcompletes : (Occasion.mk c d []).completes = false := by
        rcases hidle with hstop | hnone
        · simp [Occasion.completes, hanswer, answer?_sampler_of_stop hstop]
        · -- without an instant for its release, the cycle breaks off
          cases hstop : c.wiring.stopRequested with
          | true => simp [Occasion.completes, hanswer, answer?_sampler_of_stop hstop]
          | false => simp [Occasion.completes, hanswer, answer?_sampler_of_no_release hstop hnone]
      rw [hcompletes]
      exact ⟨rfl, Nat.le_refl 0⟩
    | samplerLeaves hstop =>
      have hcompletes : (Occasion.mk c d (Sampler.finish c.wiring).2).completes = false := by
        simp [Occasion.completes, hanswer, answer?_sampler_of_stop hstop]
      rw [hcompletes]
      exact ⟨rfl, Nat.le_refl 0⟩
  · -- nobody but the sampler reports what these columns count
    have hcompletes : (Occasion.mk c d j).completes = false := by
      simp [Occasion.completes, hsampler]
    rw [hcompletes, deliveries, countP_eq_zero_of_happens (k := .samplesPublished) hsampler h,
      countP_eq_zero_of_happens (k := .readFailures) hsampler h,
      countP_eq_zero_of_happens (k := .outOfRange) hsampler h,
      countP_eq_zero_of_happens (k := .overruns) hsampler h]
    exact ⟨rfl, Nat.le_refl 0⟩

/-- The filter publishes one mean for every sample that it takes. -/
theorem length_fines_of_happens (h : Happens c d.stage? c' j) :
    (Occasion.mk c d j).fines.length = (Occasion.mk c d j).sampleTaken?.toList.length := by
  have hfines : (Occasion.mk c d j).fines.length = j.reports.length := List.length_map _
  rw [hfines]
  rcases filter_effect h with ⟨hnone, -, hreports⟩ | ⟨v, htaken, -, hreports⟩
  · rw [hnone, hreports]
    rfl
  · rw [htaken, hreports]
    rfl

/-- One more refusal is at most one more in the count. -/
theorem toNat_refusals_le (a : Actuator) : a.refusals.toNat ≤ a.failures.toNat + 1 := by
  rw [Actuator.refusals]
  by_cases hfull : a.failures = 255
  · rw [if_pos hfull, hfull]
    decide
  · rw [if_neg hfull, UInt8.toNat_add, UInt8.toNat_one]
    exact Nat.mod_le _ _

theorem counts_eq_false {k : Column} {e : Event} (hk : k.stage = .actuator)
    (h : e.isOutcome = false) : k.counts e = false := by
  rw [Bool.eq_false_iff]
  intro hcounts
  have hstage := (Column.stage_of_counts hcounts).trans hk
  cases e with
  | issued value duty manual | refused cause inARow | halted cause => cases h
  | stopped stage => cases k <;> cases hcounts
  | _ => cases hstage

theorem isHalt_eq_false {e : Event} (h : e.isOutcome = false) : e.isHalt = false := by
  cases e with
  | halted cause => cases h
  | _ => rfl

/-- For every value that is taken, a command is issued or refused. Refusals are counted, and the
actuator halts when the count has come to the budget. -/
theorem outcome_of_happens (h : Happens c d.stage? c' j) :
    j.events.countP Column.commandsIssued.counts + j.events.countP Column.actuationFailures.counts =
        (Occasion.mk c d j).valueTaken?.toList.length ∧
      c'.actuator.failures.toNat ≤
        c.actuator.failures.toNat + j.events.countP Column.actuationFailures.counts ∧
      ((∃ e ∈ j.events, e.isHalt = true) ↔ (Occasion.mk c d j).Halts) ∧
      ((Occasion.mk c d j).Halts → c.actuator.budget.toNat ≤
        c.actuator.failures.toNat + j.events.countP Column.actuationFailures.counts) := by
  rcases drive_cases h with ⟨hnone, -, houtcome, -, hactuator, -⟩ |
    ⟨hstage, hpending, rfl, -, hactuator, -⟩
  · -- without an outcome there is nothing to count, and without a value nobody halts
    have hzero (k : Column) (hk : k.stage = .actuator) : j.events.countP k.counts = 0 := by
      refine List.countP_eq_zero.mpr fun e he => ?_
      rw [Bool.not_eq_true]
      exact counts_eq_false hk (houtcome e he)
    have hhalts : ¬ (Occasion.mk c d j).Halts := by
      rintro ⟨cause, hanswer⟩
      exact (halted_of_answer? hanswer).1 hnone
    rw [hzero _ rfl, hzero _ rfl, hnone, hactuator]
    refine ⟨rfl, Nat.le_refl _, iff_of_false ?_ hhalts, fun hhalted => absurd hhalted hhalts⟩
    rintro ⟨e, he, hhalt⟩
    rw [isHalt_eq_false (houtcome e he)] at hhalt
    cases hhalt
  · have htaken : (Occasion.mk c d (c.actuator.serve c.wiring).journal).valueTaken? =
        some c.wiring.filtered.value := by
      rw [valueTaken?_of_actuator hstage, Mailbox.offer?_of_pending hpending]
    have hhalts : (Occasion.mk c d (c.actuator.serve c.wiring).journal).Halts ↔
        ∃ cause, (c.actuator.serve c.wiring).result = .error (.halted cause) := by
      refine exists_congr fun cause => ?_
      rw [answer?_of_stage hstage, answer?_eq_halted_iff]
      simp [hpending]
    have hrefusals := toNat_refusals_le c.actuator
    -- each outcome says which events there are and what becomes of the count of refusals
    rw [hactuator, hhalts, htaken]
    cases Actuator.served_serve c.actuator c.wiring with
    | accepts hanswer hresult hfailures hevents haccepted =>
      rw [hevents, hresult, hfailures]
      refine ⟨rfl, Nat.zero_le _, ?_, ?_⟩
      · simp [Event.isHalt]
      · rintro ⟨cause, ⟨⟩⟩
    | refuses cause hanswer hbudget hresult hfailures hevents =>
      rw [hevents, hresult, hfailures]
      refine ⟨rfl, hrefusals, ?_, ?_⟩
      · simp [Event.isHalt]
      · rintro ⟨cause, ⟨⟩⟩
    | halts cause hanswer hbudget hresult hfailures hevents =>
      rw [hevents, hresult, hfailures]
      refine ⟨rfl, hrefusals, ?_, fun _ => ?_⟩
      · simp [Event.isHalt]
      · exact Nat.le_trans (UInt8.le_iff_toNat_le.mp hbudget) hrefusals

/-! ### Trails -/

/-- How the events of a chain with settings `s` keep step with it. -/
structure Balanced (s : Settings) (os : List (Occasion σ π)) (c : Chain σ π) : Prop where
  deliveries_eq : (∀ o ∈ os, o.IsWhole) →
    deliveries (reported os) = os.countP Occasion.completes
  overruns_le : (∀ o ∈ os, o.IsWhole) → tally .overruns os ≤ os.countP Occasion.completes
  samples : Mailbox.Conserves Occasion.samples Occasion.sampleTaken? c.wiring.samples os
  /-- A mean was published for every sample that was taken. -/
  runs_eq : (os.flatMap Occasion.fines).length = (os.filterMap Occasion.sampleTaken?).length
  values : Mailbox.Conserves Occasion.fines Occasion.valueTaken? c.wiring.filtered os
  /-- A command was issued or refused for every value that was taken. -/
  outcomes_eq : tally .commandsIssued os + tally .actuationFailures os =
    (os.filterMap Occasion.valueTaken?).length
  failures_le : c.actuator.failures.toNat ≤ tally .actuationFailures os
  halts_iff : (∃ e ∈ reported os, e.isHalt = true) ↔ ∃ o ∈ os, o.Halts
  /-- The actuator halts over no less than its budget of refusals. -/
  spent : (∃ o ∈ os, o.Halts) → s.failureBudget.toNat ≤ tally .actuationFailures os

/-- A chain before its first move has nothing to balance. -/
theorem Balanced.of_ofSettings {sensor : σ} {output : π} {now : Instant}
    (h : ofSettings s sensor output now = .ok c) : Balanced s [] c := by
  obtain ⟨-, rfl⟩ := ofSettings_eq_ok_iff.mp h
  refine ⟨fun _ => rfl, fun _ => Nat.le_refl 0, .nil rfl, rfl, .nil rfl, rfl, Nat.le_refl 0, ?_, ?_⟩
  · simp [reported]
  · simp

/-- Whatever happens to a chain, its events go on to keep step with it. -/
theorem Balanced.of_happens (hs : KeepsTo s c) (h : Balanced s os c)
    (hh : Happens c d.stage? c' j) : Balanced s (os ++ [⟨c, d, j⟩]) c' := by
  obtain ⟨houtcomes, hfailures, hhalts, hspent⟩ := outcome_of_happens hh
  have hcompletes := countP_concat Occasion.completes os ⟨c, d, j⟩
  -- the mailboxes are looked at by their passages, the rest adds the last record to those before
  refine ⟨fun hall => ?_, fun hall => ?_, h.samples.of_passage (samples_passage hh), ?_,
    h.values.of_passage (fines_passage hh), ?_, ?_, ?_, ?_⟩
  · obtain ⟨hbefore, hlast⟩ := forall_mem_concat_iff.mp hall
    obtain ⟨hdeliveries, -⟩ := deliveries_of_happens hh hlast
    rw [reported_concat, deliveries_append, h.deliveries_eq hbefore, hcompletes, hdeliveries]
  · obtain ⟨hbefore, hlast⟩ := forall_mem_concat_iff.mp hall
    obtain ⟨-, hoverruns⟩ := deliveries_of_happens hh hlast
    rw [tally_concat, hcompletes]
    exact Nat.add_le_add (h.overruns_le hbefore) hoverruns
  · rw [List.flatMap_append, List.length_append, List.flatMap_singleton, h.runs_eq,
      length_filterMap_concat, length_fines_of_happens hh]
  · rw [tally_concat, tally_concat, length_filterMap_concat, ← h.outcomes_eq, ← houtcomes]
    omega
  · rw [tally_concat]
    exact Nat.le_trans hfailures (Nat.add_le_add_right h.failures_le _)
  · rw [reported_concat, exists_mem_concat_iff, ← hhalts, ← h.halts_iff]
    simp only [List.mem_append, or_and_right, exists_or]
  · rw [tally_concat, exists_mem_concat_iff]
    rintro (hbefore | hlast)
    · exact Nat.le_trans (h.spent hbefore) (Nat.le_add_right _ _)
    · -- the refusals in a row are among all that there were
      have hbudget := UInt8.le_iff_toNat_le.mp hs.budget_le
      have hspent := hspent hlast
      have hfailures := h.failures_le
      omega

/-- Nothing that happens counts, before its events are counted. -/
theorem counters_of_happens {stage : Option Stage} (h : Happens c stage c' j) :
    c'.counters = c.counters := by
  cases h <;> rfl

/-- The counters of a chain are those of the events on its trail. -/
theorem counters_arrive (c : Chain σ π) (ds : List Deed) :
    (c.arrive ds).counters = c.counters.recordAll (reported (c.trail ds)) := by
  -- on the deeds still to be done; what was counted before is in the counters of `c`
  induction ds generalizing c with
  | nil => rfl
  | cons d ds ih =>
    simp only [arrive, trail]
    cases hd : c.perform? d with
    | none => exact ih c
    | some q =>
      obtain ⟨⟨next, j⟩, hattempt, rfl⟩ := Option.map_eq_some_iff.mp hd
      have hcounters := counters_of_happens (happens_of_attempt? hattempt)
      simp only [reported, List.flatMap_cons, Counters.recordAll_append, ← hcounters]
      exact ih _

/-- What the counters of a chain with settings `s` say of it after the records `os`. -/
structure Consistent (s : Settings) (os : List (Occasion σ π)) (c : Chain σ π) : Prop where
  /-- Every completed cycle of the sampler published a sample or reported why not. -/
  deliveries_eq : c.counters.samplesPublished.toNat + c.counters.readFailures.toNat +
    c.counters.outOfRange.toNat = os.countP Occasion.completes
  overruns_le : c.counters.overruns.toNat ≤ os.countP Occasion.completes
  /-- Every run of the filter, and a sample that is pending, goes back to a sample of its own. -/
  filterRuns_le : c.counters.filterRuns.toNat + c.wiring.samples.pending.toNat ≤
    c.counters.samplesPublished.toNat
  /-- Every command, and a mean that is pending, goes back to a run of the filter of its own. -/
  outcomes_le : c.counters.commandsIssued.toNat + c.counters.actuationFailures.toNat +
    c.wiring.filtered.pending.toNat ≤ c.counters.filterRuns.toNat
  overridden_le : c.counters.overriddenCommands.toNat ≤ c.counters.commandsIssued.toNat
  halted_iff : c.counters.actuatorHalted = true ↔ ∃ o ∈ os, o.Halts
  budget_le : c.counters.actuatorHalted = true →
    s.failureBudget.toNat ≤ c.counters.actuationFailures.toNat
  worst_eq : c.counters.worstLateness =
    ((reported os).filterMap Event.lateness?).max?.getD 0

/-- Counters that have not wrapped are consistent with what the events keep step with. -/
theorem Balanced.consistent (h : Balanced s os c)
    (hcounters : c.counters = .recordAll {} (reported os)) (hwhole : ∀ o ∈ os, o.IsWhole)
    (hlt : (reported os).length < 2 ^ 32) : Consistent s os c := by
  have hcolumn (k : Column) : (c.counters.get k).toNat = tally k os := by
    rw [hcounters]
    exact Counters.toNat_recordAll_of_lt _ hlt k
  have hpublished : c.counters.samplesPublished.toNat = _ := hcolumn .samplesPublished
  have hruns : c.counters.filterRuns.toNat = _ := hcolumn .filterRuns
  have hissued : c.counters.commandsIssued.toNat = _ := hcolumn .commandsIssued
  have hrefused : c.counters.actuationFailures.toNat = _ := hcolumn .actuationFailures
  have hhalted : c.counters.actuatorHalted = true ↔ ∃ o ∈ os, o.Halts := by
    rw [hcounters, Counters.actuatorHalted_recordAll, Bool.false_or, List.any_eq_true]
    exact h.halts_iff
  refine ⟨?_, ?_, ?_, ?_, ?_, hhalted, fun hstopped => ?_, ?_⟩
  · have hfailed : c.counters.readFailures.toNat = _ := hcolumn .readFailures
    have hrange : c.counters.outOfRange.toNat = _ := hcolumn .outOfRange
    rw [hpublished, hfailed, hrange]
    exact h.deliveries_eq hwhole
  · have hoverruns : c.counters.overruns.toNat = _ := hcolumn .overruns
    rw [hoverruns]
    exact h.overruns_le hwhole
  · -- what the filter took is what it has run for
    have hsamples := h.samples
    rw [Mailbox.Conserves, ← tally_samplesPublished, ← h.runs_eq, ← tally_filterRuns] at hsamples
    rw [hruns, hpublished]
    exact hsamples
  · -- and what the actuator took is what it has issued or been refused
    have hvalues := h.values
    rw [Mailbox.Conserves, ← h.outcomes_eq, ← tally_filterRuns] at hvalues
    rw [hissued, hrefused, hruns]
    exact hvalues
  · have hoverridden : c.counters.overriddenCommands.toNat = _ := hcolumn .overriddenCommands
    rw [hoverridden, hissued]
    -- every event that the one column counts, the other counts as well
    refine List.countP_mono_left fun e _ hcounts => ?_
    cases e with
    | issued value duty manual => rfl
    | _ => cases hcounts
  · rw [hrefused]
    exact h.spent (hhalted.mp hstopped)
  · rw [hcounters, Counters.worstLateness_eq_max]

/-- Whatever is done to a chain of accepted settings, with whatever sensor and output: if no cycle
breaks off and there are fewer events than fit a word, the counters are consistent with the
trail. -/
theorem consistent_of_lt {sensor : σ} {output : π} {now : Instant}
    (h : ofSettings s sensor output now = .ok c) (ds : List Deed)
    (hwhole : ∀ o ∈ c.trail ds, o.IsWhole) (hlt : (reported (c.trail ds)).length < 2 ^ 32) :
    Consistent s (c.trail ds) (c.arrive ds) := by
  have hend : KeepsTo s (c.arrive ds) ∧ Balanced s ([] ++ c.trail ds) (c.arrive ds) := by
    refine trail_induction_of_keepsTo (P := Balanced s) ?_ ?_ (.of_ofSettings h)
      (.of_ofSettings h) ds
    · -- the counters are told from the events, and not the other way round
      intro os c counters hbalanced
      exact { hbalanced with }
    · intro os c d c' j hkeeps hbalanced hh
      exact hbalanced.of_happens hkeeps hh
  refine hend.2.consistent ?_ hwhole hlt
  obtain ⟨-, rfl⟩ := ofSettings_eq_ok_iff.mp h
  exact counters_arrive _ ds

/-- A chain that loses a sample, misses a release, and halts over its second refusal, as an
instance. -/
theorem consistent_of_halted :
    ∃ (c : Chain Script Load) (ds : List Deed),
      ofSettings { failureBudget := 2 }
        { entries := [{ outcome := .ok 300 }, { outcome := .error .readFailed },
            { outcome := .ok 310, latency := 1000007 }, { outcome := .ok 320 }] }
        { refusing := some .writeFailed } = .ok c ∧
      (∀ o ∈ c.trail ds, o.IsWhole) ∧ (reported (c.trail ds)).length < 2 ^ 32 ∧
      (c.arrive ds).counters =
        { samplesPublished := 3, readFailures := 1, overruns := 1, worstLateness := 7,
          filterRuns := 2, actuationFailures := 2, actuatorHalted := true } ∧
      (c.arrive ds).actuatorStanding = .left (.halted .writeFailed) ∧
      Consistent { failureBudget := 2 } (c.trail ds) (c.arrive ds) :=
  ⟨_, [.move .sample, .move .filter, .move .actuate, .move .sample, .move .sample, .move .sample,
      .move .press, .move .filter, .move .actuate, .move .actuate],
    rfl, by decide, by decide, by decide, by decide,
    consistent_of_lt (s := { failureBudget := 2 }) rfl _ (by decide) (by decide)⟩

end SignalChain.Chain
