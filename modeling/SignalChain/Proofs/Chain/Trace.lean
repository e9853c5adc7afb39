import SignalChain.Device.Load
import SignalChain.Device.Script
import SignalChain.Proofs.Chain.Effects
import SignalChain.Proofs.Chain.Range
import SignalChain.Proofs.Duty.Share

/-!
# From samples to commands

The law that ties everything a chain does to what it has been handed, along every trail. The filter
takes samples as the sampler published them and reports the trimmed mean of those that it took last.
The actuator takes the fine means as the filter published them and commands the output for each of
them. Either of them may miss values, but sees none twice and none that a later one has replaced.

The invariant behind this ties both mailboxes and the window of the filter to the trail
(`Lawful`); it is kept by everything that can happen (`Lawful.of_happens`).

## Main definitions and results

* `Reported`, `Commanded`: what the record of one deed has to tell of the values taken in it.
* `TraceLaw`: the law, which every trail of an accepted chain keeps (`traceLaw_trail`).
-/

namespace SignalChain.Chain

variable {σ π : Type} {s : Settings} {c c' : Chain σ π} {d : Deed} {j : Journal}
variable {os : List (Occasion σ π)}

/-! ### What the law asks -/

/-- The high time that a value is worth while the override is at the given level. -/
def highTime (s : Settings) (level : Level) (value : Reading) : Nat :=
  match level.percent? with
  | some percent => s.commandPeriodUs.toNat * percent.toNat / 100
  | none => s.commandPeriodUs.toNat * value.toNat / (2 ^ s.resolutionBits.toNat - 1)

/-- The samples that the filter has in view, newest first: the last ten it took, with zeros in the
place of those it has not taken yet. -/
def inView (os : List (Occasion σ π)) : List Reading :=
  Window.lastReadings windowLength (os.filterMap Occasion.sampleTaken?)

/-- For a sample that was taken, the trimmed mean of what is then in view was reported, and
otherwise nothing was. -/
def Reported (earlier : List (Occasion σ π)) (o : Occasion σ π) : Prop :=
  (o.sampleTaken? = none → o.journal.reports = []) ∧
    ∀ v, o.sampleTaken? = some v → ∃ coarse fine, o.journal.reports = [(v, coarse, fine)] ∧
      (coarse.toNat, fine.toNat) = Estimate.trimmedMean ((inView (earlier ++ [o])).map (·.toNat))

/-- For a value that was taken, one command was given, with the high time that the value was worth,
and otherwise none was. -/
def Commanded (s : Settings) (o : Occasion σ π) : Prop :=
  (o.valueTaken? = none → o.journal.commands = []) ∧
    ∀ v, o.valueTaken? = some v → ∃ duty, o.journal.commands = [duty] ∧
      duty.period.toNat = s.commandPeriodUs.toNat ∧
      duty.high.toNat = highTime s o.before.wiring.manual.level v

/-- What the records of a chain with settings `s` have to tell. -/
structure TraceLaw (s : Settings) (os : List (Occasion σ π)) : Prop where
  /-- The filter takes, in order, some of the samples that were published. -/
  samples_sublist : (os.filterMap Occasion.sampleTaken?).Sublist (os.flatMap Occasion.samples)
  /-- A sample that is taken is the newest, and has not been taken before. -/
  samples_handedOver : Mailbox.HandedOver Occasion.samples Occasion.sampleTaken? os
  /-- The filter reports the trimmed mean of the samples that it took last. -/
  reported : AtEach Reported os
  /-- The actuator takes, in order, some of the fine means that were published. -/
  values_sublist : (os.filterMap Occasion.valueTaken?).Sublist (os.flatMap Occasion.fines)
  /-- A value that is taken is the newest, and has not been taken before. -/
  values_handedOver : Mailbox.HandedOver Occasion.fines Occasion.valueTaken? os
  /-- The output is commanded for the values that are taken. -/
  commanded : ∀ o ∈ os, Commanded s o

/-- How a chain with settings `s` stands after the records `os`. -/
structure Lawful (s : Settings) (os : List (Occasion σ π)) (c : Chain σ π) : Prop where
  keepsTo : KeepsTo s c
  inScale : InScale s c
  samples : Mailbox.Carries Occasion.samples Occasion.sampleTaken? c.wiring.samples os
  values : Mailbox.Carries Occasion.fines Occasion.valueTaken? c.wiring.filtered os
  window : c.filter.window.recent = inView os
  reported : AtEach Reported os
  commanded : ∀ o ∈ os, Commanded s o

/-- A chain that stands so has kept the law. -/
theorem Lawful.traceLaw (h : Lawful s os c) : TraceLaw s os where
  samples_sublist := h.samples.handedOver.sublist
  samples_handedOver := h.samples.handedOver
  reported := h.reported
  values_sublist := h.values.handedOver.sublist
  values_handedOver := h.values.handedOver
  commanded := h.commanded

/-- A chain before its first move stands lawful. -/
theorem Lawful.of_ofSettings {sensor : σ} {output : π} {now : Instant}
    (h : ofSettings s sensor output now = .ok c) : Lawful s [] c := by
  have hkeepsTo := KeepsTo.of_ofSettings h
  have hinScale := InScale.of_ofSettings h
  obtain ⟨-, rfl⟩ := ofSettings_eq_ok_iff.mp h
  have hwindow := Window.recent_empty_eq_lastReadings windowLength windowLength_pos
  exact ⟨hkeepsTo, hinScale, .nil rfl, .nil rfl, hwindow, .nil, by simp⟩

/-! ### Commands -/

/-- No level forces more than the whole period. -/
theorem percent_le (l : Level) {percent : UInt8} (h : l.percent? = some percent) :
    percent.toNat ≤ 100 := by
  cases l <;> cases h <;> decide

/-- The duty for a value within the scale, as the settings and the override have it. -/
theorem commandFor_of_keepsTo (hs : s.validate = .ok ()) (hc : KeepsTo s c) (manual : Override)
    {v : Reading} (hv : v ≤ s.fullScale) :
    (c.actuator.commandFor manual v).1.period = s.commandPeriod ∧
      (c.actuator.commandFor manual v).1.high.toNat = highTime s manual.level v := by
  have hperiod : c.actuator.period = s.commandPeriod := by rw [hc.actuator_eq]; rfl
  have hscale : c.actuator.fullScale = s.fullScale := by rw [hc.actuator_eq]; rfl
  simp only [Actuator.commandFor, highTime, hperiod, hscale]
  cases hlevel : manual.level.percent? with
  | none =>
    refine ⟨rfl, ?_⟩
    rw [Duty.toNat_high_ofValue (Settings.fullScale_ne_zero hs), Settings.toNat_commandPeriod,
      Nat.min_eq_left (UInt16.le_iff_toNat_le.mp hv), Settings.toNat_fullScale hs]
  | some percent =>
    refine ⟨rfl, ?_⟩
    have hfits : s.commandPeriod.toNat < 2 ^ 57 := by
      rw [Settings.toNat_commandPeriod]
      exact Nat.lt_trans s.commandPeriodUs.toNat_lt (by decide)
    rw [Duty.toNat_high_ofPercent hfits, Settings.toNat_commandPeriod,
      Nat.min_eq_left (percent_le _ hlevel)]

variable [Sensor σ] [Output π]

/-- Every deed on a chain within its scale commands what the values taken in it are worth. -/
theorem commanded_of_happens (hs : s.validate = .ok ()) (hc : KeepsTo s c) (hscale : InScale s c)
    (h : Happens c d.stage? c' j) : Commanded s ⟨c, d, j⟩ := by
  rcases actuator_effect h with ⟨hnone, hquiet⟩ | ⟨htaken, hcommands⟩
  · exact ⟨fun _ => hquiet, fun v hv => by simp [hnone] at hv⟩
  · refine ⟨fun hnone => by simp [htaken] at hnone, fun v hv => ?_⟩
    -- the value is within the scale, so that the duty does not cut it off there
    obtain rfl : c.wiring.filtered.value = v := Option.some.inj (htaken.symm.trans hv)
    obtain ⟨hperiod, hhigh⟩ := commandFor_of_keepsTo hs hc c.wiring.manual hscale.value_le
    refine ⟨_, hcommands, ?_, hhigh⟩
    rw [hperiod, Settings.toNat_commandPeriod]

/-! ### Reports -/

/-- The window goes on showing what is in view. -/
theorem window_of_happens (hw : c.filter.window.recent = inView os)
    (h : Happens c d.stage? c' j) : c'.filter.window.recent = inView (os ++ [⟨c, d, j⟩]) := by
  rw [inView, List.filterMap_append]
  rcases filter_effect h with ⟨hnone, hfilter, -⟩ | ⟨v, htaken, hfilter, -⟩
  · rw [hfilter, hw]
    simp [hnone, inView]
  · have hpush : (c.filter.observe v).window.recent = _ :=
      Window.recent_push_eq_lastReadings hw v
    rw [hfilter]
    simpa [htaken] using hpush

/-- Every deed on a chain whose window shows what is in view reports the trimmed mean of that. -/
theorem reported_of_happens (hw : c.filter.window.recent = inView os)
    (h : Happens c d.stage? c' j) : Reported os ⟨c, d, j⟩ := by
  have hafter := window_of_happens hw h
  rcases filter_effect h with ⟨hnone, -, hquiet⟩ | ⟨v, htaken, hfilter, hreports⟩
  · exact ⟨fun _ => hquiet, fun v hv => by simp [hnone] at hv⟩
  · refine ⟨fun hnone => by simp [htaken] at hnone, fun w hw => ?_⟩
    obtain rfl : v = w := Option.some.inj (htaken.symm.trans hw)
    refine ⟨_, _, hreports, ?_⟩
    -- the filter estimates the slots of its window, in which the order is another than in view
    have hlast : c'.filter.last = .ofReadings (inView (os ++ [⟨c, d, j⟩])) := by
      rw [← hafter, hfilter, Filter.last_observe]
    rw [hlast]
    refine Estimate.toNat_ofReadings ?_
    rw [← hafter, Window.length_recent]
    decide

/-! ### The law -/

/-- A chain of accepted settings stands lawful after everything that can happen to it. -/
theorem Lawful.of_happens (hs : s.validate = .ok ()) (h : Lawful s os c)
    (hh : Happens c d.stage? c' j) : Lawful s (os ++ [⟨c, d, j⟩]) c' where
  keepsTo := h.keepsTo.of_happens hh
  inScale := h.inScale.of_happens h.keepsTo hh
  samples := h.samples.of_passage (samples_passage hh)
  values := h.values.of_passage (fines_passage hh)
  window := window_of_happens h.window hh
  reported := atEach_concat_iff.mpr ⟨h.reported, reported_of_happens h.window hh⟩
  commanded := forall_mem_concat_iff.mpr
    ⟨h.commanded, commanded_of_happens hs h.keepsTo h.inScale hh⟩

/-- Whatever is done to a chain of accepted settings, with whatever sensor and output, keeps the
law, and afterwards every stage whose input is pending or closed can cycle. -/
theorem traceLaw_trail {sensor : σ} {output : π} {now : Instant}
    (h : ofSettings s sensor output now = .ok c) (ds : List Deed) :
    TraceLaw s (c.trail ds) ∧
      ∀ stage, ((c.arrive ds).perform? (.cycle stage)).isSome = (c.arrive ds).ready stage := by
  have haccepted := (ofSettings_eq_ok_iff.mp h).1
  have hlawful : Lawful s ([] ++ c.trail ds) (c.arrive ds) := by
    refine trail_induction_of_happens (P := fun os c => Lawful s os c) ?_ ?_ (.of_ofSettings h) ds
    · -- the counters are no part of what the law looks at
      intro os c counters hc
      exact { hc with keepsTo := ⟨hc.keepsTo.1, hc.keepsTo.2⟩,
                      inScale := ⟨hc.inScale.1, hc.inScale.2, hc.inScale.3⟩ }
    · intro os c d c' j hc hhappens
      exact hc.of_happens haccepted hhappens
  exact ⟨hlawful.traceLaw, isSome_perform?_cycle _⟩

/-- A chain that loses its first sample to the second, and whose override is set before the command,
as an instance of the law. -/
theorem traceLaw_trail_of_lost_sample :
    ∃ (c : Chain Script Load) (ds : List Deed),
      ofSettings {} { entries := [{ outcome := .ok 300 }, { outcome := .ok 310 }] } {} = .ok c ∧
      (c.trail ds).flatMap Occasion.samples = [300, 310] ∧
      (c.trail ds).filterMap Occasion.sampleTaken? = [310] ∧
      (c.trail ds).flatMap (·.journal.commands) = [{ period := 1000, high := 330 }] ∧
      TraceLaw {} (c.trail ds) :=
  ⟨_, [.move .sample, .cycle .sampler, .move .filter, .move (.setLevel .low), .move .actuate], rfl,
    by decide, by decide, by decide, (traceLaw_trail rfl _).1⟩

end SignalChain.Chain
