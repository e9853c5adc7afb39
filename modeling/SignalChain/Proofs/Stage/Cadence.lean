import Mathlib.Algebra.BigOperators.Intervals
import Mathlib.Algebra.Order.Group.Finset
import Mathlib.Order.Lattice.Nat
import SignalChain.Device.Script
import SignalChain.Proofs.Counters.Tally
import SignalChain.Proofs.Stage.Cycles

/-!
# The cadence of the sampler

The releases of a sampler form a grid that no conversion can bend. What slow conversions do change
is when a cycle ends. A cycle that starts late hands its backlog on to the next one, which may work
it off or add to it, so the end of a cycle hangs on all conversions before it. It has a closed form
all the same: of all releases so far, each with all conversions since then, the latest
(`Pace.finish`).

The closed form is tied to the sampler by an invariant (`Paced`), which one cycle after the other
keeps. All of it concerns instants that the clock can represent (`Pace.Fits`).

## Main definitions

* `Pace`: all that the timing of a sampler depends on.
* `Sampler.turn`: the turns of a sampler that is left to itself.
* `KeepsPace`: what a turn has to do with the pace.
-/

namespace SignalChain

/-! ### Conversions in a row -/

namespace Sensor

variable {σ : Type} [Sensor σ]

/-- The sensor after `k` conversions. -/
def after (sensor : σ) : Nat → σ
  | 0 => sensor
  | k + 1 => (convert (after sensor k)).2

/-- How long the conversion takes that comes after `k` others. -/
def latency (sensor : σ) (k : Nat) : Nat :=
  (convert (after sensor k)).1.latency.toNat

end Sensor

/-- A script takes its entries one after the other. -/
theorem Script.entries_after (s : Script) (k : Nat) :
    (Sensor.after s k).entries = s.entries.drop k := by
  induction k with
  | zero => rfl
  | succ k ih =>
    show (Script.convert (Sensor.after s k)).2.entries = _
    rw [← List.tail_drop, ← ih, Script.convert]
    split
    next h => rw [h]; rfl
    next h => rw [h]; rfl

/-- A script plays back its entries, and fails when it has run out. -/
theorem Script.convert_after (s : Script) (k : Nat) : (Sensor.convert (Sensor.after s k)).1 =
    s.entries[k]?.getD { outcome := .error .readFailed } := by
  show (Script.convert (Sensor.after s k)).1 = _
  rw [← List.head?_drop, ← Script.entries_after, Script.convert]
  split
  next h => rw [h]; rfl
  next h => rw [h]; rfl

/-- A script takes as long as its entries say, and no time at all when it has run out. -/
theorem Script.latency_eq (s : Script) (k : Nat) :
    Sensor.latency s k = (s.entries[k]?.map (·.latency.toNat)).getD 0 := by
  rw [Sensor.latency, Script.convert_after]
  cases s.entries[k]? <;> rfl

/-! ### The pace -/

/-- All that the timing of a sampler depends on. -/
structure Pace where
  /-- The clock when the first cycle starts. -/
  start : Nat
  period : Nat
  /-- How long each conversion takes. They are counted from zero, so that conversion `k` is the one
  of cycle `k + 1`. -/
  latency : Nat → Nat

namespace Pace

variable (p : Pace)

/-- The release of cycle `k`. Cycles are counted from one; release zero is the start. -/
def release (k : Nat) : Nat :=
  p.start + k * p.period

/-- The end of cycle `k`: of all releases so far, each with all conversions since then, the
latest. -/
def finish (k : Nat) : Nat :=
  (Finset.range (k + 1)).sup fun j => p.release j + ∑ i ∈ Finset.Ico j k, p.latency i

/-- The end of the conversion of cycle `k + 1`. -/
def converted (k : Nat) : Nat :=
  p.finish k + p.latency k

/-- No instant of the first `k` cycles is past the end of the clock: neither the release that the
last of them leaves behind, nor its end. -/
structure Fits (k : Nat) : Prop where
  release : p.release (k + 1) < UInt64.size
  finish : p.finish k < UInt64.size

theorem finish_zero : p.finish 0 = p.start := by
  simp [finish, release]

/-- A cycle ends when its conversion does, but not before its release. -/
theorem finish_succ (k : Nat) : p.finish (k + 1) = max (p.converted k) (p.release (k + 1)) := by
  -- one more conversion for every release before, and one more release without any
  have hone : ∀ j ∈ Finset.range (k + 1),
      p.release j + ∑ i ∈ Finset.Ico j (k + 1), p.latency i =
        p.release j + ∑ i ∈ Finset.Ico j k, p.latency i + p.latency k := by
    intro j hj
    have hjk : j ≤ k := Nat.lt_succ_iff.mp (Finset.mem_range.mp hj)
    rw [Finset.sum_Ico_succ_top hjk, Nat.add_assoc]
  rw [converted, finish, Finset.range_add_one, Finset.sup_insert, Finset.Ico_self,
    Finset.sum_empty, Nat.add_zero, Finset.sup_congr rfl hone, finish,
    Finset.sup_add Finset.nonempty_range_add_one, max_comm]

theorem release_one : p.release 1 = p.start + p.period := by
  rw [release, Nat.one_mul]

theorem release_succ (k : Nat) : p.release (k + 1) = p.release k + p.period := by
  rw [release, release, Nat.succ_mul, Nat.add_assoc]

variable {p} {k : Nat}

/-- Where a cycle fits, so does the one before it. -/
theorem Fits.of_succ (h : p.Fits (k + 1)) : p.Fits k where
  release := by
    have hrelease := h.release
    rw [release_succ] at hrelease
    omega
  finish := by
    have hfinish := h.finish
    rw [finish_succ] at hfinish
    exact Nat.lt_of_le_of_lt (Nat.le_add_right _ _) (max_lt_iff.mp hfinish).1

/-- Where a run fits, so does its beginning. -/
theorem Fits.of_le {n : Nat} (h : p.Fits n) (hle : k ≤ n) : p.Fits k := by
  induction hle with
  | refl => exact h
  | step _ ih => exact ih h.of_succ

/-- A cycle knows nothing of the conversions after it. -/
theorem finish_congr {q : Pace} (hstart : p.start = q.start) (hperiod : p.period = q.period)
    (hlatency : ∀ i < k, p.latency i = q.latency i) : p.finish k = q.finish k := by
  refine Finset.sup_congr rfl fun j _ => ?_
  rw [release, release, hstart, hperiod]
  congr 1
  exact Finset.sum_congr rfl fun i hi => hlatency i (Finset.mem_Ico.mp hi).2

end Pace

/-! ### Turns -/

/-- The latenesses that a journal tells of. -/
def Journal.latenesses (j : Journal) : List Micros :=
  j.events.filterMap Event.lateness?

@[simp]
theorem Journal.latenesses_append (i j : Journal) :
    latenesses (i ++ j) = latenesses i ++ latenesses j := by
  simp [latenesses]

/-- What there is to see of the timing of a turn. -/
structure Timing where
  nextRelease : Option Instant
  now : Instant
  sleeps : List Instant
  latenesses : List Micros
  deriving DecidableEq

namespace Sampler

variable {σ π : Type}

/-- The timing of a turn. -/
def timing (t : Turn Sampler σ π (Except InstantOverflow Cycle)) : Timing where
  nextRelease := t.stage.nextRelease
  now := t.wiring.now
  sleeps := t.journal.sleeps
  latenesses := t.journal.latenesses

/-- The turn `t` of cycle `k + 1` keeps to a pace: the sampler goes on, the next release is a period
after the one of the cycle, the cycle ends when it has to, and either it sleeps until its release or
it tells how late it is. It sleeps if the conversion is done before the release. -/
structure KeepsPace (p : Pace) (k : Nat) (t : Turn Sampler σ π (Except InstantOverflow Cycle)) :
    Prop where
  goesOn : t.result = .ok .again
  nextRelease : t.stage.nextRelease.map (·.toNat) = some (p.release (k + 2))
  now : t.wiring.now.toNat = p.finish (k + 1)
  settled :
    if p.converted k < p.release (k + 1) then
      t.journal.sleeps.map (·.toNat) = [p.release (k + 1)] ∧ t.journal.latenesses = []
    else
      t.journal.sleeps = [] ∧
        t.journal.latenesses.map (·.toNat) = [p.finish (k + 1) - p.release (k + 1)]

/-- Turns that keep to the same instants have the same timing. -/
theorem KeepsPace.timing_eq {τ μ : Type} {p q : Pace}
    {t : Turn Sampler σ π (Except InstantOverflow Cycle)}
    {u : Turn Sampler τ μ (Except InstantOverflow Cycle)} {k : Nat}
    (ht : KeepsPace p k t) (hu : KeepsPace q k u)
    (hrelease : ∀ j, q.release j = p.release j) (hfinish : q.finish (k + 1) = p.finish (k + 1))
    (hconverted : q.converted k = p.converted k) : timing u = timing t := by
  -- words are the same where their numbers are
  have hword : Function.Injective (·.toNat : UInt64 → Nat) := fun _ _ => UInt64.toNat_inj.mp
  have hwords : Function.Injective (List.map (·.toNat : UInt64 → Nat)) :=
    List.map_injective_iff.mpr hword
  have hnext : u.stage.nextRelease = t.stage.nextRelease :=
    Option.map_injective hword (hu.nextRelease.trans (hrelease (k + 2) ▸ ht.nextRelease.symm))
  have hnow : u.wiring.now = t.wiring.now := hword (hu.now.trans (hfinish ▸ ht.now.symm))
  have hjournal : u.journal.sleeps = t.journal.sleeps ∧
      u.journal.latenesses = t.journal.latenesses := by
    have hsettled := ht.settled
    have hsettled' := hu.settled
    rw [hrelease, hfinish, hconverted] at hsettled'
    by_cases hlt : p.converted k < p.release (k + 1)
    · rw [if_pos hlt] at hsettled hsettled'
      exact ⟨hwords (hsettled'.1.trans hsettled.1.symm), hsettled'.2.trans hsettled.2.symm⟩
    · rw [if_neg hlt] at hsettled hsettled'
      exact ⟨hsettled'.1.trans hsettled.1.symm, hwords (hsettled'.2.trans hsettled.2.symm)⟩
  rw [timing, timing, hnext, hnow, hjournal.1, hjournal.2]

variable [Sensor σ] (s : Sampler) (w : Wiring σ π)

/-- A sampler that is left to itself and its wiring, after `k` cycles. -/
def after (s : Sampler) (w : Wiring σ π) : Nat → Sampler × Wiring σ π
  | 0 => (s, w)
  | k + 1 =>
    let t := (after s w k).1.cycle (after s w k).2
    (t.stage, t.wiring)

/-- The turn of cycle `k + 1` of a sampler that is left to itself. -/
def turn (k : Nat) : Turn Sampler σ π (Except InstantOverflow Cycle) :=
  (s.after w k).1.cycle (s.after w k).2

/-- The pace that a sampler has before its first cycle. -/
def pace : Pace where
  start := w.now.toNat
  period := s.period.toNat
  latency := Sensor.latency w.sensor

/-- After `k` cycles a sampler is where its pace has it, and goes on from there. -/
structure Paced (k : Nat) : Prop where
  period : (s.after w k).1.period = s.period
  sensor : (s.after w k).2.sensor = Sensor.after w.sensor k
  running : (s.after w k).2.stopRequested = false
  now : (s.after w k).2.now.toNat = (s.pace w).finish k
  release : ((s.after w k).1.release? (s.after w k).2.now).map (·.toNat) =
    some ((s.pace w).release (k + 1))

/-! ### What a cycle does to the timing -/

/-- A cycle is over when its conversion is done and its release has come. -/
theorem toNat_settle (release now : Instant) :
    (settle release now).1.toNat = max now.toNat release.toNat := by
  unfold settle
  split
  next h =>
    have hslept : sleepUntil now release = release := if_pos (UInt64.le_of_lt h)
    rw [hslept, max_eq_right (Nat.le_of_lt (UInt64.lt_iff_toNat_lt.mp h))]
  next h =>
    rw [max_eq_left (Nat.not_lt.mp (mt UInt64.lt_iff_toNat_lt.mpr h))]

/-- A cycle sleeps until its release if that is in the future, and else it tells how late it is. -/
theorem settle_journal (release now : Instant) :
    if now.toNat < release.toNat then
      (settle release now).2.sleeps.map (·.toNat) = [release.toNat] ∧
        (settle release now).2.latenesses = []
    else
      (settle release now).2.sleeps = [] ∧
        (settle release now).2.latenesses.map (·.toNat) =
          [max now.toNat release.toNat - release.toNat] := by
  by_cases h : now < release
  · rw [if_pos (UInt64.lt_iff_toNat_lt.mp h), settle, if_pos h]
    exact ⟨rfl, rfl⟩
  · have hle : release.toNat ≤ now.toNat := Nat.not_lt.mp (mt UInt64.lt_iff_toNat_lt.mpr h)
    have hlateness : (now - release).toNat = now.toNat - release.toNat :=
      UInt64.toNat_sub_of_le now release (UInt64.le_iff_toNat_le.mpr hle)
    rw [if_neg (Nat.not_lt.mpr hle), settle, if_neg h, max_eq_left hle, ← hlateness]
    exact ⟨rfl, rfl⟩

/-- Of all that a conversion comes to, only its length is of any consequence for the timing. -/
theorem work_timing (release : Instant) :
    let settled := settle release (w.now + (Sensor.convert w.sensor).1.latency)
    (s.work w release).1.now = settled.1 ∧
      (s.work w release).2.sleeps = settled.2.sleeps ∧
      (s.work w release).2.latenesses = settled.2.latenesses := by
  have hnow : (s.acquire w).2.now = w.now + (Sensor.convert w.sensor).1.latency := rfl
  have hdelivery : (s.deliver (s.acquire w).2.samples (s.acquire w).1).2.sleeps = [] ∧
      (s.deliver (s.acquire w).2.samples (s.acquire w).1).2.latenesses = [] := by
    cases (s.acquire w).1 with
    | ok raw => exact ⟨rfl, rfl⟩
    | error reason => exact ⟨rfl, rfl⟩
  have hwork : (s.work w release).2 =
      (s.deliver (s.acquire w).2.samples (s.acquire w).1).2 ++
        (settle release (s.acquire w).2.now).2 := rfl
  refine ⟨rfl, ?_, ?_⟩
  · rw [hwork, Journal.sleeps_append, hdelivery.1, List.nil_append, hnow]
  · rw [hwork, Journal.latenesses_append, hdelivery.2, List.nil_append, hnow]

variable {s w} {k : Nat}

/-- Before its first cycle a sampler works towards the first release, if the clock can represent
it. -/
theorem map_release?_of_first (hfirst : s.nextRelease = none)
    (hfits : (s.pace w).release 1 < UInt64.size) :
    (s.release? w.now).map (·.toNat) = some ((s.pace w).release 1) := by
  rw [Pace.release_one] at hfits ⊢
  cases hrelease : laterBy? w.now s.period with
  | none => exact absurd (laterBy?_eq_none_iff.mp hrelease) (Nat.not_le.mpr hfits)
  | some release => simp [release?, hfirst, hrelease, toNat_of_laterBy? hrelease, pace]

/-- Before its first cycle a sampler is at the start. -/
theorem Paced.first (hfirst : s.nextRelease = none) (hstop : w.stopRequested = false)
    (hfits : (s.pace w).Fits 0) : s.Paced w 0 where
  period := rfl
  sensor := rfl
  running := hstop
  now := (s.pace w).finish_zero.symm
  release := map_release?_of_first hfirst hfits.release

/-- A paced sampler has an instant for the release of its cycle, and one for the release after
it. -/
theorem Paced.exists_release (h : s.Paced w k) (hfits : (s.pace w).Fits (k + 1)) :
    ∃ release next, release.toNat = (s.pace w).release (k + 1) ∧
      next.toNat = (s.pace w).release (k + 2) ∧
      s.turn w k =
        { result := .ok .again
          stage := { (s.after w k).1 with nextRelease := some next }
          wiring := ((s.after w k).1.work (s.after w k).2 release).1
          journal := ((s.after w k).1.work (s.after w k).2 release).2 } := by
  obtain ⟨release, hrelease, hnat⟩ := Option.map_eq_some_iff.mp h.release
  have hsum : (s.pace w).release (k + 2) = release.toNat + (s.after w k).1.period.toNat := by
    rw [hnat, h.period, Pace.release_succ]
    rfl
  cases hnext : laterBy? release (s.after w k).1.period with
  | none =>
    -- the grid fits one release further than this cycle needs
    have hover := laterBy?_eq_none_iff.mp hnext
    exact absurd hfits.release (Nat.not_lt.mpr (hsum ▸ hover))
  | some next =>
    refine ⟨release, next, hnat, ?_, ?_⟩
    · rw [toNat_of_laterBy? hnext, hsum]
    · rw [turn, cycle_of_release h.running hrelease, hnext]
      rfl

/-- The clock after a conversion. -/
theorem Paced.toNat_converted (h : s.Paced w k) (hfits : (s.pace w).Fits (k + 1)) :
    ((s.after w k).2.now + (Sensor.convert (s.after w k).2.sensor).1.latency).toNat =
      (s.pace w).converted k := by
  -- the cycle ends no earlier than its conversion, and the clock can represent its end
  have hfinish := hfits.finish
  rw [Pace.finish_succ] at hfinish
  rw [UInt64.toNat_add, h.now, h.sensor]
  exact Nat.mod_eq_of_lt (max_lt_iff.mp hfinish).1

/-- A paced sampler keeps to its pace. -/
theorem Paced.keepsPace (h : s.Paced w k) (hfits : (s.pace w).Fits (k + 1)) :
    KeepsPace (s.pace w) k (s.turn w k) := by
  obtain ⟨release, next, hrelease, hnext, hturn⟩ := h.exists_release hfits
  obtain ⟨hnow, hsleeps, hlatenesses⟩ := work_timing (s.after w k).1 (s.after w k).2 release
  have hconverted := h.toNat_converted hfits
  have hsettled := settle_journal release
    ((s.after w k).2.now + (Sensor.convert (s.after w k).2.sensor).1.latency)
  rw [hturn]
  refine ⟨rfl, congrArg some hnext, ?_, ?_⟩
  · rw [hnow, toNat_settle, hconverted, hrelease, Pace.finish_succ]
  · rw [hsleeps, hlatenesses, Pace.finish_succ]
    rwa [hconverted, hrelease] at hsettled

/-- A paced sampler is paced after its cycle. -/
theorem Paced.succ (h : s.Paced w k) (hfits : (s.pace w).Fits (k + 1)) : s.Paced w (k + 1) := by
  obtain ⟨release, next, -, hnext, hturn⟩ := h.exists_release hfits
  -- all that the next cycle starts from is in the turn of this one
  have hafter : s.after w (k + 1) = ((s.turn w k).stage, (s.turn w k).wiring) := rfl
  have hnow := (h.keepsPace hfits).now
  rw [hturn] at hafter hnow
  refine ⟨?_, ?_, ?_, ?_, ?_⟩
  · rw [hafter, ← h.period]
  · rw [hafter, Sensor.after, ← h.sensor]
    rfl
  · rw [hafter, ← h.running]
    rfl
  · rw [hafter, ← hnow]
  · rw [hafter]
    exact congrArg some hnext

/-- A sampler stays paced as long as its instants can be represented. -/
theorem paced_of_fits (hfirst : s.nextRelease = none) (hstop : w.stopRequested = false)
    (hfits : (s.pace w).Fits k) : s.Paced w k := by
  induction k with
  | zero => exact .first hfirst hstop hfits
  | succ k ih => exact (ih hfits.of_succ).succ hfits

/-- Of what the conversions come to, only their lengths are of any consequence: two samplers that
start at the same time and have the same period have the same timing as long as their conversions
take equally long. -/
theorem timing_turn_eq (hfirst : s.nextRelease = none) (hstop : w.stopRequested = false)
    (hfits : (s.pace w).Fits (k + 1)) {τ μ : Type} [Sensor τ] {s' : Sampler} {w' : Wiring τ μ}
    (hfirst' : s'.nextRelease = none) (hstop' : w'.stopRequested = false)
    (hperiod : s'.period = s.period) (hnow : w'.now = w.now)
    (hlatency : ∀ i ≤ k, Sensor.latency w'.sensor i = Sensor.latency w.sensor i) :
    timing (s'.turn w' k) = timing (s.turn w k) := by
  have hrelease (j : Nat) : (s'.pace w').release j = (s.pace w).release j := by
    simp only [Pace.release, pace, hperiod, hnow]
  have hfinish {j : Nat} (hj : j ≤ k + 1) : (s'.pace w').finish j = (s.pace w).finish j := by
    have hstart : (s'.pace w').start = (s.pace w).start := congrArg UInt64.toNat hnow
    exact Pace.finish_congr hstart (congrArg UInt64.toNat hperiod) fun i hi =>
      hlatency i (by omega)
  have hconverted : (s'.pace w').converted k = (s.pace w).converted k := by
    rw [Pace.converted, Pace.converted, hfinish (Nat.le_succ k)]
    exact congrArg _ (hlatency k le_rfl)
  -- the other sampler has the same instants, so that they can be represented too
  have hfits' : (s'.pace w').Fits (k + 1) :=
    ⟨(hrelease _).symm ▸ hfits.release, (hfinish le_rfl).symm ▸ hfits.finish⟩
  have hkeeps := (paced_of_fits hfirst hstop hfits.of_succ).keepsPace hfits
  have hkeeps' := (paced_of_fits hfirst' hstop' hfits'.of_succ).keepsPace hfits'
  exact hkeeps.timing_eq hkeeps' hrelease (hfinish le_rfl) hconverted

/-- A sampler keeps to its pace in every cycle, as long as its instants can be represented. Of what
the conversions come to, only their lengths are of any consequence: whatever two samplers read, and
whatever they make of it, their timing is the same if they start at the same time, have the same
period, and their conversions take equally long. -/
theorem keepsPace_turn (hfirst : s.nextRelease = none) (hstop : w.stopRequested = false)
    (hfits : (s.pace w).Fits (k + 1)) :
    KeepsPace (s.pace w) k (s.turn w k) ∧
      ∀ {τ μ : Type} [Sensor τ] (s' : Sampler) (w' : Wiring τ μ),
        s'.nextRelease = none → w'.stopRequested = false → s'.period = s.period →
        w'.now = w.now → (∀ i ≤ k, Sensor.latency w'.sensor i = Sensor.latency w.sensor i) →
        timing (s'.turn w' k) = timing (s.turn w k) :=
  ⟨(paced_of_fits hfirst hstop hfits.of_succ).keepsPace hfits,
    fun _ _ hfirst' hstop' hperiod hnow hlatency =>
      timing_turn_eq hfirst hstop hfits hfirst' hstop' hperiod hnow hlatency⟩

/-- The second of two slow cycles is late by more than its own conversion makes it, whether or not
the sampler has a reading to publish. -/
theorem keepsPace_turn_of_backlog :
    let s : Sampler := { period := 1000, fullScale := 1023 }
    let w : Wiring Script Unit :=
      { sensor := { entries := [{ outcome := .ok 10, latency := 1500 },
          { outcome := .error .readFailed, latency := 1200 }] }
        now := 7
        output := () }
    let w' : Wiring Script Unit :=
      { w with sensor := { entries := [{ outcome := .ok 2000, latency := 1500 },
          { outcome := .ok 20, latency := 1200 }] } }
    (s.pace w).Fits 2 ∧ KeepsPace (s.pace w) 1 (s.turn w 1) ∧
      timing (s.turn w 1) =
        { nextRelease := some 3007, now := 2707, sleeps := [], latenesses := [700] } ∧
      timing (s.turn w' 1) = timing (s.turn w 1) := by
  intro s w w'
  have hfits : (s.pace w).Fits 2 := ⟨by decide, by decide⟩
  have hlatency : ∀ i ≤ 1, Sensor.latency w'.sensor i = Sensor.latency w.sensor i := by
    intro i _
    rw [Script.latency_eq, Script.latency_eq]
    rcases i with _ | _ | i <;> rfl
  obtain ⟨hkeeps, hsame⟩ := keepsPace_turn (s := s) (w := w) rfl rfl hfits
  exact ⟨hfits, hkeeps, by decide, hsame s w' rfl rfl rfl rfl hlatency⟩

end Sampler

end SignalChain
