import SignalChain.Device.Wave
import SignalChain.Proofs.Adc.Failures
import SignalChain.Proofs.Words.Exactly

/-!
# What the simulated input plays

The simulated input steers a converter from step to step, and in every step the converter is read.
What is read follows a plan that needs neither the words nor the converter (`outcomesAt`): in every
step the value of that step, except that the first conversion of every seventeenth step fails.

The plan is kept because a failure is asked for one conversion at a time and every step has a
conversion, so that no step finds a failure left over from an earlier one (`failing_after`). Nor is
anything lost in the words that the steps are reckoned in (`stepExactly?_eq_valueAt`).

## Main definitions and results

* `Wave.valueAt`, `Wave.outcomesAt`: the plan.
* `Wave.after`: the converter after some steps with their conversions.
* `Wave.stepExactly?`: a step in whole numbers, where nothing is lost.
* `Wave.keepsPlan_and_read_serveAll`: the plan is kept, and what is behind it: a conversion answers
  to the requests before it.
-/

namespace SignalChain.Wave

/-! ### The plan -/

/-- How many steps up the triangle is at step `n`: forty up and forty down again. -/
def folded (n : Nat) : Nat :=
  if n % 80 ≤ 40 then n % 80 else 80 - n % 80

/-- The value of step `n`: full scale on every thirteenth step, the triangle on all others. -/
def valueAt (fullScale n : Nat) : Nat :=
  if n % 13 = 12 then fullScale else fullScale * folded n / 40

/-- What the conversions of step `n` come to. -/
def outcomesAt (fullScale reads n : Nat) : List (Except SensorFault Nat) :=
  (List.range reads).map fun i =>
    if i = 0 ∧ n % 17 = 16 then .error .readFailed else .ok (valueAt fullScale n)

/-- The converter after so many steps from the first one on, with `reads` conversions in every
step. -/
def after (fullScale : Reading) (reads : Nat) (a : Adc) : Nat → Adc
  | 0 => a
  | n + 1 => ((drive fullScale (.ofNat n) (after fullScale reads a n)).readTimes reads).2

variable {fullScale initial : Reading} {reads steps n : Nat} {a : Adc}

theorem folded_le (n : Nat) : folded n ≤ 40 := by
  unfold folded
  split <;> omega

/-- The triangle stays below full scale. -/
theorem ramp_le (fullScale n : Nat) : fullScale * folded n / 40 ≤ fullScale := by
  refine Nat.div_le_of_le_mul ?_
  rw [Nat.mul_comm 40]
  exact Nat.mul_le_mul_left fullScale (folded_le n)

/-- The product behind the triangle has room in its word, and the triangle in half of it. -/
theorem ramp_fits (fullScale : Reading) (n : Nat) :
    fullScale.toNat * folded n < 2 ^ 32 ∧ fullScale.toNat * folded n / 40 < 2 ^ 16 := by
  have hscale := fullScale.toNat_lt
  have hle := Nat.mul_le_mul_left fullScale.toNat (folded_le n)
  exact ⟨by omega, Nat.lt_of_le_of_lt (ramp_le fullScale.toNat n) hscale⟩

theorem valueAt_le (fullScale n : Nat) : valueAt fullScale n ≤ fullScale := by
  unfold valueAt
  split
  · exact Nat.le_refl fullScale
  · exact ramp_le fullScale n

/-- Of the conversions of a step one fails or none does. -/
theorem countP_outcomesAt (fullScale n : Nat) (hreads : 0 < reads) :
    (outcomesAt fullScale reads n).countP (fun o => !o.isOk) = if n % 17 = 16 then 1 else 0 := by
  obtain ⟨k, rfl⟩ := Nat.exists_eq_succ_of_ne_zero (Nat.pos_iff_ne_zero.mp hreads)
  -- only the first one can fail
  have hlater : (((List.range k).map Nat.succ).map fun i =>
      if i = 0 ∧ n % 17 = 16 then (.error .readFailed : Except SensorFault Nat)
      else .ok (valueAt fullScale n)).countP (fun o => !o.isOk) = 0 := by
    rw [List.countP_eq_zero]
    simp [Except.isOk, Except.toBool]
  rw [outcomesAt, List.range_succ_eq_map, List.map_cons, List.countP_cons, hlater]
  by_cases hn : n % 17 = 16 <;> simp [hn, Except.isOk, Except.toBool]

/-- Every seventeen steps one conversion fails. -/
theorem countP_flatMap_outcomesAt (fullScale steps : Nat) (hreads : 0 < reads) :
    ((List.range steps).flatMap (outcomesAt fullScale reads)).countP (fun o => !o.isOk) =
      steps / 17 := by
  induction steps with
  | zero => rfl
  | succ steps ih =>
    rw [List.range_succ, List.flatMap_append, List.countP_append, ih, List.flatMap_singleton,
      countP_outcomesAt fullScale steps hreads]
    split <;> omega

/-! ### Steps in words -/

/-- The steps up the triangle, in the width of the word. -/
def foldedExactly? (n : Nat) : Option Nat := do
  let whole ← fit? 32 (2 * 40)
  let phase ← remainder? n whole
  if phase < 40 then return phase else less? whole phase

/-- The triangle in whole numbers, in the widths of its words. -/
def rampExactly? (fullScale n : Nat) : Option Nat := do
  let product ← fit? 32 (fullScale * (← foldedExactly? n))
  fit? 16 (← quotient? product 40)

/-- Whether `n` is the last one of so many steps. -/
def isLastExactly? (every n : Nat) : Option Bool := do
  let last ← less? every 1
  return (← remainder? n every) = last

/-- Step `n`: the value, whether a failure is asked for, and the step that comes next. -/
def stepExactly? (fullScale n : Nat) : Option (Nat × Bool × Nat) := do
  let ramp ← rampExactly? fullScale n
  let spikes ← isLastExactly? 13 n
  let fails ← isLastExactly? 17 n
  return (if spikes then fullScale else ramp, fails, ← fit? 32 (n + 1))

theorem foldedExactly?_eq (n : Nat) : foldedExactly? n = some (folded n) := by
  have hphase : n % 80 < 80 := Nat.mod_lt n (by decide)
  have hwhole : 2 * 40 < 2 ^ 32 := by decide
  simp only [foldedExactly?, fit?_of_lt hwhole, remainder?_of_ne_zero (by decide : 2 * 40 ≠ 0),
    Option.bind_eq_bind, Option.bind_some, Option.pure_def]
  unfold folded
  split
  · rw [if_pos (by omega)]
  · rw [less?_of_le (by omega), Option.some_inj]
    split <;> omega

/-- The triangle loses nothing. -/
theorem rampExactly?_eq (fullScale : Reading) (n : Nat) :
    rampExactly? fullScale.toNat n = some (fullScale.toNat * folded n / 40) := by
  obtain ⟨hproduct, hfits⟩ := ramp_fits fullScale n
  simp only [rampExactly?, foldedExactly?_eq, fit?_of_lt hproduct,
    quotient?_of_ne_zero (by decide : 40 ≠ 0), fit?_of_lt hfits, Option.bind_eq_bind,
    Option.bind_some]

theorem isLastExactly?_eq {every : Nat} (n : Nat) (h : 0 < every) :
    isLastExactly? every n = some (decide (n % every = every - 1)) := by
  simp only [isLastExactly?, less?_of_le h, remainder?_of_ne_zero (Nat.pos_iff_ne_zero.mp h),
    Option.bind_eq_bind, Option.bind_some, Option.pure_def]

/-- A step loses nothing while its successor has a number. -/
theorem stepExactly?_eq_valueAt (fullScale : Reading) (hn : n + 1 < 2 ^ 32) :
    stepExactly? fullScale.toNat n =
      some (valueAt fullScale.toNat n, decide (n % 17 = 16), n + 1) := by
  simp only [stepExactly?, rampExactly?_eq, isLastExactly?_eq n (by decide : 0 < 13),
    isLastExactly?_eq n (by decide : 0 < 17), fit?_of_lt hn, Option.bind_eq_bind, Option.bind_some,
    Option.pure_def, valueAt, decide_eq_true_eq]

/-! ### Steps of the converter -/

/-- The steps up the triangle, as they are counted in words. -/
theorem toNat_rising (n : UInt32) :
    (if n % (2 * rampSteps) < rampSteps then n % (2 * rampSteps)
      else 2 * rampSteps - n % (2 * rampSteps)).toNat = folded n.toNat := by
  have hphase : (n % (2 * rampSteps)).toNat = n.toNat % 80 := UInt32.toNat_mod n _
  have hup : n % (2 * rampSteps) < rampSteps ↔ n.toNat % 80 < 40 := by
    rw [UInt32.lt_iff_toNat_lt, hphase]
    rfl
  have hle : n % (2 * rampSteps) ≤ 2 * rampSteps := by
    rw [UInt32.le_iff_toNat_le, hphase]
    exact Nat.le_of_lt (Nat.mod_lt _ (by decide))
  have hdown : (2 * rampSteps - n % (2 * rampSteps)).toNat = 80 - n.toNat % 80 := by
    rw [UInt32.toNat_sub_of_le _ _ hle, hphase]
    rfl
  unfold folded
  simp only [hup]
  split
  · rw [hphase, if_pos (by omega)]
  · rw [hdown]
    split <;> omega

/-- The triangle in words is the one in whole numbers. -/
theorem toNat_rampAt (fullScale : Reading) (n : UInt32) :
    (rampAt fullScale n).toNat = fullScale.toNat * folded n.toNat / 40 := by
  obtain ⟨hproduct, hfits⟩ := ramp_fits fullScale n.toNat
  rw [rampAt]
  show (fullScale.toUInt32 * _ / rampSteps).toUInt16.toNat = _
  rw [UInt32.toNat_toUInt16, UInt32.toNat_div, UInt32.toNat_mul, toNat_rising,
    UInt16.toNat_toUInt32, Nat.mod_eq_of_lt hproduct]
  exact Nat.mod_eq_of_lt hfits

/-- A step is the last of so many in words if it is in whole numbers. -/
theorem mod_eq_last_iff {every : UInt32} (h : 1 ≤ every) (n : UInt32) :
    n % every = every - 1 ↔ n.toNat % every.toNat = every.toNat - 1 := by
  rw [← UInt32.toNat_inj, UInt32.toNat_mod, UInt32.toNat_sub_of_le _ _ h]
  rfl

/-- A step puts its value onto the converter. -/
theorem toNat_raw_drive (fullScale : Reading) (n : UInt32) (a : Adc) :
    (drive fullScale n a).raw.toNat = valueAt fullScale.toNat n.toNat := by
  have hraw : (drive fullScale n a).raw =
      if n % spikeEvery = spikeEvery - 1 then fullScale else rampAt fullScale n := by
    by_cases hfails : n % failEvery = failEvery - 1
    · simp only [drive, hfails, if_true, Adc.failNext, Adc.set]
    · simp only [drive, hfails, if_false, Adc.set]
  have hspikes : n % spikeEvery = spikeEvery - 1 ↔ n.toNat % 13 = 12 :=
    mod_eq_last_iff (by decide) n
  unfold valueAt
  simp only [hraw, hspikes]
  split
  · rfl
  · exact toNat_rampAt fullScale n

/-- A step asks for one failure, or it leaves the failures as they are. -/
theorem toNat_failing_drive (fullScale : Reading) (n : UInt32) (a : Adc) :
    (drive fullScale n a).failing.toNat =
      if n.toNat % 17 = 16 then 1 else a.failing.toNat := by
  have hfails : n % failEvery = failEvery - 1 ↔ n.toNat % 17 = 16 := mod_eq_last_iff (by decide) n
  unfold drive
  simp only [hfails]
  split <;> rfl

/-- From a converter without failures, the conversions of a step are those of the plan, and they
leave a converter without failures. -/
theorem readTimes_drive (fullScale : Reading) (n : UInt32) (ha : a.failing = 0)
    (hreads : 0 < reads) :
    ((drive fullScale n a).readTimes reads).1.map (Except.map UInt16.toNat) =
        outcomesAt fullScale.toNat reads n.toNat ∧
      ((drive fullScale n a).readTimes reads).2.failing = 0 := by
  obtain ⟨houtcomes, hleft⟩ := (drive fullScale n a).readTimes_eq reads
  have hfailing : (drive fullScale n a).failing.toNat = if n.toNat % 17 = 16 then 1 else 0 := by
    rw [toNat_failing_drive, ha]
    rfl
  rw [hfailing] at houtcomes hleft
  constructor
  · rw [houtcomes, outcomesAt, List.map_map]
    refine List.map_congr_left fun i _ => ?_
    by_cases hn : n.toNat % 17 = 16 <;> by_cases hi : i = 0 <;>
      simp [hn, hi, Except.map, toNat_raw_drive]
  · rw [← UInt32.toNat_inj, hleft]
    show _ = 0
    split <;> omega

/-! ### Runs -/

/-- No step leaves a failure to the next one. -/
theorem failing_after (fullScale : Reading) (ha : a.failing = 0) (hreads : 0 < reads) (n : Nat) :
    (after fullScale reads a n).failing = 0 := by
  induction n with
  | zero => exact ha
  | succ n ih => exact (readTimes_drive fullScale _ ih hreads).2

/-- A run goes on step by step from the converter that it has left. -/
theorem readings_after (fullScale : Reading) (reads : Nat) (a : Adc) (steps n : Nat) :
    readings fullScale reads steps (.ofNat n) (after fullScale reads a n) =
      (List.range' n steps).flatMap fun k =>
        ((drive fullScale (.ofNat k) (after fullScale reads a k)).readTimes reads).1 := by
  induction steps generalizing n with
  | zero => rfl
  | succ steps ih =>
    have hnext : UInt32.ofNat n + 1 = UInt32.ofNat (n + 1) := (UInt32.ofNat_add n 1).symm
    rw [readings, List.range'_succ, List.flatMap_cons, ← ih (n + 1), ← hnext]
    rfl

/-- A run is its steps, each from the converter that the steps before have left. -/
theorem readings_eq_flatMap (fullScale : Reading) (reads steps : Nat) (a : Adc) :
    readings fullScale reads steps 0 a =
      (List.range steps).flatMap fun n =>
        ((drive fullScale (.ofNat n) (after fullScale reads a n)).readTimes reads).1 := by
  rw [List.range_eq_range', ← readings_after]
  rfl

/-- The readings of a run are those of the plan. -/
theorem map_readings (fullScale : Reading) (ha : a.failing = 0) (hreads : 0 < reads)
    (hsteps : steps < 2 ^ 32) :
    (readings fullScale reads steps 0 a).map (Except.map UInt16.toNat) =
      (List.range steps).flatMap (outcomesAt fullScale.toNat reads) := by
  rw [readings_eq_flatMap, List.map_flatMap]
  refine List.flatMap_congr fun n hn => ?_
  have hword : (UInt32.ofNat n).toNat = n :=
    UInt32.toNat_ofNat_of_lt' (Nat.lt_trans (List.mem_range.mp hn) hsteps)
  have hoff := failing_after fullScale ha hreads n
  rw [(readTimes_drive fullScale (.ofNat n) hoff hreads).1, hword]

/-! ### What the input owes to its readers -/

/-- The simulated input plays its plan on a converter that starts with `initial`. -/
structure KeepsPlan (fullScale initial : Reading) (reads steps : Nat) : Prop where
  /-- Step for step, the conversions come to what is planned. -/
  readings_eq :
    (readings fullScale reads steps 0 { raw := initial }).map (Except.map UInt16.toNat) =
      (List.range steps).flatMap (outcomesAt fullScale.toNat reads)
  /-- Nothing is read above full scale. -/
  le_fullScale : ∀ raw, .ok raw ∈ readings fullScale reads steps 0 { raw := initial } →
    raw ≤ fullScale
  /-- Every seventeen steps one conversion fails. -/
  countP_failed :
    (readings fullScale reads steps 0 { raw := initial }).countP (fun o => !o.isOk) = steps / 17
  /-- Every step goes on from the converter that the steps before have left. -/
  readings_eq_after : readings fullScale reads steps 0 { raw := initial } =
    (List.range steps).flatMap fun n =>
      ((drive fullScale (.ofNat n) (after fullScale reads { raw := initial } n)).readTimes reads).1
  /-- No failure is left over from a step, be it for the next one or for after the run. -/
  failing_after : ∀ n ≤ steps, (after fullScale reads { raw := initial } n).failing = 0
  /-- Every step is the same in whole numbers as in its words. -/
  stepExactly?_eq : ∀ n < steps, ∀ a, stepExactly? fullScale.toNat n =
    some ((drive fullScale (.ofNat n) a).raw.toNat,
      decide (UInt32.ofNat n % failEvery = failEvery - 1), (UInt32.ofNat n + 1).toNat)

/-- The plan is kept as long as the steps can be counted in a word. -/
theorem keepsPlan_of_lt (fullScale initial : Reading) (hreads : 0 < reads)
    (hsteps : steps < 2 ^ 32) : KeepsPlan fullScale initial reads steps := by
  have hplan := map_readings fullScale (a := { raw := initial }) rfl hreads hsteps
  refine
    { readings_eq := hplan
      le_fullScale := fun raw hraw => ?_
      countP_failed := ?_
      readings_eq_after := readings_eq_flatMap fullScale reads steps _
      failing_after := fun n _ => failing_after fullScale rfl hreads n
      stepExactly?_eq := fun n hn a => ?_ }
  · have hmem := List.mem_map_of_mem (f := Except.map UInt16.toNat) hraw
    rw [hplan, List.mem_flatMap] at hmem
    obtain ⟨n, -, hn⟩ := hmem
    obtain ⟨i, -, hi⟩ := List.mem_map.mp hn
    -- what is read without failure is the value of its step
    have hvalue : valueAt fullScale.toNat n = raw.toNat := by
      split at hi
      · cases hi
      · exact Except.ok.inj hi
    rw [UInt16.le_iff_toNat_le, ← hvalue]
    exact valueAt_le fullScale.toNat n
  · rw [← countP_flatMap_outcomesAt fullScale.toNat steps hreads, ← hplan, List.countP_map]
    refine List.countP_congr fun o _ => ?_
    cases o <;> rfl
  · have hnext : n + 1 < 2 ^ 32 := Nat.lt_of_le_of_lt hn hsteps
    have hword : (UInt32.ofNat n).toNat = n :=
      UInt32.toNat_ofNat_of_lt' (Nat.lt_of_succ_lt hnext)
    have hnextWord : (UInt32.ofNat n + 1).toNat = n + 1 := by
      rw [UInt32.toNat_add, hword]
      exact Nat.mod_eq_of_lt hnext
    have hfails : UInt32.ofNat n % failEvery = failEvery - 1 ↔ n % 17 = 16 := by
      rw [mod_eq_last_iff (by decide), hword]
      rfl
    rw [stepExactly?_eq_valueAt fullScale hnext, toNat_raw_drive, hword, hnextWord,
      decide_eq_decide.mpr hfails]

/-- The simulated input plays its plan in any number of steps that has a word, with any number of
conversions in a step. Behind this is what a conversion comes to after whatever a converter was
asked for. -/
theorem keepsPlan_and_read_serveAll (fullScale initial : Reading) (reads steps : Nat)
    (rs : List Adc.Request) :
    (0 < reads → steps < 2 ^ 32 → KeepsPlan fullScale initial reads steps) ∧
      (Adc.serveAll { raw := initial } rs).read.1 =
        if Adc.readsSince rs < Adc.lastCount rs then .error .readFailed
        else .ok (Adc.lastSet initial rs) :=
  ⟨keepsPlan_of_lt fullScale initial, Adc.read_serveAll initial rs⟩

/-- Thirty-four steps with two failures, and a converter that was asked for fewer failures than were
left. -/
theorem keepsPlan_and_read_serveAll_of_two_failures :
    let rs : List Adc.Request := [.failNext 3, .read, .set 9, .failNext 1, .set 5, .read]
    0 < 2 ∧ 34 < 2 ^ 32 ∧
      (readings 1000 2 34 0 { raw := 7 }).map (Except.map UInt16.toNat) =
        (List.range 34).flatMap (outcomesAt 1000 2) ∧
      outcomesAt 1000 2 12 = [.ok 1000, .ok 1000] ∧
      outcomesAt 1000 2 16 = [.error .readFailed, .ok 400] ∧
      (readings 1000 2 34 0 { raw := 7 }).countP (fun o => !o.isOk) = 2 ∧
      (Adc.serveAll { raw := 7 } rs).read.1 = .ok 5 := by
  intro rs
  obtain ⟨hplan, hread⟩ := keepsPlan_and_read_serveAll 1000 7 2 34 rs
  have hplan := hplan (by decide) (by decide)
  exact ⟨by decide, by decide, hplan.readings_eq, rfl, rfl, hplan.countP_failed, hread.trans rfl⟩

end SignalChain.Wave
