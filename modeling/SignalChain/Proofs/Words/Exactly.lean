import SignalChain.Proofs.Estimate.Exact
import SignalChain.Proofs.Pwm.Level
import SignalChain.Proofs.Settings.Accepted
import SignalChain.Task

/-!
# Reckoning without loss

The chain reckons in words, which wrap when a sum or a product is too great for them and which cut
off what a narrower word cannot hold. Here every such reckoning is gone through once more in whole
numbers, step by step and in the widths of its words. A step that would lose something has no
outcome, and neither has the reckoning that it belongs to.

So a reckoning in whole numbers that has an outcome, and the same outcome as the one in words, has
lost nothing on its way. That is what the theorems below say, each under the bounds that it needs.

## Main definitions

* `fit?`, `less?`, `quotient?`, `remainder?`: steps that can lose something.
* `Settings.fullScaleExactly?`, `Settings.samplerPeriodExactly?`, `Task.stackBytesExactly?`,
  `Estimate.ofNumbersExactly?`, `Duty.highOfValueExactly?`, `Duty.highOfPercentExactly?`,
  `Pwm.levelExactly?`: the reckonings.
-/

namespace SignalChain

/-! ### Steps -/

/-- `n`, if a word of so many bits holds it. -/
def fit? (bits n : Nat) : Option Nat :=
  if n < 2 ^ bits then some n else none

/-- The difference, unless it is below zero. -/
def less? (n m : Nat) : Option Nat :=
  if m ≤ n then some (n - m) else none

/-- The quotient, cut off to a whole number, unless it is one by zero. -/
def quotient? (n d : Nat) : Option Nat :=
  if d = 0 then none else some (n / d)

/-- The remainder, unless it is one by zero. -/
def remainder? (n d : Nat) : Option Nat :=
  if d = 0 then none else some (n % d)

variable {bits n m d : Nat}

/-- A number that the word holds is kept. -/
theorem fit?_of_lt (h : n < 2 ^ bits) : fit? bits n = some n :=
  if_pos h

/-- A difference that is not below zero is one. -/
theorem less?_of_le (h : m ≤ n) : less? n m = some (n - m) :=
  if_pos h

/-- By a number that is not zero there is a quotient. -/
theorem quotient?_of_ne_zero (h : d ≠ 0) : quotient? n d = some (n / d) :=
  if_neg h

/-- By a number that is not zero there is a remainder. -/
theorem remainder?_of_ne_zero (h : d ≠ 0) : remainder? n d = some (n % d) :=
  if_neg h

/-! ### Settings and tasks -/

namespace Settings

variable {s : Settings}

/-- The full scale: one bit more than the resolution, less one, in half a word. -/
def fullScaleExactly? (s : Settings) : Option Nat := do
  -- a shift by the width of the word or more is none
  let bits ← if s.resolutionBits.toNat < 32 then some s.resolutionBits.toNat else none
  let shifted ← fit? 32 (2 ^ bits)
  let scale ← less? shifted 1
  fit? 16 scale

/-- The period of the sampler, from milliseconds to microseconds. -/
def samplerPeriodExactly? (s : Settings) : Option Nat :=
  fit? 64 (s.samplerPeriodMs.toNat * 1000)

/-- An accepted resolution gives the full scale without loss. -/
theorem fullScaleExactly?_of_accepted (h : s.validate = .ok ()) :
    s.fullScaleExactly? = some s.fullScale.toNat := by
  obtain ⟨-, hhi⟩ := resolution_of_accepted h
  have hpow : 2 ^ s.resolutionBits.toNat ≤ 2 ^ 16 := Nat.pow_le_pow_right (by decide) hhi
  have hone : 1 ≤ 2 ^ s.resolutionBits.toNat := Nat.one_le_two_pow
  have hscale := toNat_fullScale h
  have hbits : s.resolutionBits.toNat < 32 := by omega
  have hshifted : 2 ^ s.resolutionBits.toNat < 2 ^ 32 := by omega
  have hless : 2 ^ s.resolutionBits.toNat - 1 < 2 ^ 16 := by omega
  simp only [fullScaleExactly?, if_pos hbits, fit?_of_lt hshifted, less?_of_le hone,
    fit?_of_lt hless, Option.bind_eq_bind, Option.bind_some, hscale]

/-- A period in milliseconds has room to spare in microseconds. -/
theorem samplerPeriodExactly?_eq (s : Settings) :
    s.samplerPeriodExactly? = some s.samplerPeriod.toNat := by
  have hms := s.samplerPeriodMs.toNat_lt
  have hfits : s.samplerPeriodMs.toNat * 1000 < 2 ^ 64 := by omega
  rw [samplerPeriodExactly?, fit?_of_lt hfits, samplerPeriod, UInt64.toNat_mul,
    UInt32.toNat_toUInt64]
  exact congrArg some (Nat.mod_eq_of_lt hfits).symm

/-- An accepted stack is at most eight mebibytes. -/
theorem stackKb_le_of_accepted (h : s.validate = .ok ()) : s.stackKb.toNat ≤ 8192 := by
  have hrule := validate_eq_ok_iff.mp h .stack (by simp [rules])
  simp only [Rule.holds, Bool.and_eq_true, decide_eq_true_eq] at hrule
  exact UInt64.le_iff_toNat_le.mp hrule.2

end Settings

namespace Task

variable {t : Task}

/-- The size of the stack, from KiB to bytes. -/
def stackBytesExactly? (t : Task) : Option Nat :=
  fit? 64 (t.stackKb.toNat * 1024)

/-- The size of a stack that is small enough loses nothing. -/
theorem stackBytesExactly?_of_le (h : t.stackKb.toNat ≤ 8192) :
    t.stackBytesExactly? = some (t.stackKb.toNat * 1024) :=
  fit?_of_lt (by omega)

/-- A size that loses nothing is the one in words. -/
theorem stackBytes?_of_stackBytesExactly? (h : t.stackBytesExactly? = some n) :
    t.stackBytes? = some (t.stackKb * 1024) ∧ (t.stackKb * 1024).toNat = n := by
  rw [stackBytesExactly?, fit?] at h
  split at h
  case isTrue hfits =>
    obtain rfl := Option.some.inj h
    refine ⟨if_pos hfits, ?_⟩
    rw [UInt64.toNat_mul]
    exact Nat.mod_eq_of_lt hfits
  case isFalse => cases h

end Task

/-! ### Estimates -/

namespace Estimate

/-- Whether `n` lies within ten per cent of `center`. -/
def inBandExactly? (center n : Nat) : Option Bool := do
  let scaled ← fit? 32 (n * 10)
  let low ← fit? 32 (center * 9)
  let high ← fit? 32 (center * 11)
  return low ≤ scaled && scaled ≤ high

/-- One more number that may have to be kept, after a sum and a count of those before. -/
def addExactly? (keep? : Nat → Option Bool) (t : Nat × Nat) (n : Nat) : Option (Nat × Nat) := do
  if ← keep? n then return (← fit? 32 (t.1 + n), ← fit? 32 (t.2 + 1)) else return t

/-- The sum of the numbers that are to be kept, and how many they are. -/
def tallyExactly? (keep? : Nat → Option Bool) (ns : List Nat) : Option (Nat × Nat) :=
  ns.foldlM (addExactly? keep?) (0, 0)

/-- The mean of the numbers that are to be kept, and how many they are. -/
def meanExactly? (keep? : Nat → Option Bool) (ns : List Nat) : Option (Nat × Nat) := do
  let (sum, count) ← tallyExactly? keep? ns
  if count = 0 then return (0, 0)
  else return (← fit? 16 (← quotient? sum count), count)

/-- Both passes: the coarse mean and the number of its readings, then the fine mean and the number
of its readings. -/
def ofNumbersExactly? (ns : List Nat) : Option ((Nat × Nat) × (Nat × Nat)) := do
  let first ← meanExactly? (fun n => some (n ≠ 0)) ns
  let second ← meanExactly? (inBandExactly? first.1) ns
  return (first, second)

/-- The band around a reading is wide enough for its words. -/
theorem inBandExactly?_eq (center r : Reading) :
    inBandExactly? center.toNat r.toNat = some (inBand center r) := by
  have hcenter := center.toNat_lt
  have hr := r.toNat_lt
  have hscaled : r.toNat * 10 < 2 ^ 32 := by omega
  have hlow : center.toNat * 9 < 2 ^ 32 := by omega
  have hhigh : center.toNat * 11 < 2 ^ 32 := by omega
  simp only [inBandExactly?, fit?_of_lt hscaled, fit?_of_lt hlow, fit?_of_lt hhigh,
    Option.bind_eq_bind, Option.bind_some, Option.pure_def, inBand_eq, Bool.decide_and]
  rw [Nat.mul_comm 10, Nat.mul_comm 9, Nat.mul_comm 11]

section Means

variable {keep? : Nat → Option Bool} {keep : Reading → Bool}

/-- A tally has an outcome while its sum fits. -/
theorem foldlM_addExactly? (hkeep : ∀ r : Reading, keep? r.toNat = some (keep r))
    (rs : List Reading) (t : Nat × Nat)
    (hsum : t.1 + ((rs.filter keep).map (·.toNat)).sum < 2 ^ 32)
    (hcount : t.2 + (rs.filter keep).length < 2 ^ 32) :
    (rs.map (·.toNat)).foldlM (addExactly? keep?) t =
      some (t.1 + ((rs.filter keep).map (·.toNat)).sum, t.2 + (rs.filter keep).length) := by
  -- from any start that leaves room for the readings still to come
  induction rs generalizing t with
  | nil => rfl
  | cons r rs ih =>
    rw [List.map_cons, List.foldlM_cons, addExactly?, hkeep r]
    by_cases hr : keep r = true
    · rw [List.filter_cons_of_pos hr] at hsum hcount ⊢
      simp only [List.map_cons, List.sum_cons, List.length_cons] at hsum hcount ⊢
      have hone : t.1 + r.toNat < 2 ^ 32 := by omega
      have htwo : t.2 + 1 < 2 ^ 32 := by omega
      have hrest := ih (t.1 + r.toNat, t.2 + 1) (by simp only; omega) (by simp only; omega)
      simp only [hr, if_true, fit?_of_lt hone, fit?_of_lt htwo, Option.bind_eq_bind,
        Option.bind_some, Option.pure_def, hrest, Nat.add_assoc, Nat.add_comm 1]
    · rw [List.filter_cons_of_neg hr] at hsum hcount ⊢
      simp only [hr, Option.bind_eq_bind, Option.bind_some, Option.pure_def]
      exact ih t hsum hcount

/-- The mean of what is kept of a list that is not too long loses nothing. -/
theorem meanExactly?_eq (hkeep : ∀ r : Reading, keep? r.toNat = some (keep r))
    {rs : List Reading} (hlen : rs.length ≤ maxReadings) :
    meanExactly? keep? (rs.map (·.toNat)) =
      some ((mean (rs.filter keep)).1.toNat, (mean (rs.filter keep)).2) := by
  have hkept : (rs.filter keep).length ≤ maxReadings :=
    Nat.le_trans (List.length_filter_le _ _) hlen
  obtain ⟨hmean, hcount⟩ := toNat_mean hkept
  -- as many of the greatest readings as the longest list has would still fit
  have hsum : ((rs.filter keep).map (·.toNat)).sum ≤ (rs.filter keep).length * 65535 :=
    sum_le fun r _ => Nat.le_of_lt_succ r.toNat_lt
  have hroom := Nat.mul_le_mul_right 65535 hkept
  simp only [maxReadings] at hkept hroom
  have htally : tallyExactly? keep? (rs.map (·.toNat)) =
      some (((rs.filter keep).map (·.toNat)).sum, (rs.filter keep).length) := by
    have h := foldlM_addExactly? hkeep rs (0, 0) (by simp only; omega) (by simp only; omega)
    rwa [Nat.zero_add, Nat.zero_add] at h
  -- the quotient fits because the mean in words, which is it, is half a word
  have hfits := (mean (rs.filter keep)).1.toNat_lt
  rw [hmean] at hfits
  rw [meanExactly?, htally, hmean, hcount]
  by_cases hnone : (rs.filter keep).length = 0
  · simp [hnone]
  · simp only [if_neg hnone, quotient?_of_ne_zero hnone, fit?_of_lt hfits, Option.bind_eq_bind,
      Option.bind_some, Option.pure_def]

/-- The estimate of a list that is not too long loses nothing. -/
theorem ofNumbersExactly?_eq {rs : List Reading} (hlen : rs.length ≤ maxReadings) :
    ofNumbersExactly? (rs.map (·.toNat)) =
      some (((ofReadings rs).coarse.toNat, (ofReadings rs).nonzero),
        ((ofReadings rs).fine.toNat, (ofReadings rs).kept)) := by
  have hfirst : meanExactly? (fun n => some (n ≠ 0)) (rs.map (·.toNat)) =
      some ((nonzeroMean rs).1.toNat, (nonzeroMean rs).2) := by
    refine meanExactly?_eq (fun r => ?_) hlen
    rw [Option.some_inj, decide_eq_decide, not_iff_not, toNat_eq_zero_iff]
  -- the band of the second pass is one around a reading, as the coarse mean fits half a word
  have hsecond := meanExactly?_eq (inBandExactly?_eq (nonzeroMean rs).1) hlen
  rw [ofNumbersExactly?, hfirst]
  show (meanExactly? (inBandExactly? (nonzeroMean rs).1.toNat) _).bind _ = _
  rw [hsecond]
  rfl

end Means

end Estimate

/-! ### Duties and levels -/

namespace Duty

/-- The high time for a value on a scale, with a product of twice the width. -/
def highOfValueExactly? (value fullScale period : Nat) : Option Nat := do
  let product ← fit? 128 (period * min value fullScale)
  fit? 64 (← quotient? product fullScale)

/-- The high time for a percentage. -/
def highOfPercentExactly? (percent period : Nat) : Option Nat := do
  let product ← fit? 64 (period * min percent 100)
  fit? 64 (← quotient? product 100)

/-- The high time for a value loses nothing, whatever the period, and is at most the period. -/
theorem highOfValueExactly?_eq {value fullScale : Reading} {period : Micros} (h : fullScale ≠ 0) :
    highOfValueExactly? value.toNat fullScale.toNat period.toNat =
        some (ofValue value fullScale period).high.toNat ∧
      (ofValue value fullScale period).high ≤ period := by
  have hhigh : (ofValue value fullScale period).high.toNat = _ := toNat_high_ofValue h
  have hshare := share_le period.toNat value.toNat fullScale.toNat
  have hperiod := period.toNat_lt
  have hscale : fullScale.toNat ≠ 0 := fun hzero => h (UInt16.toNat_inj.mp hzero)
  -- sixty-four bits of the period and sixteen of the value
  have hproduct : period.toNat * min value.toNat fullScale.toNat < 2 ^ 128 := by
    have hmin : min value.toNat fullScale.toNat < 2 ^ 16 :=
      Nat.lt_of_le_of_lt (Nat.min_le_left _ _) value.toNat_lt
    have hlt := Nat.mul_lt_mul'' hperiod hmin
    omega
  -- a share of the period is no longer than the period
  have hfits : period.toNat * min value.toNat fullScale.toNat / fullScale.toNat < 2 ^ 64 := by
    omega
  refine ⟨?_, ?_⟩
  · simp only [highOfValueExactly?, fit?_of_lt hproduct, quotient?_of_ne_zero hscale,
      fit?_of_lt hfits, Option.bind_eq_bind, Option.bind_some, hhigh]
  · rw [UInt64.le_iff_toNat_le, hhigh]
    exact hshare

/-- The high time for a percentage loses nothing while the period leaves room for the product, and
is at most the period. -/
theorem highOfPercentExactly?_eq {percent : UInt8} {period : Micros} (h : period.toNat < 2 ^ 57) :
    highOfPercentExactly? percent.toNat period.toNat =
        some (ofPercent percent period).high.toNat ∧
      (ofPercent percent period).high ≤ period := by
  have hhigh : (ofPercent percent period).high.toNat = _ := toNat_high_ofPercent h
  have hshare := share_le period.toNat percent.toNat 100
  -- a hundred takes seven bits
  have hproduct : period.toNat * min percent.toNat 100 < 2 ^ 64 := by
    have hle := Nat.mul_le_mul_left period.toNat (Nat.min_le_right percent.toNat 100)
    omega
  have hfits : period.toNat * min percent.toNat 100 / 100 < 2 ^ 64 := by omega
  have hhundred : (100 : Nat) ≠ 0 := by decide
  refine ⟨?_, ?_⟩
  · simp only [highOfPercentExactly?, fit?_of_lt hproduct, quotient?_of_ne_zero hhundred,
      fit?_of_lt hfits, Option.bind_eq_bind, Option.bind_some, hhigh]
  · rw [UInt64.le_iff_toNat_le, hhigh]
    exact hshare

end Duty

namespace Pwm

/-- The level of a high time on a channel with the given top and period. -/
def levelExactly? (top period high : Nat) : Option Nat := do
  let product ← fit? 64 (top * min high period)
  fit? 16 (← quotient? product period)

/-- The level of a high time loses nothing where the word has room for the product of the top and
the period. -/
theorem levelExactly?_eq {p : Pwm} (hperiod : p.period ≠ 0)
    (hfits : p.channel.top.toNat * p.period.toNat < 2 ^ 64) (high : Micros) :
    levelExactly? p.channel.top.toNat p.period.toNat high.toNat =
      some (p.levelFor high).toNat := by
  have hlevel := toNat_levelFor hperiod hfits high
  have hword := (p.levelFor high).toNat_lt
  rw [hlevel] at hword
  have hnonzero : p.period.toNat ≠ 0 := fun hzero => hperiod (UInt64.toNat_inj.mp hzero)
  have hproduct : p.channel.top.toNat * min high.toNat p.period.toNat < 2 ^ 64 :=
    Nat.lt_of_le_of_lt (Nat.mul_le_mul_left _ (Nat.min_le_right _ _)) hfits
  simp only [levelExactly?, fit?_of_lt hproduct, quotient?_of_ne_zero hnonzero, fit?_of_lt hword,
    Option.bind_eq_bind, Option.bind_some, hlevel]

end Pwm

end SignalChain
