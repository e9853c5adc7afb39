import SignalChain.Proofs.Words.Exactly

/-!
# How duties scale

A share grows with what it is a share of and with the part, and gets smaller with the number of
parts. It is all of it only for all parts, and nothing only where the exact share is less than one.

The high time for a value is such a share of the period, whatever the period (`scaled_ofValue`), so
that it is monotone in the value and in the period, and antitone in the full scale.
-/

namespace SignalChain.Duty

section

variable {whole whole' part part' parts parts' : Nat}

/-- A greater part is no smaller share. -/
theorem share_le_of_part_le (h : part ≤ part') (whole parts : Nat) :
    whole * min part parts / parts ≤ whole * min part' parts / parts :=
  Nat.div_le_div_right (Nat.mul_le_mul_left whole (min_le_min_right parts h))

/-- Of more, the same part is no smaller share. -/
theorem share_le_of_whole_le (h : whole ≤ whole') (part parts : Nat) :
    whole * min part parts / parts ≤ whole' * min part parts / parts :=
  Nat.div_le_div_right (Nat.mul_le_mul_right _ h)

/-- All parts are the whole. -/
theorem share_of_parts_le (hparts : 0 < parts) (h : parts ≤ part) (whole : Nat) :
    whole * min part parts / parts = whole := by
  rw [Nat.min_eq_right h, Nat.mul_div_cancel _ hparts]

/-- Of more parts, as many are no greater share. -/
theorem share_le_of_le_parts (hparts : 0 < parts) (h : parts ≤ parts') (whole part : Nat) :
    whole * min part parts' / parts' ≤ whole * min part parts / parts := by
  rcases Nat.le_total parts part with hall | hsome
  · rw [share_of_parts_le hparts hall]
    exact share_le whole part parts'
  · rw [Nat.min_eq_left hsome, Nat.min_eq_left (Nat.le_trans hsome h)]
    exact Nat.div_le_div_left h hparts

/-- Only all parts are the whole. -/
theorem share_eq_whole_iff (hwhole : 0 < whole) (hparts : 0 < parts) :
    whole * min part parts / parts = whole ↔ parts ≤ part := by
  refine ⟨fun heq => ?_, fun h => share_of_parts_le hparts h whole⟩
  by_contra hlt
  rw [Nat.not_le] at hlt
  -- a part that is not all of them has a share below the whole
  have hshort : whole * min part parts < whole * parts := by
    rw [Nat.min_eq_left hlt.le]
    exact Nat.mul_lt_mul_of_pos_left hlt hwhole
  exact absurd heq (Nat.div_lt_of_lt_mul (Nat.mul_comm parts whole ▸ hshort)).ne

/-- Only a part whose exact share is less than one is nothing. -/
theorem share_eq_zero_iff (hwhole : 0 < whole) (hparts : 0 < parts) :
    whole * min part parts / parts = 0 ↔ whole * part < parts := by
  rw [Nat.div_eq_zero_iff_lt hparts]
  rcases Nat.le_total part parts with hsome | hall
  · rw [Nat.min_eq_left hsome]
  · -- all parts are one at least, and so is anything above them
    rw [Nat.min_eq_right hall]
    have hle := Nat.le_mul_of_pos_left parts hwhole
    have hle' := Nat.mul_le_mul_left whole hall
    omega

end

/-- The high time for a value on a scale, as a share of the period. -/
structure Scaled (value fullScale : Reading) (period : Micros) : Prop where
  period_eq : (ofValue value fullScale period).period = period
  /-- A scale of nothing is always full. -/
  full_of_scale : fullScale = 0 → (ofValue value fullScale period).high = period
  high_eq : fullScale ≠ 0 → (ofValue value fullScale period).high.toNat =
    period.toNat * min value.toNat fullScale.toNat / fullScale.toNat
  /-- No step of the reckoning loses anything, the one back into the word of the period included. -/
  exact_eq : fullScale ≠ 0 → highOfValueExactly? value.toNat fullScale.toNat period.toNat =
    some (ofValue value fullScale period).high.toNat
  high_le : (ofValue value fullScale period).high ≤ period
  mono_value : ∀ value', value ≤ value' →
    (ofValue value fullScale period).high ≤ (ofValue value' fullScale period).high
  mono_period : ∀ period', period ≤ period' →
    (ofValue value fullScale period).high ≤ (ofValue value fullScale period').high
  anti_fullScale : fullScale ≠ 0 → ∀ fullScale', fullScale ≤ fullScale' →
    (ofValue value fullScale' period).high ≤ (ofValue value fullScale period).high
  high_eq_period_iff : period ≠ 0 → fullScale ≠ 0 →
    ((ofValue value fullScale period).high = period ↔ fullScale ≤ value)
  high_eq_zero_iff : period ≠ 0 → fullScale ≠ 0 →
    ((ofValue value fullScale period).high = 0 ↔ period.toNat * value.toNat < fullScale.toNat)

variable {value fullScale : Reading} {period : Micros}

/-- A scale of something is one reading wide at least. -/
theorem toNat_pos (hscale : fullScale ≠ 0) : 0 < fullScale.toNat :=
  Nat.pos_of_ne_zero fun hzero => hscale (UInt16.toNat_inj.mp hzero)

/-- A period is one microsecond long at least. -/
theorem toNat_period_pos (hperiod : period ≠ 0) : 0 < period.toNat :=
  Nat.pos_of_ne_zero fun hzero => hperiod (UInt64.toNat_inj.mp hzero)

/-- On a scale of nothing every value is full. -/
theorem high_ofValue_zero (value : Reading) (period : Micros) :
    (ofValue value 0 period).high = period := rfl

/-- A greater value has no shorter high time. -/
theorem high_ofValue_mono {value' : Reading} (h : value ≤ value') (fullScale : Reading)
    (period : Micros) :
    (ofValue value fullScale period).high ≤ (ofValue value' fullScale period).high := by
  by_cases hscale : fullScale = 0
  · subst hscale
    exact UInt64.le_refl period
  · rw [UInt64.le_iff_toNat_le, toNat_high_ofValue hscale, toNat_high_ofValue hscale]
    exact share_le_of_part_le (UInt16.le_iff_toNat_le.mp h) _ _

/-- A longer period has no shorter high time. -/
theorem high_ofValue_mono_period {period period' : Micros} (h : period ≤ period')
    (value fullScale : Reading) :
    (ofValue value fullScale period).high ≤ (ofValue value fullScale period').high := by
  by_cases hscale : fullScale = 0
  · subst hscale
    exact h
  · rw [UInt64.le_iff_toNat_le, toNat_high_ofValue hscale, toNat_high_ofValue hscale]
    exact share_le_of_whole_le (UInt64.le_iff_toNat_le.mp h) _ _

/-- On a wider scale a value has no longer high time. -/
theorem high_ofValue_anti {fullScale' : Reading} (hscale : fullScale ≠ 0)
    (h : fullScale ≤ fullScale') (value : Reading) (period : Micros) :
    (ofValue value fullScale' period).high ≤ (ofValue value fullScale period).high := by
  have hle := UInt16.le_iff_toNat_le.mp h
  have hpos := toNat_pos hscale
  have hscale' : fullScale' ≠ 0 := by
    rintro rfl
    exact absurd (Nat.lt_of_lt_of_le hpos hle) (Nat.lt_irrefl 0)
  rw [UInt64.le_iff_toNat_le, toNat_high_ofValue hscale, toNat_high_ofValue hscale']
  exact share_le_of_le_parts hpos hle _ _

/-- No high time is longer than the period. -/
theorem high_ofValue_le (value fullScale : Reading) (period : Micros) :
    (ofValue value fullScale period).high ≤ period := by
  by_cases hscale : fullScale = 0
  · subst hscale
    exact UInt64.le_refl period
  · exact (highOfValueExactly?_eq hscale).2

/-- Only from the full scale on the high time is the whole period. -/
theorem high_ofValue_eq_period_iff (hperiod : period ≠ 0) (hscale : fullScale ≠ 0) :
    (ofValue value fullScale period).high = period ↔ fullScale ≤ value := by
  rw [← UInt64.toNat_inj, toNat_high_ofValue hscale, UInt16.le_iff_toNat_le]
  exact share_eq_whole_iff (toNat_period_pos hperiod) (toNat_pos hscale)

/-- Only a value whose exact share is less than a microsecond has no high time. -/
theorem high_ofValue_eq_zero_iff (hperiod : period ≠ 0) (hscale : fullScale ≠ 0) :
    (ofValue value fullScale period).high = 0 ↔
      period.toNat * value.toNat < fullScale.toNat := by
  rw [← UInt64.toNat_inj, toNat_high_ofValue hscale]
  exact share_eq_zero_iff (toNat_period_pos hperiod) (toNat_pos hscale)

/-- The high times for values are shares of the period, cut off to whole microseconds, for every
period, every scale and every value, those above the scale included. -/
theorem scaled_ofValue (value fullScale : Reading) (period : Micros) :
    Scaled value fullScale period where
  period_eq := rfl
  full_of_scale hscale := hscale ▸ high_ofValue_zero value period
  high_eq := toNat_high_ofValue
  exact_eq hscale := (highOfValueExactly?_eq hscale).1
  high_le := high_ofValue_le value fullScale period
  mono_value _ h := high_ofValue_mono h fullScale period
  mono_period _ h := high_ofValue_mono_period h value fullScale
  anti_fullScale hscale _ h := high_ofValue_anti hscale h value period
  high_eq_period_iff := high_ofValue_eq_period_iff
  high_eq_zero_iff := high_ofValue_eq_zero_iff

end SignalChain.Duty
