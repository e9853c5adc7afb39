import Mathlib.Algebra.Group.Nat.Defs
import SignalChain.Settings

/-!
# Accepted settings

What a chain may rely on once its settings have been validated: every rule holds
(`validate_eq_ok_iff`), the full scale is the number of the converter's resolution, which is at
least one, and the period of the output fits half a word.
-/

namespace SignalChain.Settings

variable {s : Settings}

/-- Settings are accepted exactly if they keep every rule. -/
theorem validate_eq_ok_iff : s.validate = .ok () ↔ ∀ r ∈ rules, r.holds s = true := by
  unfold validate
  cases h : s.violated? with
  | none =>
    have hall := List.find?_eq_none.mp h
    simpa using hall
  | some r =>
    have hbroken := List.find?_some h
    have hmem := List.mem_of_find?_eq_some h
    simp only [reduceCtorEq, false_iff]
    intro hall
    rw [hall r hmem] at hbroken
    cases hbroken

/-- An accepted resolution is between one and sixteen bits. -/
theorem resolution_of_accepted (h : s.validate = .ok ()) :
    1 ≤ s.resolutionBits.toNat ∧ s.resolutionBits.toNat ≤ 16 := by
  have hrule := validate_eq_ok_iff.mp h .resolution (by simp [rules])
  simpa [Rule.holds, UInt8.le_iff_toNat_le] using hrule

/-- An accepted full scale is the greatest number of the resolution. -/
theorem toNat_fullScale (h : s.validate = .ok ()) :
    s.fullScale.toNat = 2 ^ s.resolutionBits.toNat - 1 := by
  obtain ⟨hlo, hhi⟩ := resolution_of_accepted h
  have hpow : 2 ^ s.resolutionBits.toNat ≤ 2 ^ 16 := Nat.pow_le_pow_right (by decide) hhi
  have hone : 1 ≤ 2 ^ s.resolutionBits.toNat := Nat.one_le_two_pow
  -- the shift counts modulo the width of its word, which the bits do not reach
  have hbits : s.resolutionBits.toNat % 32 = s.resolutionBits.toNat := Nat.mod_eq_of_lt (by omega)
  have hshift : ((1 : UInt32) <<< s.resolutionBits.toUInt32).toNat =
      2 ^ s.resolutionBits.toNat := by
    rw [UInt32.toNat_shiftLeft, UInt8.toNat_toUInt32, hbits, UInt32.toNat_one, Nat.one_shiftLeft]
    exact Nat.mod_eq_of_lt (by omega)
  have hsub : (((1 : UInt32) <<< s.resolutionBits.toUInt32) - 1).toNat =
      2 ^ s.resolutionBits.toNat - 1 := by
    have hle : (1 : UInt32) ≤ (1 : UInt32) <<< s.resolutionBits.toUInt32 := by
      rw [UInt32.le_iff_toNat_le, hshift]
      exact hone
    rw [UInt32.toNat_sub_of_le _ _ hle, hshift]
    rfl
  rw [fullScale, UInt32.toNat_toUInt16, hsub]
  exact Nat.mod_eq_of_lt (by omega)

/-- An accepted full scale is not zero. -/
theorem fullScale_ne_zero (h : s.validate = .ok ()) : s.fullScale ≠ 0 := by
  intro hzero
  obtain ⟨hlo, -⟩ := resolution_of_accepted h
  have hpow : 2 ^ 1 ≤ 2 ^ s.resolutionBits.toNat := Nat.pow_le_pow_right (by decide) hlo
  have hscale := toNat_fullScale h
  rw [hzero, UInt16.toNat_zero] at hscale
  omega

/-- The period of the output is the number in the settings. -/
@[simp]
theorem toNat_commandPeriod (s : Settings) : s.commandPeriod.toNat = s.commandPeriodUs.toNat :=
  UInt32.toNat_toUInt64 _

/-- The period of the output fits half a word. -/
theorem toNat_commandPeriod_lt (s : Settings) : s.commandPeriod.toNat < 2 ^ 32 := by
  rw [toNat_commandPeriod]
  exact s.commandPeriodUs.toNat_lt

/-- An accepted period of the output is not zero. -/
theorem commandPeriod_ne_zero (h : s.validate = .ok ()) : s.commandPeriod ≠ 0 := by
  intro hzero
  have hrule := validate_eq_ok_iff.mp h .commandPeriod (by simp [rules])
  have hnumber := s.toNat_commandPeriod
  rw [hzero, UInt64.toNat_zero] at hnumber
  have husec : s.commandPeriodUs = 0 := UInt32.toNat_inj.mp hnumber.symm
  simp [Rule.holds, husec] at hrule

end SignalChain.Settings
