import Mathlib.Data.List.Induction
import SignalChain.Proofs.Json.Scanning

/-!
# Reading numbers

The reader of numbers takes the longest number that it can, so that it matters what follows: a
number in a text is read as such because something stands behind it that goes on with no number
(`Follow`). What may still come of a number depends on nothing but the part that was read last
(`Numeral.Rest`), and one step of the reader is one character of that (`rest_cons_iff`), which gives
both that every number is read to its end (`exists_scan_number`) and that nothing else is
(`number_of_scan`). What was read of the digits in front of the point is their number as long as it
fits sixty-four bits, and the reader knows where it does not (`Numeral.Whole`).
-/

namespace SignalChain.Json

/-- Something stands in front that may follow a value inside brackets. -/
def Follow (cs : List Char) : Prop :=
  ∃ c rest, cs = c :: rest ∧ (isBlank c = true ∨ c = ',' ∨ c = ']' ∨ c = '\x7d')

/-- What may follow a value belongs to no number. -/
theorem not_digit_of_follows {c : Char}
    (h : isBlank c = true ∨ c = ',' ∨ c = ']' ∨ c = '\x7d') :
    c.isDigit = false ∧ c ≠ '.' ∧ c ≠ 'e' ∧ c ≠ 'E' := by
  simp only [isBlank, Bool.or_eq_true, decide_eq_true_eq] at h
  rcases h with ((((rfl | rfl) | rfl) | rfl) | rfl | rfl | rfl) <;> decide

/-! ### Decimal digits -/

/-- A digit is the character of its value. -/
theorem digitChar_of_isDigit {c : Char} (h : c.isDigit = true) :
    c.toNat - '0'.toNat < 10 ∧ Nat.digitChar (c.toNat - '0'.toNat) = c := by
  simp only [Char.isDigit, Bool.and_eq_true, decide_eq_true_eq, ge_iff_le,
    UInt32.le_iff_toNat_le] at h
  have hlo : 48 ≤ c.toNat := h.1
  have hhi : c.toNat ≤ 57 := h.2
  have hlt : c.toNat - '0'.toNat < 10 := by
    show c.toNat - 48 < 10
    omega
  refine ⟨hlt, Char.toNat_inj.mp ?_⟩
  rw [Nat.toNat_digitChar_of_lt_ten hlt]
  show 48 + (c.toNat - 48) = c.toNat
  omega

/-- Nothing but the character of zero has the value zero. -/
theorem value_eq_zero_iff {c : Char} (h : c.isDigit = true) :
    c.toNat - '0'.toNat = 0 ↔ c = '0' := by
  rw [← Nat.digitChar_eq_zero, (digitChar_of_isDigit h).2]

/-- The digits of a number that is not zero do not begin with a zero. -/
theorem toDigits_eq_cons {n : Nat} (h : n ≠ 0) :
    ∃ c ds, Nat.toDigits 10 n = c :: ds ∧ c ≠ '0' := by
  induction n using Nat.strongRecOn with
  | ind n ih =>
    by_cases hlt : n < 10
    · refine ⟨n.digitChar, [], Nat.toDigits_of_lt_base hlt, ?_⟩
      rw [Ne, Nat.digitChar_eq_zero]
      exact h
    · -- the first digit is that of the tenth, which is not zero either
      obtain ⟨c, ds, hds, hc⟩ := ih (n / 10) (by omega) (by omega)
      rw [Nat.toDigits_of_base_le (by decide) (by omega), hds]
      exact ⟨c, ds ++ [(n % 10).digitChar], rfl, hc⟩

/-- Digits that do not begin with a zero are those of the number that they stand for. -/
theorem toDigits_ofDigitChars {c : Char} {ds : List Char} (hc : c ≠ '0')
    (hdigits : ∀ d ∈ c :: ds, d.isDigit = true) :
    Nat.toDigits 10 (Nat.ofDigitChars 10 (c :: ds) 0) = c :: ds := by
  -- the last digit is the one that the division by ten takes off
  induction ds using List.reverseRecOn with
  | nil =>
    obtain ⟨hlt, hchar⟩ := digitChar_of_isDigit (hdigits c (by simp))
    rw [Nat.ofDigitChars_cons, Nat.ofDigitChars_nil, Nat.mul_zero, Nat.zero_add,
      Nat.toDigits_of_lt_base hlt, hchar]
  | append_singleton ds d ih =>
    have hearlier := ih fun x hx => hdigits x (by
      rw [← List.cons_append]
      exact List.mem_append_left _ hx)
    obtain ⟨hlt, hchar⟩ := digitChar_of_isDigit (hdigits d (by simp))
    -- the digits before it stand for a number that is not zero, as their first one is not
    have hpos : 0 < Nat.ofDigitChars 10 (c :: ds) 0 := by
      refine Nat.pos_of_ne_zero fun hzero => hc ?_
      rw [hzero, Nat.toDigits_zero] at hearlier
      exact (List.cons.inj hearlier).1.symm
    rw [← List.cons_append, Nat.ofDigitChars_append, Nat.ofDigitChars_cons, Nat.ofDigitChars_nil,
      ← Nat.toDigits_append_toDigits (by decide) hpos hlt, hearlier,
      Nat.toDigits_of_lt_base hlt, hchar]

namespace Numeral

variable {n n' : Numeral} {c : Char} {cs rest : List Char}

/-! ### The form of numbers -/

/-- What may stand behind the part of a number that was read last, up to the end of the number. -/
def Rest : Phase → List Char → Prop
  | .minus, cs => ∃ whole fraction exponent, cs = Nat.toDigits 10 whole ++ fraction ++ exponent ∧
      Fraction fraction ∧ Exponent exponent
  | .zero, cs => ∃ fraction exponent, cs = fraction ++ exponent ∧ Fraction fraction ∧
      Exponent exponent
  | .digits, cs => ∃ ds fraction exponent, cs = ds ++ fraction ++ exponent ∧
      (∀ d ∈ ds, d.isDigit = true) ∧ Fraction fraction ∧ Exponent exponent
  | .point, cs => ∃ ds exponent, cs = ds ++ exponent ∧ Digits ds ∧ Exponent exponent
  | .fraction, cs => ∃ ds exponent, cs = ds ++ exponent ∧ (∀ d ∈ ds, d.isDigit = true) ∧
      Exponent exponent
  | .mark, cs => Digits cs ∨ ∃ sign ds, cs = sign :: ds ∧ (sign = '+' ∨ sign = '-') ∧ Digits ds
  | .sign, cs => Digits cs
  | .exponent, cs => ∀ d ∈ cs, d.isDigit = true

/-- Digits are one digit and then digits. -/
theorem digits_cons_iff : Digits (c :: cs) ↔ c.isDigit = true ∧ Rest .exponent cs := by
  rw [Digits, List.forall_mem_cons, Rest]
  simp

/-- An exponent begins with its letter. -/
theorem exponent_cons_iff : Exponent (c :: cs) ↔ (c = 'e' ∨ c = 'E') ∧ Rest .mark cs := by
  constructor
  · intro h
    cases h with
    | bare hmark hds => exact ⟨hmark, .inl hds⟩
    | signed hmark hsign hds => exact ⟨hmark, .inr ⟨_, _, rfl, hsign, hds⟩⟩
  · rintro ⟨hmark, hds | ⟨sign, ds, rfl, hsign, hds⟩⟩
    · exact .bare hmark hds
    · exact .signed hmark hsign hds

/-- Behind the letter comes a digit or a sign. -/
theorem rest_mark_cons_iff :
    Rest .mark (c :: cs) ↔
      c.isDigit = true ∧ Rest .exponent cs ∨ (c = '+' ∨ c = '-') ∧ Rest .sign cs := by
  rw [← digits_cons_iff]
  refine or_congr_right ⟨?_, fun ⟨hsign, hds⟩ => ⟨c, cs, rfl, hsign, hds⟩⟩
  rintro ⟨sign, ds, hcs, hsign, hds⟩
  obtain ⟨rfl, rfl⟩ := List.cons.inj hcs
  exact ⟨hsign, hds⟩

/-- Behind a digit after the point comes a digit or the letter of the exponent. -/
theorem rest_fraction_cons_iff :
    Rest .fraction (c :: cs) ↔
      c.isDigit = true ∧ Rest .fraction cs ∨ (c = 'e' ∨ c = 'E') ∧ Rest .mark cs := by
  rw [← exponent_cons_iff]
  constructor
  · rintro ⟨ds, exponent, hcs, hds, hexponent⟩
    cases ds with
    | nil =>
      rw [List.nil_append] at hcs
      exact .inr (hcs ▸ hexponent)
    | cons d ds =>
      obtain ⟨rfl, rfl⟩ := List.cons.inj hcs
      obtain ⟨hd, hds⟩ := List.forall_mem_cons.mp hds
      exact .inl ⟨hd, ds, exponent, rfl, hds, hexponent⟩
  · rintro (⟨hc, ds, exponent, rfl, hds, hexponent⟩ | hexponent)
    · exact ⟨c :: ds, exponent, rfl, List.forall_mem_cons.mpr ⟨hc, hds⟩, hexponent⟩
    · exact ⟨[], c :: cs, rfl, by simp, hexponent⟩

/-- Behind the point comes a digit. -/
theorem rest_point_cons_iff :
    Rest .point (c :: cs) ↔ c.isDigit = true ∧ Rest .fraction cs := by
  constructor
  · rintro ⟨ds, exponent, hcs, ⟨hne, hds⟩, hexponent⟩
    cases ds with
    | nil => exact absurd rfl hne
    | cons d ds =>
      obtain ⟨rfl, rfl⟩ := List.cons.inj hcs
      obtain ⟨hd, hds⟩ := List.forall_mem_cons.mp hds
      exact ⟨hd, ds, exponent, rfl, hds, hexponent⟩
  · rintro ⟨hc, ds, exponent, rfl, hds, hexponent⟩
    exact ⟨c :: ds, exponent, rfl, ⟨by simp, List.forall_mem_cons.mpr ⟨hc, hds⟩⟩, hexponent⟩

/-- Behind a leading zero comes the point or the letter of the exponent, and no digit. -/
theorem rest_zero_cons_iff :
    Rest .zero (c :: cs) ↔
      c = '.' ∧ Rest .point cs ∨ (c = 'e' ∨ c = 'E') ∧ Rest .mark cs := by
  rw [← exponent_cons_iff]
  constructor
  · rintro ⟨fraction, exponent, hcs, hfraction, hexponent⟩
    cases hfraction with
    | absent =>
      rw [List.nil_append] at hcs
      exact .inr (hcs ▸ hexponent)
    | @present ds hds =>
      obtain ⟨rfl, rfl⟩ := List.cons.inj hcs
      exact .inl ⟨rfl, ds, exponent, rfl, hds, hexponent⟩
  · rintro (⟨rfl, ds, exponent, rfl, hds, hexponent⟩ | hexponent)
    · exact ⟨'.' :: ds, exponent, rfl, .present hds, hexponent⟩
    · exact ⟨[], c :: cs, rfl, .absent, hexponent⟩

/-- Behind another digit comes a digit, or what may follow a leading zero. -/
theorem rest_digits_cons_iff :
    Rest .digits (c :: cs) ↔ c.isDigit = true ∧ Rest .digits cs ∨ Rest .zero (c :: cs) := by
  constructor
  · rintro ⟨ds, fraction, exponent, hcs, hds, hfraction, hexponent⟩
    cases ds with
    | nil => exact .inr ⟨fraction, exponent, hcs, hfraction, hexponent⟩
    | cons d ds =>
      obtain ⟨rfl, rfl⟩ := List.cons.inj hcs
      obtain ⟨hd, hds⟩ := List.forall_mem_cons.mp hds
      exact .inl ⟨hd, ds, fraction, exponent, rfl, hds, hfraction, hexponent⟩
  · rintro (⟨hc, ds, fraction, exponent, rfl, hds, hfraction, hexponent⟩ |
      ⟨fraction, exponent, hcs, hfraction, hexponent⟩)
    · exact ⟨c :: ds, fraction, exponent, rfl, List.forall_mem_cons.mpr ⟨hc, hds⟩, hfraction,
        hexponent⟩
    · exact ⟨[], fraction, exponent, hcs, by simp, hfraction, hexponent⟩

/-- What comes first is a zero that stands alone, or another digit. -/
theorem rest_minus_cons_iff :
    Rest .minus (c :: cs) ↔
      c = '0' ∧ Rest .zero cs ∨ c ≠ '0' ∧ c.isDigit = true ∧ Rest .digits cs := by
  constructor
  · rintro ⟨whole, fraction, exponent, hcs, hfraction, hexponent⟩
    by_cases hwhole : whole = 0
    · subst hwhole
      rw [Nat.toDigits_zero] at hcs
      obtain ⟨rfl, rfl⟩ := List.cons.inj hcs
      exact .inl ⟨rfl, fraction, exponent, rfl, hfraction, hexponent⟩
    · -- the digits of a number that is not zero begin with another one
      obtain ⟨d, ds, hds, hd⟩ := toDigits_eq_cons hwhole
      have hdigits : ∀ x ∈ d :: ds, x.isDigit = true := by
        intro x hx
        rw [← hds] at hx
        exact Nat.isDigit_of_mem_toDigits (by decide) (by decide) hx
      rw [hds] at hcs
      obtain ⟨rfl, rfl⟩ := List.cons.inj hcs
      obtain ⟨hdigit, hdigits⟩ := List.forall_mem_cons.mp hdigits
      exact .inr ⟨hd, hdigit, ds, fraction, exponent, rfl, hdigits, hfraction, hexponent⟩
  · rintro (⟨rfl, fraction, exponent, rfl, hfraction, hexponent⟩ |
      ⟨hc, hdigit, ds, fraction, exponent, rfl, hds, hfraction, hexponent⟩)
    · exact ⟨0, fraction, exponent, rfl, hfraction, hexponent⟩
    · refine ⟨Nat.ofDigitChars 10 (c :: ds) 0, fraction, exponent, ?_, hfraction, hexponent⟩
      rw [toDigits_ofDigitChars hc (List.forall_mem_cons.mpr ⟨hdigit, hds⟩)]
      rfl

/-- A number may end where the reader takes it for complete. -/
theorem rest_nil_iff : Rest n.phase [] ↔ n.isComplete = true := by
  unfold isComplete
  cases n.phase with
  | minus =>
    refine iff_of_false ?_ (by decide)
    rintro ⟨whole, fraction, exponent, h, -⟩
    obtain ⟨hleft, -⟩ := List.append_eq_nil_iff.mp h.symm
    exact Nat.toDigits_ne_nil (List.append_eq_nil_iff.mp hleft).1
  | zero => exact iff_of_true ⟨[], [], rfl, .absent, .absent⟩ rfl
  | digits => exact iff_of_true ⟨[], [], [], rfl, by simp, .absent, .absent⟩ rfl
  | point =>
    refine iff_of_false ?_ (by decide)
    rintro ⟨ds, exponent, h, hds, -⟩
    exact hds.1 (List.append_eq_nil_iff.mp h.symm).1
  | fraction => exact iff_of_true ⟨[], [], rfl, by simp, .absent⟩ rfl
  | mark =>
    refine iff_of_false ?_ (by decide)
    rintro (h | ⟨sign, ds, h, -⟩)
    · exact h.1 rfl
    · cases h
  | sign => exact iff_of_false (fun h => h.1 rfl) (by decide)
  | exponent => exact iff_of_true (by simp [Rest]) rfl

/-- Behind a digit in front of the point stands a digit, whether it was collected or dropped. -/
@[simp]
theorem phase_addWhole (n : Numeral) (d : Nat) : (n.addWhole d).phase = .digits := by
  unfold addWhole
  split <;> rfl

/-- Behind a digit after the point stands a digit, whether it was collected or dropped. -/
@[simp]
theorem phase_addFraction (n : Numeral) (d : Nat) : (n.addFraction d).phase = .fraction := by
  unfold addFraction
  split <;> rfl

/-- What may follow the digits in front of the point, as the reader takes it. -/
theorem afterWhole_more_iff :
    (∃ n', n.afterWhole c = .more n' ∧ Rest n'.phase cs) ↔ Rest .zero (c :: cs) := by
  rw [rest_zero_cons_iff]
  unfold afterWhole
  by_cases hpoint : c = '.'
  · subst hpoint
    simp [addPoint]
  · by_cases hmark : c = 'e' ∨ c = 'E'
    · simp [hpoint, hmark, addMark]
    · simp [hpoint, hmark]

/-- One step of the reader is one character of what may still come. -/
theorem rest_cons_iff :
    Rest n.phase (c :: cs) ↔ ∃ n', n.step c = .ok (.more n') ∧ Rest n'.phase cs := by
  by_cases hdigit : c.isDigit = true
  · -- a digit is no point, no letter and no sign
    have hzero : ¬ Rest .zero (c :: cs) := by
      rw [rest_zero_cons_iff]
      rintro (⟨rfl, -⟩ | ⟨rfl | rfl, -⟩) <;> cases hdigit
    have hmark : ¬ (c = 'e' ∨ c = 'E') := by rintro (rfl | rfl) <;> cases hdigit
    have hsign : ¬ (c = '+' ∨ c = '-') := by rintro (rfl | rfl) <;> cases hdigit
    have hvalue : digit? c = some (c.toNat - '0'.toNat) := if_pos hdigit
    cases hphase : n.phase <;> simp only [step, hphase, hvalue]
    case minus =>
      rw [rest_minus_cons_iff]
      by_cases hc : c = '0'
      · simp [hc]
      · rw [if_neg (mt (value_eq_zero_iff hdigit).mp hc)]
        simp [hc, hdigit]
    case zero => simpa using hzero
    case digits => simp [rest_digits_cons_iff, hdigit, hzero]
    case point => simp [rest_point_cons_iff, hdigit]
    case fraction => simp [rest_fraction_cons_iff, hdigit, hmark]
    case mark => simp [rest_mark_cons_iff, hdigit, hsign, addExponent]
    case sign => simp [Rest, digits_cons_iff, hdigit, addExponent]
    case exponent => simp [Rest, hdigit, addExponent]
  · have hvalue : digit? c = none := if_neg hdigit
    have hnot : c ≠ '0' := by
      rintro rfl
      exact hdigit rfl
    cases hphase : n.phase <;> simp only [step, hphase, hvalue]
    case minus => simp [rest_minus_cons_iff, hdigit, hnot]
    case zero => simpa using afterWhole_more_iff.symm
    case digits =>
      rw [rest_digits_cons_iff]
      simpa [hdigit] using afterWhole_more_iff.symm
    case point => simp [rest_point_cons_iff, hdigit]
    case fraction =>
      rw [rest_fraction_cons_iff]
      by_cases hmark : c = 'e' ∨ c = 'E'
      · simp [hdigit, hmark, addMark]
      · simp [hdigit, hmark]
    case mark =>
      rw [rest_mark_cons_iff]
      by_cases hsign : c = '+' ∨ c = '-'
      · simp [hdigit, hsign]
      · simp [hdigit, hsign]
    case sign => simp [Rest, digits_cons_iff, hdigit]
    case exponent => simp [Rest, hdigit]

/-- A number is read to its end, whatever follows it. -/
theorem exists_scan_of_rest (h : Rest n.phase cs) (hfollow : Follow rest) :
    ∃ n', scan step n (cs ++ rest) = some (n', rest) := by
  induction cs generalizing n with
  | nil =>
    -- what follows goes on with no number, and the reader stops in front of it
    obtain ⟨c, rest, rfl, hc⟩ := hfollow
    obtain ⟨hdigit, hpoint, hlower, hupper⟩ := not_digit_of_follows hc
    have hvalue : digit? c = none := if_neg (by simp [hdigit])
    have hcomplete := rest_nil_iff.mp h
    have hstep : n.step c = .ok (.before n) := by
      cases hphase : n.phase <;>
        simp [isComplete, hphase, step, hvalue, afterWhole, hpoint, hlower, hupper] at hcomplete ⊢
    exact ⟨n, scan_before hstep⟩
  | cons c cs ih =>
    obtain ⟨n', hstep, hn'⟩ := rest_cons_iff.mp h
    obtain ⟨last, hlast⟩ := ih hn'
    exact ⟨last, (scan_more hstep).trans hlast⟩

/-- A number keeps its sign, and what is no integer stays none. -/
def Extends (n' n : Numeral) : Prop :=
  n'.negative = n.negative ∧ (n.real = true → n'.real = true)

/-- A digit in front of the point extends a number. -/
theorem extends_addWhole (n : Numeral) (d : Nat) : (n.addWhole d).Extends n := by
  unfold addWhole
  split
  · exact ⟨rfl, id⟩
  · exact ⟨rfl, fun _ => rfl⟩

/-- A digit after the point extends a number. -/
theorem extends_addFraction (n : Numeral) (d : Nat) : (n.addFraction d).Extends n := by
  unfold addFraction
  split <;> exact ⟨rfl, id⟩

/-- Behind the digits in front of the point, either the number ends, or it is no integer. -/
theorem afterWhole_cases (n : Numeral) (c : Char) :
    (∃ n', n.afterWhole c = .more n' ∧ n'.negative = n.negative ∧ n'.real = true) ∨
      n.afterWhole c = .before n := by
  unfold afterWhole
  split
  · exact .inl ⟨_, rfl, rfl, rfl⟩
  · split
    · exact .inl ⟨_, rfl, rfl, rfl⟩
    · exact .inr rfl

/-- A step of the reader goes on with the number, or stops where the number may end. -/
theorem step_cases {outcome : Scan Numeral Numeral} (h : n.step c = .ok outcome) :
    (∃ n', outcome = .more n' ∧ n'.Extends n) ∨ outcome = .before n ∧ n.isComplete = true := by
  have hafter : n.isComplete = true → n.afterWhole c = outcome →
      (∃ n', outcome = .more n' ∧ n'.Extends n) ∨ outcome = .before n ∧ n.isComplete = true := by
    rintro hcomplete rfl
    obtain ⟨n', hn', hnegative, hreal⟩ | hbefore := n.afterWhole_cases c
    · exact .inl ⟨n', hn', hnegative, fun _ => hreal⟩
    · exact .inr ⟨hbefore, hcomplete⟩
  -- a digit is added to the part that it belongs to; only another character can end the number
  cases hphase : n.phase <;> cases hvalue : digit? c <;>
    simp only [step, hphase, hvalue, Except.ok.injEq, reduceCtorEq] at h
  case minus.some d =>
    subst h
    refine .inl ⟨_, rfl, ?_⟩
    split
    · exact ⟨rfl, id⟩
    · exact extends_addWhole n d
  case zero.none => exact hafter (by rw [isComplete, hphase]) h
  case digits.none => exact hafter (by rw [isComplete, hphase]) h
  case digits.some d => exact .inl ⟨_, h.symm, extends_addWhole n d⟩
  case point.some d => exact .inl ⟨_, h.symm, extends_addFraction n d⟩
  case fraction.some d => exact .inl ⟨_, h.symm, extends_addFraction n d⟩
  case fraction.none =>
    subst h
    split
    · exact .inl ⟨_, rfl, rfl, fun _ => rfl⟩
    · exact .inr ⟨rfl, by rw [isComplete, hphase]⟩
  case mark.some d => exact .inl ⟨_, h.symm, rfl, id⟩
  case mark.none =>
    split at h
    · exact .inl ⟨_, (Except.ok.inj h).symm, rfl, id⟩
    · cases h
  case sign.some d => exact .inl ⟨_, h.symm, rfl, id⟩
  case exponent.some d => exact .inl ⟨_, h.symm, rfl, id⟩
  case exponent.none => exact .inr ⟨h.symm, by rw [isComplete, hphase]⟩

/-- Nothing but a number is read to its end. -/
theorem of_scan (h : scan step n cs = some (n', rest)) :
    n'.Extends n ∧ ∃ pre, cs = pre ++ rest ∧ Rest n.phase pre := by
  refine scan_induction
    (P := fun n cs n' rest => n'.Extends n ∧ ∃ pre, cs = pre ++ rest ∧ Rest n.phase pre)
    ?_ ?_ ?_ h
  · rintro n n₁ c cs n' rest hstep ⟨hextends, pre, rfl, hpre⟩
    refine ⟨?_, c :: pre, rfl, rest_cons_iff.mpr ⟨n₁, hstep, hpre⟩⟩
    obtain ⟨n₂, hn₂, hnegative, hreal⟩ | ⟨hbefore, -⟩ := step_cases hstep
    · cases hn₂
      exact ⟨hextends.1.trans hnegative, hextends.2 ∘ hreal⟩
    · cases hbefore
  · intro n c cs n' hstep
    obtain ⟨n₂, hn₂, -⟩ | ⟨hbefore, -⟩ := step_cases hstep
    · cases hn₂
    · cases hbefore
  · intro n c cs n' hstep
    obtain ⟨n₂, hn₂, -⟩ | ⟨hbefore, hcomplete⟩ := step_cases hstep
    · cases hn₂
    · cases hbefore
      exact ⟨⟨rfl, id⟩, [], rfl, rest_nil_iff.mpr hcomplete⟩

/-! ### The value of numbers -/

/-- The digits in front of the point, as far as they have been read, stand for `w`. From the first
digit on that does not fit, none is collected. -/
structure Whole (n : Numeral) (w : Nat) : Prop where
  spilled : n.spilled = n.real
  real : n.real = decide (UInt64.size ≤ w)
  significand : n.real = false → n.significand = w

/-- One more digit in front of the point. -/
theorem Whole.addWhole {w : Nat} (h : n.Whole w) (d : Nat) :
    (n.addWhole d).Whole (10 * w + d) := by
  unfold Numeral.addWhole takes
  rw [h.spilled]
  cases hreal : n.real with
  | true =>
    -- once a digit has been dropped, all the others are
    have hw : UInt64.size ≤ w := by simpa [hreal] using h.real
    refine ⟨rfl, ?_, by simp⟩
    simp only [Bool.not_true, Bool.false_and, Bool.false_eq_true, if_false]
    exact (decide_eq_true (by omega)).symm
  | false =>
    have hsignificand := h.significand hreal
    rw [hsignificand, Nat.mul_comm w 10]
    -- the digit is collected exactly if the number with it fits
    by_cases hfits : 10 * w + d < UInt64.size
    · simp only [hfits, Bool.not_false, decide_true, Bool.and_true, if_true]
      refine ⟨rfl, ?_, fun _ => rfl⟩
      exact (decide_eq_false (by omega)).symm
    · simp only [hfits, decide_false, Bool.and_false, Bool.false_eq_true, if_false]
      refine ⟨rfl, ?_, by simp⟩
      exact (decide_eq_true (by omega)).symm

/-- The digits in front of the point are read as their number. -/
theorem exists_scan_digits {w : Nat} {ds : List Char} (hphase : n.phase = .digits)
    (hwhole : n.Whole w) (hds : ∀ d ∈ ds, d.isDigit = true) :
    ∃ n', n'.phase = .digits ∧ n'.negative = n.negative ∧
      n'.Whole (Nat.ofDigitChars 10 ds w) ∧
      ∀ tail, scan step n (ds ++ tail) = scan step n' tail := by
  induction ds generalizing n w with
  | nil => exact ⟨n, hphase, rfl, hwhole, fun _ => rfl⟩
  | cons d ds ih =>
    obtain ⟨hd, hds⟩ := List.forall_mem_cons.mp hds
    let value := d.toNat - '0'.toNat
    have hstep : n.step d = .ok (.more (n.addWhole value)) := by
      simp only [step, hphase, digit?, if_pos hd, value]
    obtain ⟨n', hphase', hnegative', hwhole', hscan⟩ :=
      ih (phase_addWhole n value) (hwhole.addWhole value) hds
    refine ⟨n', hphase', hnegative'.trans (extends_addWhole n value).1, ?_, fun tail => ?_⟩
    · rw [Nat.ofDigitChars_cons]
      exact hwhole'
    · rw [← hscan]
      exact scan_more hstep

/-- What has been read of a number tells a number of the given sort. -/
structure Tells (n : Numeral) (negative : Bool) (whole : Nat) (fractional : Bool) : Prop where
  negative : n.negative = negative
  real : n.real = (fractional || decide (UInt64.size ≤ whole))
  significand : n.real = false → n.significand = whole

/-- What stands behind the digits in front of the point makes a number no integer. -/
theorem exists_scan_tail {w : Nat} {fraction exponent : List Char}
    (hphase : n.phase = .zero ∨ n.phase = .digits) (hwhole : n.Whole w)
    (hfraction : Fraction fraction) (hexponent : Exponent exponent) (hfollow : Follow rest) :
    ∃ n', scan step n (fraction ++ exponent ++ rest) = some (n', rest) ∧
      n'.Tells n.negative w !(fraction ++ exponent).isEmpty := by
  have hzero : Rest .zero (fraction ++ exponent) :=
    ⟨fraction, exponent, rfl, hfraction, hexponent⟩
  have hrest : Rest n.phase (fraction ++ exponent) := by
    rcases hphase with h | h
    · exact h ▸ hzero
    · exact h ▸ ⟨[], fraction, exponent, rfl, by simp, hfraction, hexponent⟩
  -- neither a point nor a letter is a digit
  have hstep : ∀ c, c.isDigit = false → n.step c = .ok (n.afterWhole c) := by
    intro c hc
    have hvalue : digit? c = none := if_neg (by simp [hc])
    rcases hphase with h | h <;> simp only [step, h, hvalue]
  obtain ⟨n', hscan⟩ := exists_scan_of_rest hrest hfollow
  refine ⟨n', hscan, ?_⟩
  obtain ⟨hextends, -⟩ := of_scan hscan
  cases htail : fraction ++ exponent with
  | nil =>
    -- the number ends here, and stays an integer
    obtain ⟨c, rest, rfl, hc⟩ := hfollow
    obtain ⟨hdigit, hpoint, hlower, hupper⟩ := not_digit_of_follows hc
    have hbefore : n.step c = .ok (.before n) := by
      simp [hstep c hdigit, afterWhole, hpoint, hlower, hupper]
    rw [htail, List.nil_append, scan_before hbefore] at hscan
    cases hscan
    exact ⟨rfl, hwhole.real, hwhole.significand⟩
  | cons c tail =>
    -- the point or the letter makes it none, whatever is read behind it
    rw [htail] at hzero hscan
    have hdigit : c.isDigit = false := by
      obtain ⟨rfl, -⟩ | ⟨rfl | rfl, -⟩ := rest_zero_cons_iff.mp hzero <;> rfl
    obtain ⟨n₁, hn₁, -⟩ := afterWhole_more_iff.mpr hzero
    obtain ⟨n₂, hn₂, hnegative, hreal⟩ | hbefore := n.afterWhole_cases c
    · obtain ⟨hextends₂, -⟩ := of_scan ((scan_more (by rw [hstep c hdigit, hn₂])).symm.trans hscan)
      have hreal' : n'.real = true := hextends₂.2 hreal
      exact ⟨hextends.1, by rw [hreal']; rfl, by simp [hreal']⟩
    · rw [hn₁] at hbefore
      cases hbefore

/-- The sign and the first digit of a number have been read. -/
structure Begun (n : Numeral) (negative : Bool) (c : Char) : Prop where
  phase : n.phase = if c = '0' then .zero else .digits
  negative : n.negative = negative
  whole : n.Whole (c.toNat - '0'.toNat)

/-- Nothing of the number in front of the point has been read. -/
theorem Whole.fresh (phase : Phase) (negative : Bool) :
    Whole { phase := phase, negative := negative } 0 :=
  ⟨rfl, rfl, fun _ => rfl⟩

/-- A number may begin with a digit. -/
theorem exists_begun_start (hdigit : c.isDigit = true) :
    ∃ n, start? c = some n ∧ n.Begun false c := by
  have hminus : c ≠ '-' := by
    rintro rfl
    cases hdigit
  unfold start?
  rw [if_neg hminus]
  by_cases hc : c = '0'
  · rw [if_pos hc]
    refine ⟨_, rfl, (if_pos hc).symm, rfl, ?_⟩
    rw [(value_eq_zero_iff hdigit).mpr hc]
    exact .fresh .zero false
  · have hvalue : digit? c = some (c.toNat - '0'.toNat) := if_pos hdigit
    rw [if_neg hc, hvalue]
    refine ⟨_, rfl, (if_neg hc).symm, rfl, rfl, ?_, fun _ => rfl⟩
    -- one digit alone fits
    have hlt := (digitChar_of_isDigit hdigit).1
    refine (decide_eq_false fun hle => ?_).symm
    exact absurd (Nat.lt_of_le_of_lt hle hlt) (by decide : ¬ UInt64.size < 10)

/-- A number may begin with a minus and a digit. -/
theorem exists_begun_step (hdigit : c.isDigit = true) :
    ∃ n, step { phase := .minus, negative := true } c = .ok (.more n) ∧ n.Begun true c := by
  have hvalue : digit? c = some (c.toNat - '0'.toNat) := if_pos hdigit
  simp only [step, hvalue]
  by_cases hc : c = '0'
  · have hzero := (value_eq_zero_iff hdigit).mpr hc
    rw [if_pos hzero]
    refine ⟨_, rfl, (if_pos hc).symm, rfl, ?_⟩
    rw [hzero]
    exact .fresh .zero true
  · rw [if_neg (mt (value_eq_zero_iff hdigit).mp hc)]
    refine ⟨_, rfl, ?_, (extends_addWhole _ _).1, ?_⟩
    · rw [phase_addWhole, if_neg hc]
    · simpa using (Whole.fresh .minus true).addWhole (c.toNat - '0'.toNat)

/-- A number in a text is read as such, once its first digit has been read. -/
theorem Begun.exists_scan {negative : Bool} {whole : Nat} {ds fraction exponent : List Char}
    (h : n.Begun negative c) (hdigits : Nat.toDigits 10 whole = c :: ds)
    (hfraction : Fraction fraction) (hexponent : Exponent exponent) (hfollow : Follow rest) :
    ∃ n', scan step n (ds ++ (fraction ++ exponent ++ rest)) = some (n', rest) ∧
      n'.Tells negative whole !(fraction ++ exponent).isEmpty := by
  obtain ⟨hphase, rfl, hwhole⟩ := h
  by_cases hc : c = '0'
  · -- nothing but the number zero has a zero in front
    have hzero : whole = 0 := by
      by_contra hne
      obtain ⟨d, es, hes, hd⟩ := toDigits_eq_cons hne
      rw [hdigits] at hes
      exact hd ((List.cons.inj hes).1.symm.trans hc)
    subst hzero hc
    rw [Nat.toDigits_zero] at hdigits
    obtain ⟨-, rfl⟩ := List.cons.inj hdigits
    exact exists_scan_tail (.inl hphase) hwhole hfraction hexponent hfollow
  · rw [if_neg hc] at hphase
    have hall : ∀ d ∈ c :: ds, d.isDigit = true := by
      intro d hd
      rw [← hdigits] at hd
      exact Nat.isDigit_of_mem_toDigits (by decide) (by decide) hd
    obtain ⟨n', hphase', hnegative', hwhole', hscan⟩ :=
      exists_scan_digits hphase hwhole (List.forall_mem_cons.mp hall).2
    have hvalue : Nat.ofDigitChars 10 ds (c.toNat - '0'.toNat) = whole := by
      have hread : Nat.ofDigitChars 10 (Nat.toDigits 10 whole) 0 = whole :=
        Nat.ofDigitChars_ten_toDigits
      rw [hdigits, Nat.ofDigitChars_cons, Nat.mul_zero, Nat.zero_add] at hread
      exact hread
    rw [hvalue] at hwhole'
    rw [hscan, ← hnegative']
    exact exists_scan_tail (.inr hphase') hwhole' hfraction hexponent hfollow

/-- A number in a text is read as such. -/
theorem exists_scan_number {negative : Bool} {whole : Nat} {fraction exponent : List Char}
    (hfraction : Fraction fraction) (hexponent : Exponent exponent) (hfollow : Follow rest) :
    ∃ c cs n n', sign negative ++ Nat.toDigits 10 whole ++ fraction ++ exponent ++ rest = c :: cs ∧
      start? c = some n ∧ scan step n cs = some (n', rest) ∧
      n'.Tells negative whole !(fraction ++ exponent).isEmpty := by
  have hne : Nat.toDigits 10 whole ≠ [] := Nat.toDigits_ne_nil
  obtain ⟨c, ds, hdigits⟩ := List.exists_cons_of_ne_nil hne
  have hdigit : c.isDigit = true :=
    Nat.isDigit_of_mem_toDigits (by decide) (by decide) (hdigits ▸ List.mem_cons_self)
  have htext : sign negative ++ Nat.toDigits 10 whole ++ fraction ++ exponent ++ rest =
      sign negative ++ c :: (ds ++ (fraction ++ exponent ++ rest)) := by
    rw [hdigits]
    simp
  rw [htext]
  cases negative with
  | true =>
    obtain ⟨n, hstep, hbegun⟩ := exists_begun_step hdigit
    obtain ⟨n', hscan, htells⟩ := hbegun.exists_scan hdigits hfraction hexponent hfollow
    exact ⟨'-', _, _, n', rfl, rfl, (scan_more hstep).trans hscan, htells⟩
  | false =>
    obtain ⟨n, hstart, hbegun⟩ := exists_begun_start hdigit
    obtain ⟨n', hscan, htells⟩ := hbegun.exists_scan hdigits hfraction hexponent hfollow
    exact ⟨c, _, n, n', rfl, hstart, hscan, htells⟩

/-- What a number begins with and what may come behind it are a number. -/
theorem exists_eq_of_start? {pre : List Char} (hstart : start? c = some n)
    (h : Rest n.phase pre) :
    ∃ negative whole fraction exponent,
      c :: pre = sign negative ++ Nat.toDigits 10 whole ++ fraction ++ exponent ∧
      Fraction fraction ∧ Exponent exponent := by
  unfold start? at hstart
  split at hstart
  · next hminus =>
    subst hminus
    cases hstart
    obtain ⟨whole, fraction, exponent, rfl, hfraction, hexponent⟩ := h
    exact ⟨true, whole, fraction, exponent, by simp [sign], hfraction, hexponent⟩
  · -- without a minus, what comes first is what may follow one
    have hrest : Rest .minus (c :: pre) := by
      rw [rest_minus_cons_iff]
      split at hstart
      · next hc =>
        cases hstart
        exact .inl ⟨hc, h⟩
      · next hc =>
        obtain ⟨d, hd, rfl⟩ := Option.map_eq_some_iff.mp hstart
        have hdigit : c.isDigit = true := by
          by_contra hnot
          rw [digit?, if_neg hnot] at hd
          cases hd
        exact .inr ⟨hc, hdigit, h⟩
    obtain ⟨whole, fraction, exponent, htext, hfraction, hexponent⟩ := hrest
    exact ⟨false, whole, fraction, exponent, htext, hfraction, hexponent⟩

/-- Nothing but a number is read as one. -/
theorem number_of_scan (hstart : start? c = some n) (h : scan step n cs = some (n', rest)) :
    ∃ v, Spelled (.value v) (c :: cs) rest := by
  obtain ⟨-, pre, rfl, hpre⟩ := of_scan h
  obtain ⟨negative, whole, fraction, exponent, htext, hfraction, hexponent⟩ :=
    exists_eq_of_start? hstart hpre
  refine ⟨.number negative whole !(fraction ++ exponent).isEmpty, ?_⟩
  rw [← List.cons_append, htext]
  exact .number hfraction hexponent

end Numeral

end SignalChain.Json
