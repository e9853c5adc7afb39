import Mathlib.Algebra.Group.Nat.Defs
import SignalChain.Proofs.Json.Numerals

/-!
# Reading values without parts

Words, numbers and strings of a text, read strictly where a field wants them and loosely where
nobody does. What a field makes of a value depends on the value alone (`Kind.datum?`), however the
value is written: a number has to be whole, without a minus, and small enough, and nothing else is
taken for one.
-/

namespace SignalChain.Json

/-- The bits of the numbers that a field takes. -/
def Kind.width : Kind → Nat
  | natural bits _ => bits
  | boolean => 0

/-- What a field makes of a value. -/
def Kind.datum? : Kind → Value → Option Datum
  | natural bits _, .number false whole false =>
    if whole < Nat.pow 2 bits then some (.natural whole) else none
  | boolean, .boolean b => some (.boolean b)
  | _, _ => none

/-- A field takes a number that is written without a minus, a point and an exponent, and that has
no more bits than the field. -/
theorem Kind.datum?_natural_iff {bits : Nat} {name : String} {v : Value} {d : Datum} :
    (natural bits name).datum? v = some d ↔
      ∃ n < 2 ^ bits, v = .number false n false ∧ d = .natural n := by
  constructor
  · intro h
    unfold datum? at h
    split at h
    · next heq =>
      cases heq
      split at h
      · next hlt => exact ⟨_, hlt, rfl, (Option.some.inj h).symm⟩
      · cases h
    · next heq => cases heq
    · cases h
  · rintro ⟨n, hlt, rfl, rfl⟩
    exact if_pos hlt

/-- No field takes a value in brackets. -/
theorem Kind.datum?_bracket (k : Kind) (b : Bracket) : k.datum? b.value = none := by
  cases k <;> cases b <;> rfl

/-- No field takes a floating-point number. -/
theorem Kind.accept_floating (k : Kind) (negative : Bool) (x : Decimal.Binary) :
    (k.accept (.floating negative x)).toOption = none := by
  cases k <;> rfl

/-- A floating-point number is read as one, if it is not out of range. -/
theorem Numeral.floating_eq_ok {n : Numeral} {found : Found} (h : n.floating = .ok found) :
    ∃ x, found = .floating n.negative x := by
  unfold floating at h
  dsimp only at h
  split at h
  · split at h
    · exact ⟨_, (Except.ok.inj h).symm⟩
    · cases h
  · generalize Decimal.Binary.ofDecimal? _ _ = x at h
    cases x with
    | none => cases h
    | some x => exact ⟨x, (Except.ok.inj h).symm⟩

/-- A field takes a whole number without a minus if it is small enough. -/
theorem Kind.accept_integer (k : Kind) (whole : Nat) :
    (k.accept (.integer whole)).toOption = k.datum? (.number false whole false) := by
  cases k with
  | boolean => rfl
  | natural bits name =>
    show (ite _ _ _ : Except Fault Datum).toOption = ite _ _ _
    by_cases hlt : whole < Nat.pow 2 bits
    · rw [if_pos ⟨by omega, by omega⟩, if_pos hlt]
      rfl
    · rw [if_neg (by omega), if_neg hlt]
      rfl

/-- No field takes a number below zero. -/
theorem Kind.accept_neg (k : Kind) {whole : Nat} (h : 0 < whole) :
    (k.accept (.integer (-whole))).toOption = none := by
  cases k with
  | boolean => rfl
  | natural bits name =>
    have hneg : ¬ (0 ≤ -(whole : Int) ∧ -(whole : Int) < (Nat.pow 2 bits : Nat)) := by omega
    show (ite _ _ _ : Except Fault Datum).toOption = none
    rw [if_neg hneg]
    rfl

/-- Neither with a minus nor with a point nor with too many digits is a number one for a field. -/
theorem Kind.datum?_number_eq_none {k : Kind} {negative fractional : Bool} {whole : Nat}
    (hk : k.width ≤ 64)
    (h : negative = true ∨ (fractional || decide (UInt64.size ≤ whole)) = true) :
    k.datum? (.number negative whole fractional) = none := by
  refine Option.eq_none_iff_forall_ne_some.mpr fun d hd => ?_
  cases k with
  | boolean => cases hd
  | natural bits name =>
    obtain ⟨n, hlt, hv, -⟩ := datum?_natural_iff.mp hd
    cases hv
    have hsize : UInt64.size ≤ whole := by simpa using h
    have hbits : 2 ^ bits ≤ UInt64.size := Nat.pow_le_pow_right (by decide) hk
    omega

/-- A field makes of a number that was read what it makes of the number. -/
theorem Kind.accept_found {k : Kind} {n : Numeral} {negative fractional : Bool} {whole : Nat}
    (hk : k.width ≤ 64) (h : n.Tells negative whole fractional) :
    (n.found.toOption.bind fun found => (k.accept found).toOption) =
      k.datum? (.number negative whole fractional) := by
  -- in whatever way a number has become a floating-point number, no field takes it
  have hfloating : (n.floating.toOption.bind fun found => (k.accept found).toOption) = none := by
    cases hfound : n.floating with
    | error fault => rfl
    | ok found =>
      obtain ⟨x, rfl⟩ := Numeral.floating_eq_ok hfound
      exact k.accept_floating n.negative x
  unfold Numeral.found
  cases hreal : n.real with
  | true =>
    have hsort := h.real.symm.trans hreal
    rw [if_pos rfl, hfloating, datum?_number_eq_none hk (.inr hsort)]
  | false =>
    obtain ⟨rfl, -⟩ := Bool.or_eq_false_iff.mp (h.real.symm.trans hreal)
    rw [if_neg (by decide), h.significand hreal, h.negative]
    cases negative with
    | true =>
      rw [if_pos rfl, datum?_number_eq_none hk (.inl rfl)]
      -- a negative number that does not fit its sign is read as a floating-point number
      split
      · next hfits => exact k.accept_neg hfits.1
      · exact hfloating
    | false =>
      rw [if_neg (by decide)]
      exact k.accept_integer whole

/-- A value that does not stand in brackets. -/
def Value.IsScalar (v : Value) : Prop :=
  ∀ b : Bracket, v ≠ b.value

/-- A word does not stand in brackets. -/
theorem Value.isScalar_of_word {v : Value} {w : List Char} (h : v.word? = some w) : v.IsScalar := by
  rintro b rfl
  cases b <;> cases h

/-- A number does not stand in brackets. -/
theorem Value.isScalar_number (negative : Bool) (whole : Nat) (fractional : Bool) :
    (number negative whole fractional).IsScalar := by
  intro b
  cases b <;> exact Value.noConfusion

/-- A string does not stand in brackets. -/
theorem Value.isScalar_text : text.IsScalar := by
  intro b
  cases b <;> exact Value.noConfusion

/-- A value that is no scalar stands in brackets. -/
theorem Value.exists_bracket {v : Value} (h : ¬ v.IsScalar) : ∃ b : Bracket, v = b.value := by
  by_contra hne
  exact h fun b hb => hne ⟨b, hb⟩

/-- A value in brackets begins with the bracket that opens. -/
theorem Spelled.exists_opening {v : Value} {b : Bracket} {cs rest : List Char}
    (h : Spelled (.value v) cs rest) (hv : v = b.value) : ∃ cs', cs = b.opening :: cs' := by
  have hvalue : ∀ b' : Bracket, b'.value = b.value → b' = b := by
    intro b' hb
    cases b <;> cases b' <;> first | rfl | cases hb
  cases h with
  | word hw => exact absurd hv (Value.isScalar_of_word hw b)
  | number _ _ => exact absurd hv (Value.isScalar_number _ _ _ b)
  | text _ => exact absurd hv (Value.isScalar_text b)
  | empty _ => exact ⟨_, by rw [hvalue _ hv]⟩
  | filled _ _ => exact ⟨_, by rw [hvalue _ hv]⟩

/-- What a strict reader takes for a string, a loose one does. -/
theorem Spells.exists_loose {r : Rigour} {t cs rest : List Char} (h : Spells r t cs rest) :
    ∃ u, Spells .loose u cs rest := by
  induction h with
  | close => exact ⟨[], .close⟩
  | plain hplain _ ih =>
    obtain ⟨u, hu⟩ := ih
    exact ⟨_, .plain hplain hu⟩
  | short hescape _ ih =>
    obtain ⟨u, hu⟩ := ih
    exact ⟨_, .short hescape hu⟩
  | form _ hcode _ ih =>
    obtain ⟨u, hu⟩ := ih
    exact ⟨u, .form rfl hcode hu⟩
  | code _ hcode _ _ _ ih =>
    obtain ⟨u, hu⟩ := ih
    exact ⟨u, .form rfl hcode hu⟩
  | pair _ hds hes _ _ _ ih =>
    obtain ⟨u, hu⟩ := ih
    exact ⟨u, .form rfl hds (.form rfl hes hu)⟩

namespace Scalar

variable {r : Rigour} {s : Scalar} {found : Found} {c : Char} {cs rest : List Char}

/-- A word is read letter by letter. -/
theorem scan_word_iff {w : List Char} {f : Found} (hw : w ≠ []) :
    scan (step r) (.word w found) cs = some (f, rest) ↔ f = found ∧ cs = w ++ rest := by
  induction w generalizing cs with
  | nil => exact absurd rfl hw
  | cons d w ih =>
    cases cs with
    | nil => simp
    | cons c cs =>
      by_cases hc : c = d
      · subst hc
        by_cases hlast : w = []
        · subst hlast
          have hstep : step r (.word [c] found) c = .ok (.done found) := by simp [step]
          rw [scan_done hstep]
          simp [eq_comm]
        · have hstep : step r (.word (c :: w) found) c = .ok (.more (.word w found)) := by
            simp [step, hlast]
          rw [scan_more hstep, ih hlast]
          simp
      · have hstep : step r (.word (d :: w) found) c = .error .expectedWord := by
          simp [step, hc]
        rw [scan_error hstep]
        simp [hc]

/-- A number is read by the reader of numbers. -/
theorem scan_number (n : Numeral) (cs : List Char) :
    scan (step r) (.number n) cs =
      (scan Numeral.step n cs).bind fun p => (numberFound r p.1).toOption.map (·, p.2) := by
  refine eq_bind_scan (H := fun n cs => scan (step r) (.number n) cs)
    (K := fun n rest => (numberFound r n).toOption.map (·, rest)) (fun _ => rfl) ?_ n cs
  intro n c cs
  simp only [scan, step]
  cases n.step c with
  | error fault => rfl
  | ok outcome =>
    cases outcome with
    | more n => rfl
    | done n => cases hfound : numberFound r n <;> simp [hfound] <;> rfl
    | before n => cases hfound : numberFound r n <;> simp [hfound] <;> rfl

/-- A string is read by the reader of strings. -/
theorem scan_text (q : Quoted) (cs : List Char) :
    scan (step r) (.text q) cs =
      (scan Quoted.step q cs).bind fun p => some (.text p.1, p.2) := by
  refine eq_bind_scan (H := fun q cs => scan (step r) (.text q) cs)
    (K := fun t rest => some (.text t, rest)) (fun _ => rfl) ?_ q cs
  intro q c cs
  simp only [scan, step]
  cases q.step c with
  | error fault => rfl
  | ok outcome =>
    cases outcome with
    | more q => rfl
    | done t => rfl
    | before t => rfl

/-- What values without parts begin with neither stands between values nor is a bracket. -/
theorem not_mark_of_start? (h : start? r c = some s) :
    isBlank c = false ∧ (∀ b : Bracket, c ≠ b.opening ∧ c ≠ b.closing) := by
  have hdigit : ∀ n, Numeral.start? c = some n → c = '-' ∨ c.isDigit = true := by
    intro n hn
    unfold Numeral.start? at hn
    split at hn
    · next hminus => exact .inl hminus
    · split at hn
      · next hzero => exact .inr (hzero ▸ rfl)
      · obtain ⟨d, hd, -⟩ := Option.map_eq_some_iff.mp hn
        unfold digit? at hd
        split at hd
        · next hdigit => exact .inr hdigit
        · cases hd
  -- of all these characters none begins a value
  have hmarks : c ∈ [' ', '\n', '\t', '\r', '[', ']', '\x7b', '\x7d'] → False := by
    intro hc
    have hnone : start? r c = none := by
      simp only [List.mem_cons, List.not_mem_nil, or_false] at hc
      rcases hc with rfl | rfl | rfl | rfl | rfl | rfl | rfl | rfl <;> rfl
    rw [hnone] at h
    cases h
  refine ⟨?_, fun b => ⟨?_, ?_⟩⟩
  · by_contra hblank
    rw [Bool.not_eq_false] at hblank
    simp only [isBlank, Bool.or_eq_true, decide_eq_true_eq] at hblank
    exact hmarks (by rcases hblank with ((rfl | rfl) | rfl) | rfl <;> decide)
  · rintro rfl
    exact hmarks (by cases b <;> decide)
  · rintro rfl
    exact hmarks (by cases b <;> decide)

/-- What begins a number begins no other value. -/
theorem start?_of_number {n : Numeral} (h : Numeral.start? c = some n) :
    start? r c = some (.number n) := by
  -- the letters of words and the quote are looked for first, and none of them begins a number
  have hother : c ∉ ['n', 't', 'f', '"'] := by
    intro hc
    have hnone : Numeral.start? c = none := by
      simp only [List.mem_cons, List.not_mem_nil, or_false] at hc
      rcases hc with rfl | rfl | rfl | rfl <;> rfl
    rw [hnone] at h
    cases h
  simp only [List.mem_cons, List.not_mem_nil, or_false, not_or] at hother
  obtain ⟨hn, ht, hf, hquote⟩ := hother
  simp only [start?, if_neg hn, if_neg ht, if_neg hf, if_neg hquote, h, Option.map_some]

/-- The first letter of a word begins the word. -/
theorem exists_word {v : Value} {w : List Char} (h : v.word? = some w) :
    ∃ c d ds found, w = c :: d :: ds ∧ start? r c = some (.word (d :: ds) found) ∧
      ∀ k : Kind, (k.accept found).toOption = k.datum? v := by
  cases v with
  | null =>
    cases h
    exact ⟨'n', 'u', _, .null, rfl, rfl, fun k => by cases k <;> rfl⟩
  | boolean b =>
    cases h
    cases b with
    | true => exact ⟨'t', 'r', _, .boolean true, rfl, rfl, fun k => by cases k <;> rfl⟩
    | false => exact ⟨'f', 'a', _, .boolean false, rfl, rfl, fun k => by cases k <;> rfl⟩
  | number | text | list | object => cases h

/-- A value without parts is read strictly, for what a field makes of it. -/
theorem exists_scan_strict {v : Value} (h : Spelled (.value v) cs rest) (hv : v.IsScalar)
    (hfollow : Follow rest) :
    ∃ c cs' s, cs = c :: cs' ∧ start? .strict c = some s ∧ ∀ k : Kind, k.width ≤ 64 →
      ((scan (step .strict) s cs').bind fun p => (k.accept p.1).toOption.map (·, p.2)) =
        (k.datum? v).map (·, rest) := by
  cases h with
  | @word v w rest hw =>
    obtain ⟨c, d, ds, found, rfl, hstart, haccept⟩ := exists_word hw
    refine ⟨c, d :: ds ++ rest, _, rfl, hstart, fun k _ => ?_⟩
    rw [(scan_word_iff (by simp)).mpr ⟨rfl, rfl⟩, Option.bind_some, haccept]
  | number hfraction hexponent =>
    obtain ⟨c, cs', n, n', htext, hstart, hscan, htells⟩ :=
      Numeral.exists_scan_number hfraction hexponent hfollow
    refine ⟨c, cs', .number n, htext, start?_of_number hstart, fun k hk => ?_⟩
    rw [scan_number, hscan, Option.bind_some, ← Kind.accept_found hk htells]
    show ((n'.found.toOption.map _).bind _) = _
    cases n'.found <;> rfl
  | @text t cs rest hspells =>
    refine ⟨'"', cs, .text { rigour := .strict }, rfl, rfl, fun k _ => ?_⟩
    -- whether the reader comes to the end of it or not, no field takes a string
    have hrefuse : ∀ t, (k.accept (.text t)).toOption = none := fun t => by cases k <;> rfl
    have hdatum : k.datum? .text = none := by cases k <;> rfl
    rw [scan_text, hdatum]
    cases scan Quoted.step { rigour := .strict } cs with
    | none => rfl
    | some p => simp [hrefuse]
  | empty hclose => exact absurd rfl (hv _)
  | filled hitem hafter => exact absurd rfl (hv _)

/-- A value without parts is read to its end where nobody wants it. -/
theorem exists_scan_loose {v : Value} (h : Spelled (.value v) cs rest) (hv : v.IsScalar)
    (hfollow : Follow rest) :
    ∃ c cs' s found, cs = c :: cs' ∧ start? .loose c = some s ∧
      scan (step .loose) s cs' = some (found, rest) := by
  cases h with
  | @word v w rest hw =>
    obtain ⟨c, d, ds, found, rfl, hstart, -⟩ := exists_word hw
    exact ⟨c, d :: ds ++ rest, _, found, rfl, hstart, (scan_word_iff (by simp)).mpr ⟨rfl, rfl⟩⟩
  | number hfraction hexponent =>
    obtain ⟨c, cs', n, n', htext, hstart, hscan, -⟩ :=
      Numeral.exists_scan_number hfraction hexponent hfollow
    refine ⟨c, cs', .number n, .null, htext, start?_of_number hstart, ?_⟩
    rw [scan_number, hscan]
    rfl
  | @text t cs rest hspells =>
    refine ⟨'"', cs, .text { rigour := .loose }, .text t, rfl, rfl, ?_⟩
    rw [scan_text, Quoted.scan_quoted_of_spells hspells []]
    rfl
  | empty hclose => exact absurd rfl (hv _)
  | filled hitem hafter => exact absurd rfl (hv _)

/-- Nothing but a value is read as one. -/
theorem value_of_scan (hstart : start? r c = some s)
    (h : scan (step r) s cs = some (found, rest)) : ∃ v, Spelled (.value v) (c :: cs) rest := by
  have hword : ∀ {v : Value} {w : List Char} {f : Found}, v.word? = some (c :: w) → w ≠ [] →
      s = .word w f → ∃ v, Spelled (.value v) (c :: cs) rest := by
    rintro v w f hv hw rfl
    obtain ⟨-, rfl⟩ := (scan_word_iff hw).mp h
    exact ⟨v, .word hv⟩
  unfold start? at hstart
  split at hstart
  · next hc =>
    subst hc
    exact hword (v := .null) rfl (by simp) (Option.some.inj hstart).symm
  split at hstart
  · next hc =>
    subst hc
    exact hword (v := .boolean true) rfl (by simp) (Option.some.inj hstart).symm
  split at hstart
  · next hc =>
    subst hc
    exact hword (v := .boolean false) rfl (by simp) (Option.some.inj hstart).symm
  split at hstart
  · next hc =>
    subst hc
    cases hstart
    rw [scan_text] at h
    obtain ⟨⟨t, left⟩, hscan, hfound⟩ := Option.bind_eq_some_iff.mp h
    cases hfound
    obtain ⟨u, hu⟩ := (Quoted.spells_of_scan hscan).exists_loose
    exact ⟨.text, .text hu⟩
  · obtain ⟨n, hn, rfl⟩ := Option.map_eq_some_iff.mp hstart
    rw [scan_number] at h
    obtain ⟨⟨n', left⟩, hscan, hfound⟩ := Option.bind_eq_some_iff.mp h
    obtain ⟨f, -, hleft⟩ := Option.map_eq_some_iff.mp hfound
    cases hleft
    exact Numeral.number_of_scan hn hscan

end Scalar

end SignalChain.Json
