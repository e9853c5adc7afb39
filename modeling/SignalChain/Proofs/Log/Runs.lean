import Mathlib.Data.List.SplitBy
import SignalChain.Journal

/-!
# The runs of a line

A line of the log is words with decimal numbers between them. It falls apart into its runs, the
longest stretches of digits and of other characters, and that is how the numbers are found again:
no number stands next to another one, so every run of digits is a whole number.

Texts whose parts take turns in this way (`Text.TakeTurns`) fall apart into just these parts
(`runs_eq_iff`), and a number is read back from its run (`word?_eq_some_iff`).

## Main definitions and results

* `Text.runs`: the runs of a text.
* `Text.TakeTurns`: parts that are runs, by turns of digits and of other characters.
* `Text.runs_eq_iff`: such parts are the runs of one text only, which is all of them in a row.
* `Text.word?`: the word that a run stands for.
-/

namespace SignalChain.Text

/-- Whether two characters belong to one run: both of them are digits, or neither is. -/
def sameKind (c d : Char) : Bool :=
  c.isDigit == d.isDigit

/-- The longest stretches of digits and of other characters, in order. -/
def runs (s : String) : List String :=
  (s.toList.splitBy sameKind).map String.ofList

/-- A text that can be a run of a line: of digits, or of other characters. -/
structure IsRun (digits : Bool) (r : String) : Prop where
  toList_ne_nil : r.toList ≠ []
  isDigit_eq : ∀ c ∈ r.toList, c.isDigit = digits
  one_line : '\n' ∉ r.toList

/-- Whether a text can be a run. -/
def isRun (digits : Bool) (r : String) : Bool :=
  !r.toList.isEmpty && r.toList.all fun c => c.isDigit == digits && c != '\n'

theorem isRun_iff {digits : Bool} {r : String} : isRun digits r = true ↔ IsRun digits r := by
  simp only [isRun, Bool.and_eq_true, Bool.not_eq_true', List.isEmpty_eq_false_iff,
    List.all_eq_true, beq_iff_eq, bne_iff_ne]
  constructor
  · rintro ⟨hne, hall⟩
    exact ⟨hne, fun c hc => (hall c hc).1, fun hbreak => (hall _ hbreak).2 rfl⟩
  · rintro ⟨hne, hdigits, hline⟩
    exact ⟨hne, fun c hc => ⟨hdigits c hc, fun hbreak => hline (hbreak ▸ hc)⟩⟩

instance (digits : Bool) (r : String) : Decidable (IsRun digits r) :=
  decidable_of_iff (isRun digits r = true) isRun_iff

/-- Runs of the two kinds by turns; the first one is of digits or not, as `digits` says. -/
def TakeTurns : Bool → List String → Prop
  | _, [] => True
  | digits, r :: rs => IsRun digits r ∧ TakeTurns (!digits) rs

/-- The word of so many bits that a text gives in decimal. Only the text that the word is written
as counts, so there are no leading zeros and nothing that is cut off. -/
def word? (bits : Nat) (s : String) : Option (BitVec bits) :=
  (some (.ofNat bits (Nat.ofDigitChars 10 s.toList 0))).filter fun x => toString x.toNat = s

variable {digits : Bool} {r s : String} {rs : List String} {bits : Nat} {x : BitVec bits}

/-! ### Numbers -/

theorem toList_toString (n : Nat) : (toString n).toList = Nat.toDigits 10 n := by
  rw [Nat.toString_eq_ofList_toDigits, String.toList_ofList]

/-- A number is a run of digits. -/
theorem isRun_toString (n : Nat) : IsRun true (toString n) := by
  have hdigits : ∀ c ∈ (toString n).toList, c.isDigit = true := by
    rw [toList_toString]
    exact fun c hc => Nat.isDigit_of_mem_toDigits (by decide) (by decide) hc
  refine ⟨?_, hdigits, fun hbreak => absurd (hdigits _ hbreak) (by decide)⟩
  rw [toList_toString]
  exact Nat.toDigits_ne_nil

/-- Only the text that a word is written as is read as that word. -/
theorem word?_eq_some_iff : word? bits s = some x ↔ s = toString x.toNat := by
  rw [word?, Option.filter_eq_some_iff, decide_eq_true_eq, eq_comm (b := s), Option.some_inj]
  refine ⟨And.right, ?_⟩
  rintro rfl
  rw [toList_toString, Nat.ofDigitChars_ten_toDigits, BitVec.ofNat_toNat, BitVec.setWidth_eq]
  exact ⟨rfl, rfl⟩

/-- A word is read back from what it is written as. -/
theorem word?_toString (x : BitVec bits) : word? bits (toString x.toNat) = some x :=
  word?_eq_some_iff.mpr rfl

/-! ### Falling apart -/

/-- The runs of a text in a row are the text. -/
theorem join_runs (s : String) : String.join (runs s) = s := by
  rw [← String.toList_inj, String.toList_join, runs, List.flatMap_map]
  simp only [String.toList_ofList]
  rw [List.flatMap_id', List.flatten_splitBy]

/-- A run ends where a character of the other kind follows. -/
theorem runs_append (hr : IsRun digits r) (hs : ∀ c ∈ s.toList.head?, c.isDigit = !digits) :
    runs (r ++ s) = r :: runs s := by
  have hwhole : r.toList.IsChain fun c d => sameKind c d = true := by
    refine List.Pairwise.isChain (List.pairwise_of_forall_mem_list fun c hc d hd => ?_)
    rw [sameKind, hr.isDigit_eq c hc, hr.isDigit_eq d hd, beq_self_eq_true]
  have hborder : ∀ c ∈ r.toList.getLast?, ∀ d ∈ s.toList.head?, sameKind c d = false := by
    intro c hc d hd
    rw [sameKind, hr.isDigit_eq c (List.mem_of_mem_getLast? hc), hs d hd]
    cases digits <;> rfl
  rw [runs, String.toList_append, List.splitBy_append hborder,
    List.splitBy_of_isChain hr.toList_ne_nil hwhole, List.map_append, List.map_singleton,
    String.ofList_toList]
  rfl

namespace TakeTurns

/-- The first character is of the kind of the first run. -/
theorem isDigit_head (h : TakeTurns digits rs) :
    ∀ c ∈ (String.join rs).toList.head?, c.isDigit = digits := by
  intro c hc
  cases rs with
  | nil => cases hc
  | cons r rs =>
    obtain ⟨hr, -⟩ := h
    rw [String.join_cons, String.toList_append,
      List.head?_append_of_ne_nil _ hr.toList_ne_nil] at hc
    exact hr.isDigit_eq c (List.mem_of_mem_head? hc)

/-- There is no line break in any of the runs, so there is none in all of them. -/
theorem one_line (h : TakeTurns digits rs) : '\n' ∉ (String.join rs).toList := by
  induction rs generalizing digits with
  | nil => exact List.not_mem_nil
  | cons r rs ih =>
    obtain ⟨hr, hrs⟩ := h
    rw [String.join_cons, String.toList_append, List.mem_append, not_or]
    exact ⟨hr.one_line, ih hrs⟩

/-- Parts that take turns are found again in the text that they make up. -/
theorem runs_join (h : TakeTurns digits rs) : runs (String.join rs) = rs := by
  induction rs generalizing digits with
  | nil => rfl
  | cons r rs ih =>
    obtain ⟨hr, hrs⟩ := h
    rw [String.join_cons, runs_append hr hrs.isDigit_head, ih hrs]

end TakeTurns

/-- Parts that take turns are the runs of the text that they make up, and of no other. -/
theorem runs_eq_iff (h : TakeTurns digits rs) : runs s = rs ↔ s = String.join rs := by
  constructor
  · rintro rfl
    exact (join_runs s).symm
  · rintro rfl
    exact h.runs_join

end SignalChain.Text
