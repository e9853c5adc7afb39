import SignalChain.Proofs.Json.Accepting

/-!
# Texts that are cut off

A text of an object that breaks off before its end is refused for that, wherever it does, and for
nothing else (`exists_read_cut`). The proof goes along the text, as reading does, with one lemma for
each kind of phrase: wherever the text breaks off inside the phrase, the reader stands where no text
may end (`Unfinished`). Mostly the place alone tells so. Inside of a number it does not, and there
the number that was read so far counts: it is no greater than the whole one, so that a field that
takes the whole one would take it too (`Kind.exists_accept_of_scan`).

This is about objects whose members all belong to fields. What nobody wants is read loosely, and a
number that breaks off in there behind its minus is not too short but no number.

Behind the end of a text that is read, blanks change nothing, and anything else is trailing
(`read_append_blank`, `read_append_trailing`).
-/

namespace SignalChain.Json

/-- What stands in front of the rest is blanks. -/
theorem Ws.exists_blanks {cs rest : List Char} (h : Ws cs rest) :
    ∃ blanks, cs = blanks ++ rest ∧ ∀ c ∈ blanks, isBlank c = true := by
  induction h with
  | nil => exact ⟨[], rfl, List.forall_mem_nil _⟩
  | @cons c _ _ hblank _ ih =>
    obtain ⟨blanks, rfl, hblanks⟩ := ih
    exact ⟨c :: blanks, rfl, List.forall_mem_cons.mpr ⟨hblank, hblanks⟩⟩

namespace Numeral

variable {n n' : Numeral} {c : Char} {cs rest : List Char}

/-- One more digit in front of the point makes the digits no smaller a number. -/
theorem significand_le_addWhole (n : Numeral) (d : Nat) :
    n.significand ≤ (n.addWhole d).significand := by
  unfold addWhole
  split
  · show n.significand ≤ n.significand * 10 + d
    omega
  · exact Nat.le_refl _

/-- One more digit after the point makes the digits no smaller a number. -/
theorem significand_le_addFraction (n : Numeral) (d : Nat) :
    n.significand ≤ (n.addFraction d).significand := by
  unfold addFraction
  split
  · show n.significand ≤ n.significand * 10 + d
    omega
  · exact Nat.le_refl _

/-- One more character makes the digits no smaller a number. -/
theorem significand_le_of_step (h : n.step c = .ok (.more n')) :
    n.significand ≤ n'.significand := by
  have hafter : n.afterWhole c = .more n' → n.significand ≤ n'.significand := by
    intro hmore
    unfold afterWhole at hmore
    split at hmore
    · cases hmore
      exact Nat.le_refl _
    · split at hmore <;> cases hmore
      exact Nat.le_refl _
  -- a digit is collected or dropped, and any other character leaves the digits as they are
  cases hphase : n.phase <;> cases hvalue : digit? c <;>
    simp only [step, hphase, hvalue, Except.ok.injEq, Scan.more.injEq, reduceCtorEq] at h
  case minus.some d =>
    subst h
    split
    · exact Nat.le_refl _
    · exact significand_le_addWhole n d
  case zero.none => exact hafter h
  case digits.none => exact hafter h
  case digits.some d => exact h ▸ significand_le_addWhole n d
  case point.some d => exact h ▸ significand_le_addFraction n d
  case fraction.some d => exact h ▸ significand_le_addFraction n d
  case fraction.none =>
    split at h <;> cases h
    exact Nat.le_refl _
  case mark.some d => exact h ▸ Nat.le_refl _
  case mark.none =>
    split at h <;> cases h
    exact Nat.le_refl _
  case sign.some d => exact h ▸ Nat.le_refl _
  case exponent.some d => exact h ▸ Nat.le_refl _

/-- The digits that were read are no smaller a number at the end than before. -/
theorem significand_le_of_scan (h : scan step n cs = some (n', rest)) :
    n.significand ≤ n'.significand := by
  refine scan_induction (P := fun n _ n' _ => n.significand ≤ n'.significand) ?_ ?_ ?_ h
  · intro n n₁ c cs n' rest hstep ih
    exact Nat.le_trans (significand_le_of_step hstep) ih
  · intro n c cs n' hstep
    obtain ⟨_, houtcome, -⟩ | ⟨houtcome, -⟩ := step_cases hstep <;> cases houtcome
  · intro n c cs n' hstep
    obtain ⟨_, houtcome, -⟩ | ⟨houtcome, -⟩ := step_cases hstep <;> cases houtcome
    exact Nat.le_refl _

end Numeral

/-- A number that was read strictly is what its digits make it. -/
theorem Scalar.exists_found_of_scan {n : Numeral} {found : Found} {cs rest : List Char}
    (h : scan (step .strict) (.number n) cs = some (found, rest)) :
    ∃ n', scan Numeral.step n cs = some (n', rest) ∧ n'.found = .ok found := by
  rw [scan_number] at h
  obtain ⟨⟨n', rest'⟩, hscan, hmap⟩ := Option.bind_eq_some_iff.mp h
  obtain ⟨found', hfound, heq⟩ := Option.map_eq_some_iff.mp hmap
  cases heq
  exact ⟨n', hscan, eq_ok_of_toOption hfound⟩

/-- A field that takes a whole number takes every smaller one. -/
theorem Kind.exists_accept_of_le (k : Kind) {w w' : Nat} {d' : Datum} (hle : w ≤ w')
    (h : (k.accept (.integer w')).toOption = some d') : ∃ d, k.accept (.integer w) = .ok d := by
  rw [accept_integer] at h
  cases k with
  | boolean => cases h
  | natural bits name =>
    obtain ⟨n, hlt, hvalue, -⟩ := datum?_natural_iff.mp h
    cases hvalue
    have hfits : w < Nat.pow 2 bits := Nat.lt_of_le_of_lt hle hlt
    exact ⟨.natural w, if_pos ⟨by omega, by omega⟩⟩

/-- A number that a field takes has neither a point nor a minus: its digits are all there is. -/
theorem Kind.plain_of_accept {k : Kind} {n : Numeral} {found : Found} {d : Datum}
    (hfound : n.found = .ok found) (haccept : (k.accept found).toOption = some d) :
    n.real = false ∧ n.negative = false ∧ found = .integer n.significand := by
  have hfloating : n.floating ≠ .ok found := by
    intro h
    obtain ⟨x, rfl⟩ := Numeral.floating_eq_ok h
    rw [k.accept_floating] at haccept
    cases haccept
  unfold Numeral.found at hfound
  cases hreal : n.real with
  | true =>
    rw [if_pos hreal] at hfound
    exact absurd hfound hfloating
  | false =>
    rw [if_neg (by simp [hreal])] at hfound
    cases hnegative : n.negative with
    | true =>
      rw [if_pos hnegative] at hfound
      -- below zero no field takes it, and negative zero is a floating-point number
      split at hfound
      · next hfits =>
        cases hfound
        rw [k.accept_neg hfits.1] at haccept
        cases haccept
      · exact absurd hfound hfloating
    | false =>
      rw [if_neg (by simp [hnegative])] at hfound
      exact ⟨rfl, rfl, (Except.ok.inj hfound).symm⟩

/-- A field that takes a number takes what was read of it before, if a number may end there. -/
theorem Kind.exists_accept_of_scan {k : Kind} {n n' : Numeral} {found' : Found} {d' : Datum}
    {cs rest : List Char} (hscan : scan Numeral.step n cs = some (n', rest))
    (hfound : n'.found = .ok found') (haccept : (k.accept found').toOption = some d') :
    ∃ found d, n.found = .ok found ∧ k.accept found = .ok d := by
  obtain ⟨hreal, hnegative, rfl⟩ := plain_of_accept hfound haccept
  -- what has neither a point nor a minus at the end had none before
  obtain ⟨⟨hsign, hkeeps⟩, -⟩ := Numeral.of_scan hscan
  have hread : n.found = .ok (.integer n.significand) := by
    rw [Numeral.found, if_neg fun h => by simp [hkeeps h] at hreal, ← hsign, hnegative]
    rfl
  obtain ⟨d, hd⟩ := k.exists_accept_of_le (Numeral.significand_le_of_scan hscan) haccept
  exact ⟨_, d, hread, hd⟩

namespace Record

variable {r : Record} {st st' : State} {place : Place} {slot : Slot}
  {values : List (Option Datum)} {c : Char} {cs mid rest : List Char}

variable (r) in
/-- No text may end where the reader stands, and a text that does has ended too early. -/
def Unfinished (st : State) : Prop :=
  ∃ fault, r.finish st = .error fault ∧ fault.kind = .cutShort

/-- No text may end inside of a value that a field takes. -/
theorem unfinished_value {x : Scalar} {f : Field} {found : Found} {d : Datum}
    (hf : r.fields[slot.index]? = some f)
    (hscan : scan (Scalar.step .strict) x cs = some (found, rest))
    (haccept : (f.kind.accept found).toOption = some d) :
    r.Unfinished { place := .value slot x, values } := by
  cases x with
  | word letters found => exact ⟨.endInValue, rfl, rfl⟩
  | text q => exact ⟨.endInString, rfl, rfl⟩
  | number n =>
    by_cases hcomplete : n.isComplete = true
    · -- the number might end here, and would then be one for the field
      obtain ⟨n', hnumber, hfound⟩ := Scalar.exists_found_of_scan hscan
      obtain ⟨found', d', hfound', haccept'⟩ :=
        Kind.exists_accept_of_scan hnumber hfound haccept
      refine ⟨slot.endFault, ?_, by cases slot <;> rfl⟩
      simp only [finish, Scalar.finish, if_pos hcomplete, Scalar.numberFound, hfound', put, hf,
        haccept']
    · refine ⟨.endInValue, ?_, rfl⟩
      simp only [finish, Scalar.finish, if_neg hcomplete]

variable (r) in
/-- Wherever the rest of a text breaks off, with more than blanks missing, the reader stands where
no text may end. -/
def Pending (st : State) (cs : List Char) : Prop :=
  ∀ front back st', cs = front ++ back → (∃ c ∈ back, isBlank c = false) →
    r.run st front = .ok st' → r.Unfinished st'

/-- The rest of a text breaks off before its first character or behind it. -/
theorem Pending.cons (hst : r.Unfinished st)
    (h : ∀ st', r.step st c = .ok st' → r.Pending st' cs) : r.Pending st (c :: cs) := by
  intro front back last hsplit hback hrun
  cases front with
  | nil =>
    cases hrun
    exact hst
  | cons c' front =>
    obtain ⟨rfl, rfl⟩ := List.cons.inj hsplit
    rw [run_cons] at hrun
    cases hstep : r.step st c with
    | error fault =>
      rw [hstep] at hrun
      cases hrun
    | ok st' =>
      rw [hstep] at hrun
      exact h st' hstep front back last rfl hback hrun

/-- A character that is taken leads to the rest behind it. -/
theorem Pending.more (hst : r.Unfinished st) (hstep : r.step st c = .ok st')
    (h : r.Pending st' cs) : r.Pending st (c :: cs) := by
  refine .cons hst fun st'' hstep' => ?_
  rw [hstep] at hstep'
  cases hstep'
  exact h

/-- What is behind the first character is the rest of the text too. -/
theorem Pending.tail (h : r.Pending st (c :: cs)) (hstep : r.step st c = .ok st') :
    r.Pending st' cs := by
  intro front back last hsplit hback hrun
  refine h (c :: front) back last (by rw [hsplit]; rfl) hback ?_
  rw [run_cons, hstep]
  exact hrun

/-- From blanks nothing is missing that counts. -/
theorem pending_of_ws (h : Ws cs []) : r.Pending st cs := by
  obtain ⟨blanks, htext, hblank⟩ := h.exists_blanks
  rw [List.append_nil] at htext
  subst htext
  rintro front back st' rfl ⟨c, hc, hmore⟩ -
  rw [hblank c (List.mem_append_right front hc)] at hmore
  cases hmore

/-- Blanks between the parts of a record are passed over. -/
theorem pending_ws (place : Place) (hidle : place.IsIdle) (hst : r.Unfinished { place, values })
    (h : Ws cs rest) (hrest : r.Pending { place, values } rest) :
    r.Pending { place, values } cs := by
  induction h with
  | nil => exact hrest
  | cons hblank _ ih => exact .more hst (step_blank hidle hblank) (ih hrest)

/-! ### Parts of a record -/

/-- No text may end inside of a value that a field takes, if none may behind it. -/
theorem pending_value {x : Scalar} {f : Field} {found : Found} {d : Datum}
    (hf : r.fields[slot.index]? = some f)
    (hscan : scan (Scalar.step .strict) x cs = some (found, rest))
    (haccept : (f.kind.accept found).toOption = some d)
    (hrest : ∀ values, r.Pending { place := slot.next, values } rest) :
    r.Pending { place := .value slot x, values } cs := by
  -- on the text, with the reader inside of the value for as long as it goes on
  induction cs generalizing x with
  | nil => cases hscan
  | cons c cs ih =>
    refine .cons (unfinished_value hf hscan haccept) fun st' hstep => ?_
    simp only [step] at hstep
    cases hx : x.step .strict c with
    | error fault =>
      rw [hx] at hstep
      cases hstep
    | ok outcome =>
      rw [hx] at hstep
      cases outcome with
      | more x' =>
        cases hstep
        exact ih ((scan_more hx).symm.trans hscan)
      | done found' =>
        rw [scan_done hx] at hscan
        cases hscan
        obtain ⟨place', values'⟩ := st'
        cases place_of_put hstep
        exact hrest values'
      | before found' =>
        -- the character behind the value is read as it is where the value leads to
        rw [scan_before hx] at hscan
        cases hscan
        dsimp only at hstep
        split at hstep
        · cases hstep
        · next st₁ hput =>
          rw [← step_of_next (place_of_put hput)] at hstep
          obtain ⟨place₁, values₁⟩ := st₁
          cases place_of_put hput
          exact (hrest values₁).tail hstep

/-- No text may end where the value of a field is due, if none may behind the value. -/
theorem pending_due (slot : Slot) {f : Field} {v : Value} {d : Datum} (hr : r.WellFormed)
    (hf : r.fields[slot.index]? = some f) (hd : f.kind.datum? v = some d) (hws : Ws cs mid)
    (hvalue : Spelled (.value v) mid rest) (hfollow : Follow rest)
    (hrest : ∀ values, r.Pending { place := slot.next, values } rest) :
    r.Pending { place := .due slot, values } cs := by
  -- no field takes a value in brackets
  have hscalar : v.IsScalar := by
    rintro b rfl
    rw [f.kind.datum?_bracket] at hd
    cases hd
  obtain ⟨c, cs', x, rfl, hstart, hread⟩ := Scalar.exists_scan_strict hvalue hscalar hfollow
  have hdue : r.Unfinished { place := .due slot, values } := ⟨.endInValue, rfl, rfl⟩
  refine pending_ws (.due slot) trivial hdue hws (.more hdue (stepDue_of_start? _ slot hstart) ?_)
  have htaken := hread f.kind (hr.width f (List.mem_of_getElem? hf))
  rw [hd, Option.map_some] at htaken
  obtain ⟨⟨found, rest'⟩, hscan, hmap⟩ := Option.bind_eq_some_iff.mp htaken
  obtain ⟨d', haccept, heq⟩ := Option.map_eq_some_iff.mp hmap
  cases heq
  exact pending_value hf hscan haccept hrest

/-- The key of a field has been read. -/
theorem place_of_closeKey_some {key : List Char} {i : Nat} (hi : r.indexOf? key = some i)
    (h : r.closeKey st key = .ok st') : st'.place = .colon (some i) := by
  unfold closeKey at h
  rw [hi] at h
  dsimp only at h
  split at h <;> cases h
  rfl

/-- No text may end inside of a key, if none may behind it. -/
theorem pending_key {q : Quoted} {key : List Char} {i : Nat} (hi : r.indexOf? key = some i)
    (hscan : scan Quoted.step q cs = some (key, rest))
    (hrest : ∀ values, r.Pending { place := .colon (some i), values } rest) :
    r.Pending { place := .key q, values } cs := by
  induction cs generalizing q with
  | nil => cases hscan
  | cons c cs ih =>
    refine .cons ⟨.endInString, rfl, rfl⟩ fun st' hstep => ?_
    simp only [step] at hstep
    cases hq : q.step c with
    | error fault =>
      rw [hq] at hstep
      cases hstep
    | ok outcome =>
      rw [hq] at hstep
      cases outcome with
      | more q' =>
        cases hstep
        exact ih ((scan_more hq).symm.trans hscan)
      | done key' =>
        rw [scan_done hq] at hscan
        cases hscan
        obtain ⟨place', values'⟩ := st'
        cases place_of_closeKey_some hi hstep
        exact hrest values'
      | before key' => exact absurd hq (q.step_ne_before c key')

/-! ### Objects -/

variable (r) in
/-- A member belongs to a field and has a value for it. -/
def Suits (m : Member) : Prop :=
  ∃ i f d, r.indexOf? m.1 = some i ∧ r.fields[i]? = some f ∧ f.kind.datum? m.2 = some d

/-- No text may end where a member may begin, if none may behind the member. -/
theorem pending_member {m : Member} (hr : r.WellFormed) (hm : r.Suits m) (h : IsMember m cs rest)
    (hfollow : Follow rest) (hrest : ∀ values, r.Pending { place := .objectNext, values } rest)
    (hplace : place = .objectStart ∨ place = .keyDue) : r.Pending { place, values } cs := by
  obtain ⟨i, f, d, hi, hf, hd⟩ := hm
  obtain ⟨mid, ⟨cs₁, cs₂, cs₃, hquote, hspells, hcolon, hws⟩, hvalue⟩ := h
  have hscan : scan Quoted.step { rigour := .strict } cs₁ = some (m.1, cs₂) :=
    Quoted.scan_quoted_of_spells hspells []
  have hkey : r.Pending { place := .key { rigour := .strict }, values } cs₁ := by
    -- where the field has a value already the key is refused, and nothing is left to be shown
    refine pending_key hi hscan fun values => ?_
    have hbehind : r.Unfinished { place := .colon (some i), values } := ⟨.endInObject, rfl, rfl⟩
    refine pending_ws (.colon (some i)) trivial hbehind hcolon (.more hbehind rfl ?_)
    exact pending_due (.member i) hr hf hd hws hvalue hfollow hrest
  rcases hplace with rfl | rfl
  · have hstart : r.Unfinished { place := .objectStart, values } := ⟨.endInObject, rfl, rfl⟩
    exact pending_ws .objectStart trivial hstart hquote (.more hstart rfl hkey)
  · have hdue : r.Unfinished { place := .keyDue, values } := ⟨.endInValue, rfl, rfl⟩
    exact pending_ws .keyDue trivial hdue hquote (.more hdue rfl hkey)

/-- No text may end behind a member, nor inside of the members that follow. -/
theorem pending_after {ms : List Member} (hr : r.WellFormed) (hms : ∀ m ∈ ms, r.Suits m)
    (h : After IsMember .object ms cs rest) (hend : Ws rest []) :
    r.Pending { place := .objectNext, values } cs := by
  have hbehind : ∀ values, r.Unfinished { place := .objectNext, values } :=
    fun _ => ⟨.endInObject, rfl, rfl⟩
  induction h generalizing values with
  | close h =>
    refine pending_ws .objectNext trivial (hbehind values) h ?_
    exact .cons (hbehind values) fun _ _ => pending_of_ws hend
  | comma h hitem hafter ih =>
    obtain ⟨hm, hms⟩ := List.forall_mem_cons.mp hms
    refine pending_ws .objectNext trivial (hbehind values) h (.more (hbehind values) rfl ?_)
    exact pending_member hr hm hitem hafter.follow (fun values => ih hms hend) (.inr rfl)

/-- No text may end inside of the brackets of an object. -/
theorem pending_items {ms : List Member} (hr : r.WellFormed) (hms : ∀ m ∈ ms, r.Suits m)
    (h : Items IsMember .object ms cs rest) (hend : Ws rest []) :
    r.Pending { place := .objectStart, values } cs := by
  cases h with
  | empty h =>
    have hstart : r.Unfinished { place := .objectStart, values } := ⟨.endInObject, rfl, rfl⟩
    exact pending_ws .objectStart trivial hstart h (.cons hstart fun _ _ => pending_of_ws hend)
  | filled hitem hafter =>
    obtain ⟨hm, hms⟩ := List.forall_mem_cons.mp hms
    exact pending_member hr hm hitem hafter.follow (fun _ => pending_after hr hms hafter hend)
      (.inl rfl)

/-- Wherever the text of an object breaks off, the reader stands where no text may end. -/
theorem pending_of_isObject {ms : List Member} {text : List Char} (hr : r.WellFormed)
    (hms : ∀ m ∈ ms, r.Suits m) (h : IsObject ms text) : r.Pending r.initial text := by
  obtain ⟨cs, rest, hws, hitems, hend⟩ := h
  have hstart : r.Unfinished r.initial := ⟨.endInValue, rfl, rfl⟩
  exact pending_ws .start trivial hstart hws
    (.more hstart rfl (pending_items hr hms hitems hend))

/-! ### Texts -/

/-- The text of an object that is read is refused as too short wherever it breaks off with more
than blanks missing. -/
theorem exists_read_cut {ms : List Member} {front back : String} (hr : r.WellFormed)
    (hms : ∀ m ∈ ms, r.Suits m) (h : IsObject ms (front ++ back).toList)
    (hread : r.read (front ++ back) = .ok values) (hback : ∃ c ∈ back.toList, isBlank c = false) :
    ∃ fault, r.read front = .error fault ∧ fault.kind = .cutShort := by
  rw [String.toList_append] at h
  rw [read_eq_bind, String.toList_append, run_append] at hread
  rw [read_eq_bind]
  cases hrun : r.run r.initial front.toList with
  | error fault =>
    rw [hrun] at hread
    cases hread
  | ok st => exact pending_of_isObject hr hms h _ _ st rfl hback hrun

/-- Where a text has been read, the reader stands behind the record. -/
theorem run_of_read {text : String} (h : r.read text = .ok values) :
    r.run r.initial text.toList = .ok { place := .done, values } := by
  rw [read_eq_bind] at h
  cases hrun : r.run r.initial text.toList with
  | error fault =>
    rw [hrun] at h
    cases h
  | ok st =>
    rw [hrun] at h
    obtain ⟨place, values'⟩ := st
    cases place_of_finish h
    cases h
    rfl

/-- Behind the record, the reader passes over blanks. -/
theorem run_done_blank (h : ∀ c ∈ cs, isBlank c = true) :
    r.run { place := .done, values } cs = .ok { place := .done, values } := by
  induction cs with
  | nil => rfl
  | cons c cs ih =>
    obtain ⟨hc, hcs⟩ := List.forall_mem_cons.mp h
    have hstep : r.step { place := .done, values } c = .ok { place := .done, values } :=
      step_blank trivial hc
    rw [run_cons, hstep]
    exact ih hcs

/-- Behind the record, the reader refuses whatever is no blank. -/
theorem run_done_trailing (h : ∃ c ∈ cs, isBlank c = false) :
    r.run { place := .done, values } cs = .error .trailingCharacters := by
  induction cs with
  | nil =>
    obtain ⟨c, hc, -⟩ := h
    cases hc
  | cons c cs ih =>
    rw [run_cons]
    by_cases hblank : isBlank c = true
    · have hstep : r.step { place := .done, values } c = .ok { place := .done, values } :=
        step_blank trivial hblank
      rw [hstep]
      refine ih ?_
      obtain ⟨c', hc', hmore⟩ := h
      rcases List.mem_cons.mp hc' with rfl | hc'
      · rw [hblank] at hmore
        cases hmore
      · exact ⟨c', hc', hmore⟩
    · have hstep : r.step { place := .done, values } c = .error .trailingCharacters := by
        simp only [step, if_neg hblank]
      rw [hstep]
      rfl

/-- Behind a text that is read, the reader goes on behind the record. -/
theorem read_append {text : String} (h : r.read text = .ok values) (after : String) :
    r.read (text ++ after) =
      (r.run { place := .done, values } after.toList).bind r.finish := by
  rw [read_eq_bind, String.toList_append, run_append, run_of_read h]
  rfl

/-- A text that is read is read the same with blanks behind it. -/
theorem read_append_blank {text after : String} (h : r.read text = .ok values)
    (hafter : ∀ c ∈ after.toList, isBlank c = true) : r.read (text ++ after) = .ok values := by
  rw [read_append h, run_done_blank hafter]
  rfl

/-- Behind a text that is read, everything but blanks is trailing. -/
theorem read_append_trailing {text after : String} (h : r.read text = .ok values)
    (hafter : ∃ c ∈ after.toList, isBlank c = false) :
    r.read (text ++ after) = .error .trailingCharacters := by
  rw [read_append h, run_done_trailing hafter]
  rfl

end Record

end SignalChain.Json
