import SignalChain.Proofs.Json.Grammar

/-!
# Reading a part of a text

The readers of parts take one character at a time and say when they are done. `scan` lets such a
reader go on by itself, over as many characters as it takes, so that the readers around it can be
told apart from it (`eq_bind_scan`). What a string spells is what its reader comes to
(`scan_quoted_of_spells`), and the reader comes to nothing else (`spells_of_scan`).
-/

namespace SignalChain.Json

section

variable {σ ρ : Type} {step : σ → Char → Except Fault (Scan σ ρ)} {s s' : σ} {r : ρ} {c : Char}
  {cs rest : List Char}

/-- What a reader comes to, and what it leaves of the text. It comes to nothing where it meets a
fault, and where the text ends first. -/
def scan (step : σ → Char → Except Fault (Scan σ ρ)) : σ → List Char → Option (ρ × List Char)
  | _, [] => none
  | s, c :: cs =>
    match step s c with
    | .error _ => none
    | .ok (.more s) => scan step s cs
    | .ok (.done r) => some (r, cs)
    | .ok (.before r) => some (r, c :: cs)

@[simp]
theorem scan_nil : scan step s [] = none := rfl

/-- A reader that takes a character goes on behind it. -/
theorem scan_more (h : step s c = .ok (.more s')) :
    scan step s (c :: cs) = scan step s' cs := by
  rw [scan, h]

/-- A reader that is done with a character leaves what stands behind it. -/
theorem scan_done (h : step s c = .ok (.done r)) : scan step s (c :: cs) = some (r, cs) := by
  rw [scan, h]

/-- A reader that is done in front of a character leaves it. -/
theorem scan_before (h : step s c = .ok (.before r)) :
    scan step s (c :: cs) = some (r, c :: cs) := by
  rw [scan, h]

/-- A reader that refuses a character comes to nothing. -/
theorem scan_error {fault : Fault} (h : step s c = .error fault) :
    scan step s (c :: cs) = none := by
  rw [scan, h]

/-- What is left of an outcome when faults are forgotten is what there was without one. -/
theorem eq_ok_of_toOption {α : Type} {outcome : Except Fault α} {x : α}
    (h : outcome.toOption = some x) : outcome = .ok x := by
  cases outcome with
  | error fault => cases h
  | ok y => exact congrArg Except.ok (Option.some.inj h)

/-- What a reader comes to, step by step from where it is done back to where it began. -/
theorem scan_induction {P : σ → List Char → ρ → List Char → Prop}
    (hmore : ∀ s s' c cs r rest, step s c = .ok (.more s') → P s' cs r rest →
      P s (c :: cs) r rest)
    (hdone : ∀ s c cs r, step s c = .ok (.done r) → P s (c :: cs) r cs)
    (hbefore : ∀ s c cs r, step s c = .ok (.before r) → P s (c :: cs) r (c :: cs))
    (h : scan step s cs = some (r, rest)) : P s cs r rest := by
  induction cs generalizing s with
  | nil => cases h
  | cons c cs ih =>
    cases hstep : step s c with
    | error fault =>
      rw [scan_error hstep] at h
      cases h
    | ok outcome =>
      cases outcome with
      | more s' =>
        rw [scan_more hstep] at h
        exact hmore _ _ _ _ _ _ hstep (ih h)
      | done r' =>
        rw [scan_done hstep] at h
        cases h
        exact hdone _ _ _ _ hstep
      | before r' =>
        rw [scan_before hstep] at h
        cases h
        exact hbefore _ _ _ _ hstep

/-- A reader that leaves a part of its text to another one, and goes on with what that one comes
to. -/
theorem eq_bind_scan {β : Type} {H : σ → List Char → Option β} {K : ρ → List Char → Option β}
    (hnil : ∀ s, H s [] = none)
    (hcons : ∀ s c cs, H s (c :: cs) =
      match step s c with
      | .error _ => none
      | .ok (.more s) => H s cs
      | .ok (.done r) => K r cs
      | .ok (.before r) => K r (c :: cs)) (s : σ) (cs : List Char) :
    H s cs = (scan step s cs).bind fun p => K p.1 p.2 := by
  induction cs generalizing s with
  | nil =>
    rw [hnil]
    rfl
  | cons c cs ih =>
    rw [hcons, scan]
    cases step s c with
    | error fault => rfl
    | ok outcome =>
      cases outcome with
      | more s' => exact ih s'
      | done r => rfl
      | before r => rfl

end

/-! ### Strings -/

/-- One more hexadecimal digit. -/
theorem hexCode?_concat (ds : List Char) (d : Char) :
    hexCode? (ds ++ [d]) =
      (hexCode? ds).bind fun code => (hexDigit? d).map (code * 16 + ·) := by
  simp [hexCode?, List.foldlM_append]

/-- A hexadecimal digit is one byte long. -/
theorem utf8Size_of_hexDigit? {c : Char} {d : Nat} (h : hexDigit? c = some d) :
    c.utf8Size = 1 := by
  -- digits and the letters that stand for them end below the first code of two bytes
  have hval : c.val ≤ 0x7f := by
    unfold hexDigit? at h
    split at h
    · next hdigit =>
      simp only [Char.isDigit, Bool.and_eq_true, decide_eq_true_eq] at hdigit
      exact UInt32.le_trans hdigit.2 (by decide)
    · split at h
      · next hsmall => exact UInt32.le_trans hsmall.2 (by decide)
      · split at h
        · next hcapital => exact UInt32.le_trans hcapital.2 (by decide)
        · cases h
  simp [Char.utf8Size, hval]

namespace Quoted

variable {q : Quoted} {c : Char} {d : Nat}

/-- A digit inside a hexadecimal escape. -/
theorem stepHex_of_digit (h : hexDigit? c = some d) (bytes code : Nat) :
    q.stepHex bytes false code c =
      if bytes + 1 < 4 then .ok { q with place := .hex (bytes + 1) false (code * 16 + d) }
      else q.closeHex (code * 16 + d) := by
  simp [stepHex, h, utf8Size_of_hexDigit? h]

/-- A wrong digit inside a hexadecimal escape, and any character behind one, are refused with the
fourth byte. -/
theorem stepHex_of_bad {bad : Bool} (h : (bad || (hexDigit? c).isNone) = true)
    (bytes code : Nat) :
    q.stepHex bytes bad code c =
      if bytes + c.utf8Size < 4 then
        .ok { q with
          place := .hex (bytes + c.utf8Size) true (code * 16 + (hexDigit? c).getD 0) }
      else .error .invalidEscape := by
  simp only [stepHex, h, if_true]

/-- A string with a wrong digit is never done. -/
theorem scan_bad {bad : Bool} (h : (bad || (hexDigit? c).isNone) = true) (bytes code : Nat)
    (cs : List Char) :
    scan step { q with place := .hex bytes bad code } (c :: cs) = none := by
  have hstep : step { q with place := .hex bytes bad code } c =
      Scan.more <$> stepHex { q with place := .hex bytes bad code } bytes bad code c := rfl
  -- what is wrong stays wrong, so that every step but the last one comes back here
  induction cs generalizing c bad bytes code with
  | nil =>
    rw [stepHex_of_bad h] at hstep
    split at hstep
    · exact scan_more hstep
    · exact scan_error hstep
  | cons c' cs ih =>
    rw [stepHex_of_bad h] at hstep
    split at hstep
    · rw [scan_more hstep]
      exact ih rfl _ _ rfl
    · exact scan_error hstep

/-- The end of a hexadecimal escape is the same wherever its reader stands. -/
theorem closeHex_place (q : Quoted) (p : Place) (code : Nat) :
    closeHex { q with place := p } code = closeHex q code := rfl

/-- The digits of a hexadecimal escape are read as the number that they stand for. -/
theorem scan_hex {ds : List Char} {bytes code code' : Nat} (hne : ds ≠ [])
    (hlength : bytes + ds.length = 4)
    (hcode : ds.foldlM (fun code d => (hexDigit? d).map (code * 16 + ·)) code = some code')
    (cs : List Char) :
    scan step { q with place := .hex bytes false code } (ds ++ cs) =
      (q.closeHex code').toOption.bind (scan step · cs) := by
  induction ds generalizing bytes code with
  | nil => exact absurd rfl hne
  | cons c ds ih =>
    obtain ⟨next, hnext, hcode⟩ := Option.bind_eq_some_iff.mp hcode
    obtain ⟨d, hd, rfl⟩ := Option.map_eq_some_iff.mp hnext
    rw [List.length_cons] at hlength
    rw [List.cons_append]
    by_cases hlast : ds = []
    · -- the fourth digit ends the escape
      subst hlast
      have hstep : step { q with place := .hex bytes false code } c =
          Scan.more <$> q.closeHex (code * 16 + d) := by
        have hbytes : ¬ bytes + 1 < 4 := by
          rw [List.length_nil] at hlength
          omega
        simp only [step]
        rw [stepHex_of_digit hd, if_neg hbytes, closeHex_place]
      cases hcode
      rw [List.nil_append, scan, hstep]
      cases q.closeHex (code * 16 + d) with
      | error fault => rfl
      | ok q' => rfl
    · have hpos : 0 < ds.length := List.length_pos_iff.mpr hlast
      have hstep : step { q with place := .hex bytes false code } c =
          .ok (.more { q with place := .hex (bytes + 1) false (code * 16 + d) }) := by
        simp only [step]
        rw [stepHex_of_digit hd, if_pos (by omega)]
        rfl
      rw [scan_more hstep]
      exact ih hlast (by omega) hcode

/-- A hexadecimal escape is read to its end, from after its backslash. -/
theorem scan_escape {ds : List Char} {code : Nat} (h : Hex ds code) (cs : List Char) :
    scan step { q with place := .escape } ('u' :: (ds ++ cs)) =
      (q.closeHex code).toOption.bind (scan step · cs) := by
  have hne : ds ≠ [] := by
    rintro rfl
    cases h.1
  have hstep : step { q with place := .escape } 'u' =
      .ok (.more { q with place := .hex 0 false 0 }) := rfl
  rw [scan_more hstep]
  exact scan_hex hne (by rw [h.1]) h.2 cs

/-- An escape that is no half of a pair is read as its character. -/
theorem scan_code {ds acc : List Char} {code : Nat} (hds : Hex ds code)
    (hhigh : isHighSurrogate code = false) (hlow : isLowSurrogate code = false)
    (cs : List Char) :
    scan step { rigour := .strict, chars := acc, place := .escape } ('u' :: (ds ++ cs)) =
      scan step { rigour := .strict, chars := Char.ofNat code :: acc } cs := by
  have hclose : closeHex { rigour := .strict, chars := acc } code =
      .ok { rigour := .strict, chars := Char.ofNat code :: acc } := by
    simp [closeHex, hhigh, hlow, push]
  refine (scan_escape (q := { rigour := .strict, chars := acc }) hds _).trans ?_
  rw [hclose]
  rfl

/-- Two escapes that make a pair are read as its character. -/
theorem scan_pair {ds es acc : List Char} {high low : Nat} (hds : Hex ds high) (hes : Hex es low)
    (hhigh : isHighSurrogate high = true) (hlow : isLowSurrogate low = true) (cs : List Char) :
    scan step { rigour := .strict, chars := acc, place := .escape }
        ('u' :: (ds ++ '\\' :: 'u' :: (es ++ cs))) =
      scan step { rigour := .strict, chars := joinPair high low :: acc } cs := by
  have hnlow : isLowSurrogate high = false := by
    simp only [isHighSurrogate, isLowSurrogate, Bool.and_eq_true, decide_eq_true_eq,
      Bool.and_eq_false_iff, decide_eq_false_iff_not] at hhigh ⊢
    omega
  -- the first half is kept until the second one has been read
  have hfirst : closeHex { rigour := .strict, chars := acc } high =
      .ok { rigour := .strict, chars := acc, place := .pair, high := some high } := by
    simp [closeHex, hhigh, hnlow]
  have hsecond : closeHex { rigour := .strict, chars := acc, high := some high } low =
      .ok { rigour := .strict, chars := joinPair high low :: acc } := by
    simp [closeHex, hlow, push]
  have hpair : step { rigour := .strict, chars := acc, place := .pair, high := some high } '\\' =
      .ok (.more
        { rigour := .strict, chars := acc, place := .pairEscape, high := some high }) := rfl
  refine (scan_escape (q := { rigour := .strict, chars := acc }) hds _).trans ?_
  rw [hfirst]
  refine (scan_more hpair).trans ?_
  -- after the second backslash only the letter can follow that follows the first one
  refine (scan_escape (q := { rigour := .strict, chars := acc, high := some high }) hes _).trans ?_
  rw [hsecond]
  rfl

/-- What stands in quotes is read as what it stands for. -/
theorem scan_quoted_of_spells {r : Rigour} {t cs rest : List Char} (h : Spells r t cs rest)
    (acc : List Char) :
    scan step { rigour := r, chars := acc } cs = some (acc.reverse ++ t, rest) := by
  have hbackslash : ∀ acc, step { rigour := r, chars := acc } '\\' =
      .ok (.more { rigour := r, chars := acc, place := .escape }) := fun _ => rfl
  induction h generalizing acc with
  | close =>
    have hstep : step { rigour := r, chars := acc } '"' = .ok (.done acc.reverse) := rfl
    rw [scan_done hstep, List.append_nil]
  | @plain c t cs rest hplain _ ih =>
    obtain ⟨hquote, hback, hcontrol⟩ := hplain
    have hstep : step { rigour := r, chars := acc } c =
        .ok (.more { rigour := r, chars := c :: acc }) := by
      simp only [step, if_neg hquote, if_neg hback, if_neg hcontrol]
      rfl
    rw [scan_more hstep, ih]
    simp
  | @short e c t cs rest hescape _ ih =>
    have hu : e ≠ 'u' := by
      rintro rfl
      cases hescape
    have hstep : step { rigour := r, chars := acc, place := .escape } e =
        .ok (.more { rigour := r, chars := c :: acc }) := by
      simp only [step, if_neg hu, hescape]
      rfl
    rw [scan_more (hbackslash acc), scan_more hstep, ih]
    simp
  | form hr hcode _ ih =>
    -- a loose reader keeps nothing of the escape
    subst hr
    rw [scan_more (hbackslash acc)]
    refine (scan_escape (q := { rigour := .loose, chars := acc }) hcode _).trans ?_
    exact ih acc
  | @code code ds t cs rest hr hcode hhigh hlow _ ih =>
    subst hr
    rw [scan_more (hbackslash acc), scan_code hcode hhigh hlow, ih (Char.ofNat code :: acc)]
    simp
  | @pair high low ds es t cs rest hr hds hes hhigh hlow _ ih =>
    subst hr
    rw [scan_more (hbackslash acc), scan_pair hds hes hhigh hlow, ih (joinPair high low :: acc)]
    simp

/-- What has been read of a string since its last whole character. -/
inductive Holds : Quoted → List Char → Prop
  | plain {r : Rigour} {t : List Char} : Holds { rigour := r, chars := t } []
  | escape {r : Rigour} {t : List Char} :
    Holds { rigour := r, chars := t, place := .escape } ['\\']
  | hex {r : Rigour} {t ds : List Char} {code : Nat} (hlength : ds.length < 4)
    (hcode : hexCode? ds = some code) :
    Holds { rigour := r, chars := t, place := .hex ds.length false code } ('\\' :: 'u' :: ds)
  | pair {t ds : List Char} {high : Nat} (hds : Hex ds high) (hhigh : isHighSurrogate high = true) :
    Holds { rigour := .strict, chars := t, place := .pair, high := some high } ('\\' :: 'u' :: ds)
  | pairEscape {t ds : List Char} {high : Nat} (hds : Hex ds high)
    (hhigh : isHighSurrogate high = true) :
    Holds { rigour := .strict, chars := t, place := .pairEscape, high := some high }
      ('\\' :: 'u' :: (ds ++ ['\\']))
  | pairHex {t ds es : List Char} {high code : Nat} (hds : Hex ds high)
    (hhigh : isHighSurrogate high = true) (hlength : es.length < 4)
    (hcode : hexCode? es = some code) :
    Holds { rigour := .strict, chars := t, place := .hex es.length false code, high := some high }
      ('\\' :: 'u' :: (ds ++ '\\' :: 'u' :: es))

/-- A step of the reader spells the characters that it adds, with what has been read since the
last ones. -/
def Advances (q : Quoted) (pre : List Char) (c : Char) (q' : Quoted) : Prop :=
  ∃ u pre', Holds q' pre' ∧ q'.rigour = q.rigour ∧ q'.chars.reverse = q.chars.reverse ++ u ∧
    ∀ v cs rest, Spells q.rigour v (pre' ++ cs) rest →
      Spells q.rigour (u ++ v) (pre ++ c :: cs) rest

variable {q' : Quoted} {pre : List Char}

/-- A character that does not end what it belongs to. -/
theorem advances_of_holds (hq : Holds q' (pre ++ [c])) (hrigour : q'.rigour = q.rigour)
    (hchars : q'.chars = q.chars) : Advances q pre c q' := by
  refine ⟨[], pre ++ [c], hq, hrigour, by rw [hchars, List.append_nil], fun v cs rest h => ?_⟩
  rwa [List.append_assoc] at h

/-- A character that ends what stands for the character `x`. -/
theorem advances_of_spells {x : Char} (hq : q' = { rigour := q.rigour, chars := x :: q.chars })
    (h : ∀ v cs rest, Spells q.rigour v cs rest →
      Spells q.rigour (x :: v) (pre ++ c :: cs) rest) : Advances q pre c q' := by
  subst hq
  exact ⟨[x], [], .plain, rfl, List.reverse_cons, h⟩

/-- A step inside a hexadecimal escape. -/
theorem stepHex_of_step {bytes code : Nat} {bad : Bool} (hplace : q.place = .hex bytes bad code)
    (h : q.step c = .ok (.more q')) : q.stepHex bytes bad code c = .ok q' := by
  simp only [step, hplace] at h
  cases hstep : q.stepHex bytes bad code c with
  | error fault =>
    rw [hstep] at h
    cases h
  | ok q'' =>
    rw [hstep] at h
    cases h
    rfl

/-- A character inside a hexadecimal escape is a digit, and with the fourth one the escape ends,
or the string is wrong. -/
theorem stepHex_eq_ok {ds : List Char} {code : Nat} (hlength : ds.length < 4)
    (hcode : hexCode? ds = some code) (h : q.stepHex ds.length false code c = .ok q') :
    (∃ bytes code', q' = { q with place := .hex bytes true code' }) ∨
      ∃ code', hexCode? (ds ++ [c]) = some code' ∧
        ((ds ++ [c]).length < 4 ∧ q' = { q with place := .hex (ds ++ [c]).length false code' } ∨
          (ds ++ [c]).length = 4 ∧ q.closeHex code' = .ok q') := by
  cases hdigit : hexDigit? c with
  | none =>
    -- a wrong digit is remembered, or refused with the fourth byte
    rw [stepHex_of_bad (by rw [hdigit]; rfl)] at h
    split at h
    · cases h
      exact .inl ⟨_, _, rfl⟩
    · cases h
  | some d =>
    have hcode' : hexCode? (ds ++ [c]) = some (code * 16 + d) := by
      rw [hexCode?_concat, hcode, hdigit]
      rfl
    refine .inr ⟨code * 16 + d, hcode', ?_⟩
    rw [stepHex_of_digit hdigit] at h
    rw [List.length_append, List.length_singleton]
    split at h
    · next hlt =>
      cases h
      exact .inl ⟨hlt, rfl⟩
    · exact .inr ⟨by omega, h⟩

/-- The end of a hexadecimal escape that is no second half of a pair. -/
theorem advances_of_hex {r : Rigour} {t ds : List Char} {place : Place} {code : Nat}
    (hds : Hex (ds ++ [c]) code)
    (h : closeHex { rigour := r, chars := t, place := place } code = .ok q') :
    Advances { rigour := r, chars := t, place := place } ('\\' :: 'u' :: ds) c q' := by
  have htext : ∀ cs, '\\' :: 'u' :: ds ++ c :: cs = '\\' :: 'u' :: ((ds ++ [c]) ++ cs) := by simp
  cases r with
  | loose =>
    cases h
    -- for a loose reader the escape stands for no character
    refine ⟨[], [], .plain, rfl, (List.append_nil _).symm, fun v cs rest hspells => ?_⟩
    rw [htext]
    exact .form rfl hds hspells
  | strict =>
    simp only [closeHex] at h
    split at h
    · cases h
    next hlow =>
    split at h
    · next hhigh =>
      -- the first half of a pair is no character yet
      cases h
      exact advances_of_holds (.pair hds hhigh) rfl rfl
    · next hhigh =>
      refine advances_of_spells (Except.ok.inj h).symm fun v cs rest hspells => ?_
      rw [htext]
      exact .code rfl hds (Bool.not_eq_true _ ▸ hhigh) (Bool.not_eq_true _ ▸ hlow) hspells

/-- The end of the second half of a pair. -/
theorem advances_of_pairHex {t ds es : List Char} {place : Place} {high code : Nat}
    (hds : Hex ds high) (hhigh : isHighSurrogate high = true) (hes : Hex (es ++ [c]) code)
    (h : closeHex { rigour := .strict, chars := t, place := place, high := some high } code =
      .ok q') :
    Advances { rigour := .strict, chars := t, place := place, high := some high }
      ('\\' :: 'u' :: (ds ++ '\\' :: 'u' :: es)) c q' := by
  simp only [closeHex] at h
  split at h
  · next hlow =>
    refine advances_of_spells (Except.ok.inj h).symm fun v cs rest hspells => ?_
    have htext : '\\' :: 'u' :: (ds ++ '\\' :: 'u' :: es) ++ c :: cs =
        '\\' :: 'u' :: (ds ++ '\\' :: 'u' :: ((es ++ [c]) ++ cs)) := by simp
    rw [htext]
    exact .pair rfl hds hes hhigh hlow hspells
  · cases h

/-- The reader of strings goes on, or is done with a quote. -/
theorem step_eq_ok {outcome : Scan Quoted (List Char)} (h : q.step c = .ok outcome) :
    (∃ q', outcome = .more q') ∨
      q.place = .plain ∧ c = '"' ∧ outcome = .done q.chars.reverse := by
  cases hplace : q.place with
  | plain =>
    simp only [step, hplace] at h
    split at h
    · next hquote => exact .inr ⟨rfl, hquote, (Except.ok.inj h).symm⟩
    left
    split at h
    · exact ⟨_, (Except.ok.inj h).symm⟩
    split at h
    · cases h
    · exact ⟨_, (Except.ok.inj h).symm⟩
  | escape =>
    left
    simp only [step, hplace] at h
    split at h
    · exact ⟨_, (Except.ok.inj h).symm⟩
    split at h
    · exact ⟨_, (Except.ok.inj h).symm⟩
    · cases h
  | hex bytes bad code =>
    left
    simp only [step, hplace] at h
    cases hclose : q.stepHex bytes bad code c with
    | error fault =>
      rw [hclose] at h
      cases h
    | ok q' =>
      rw [hclose] at h
      exact ⟨q', (Except.ok.inj h).symm⟩
  | pair | pairEscape =>
    left
    simp only [step, hplace] at h
    split at h
    · exact ⟨_, (Except.ok.inj h).symm⟩
    · cases h

/-- The reader of strings never stops in front of a character. -/
theorem step_ne_before (q : Quoted) (c : Char) (t : List Char) :
    q.step c ≠ .ok (.before t) := by
  intro h
  obtain ⟨q', hmore⟩ | ⟨-, -, hdone⟩ := step_eq_ok h
  · cases hmore
  · cases hdone

/-- One step of the reader, from what has been read since the last character to what has been read
then. -/
theorem advances_of_step (hq : Holds q pre) (h : q.step c = .ok (.more q')) :
    (∃ bytes code, q' = { q with place := .hex bytes true code }) ∨ Advances q pre c q' := by
  have hnone : hexCode? [] = some 0 := rfl
  cases hq with
  | plain =>
    right
    simp only [step] at h
    split at h
    · cases h
    next hquote =>
    split at h
    · next hback =>
      cases h
      subst hback
      exact advances_of_holds .escape rfl rfl
    next hback =>
    split at h
    · cases h
    next hcontrol =>
    cases h
    exact advances_of_spells rfl fun v cs rest => .plain ⟨hquote, hback, hcontrol⟩
  | escape =>
    right
    simp only [step] at h
    split at h
    · next hu =>
      cases h
      subst hu
      exact advances_of_holds (.hex (by decide) hnone) rfl rfl
    split at h
    · next hescape =>
      cases h
      exact advances_of_spells rfl fun v cs rest => .short hescape
    · cases h
  | hex hlength hcode =>
    obtain hwrong | ⟨code', hcode', ⟨hlength', rfl⟩ | ⟨hlength', hclose⟩⟩ :=
      stepHex_eq_ok hlength hcode (stepHex_of_step rfl h)
    · exact .inl hwrong
    · exact .inr (advances_of_holds (.hex hlength' hcode') rfl rfl)
    · exact .inr (advances_of_hex ⟨hlength', hcode'⟩ hclose)
  | pair hds hhigh =>
    right
    simp only [step] at h
    split at h
    · next hback =>
      cases h
      subst hback
      exact advances_of_holds (.pairEscape hds hhigh) rfl rfl
    · cases h
  | pairEscape hds hhigh =>
    right
    simp only [step] at h
    split at h
    · next hu =>
      cases h
      subst hu
      refine advances_of_holds ?_ rfl rfl
      simpa using Holds.pairHex hds hhigh (by decide) hnone
    · cases h
  | pairHex hds hhigh hlength hcode =>
    obtain hwrong | ⟨code', hcode', ⟨hlength', rfl⟩ | ⟨hlength', hclose⟩⟩ :=
      stepHex_eq_ok hlength hcode (stepHex_of_step rfl h)
    · exact .inl hwrong
    · right
      refine advances_of_holds ?_ rfl rfl
      simpa using Holds.pairHex hds hhigh hlength' hcode'
    · exact .inr (advances_of_pairHex hds hhigh ⟨hlength', hcode'⟩ hclose)

/-- A string that its reader is done with spells what the reader came to, with what had been read
since the last character. -/
theorem spells_of_holds {t cs rest : List Char} (hq : Holds q pre)
    (h : scan step q cs = some (t, rest)) :
    ∃ u, t = q.chars.reverse ++ u ∧ Spells q.rigour u (pre ++ cs) rest := by
  induction cs generalizing q pre with
  | nil => cases h
  | cons c cs ih =>
    cases hstep : q.step c with
    | error fault =>
      rw [scan_error hstep] at h
      cases h
    | ok outcome =>
      obtain ⟨q', rfl⟩ | ⟨hplace, rfl, rfl⟩ := step_eq_ok hstep
      · rw [scan_more hstep] at h
        obtain ⟨bytes, code, rfl⟩ | ⟨u, pre', hq', hrigour, hchars, hspells⟩ :=
          advances_of_step hq hstep
        · -- a wrong digit was read, and the string is never done
          cases cs with
          | nil => cases h
          | cons c' cs =>
            rw [scan_bad rfl] at h
            cases h
        · -- what the step spells stands in front of what the rest spells
          obtain ⟨v, rfl, hv⟩ := ih hq' h
          rw [hrigour] at hv
          exact ⟨u ++ v, by rw [hchars, List.append_assoc], hspells v cs rest hv⟩
      · -- the quote that ends the string stands between characters
        rw [scan_done hstep] at h
        cases h
        cases hq with
        | plain => exact ⟨[], (List.append_nil _).symm, .close⟩
        | _ => cases hplace

/-- A string that is read to its end spells what the reader came to. -/
theorem spells_of_scan {r : Rigour} {t cs rest : List Char}
    (h : scan step { rigour := r } cs = some (t, rest)) : Spells r t cs rest := by
  obtain ⟨u, rfl, hspells⟩ := spells_of_holds .plain h
  exact hspells

end Quoted

end SignalChain.Json
