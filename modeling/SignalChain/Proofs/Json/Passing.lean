import SignalChain.Proofs.Json.Scalars

/-!
# Passing over values

A value that nobody wants is passed over exactly: the reader stops where the value ends, however
deep it is nested and whatever stands in it (`scan_of_spelled`), and it stops nowhere else
(`spelled_of_scan`). The first is an induction over the value; a bracket that closes brings the
reader back to where it was when the bracket opened. For the second, the stack of open brackets is
what the rest of the text still owes (`Closes`), which one step of the reader pays off by one
character (`wants_of_step`).
-/

namespace SignalChain.Json

/-- Blanks in front of an item belong to it. -/
theorem Spelled.blank_item {b : Bracket} {c : Char} {cs rest : List Char}
    (hc : isBlank c = true) (h : Spelled (.item b) cs rest) : Spelled (.item b) (c :: cs) rest := by
  cases h with
  | element hws hvalue => exact .element (.cons hc hws) hvalue
  | member hkey hvalue =>
    obtain ⟨cs₁, cs₂, cs₃, hws, hrest⟩ := hkey
    exact .member ⟨cs₁, cs₂, cs₃, .cons hc hws, hrest⟩ hvalue

/-- Blanks behind an item belong to what follows it. -/
theorem Spelled.blank_after {b : Bracket} {c : Char} {cs rest : List Char}
    (hc : isBlank c = true) (h : Spelled (.after b) cs rest) :
    Spelled (.after b) (c :: cs) rest := by
  cases h with
  | close h => exact .close (.cons hc h)
  | comma h hitem hafter => exact .comma (.cons hc h) hitem hafter

/-- What stands behind blanks follows a value, if it may do so without them. -/
theorem Ws.follow {c : Char} {cs rest : List Char} (h : Ws cs (c :: rest))
    (hc : c = ',' ∨ ∃ b : Bracket, c = b.closing) : Follow cs := by
  cases h with
  | nil =>
    refine ⟨c, rest, rfl, .inr ?_⟩
    rcases hc with rfl | ⟨b, rfl⟩
    · exact .inl rfl
    · cases b
      · exact .inr (.inl rfl)
      · exact .inr (.inr rfl)
  | cons hblank _ => exact ⟨_, _, rfl, .inl hblank⟩

/-- What stands behind an item follows a value. -/
theorem Spelled.follow {b : Bracket} {cs rest : List Char} (h : Spelled (.after b) cs rest) :
    Follow cs := by
  cases h with
  | close h => exact h.follow (.inr ⟨b, rfl⟩)
  | comma h _ _ => exact h.follow (.inl rfl)

/-- What stands behind an item of a text follows a value. -/
theorem After.follow {α : Type} {Item : α → List Char → List Char → Prop} {b : Bracket}
    {xs : List α} {cs rest : List Char} (h : After Item b xs cs rest) : Follow cs := by
  cases h with
  | close h => exact h.follow (.inr ⟨b, rfl⟩)
  | comma h _ _ => exact h.follow (.inl rfl)

/-- Neither a blank nor a bracket that closes opens a bracket. -/
theorem Bracket.opening_ne (b : Bracket) :
    isBlank b.opening = false ∧ ∀ b' : Bracket, b.opening ≠ b'.closing := by
  refine ⟨by cases b <;> rfl, fun b' => ?_⟩
  cases b <;> cases b' <;> decide

/-- A value begins neither with a blank nor with a bracket that closes. -/
theorem Spelled.exists_head {v : Value} {cs rest : List Char} (h : Spelled (.value v) cs rest)
    (hfollow : Follow rest) :
    ∃ c cs', cs = c :: cs' ∧ isBlank c = false ∧ ∀ b : Bracket, c ≠ b.closing := by
  by_cases hv : v.IsScalar
  · obtain ⟨c, cs', s, found, rfl, hstart, -⟩ := Scalar.exists_scan_loose h hv hfollow
    obtain ⟨hblank, hmark⟩ := Scalar.not_mark_of_start? hstart
    exact ⟨c, cs', rfl, hblank, fun b => (hmark b).2⟩
  · obtain ⟨b, rfl⟩ := Value.exists_bracket hv
    obtain ⟨cs', rfl⟩ := h.exists_opening rfl
    exact ⟨b.opening, cs', rfl, b.opening_ne.1, b.opening_ne.2⟩

namespace Skip

variable {s : Skip} {b : Bracket} {opened outer : List Bracket} {c : Char} {cs rest : List Char}

/-- Where the reader stands after the bracket that opens. -/
def startPlace : Bracket → Place
  | .list => .listStart
  | .object => .objectStart

/-- Where the reader stands before an item. -/
def itemPlace : Bracket → Place
  | .list => .value
  | .object => .keyDue

/-- The reader after a value: it is done if no bracket is open. -/
def resume : List Bracket → List Char → Option (Unit × List Char)
  | [], cs => some ((), cs)
  | b :: outer, cs => scan step { place := .after, opened := b :: outer } cs

/-- A character that ends a value. -/
theorem scan_of_close (h : s.step c = .ok (close opened)) :
    scan step s (c :: cs) = resume opened cs := by
  cases opened with
  | nil => exact scan_done h
  | cons b outer => exact scan_more h

/-- The reader stands between the parts of a value, where blanks may stand too. -/
def Idle (s : Skip) : Prop :=
  match s.place, s.opened with
  | .scalar _, _ | .key _, _ | .after, [] => False
  | _, _ => True

/-- After the bracket that opens, blanks may stand. -/
theorem idle_start : Idle { place := startPlace b, opened } := by
  cases b <;> trivial

/-- Blanks between the parts of a value change nothing. -/
theorem step_blank (hidle : s.Idle) (hc : isBlank c = true) : s.step c = .ok (.more s) := by
  obtain ⟨place, opened⟩ := s
  cases place with
  | value => simp only [step, stepValue, if_pos hc]
  | scalar x => exact hidle.elim
  | listStart => simp only [step, if_pos hc]
  | objectStart =>
    -- the bracket that closes is looked for first
    have hclose : c ≠ '\x7d' := by
      rintro rfl
      cases hc
    simp only [step, stepKey, if_neg hclose, if_pos hc]
  | keyDue => simp only [step, stepKey, if_pos hc]
  | key q => exact hidle.elim
  | colon => simp only [step, if_pos hc]
  | after =>
    cases opened with
    | nil => exact hidle.elim
    | cons b outer => cases b <;> simp only [step, stepAfter, if_pos hc]

/-- Blanks between the parts of a value are passed over. -/
theorem scan_ws (hidle : s.Idle) (h : Ws cs rest) : scan step s cs = scan step s rest := by
  induction h with
  | nil => rfl
  | cons hblank _ ih => exact (scan_more (step_blank hidle hblank)).trans ih

/-- A value without parts is read by its own reader. -/
theorem scan_scalar (x : Scalar) (cs : List Char) :
    scan step { place := .scalar x, opened } cs =
      (scan (Scalar.step .loose) x cs).bind fun p => resume opened p.2 := by
  refine eq_bind_scan (H := fun x cs => scan step { place := .scalar x, opened } cs)
    (K := fun _ rest => resume opened rest) (fun _ => rfl) ?_ x cs
  intro x c cs
  simp only [scan, step]
  cases x.step .loose c with
  | error fault => rfl
  | ok outcome =>
    cases outcome with
    | more x => rfl
    | done found => cases opened <;> rfl
    | before found => cases opened <;> rfl

/-- A key is read by the reader of strings. -/
theorem scan_key (q : Quoted) (cs : List Char) :
    scan step { place := .key q, opened } cs =
      (scan Quoted.step q cs).bind fun p => scan step { place := .colon, opened } p.2 := by
  refine eq_bind_scan (H := fun q cs => scan step { place := .key q, opened } cs)
    (K := fun _ rest => scan step { place := .colon, opened } rest) (fun _ => rfl) ?_ q cs
  intro q c cs
  simp only [scan, step]
  cases hstep : q.step c with
  | error fault => rfl
  | ok outcome =>
    cases outcome with
    | more q => rfl
    | done t => rfl
    | before t => exact absurd hstep (q.step_ne_before c t)

/-- The reader after the reading of a phrase. -/
def Passes : Phrase → List Char → List Char → Prop
  | .value _, cs, rest => Follow rest → ∀ opened,
      scan step { place := .value, opened } cs = resume opened rest
  | .item b, cs, rest => Follow rest → ∀ outer,
      scan step { place := itemPlace b, opened := b :: outer } cs =
        scan step { place := .after, opened := b :: outer } rest
  | .after b, cs, rest => ∀ outer,
      scan step { place := .after, opened := b :: outer } cs = resume outer rest

/-- A value without parts is passed over. -/
theorem passes_scalar {v : Value} (h : Spelled (.value v) cs rest) (hv : v.IsScalar) :
    Passes (.value v) cs rest := by
  intro hfollow opened
  obtain ⟨c, cs, x, found, rfl, hstart, hscan⟩ := Scalar.exists_scan_loose h hv hfollow
  obtain ⟨hblank, hmark⟩ := Scalar.not_mark_of_start? hstart
  have hstep : step { place := .value, opened } c =
      .ok (.more { place := .scalar x, opened }) := by
    simp only [step, stepValue, if_neg (by simp [hblank] : ¬ isBlank c = true),
      if_neg (show c ≠ '[' from (hmark .list).1), if_neg (show c ≠ '\x7b' from (hmark .object).1),
      hstart]
  rw [scan_more hstep, scan_scalar, hscan]
  rfl

/-- Where something stands in brackets, what it begins with does not close them. -/
theorem scan_start_eq (h : Spelled (.item b) cs rest) (hfollow : Follow rest) :
    scan step { place := startPlace b, opened } cs =
      scan step { place := itemPlace b, opened } cs := by
  cases h with
  | @element v cs mid rest hws hvalue =>
    obtain ⟨c, cs', rfl, hblank, hclosing⟩ := hvalue.exists_head hfollow
    rw [scan_ws (idle_start (b := .list)) hws,
      scan_ws (s := { place := itemPlace .list, opened }) trivial hws]
    have hstep : step { place := startPlace .list, opened } c =
        step { place := itemPlace .list, opened } c := by
      simp only [step, startPlace, itemPlace, if_neg (by simp [hblank] : ¬ isBlank c = true),
        if_neg (show c ≠ ']' from hclosing .list)]
      rfl
    rw [scan, hstep]
    rfl
  | member hkey hvalue =>
    obtain ⟨cs₁, cs₂, cs₃, hws, -⟩ := hkey
    rw [scan_ws (idle_start (b := .object)) hws,
      scan_ws (s := { place := itemPlace .object, opened }) trivial hws]
    rfl

/-- A phrase is passed over to its end. -/
theorem passes_of_spelled {phrase : Phrase} (h : Spelled phrase cs rest) :
    Passes phrase cs rest := by
  -- the brackets that are open already stay as they are below the phrase
  induction h with
  | word hw => exact passes_scalar (.word hw) (Value.isScalar_of_word hw)
  | number hfraction hexponent =>
    exact passes_scalar (.number hfraction hexponent) (Value.isScalar_number _ _ _)
  | text hspells => exact passes_scalar (.text hspells) Value.isScalar_text
  | @empty b cs rest hclose =>
    intro hfollow opened
    have hopen : step { place := .value, opened } b.opening =
        .ok (.more { place := startPlace b, opened := b :: opened }) := by cases b <;> rfl
    have hend : step { place := startPlace b, opened := b :: opened } b.closing =
        .ok (close opened) := by cases b <;> rfl
    rw [scan_more hopen, scan_ws idle_start hclose]
    exact scan_of_close hend
  | @filled b cs mid rest hitem hafter ihitem ihafter =>
    intro hfollow opened
    have hopen : step { place := .value, opened } b.opening =
        .ok (.more { place := startPlace b, opened := b :: opened }) := by cases b <;> rfl
    -- what stands behind an item cannot belong to a number at its end
    rw [scan_more hopen, scan_start_eq hitem hafter.follow, ihitem hafter.follow]
    exact ihafter opened
  | element hws hvalue ih =>
    intro hfollow outer
    exact (scan_ws (by trivial) hws).trans (ih hfollow (.list :: outer))
  | member hkey hvalue ih =>
    intro hfollow outer
    obtain ⟨cs₁, cs₂, cs₃, hquote, hspells, hcolon, hws⟩ := hkey
    have hopen : step { place := .keyDue, opened := .object :: outer } '"' =
        .ok (.more { place := .key { rigour := .loose }, opened := .object :: outer }) := rfl
    have hdue : step { place := .colon, opened := .object :: outer } ':' =
        .ok (.more { place := .value, opened := .object :: outer }) := rfl
    refine (scan_ws (s := { place := .keyDue, opened := .object :: outer }) trivial hquote).trans ?_
    rw [scan_more hopen, scan_key, Quoted.scan_quoted_of_spells hspells []]
    refine (scan_ws (by trivial) hcolon).trans ?_
    rw [scan_more hdue]
    exact (scan_ws (by trivial) hws).trans (ih hfollow (.object :: outer))
  | @close b cs rest hclose =>
    intro outer
    have hend : step { place := .after, opened := b :: outer } b.closing = .ok (close outer) := by
      cases b <;> rfl
    exact (scan_ws (by trivial) hclose).trans (scan_of_close hend)
  | @comma b cs cs₁ cs₂ rest hcomma hitem hafter ihitem ihafter =>
    intro outer
    have hmore : step { place := .after, opened := b :: outer } ',' =
        .ok (.more { place := itemPlace b, opened := b :: outer }) := by cases b <;> rfl
    refine (scan_ws (by trivial) hcomma).trans ?_
    rw [scan_more hmore, ihitem hafter.follow]
    exact ihafter outer

/-- A value that nobody wants is passed over to its end. -/
theorem scan_of_spelled {v : Value} {mid : List Char} (hws : Ws cs mid)
    (h : Spelled (.value v) mid rest) (hfollow : Follow rest) :
    scan step {} cs = some ((), rest) :=
  (scan_ws (by trivial) hws).trans (passes_of_spelled h hfollow [])

/-! ### Nothing else is passed over -/

variable {outcome : Scan Skip Unit}

/-- What the open brackets still owe. -/
def Closes : List Bracket → List Char → List Char → Prop
  | [], cs, rest => cs = rest
  | b :: outer, cs, rest => ∃ mid, Spelled (.after b) cs mid ∧ Closes outer mid rest

/-- What stands between brackets, up to and with the one that closes. -/
def Inside (b : Bracket) (cs rest : List Char) : Prop :=
  Ws cs (b.closing :: rest) ∨ ∃ mid, Spelled (.item b) cs mid ∧ Spelled (.after b) mid rest

/-- What the reader still owes, wherever it stands. -/
def Wants (s : Skip) (cs rest : List Char) : Prop :=
  match s.place with
  | .value => ∃ mid, Spelled (.item .list) cs mid ∧ Closes s.opened mid rest
  | .scalar x => ∃ found mid, scan (Scalar.step .loose) x cs = some (found, mid) ∧
      Closes s.opened mid rest
  | .listStart => ∀ outer, s.opened = .list :: outer →
      ∃ mid, Inside .list cs mid ∧ Closes outer mid rest
  | .objectStart => ∀ outer, s.opened = .object :: outer →
      ∃ mid, Inside .object cs mid ∧ Closes outer mid rest
  | .keyDue => ∃ mid, Spelled (.item .object) cs mid ∧ Closes s.opened mid rest
  | .key q => ∃ t mid₁ mid₂ mid, scan Quoted.step q cs = some (t, mid₁) ∧
      Ws mid₁ (':' :: mid₂) ∧ Spelled (.item .list) mid₂ mid ∧ Closes s.opened mid rest
  | .colon => ∃ mid₂ mid, Ws cs (':' :: mid₂) ∧ Spelled (.item .list) mid₂ mid ∧
      Closes s.opened mid rest
  | .after => Closes s.opened cs rest

/-- What is left to be owed after a character. -/
def Leaves (outcome : Scan Skip Unit) (c : Char) (cs rest : List Char) : Prop :=
  match outcome with
  | .more s => s.Wants cs rest
  | .done _ => cs = rest
  | .before _ => c :: cs = rest

/-- After a value, the open brackets are owed. -/
theorem leaves_close : Leaves (close opened) c cs rest ↔ Closes opened cs rest := by
  cases opened <;> rfl

/-- Behind the bracket that opens stands what the bracket holds. -/
theorem Inside.spelled (h : Inside b cs rest) :
    Spelled (.value b.value) (b.opening :: cs) rest := by
  rcases h with hclose | ⟨mid, hitem, hafter⟩
  · exact .empty hclose
  · exact .filled hitem hafter

/-- Blanks may stand in front of what a bracket holds. -/
theorem Inside.blank (hc : isBlank c = true) (h : Inside b cs rest) : Inside b (c :: cs) rest := by
  rcases h with hclose | ⟨mid, hitem, hafter⟩
  · exact .inl (.cons hc hclose)
  · exact .inr ⟨mid, hitem.blank_item hc, hafter⟩

/-- A step where a value is due. -/
theorem wants_of_stepValue (h : s.stepValue c = .ok outcome)
    (hleaves : Leaves outcome c cs rest) :
    ∃ mid, Spelled (.item .list) (c :: cs) mid ∧ Closes s.opened mid rest := by
  unfold stepValue at h
  split at h
  · next hblank =>
    cases h
    obtain ⟨mid, hitem, hcloses⟩ := hleaves
    exact ⟨mid, hitem.blank_item hblank, hcloses⟩
  split at h
  · next hc =>
    subst hc
    cases h
    obtain ⟨mid, hinside, hcloses⟩ := hleaves _ rfl
    exact ⟨mid, .element .nil hinside.spelled, hcloses⟩
  split at h
  · next hc =>
    subst hc
    cases h
    obtain ⟨mid, hinside, hcloses⟩ := hleaves _ rfl
    exact ⟨mid, .element .nil hinside.spelled, hcloses⟩
  split at h
  · next x hstart =>
    cases h
    obtain ⟨found, mid, hscan, hcloses⟩ := hleaves
    obtain ⟨v, hv⟩ := Scalar.value_of_scan hstart hscan
    exact ⟨mid, .element .nil hv, hcloses⟩
  · cases h

/-- A step after a value. -/
theorem closes_of_stepAfter (h : stepAfter opened c = .ok outcome)
    (hleaves : Leaves outcome c cs rest) : Closes opened (c :: cs) rest := by
  cases opened with
  | nil =>
    cases h
    exact hleaves
  | cons b outer =>
    by_cases hblank : isBlank c = true
    · have hstep : stepAfter (b :: outer) c =
          .ok (.more { place := .after, opened := b :: outer }) :=
        step_blank (s := { place := .after, opened := b :: outer }) trivial hblank
      rw [hstep] at h
      cases h
      obtain ⟨mid, hafter, hcloses⟩ := hleaves
      exact ⟨mid, hafter.blank_after hblank, hcloses⟩
    by_cases hcomma : c = ','
    · subst hcomma
      have hstep : stepAfter (b :: outer) ',' =
          .ok (.more { place := itemPlace b, opened := b :: outer }) := by cases b <;> rfl
      rw [hstep] at h
      cases h
      obtain ⟨mid, hitem, mid', hafter, hcloses⟩ : ∃ mid, Spelled (.item b) cs mid ∧
          Closes (b :: outer) mid rest := by cases b <;> exact hleaves
      exact ⟨mid', .comma .nil hitem hafter, hcloses⟩
    by_cases hclose : c = b.closing
    · -- the innermost bracket is paid off
      subst hclose
      have hstep : stepAfter (b :: outer) b.closing = .ok (close outer) := by cases b <;> rfl
      rw [hstep] at h
      cases h
      exact ⟨cs, .close .nil, leaves_close.mp hleaves⟩
    · -- nothing else may stand after a value inside brackets
      cases b with
      | list =>
        simp only [stepAfter, if_neg hblank, if_neg hcomma,
          if_neg (show c ≠ ']' from hclose)] at h
        cases h
      | object =>
        simp only [stepAfter, if_neg hblank, if_neg hcomma,
          if_neg (show c ≠ '\x7d' from hclose)] at h
        cases h

/-- A step where a key is due: blanks are passed over, and a quote begins the key. -/
theorem stepKey_cases (h : s.stepKey c = .ok outcome) :
    isBlank c = true ∧ outcome = .more s ∨
      c = '"' ∧ outcome = .more { s with place := .key { rigour := .loose } } := by
  unfold stepKey at h
  split at h
  · next hblank => exact .inl ⟨hblank, (Except.ok.inj h).symm⟩
  split at h
  · next hquote => exact .inr ⟨hquote, (Except.ok.inj h).symm⟩
  · cases h

/-- What a key that has been begun owes makes a member. -/
theorem item_of_key (h : Wants { s with place := .key { rigour := .loose } } cs rest) :
    ∃ mid, Spelled (.item .object) ('"' :: cs) mid ∧ Closes s.opened mid rest := by
  obtain ⟨t, mid₁, mid₂, mid, hscan, hcolon, hitem, hcloses⟩ := h
  cases hitem with
  | element hws hvalue =>
    exact ⟨mid, .member ⟨cs, mid₁, mid₂, .nil, Quoted.spells_of_scan hscan, hcolon, hws⟩ hvalue,
      hcloses⟩

/-- A step inside a value without parts. -/
theorem wants_of_scalar {x : Scalar} (h : step { place := .scalar x, opened } c = .ok outcome)
    (hleaves : Leaves outcome c cs rest) :
    Wants { place := .scalar x, opened } (c :: cs) rest := by
  simp only [step] at h
  cases hstep : x.step .loose c with
  | error fault =>
    rw [hstep] at h
    cases h
  | ok found =>
    rw [hstep] at h
    cases found with
    | more x' =>
      cases h
      obtain ⟨found, mid, hscan, hcloses⟩ := hleaves
      exact ⟨found, mid, (scan_more hstep).trans hscan, hcloses⟩
    | done found =>
      cases h
      exact ⟨found, cs, scan_done hstep, leaves_close.mp hleaves⟩
    | before found =>
      -- the character belongs to what stands behind the value
      exact ⟨found, c :: cs, scan_before hstep, closes_of_stepAfter h hleaves⟩

/-- A step after the bracket that opens a list. -/
theorem wants_of_listStart (h : step { place := .listStart, opened } c = .ok outcome)
    (hleaves : Leaves outcome c cs rest) :
    Wants { place := .listStart, opened } (c :: cs) rest := by
  rintro outer rfl
  by_cases hblank : isBlank c = true
  · simp only [step, if_pos hblank] at h
    cases h
    obtain ⟨mid, hinside, hcloses⟩ := hleaves outer rfl
    exact ⟨mid, hinside.blank hblank, hcloses⟩
  by_cases hclose : c = ']'
  · subst hclose
    cases h
    exact ⟨cs, .inl .nil, leaves_close.mp hleaves⟩
  · simp only [step, if_neg hblank, if_neg hclose] at h
    obtain ⟨mid, hitem, mid', hafter, hcloses⟩ := wants_of_stepValue h hleaves
    exact ⟨mid', .inr ⟨mid, hitem, hafter⟩, hcloses⟩

/-- A step after the bracket that opens an object. -/
theorem wants_of_objectStart (h : step { place := .objectStart, opened } c = .ok outcome)
    (hleaves : Leaves outcome c cs rest) :
    Wants { place := .objectStart, opened } (c :: cs) rest := by
  rintro outer rfl
  by_cases hclose : c = '\x7d'
  · subst hclose
    cases h
    exact ⟨cs, .inl .nil, leaves_close.mp hleaves⟩
  · simp only [step, if_neg hclose] at h
    obtain ⟨hblank, rfl⟩ | ⟨rfl, rfl⟩ := stepKey_cases h
    · obtain ⟨mid, hinside, hcloses⟩ := hleaves outer rfl
      exact ⟨mid, hinside.blank hblank, hcloses⟩
    · obtain ⟨mid, hitem, mid', hafter, hcloses⟩ := item_of_key hleaves
      exact ⟨mid', .inr ⟨mid, hitem, hafter⟩, hcloses⟩

/-- A step where a key is due. -/
theorem wants_of_keyDue (h : step { place := .keyDue, opened } c = .ok outcome)
    (hleaves : Leaves outcome c cs rest) :
    Wants { place := .keyDue, opened } (c :: cs) rest := by
  obtain ⟨hblank, rfl⟩ | ⟨rfl, rfl⟩ := stepKey_cases h
  · obtain ⟨mid, hitem, hcloses⟩ := hleaves
    exact ⟨mid, hitem.blank_item hblank, hcloses⟩
  · exact item_of_key hleaves

/-- A step inside a key. -/
theorem wants_of_key {q : Quoted} (h : step { place := .key q, opened } c = .ok outcome)
    (hleaves : Leaves outcome c cs rest) :
    Wants { place := .key q, opened } (c :: cs) rest := by
  simp only [step] at h
  cases hstep : q.step c with
  | error fault =>
    rw [hstep] at h
    cases h
  | ok read =>
    rw [hstep] at h
    cases read with
    | more q' =>
      cases h
      obtain ⟨t, mid₁, mid₂, mid, hscan, hrest⟩ := hleaves
      exact ⟨t, mid₁, mid₂, mid, (scan_more hstep).trans hscan, hrest⟩
    | done t =>
      cases h
      obtain ⟨mid₂, mid, hrest⟩ := hleaves
      exact ⟨t, cs, mid₂, mid, scan_done hstep, hrest⟩
    | before t => exact absurd hstep (q.step_ne_before c t)

/-- A step where a colon is due. -/
theorem wants_of_colon (h : step { place := .colon, opened } c = .ok outcome)
    (hleaves : Leaves outcome c cs rest) :
    Wants { place := .colon, opened } (c :: cs) rest := by
  simp only [step] at h
  split at h
  · next hblank =>
    cases h
    obtain ⟨mid₂, mid, hws, hrest⟩ := hleaves
    exact ⟨mid₂, mid, .cons hblank hws, hrest⟩
  split at h
  · next hcolon =>
    subst hcolon
    cases h
    obtain ⟨mid, hitem, hcloses⟩ := hleaves
    exact ⟨cs, mid, .nil, hitem, hcloses⟩
  · cases h

/-- One step pays off one character. -/
theorem wants_of_step (h : s.step c = .ok outcome)
    (hleaves : Leaves outcome c cs rest) : s.Wants (c :: cs) rest := by
  obtain ⟨place, opened⟩ := s
  cases place with
  | value => exact wants_of_stepValue h hleaves
  | scalar x => exact wants_of_scalar h hleaves
  | listStart => exact wants_of_listStart h hleaves
  | objectStart => exact wants_of_objectStart h hleaves
  | keyDue => exact wants_of_keyDue h hleaves
  | key q => exact wants_of_key h hleaves
  | colon => exact wants_of_colon h hleaves
  | after => exact closes_of_stepAfter h hleaves

/-- Nothing but a value is passed over. -/
theorem spelled_of_scan (h : scan step {} cs = some ((), rest)) :
    ∃ v mid, Ws cs mid ∧ Spelled (.value v) mid rest := by
  -- where the reader begins, it owes a value and no bracket
  have hwants : Wants {} cs rest :=
    scan_induction (P := fun s cs _ rest => s.Wants cs rest)
      (fun _ _ _ _ _ _ hstep hnext => wants_of_step hstep hnext)
      (fun _ _ _ _ hstep => wants_of_step hstep rfl)
      (fun _ _ _ _ hstep => wants_of_step hstep rfl) h
  obtain ⟨mid, hitem, rfl⟩ := hwants
  cases hitem with
  | element hws hvalue => exact ⟨_, _, hws, hvalue⟩

end Skip

end SignalChain.Json
