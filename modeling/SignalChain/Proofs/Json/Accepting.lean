import SignalChain.Proofs.Json.Reading

/-!
# Texts that are read

From a text that is neither that of an object nor that of a list, nothing is read
(`isText_of_read`). The proof goes back from the end of a text that was read: what the reader
still accepts depends on nothing but where it stands (`Accepts`), and what it accepts after a step
it accepted before it, with the character of the step in front (`accepts_of_step`).
-/

namespace SignalChain.Json

/-- Blanks in front of a member belong to it. -/
theorem IsMember.blank {m : Member} {c : Char} {cs rest : List Char} (hc : isBlank c = true)
    (h : IsMember m cs rest) : IsMember m (c :: cs) rest := by
  obtain ⟨mid, ⟨cs₁, cs₂, cs₃, hws, hkey⟩, hvalue⟩ := h
  exact ⟨mid, ⟨cs₁, cs₂, cs₃, .cons hc hws, hkey⟩, hvalue⟩

/-- Blanks in front of an element belong to it. -/
theorem IsElement.blank {v : Value} {c : Char} {cs rest : List Char} (hc : isBlank c = true)
    (h : IsElement v cs rest) : IsElement v (c :: cs) rest := by
  obtain ⟨mid, hws, hvalue⟩ := h
  exact ⟨mid, .cons hc hws, hvalue⟩

/-- An element is a value with blanks in front of it. -/
theorem exists_isElement {cs rest : List Char} (h : Spelled (.item .list) cs rest) :
    ∃ v, IsElement v cs rest := by
  cases h with
  | @element v _ mid _ hws hvalue => exact ⟨v, mid, hws, hvalue⟩

/-- A key and a value make a member. -/
theorem exists_isMember {key cs mid₁ mid₂ mid : List Char} (hspells : Spells .strict key cs mid₁)
    (hcolon : Ws mid₁ (':' :: mid₂)) (hitem : Spelled (.item .list) mid₂ mid) :
    ∃ m, IsMember m ('"' :: cs) mid := by
  cases hitem with
  | @element v _ mid₃ _ hws hvalue =>
    exact ⟨(key, v), mid₃, ⟨cs, mid₁, mid₂, .nil, hspells, hcolon, hws⟩, hvalue⟩

section

variable {α : Type} {Item : α → List Char → List Char → Prop} {b : Bracket} {xs : List α}
  {c : Char} {cs rest : List Char}

/-- Blanks may stand in front of what follows an item. -/
theorem After.blank (hc : isBlank c = true) (h : After Item b xs cs rest) :
    After Item b xs (c :: cs) rest := by
  cases h with
  | close h => exact .close (.cons hc h)
  | comma h hitem hafter => exact .comma (.cons hc h) hitem hafter

/-- Blanks may stand in front of the items in a bracket. -/
theorem Items.blank (hitems : ∀ {x mid}, Item x cs mid → Item x (c :: cs) mid)
    (hc : isBlank c = true) (h : Items Item b xs cs rest) : Items Item b xs (c :: cs) rest := by
  cases h with
  | empty h => exact .empty (.cons hc h)
  | filled hitem hafter => exact .filled (hitems hitem) hafter

end

namespace Record

variable {r : Record} {st st' : State} {slot : Slot} {values : List (Option Datum)} {c : Char}
  {cs : List Char}

/-- The rest of a text behind a value that stands in brackets, up to the end of the text. -/
def Behind : Bracket → List Char → Prop
  | .object, cs => ∃ ms rest, After IsMember .object ms cs rest ∧ Ws rest []
  | .list, cs => ∃ vs rest, After IsElement .list vs cs rest ∧ Ws rest []

/-- The bracket that a value stands in. -/
def Slot.bracket : Slot → Bracket
  | member _ => .object
  | element _ => .list

/-- What the reader still accepts where it stands, whatever it has read so far. -/
def Accepts (place : Place) (cs : List Char) : Prop :=
  match place with
  | .start => (∃ ms, IsObject ms cs) ∨ ∃ vs, IsList vs cs
  | .stray _ => False
  | .objectStart => ∃ ms rest, Items IsMember .object ms cs rest ∧ Ws rest []
  | .objectNext => Behind .object cs
  | .keyDue => ∃ m mid, IsMember m cs mid ∧ Behind .object mid
  | .key q => ∃ key mid₁ mid₂ mid, scan Quoted.step q cs = some (key, mid₁) ∧
      Ws mid₁ (':' :: mid₂) ∧ Spelled (.item .list) mid₂ mid ∧ Behind .object mid
  | .colon _ => ∃ mid₂ mid, Ws cs (':' :: mid₂) ∧ Spelled (.item .list) mid₂ mid ∧
      Behind .object mid
  | .due slot => ∃ mid, Spelled (.item .list) cs mid ∧ Behind slot.bracket mid
  | .value slot x => ∃ found mid, scan (Scalar.step .strict) x cs = some (found, mid) ∧
      Behind slot.bracket mid
  | .skipping s => ∃ mid, scan Skip.step s cs = some ((), mid) ∧ Behind .object mid
  | .listStart => ∃ vs rest, Items IsElement .list vs cs rest ∧ Ws rest []
  | .listNext _ => Behind .list cs
  | .elementDue _ => ∃ mid, Spelled (.item .list) cs mid ∧ Behind .list mid
  | .done => Ws cs []

/-- Blanks may stand in front of what is behind a value. -/
theorem Behind.blank {b : Bracket} (hc : isBlank c = true) (h : Behind b cs) :
    Behind b (c :: cs) := by
  cases b with
  | object =>
    obtain ⟨ms, rest, hafter, hend⟩ := h
    exact ⟨ms, rest, hafter.blank hc, hend⟩
  | list =>
    obtain ⟨vs, rest, hafter, hend⟩ := h
    exact ⟨vs, rest, hafter.blank hc, hend⟩

/-! ### Where the reader gets to -/

/-- The reader of an object is done where the object ends. -/
theorem place_of_closeObject (h : r.closeObject st = .ok st') : st'.place = .done := by
  unfold closeObject at h
  split at h
  · cases h
  · cases h
    rfl

/-- The reader of a list is done where the list ends. -/
theorem place_of_closeList {count : Nat} (h : r.closeList st count = .ok st') :
    st'.place = .done := by
  unfold closeList at h
  split at h
  · cases h
  · cases h
    rfl

/-- Behind a key, a colon is due. -/
theorem place_of_closeKey {key : List Char} (h : r.closeKey st key = .ok st') :
    ∃ field, st'.place = .colon field := by
  unfold closeKey at h
  split at h
  · cases h
    exact ⟨none, rfl⟩
  · split at h
    · cases h
    · cases h
      exact ⟨some _, rfl⟩

/-- A text may end nowhere but after the record. -/
theorem place_of_finish (h : r.finish st = .ok values) : st.place = .done := by
  obtain ⟨place, values'⟩ := st
  cases place with
  | done => rfl
  | stray x =>
    simp only [finish] at h
    split at h <;> cases h
  | value slot x =>
    simp only [finish] at h
    split at h
    · cases h
    · split at h <;> cases h
  | elementDue count =>
    simp only [finish] at h
    split at h <;> cases h
  | _ => cases h

/-! ### One step -/

/-- A step after a member. -/
theorem behind_of_stepObjectNext (h : r.stepObjectNext st c = .ok st')
    (haccepts : Accepts st'.place cs) : Behind .object (c :: cs) := by
  unfold stepObjectNext at h
  split at h
  · next hblank =>
    cases h
    exact Behind.blank (b := .object) hblank haccepts
  split at h
  · next hcomma =>
    subst hcomma
    cases h
    obtain ⟨m, mid, hitem, ms, rest, hafter, hend⟩ := haccepts
    exact ⟨m :: ms, rest, .comma .nil hitem hafter, hend⟩
  split at h
  · next hclose =>
    subst hclose
    rw [place_of_closeObject h] at haccepts
    exact ⟨[], cs, .close .nil, haccepts⟩
  · cases h

/-- A step after an element. -/
theorem behind_of_stepListNext {count : Nat} (h : r.stepListNext st count c = .ok st')
    (haccepts : Accepts st'.place cs) : Behind .list (c :: cs) := by
  unfold stepListNext at h
  split at h
  · next hblank =>
    cases h
    exact Behind.blank (b := .list) hblank haccepts
  split at h
  · next hclose =>
    subst hclose
    rw [place_of_closeList h] at haccepts
    exact ⟨[], cs, .close .nil, haccepts⟩
  split at h
  · next hcomma =>
    subst hcomma
    cases h
    obtain ⟨mid, hitem, vs, rest, hafter, hend⟩ := haccepts
    obtain ⟨v, hv⟩ := exists_isElement hitem
    exact ⟨v :: vs, rest, .comma .nil hv hafter, hend⟩
  · split at h <;> cases h

/-- A step after a value. -/
theorem behind_of_stepAfter (h : r.stepAfter st slot c = .ok st')
    (haccepts : Accepts st'.place cs) : Behind slot.bracket (c :: cs) := by
  cases slot with
  | member index => exact behind_of_stepObjectNext h haccepts
  | element index => exact behind_of_stepListNext h haccepts

/-- A step where the value of a field is due. -/
theorem accepts_of_stepDue (h : r.stepDue st slot c = .ok st')
    (haccepts : Accepts st'.place cs) :
    ∃ mid, Spelled (.item .list) (c :: cs) mid ∧ Behind slot.bracket mid := by
  -- a bracket is refused as soon as it opens
  have hbracket : ∀ found, found = Found.list ∨ found = Found.object →
      r.put st slot found ≠ .ok st' := by
    intro found hfound hput
    have hnone := toOption_put_bracket (r := r) hfound st slot
    rw [hput] at hnone
    cases hnone
  unfold stepDue at h
  split at h
  · next hblank =>
    cases h
    obtain ⟨mid, hitem, hbehind⟩ := haccepts
    exact ⟨mid, hitem.blank_item hblank, hbehind⟩
  split at h
  · exact absurd h (hbracket _ (.inl rfl))
  split at h
  · exact absurd h (hbracket _ (.inr rfl))
  split at h
  · next x hstart =>
    cases h
    obtain ⟨found, mid, hscan, hbehind⟩ := haccepts
    obtain ⟨v, hv⟩ := Scalar.value_of_scan hstart hscan
    exact ⟨mid, .element .nil hv, hbehind⟩
  · cases h

/-- A step before the record. -/
theorem accepts_of_start (h : r.step { place := .start, values } c = .ok st')
    (haccepts : Accepts st'.place cs) : Accepts .start (c :: cs) := by
  simp only [step] at h
  split at h
  · next hblank =>
    cases h
    rcases haccepts with ⟨ms, cs', rest, hws, hobject⟩ | ⟨vs, cs', rest, hws, hlist⟩
    · exact .inl ⟨ms, cs', rest, .cons hblank hws, hobject⟩
    · exact .inr ⟨vs, cs', rest, .cons hblank hws, hlist⟩
  split at h
  · next hc =>
    subst hc
    cases h
    obtain ⟨ms, rest, hitems, hend⟩ := haccepts
    exact .inl ⟨ms, cs, rest, .nil, hitems, hend⟩
  split at h
  · next hc =>
    subst hc
    cases h
    obtain ⟨vs, rest, hitems, hend⟩ := haccepts
    exact .inr ⟨vs, cs, rest, .nil, hitems, hend⟩
  split at h
  · -- a value that is no record is accepted nowhere
    cases h
    exact haccepts.elim
  · cases h

/-- A key that has been begun makes a member in the end. -/
theorem exists_isMember_of_key (h : Accepts (.key { rigour := .strict }) cs) :
    ∃ m mid, IsMember m ('"' :: cs) mid ∧ Behind .object mid := by
  obtain ⟨key, mid₁, mid₂, mid, hscan, hcolon, hitem, hbehind⟩ := h
  obtain ⟨m, hm⟩ := exists_isMember (Quoted.spells_of_scan hscan) hcolon hitem
  exact ⟨m, mid, hm, hbehind⟩

/-- A step after the bracket that opens an object. -/
theorem accepts_of_objectStart (h : r.step { place := .objectStart, values } c = .ok st')
    (haccepts : Accepts st'.place cs) : Accepts .objectStart (c :: cs) := by
  simp only [step] at h
  split at h
  · next hblank =>
    cases h
    obtain ⟨ms, rest, hitems, hend⟩ := haccepts
    exact ⟨ms, rest, hitems.blank (IsMember.blank hblank) hblank, hend⟩
  split at h
  · next hclose =>
    subst hclose
    rw [place_of_closeObject h] at haccepts
    exact ⟨[], cs, .empty .nil, haccepts⟩
  split at h
  · next hquote =>
    subst hquote
    cases h
    obtain ⟨m, mid, hm, ms, rest, hafter, hend⟩ := exists_isMember_of_key haccepts
    exact ⟨m :: ms, rest, .filled hm hafter, hend⟩
  · cases h

/-- A step where a key is due. -/
theorem accepts_of_keyDue (h : r.step { place := .keyDue, values } c = .ok st')
    (haccepts : Accepts st'.place cs) : Accepts .keyDue (c :: cs) := by
  simp only [step] at h
  split at h
  · next hblank =>
    cases h
    obtain ⟨m, mid, hm, hbehind⟩ := haccepts
    exact ⟨m, mid, hm.blank hblank, hbehind⟩
  split at h
  · cases h
  split at h
  · next hquote =>
    subst hquote
    cases h
    exact exists_isMember_of_key haccepts
  · cases h

/-- A step inside a key. -/
theorem accepts_of_key {q : Quoted} (h : r.step { place := .key q, values } c = .ok st')
    (haccepts : Accepts st'.place cs) : Accepts (.key q) (c :: cs) := by
  simp only [step] at h
  cases hstep : q.step c with
  | error fault =>
    rw [hstep] at h
    cases h
  | ok read =>
    rw [hstep] at h
    cases read with
    | more q' =>
      cases h
      obtain ⟨key, mid₁, mid₂, mid, hscan, hrest⟩ := haccepts
      exact ⟨key, mid₁, mid₂, mid, (scan_more hstep).trans hscan, hrest⟩
    | done key =>
      obtain ⟨field, hplace⟩ := place_of_closeKey h
      rw [hplace] at haccepts
      obtain ⟨mid₂, mid, hrest⟩ := haccepts
      exact ⟨key, cs, mid₂, mid, scan_done hstep, hrest⟩
    | before key => exact absurd hstep (q.step_ne_before c key)

/-- A step after a key: behind the colon stands a value, whether a field wants it or nobody. -/
theorem accepts_of_colon {field : Option Nat}
    (h : r.step { place := .colon field, values } c = .ok st')
    (haccepts : Accepts st'.place cs) : Accepts (.colon field) (c :: cs) := by
  simp only [step] at h
  split at h
  · next hblank =>
    cases h
    obtain ⟨mid₂, mid, hws, hrest⟩ := haccepts
    exact ⟨mid₂, mid, .cons hblank hws, hrest⟩
  split at h
  · next hcolon =>
    subst hcolon
    split at h
    · cases h
      obtain ⟨mid, hitem, hbehind⟩ := haccepts
      exact ⟨cs, mid, .nil, hitem, hbehind⟩
    · -- what was passed over is a value too
      cases h
      obtain ⟨mid, hscan, hbehind⟩ := haccepts
      obtain ⟨v, mid', hws, hvalue⟩ := Skip.spelled_of_scan hscan
      exact ⟨cs, mid, .nil, .element hws hvalue, hbehind⟩
  · cases h

/-- A step inside the value of a field. -/
theorem accepts_of_value {x : Scalar} (h : r.step { place := .value slot x, values } c = .ok st')
    (haccepts : Accepts st'.place cs) : Accepts (.value slot x) (c :: cs) := by
  simp only [step] at h
  cases hstep : x.step .strict c with
  | error fault =>
    rw [hstep] at h
    cases h
  | ok read =>
    rw [hstep] at h
    cases read with
    | more x' =>
      cases h
      obtain ⟨found, mid, hscan, hbehind⟩ := haccepts
      exact ⟨found, mid, (scan_more hstep).trans hscan, hbehind⟩
    | done found =>
      rw [place_of_put h] at haccepts
      refine ⟨found, cs, scan_done hstep, ?_⟩
      cases slot <;> exact haccepts
    | before found =>
      -- the character belongs to what stands behind the value
      dsimp only at h
      split at h
      · cases h
      · exact ⟨found, c :: cs, scan_before hstep, behind_of_stepAfter h haccepts⟩

/-- A step inside a value that nobody wants. -/
theorem accepts_of_skipping {s : Skip} (h : r.step { place := .skipping s, values } c = .ok st')
    (haccepts : Accepts st'.place cs) : Accepts (.skipping s) (c :: cs) := by
  simp only [step] at h
  cases hstep : s.step c with
  | error fault =>
    rw [hstep] at h
    cases h
  | ok read =>
    rw [hstep] at h
    cases read with
    | more s' =>
      cases h
      obtain ⟨mid, hscan, hbehind⟩ := haccepts
      exact ⟨mid, (scan_more hstep).trans hscan, hbehind⟩
    | done _ =>
      cases h
      exact ⟨cs, scan_done hstep, haccepts⟩
    | before _ => exact ⟨c :: cs, scan_before hstep, behind_of_stepObjectNext h haccepts⟩

/-- A step after the bracket that opens a list. -/
theorem accepts_of_listStart (h : r.step { place := .listStart, values } c = .ok st')
    (haccepts : Accepts st'.place cs) : Accepts .listStart (c :: cs) := by
  simp only [step] at h
  split at h
  · next hblank =>
    cases h
    obtain ⟨vs, rest, hitems, hend⟩ := haccepts
    exact ⟨vs, rest, hitems.blank (IsElement.blank hblank) hblank, hend⟩
  split at h
  · next hclose =>
    subst hclose
    rw [place_of_closeList h] at haccepts
    exact ⟨[], cs, .empty .nil, haccepts⟩
  · obtain ⟨mid, hitem, vs, rest, hafter, hend⟩ := accepts_of_stepDue h haccepts
    obtain ⟨v, hv⟩ := exists_isElement hitem
    exact ⟨v :: vs, rest, .filled hv hafter, hend⟩

/-- A step where an element is due. -/
theorem accepts_of_elementDue {count : Nat}
    (h : r.step { place := .elementDue count, values } c = .ok st')
    (haccepts : Accepts st'.place cs) : Accepts (.elementDue count) (c :: cs) := by
  simp only [step] at h
  split at h
  · next hblank =>
    cases h
    obtain ⟨mid, hitem, hbehind⟩ := haccepts
    exact ⟨mid, hitem.blank_item hblank, hbehind⟩
  split at h
  · cases h
  split at h
  · exact accepts_of_stepDue h haccepts
  · cases h

/-- What is accepted after a step was accepted before it, with the character in front. -/
theorem accepts_of_step (h : r.step st c = .ok st') (haccepts : Accepts st'.place cs) :
    Accepts st.place (c :: cs) := by
  obtain ⟨place, values⟩ := st
  cases place with
  | start => exact accepts_of_start h haccepts
  | stray x =>
    -- a value that is no record never becomes one
    simp only [step] at h
    split at h <;> cases h
    exact haccepts
  | objectStart => exact accepts_of_objectStart h haccepts
  | objectNext => exact behind_of_stepObjectNext h haccepts
  | keyDue => exact accepts_of_keyDue h haccepts
  | key q => exact accepts_of_key h haccepts
  | colon field => exact accepts_of_colon h haccepts
  | due slot => exact accepts_of_stepDue h haccepts
  | value slot x => exact accepts_of_value h haccepts
  | skipping s => exact accepts_of_skipping h haccepts
  | listStart => exact accepts_of_listStart h haccepts
  | listNext count => exact behind_of_stepListNext h haccepts
  | elementDue count => exact accepts_of_elementDue h haccepts
  | done =>
    simp only [step] at h
    split at h
    · next hblank =>
      cases h
      exact .cons hblank haccepts
    · cases h

/-- What is read to its end is accepted from where the reader stands. -/
theorem accepts_of_reads (h : r.reads st cs = some values) : Accepts st.place cs := by
  induction cs generalizing st with
  | nil =>
    -- a text may end only where the record has ended
    cases hfinish : r.finish st with
    | error fault =>
      simp only [reads, run_nil, Except.bind, hfinish] at h
      cases h
    | ok values =>
      rw [place_of_finish hfinish]
      exact .nil
  | cons c cs ih =>
    rw [reads_cons] at h
    obtain ⟨st', hstep, hrest⟩ := Option.bind_eq_some_iff.mp h
    exact accepts_of_step (eq_ok_of_toOption hstep) (ih hrest)

/-- A text that is read is one of an object or of a list. -/
theorem isText_of_read {text : String} (h : (r.read text).toOption = some values) :
    (∃ ms, IsObject ms text.toList) ∨ ∃ vs, IsList vs text.toList := by
  rw [toOption_read] at h
  exact accepts_of_reads h

end Record

end SignalChain.Json
