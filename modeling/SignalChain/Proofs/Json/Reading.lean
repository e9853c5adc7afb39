import SignalChain.Proofs.Json.Fields
import SignalChain.Proofs.Json.Passing

/-!
# Reading records

What is read from a text is what its grammar says: of an object, what its members say about the
fields (`read_of_isObject`), and of a list, what the object says that has its elements for the
first fields (`read_of_isList`). Both go along the text, with one equation for each kind of phrase:
what is read from here on is what is read behind the phrase, with the values that the phrase has
brought. A fault is `none` on the way, whichever it is.
-/

namespace SignalChain.Json.Record

variable {r : Record} {st st' : State} {place : Place} {slot : Slot}
  {values : List (Option Datum)} {c : Char} {cs rest : List Char}

variable (r) in
/-- What is read from here on, if it is read to its end. -/
def reads (st : State) (cs : List Char) : Option (List (Option Datum)) :=
  ((r.run st cs).bind r.finish).toOption

/-- The first character is read first. -/
theorem reads_cons (st : State) (c : Char) (cs : List Char) :
    r.reads st (c :: cs) = (r.step st c).toOption.bind (r.reads · cs) := by
  simp only [reads, run_cons]
  cases r.step st c <;> rfl

/-- A character that is taken leads to what is read behind it. -/
theorem reads_more (h : r.step st c = .ok st') : r.reads st (c :: cs) = r.reads st' cs := by
  rw [reads_cons, h]
  rfl

variable (r) in
/-- A text is read from its first character to its end. -/
theorem read_eq_bind (text : String) :
    r.read text = (r.run r.initial text.toList).bind r.finish := by
  rw [read]
  cases r.run r.initial text.toList <;> rfl

/-- A text is read from its first character on. -/
theorem toOption_read (text : String) :
    (r.read text).toOption = r.reads r.initial text.toList :=
  congrArg Except.toOption (r.read_eq_bind text)

/-- The reader stands between the parts of a record, where blanks may stand too. -/
def Place.IsIdle : Place → Prop
  | .stray _ | .key _ | .value _ _ | .skipping _ => False
  | _ => True

/-- Blanks between the parts of a record change nothing. -/
theorem step_blank (hidle : place.IsIdle) (hc : isBlank c = true) :
    r.step { place, values } c = .ok { place, values } := by
  cases place with
  | stray x => exact hidle.elim
  | key q => exact hidle.elim
  | value slot x => exact hidle.elim
  | skipping s => exact hidle.elim
  | objectNext => simp only [step, stepObjectNext, if_pos hc]
  | listNext count => simp only [step, stepListNext, if_pos hc]
  | due slot => simp only [step, stepDue, if_pos hc]
  | start | objectStart | keyDue | colon | listStart | elementDue | done =>
    simp only [step, if_pos hc]

/-- Blanks between the parts of a record are passed over. -/
theorem reads_ws (place : Place) (hidle : place.IsIdle) (h : Ws cs rest) :
    r.reads { place, values } cs = r.reads { place, values } rest := by
  induction h with
  | nil => rfl
  | cons hblank _ ih => exact (reads_more (step_blank hidle hblank)).trans ih

/-! ### Parts of a record -/

/-- A value has been read: the field takes it, and the reader stands behind it. -/
theorem toOption_put (st : State) (slot : Slot) (found : Found) :
    (r.put st slot found).toOption =
      r.fields[slot.index]?.bind fun f => (f.kind.accept found).toOption.map fun d =>
        { place := slot.next, values := st.values.set slot.index (some d) } := by
  unfold put
  cases r.fields[slot.index]? with
  | none => rfl
  | some f =>
    simp only [Option.bind_some]
    cases f.kind.accept found <;> rfl

/-- No field takes a list or an object. -/
theorem toOption_put_bracket {found : Found} (h : found = .list ∨ found = .object) (st : State)
    (slot : Slot) : (r.put st slot found).toOption = none := by
  rw [toOption_put]
  cases r.fields[slot.index]? with
  | none => rfl
  | some f =>
    have haccept : (f.kind.accept found).toOption = none := by
      rcases h with rfl | rfl <;> cases f.kind <;> rfl
    simp [haccept]

/-- Behind the value of a field, the reader stands behind the value. -/
theorem place_of_put {found : Found} (h : r.put st slot found = .ok st') :
    st'.place = slot.next := by
  have hsome : (r.put st slot found).toOption = some st' := by rw [h]; rfl
  rw [toOption_put] at hsome
  obtain ⟨f, -, hmap⟩ := Option.bind_eq_some_iff.mp hsome
  obtain ⟨d, -, rfl⟩ := Option.map_eq_some_iff.mp hmap
  rfl

/-- Where the reader stands after a value, it goes on as it does there. -/
theorem step_of_next (h : st.place = slot.next) (c : Char) :
    r.step st c = r.stepAfter st slot c := by
  cases slot <;> simp only [step, h, Slot.next] <;> rfl

/-- A value without parts is read by its own reader. -/
theorem reads_value (x : Scalar) (cs : List Char) :
    r.reads { place := .value slot x, values } cs =
      (scan (Scalar.step .strict) x cs).bind fun p =>
        (r.put { place := .due slot, values } slot p.1).toOption.bind (r.reads · p.2) := by
  refine eq_bind_scan (H := fun x cs => r.reads { place := .value slot x, values } cs)
    (K := fun found rest =>
      (r.put { place := .due slot, values } slot found).toOption.bind (r.reads · rest)) ?_ ?_ x cs
  · -- the text must not end inside a record
    intro x
    simp only [reads, run_nil, Except.bind, finish]
    cases x.finish .strict with
    | error fault => rfl
    | ok found =>
      dsimp only
      split <;> rfl
  · intro x c cs
    rw [reads_cons]
    simp only [step]
    cases x.step .strict c with
    | error fault => rfl
    | ok outcome =>
      cases outcome with
      | more x => rfl
      | done found => rfl
      | before found =>
        -- the character behind the value is read as it is where the value leads to
        have hput : r.put { place := .value slot x, values } slot found =
            r.put { place := .due slot, values } slot found := rfl
        simp only [hput]
        cases hresult : r.put { place := .due slot, values } slot found with
        | error fault => rfl
        | ok st =>
          show _ = r.reads st (c :: cs)
          rw [reads_cons, step_of_next (place_of_put hresult)]

/-- A key is read by the reader of strings. -/
theorem reads_key (q : Quoted) (cs : List Char) :
    r.reads { place := .key q, values } cs =
      (scan Quoted.step q cs).bind fun p =>
        (r.closeKey { place := .keyDue, values } p.1).toOption.bind (r.reads · p.2) := by
  refine eq_bind_scan (H := fun q cs => r.reads { place := .key q, values } cs)
    (K := fun key rest =>
      (r.closeKey { place := .keyDue, values } key).toOption.bind (r.reads · rest))
    (fun _ => rfl) ?_ q cs
  intro q c cs
  rw [reads_cons]
  simp only [step]
  cases hstep : q.step c with
  | error fault => rfl
  | ok outcome =>
    cases outcome with
    | more q => rfl
    | done key => rfl
    | before key => exact absurd hstep (q.step_ne_before c key)

/-- A value that belongs to no field is passed over. -/
theorem reads_skipping (s : Skip) (cs : List Char) :
    r.reads { place := .skipping s, values } cs =
      (scan Skip.step s cs).bind fun p => r.reads { place := .objectNext, values } p.2 := by
  refine eq_bind_scan (H := fun s cs => r.reads { place := .skipping s, values } cs)
    (K := fun _ rest => r.reads { place := .objectNext, values } rest) (fun _ => rfl) ?_ s cs
  intro s c cs
  rw [reads_cons]
  simp only [step]
  cases s.step c with
  | error fault => rfl
  | ok outcome =>
    cases outcome with
    | more s => rfl
    | done _ => rfl
    | before _ => rw [reads_cons]; rfl

/-- Where the value of a field is due, one without parts may begin. -/
theorem stepDue_of_start? {x : Scalar} (st : State) (slot : Slot)
    (h : Scalar.start? .strict c = some x) :
    r.stepDue st slot c = .ok { st with place := .value slot x } := by
  obtain ⟨hblank, hmark⟩ := Scalar.not_mark_of_start? h
  simp only [stepDue, if_neg (by simp [hblank] : ¬ isBlank c = true),
    if_neg (show c ≠ '[' from (hmark .list).1),
    if_neg (show c ≠ '\x7b' from (hmark .object).1), h]

/-- Where the value of a field is due, one without parts is taken for the field. -/
theorem reads_scalar {v : Value} (slot : Slot) (hr : r.WellFormed)
    (h : Spelled (.value v) (c :: cs) rest) (hv : v.IsScalar) (hfollow : Follow rest) :
    (r.stepDue st slot c).toOption.bind (r.reads · cs) =
      (r.takeAt st.values slot.index v).bind fun values =>
        r.reads { place := slot.next, values } rest := by
  obtain ⟨c', cs', x, htext, hstart, hdatum⟩ := Scalar.exists_scan_strict h hv hfollow
  obtain ⟨rfl, rfl⟩ := List.cons.inj htext
  rw [stepDue_of_start? st slot hstart]
  show r.reads { place := .value slot x, values := st.values } cs = _
  rw [reads_value, takeAt]
  simp only [toOption_put]
  cases hfield : r.fields[slot.index]? with
  | none => cases scan (Scalar.step .strict) x cs <;> rfl
  | some f =>
    have hwidth := hr.width f (List.mem_of_getElem? hfield)
    -- what the reader comes to, seen through what the field makes of it
    have hread : ∀ next : Datum → List Char → Option (List (Option Datum)),
        ((scan (Scalar.step .strict) x cs).bind fun p =>
          (f.kind.accept p.1).toOption.bind fun d => next d p.2) =
        (f.kind.datum? v).bind fun d => next d rest := by
      intro next
      have hdatum := congrArg (Option.bind · fun p => next p.1 p.2) (hdatum f.kind hwidth)
      simpa [Option.bind_assoc, Option.bind_map, Function.comp_def] using hdatum
    simpa [Option.bind_map, Function.comp_def] using
      hread fun d rest => r.reads
        { place := slot.next, values := st.values.set slot.index (some d) } rest

/-- No field takes a value in brackets. -/
theorem takeAt_bracket (index : Nat) (b : Bracket) : r.takeAt values index b.value = none := by
  unfold takeAt
  cases r.fields[index]? with
  | none => rfl
  | some f => simp [f.kind.datum?_bracket]

/-- Where the value of a field is due, a bracket is refused as soon as it opens. -/
theorem toOption_stepDue_opening (st : State) (slot : Slot) (b : Bracket) :
    (r.stepDue st slot b.opening).toOption = none := by
  cases b with
  | list => exact toOption_put_bracket (.inl rfl) st slot
  | object => exact toOption_put_bracket (.inr rfl) st slot

/-- Where the value of a field is due, it is taken for the field. -/
theorem reads_of_spelled {v : Value} (slot : Slot) (hr : r.WellFormed)
    (h : Spelled (.value v) (c :: cs) rest) (hfollow : Follow rest) :
    (r.stepDue st slot c).toOption.bind (r.reads · cs) =
      (r.takeAt st.values slot.index v).bind fun values =>
        r.reads { place := slot.next, values } rest := by
  by_cases hv : v.IsScalar
  · exact reads_scalar slot hr h hv hfollow
  · obtain ⟨b, rfl⟩ := Value.exists_bracket hv
    obtain ⟨cs', htext⟩ := h.exists_opening rfl
    obtain ⟨rfl, rfl⟩ := List.cons.inj htext
    rw [toOption_stepDue_opening, takeAt_bracket]
    rfl

/-! ### Objects -/

/-- The value of a member is taken for the field that the key belongs to. -/
theorem reads_colon_some {i : Nat} {cs₁ mid : List Char} {v : Value} (hr : r.WellFormed)
    (hcolon : Ws cs (':' :: cs₁)) (hws : Ws cs₁ mid) (hvalue : Spelled (.value v) mid rest)
    (hfollow : Follow rest) :
    r.reads { place := .colon (some i), values } cs =
      (r.takeAt values i v).bind fun values => r.reads { place := .objectNext, values } rest := by
  have hdue : r.step { place := .colon (some i), values } ':' =
      .ok { place := .due (.member i), values } := rfl
  obtain ⟨c, cs', rfl, -⟩ := hvalue.exists_head hfollow
  rw [reads_ws (.colon (some i)) trivial hcolon, reads_more hdue,
    reads_ws (.due (.member i)) trivial hws, reads_cons]
  exact reads_of_spelled (.member i) hr hvalue hfollow

/-- The value of a member that belongs to no field is passed over. -/
theorem reads_colon_none {cs₁ mid : List Char} {v : Value} (hcolon : Ws cs (':' :: cs₁))
    (hws : Ws cs₁ mid) (hvalue : Spelled (.value v) mid rest) (hfollow : Follow rest) :
    r.reads { place := .colon none, values } cs =
      r.reads { place := .objectNext, values } rest := by
  have hskip : r.step { place := .colon none, values } ':' =
      .ok { place := .skipping {}, values } := rfl
  rw [reads_ws (.colon none) trivial hcolon, reads_more hskip, reads_skipping,
    Skip.scan_of_spelled hws hvalue hfollow]
  rfl

/-- A member is taken. -/
theorem reads_member {m : Member} (hr : r.WellFormed) (h : IsMember m cs rest)
    (hfollow : Follow rest) :
    r.reads { place := .keyDue, values } cs =
      (r.takeMember values m).bind fun values =>
        r.reads { place := .objectNext, values } rest := by
  obtain ⟨mid, ⟨cs₁, cs₂, cs₃, hquote, hspells, hcolon, hws⟩, hvalue⟩ := h
  have hkey : r.step { place := .keyDue, values } '"' =
      .ok { place := .key { rigour := .strict }, values } := rfl
  rw [reads_ws .keyDue trivial hquote, reads_more hkey, reads_key,
    Quoted.scan_quoted_of_spells hspells []]
  show (r.closeKey { place := .keyDue, values } m.1).toOption.bind (r.reads · cs₂) = _
  unfold closeKey takeMember
  cases hi : r.indexOf? m.1 with
  | none => exact reads_colon_none hcolon hws hvalue hfollow
  | some i =>
    -- a key that comes twice is refused before its value is looked at
    obtain ⟨f, hf, -⟩ := getElem?_of_indexOf? hi
    simp only [hf]
    match hx : values[i]? with
    | none => exact reads_colon_some hr hcolon hws hvalue hfollow
    | some none => exact reads_colon_some hr hcolon hws hvalue hfollow
    | some (some d) => rfl

/-- Members are taken up to the bracket that closes the object. -/
theorem reads_after {ms : List Member} (hr : r.WellFormed)
    (h : After IsMember .object ms cs rest) :
    r.reads { place := .objectNext, values } cs =
      (r.takeAll values ms).bind fun values =>
        (r.closeObject { place := .objectNext, values }).toOption.bind (r.reads · rest) := by
  induction h generalizing values with
  | close h =>
    rw [reads_ws .objectNext trivial h, reads_cons]
    rfl
  | comma h hitem hafter ih =>
    have hkey : r.step { place := .objectNext, values } ',' =
        .ok { place := .keyDue, values } := rfl
    rw [reads_ws .objectNext trivial h, reads_more hkey,
      reads_member hr hitem hafter.follow, takeAll_cons, Option.bind_assoc]
    exact congrArg (Option.bind _) (funext fun values => ih)

/-- What begins with a key does so after the bracket that opens as it does after a comma. -/
theorem reads_objectStart {key mid : List Char} (h : Keyed .strict key cs mid) :
    r.reads { place := .objectStart, values } cs = r.reads { place := .keyDue, values } cs := by
  obtain ⟨cs₁, cs₂, cs₃, hquote, -⟩ := h
  have hfirst : r.step { place := .objectStart, values } '"' =
      .ok { place := .key { rigour := .strict }, values } := rfl
  have hlater : r.step { place := .keyDue, values } '"' =
      .ok { place := .key { rigour := .strict }, values } := rfl
  rw [reads_ws .objectStart trivial hquote, reads_more hfirst,
    reads_ws .keyDue trivial hquote, reads_more hlater]

/-- What stands in the brackets of an object is taken member by member. -/
theorem reads_items {ms : List Member} (hr : r.WellFormed)
    (h : Items IsMember .object ms cs rest) :
    r.reads { place := .objectStart, values } cs =
      (r.takeAll values ms).bind fun values =>
        (r.closeObject { place := .objectNext, values }).toOption.bind (r.reads · rest) := by
  cases h with
  | empty h =>
    rw [reads_ws .objectStart trivial h, reads_cons]
    rfl
  | filled hitem hafter =>
    obtain ⟨mid, hkey, -⟩ := id hitem
    rw [reads_objectStart hkey, reads_member hr hitem hafter.follow, takeAll_cons,
      Option.bind_assoc]
    exact congrArg (Option.bind _) (funext fun values => reads_after hr hafter)

/-- After the record only blanks may stand. -/
theorem reads_done (h : Ws cs []) : r.reads { place := .done, values } cs = some values := by
  rw [reads_ws .done trivial h]
  rfl

/-- No field is missing if every one has a value. -/
theorem missing?_eq_none_iff (hlength : r.fields.length = values.length) :
    r.missing? values = none ↔ none ∉ values := by
  rw [missing?, Option.map_eq_none_iff, List.find?_eq_none]
  constructor
  · intro h hnone
    obtain ⟨i, hi, hget⟩ := List.getElem_of_mem hnone
    have hzip : i < (r.fields.zip values).length := by
      rw [List.length_zip]
      omega
    refine h (r.fields.zip values)[i] (List.getElem_mem hzip) ?_
    rw [List.getElem_zip, hget]
    rfl
  · rintro h ⟨f, x⟩ hmem hx
    have hnone : x = none := by simpa using hx
    exact h (hnone ▸ (List.of_mem_zip hmem).2)

/-- An object ends, unless a field is missing that has to be there. -/
theorem toOption_closeObject_eq_some_iff {ms : List Member} (hvalues : r.Says ms values)
    {st : State} :
    (r.closeObject { place := .objectNext, values }).toOption = some st ↔
      (r.required = true → none ∉ values) ∧ st = { place := .done, values } := by
  have hlength : r.fields.length = values.length := by
    simpa using congrArg List.length hvalues
  unfold closeObject
  cases hrequired : r.required with
  | false => simp [Except.toOption, eq_comm]
  | true =>
    rw [← missing?_eq_none_iff hlength]
    cases r.missing? values with
    | none => simp [Except.toOption, eq_comm]
    | some f => simp [Except.toOption]

/-- What is read from the text of an object. -/
theorem read_of_isObject {ms : List Member} {text : String} (hr : r.WellFormed)
    (h : IsObject ms text.toList) :
    (r.read text).toOption = some values ↔
      r.Says ms values ∧ (r.required = true → none ∉ values) := by
  obtain ⟨cs, rest, hws, hitems, hend⟩ := h
  have hopen : r.step r.initial '\x7b' =
      .ok { place := .objectStart, values := r.fields.map fun _ => none } := rfl
  have hstart : r.reads r.initial text.toList = r.reads r.initial ('\x7b' :: cs) :=
    reads_ws .start trivial hws
  rw [toOption_read, hstart, reads_more hopen, reads_items hr hitems, Option.bind_eq_some_iff]
  constructor
  · rintro ⟨values', htake, hclose⟩
    have hvalues := hr.takeAll_eq_some_iff.mp htake
    obtain ⟨st, hst, hread⟩ := Option.bind_eq_some_iff.mp hclose
    obtain ⟨hcomplete, rfl⟩ := (toOption_closeObject_eq_some_iff hvalues).mp hst
    rw [reads_done hend] at hread
    cases hread
    exact ⟨hvalues, hcomplete⟩
  · rintro ⟨hvalues, hcomplete⟩
    refine ⟨values, hr.takeAll_eq_some_iff.mpr hvalues, Option.bind_eq_some_iff.mpr ?_⟩
    exact ⟨_, (toOption_closeObject_eq_some_iff hvalues).mpr ⟨hcomplete, rfl⟩, reads_done hend⟩

/-! ### Lists -/

/-- An element is taken for the field whose turn it is. -/
theorem reads_element {v : Value} {count : Nat} (hr : r.WellFormed) (h : IsElement v cs rest)
    (hfollow : Follow rest) :
    r.reads { place := .elementDue count, values } cs =
      (r.takeAt values count v).bind fun values =>
        r.reads { place := .listNext (count + 1), values } rest := by
  obtain ⟨mid, hws, hvalue⟩ := h
  obtain ⟨c, cs', rfl, hblank, hclosing⟩ := hvalue.exists_head hfollow
  rw [reads_ws (.elementDue count) trivial hws, reads_cons]
  simp only [step, if_neg (by simp [hblank] : ¬ isBlank c = true),
    if_neg (show c ≠ ']' from hclosing .list)]
  by_cases hcount : count < r.fields.length
  · rw [if_pos hcount]
    exact reads_of_spelled (.element count) hr hvalue hfollow
  · -- there is no field for it
    rw [if_neg hcount, takeAt, List.getElem?_eq_none (by omega)]
    rfl

/-- The first element is taken for the first field. -/
theorem reads_listStart {v : Value} (hr : r.WellFormed) (h : IsElement v cs rest)
    (hfollow : Follow rest) :
    r.reads { place := .listStart, values } cs =
      (r.takeAt values 0 v).bind fun values => r.reads { place := .listNext 1, values } rest := by
  obtain ⟨mid, hws, hvalue⟩ := h
  obtain ⟨c, cs', rfl, hblank, hclosing⟩ := hvalue.exists_head hfollow
  rw [reads_ws .listStart trivial hws, reads_cons]
  simp only [step, if_neg (by simp [hblank] : ¬ isBlank c = true),
    if_neg (show c ≠ ']' from hclosing .list)]
  exact reads_of_spelled (.element 0) hr hvalue hfollow

/-- Elements are taken up to the bracket that closes the list. -/
theorem reads_afterElement {vs : List Value} {count : Nat} (hr : r.WellFormed)
    (h : After IsElement .list vs cs rest) :
    r.reads { place := .listNext count, values } cs =
      (r.takeFrom count values vs).bind fun values =>
        (r.closeList { place := .listNext (count + vs.length), values }
          (count + vs.length)).toOption.bind (r.reads · rest) := by
  induction h generalizing count values with
  | close h =>
    rw [reads_ws (.listNext count) trivial h, reads_cons]
    rfl
  | @comma v vs cs cs₁ cs₂ rest h hitem hafter ih =>
    have hdue : r.step { place := .listNext count, values } ',' =
        .ok { place := .elementDue count, values } := rfl
    rw [reads_ws (.listNext count) trivial h, reads_more hdue,
      reads_element hr hitem hafter.follow, takeFrom, Option.bind_assoc, List.length_cons]
    refine congrArg (Option.bind _) (funext fun values => ?_)
    rw [ih, Nat.add_right_comm, Nat.add_assoc]

/-- What is read from the text of a list, where every field has a default: what the object says
that gives the elements to the first fields. -/
theorem read_of_isList {vs : List Value} {text : String} (hr : r.WellFormed)
    (hoptional : r.required = false) (h : IsList vs text.toList) :
    (r.read text).toOption = some values ↔
      vs.length ≤ r.fields.length ∧ r.Says (r.named 0 vs) values := by
  obtain ⟨cs, rest, hws, hitems, hend⟩ := h
  -- with defaults for all fields, the list may end anywhere
  have hclose : ∀ place count values, (r.closeList { place, values } count).toOption =
      some { place := .done, values } := by
    intro place count values
    simp [closeList, hoptional, Except.toOption]
  have hopen : r.step r.initial '[' =
      .ok { place := .listStart, values := r.fields.map fun _ => none } := rfl
  have hread : r.reads { place := .listStart, values := r.fields.map fun _ => none } cs =
      r.takeFrom 0 (r.fields.map fun _ => none) vs := by
    cases hitems with
    | empty h =>
      rw [reads_ws .listStart trivial h, reads_cons]
      show (r.closeList _ 0).toOption.bind _ = _
      rw [hclose]
      exact reads_done hend
    | filled hitem hafter =>
      rw [reads_listStart hr hitem hafter.follow, takeFrom]
      refine congrArg (Option.bind _) (funext fun values => ?_)
      rw [reads_afterElement hr hafter]
      simp only [hclose, Option.bind_some, reads_done hend, Option.bind_fun_some]
  have hstart : r.reads r.initial text.toList = r.reads r.initial ('[' :: cs) :=
    reads_ws .start trivial hws
  rw [toOption_read, hstart, reads_more hopen, hread]
  by_cases hlength : vs.length ≤ r.fields.length
  · rw [hr.takeFrom_eq (by omega) (fun j _ hj => by simp [hj]), hr.takeAll_eq_some_iff]
    exact (and_iff_right hlength).symm
  · rw [takeFrom_eq_none (Nat.zero_le _) (by omega)]
    exact iff_of_false (by simp) fun hboth => hlength hboth.1

end SignalChain.Json.Record
