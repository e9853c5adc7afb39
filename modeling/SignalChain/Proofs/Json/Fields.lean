import SignalChain.Proofs.Json.Scalars

/-!
# What members say about fields

What an object says about a field is a matter of its members alone, in whatever order they are and
whatever else is among them (`Field.meaning?`): nothing if no member has the name of the field, the
value if one has it and the value fits, and nonsense otherwise. A reader takes one member after the
other. Where it comes to the end of them, the values that it has are what the members say about the
fields, and it does so exactly if they say no nonsense about any (`takeAll_eq_some_iff`).
-/

namespace SignalChain.Json

/-- The values of the members with a name, in order. -/
def given (name : String) (ms : List Member) : List Value :=
  (ms.filter fun m => m.1 = name.toList).map (·.2)

/-- What members say about a field: that it has no value, or its value. Of a field with two
values, or with one that does not fit, they say nothing. -/
def Field.meaning? (f : Field) (ms : List Member) : Option (Option Datum) :=
  match given f.name ms with
  | [] => some none
  | [v] => (f.kind.datum? v).map some
  | _ => none

/-- A member with another name says nothing about a field. -/
theorem given_concat_of_ne {name : String} {ms : List Member} {m : Member}
    (h : m.1 ≠ name.toList) : given name (ms ++ [m]) = given name ms := by
  simp [given, h]

/-- A member with the name of a field is one more value for it. -/
theorem given_concat_of_eq {name : String} {ms : List Member} {m : Member}
    (h : m.1 = name.toList) : given name (ms ++ [m]) = given name ms ++ [m.2] := by
  simp [given, h]

namespace Field

variable {f : Field} {ms : List Member} {m : Member}

/-- A field without value is one that no member has the name of. -/
theorem meaning?_eq_some_none_iff : f.meaning? ms = some none ↔ given f.name ms = [] := by
  unfold meaning?
  split
  · next hgiven => exact iff_of_true rfl hgiven
  · next v hgiven =>
    refine iff_of_false ?_ (by simp [hgiven])
    cases f.kind.datum? v <;> simp
  · next hnil _ => exact iff_of_false (by simp) hnil

/-- A member with the name of a field makes sense if it is the first one and its value fits. -/
theorem meaning?_concat_eq_some_iff (h : m.1 = f.name.toList) {d? : Option Datum} :
    f.meaning? (ms ++ [m]) = some d? ↔
      f.meaning? ms = some none ∧ ∃ d, f.kind.datum? m.2 = some d ∧ d? = some d := by
  rw [meaning?_eq_some_none_iff, meaning?, given_concat_of_eq h]
  cases hgiven : given f.name ms with
  | nil =>
    show (f.kind.datum? m.2).map some = some d? ↔ _
    cases f.kind.datum? m.2 <;> simp [eq_comm]
  | cons v vs => cases vs <;> simp

end Field

namespace Record

variable (r : Record)

/-- The names of fields differ and stand for themselves in quotes, and their numbers fit sixty-four
bits. -/
structure WellFormed : Prop where
  nodup : (r.fields.map (·.name)).Nodup
  plain : ∀ f ∈ r.fields, ∀ c ∈ f.name.toList, Plain c
  width : ∀ f ∈ r.fields, f.kind.width ≤ 64

/-- Take a value for the field with the given index. -/
def takeAt (values : List (Option Datum)) (index : Nat) (v : Value) :
    Option (List (Option Datum)) :=
  r.fields[index]?.bind fun f => (f.kind.datum? v).map fun d => values.set index (some d)

/-- Take a member: pass over a name that no field has, and do not take a field twice. -/
def takeMember (values : List (Option Datum)) (m : Member) : Option (List (Option Datum)) :=
  match r.indexOf? m.1 with
  | none => some values
  | some i =>
    match values[i]? with
    | some (some _) => none
    | _ => r.takeAt values i m.2

/-- Take members, one after the other. -/
def takeAll (values : List (Option Datum)) (ms : List Member) : Option (List (Option Datum)) :=
  ms.foldlM r.takeMember values

variable {r}

/-- The first member is taken first. -/
theorem takeAll_cons (values : List (Option Datum)) (m : Member) (ms : List Member) :
    r.takeAll values (m :: ms) = (r.takeMember values m).bind (r.takeAll · ms) := rfl

/-- The last member is taken last. -/
theorem takeAll_concat (values : List (Option Datum)) (ms : List Member) (m : Member) :
    r.takeAll values (ms ++ [m]) = (r.takeAll values ms).bind (r.takeMember · m) := by
  rw [takeAll, List.foldlM_append]
  refine congrArg (Option.bind _) (funext fun values => ?_)
  simp

/-- The field that a key belongs to has the key for its name. -/
theorem getElem?_of_indexOf? {key : List Char} {i : Nat} (h : r.indexOf? key = some i) :
    ∃ f, r.fields[i]? = some f ∧ f.name.toList = key := by
  obtain ⟨hlt, hname, -⟩ := List.findIdx?_eq_some_iff_getElem.mp h
  exact ⟨r.fields[i], List.getElem?_eq_getElem hlt, by simpa using hname⟩

/-- Of two fields only one has a name. -/
theorem WellFormed.eq_of_name (hr : r.WellFormed) {i j : Nat} {f g : Field}
    (hf : r.fields[i]? = some f) (hg : r.fields[j]? = some g) (hname : f.name = g.name) :
    i = j := by
  have hi : (r.fields.map (·.name))[i]? = some f.name := by rw [List.getElem?_map, hf]; rfl
  have hj : (r.fields.map (·.name))[j]? = some f.name := by rw [List.getElem?_map, hg, hname]; rfl
  have hlt : i < (r.fields.map (·.name)).length := (List.getElem?_eq_some_iff.mp hi).1
  exact (List.getElem?_inj hlt hr.nodup).mp (hi.trans hj.symm)

/-- The name of a field belongs to it. -/
theorem WellFormed.indexOf?_name (hr : r.WellFormed) {i : Nat} {f : Field}
    (hf : r.fields[i]? = some f) : r.indexOf? f.name.toList = some i := by
  have hmem : f ∈ r.fields := List.mem_of_getElem? hf
  obtain ⟨j, hj⟩ := Option.isSome_iff_exists.mp
    ((List.findIdx?_isSome (p := fun g : Field => g.name.toList = f.name.toList)).trans
      (List.any_eq_true.mpr ⟨f, hmem, by simp⟩))
  obtain ⟨g, hg, hname⟩ := getElem?_of_indexOf? hj
  have hij : i = j := hr.eq_of_name hf hg (String.toList_inj.mp hname).symm
  rw [hij]
  exact hj

/-- What members say about the fields of a record. -/
def Says (r : Record) (ms : List Member) (values : List (Option Datum)) : Prop :=
  r.fields.map (·.meaning? ms) = values.map some

/-- A member with a name that no field has says nothing about any. -/
theorem says_concat_of_none {ms : List Member} {m : Member} {values : List (Option Datum)}
    (h : r.indexOf? m.1 = none) : r.Says (ms ++ [m]) values ↔ r.Says ms values := by
  have hsame : r.fields.map (·.meaning? (ms ++ [m])) = r.fields.map (·.meaning? ms) := by
    refine List.map_congr_left fun f hf => ?_
    have hne := List.findIdx?_eq_none_iff.mp h f hf
    rw [Field.meaning?, Field.meaning?, given_concat_of_ne (by simpa [eq_comm] using hne)]
  rw [Says, Says, hsame]

/-- A member with the name of a field says nothing about the others. -/
theorem WellFormed.map_meaning?_concat (hr : r.WellFormed) (ms : List Member) {m : Member}
    {i : Nat} {f : Field} (hf : r.fields[i]? = some f) (hname : m.1 = f.name.toList) :
    r.fields.map (·.meaning? (ms ++ [m])) =
      (r.fields.map (·.meaning? ms)).set i (f.meaning? (ms ++ [m])) := by
  refine List.ext_getElem? fun j => ?_
  rw [List.getElem?_set, List.length_map, List.getElem?_map, List.getElem?_map]
  by_cases hij : i = j
  · subst hij
    have hlt := (List.getElem?_eq_some_iff.mp hf).1
    rw [if_pos rfl, if_pos hlt, hf]
    rfl
  · rw [if_neg hij]
    cases hg : r.fields[j]? with
    | none => rfl
    | some g =>
      have hne : m.1 ≠ g.name.toList := by
        rw [hname]
        exact fun hsame => hij (hr.eq_of_name hf hg (String.toList_inj.mp hsame))
      simp only [Option.map_some, Field.meaning?, given_concat_of_ne hne]

/-- What members say about one field. -/
theorem Says.getElem? {ms : List Member} {values : List (Option Datum)} {i : Nat} {f : Field}
    (h : r.Says ms values) (hf : r.fields[i]? = some f) :
    ∃ x, values[i]? = some x ∧ f.meaning? ms = some x := by
  have hvalue : values[i]?.map some = some (f.meaning? ms) := by
    rw [← List.getElem?_map, ← h, List.getElem?_map, hf]
    rfl
  obtain ⟨x, hx, hmeaning⟩ := Option.map_eq_some_iff.mp hvalue
  exact ⟨x, hx, hmeaning.symm⟩

/-- A member with the name of a field is taken if it makes sense beside the others. -/
theorem WellFormed.says_concat_of_some (hr : r.WellFormed) {ms : List Member} {m : Member} {i : Nat}
    {values' : List (Option Datum)} (hi : r.indexOf? m.1 = some i) :
    (∃ values, r.Says ms values ∧ r.takeMember values m = some values') ↔
      r.Says (ms ++ [m]) values' := by
  obtain ⟨f, hf, hname⟩ := getElem?_of_indexOf? hi
  -- the meanings for the other fields are the same with the member as without it
  have hset := hr.map_meaning?_concat ms hf hname.symm
  constructor
  · rintro ⟨values, hvalues, htake⟩
    obtain ⟨x, hx, hmeaning⟩ := hvalues.getElem? hf
    simp only [takeMember, hi, takeAt, hf, Option.bind_some, hx] at htake
    cases x with
    | some d => cases htake  -- no field is taken twice
    | none =>
      obtain ⟨d, hd, rfl⟩ := Option.map_eq_some_iff.mp htake
      have hnew : f.meaning? (ms ++ [m]) = some (some d) :=
        (Field.meaning?_concat_eq_some_iff hname.symm).mpr ⟨hmeaning, d, hd, rfl⟩
      rw [Says, hset, hnew, hvalues, List.map_set]
  · intro hvalues
    obtain ⟨x, hx, hmeaning⟩ := hvalues.getElem? hf
    obtain ⟨hold, d, hd, rfl⟩ := (Field.meaning?_concat_eq_some_iff hname.symm).mp hmeaning
    obtain ⟨hlt, hget⟩ := List.getElem?_eq_some_iff.mp hx
    -- without the member, the field had no value
    refine ⟨values'.set i none, ?_, ?_⟩
    · obtain ⟨hfield, rfl⟩ := List.getElem?_eq_some_iff.mp hf
      have hlength : i < (r.fields.map (·.meaning? ms)).length := by simpa using hfield
      have hpast : (r.fields.map (·.meaning? ms))[i] = some none := by
        rw [List.getElem_map, hold]
      rw [Says, List.map_set, ← hvalues, hset, List.set_set, ← hpast, List.set_getElem_self]
    · simp only [takeMember, hi, takeAt, hf, hd, Option.bind_some, Option.map_some,
        List.getElem?_set_self hlt, List.set_set]
      rw [← hget, List.set_getElem_self]

/-- No field has a value that members do not give. -/
theorem says_nil : r.Says [] (r.fields.map fun _ => none) := by
  rw [Says, List.map_map]
  rfl

/-- What members say about the fields is one thing. -/
theorem Says.unique {ms : List Member} {values values' : List (Option Datum)}
    (h : r.Says ms values) (h' : r.Says ms values') : values = values' :=
  (List.map_inj_right fun _ _ hxy => Option.some.inj hxy).mp (h.symm.trans h')

/-- Members are taken to the end exactly if they make sense for every field, and then the values
are what they say. -/
theorem WellFormed.takeAll_eq_some_iff (hr : r.WellFormed) {ms : List Member}
    {values : List (Option Datum)} :
    r.takeAll (r.fields.map fun _ => none) ms = some values ↔ r.Says ms values := by
  -- the member that was read last is the one that a step is about
  induction ms using List.reverseRecOn generalizing values with
  | nil =>
    constructor
    · intro h
      cases h
      exact says_nil
    · intro h
      exact congrArg some (says_nil.unique h)
  | append_singleton ms m ih =>
    rw [takeAll_concat]
    have hstep : (∃ values₁, r.Says ms values₁ ∧ r.takeMember values₁ m = some values) ↔
        r.Says (ms ++ [m]) values := by
      cases hi : r.indexOf? m.1 with
      | none =>
        rw [says_concat_of_none hi]
        simp [takeMember, hi]
      | some i => exact hr.says_concat_of_some hi
    rw [← hstep]
    exact Option.bind_eq_some_iff.trans (exists_congr fun values₁ => and_congr_left' ih)

/-- Take values for the fields from the given index on, in order. -/
def takeFrom (r : Record) (index : Nat) (values : List (Option Datum)) :
    List Value → Option (List (Option Datum))
  | [] => some values
  | v :: vs => (r.takeAt values index v).bind (takeFrom r (index + 1) · vs)

/-- The members that give the values of a list to the fields from the given index on, by name. -/
def named (r : Record) (index : Nat) (vs : List Value) : List Member :=
  ((r.fields.drop index).map (·.name.toList)).zip vs

/-- Values without a field are not taken. -/
theorem takeFrom_eq_none {index : Nat} {values : List (Option Datum)} {vs : List Value}
    (hindex : index ≤ r.fields.length) (h : r.fields.length < index + vs.length) :
    r.takeFrom index values vs = none := by
  induction vs generalizing index values with
  | nil =>
    rw [List.length_nil] at h
    omega
  | cons v vs ih =>
    rw [List.length_cons] at h
    unfold takeFrom takeAt
    by_cases hlast : index = r.fields.length
    · rw [List.getElem?_eq_none (by omega)]
      rfl
    · -- the values before the last field do not matter
      refine Option.bind_eq_none_iff.mpr fun values' _ => ?_
      exact ih (by omega) (by omega)

/-- Values are taken for the fields in order as they would be by name. -/
theorem WellFormed.takeFrom_eq (hr : r.WellFormed) {index : Nat} {values : List (Option Datum)}
    {vs : List Value} (hlength : index + vs.length ≤ r.fields.length)
    (hfree : ∀ j, index ≤ j → j < r.fields.length → values[j]? = some none) :
    r.takeFrom index values vs = r.takeAll values (r.named index vs) := by
  induction vs generalizing index values with
  | nil =>
    rw [named, List.zip_nil_right]
    rfl
  | cons v vs ih =>
    rw [List.length_cons] at hlength
    have hlt : index < r.fields.length := by omega
    have hfield : r.fields[index]? = some r.fields[index] := List.getElem?_eq_getElem hlt
    have hnamed : r.named index (v :: vs) =
        (r.fields[index].name.toList, v) :: r.named (index + 1) vs := by
      rw [named, List.drop_eq_getElem_cons hlt]
      rfl
    have htake : r.takeMember values (r.fields[index].name.toList, v) =
        r.takeAt values index v := by
      simp only [takeMember, hr.indexOf?_name hfield, hfree index (Nat.le_refl _) hlt]
    rw [hnamed, takeAll_cons, htake, takeFrom, takeAt, hfield, Option.bind_some]
    cases r.fields[index].kind.datum? v with
    | none => rfl
    | some d =>
      -- the fields from the next one on are still without a value
      refine ih (by omega) fun j hj hjlt => ?_
      rw [List.getElem?_set_ne (by omega)]
      exact hfree j (by omega) hjlt

end Record

end SignalChain.Json
