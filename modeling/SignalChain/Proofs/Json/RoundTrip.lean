import Mathlib.Data.List.Forall2
import SignalChain.Counters.Json
import SignalChain.Proofs.Json.Reading
import SignalChain.Settings.Json

/-!
# Writing and reading back

What is written of a record is a text of the grammar, in one line as on several
(`isObject_compact`, `isObject_pretty`), and its members say of every field what was written of it.
So what is read from it is what was written (`read_compact`, `read_pretty`). Settings and counters
are read back as they were, whatever numbers they hold, and written again as the same text
(`parse_print`).
-/

namespace SignalChain.Json

/-- What is written of the value of a field. -/
def Datum.value : Datum → Value
  | natural n => .number false n false
  | boolean b => .boolean b

/-- The text of a value of a field is one of the grammar. -/
theorem Datum.spelled (d : Datum) (rest : List Char) :
    Spelled (.value d.value) (d.chars ++ rest) rest := by
  cases d with
  | natural n =>
    have h : Spelled (.value (.number false n false))
        (sign false ++ Nat.toDigits 10 n ++ [] ++ [] ++ rest) rest := .number .absent .absent
    simpa [sign, Datum.chars, Datum.value] using h
  | boolean b => exact .word rfl

/-- Characters that stand for themselves spell what they are. -/
theorem spells_of_plain {r : Rigour} {t : List Char} (h : ∀ c ∈ t, Plain c) (rest : List Char) :
    Spells r t (t ++ '"' :: rest) rest := by
  induction t with
  | nil => exact .close
  | cons c t ih =>
    obtain ⟨hc, ht⟩ := List.forall_mem_cons.mp h
    exact .plain hc (ih ht)

section

variable {α β : Type} {Item : β → List Char → List Char → Prop} {b : Bracket} {item : α → β}
  {write : α → List Char} {tail rest : List Char}

/-- An item that is written with others behind it, and commas between them. -/
theorem exists_after_intercalate (x : α) (xs : List α)
    (hitem : ∀ y ∈ x :: xs, ∀ rest, Item (item y) (write y ++ rest) rest)
    (hclose : Ws tail (b.closing :: rest)) :
    ∃ mid, Item (item x) ([','].intercalate ((x :: xs).map write) ++ tail) mid ∧
      After Item b (xs.map item) mid rest := by
  induction xs generalizing x with
  | nil =>
    refine ⟨tail, ?_, .close hclose⟩
    simpa using hitem x (by simp) tail
  | cons y ys ih =>
    obtain ⟨hx, hrest⟩ := List.forall_mem_cons.mp hitem
    obtain ⟨mid, hmid, hafter⟩ := ih y hrest
    refine ⟨_, ?_, .comma .nil hmid hafter⟩
    rw [List.map_cons, List.map_cons, List.intercalate_cons_cons]
    simpa using hx _

/-- Items that are written with commas between them are those that stand in the brackets. -/
theorem items_intercalate (xs : List α)
    (hitem : ∀ x ∈ xs, ∀ rest, Item (item x) (write x ++ rest) rest)
    (hclose : Ws tail (b.closing :: rest)) :
    Items Item b (xs.map item) ([','].intercalate (xs.map write) ++ tail) rest := by
  cases xs with
  | nil => exact .empty hclose
  | cons x xs =>
    obtain ⟨mid, hx, hxs⟩ := exists_after_intercalate x xs hitem hclose
    exact .filled hx hxs

end

/-- A member as the grammar has it. -/
def writtenMember (m : String × Datum) : Member :=
  (m.1.toList, m.2.value)

/-- Blanks stand in front of what follows them. -/
theorem ws_append {blanks : List Char} (h : ∀ c ∈ blanks, isBlank c = true) (rest : List Char) :
    Ws (blanks ++ rest) rest := by
  induction blanks with
  | nil => exact .nil
  | cons c blanks ih =>
    obtain ⟨hc, hblanks⟩ := List.forall_mem_cons.mp h
    exact .cons hc (ih hblanks)

/-- A member that is written with blanks in front of its key and its value. -/
theorem isMember_written {m : String × Datum} (before between : List Char)
    (hname : ∀ c ∈ m.1.toList, Plain c) (hbefore : ∀ c ∈ before, isBlank c = true)
    (hbetween : ∀ c ∈ between, isBlank c = true) (rest : List Char) :
    IsMember (writtenMember m)
      (before ++ (quote m.1 ++ ':' :: (between ++ (m.2.chars ++ rest)))) rest := by
  have hquote : quote m.1 ++ ':' :: (between ++ (m.2.chars ++ rest)) =
      '"' :: (m.1.toList ++ '"' :: ':' :: (between ++ (m.2.chars ++ rest))) := by
    simp [quote]
  rw [hquote]
  exact ⟨m.2.chars ++ rest, ⟨_, _, _, ws_append hbefore _, spells_of_plain hname _, .nil,
    ws_append hbetween _⟩, m.2.spelled rest⟩

section

variable {members : List (String × Datum)} (h : ∀ m ∈ members, ∀ c ∈ m.1.toList, Plain c)
include h

/-- What is written in one line is the text of an object. -/
theorem isObject_compact : IsObject (members.map writtenMember) (compact members).toList := by
  have hitem : ∀ m ∈ members, ∀ rest,
      IsMember (writtenMember m) (compactMember m ++ rest) rest := by
    intro m hm rest
    have hwritten := isMember_written [] [] (h m hm) (by simp) (by simp) rest
    simpa [compactMember] using hwritten
  refine ⟨_, [], ?_, items_intercalate members hitem .nil, .nil⟩
  rw [compact, String.toList_ofList]
  exact .nil

/-- What is written on several lines is the text of an object. -/
theorem isObject_pretty : IsObject (members.map writtenMember) (pretty members).toList := by
  have hitem : ∀ m ∈ members, ∀ rest,
      IsMember (writtenMember m) (prettyMember m ++ rest) rest := by
    intro m hm rest
    have hwritten := isMember_written ['\n', ' ', ' '] [' '] (h m hm) (by simp [isBlank])
      (by simp [isBlank]) rest
    simpa [prettyMember] using hwritten
  have hclose : Ws ['\n', '\x7d'] ['\x7d'] := .cons (by decide) .nil
  refine ⟨_, [], ?_, items_intercalate members hitem hclose, .nil⟩
  rw [pretty, String.toList_ofList]
  exact .nil

end

namespace Record

variable {r : Record}

/-- There is a value for every field, and it fits. -/
def Fits (r : Record) (data : List Datum) : Prop :=
  List.Forall₂ (fun f d => f.kind.datum? d.value = some d) r.fields data

/-- Values that fit are taken for the fields in order. -/
theorem takeFrom_written (index : Nat) {values : List (Option Datum)} {data : List Datum}
    (hlength : values.length = r.fields.length)
    (hfits : List.Forall₂ (fun f d => f.kind.datum? d.value = some d) (r.fields.drop index) data) :
    r.takeFrom index values (data.map (·.value)) =
      some (values.take index ++ data.map some) := by
  induction data generalizing index values with
  | nil =>
    have hend : r.fields.length ≤ index := by
      simpa using List.drop_eq_nil_iff.mp (List.forall₂_nil_right_iff.mp hfits)
    rw [List.take_of_length_le (by omega)]
    simp [takeFrom]
  | cons d data ih =>
    -- the first value belongs to the field whose turn it is
    obtain ⟨f, fs, hd, hrest, hdrop⟩ := List.forall₂_cons_right_iff.mp hfits
    have hlt : index < r.fields.length := by
      by_contra hge
      rw [List.drop_eq_nil_of_le (by omega)] at hdrop
      cases hdrop
    rw [List.drop_eq_getElem_cons hlt] at hdrop
    obtain ⟨rfl, rfl⟩ := List.cons.inj hdrop
    have htake : r.takeAt values index d.value = some (values.set index (some d)) := by
      rw [takeAt, List.getElem?_eq_getElem hlt, Option.bind_some, hd]
      rfl
    have hlength' : (values.set index (some d)).length = r.fields.length := by
      rw [List.length_set, hlength]
    -- with it, one more of the values is no longer what it was before
    rw [List.map_cons, takeFrom, htake, Option.bind_some, ih (index + 1) hlength' hrest,
      List.map_cons, List.take_succ_eq_append_getElem (by omega),
      List.take_set_of_le (Nat.le_refl _), List.getElem_set_self]
    simp

/-- A record that is written is read back, whatever text of an object it is written as. -/
theorem read_written {data : List Datum} {text : String} (hr : r.WellFormed)
    (hfits : r.Fits data) (htext : IsObject ((r.members data).map writtenMember) text.toList) :
    r.read text = .ok (data.map some) := by
  have hnamed : (r.members data).map writtenMember = r.named 0 (data.map (·.value)) := by
    have hnames : r.fields.map (·.name.toList) = (r.fields.map (·.name)).map String.toList := by
      rw [List.map_map]
      rfl
    rw [members, named, List.drop_zero, hnames, List.zip_map]
    rfl
  have hlength : data.length = r.fields.length := (List.Forall₂.length_eq hfits).symm
  have hlength₀ : (r.fields.map fun _ => (none : Option Datum)).length = r.fields.length :=
    List.length_map _
  -- taken in order, the values are taken by name, which is how they were written
  have htake := takeFrom_written 0 hlength₀ hfits
  rw [hr.takeFrom_eq (by simp [hlength]) (fun j _ hj => by simp [hj]), hr.takeAll_eq_some_iff,
    ← hnamed] at htake
  exact eq_ok_of_toOption ((read_of_isObject hr htext).mpr ⟨htake, fun _ => by simp⟩)

/-- The names of the members that are written stand for themselves in quotes. -/
theorem WellFormed.plain_of_mem_members (hr : r.WellFormed) (data : List Datum) :
    ∀ m ∈ r.members data, ∀ c ∈ m.1.toList, Plain c := by
  intro m hm
  obtain ⟨f, hf, hname⟩ := List.mem_map.mp (List.of_mem_zip hm).1
  rw [← hname]
  exact hr.plain f hf

/-- What is written in one line is read back. -/
theorem read_compact {data : List Datum} (hr : r.WellFormed) (hfits : r.Fits data) :
    r.read (compact (r.members data)) = .ok (data.map some) :=
  read_written hr hfits (isObject_compact (hr.plain_of_mem_members data))

/-- What is written on several lines is read back. -/
theorem read_pretty {data : List Datum} (hr : r.WellFormed) (hfits : r.Fits data) :
    r.read (pretty (r.members data)) = .ok (data.map some) :=
  read_written hr hfits (isObject_pretty (hr.plain_of_mem_members data))

end Record

end SignalChain.Json

namespace SignalChain

open SignalChain.Json

namespace Settings

/-- The names of settings differ and need no escapes. -/
theorem schema_wellFormed : schema.WellFormed where
  nodup := by decide
  plain := by simp [schema, Plain]
  width := by simp [schema, Kind.width]

/-- Settings fit their fields, valid or not. -/
theorem fits_toData (s : Settings) : schema.Fits s.toData :=
  .cons (if_pos s.samplerPeriodMs.toNat_lt) <| .cons (if_pos s.resolutionBits.toNat_lt) <|
    .cons (if_pos s.commandPeriodUs.toNat_lt) <| .cons (if_pos s.failureBudget.toNat_lt) <|
    .cons (if_pos s.stackKb.toNat_lt) .nil

/-- Settings are made of their values. -/
theorem ofData_toData (s : Settings) : ofData (s.toData.map some) = s := by
  simp [ofData, toData, naturalAt]

/-- Settings that are written are read back. -/
theorem parse_toCompact (s : Settings) : parse s.toCompact = .ok s := by
  rw [parse, toCompact, Record.read_compact schema_wellFormed s.fits_toData]
  exact congrArg Except.ok s.ofData_toData

end Settings

namespace Counters

/-- The names of counters differ and need no escapes. -/
theorem schema_wellFormed : schema.WellFormed where
  nodup := by decide
  plain := by simp [schema, Plain]
  width := by simp [schema, Kind.width]

/-- Counters fit their fields. -/
theorem fits_toData (c : Counters) : schema.Fits c.toData :=
  .cons (if_pos c.samplesPublished.toNat_lt) <| .cons (if_pos c.readFailures.toNat_lt) <|
    .cons (if_pos c.outOfRange.toNat_lt) <| .cons (if_pos c.overruns.toNat_lt) <|
    .cons (if_pos c.worstLateness.toNat_lt) <| .cons (if_pos c.filterRuns.toNat_lt) <|
    .cons (if_pos c.commandsIssued.toNat_lt) <| .cons (if_pos c.overriddenCommands.toNat_lt) <|
    .cons (if_pos c.actuationFailures.toNat_lt) <| .cons rfl .nil

/-- Counters are made of their values. -/
theorem ofData_toData (c : Counters) : ofData (c.toData.map some) = c := by
  simp [ofData, toData, naturalAt, booleanAt]

/-- Counters that are written in one line are read back. -/
theorem parse_toCompact (c : Counters) : parse c.toCompact = .ok c := by
  rw [parse, toCompact, Record.read_compact schema_wellFormed c.fits_toData]
  exact congrArg Except.ok c.ofData_toData

/-- Counters that are written on several lines are read back. -/
theorem parse_toPretty (c : Counters) : parse c.toPretty = .ok c := by
  rw [parse, toPretty, Record.read_pretty schema_wellFormed c.fits_toData]
  exact congrArg Except.ok c.ofData_toData

end Counters

/-- Settings and counters are read back as they were from every text that they are written as, and
written again as the same text. -/
theorem parse_print :
    (∀ s : Settings, Settings.parse s.toCompact = .ok s ∧
      (Settings.parse s.toCompact).map Settings.toCompact = .ok s.toCompact) ∧
    ∀ c : Counters, Counters.parse c.toCompact = .ok c ∧ Counters.parse c.toPretty = .ok c ∧
      (Counters.parse c.toCompact).map Counters.toCompact = .ok c.toCompact ∧
      (Counters.parse c.toPretty).map Counters.toPretty = .ok c.toPretty := by
  refine ⟨fun s => ⟨s.parse_toCompact, ?_⟩, fun c => ⟨c.parse_toCompact, c.parse_toPretty, ?_, ?_⟩⟩
  · rw [s.parse_toCompact]
    rfl
  · rw [c.parse_toCompact]
    rfl
  · rw [c.parse_toPretty]
    rfl

/-- On several lines, every member has one of its own and is indented by two blanks. -/
example : pretty [("overruns", .natural 12), ("actuator_halted", .boolean false)] =
    "\x7b\n  \"overruns\": 12,\n  \"actuator_halted\": false\n\x7d" := by
  decide

end SignalChain
