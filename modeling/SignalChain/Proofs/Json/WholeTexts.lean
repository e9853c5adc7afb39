import Mathlib.Data.List.Forall2
import SignalChain.CommandLine.Folder
import SignalChain.Proofs.Json.Cutting
import SignalChain.Proofs.Json.RoundTrip

/-!
# Whole texts

Settings and counters are read from the whole of what is written of them and from nothing else
(`wholeOnly_print`): a text that breaks off anywhere, even before its first character, is refused as
too short, and one with anything but blanks behind it as no JSON. What is written is text of one
byte a character, so that a file that breaks off at a byte breaks off at a character
(`exists_decode_extract`). No settings are made up for it, although every field has a default.
-/

namespace SignalChain.Json

/-- A reader takes a text for `x` as a whole: no part from its beginning will do, and nothing but
blanks may stand behind it. -/
structure WholeOnly {α : Type} (parse : String → Except Fault α) (text : String) (x : α) :
    Prop where
  /-- A text that breaks off is too short. -/
  cut : ∀ front back, text = front ++ back → back ≠ "" →
    ∃ fault, parse front = .error fault ∧ fault.kind = .cutShort
  /-- Blanks behind the text change nothing. -/
  blank : ∀ after : String, (∀ c ∈ after.toList, isBlank c = true) → parse (text ++ after) = .ok x
  /-- Anything else behind the text is too much. -/
  trailing : ∀ after : String, (∃ c ∈ after.toList, isBlank c = false) →
    ∃ fault, parse (text ++ after) = .error fault ∧ fault.kind = .malformed ∧
      fault.message = "trailing characters"

/-- What is made of what was read does not matter. -/
theorem WholeOnly.map {α β : Type} {parse : String → Except Fault α} {text : String} {x : α}
    (f : α → β) (h : WholeOnly parse text x) :
    WholeOnly (fun text => f <$> parse text) text (f x) where
  cut front back hsplit hback := by
    obtain ⟨fault, hparse, hkind⟩ := h.cut front back hsplit hback
    exact ⟨fault, by rw [hparse]; rfl, hkind⟩
  blank after hafter := by
    rw [h.blank after hafter]
    rfl
  trailing after hafter := by
    obtain ⟨fault, hparse, hfault⟩ := h.trailing after hafter
    exact ⟨fault, by rw [hparse]; rfl, hfault⟩

namespace Record

variable {r : Record} {data : List Datum}

/-- A text of an object that ends with its bracket is read as a whole only. -/
theorem wholeOnly_read {ms : List Member} {text : String} {values : List (Option Datum)}
    (hr : r.WellFormed) (hms : ∀ m ∈ ms, r.Suits m) (htext : IsObject ms text.toList)
    (hread : r.read text = .ok values) (hend : text.toList.getLast? = some '\x7d') :
    WholeOnly r.read text values where
  cut front back hsplit hback := by
    subst hsplit
    -- whatever is missing, the bracket is
    have hne : back.toList ≠ [] := fun h => hback (String.toList_eq_nil_iff.mp h)
    have hlast : back.toList.getLast hne = '\x7d' := by
      rw [String.toList_append, List.getLast?_append_of_ne_nil _ hne,
        List.getLast?_eq_some_getLast hne] at hend
      exact Option.some.inj hend
    exact exists_read_cut hr hms htext hread ⟨_, hlast ▸ List.getLast_mem hne, rfl⟩
  blank after := read_append_blank hread
  trailing after hafter := ⟨_, read_append_trailing hread hafter, rfl, rfl⟩

/-- The members that are written belong to fields. -/
theorem WellFormed.suits_written (hr : r.WellFormed) (hfits : r.Fits data) :
    ∀ m ∈ (r.members data).map writtenMember, r.Suits m := by
  intro m hm
  rw [members, List.zip_map_left, List.map_map] at hm
  obtain ⟨⟨f, d⟩, hzip, rfl⟩ := List.mem_map.mp hm
  obtain ⟨i, hi⟩ := List.mem_iff_getElem?.mp (List.of_mem_zip hzip).1
  exact ⟨i, f, d, hr.indexOf?_name hi, hi, (List.forall₂_iff_zip.mp hfits).2 hzip⟩

/-- A record that is written in one line is read from the whole line only. -/
theorem wholeOnly_compact (hr : r.WellFormed) (hfits : r.Fits data) :
    WholeOnly r.read (compact (r.members data)) (data.map some) :=
  wholeOnly_read hr (hr.suits_written hfits) (isObject_compact (hr.plain_of_mem_members data))
    (read_compact hr hfits) (by rw [compact, String.toList_ofList, List.getLast?_concat])

/-- A record that is written on several lines is read from all of them only. -/
theorem wholeOnly_pretty (hr : r.WellFormed) (hfits : r.Fits data) :
    WholeOnly r.read (pretty (r.members data)) (data.map some) :=
  wholeOnly_read hr (hr.suits_written hfits) (isObject_pretty (hr.plain_of_mem_members data))
    (read_pretty hr hfits)
    (by rw [pretty, String.toList_ofList, List.getLast?_append_cons]; rfl)

end Record

/-! ### Bytes -/

/-- Every character has one byte. -/
def OneByte (cs : List Char) : Prop :=
  ∀ c ∈ cs, c.utf8Size = 1

-- named, since characters are finitely many and might all be tried instead of those of the list
instance (cs : List Char) : Decidable (OneByte cs) :=
  List.decidableBAll (fun c : Char => c.utf8Size = 1) cs

/-- No characters have no other. -/
theorem OneByte.nil : OneByte [] :=
  List.forall_mem_nil _

/-- One more character of one byte. -/
theorem OneByte.cons {c : Char} {cs : List Char} (hc : c.utf8Size = 1) (hcs : OneByte cs) :
    OneByte (c :: cs) :=
  List.forall_mem_cons.mpr ⟨hc, hcs⟩

/-- Characters of one byte behind others. -/
theorem OneByte.append {cs ds : List Char} (hcs : OneByte cs) (hds : OneByte ds) :
    OneByte (cs ++ ds) :=
  List.forall_mem_append.mpr ⟨hcs, hds⟩

/-- Characters of one byte are as many as their bytes. -/
theorem OneByte.size_utf8Encode {cs : List Char} (h : OneByte cs) :
    cs.utf8Encode.size = cs.length := by
  induction cs with
  | nil => simp
  | cons c cs ih =>
    obtain ⟨hc, hcs⟩ := List.forall_mem_cons.mp h
    rw [List.utf8Encode_cons, ByteArray.size_append, ih hcs, List.utf8Encode_singleton,
      List.size_toByteArray, String.length_utf8EncodeChar, hc, List.length_cons, Nat.add_comm]

/-- A text is what its bytes are decoded as. -/
theorem decode_toUTF8 (text : String) : CommandLine.Folder.decode text.toUTF8 = .ok text := by
  have hvalid : String.fromUTF8? text.toUTF8 = some text := by
    rw [String.fromUTF8?, String.toUTF8_eq_toByteArray, dif_pos text.isValidUTF8]
    rfl
  rw [CommandLine.Folder.decode, hvalid]

/-- Bytes from the beginning of a text of one byte a character are a text from its beginning. -/
theorem OneByte.exists_decode_extract {text : String} (h : OneByte text.toList) {k : Nat}
    (hk : k < text.toUTF8.size) :
    ∃ front back, text = front ++ back ∧ back ≠ "" ∧
      CommandLine.Folder.decode (text.toUTF8.extract 0 k) = .ok front := by
  have htext : text.toUTF8 = text.toList.utf8Encode := by
    rw [String.toUTF8_eq_toByteArray, ← String.toByteArray_ofList, String.ofList_toList]
  have hlt : k < text.toList.length := by rwa [htext, h.size_utf8Encode] at hk
  have hsplit : text =
      String.ofList (text.toList.take k) ++ String.ofList (text.toList.drop k) := by
    rw [← String.ofList_append, List.take_append_drop, String.ofList_toList]
  refine ⟨_, _, hsplit, ?_, ?_⟩
  · intro hempty
    have hnil := congrArg String.toList hempty
    rw [String.toList_ofList, String.toList_empty, List.drop_eq_nil_iff] at hnil
    omega
  · have hfront : OneByte (text.toList.take k) := fun c hc => h c (List.mem_of_mem_take hc)
    have hsize : k = (text.toList.take k).utf8Encode.size := by
      rw [hfront.size_utf8Encode, List.length_take, Nat.min_eq_left (Nat.le_of_lt hlt)]
    have hbytes : text.toUTF8.extract 0 k = (String.ofList (text.toList.take k)).toUTF8 := by
      rw [htext, String.toUTF8_eq_toByteArray, String.toByteArray_ofList]
      conv_lhs => rw [← List.take_append_drop k text.toList, List.utf8Encode_append]
      exact ByteArray.extract_append_eq_left hsize
    rw [hbytes, decode_toUTF8]

/-- Lists of characters of one byte, with such characters between them. -/
theorem OneByte.intercalate {sep : List Char} {ls : List (List Char)} (hsep : OneByte sep)
    (h : ∀ l ∈ ls, OneByte l) : OneByte (sep.intercalate ls) := by
  induction ls with
  | nil => exact .nil
  | cons l ls ih =>
    obtain ⟨hl, hls⟩ := List.forall_mem_cons.mp h
    by_cases hnil : ls = []
    · subst hnil
      rwa [List.intercalate_singleton]
    · rw [List.intercalate_cons_of_ne_nil hnil]
      exact (hl.append hsep).append (ih hls)

/-- The values of fields are written in characters of one byte. -/
theorem oneByte_chars (d : Datum) : OneByte d.chars := by
  cases d with
  | natural n =>
    intro c hc
    have hdigit : c.isDigit = true := Nat.isDigit_of_mem_toDigits (by decide) (by decide) hc
    simp only [Char.isDigit, Bool.and_eq_true, decide_eq_true_eq, ge_iff_le] at hdigit
    exact Char.utf8Size_eq_one_iff.mpr (UInt32.le_trans hdigit.2 (by decide))
  | boolean b => cases b <;> decide

/-- Members whose names have characters of one byte are written in such characters. -/
theorem oneByte_compact {members : List (String × Datum)}
    (h : ∀ m ∈ members, OneByte m.1.toList) : OneByte (compact members).toList := by
  have hmember : ∀ l ∈ members.map compactMember, OneByte l := by
    intro l hl
    obtain ⟨m, hm, rfl⟩ := List.mem_map.mp hl
    have hquote : OneByte (quote m.1) := .cons (by decide) ((h m hm).append (by decide))
    exact hquote.append (.cons (by decide) (oneByte_chars m.2))
  rw [compact, String.toList_ofList]
  exact .cons (by decide) ((OneByte.intercalate (by decide) hmember).append (by decide))

end SignalChain.Json

namespace SignalChain

open SignalChain.Json

namespace Settings

/-- Settings are read from the whole of what is written of them only. -/
theorem wholeOnly_toCompact (s : Settings) : WholeOnly parse s.toCompact s := by
  have h := (Record.wholeOnly_compact schema_wellFormed s.fits_toData).map ofData
  rwa [s.ofData_toData] at h

/-- Settings are written in characters of one byte. -/
theorem oneByte_toCompact (s : Settings) : OneByte s.toCompact.toList := by
  refine oneByte_compact fun m hm => ?_
  obtain ⟨f, hf, hname⟩ := List.mem_map.mp (List.of_mem_zip hm).1
  have hnames : ∀ f ∈ schema.fields, OneByte f.name.toList := by
    decide
  exact hname ▸ hnames f hf

/-- A settings file that breaks off is refused as too short. -/
theorem loadSettings_cut (s : Settings) {k : Nat} (hk : k < s.toCompact.toUTF8.size)
    {readFile : String → Except CommandLine.ReadFault String} {path : String} {args : List String}
    (hfile : readFile path = CommandLine.Folder.decode (s.toCompact.toUTF8.extract 0 k)) :
    ∃ cause, CommandLine.loadSettings readFile (path :: args) = .error (.parsing path cause) ∧
      cause.kind = .cutShort := by
  obtain ⟨front, back, hsplit, hback, hdecode⟩ := s.oneByte_toCompact.exists_decode_extract hk
  obtain ⟨cause, hparse, hkind⟩ := s.wholeOnly_toCompact.cut front back hsplit hback
  refine ⟨cause, ?_, hkind⟩
  simp only [CommandLine.loadSettings, hfile, hdecode, hparse]

end Settings

namespace Counters

/-- Counters are read from the whole of the line that is written of them only. -/
theorem wholeOnly_toCompact (c : Counters) : WholeOnly parse c.toCompact c := by
  have h := (Record.wholeOnly_compact schema_wellFormed c.fits_toData).map ofData
  rwa [c.ofData_toData] at h

/-- Counters are read from all of the lines that are written of them only. -/
theorem wholeOnly_toPretty (c : Counters) : WholeOnly parse c.toPretty c := by
  have h := (Record.wholeOnly_pretty schema_wellFormed c.fits_toData).map ofData
  rwa [c.ofData_toData] at h

end Counters

/-- Settings and counters are read from the whole of every text that they are written as, and from
no other text that begins like it but for blanks at its end. A settings file that breaks off at any
byte is refused as too short. -/
theorem wholeOnly_print :
    (∀ s : Settings, WholeOnly Settings.parse s.toCompact s) ∧
    (∀ c : Counters, WholeOnly Counters.parse c.toCompact c ∧
      WholeOnly Counters.parse c.toPretty c) ∧
    ∀ (s : Settings) (k : Nat) (readFile : String → Except CommandLine.ReadFault String)
      (path : String) (args : List String), k < s.toCompact.toUTF8.size →
      readFile path = CommandLine.Folder.decode (s.toCompact.toUTF8.extract 0 k) →
      ∃ cause, CommandLine.loadSettings readFile (path :: args) = .error (.parsing path cause) ∧
        cause.kind = .cutShort :=
  ⟨Settings.wholeOnly_toCompact, fun c => ⟨c.wholeOnly_toCompact, c.wholeOnly_toPretty⟩,
    fun s _ _ _ _ hk hfile => s.loadSettings_cut hk hfile⟩

end SignalChain
