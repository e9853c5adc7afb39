import SignalChain.Proofs.Json.Accepting
import SignalChain.Proofs.Json.RoundTrip

/-!
# The meaning of a text of settings

Settings are read from the texts of objects and lists, and from no others. The text of an object
that gives each setting at most once, as a number that fits, means the settings that it gives, and
the defaults for the others, whatever else it has and in whatever order (`settle`). The text of a
list means what the object means that gives its elements to the first settings. Any other object or
list is refused. So a setting is never anything but what the text gives for it, or its default
(`parse_meaning`).
-/

namespace SignalChain.Settings

open SignalChain.Json

/-- What the first member with the name of a field gives for it. -/
def literal? (f : Field) (ms : List Member) : Option Datum :=
  (given f.name ms).head?.bind f.kind.datum?

/-- Members give each setting at most once, and what they give for it fits. -/
structure Suits (ms : List Member) : Prop where
  once : ∀ f ∈ schema.fields, (given f.name ms).length ≤ 1
  fits : ∀ f ∈ schema.fields, ∀ v ∈ given f.name ms, (f.kind.datum? v).isSome = true

/-- The values of the settings that members give, with the default for each that they do not. -/
def settle (ms : List Member) : List Datum :=
  List.zipWith (fun f default => (literal? f ms).getD default) schema.fields (toData {})

/-- The members that give the elements of a list to the first settings. -/
def named (vs : List Value) : List Member :=
  schema.named 0 vs

/-- Members make sense for a setting if they give it at most once, as something that fits. -/
theorem meaning?_eq_some_iff {f : Field} {ms : List Member} {d? : Option Datum} :
    f.meaning? ms = some d? ↔
      ((given f.name ms).length ≤ 1 ∧ ∀ v ∈ given f.name ms, (f.kind.datum? v).isSome = true) ∧
        d? = literal? f ms := by
  unfold Field.meaning? literal?
  match given f.name ms with
  | [] => simpa using eq_comm
  | [v] =>
    cases hv : f.kind.datum? v with
    | none => simp [hv]
    | some d => simpa [hv] using eq_comm
  | v :: w :: vs => simp

/-- Members that suit say of every setting what they give for it. -/
theorem says_iff {ms : List Member} {values : List (Option Datum)} :
    schema.Says ms values ↔ Suits ms ∧ values = schema.fields.map (literal? · ms) := by
  constructor
  · intro h
    -- a field about which nonsense is said would leave no values
    have hmeaning : ∀ f ∈ schema.fields, ∃ d?, f.meaning? ms = some d? := by
      intro f hf
      have hmem : f.meaning? ms ∈ values.map some := h ▸ List.mem_map_of_mem hf
      obtain ⟨d?, -, hd⟩ := List.mem_map.mp hmem
      exact ⟨d?, hd.symm⟩
    have hsuits : Suits ms := by
      refine ⟨fun f hf => ?_, fun f hf => ?_⟩
      · obtain ⟨d?, hd⟩ := hmeaning f hf
        exact (meaning?_eq_some_iff.mp hd).1.1
      · obtain ⟨d?, hd⟩ := hmeaning f hf
        exact (meaning?_eq_some_iff.mp hd).1.2
    have hliteral : schema.fields.map (·.meaning? ms) =
        (schema.fields.map (literal? · ms)).map some := by
      rw [List.map_map]
      refine List.map_congr_left fun f hf => ?_
      obtain ⟨d?, hd⟩ := hmeaning f hf
      rw [hd, (meaning?_eq_some_iff.mp hd).2]
      rfl
    exact ⟨hsuits, h.unique hliteral⟩
  · rintro ⟨hsuits, rfl⟩
    rw [Record.Says, List.map_map]
    refine List.map_congr_left fun f hf => ?_
    exact meaning?_eq_some_iff.mpr ⟨⟨hsuits.once f hf, hsuits.fits f hf⟩, rfl⟩

/-- A number for a setting has the bits of the setting. -/
def Natural (bits : Nat) (d? : Option Datum) : Prop :=
  ∀ d ∈ d?, ∃ n < 2 ^ bits, d = .natural n

/-- What members give for a setting has its bits. -/
theorem natural_literal? (bits : Nat) (key name : String) (ms : List Member) :
    Natural bits (literal? ⟨key, .natural bits name⟩ ms) := by
  intro d hd
  obtain ⟨v, -, hv⟩ := Option.bind_eq_some_iff.mp hd
  obtain ⟨n, hn, -, hvalue⟩ := Kind.datum?_natural_iff.mp hv
  exact ⟨n, hn, hvalue⟩

/-- A word holds the number that was read for it, or its default. -/
theorem natural_naturalAt {bits n index : Nat} {values : List (Option Datum)} {d? : Option Datum}
    {word : Nat → Nat} (hword : ∀ m < 2 ^ bits, word m = m) (hn : n < 2 ^ bits)
    (hvalue : values[index]? = some d?) (hd : Natural bits d?) :
    Datum.natural (word (naturalAt values index n)) = d?.getD (.natural n) := by
  unfold naturalAt
  rw [hvalue]
  cases d? with
  | none => exact congrArg Datum.natural (hword n hn)
  | some d =>
    obtain ⟨m, hm, rfl⟩ := hd d rfl
    exact congrArg Datum.natural (hword m hm)

/-- Settings hold the values that were read for them. -/
theorem toData_ofData {v₀ v₁ v₂ v₃ v₄ : Option Datum} (h₀ : Natural 32 v₀) (h₁ : Natural 8 v₁)
    (h₂ : Natural 32 v₂) (h₃ : Natural 8 v₃) (h₄ : Natural 64 v₄) :
    (ofData [v₀, v₁, v₂, v₃, v₄]).toData =
      List.zipWith (fun v default => v.getD default) [v₀, v₁, v₂, v₃, v₄] (toData {}) := by
  have hword : ∀ m < 2 ^ 32, (UInt32.ofNat m).toNat = m := fun m hm => UInt32.toNat_ofNat_of_lt' hm
  have hbyte : ∀ m < 2 ^ 8, (UInt8.ofNat m).toNat = m := fun m hm => UInt8.toNat_ofNat_of_lt' hm
  have hlong : ∀ m < 2 ^ 64, (UInt64.ofNat m).toNat = m := fun m hm => UInt64.toNat_ofNat_of_lt' hm
  -- a word is made of the number at its place, which fits it
  refine List.cons_eq_cons.mpr ⟨natural_naturalAt hword (by decide) rfl h₀, ?_⟩
  refine List.cons_eq_cons.mpr ⟨natural_naturalAt hbyte (by decide) rfl h₁, ?_⟩
  refine List.cons_eq_cons.mpr ⟨natural_naturalAt hword (by decide) rfl h₂, ?_⟩
  refine List.cons_eq_cons.mpr ⟨natural_naturalAt hbyte (by decide) rfl h₃, ?_⟩
  exact List.cons_eq_cons.mpr ⟨natural_naturalAt hlong (by decide) rfl h₄, rfl⟩

/-- Settings that are made of what members give are what the members mean. -/
theorem toData_ofData_literals (ms : List Member) :
    (ofData (schema.fields.map (literal? · ms))).toData = settle ms := by
  refine (toData_ofData (natural_literal? 32 _ _ ms) (natural_literal? 8 _ _ ms)
    (natural_literal? 32 _ _ ms) (natural_literal? 8 _ _ ms) (natural_literal? 64 _ _ ms)).trans ?_
  rfl

/-- Settings are read from a text if its record is. -/
theorem parse_eq_ok_iff {text : String} {s : Settings} :
    parse text = .ok s ↔
      ∃ values, (schema.read text).toOption = some values ∧ ofData values = s := by
  unfold parse
  cases schema.read text with
  | error fault => exact iff_of_false (by rintro ⟨⟩) (by rintro ⟨values, ⟨⟩, -⟩)
  | ok values =>
    constructor
    · intro h
      exact ⟨values, rfl, Except.ok.inj h⟩
    · rintro ⟨values', hvalues, rfl⟩
      cases hvalues
      rfl

/-- What is read from the text of an object. -/
theorem parse_of_isObject {text : String} {ms : List Member} (h : IsObject ms text.toList)
    {s : Settings} :
    parse text = .ok s ↔ Suits ms ∧ ofData (schema.fields.map (literal? · ms)) = s := by
  simp only [parse_eq_ok_iff, Record.read_of_isObject schema_wellFormed h, says_iff]
  constructor
  · rintro ⟨values, ⟨⟨hsuits, rfl⟩, -⟩, hs⟩
    exact ⟨hsuits, hs⟩
  · rintro ⟨hsuits, hs⟩
    exact ⟨_, ⟨⟨hsuits, rfl⟩, fun hrequired => absurd hrequired (by decide)⟩, hs⟩

/-- What is read from the text of a list. -/
theorem parse_of_isList {text : String} {vs : List Value} (h : IsList vs text.toList)
    {s : Settings} :
    parse text = .ok s ↔
      (vs.length ≤ 5 ∧ Suits (named vs)) ∧
        ofData (schema.fields.map (literal? · (named vs))) = s := by
  simp only [parse_eq_ok_iff, Record.read_of_isList schema_wellFormed rfl h, says_iff]
  constructor
  · rintro ⟨values, ⟨hlength, hsuits, rfl⟩, hs⟩
    exact ⟨⟨hlength, hsuits⟩, hs⟩
  · rintro ⟨⟨hlength, hsuits⟩, hs⟩
    exact ⟨_, ⟨hlength, hsuits, rfl⟩, hs⟩

/-- A text that is not read as any settings is refused. -/
theorem exists_error {text : String} (h : ∀ s, parse text ≠ .ok s) :
    ∃ fault, parse text = .error fault := by
  cases hparse : parse text with
  | error fault => exact ⟨fault, rfl⟩
  | ok s => exact absurd hparse (h s)

/-- What a text of settings means: an object that gives each setting at most once, as a number that
fits, means the settings that it gives and the defaults for the others; a list of at most five
numbers that fit means the same as the object that gives them to the first settings; and every
other object and list is refused. Nothing else is read, and nothing else is read from these. -/
theorem parse_meaning (text : String) :
    (∀ ms, IsObject ms text.toList →
      (Suits ms → ∃ s, parse text = .ok s ∧ s.toData = settle ms) ∧
      (¬ Suits ms → ∃ fault, parse text = .error fault)) ∧
    (∀ vs, IsList vs text.toList →
      (vs.length ≤ 5 ∧ Suits (named vs) →
        ∃ s, parse text = .ok s ∧ s.toData = settle (named vs)) ∧
      (¬ (vs.length ≤ 5 ∧ Suits (named vs)) → ∃ fault, parse text = .error fault)) ∧
    ∀ s, parse text = .ok s →
      (∃ ms, IsObject ms text.toList ∧ Suits ms ∧ s.toData = settle ms) ∨
      ∃ vs, IsList vs text.toList ∧ (vs.length ≤ 5 ∧ Suits (named vs)) ∧
        s.toData = settle (named vs) := by
  refine ⟨fun ms hobject => ⟨fun hsuits => ?_, fun hnot => ?_⟩,
    fun vs hlist => ⟨fun hsuits => ?_, fun hnot => ?_⟩, fun s hs => ?_⟩
  · exact ⟨_, (parse_of_isObject hobject).mpr ⟨hsuits, rfl⟩, toData_ofData_literals ms⟩
  · exact exists_error fun s hs => hnot ((parse_of_isObject hobject).mp hs).1
  · exact ⟨_, (parse_of_isList hlist).mpr ⟨hsuits, rfl⟩, toData_ofData_literals (named vs)⟩
  · exact exists_error fun s hs => hnot ((parse_of_isList hlist).mp hs).1
  · -- what was read is the text of an object or of a list, and these mean what they say
    obtain ⟨values, hread, -⟩ := parse_eq_ok_iff.mp hs
    rcases Record.isText_of_read hread with ⟨ms, hobject⟩ | ⟨vs, hlist⟩
    · obtain ⟨hsuits, rfl⟩ := (parse_of_isObject hobject).mp hs
      exact .inl ⟨ms, hobject, hsuits, toData_ofData_literals ms⟩
    · obtain ⟨hsuits, rfl⟩ := (parse_of_isList hlist).mp hs
      exact .inr ⟨vs, hlist, hsuits, toData_ofData_literals (named vs)⟩

/-- An object with a member that is no setting, whose value is passed over, as an instance. -/
theorem parse_meaning_of_unknown_member :
    let text := "\x7b\"x\": [0, \x7b\x7d],\n\"adc_resolution_bits\": 12\x7d"
    let ms : List Member :=
      [("x".toList, .list), ("adc_resolution_bits".toList, .number false 12 false)]
    IsObject ms text.toList ∧ Suits ms ∧ ∃ s, parse text = .ok s ∧
      s.toData = [.natural 1000, .natural 12, .natural 1000, .natural 1, .natural 16] := by
  intro text ms
  have hlist : ∀ rest, Spelled (.value .list)
      (['[', '0', ',', ' ', '\x7b', '\x7d', ']'] ++ rest) rest := by
    intro rest
    refine .filled (b := .list) (.element .nil ((Datum.natural 0).spelled _)) ?_
    exact .comma .nil (.element (.cons rfl .nil) (.empty (b := .object) .nil)) (.close .nil)
  have hunknown : ∀ rest, IsMember ("x".toList, .list)
      (['"', 'x', '"', ':', ' '] ++ (['[', '0', ',', ' ', '\x7b', '\x7d', ']'] ++ rest)) rest := by
    intro rest
    have hname : ∀ c ∈ ['x'], Plain c := by simp [Plain]
    exact ⟨_, ⟨_, _, _, .nil, spells_of_plain hname _, .nil, .cons rfl .nil⟩, hlist rest⟩
  have hbits : ∀ rest, IsMember ("adc_resolution_bits".toList, .number false 12 false)
      ('\n' :: (quote "adc_resolution_bits" ++ ':' :: ' ' :: '1' :: '2' :: rest)) rest :=
    isMember_written (m := ("adc_resolution_bits", .natural 12)) ['\n'] [' '] (by simp [Plain])
      (by simp [isBlank]) (by simp [isBlank])
  have htext : text.toList = '\x7b' ::
      (['"', 'x', '"', ':', ' '] ++ (['[', '0', ',', ' ', '\x7b', '\x7d', ']'] ++ ',' ::
        '\n' :: (quote "adc_resolution_bits" ++ [':', ' ', '1', '2', '\x7d']))) := by
    simp [text, quote]
  have hobject : IsObject ms text.toList := by
    rw [htext]
    exact ⟨_, [], .nil, .filled (hunknown _) (.comma .nil (hbits _) (.close .nil)), .nil⟩
  have hsuits : Suits ms := ⟨by simp [schema, given, ms], by simp [schema, given, ms, Kind.datum?]⟩
  obtain ⟨s, hparse, hs⟩ := ((parse_meaning text).1 ms hobject).1 hsuits
  exact ⟨hobject, hsuits, s, hparse, hs.trans (by decide)⟩

end SignalChain.Settings
