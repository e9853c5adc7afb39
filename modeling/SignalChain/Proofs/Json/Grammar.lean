import SignalChain.Json.Printer

/-!
# The grammar of JSON texts

What JSON texts are, without a reader: a relation for each kind of phrase, between the characters
in front of the phrase and those that are left behind it. Of values only that is told which a
record may depend on, so that a text of a value is a text of any depth, while two numbers differ.

## Main definitions

* `Spells`: the rest of a string, and what it stands for.
* `Spelled`: values, and what stands between the brackets of lists and objects.
* `IsObject`, `IsList`: whole texts, with their members or elements in order.
-/

namespace SignalChain.Json

/-- Blanks, as many as one likes, stand in front of what is left. -/
inductive Ws : List Char → List Char → Prop
  | nil {cs : List Char} : Ws cs cs
  | cons {c : Char} {cs rest : List Char} (hblank : isBlank c = true) (h : Ws cs rest) :
    Ws (c :: cs) rest

/-! ### Strings -/

/-- A character that stands for itself in quotes. -/
def Plain (c : Char) : Prop :=
  c ≠ '"' ∧ c ≠ '\\' ∧ ¬ c < ' '
  deriving Decidable

/-- The number that hexadecimal digits stand for. -/
def hexCode? (ds : List Char) : Option Nat :=
  ds.foldlM (fun code d => (hexDigit? d).map (code * 16 + ·)) 0

/-- The four digits of a hexadecimal escape. -/
def Hex (ds : List Char) (code : Nat) : Prop :=
  ds.length = 4 ∧ hexCode? ds = some code

/-- The rest of a string, after its opening quote, and what it stands for. Strict readers want
surrogates in pairs. For loose ones hexadecimal escapes stand for nothing. -/
inductive Spells (r : Rigour) : List Char → List Char → List Char → Prop
  | close {rest : List Char} : Spells r [] ('"' :: rest) rest
  | plain {c : Char} {t cs rest : List Char} (hplain : Plain c) (h : Spells r t cs rest) :
    Spells r (c :: t) (c :: cs) rest
  | short {e c : Char} {t cs rest : List Char} (hescape : shortEscape? e = some c)
    (h : Spells r t cs rest) : Spells r (c :: t) ('\\' :: e :: cs) rest
  | form {code : Nat} {ds t cs rest : List Char} (hr : r = .loose) (hcode : Hex ds code)
    (h : Spells r t cs rest) : Spells r t ('\\' :: 'u' :: (ds ++ cs)) rest
  | code {code : Nat} {ds t cs rest : List Char} (hr : r = .strict) (hcode : Hex ds code)
    (hhigh : Quoted.isHighSurrogate code = false) (hlow : Quoted.isLowSurrogate code = false)
    (h : Spells r t cs rest) :
    Spells r (Char.ofNat code :: t) ('\\' :: 'u' :: (ds ++ cs)) rest
  | pair {high low : Nat} {ds es t cs rest : List Char} (hr : r = .strict) (hds : Hex ds high)
    (hes : Hex es low) (hhigh : Quoted.isHighSurrogate high = true)
    (hlow : Quoted.isLowSurrogate low = true) (h : Spells r t cs rest) :
    Spells r (Quoted.joinPair high low :: t)
      ('\\' :: 'u' :: (ds ++ '\\' :: 'u' :: (es ++ cs))) rest

/-- A key with the colon behind it, up to the value. -/
def Keyed (r : Rigour) (key cs rest : List Char) : Prop :=
  ∃ cs₁ cs₂ cs₃, Ws cs ('"' :: cs₁) ∧ Spells r key cs₁ cs₂ ∧ Ws cs₂ (':' :: cs₃) ∧ Ws cs₃ rest

/-! ### Numbers -/

/-- Decimal digits, one at least. -/
def Digits (ds : List Char) : Prop :=
  ds ≠ [] ∧ ∀ d ∈ ds, d.isDigit = true

/-- What may stand behind the whole number in front of the point. -/
inductive Fraction : List Char → Prop
  | absent : Fraction []
  | present {ds : List Char} (hds : Digits ds) : Fraction ('.' :: ds)

/-- What may stand at the end of a number. -/
inductive Exponent : List Char → Prop
  | absent : Exponent []
  | bare {mark : Char} {ds : List Char} (hmark : mark = 'e' ∨ mark = 'E') (hds : Digits ds) :
    Exponent (mark :: ds)
  | signed {mark sign : Char} {ds : List Char} (hmark : mark = 'e' ∨ mark = 'E')
    (hsign : sign = '+' ∨ sign = '-') (hds : Digits ds) : Exponent (mark :: sign :: ds)

/-! ### Values -/

/-- A value, as far as records tell values apart. -/
inductive Value where
  | null
  | boolean (b : Bool)
  /-- A number: whether there is a minus in front of it, the whole number in front of the point,
  and whether it has a point or an exponent. -/
  | number (negative : Bool) (whole : Nat) (fractional : Bool)
  | text
  | list
  | object
  deriving DecidableEq

/-- The letters of a value that is a word. -/
def Value.word? : Value → Option (List Char)
  | null => some ['n', 'u', 'l', 'l']
  | boolean b => some (Datum.boolean b).chars
  | _ => none

/-- The sign of a number. -/
def sign (negative : Bool) : List Char :=
  if negative then ['-'] else []

namespace Bracket

/-- The character that opens a bracket. -/
def opening : Bracket → Char
  | list => '['
  | object => '\x7b'

/-- The character that closes a bracket. -/
def closing : Bracket → Char
  | list => ']'
  | object => '\x7d'

/-- The value that stands in brackets. -/
def value : Bracket → Value
  | list => .list
  | object => .object

end Bracket

/-- The phrases that values are made of. -/
inductive Phrase where
  | value (v : Value)
  /-- An element or a member, with the blanks in front of it. -/
  | item (b : Bracket)
  /-- What stands behind an item, up to and with the closing bracket. -/
  | after (b : Bracket)

/-- A phrase stands in front of what is left. -/
inductive Spelled : Phrase → List Char → List Char → Prop
  | word {v : Value} {w rest : List Char} (h : v.word? = some w) :
    Spelled (.value v) (w ++ rest) rest
  | number {negative : Bool} {whole : Nat} {fraction exponent rest : List Char}
    (hfraction : Fraction fraction) (hexponent : Exponent exponent) :
    Spelled (.value (.number negative whole !(fraction ++ exponent).isEmpty))
      (sign negative ++ Nat.toDigits 10 whole ++ fraction ++ exponent ++ rest) rest
  | text {t cs rest : List Char} (h : Spells .loose t cs rest) :
    Spelled (.value .text) ('"' :: cs) rest
  | empty {b : Bracket} {cs rest : List Char} (h : Ws cs (b.closing :: rest)) :
    Spelled (.value b.value) (b.opening :: cs) rest
  | filled {b : Bracket} {cs mid rest : List Char} (hitem : Spelled (.item b) cs mid)
    (hafter : Spelled (.after b) mid rest) : Spelled (.value b.value) (b.opening :: cs) rest
  | element {v : Value} {cs mid rest : List Char} (hws : Ws cs mid)
    (hvalue : Spelled (.value v) mid rest) : Spelled (.item .list) cs rest
  | member {v : Value} {t cs mid rest : List Char} (hkey : Keyed .loose t cs mid)
    (hvalue : Spelled (.value v) mid rest) : Spelled (.item .object) cs rest
  | close {b : Bracket} {cs rest : List Char} (h : Ws cs (b.closing :: rest)) :
    Spelled (.after b) cs rest
  | comma {b : Bracket} {cs cs₁ cs₂ rest : List Char} (h : Ws cs (',' :: cs₁))
    (hitem : Spelled (.item b) cs₁ cs₂) (hafter : Spelled (.after b) cs₂ rest) :
    Spelled (.after b) cs rest

/-! ### Texts -/

/-- A member of an object: a key and its value. -/
abbrev Member := List Char × Value

/-- A member, with the blanks in front of it. -/
def IsMember (m : Member) (cs rest : List Char) : Prop :=
  ∃ mid, Keyed .strict m.1 cs mid ∧ Spelled (.value m.2) mid rest

/-- An element, with the blanks in front of it. -/
def IsElement (v : Value) (cs rest : List Char) : Prop :=
  ∃ mid, Ws cs mid ∧ Spelled (.value v) mid rest

section

variable {α : Type} (Item : α → List Char → List Char → Prop) (b : Bracket)

/-- The items that follow an item, up to and with the closing bracket. -/
inductive After : List α → List Char → List Char → Prop
  | close {cs rest : List Char} (h : Ws cs (b.closing :: rest)) : After [] cs rest
  | comma {x : α} {xs : List α} {cs cs₁ cs₂ rest : List Char} (h : Ws cs (',' :: cs₁))
    (hitem : Item x cs₁ cs₂) (hafter : After xs cs₂ rest) : After (x :: xs) cs rest

/-- The items in a bracket that is open, up to and with the closing bracket. -/
inductive Items : List α → List Char → List Char → Prop
  | empty {cs rest : List Char} (h : Ws cs (b.closing :: rest)) : Items [] cs rest
  | filled {x : α} {xs : List α} {cs mid rest : List Char} (hitem : Item x cs mid)
    (hafter : After Item b xs mid rest) : Items (x :: xs) cs rest

/-- A text that holds a value in brackets and nothing else. -/
def IsText (xs : List α) (text : List Char) : Prop :=
  ∃ cs rest, Ws text (b.opening :: cs) ∧ Items Item b xs cs rest ∧ Ws rest []

end

/-- A text of an object with the given members, in order. -/
def IsObject (ms : List Member) (text : List Char) : Prop :=
  IsText IsMember .object ms text

/-- A text of a list with the given elements, in order. -/
def IsList (vs : List Value) (text : List Char) : Prop :=
  IsText IsElement .list vs text

end SignalChain.Json
