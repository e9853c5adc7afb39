import SignalChain.Text.Unprintable

/-!
# Text shown in messages

A text in a message stands in quotes. Quotes and backslashes inside it get a backslash in front,
four controls have short forms, and every other character that does not print is given by its
code point in hexadecimal.
-/

namespace SignalChain.Text

/-- A character inside quotes. -/
def shownChar (c : Char) : List Char :=
  match c with
  | '\x00' => ['\\', '0']
  | '\t' => ['\\', 't']
  | '\n' => ['\\', 'n']
  | '\r' => ['\\', 'r']
  | '"' => ['\\', '"']
  | '\\' => ['\\', '\\']
  | c =>
    if isUnprintable c then
      ['\\', 'u', '\x7b'] ++ Nat.toDigits 16 c.toNat ++ ['\x7d']
    else [c]

/-- A text in quotes. -/
def shown (s : List Char) : String :=
  String.ofList (['"'] ++ s.flatMap shownChar ++ ['"'])

end SignalChain.Text
