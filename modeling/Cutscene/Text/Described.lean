import Cutscene.Text.Undrawn

/-!
# Texts in descriptions

How a text stands in the description of a state: between quotes, on one line, with every character
that could not be seen replaced by an escape.

Texts stand so in the debug output of `Director` and `FfmpegSink`.
-/

namespace Cutscene

/-- A number in lower-case hexadecimal digits. -/
def hexText (n : Nat) : String := String.ofList (Nat.toDigits 16 n)

/-- How a character stands inside the quotes. -/
def describeChar (c : Char) : String :=
  if c = '\x00' then "\\0"
  else if c = '\t' then "\\t"
  else if c = '\r' then "\\r"
  else if c = '\n' then "\\n"
  else if c = '"' then "\\\""
  else if c = '\\' then "\\\\"
  else if isUndrawn c then "\\u\x7b" ++ hexText c.toNat ++ "\x7d"
  else c.toString

/-- A text between quotes. -/
def describeText (s : String) : String := "\"" ++ String.join (s.toList.map describeChar) ++ "\""

/-- A value that may be missing. -/
def describeOption {α : Type} (describe : α → String) : Option α → String
  | none => "None"
  | some a => "Some(" ++ describe a ++ ")"

/-- A value by the name of its kind and some of its fields, with a hint that there are more. -/
def describeOpen (kind : String) (fields : List (String × String)) : String :=
  kind ++ " \x7b " ++ String.join (fields.map fun (k, v) => k ++ ": " ++ v ++ ", ") ++ ".. \x7d"

/-- A value by the name of its kind and all its fields. -/
def describeClosed (kind : String) (fields : List (String × String)) : String :=
  kind ++ " \x7b " ++ ", ".intercalate (fields.map fun (k, v) => k ++ ": " ++ v) ++ " \x7d"

/-- Bytes in brackets. -/
def describeBytes (bs : List UInt8) : String :=
  "[" ++ ", ".intercalate (bs.map fun b => toString b.toNat) ++ "]"

end Cutscene
