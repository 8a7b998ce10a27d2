import Cutscene.Json.Basic

/-!
# Writing JSON

`Json.compact` writes a value without any blanks, `Json.pretty` with each item and member on a line
of its own, indented by two spaces a level.

`AudioLog.to_json_string` and `AudioLog.write_json` write their text so (SPEC_FULL.md, §B.11).
-/

namespace Cutscene.Json

/-- The lower-case hexadecimal digit of a number below sixteen. -/
def hexDigit (n : Nat) : Char := if n < 10 then Char.ofNat (48 + n) else Char.ofNat (87 + n)

/--
How a character stands inside a string. Quote, backslash and the control characters are escaped,
those with a short form by it; everything else stands for itself.
-/
def escape (c : Char) : List Char :=
  if c = '"' then ['\\', '"']
  else if c = '\\' then ['\\', '\\']
  else if c = '\x08' then ['\\', 'b']
  else if c = '\x0c' then ['\\', 'f']
  else if c = '\n' then ['\\', 'n']
  else if c = '\r' then ['\\', 'r']
  else if c = '\t' then ['\\', 't']
  else if c.toNat < 32 then ['\\', 'u', '0', '0', hexDigit (c.toNat / 16), hexDigit (c.toNat % 16)]
  else [c]

/-- A text between quotes. -/
def quote (s : String) : String := "\"" ++ String.ofList (s.toList.flatMap escape) ++ "\""

/-- A string. One that is no text is written as half of a surrogate pair. -/
def quote? : Option String → String
  | some s => quote s
  | none => "\"\\ud800\""

mutual

/-- A value without blanks. -/
def compact : Json → String
  | null => "null"
  | bool true => "true"
  | bool false => "false"
  | number token => token
  | string s => quote? s
  | array items => "[" ++ compactItems items ++ "]"
  | object members => "\x7b" ++ compactMembers members ++ "\x7d"

/-- Items separated by commas. -/
def compactItems : List Json → String
  | [] => ""
  | [v] => compact v
  | v :: w :: r => compact v ++ "," ++ compactItems (w :: r)

/-- Members separated by commas. -/
def compactMembers : List (Option String × Json) → String
  | [] => ""
  | [(k, v)] => quote? k ++ ":" ++ compact v
  | (k, v) :: m :: r => quote? k ++ ":" ++ compact v ++ "," ++ compactMembers (m :: r)

end

/-- A new line at a depth. -/
def newline (depth : Nat) : String := "\n" ++ String.ofList (List.replicate (2 * depth) ' ')

mutual

/-- A value whose first line is already indented to the depth. -/
def prettyAt (depth : Nat) : Json → String
  | null => "null"
  | bool true => "true"
  | bool false => "false"
  | number token => token
  | string s => quote? s
  | array [] => "[]"
  | array (v :: r) => "[" ++ prettyItems (depth + 1) (v :: r) ++ newline depth ++ "]"
  | object [] => "\x7b\x7d"
  | object (m :: r) => "\x7b" ++ prettyMembers (depth + 1) (m :: r) ++ newline depth ++ "\x7d"

/-- Items, each on a line of its own. -/
def prettyItems (depth : Nat) : List Json → String
  | [] => ""
  | [v] => newline depth ++ prettyAt depth v
  | v :: w :: r => newline depth ++ prettyAt depth v ++ "," ++ prettyItems depth (w :: r)

/-- Members, each on a line of its own. -/
def prettyMembers (depth : Nat) : List (Option String × Json) → String
  | [] => ""
  | [(k, v)] => newline depth ++ quote? k ++ ": " ++ prettyAt depth v
  | (k, v) :: m :: r =>
    newline depth ++ quote? k ++ ": " ++ prettyAt depth v ++ "," ++ prettyMembers depth (m :: r)

end

/-- A value laid out over lines. -/
def pretty (j : Json) : String := prettyAt 0 j

end Cutscene.Json
