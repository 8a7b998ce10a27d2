import Cutscene.Json.Basic

/-!
# Reading JSON

`Json.ofText?` reads a text as one JSON value with nothing but blanks around it. The readers below
it take a value off the front of a list of characters and give back the rest.

`DirectorConfig.from_json_str` reads its text so (SPEC_FULL.md, §B.4).
-/

namespace Cutscene.Json

/-- The four characters that may stand between tokens. -/
def isBlank (c : Char) : Bool := c = ' ' || c = '\n' || c = '\t' || c = '\r'

def skipBlanks (cs : List Char) : List Char := cs.dropWhile isBlank

/-! ## Numbers -/

/-- Takes one or more digits. -/
def digits? (cs : List Char) : Option (List Char × List Char) :=
  let ds := cs.takeWhile Char.isDigit
  if ds = [] then none else some (ds, cs.dropWhile Char.isDigit)

/-- Takes the whole part: digits that start with zero only if zero is the only one. -/
def whole? : List Char → Option (List Char × List Char)
  | '0' :: r => if r.head?.any Char.isDigit then none else some (['0'], r)
  | cs => digits? cs

/-- Takes a point and digits, if a point comes next. -/
def fraction? : List Char → Option (List Char × List Char)
  | '.' :: r => (digits? r).map fun (ds, r) => ('.' :: ds, r)
  | cs => some ([], cs)

/-- Takes an exponent, if one comes next. -/
def exponent? : List Char → Option (List Char × List Char)
  | [] => some ([], [])
  | c :: r =>
    if c = 'e' ∨ c = 'E' then
      match r with
      | '+' :: r => (digits? r).map fun (ds, r) => (c :: '+' :: ds, r)
      | '-' :: r => (digits? r).map fun (ds, r) => (c :: '-' :: ds, r)
      | r => (digits? r).map fun (ds, r) => (c :: ds, r)
    else some ([], c :: r)

/-- Takes a number without its sign. -/
def magnitude? (cs : List Char) : Option (List Char × List Char) := do
  let (w, cs) ← whole? cs
  let (f, cs) ← fraction? cs
  let (e, cs) ← exponent? cs
  some (w ++ f ++ e, cs)

/-- Takes a number. -/
def number? : List Char → Option (List Char × List Char)
  | '-' :: r => (magnitude? r).map fun (t, r) => ('-' :: t, r)
  | cs => magnitude? cs

/-! ## Strings -/

/-- The value of a hexadecimal digit of either case. -/
def hexValue? (c : Char) : Option Nat :=
  if '0' ≤ c ∧ c ≤ '9' then some (c.toNat - 48)
  else if 'a' ≤ c ∧ c ≤ 'f' then some (c.toNat - 87)
  else if 'A' ≤ c ∧ c ≤ 'F' then some (c.toNat - 55)
  else none

/-- The number that four hexadecimal digits spell. -/
def hexValue4? (a b c d : Char) : Option Nat := do
  let a ← hexValue? a
  let b ← hexValue? b
  let c ← hexValue? c
  let d ← hexValue? d
  some (((a * 16 + b) * 16 + c) * 16 + d)

/-- The character that a one-letter escape stands for. -/
def unescape? (c : Char) : Option Char :=
  if c = '"' then some '"'
  else if c = '\\' then some '\\'
  else if c = '/' then some '/'
  else if c = 'b' then some '\x08'
  else if c = 'f' then some '\x0c'
  else if c = 'n' then some '\n'
  else if c = 'r' then some '\r'
  else if c = 't' then some '\t'
  else none

/-- What a string is made of: characters, and halves of surrogate pairs named by an escape. -/
inductive Unit16 where
  | char (c : Char)
  | high (n : Nat)
  | low (n : Nat)

/-- What a number of 16 bits named by an escape is. -/
def Unit16.ofNat (n : Nat) : Unit16 :=
  if 0xD800 ≤ n ∧ n < 0xDC00 then .high n
  else if 0xDC00 ≤ n ∧ n < 0xE000 then .low n
  else .char (Char.ofNat n)

/-- Takes the inside of a string up to its closing quote. -/
def units? : List Char → Option (List Unit16 × List Char)
  | [] => none
  | '"' :: r => some ([], r)
  | '\\' :: 'u' :: a :: b :: c :: d :: r => do
    let n ← hexValue4? a b c d
    let (us, r) ← units? r
    some (.ofNat n :: us, r)
  | '\\' :: c :: r => do
    let c ← unescape? c
    let (us, r) ← units? r
    some (.char c :: us, r)
  | c :: r =>
    if c.toNat < 32 then none
    else (units? r).map fun (us, r) => (.char c :: us, r)

/-- The characters of a string. An escaped high half must be followed by an escaped low half. -/
def chars? : List Unit16 → Option (List Char)
  | [] => some []
  | .char c :: r => (chars? r).map (c :: ·)
  | .high h :: .low l :: r =>
    (chars? r).map (Char.ofNat (0x10000 + (h - 0xD800) * 0x400 + (l - 0xDC00)) :: ·)
  | .high _ :: _ => none
  | .low _ :: _ => none

/-- Takes a string whose opening quote has been taken. -/
def string? (cs : List Char) : Option (Option String × List Char) :=
  (units? cs).map fun (us, r) => ((chars? us).map String.ofList, r)

/-! ## Values -/

/-- Takes a word that must come next. -/
def literal? : List Char → List Char → Option (List Char)
  | [], cs => some cs
  | _ :: _, [] => none
  | k :: ks, c :: cs => if k = c then literal? ks cs else none

mutual

/-- Takes a value that starts right here. `fuel` bounds the number of tokens. -/
def value? : (fuel : Nat) → List Char → Option (Json × List Char)
  | 0, _ => none
  | fuel + 1, cs =>
    match cs with
    | [] => none
    | 'n' :: r => (literal? ['u', 'l', 'l'] r).map fun r => (.null, r)
    | 't' :: r => (literal? ['r', 'u', 'e'] r).map fun r => (.bool true, r)
    | 'f' :: r => (literal? ['a', 'l', 's', 'e'] r).map fun r => (.bool false, r)
    | '"' :: r => (string? r).map fun (s, r) => (.string s, r)
    | '[' :: r =>
      match skipBlanks r with
      | ']' :: r => some (.array [], r)
      | r => (items? fuel r).map fun (vs, r) => (.array vs, r)
    | '{' :: r =>
      match skipBlanks r with
      | '}' :: r => some (.object [], r)
      | r => (members? fuel r).map fun (ms, r) => (.object ms, r)
    | cs => (number? cs).map fun (t, r) => (.number (String.ofList t), r)

/-- Takes one or more items and the closing bracket. -/
def items? : (fuel : Nat) → List Char → Option (List Json × List Char)
  | 0, _ => none
  | fuel + 1, cs => do
    let (v, r) ← value? fuel (skipBlanks cs)
    match skipBlanks r with
    | ',' :: r => (items? fuel r).map fun (vs, r) => (v :: vs, r)
    | ']' :: r => some ([v], r)
    | _ => none

/-- Takes one or more members and the closing brace. -/
def members? : (fuel : Nat) → List Char → Option (List (Option String × Json) × List Char)
  | 0, _ => none
  | fuel + 1, cs =>
    match skipBlanks cs with
    | '"' :: r => do
      let (k, r) ← string? r
      match skipBlanks r with
      | ':' :: r => do
        let (v, r) ← value? fuel (skipBlanks r)
        match skipBlanks r with
        | ',' :: r => (members? fuel r).map fun (ms, r) => ((k, v) :: ms, r)
        | '}' :: r => some ([(k, v)], r)
        | _ => none
      | _ => none
    | _ => none

end

/-- The value that a text spells, if it spells one. -/
def ofText? (s : String) : Option Json := do
  let cs := skipBlanks s.toList
  let (v, r) ← value? (2 * cs.length + 1) cs
  if skipBlanks r = [] then some v else none

end Cutscene.Json
