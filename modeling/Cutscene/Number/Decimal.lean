/-!
# Decimal numbers

A number as a person writes it: a sign, digits and a power of ten. `Decimal.ofText?` reads the
written form and `Decimal.toFloat` rounds it to the nearest double, ties to even.

`Directive.parse` reads the seconds of its arguments so (SPEC_FULL.md, §B.10).
-/

namespace Cutscene

/-- The number `± digits * 10 ^ exponent`. -/
structure Decimal where
  negative : Bool
  digits : Nat
  exponent : Int
deriving Repr, DecidableEq

namespace Decimal

/-- The number that a run of decimal digits spells. -/
def value (cs : List Char) : Nat :=
  cs.foldl (fun n c => 10 * n + (c.toNat - '0'.toNat)) 0

/-- Splits off a leading sign; `true` is minus. -/
def sign : List Char → Bool × List Char
  | '-' :: r => (true, r)
  | '+' :: r => (false, r)
  | r => (false, r)

/-- The exponent part of a written number: nothing, or `e`, a sign if any, and digits. -/
def exponent? : List Char → Option Int
  | [] => some 0
  | c :: r =>
    if c = 'e' ∨ c = 'E' then
      let (minus, ds) := sign r
      if ds ≠ [] ∧ ds.all Char.isDigit then
        some (if minus then -(value ds : Int) else value ds)
      else none
    else none

/--
Reads a written number: a sign if any, digits with at most one point among or around them, and an
exponent if any. There is at least one digit before the exponent; nothing else is allowed, blanks
included.
-/
def ofText? (s : String) : Option Decimal :=
  let (minus, body) := sign s.toList
  let whole := body.takeWhile Char.isDigit
  let rest := body.dropWhile Char.isDigit
  let (fraction, rest) := match rest with
    | '.' :: r => (r.takeWhile Char.isDigit, r.dropWhile Char.isDigit)
    | r => ([], r)
  if whole ++ fraction = [] then none
  else (exponent? rest).map fun e => ⟨minus, value (whole ++ fraction), e - fraction.length⟩

/--
The double nearest to the number. Numbers beyond every double are infinite and those below half
the least one are zero, which is settled first so that no huge power of ten is ever formed.
-/
def toFloat (d : Decimal) : Float :=
  let magnitude : Float :=
    if d.digits = 0 then 0
    else
      let lead : Int := (Nat.log2 d.digits : Int) * 30103 / 100000 + d.exponent
      if 400 < lead then 1 / 0
      else if lead < -400 then 0
      else if 0 ≤ d.exponent then Float.ofScientific d.digits false d.exponent.toNat
      else Float.ofScientific d.digits true (-d.exponent).toNat
  if d.negative then -magnitude else magnitude

/-- The exact number. -/
def toRat (d : Decimal) : Rat :=
  let digits : Int := if d.negative then -d.digits else d.digits
  mkRat (digits * Nat.pow 10 d.exponent.toNat) (Nat.pow 10 (-d.exponent).toNat)

end Decimal

end Cutscene
