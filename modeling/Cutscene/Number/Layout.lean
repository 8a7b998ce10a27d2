import Cutscene.Number.Shortest

/-!
# How numbers are written

A `Layout` is one way of writing binary floating-point numbers in decimal: where positional
notation ends, what an exponent looks like, what stands for values that are no numbers. The four
layouts of the library are at the end.

Messages of `ReelError`, descriptions, `AudioLog.to_json_string` and written configurations have a layout
each.
-/

namespace Cutscene

/-- One way of writing numbers. -/
structure Layout where
  /-- Numbers whose leading digit counts at least `10 ^ plainFrom` may be positional. -/
  plainFrom : Option Int
  /-- Numbers below `10 ^ plainBelow` may be positional. -/
  plainBelow : Option Int
  /-- A positional whole number ends in `.0`. -/
  pointZero : Bool
  /-- An exponent that is not negative carries a plus sign. -/
  exponentPlus : Bool
  /-- Which of two equally near shortest decimals is taken. -/
  tie : Tie
  /-- What is written for a value that is no number. -/
  nan : String
  /-- What is written for positive infinity. -/
  infinity : String
  /-- What is written for negative infinity. -/
  negativeInfinity : String

namespace Layout

/-- Zeros for padding. -/
def zeros (n : Nat) : String := String.ofList (List.replicate n '0')

/-- The digits with the point placed by their exponent. -/
def positional (l : Layout) (d : Digits) : String :=
  let ds := Nat.repr d.digits
  let whole := (ds.length : Int) + d.exponent
  if 0 ≤ d.exponent then
    ds ++ zeros d.exponent.toNat ++ if l.pointZero then ".0" else ""
  else if 0 < whole then
    String.ofList (ds.toList.take whole.toNat) ++ "." ++ String.ofList (ds.toList.drop whole.toNat)
  else "0." ++ zeros (-whole).toNat ++ ds

/-- One digit, the others behind a point, and the exponent of the first. -/
def scientific (l : Layout) (d : Digits) : String :=
  let ds := Nat.repr d.digits
  let lead := (ds.length : Int) - 1 + d.exponent
  let fraction := String.ofList (ds.toList.drop 1)
  String.ofList (ds.toList.take 1) ++ (if fraction = "" then "" else "." ++ fraction) ++ "e" ++
    (if lead < 0 then "-" else if l.exponentPlus then "+" else "") ++ Nat.repr lead.natAbs

/-- Zero without its sign. -/
def zero (l : Layout) : String := if l.pointZero then "0.0" else "0"

/-- A decimal without its sign. -/
def digits (l : Layout) (d : Digits) : String :=
  let lead := ((Nat.repr d.digits).length : Int) - 1 + d.exponent
  if l.plainFrom.all (· ≤ lead) ∧ l.plainBelow.all (lead < ·) then l.positional d
  else l.scientific d

/-- A number by its sign and magnitude. -/
def signed (l : Layout) (negative : Bool) (x : Binary) : String :=
  (if negative then "-" else "") ++
    if x.mantissa = 0 then l.zero else l.digits (x.shortest l.tie)

/-- A double. -/
def text (l : Layout) (x : Float) : String :=
  if x.isNaN then l.nan
  else if x.isInf then (if 0 < x then l.infinity else l.negativeInfinity)
  else l.signed (x.toBits >>> 63 = 1) (.ofBits64 x.toBits)

/-- A 32-bit float, by the digits that identify it among 32-bit floats. -/
def text32 (l : Layout) (x : Float32) : String :=
  if x.isNaN then l.nan
  else if x.isInf then (if 0 < x then l.infinity else l.negativeInfinity)
  else l.signed (x.toBits >>> 31 = 1) (.ofBits32 x.toBits)

/-- Numbers in messages: never an exponent, whole numbers without a point. -/
def message : Layout where
  plainFrom := none
  plainBelow := none
  pointZero := false
  exponentPlus := false
  tie := .up
  nan := "NaN"
  infinity := "inf"
  negativeInfinity := "-inf"

/-- Numbers in descriptions of a state: always recognisable as fractional numbers. -/
def description : Layout where
  plainFrom := some (-4)
  plainBelow := some 16
  pointZero := true
  exponentPlus := false
  tie := .up
  nan := "NaN"
  infinity := "inf"
  negativeInfinity := "-inf"

/-- Doubles in JSON, which has no text for values that are no numbers. -/
def json : Layout where
  plainFrom := some (-5)
  plainBelow := some 16
  pointZero := true
  exponentPlus := true
  tie := .toEven
  nan := "null"
  infinity := "null"
  negativeInfinity := "null"

/-- 32-bit floats in JSON. -/
def json32 : Layout := { json with plainFrom := some (-6), plainBelow := some 13 }

end Layout

end Cutscene
