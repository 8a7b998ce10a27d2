import Cutscene.Json.Basic
import Cutscene.Number.Decimal
import Cutscene.Number.Layout

/-!
# Numbers in JSON

A number of a JSON text is read as the type that is asked for. Whole numbers are exact. A number
with a point or an exponent is read through a significand of 64 bits, one rounding on the way in
and one for each scaling by a power of ten, so that a number of many digits may come out a unit off
the nearest double.

The numbers of `DirectorConfig`, `StageConfig` and the other written types are read by it.
-/

namespace Cutscene.Json

/-- The digits, if there is nothing else. -/
def allDigits? (cs : List Char) : Option Nat :=
  if cs ≠ [] ∧ cs.all Char.isDigit then some (Decimal.value cs) else none

/-- A whole number in written form. A zero with a minus sign is no whole number. -/
def wholeToken? (token : String) : Option Int :=
  match token.toList with
  | '-' :: ds => (allDigits? ds).bind fun n => if n = 0 then none else some (-n)
  | ds => (allDigits? ds).map Int.ofNat

/-- A whole number between two bounds, both included. -/
def between? (low high : Int) : Json → Option Int
  | .number token => (wholeToken? token).filter fun n => low ≤ n ∧ n ≤ high
  | _ => none

def nat8? (j : Json) : Option UInt8 := (between? 0 0xFF j).map fun n => n.toNat.toUInt8

def nat32? (j : Json) : Option UInt32 := (between? 0 0xFFFFFFFF j).map fun n => n.toNat.toUInt32

def nat64? (j : Json) : Option UInt64 := (between? 0 0xFFFFFFFFFFFFFFFF j).map fun n => n.toNat.toUInt64

def int32? (j : Json) : Option Int32 := (between? (-0x80000000) 0x7FFFFFFF j).map Int32.ofInt

/-! ## Fractional numbers -/

/-- The written parts of a number. -/
structure Numeral where
  negative : Bool
  whole : List Char
  fraction : List Char
  exponent : Int
  /-- Whether there is neither a point nor an exponent. -/
  isWhole : Bool

/-- The parts of a number that follows the grammar. -/
def Numeral.ofToken (token : String) : Numeral :=
  let (minus, body) := Decimal.sign token.toList
  let whole := body.takeWhile Char.isDigit
  match body.dropWhile Char.isDigit with
  | [] => ⟨minus, whole, [], 0, true⟩
  | '.' :: r =>
    let rest := r.dropWhile Char.isDigit
    ⟨minus, whole, r.takeWhile Char.isDigit, (Decimal.exponent? rest).getD 0, false⟩
  | rest => ⟨minus, whole, [], (Decimal.exponent? rest).getD 0, false⟩

/-- Appends digits to a significand as long as it stays within 64 bits; gives what is left over. -/
def significand (n : Nat) : List Char → Nat × List Char
  | [] => (n, [])
  | c :: r =>
    let n' := 10 * n + (c.toNat - '0'.toNat)
    if n' < UInt64.size then significand n' r else (n, c :: r)

/--
Scales by a power of ten. Powers beyond `10 ^ 308` are taken in steps; a result beyond every double
is refused. Three steps bring every significand to zero.
-/
def scale? : (fuel : Nat) → Float → Int → Option Float
  | 0, _, _ => some 0
  | fuel + 1, x, e =>
    if e.natAbs ≤ 308 then
      if 0 ≤ e then
        let y := x * Float.ofScientific 1 false e.toNat
        if y.isInf then none else some y
      else some (x / Float.ofScientific 1 false e.natAbs)
    else if x == 0 then some x
    else if 0 ≤ e then none
    else scale? fuel (x / 1e308) (e + 308)

/-- The magnitude of a number. -/
def Numeral.magnitude? (n : Numeral) : Option Float :=
  let (s, dropped) := significand 0 n.whole
  if n.isWhole ∧ dropped = [] then some s.toUInt64.toFloat
  else
    let (s', unread) := significand s n.fraction
    let places := n.fraction.length - unread.length
    scale? 4 s'.toUInt64.toFloat (dropped.length - places + n.exponent)

/-- A number as a double. -/
def float? : Json → Option Float
  | .number token =>
    let n := Numeral.ofToken token
    n.magnitude?.map fun x => if n.negative then -x else x
  | _ => none

/-- A number as a 32-bit float: whole numbers are rounded once, others after a double. -/
def float32? (j : Json) : Option Float32 :=
  match between? (-0x8000000000000000) 0xFFFFFFFFFFFFFFFF j with
  | some n =>
    let x := n.natAbs.toUInt64.toFloat32
    some (if n < 0 then -x else x)
  | none => (float? j).map Float.toFloat32

/-- A double as a JSON value; what is no number is `null`. -/
def float (x : Float) : Json := if x.isFinite then .number (Layout.json.text x) else .null

/-- A 32-bit float as a JSON value. -/
def float32 (x : Float32) : Json := if x.isFinite then .number (Layout.json32.text32 x) else .null

end Cutscene.Json
