/-!
# Shortest decimals

A binary floating-point number stands for every real that rounds to it. `Binary.shortest` selects
the decimal with the fewest digits among them, and of those the nearest to the number itself, by
exact integer arithmetic.

Numbers in the messages of `ReelError` and in written configurations and logs have these digits.
-/

namespace Cutscene

/--
The positive number `mantissa * 2 ^ exponent` of a binary format. `narrow` says that the gap to the
number below is half the gap to the number above, which happens at powers of two.
-/
structure Binary where
  mantissa : Nat
  exponent : Int
  narrow : Bool
deriving Repr, DecidableEq

/-- `digits * 10 ^ exponent`, what a shortest decimal is given as. -/
structure Digits where
  digits : Nat
  exponent : Int
deriving Repr, DecidableEq

/-- Which of two equally near decimals is taken. -/
inductive Tie where
  | toEven
  | up
deriving Repr, DecidableEq

namespace Binary

/-- The magnitude of the double with these bits, which must be finite. -/
def ofBits64 (b : UInt64) : Binary :=
  let e := (b >>> 52 &&& 0x7FF).toNat
  let f := (b &&& 0xFFFFFFFFFFFFF).toNat
  if e = 0 then ⟨f, -1074, false⟩ else ⟨0x10000000000000 + f, (e : Int) - 1075, f = 0 && 1 < e⟩

/-- The magnitude of the 32-bit float with these bits, which must be finite. -/
def ofBits32 (b : UInt32) : Binary :=
  let e := (b >>> 23 &&& 0xFF).toNat
  let f := (b &&& 0x7FFFFF).toNat
  if e = 0 then ⟨f, -149, false⟩ else ⟨0x800000 + f, (e : Int) - 150, f = 0 && 1 < e⟩

/-- Compares `a * 10 ^ i` with `n * 2 ^ j` without rounding. -/
def compareScaled (a : Nat) (i : Int) (n : Nat) (j : Int) : Ordering :=
  compare (a * Nat.pow 10 i.toNat * Nat.pow 2 (-j).toNat) (n * Nat.pow 2 j.toNat * Nat.pow 10 (-i).toNat)

/--
Whether a decimal lies among the reals that round to `x`: those between the points halfway to its
two neighbours, which themselves belong to `x` exactly when its mantissa is even.
-/
def covers (x : Binary) (d : Digits) : Bool :=
  let low := if x.narrow then 4 * x.mantissa - 1 else 4 * x.mantissa - 2
  let high := 4 * x.mantissa + 2
  let closed := x.mantissa % 2 = 0
  let atLow := compareScaled d.digits d.exponent low (x.exponent - 2)
  let atHigh := compareScaled d.digits d.exponent high (x.exponent - 2)
  (atLow = .gt ∨ closed ∧ atLow = .eq) ∧ (atHigh = .lt ∨ closed ∧ atHigh = .eq)

/-- The least `k` with `x < 10 ^ k`, for a positive `x`. -/
def scale (x : Binary) : Int :=
  let k := ((Nat.log2 x.mantissa : Int) + x.exponent) * 1233 / 4096 - 1
  let below (k : Int) : Bool := compareScaled 1 k x.mantissa x.exponent = .gt
  if below k then k else if below (k + 1) then k + 1
  else if below (k + 2) then k + 2 else k + 3

/-- The two neighbours of `x` on the grid of multiples of `10 ^ e`, and which is the nearer. -/
def onGrid (tie : Tie) (x : Binary) (e : Int) : Option Digits :=
  let num := x.mantissa * Nat.pow 2 x.exponent.toNat * Nat.pow 10 (-e).toNat
  let den := Nat.pow 2 (-x.exponent).toNat * Nat.pow 10 e.toNat
  let floor : Digits := ⟨num / den, e⟩
  let ceiling : Digits := ⟨num / den + 1, e⟩
  match x.covers floor && floor.digits != 0, x.covers ceiling with
  | true, true =>
    match compare (2 * (num % den)) den, tie with
    | .lt, _ => some floor
    | .gt, _ => some ceiling
    | .eq, .up => some ceiling
    | .eq, .toEven => some (if floor.digits % 2 = 0 then floor else ceiling)
  | true, false => some floor
  | false, true => some ceiling
  | false, false => none

/-- Moves trailing zeros of the digits into the exponent. At most `fuel` of them. -/
def strip : (fuel : Nat) → Digits → Digits
  | 0, d => d
  | fuel + 1, d =>
    if d.digits ≠ 0 ∧ d.digits % 10 = 0 then strip fuel ⟨d.digits / 10, d.exponent + 1⟩ else d

/--
The shortest decimal of a positive number. Grids of one, two, and so on up to seventeen digits are
tried; were none of them to hold a decimal that reads back, the exact value would be given.
-/
def shortest (tie : Tie) (x : Binary) : Digits :=
  let k := x.scale
  let found := (List.range 17).findSome? fun n : Nat => x.onGrid tie (k - (n + 1))
  let exact : Digits :=
    ⟨x.mantissa * Nat.pow 2 x.exponent.toNat * Nat.pow 5 (-x.exponent).toNat, min x.exponent 0⟩
  strip 20 (found.getD exact)

end Binary

end Cutscene
