import Cutscene.Number.Decimal
import Cutscene.Number.Layout

/-!
# The numbers that time is counted in

Clocks, durations and progress are numbers of a type `R` with the operations of `Scalar`. A movie
runs on doubles; on rationals the same definitions are exact arithmetic.

Models the arithmetic of seconds in `DialogueInterpreter.update`, `MoveAction`, `WaitAction`,
`SceneNode.tick`, `Sprite.frame_at` and `Fps`.
-/

namespace Cutscene

/-- Numbers that clocks and durations are made of. -/
class Scalar (R : Type) extends Add R, Sub R, Mul R, Div R, Neg R, LT R, LE R, OfScientific R where
  ofInt : Int → R
  ofDecimal : Decimal → R
  /-- Whether the value is an ordinary number, neither infinite nor undefined. -/
  isFinite : R → Bool
  /-- What is left of the first number after taking the second away as often as it fits. -/
  remainder : R → R → R
  /-- The whole part, cut toward zero and kept within 32 bits. -/
  toInt32 : R → Int32
  /-- The number as it stands in messages. -/
  text : R → String
  ltDecidable : DecidableLT R := by infer_instance
  leDecidable : DecidableLE R := by infer_instance

instance (priority := low) Scalar.instDecidableLT {R : Type} [Scalar R] : DecidableLT R := Scalar.ltDecidable

instance (priority := low) Scalar.instDecidableLE {R : Type} [Scalar R] : DecidableLE R := Scalar.leDecidable

instance (priority := low) Scalar.instOfNat {R : Type} [Scalar R] {n : Nat} : OfNat R n :=
  ⟨Scalar.ofInt n⟩

namespace Scalar

variable {R : Type} [Scalar R]

/-- The nearest number of the unit interval; a value that compares with nothing stays. -/
def clampUnit (t : R) : R := if t < 0 then 0 else if 1 < t then 1 else t

/-- The number, or zero if it is negative or compares with nothing. -/
def clampNonneg (t : R) : R := if 0 < t then t else 0

end Scalar

/-! ## Doubles -/

/--
The remainder of truncated division of finite doubles, `y` not zero. Both are multiples of one
power of two; the remainder of the multiples is taken exactly and fits a double again.
-/
def Scalar.floatRemainder (x y : Float) : Float :=
  if x.isNaN || y.isNaN || x.isInf || y == 0 then 0 / 0
  else if y.isInf then x
  else
    let a := Binary.ofBits64 x.toBits
    let b := Binary.ofBits64 y.toBits
    let e := min a.exponent b.exponent
    let r := a.mantissa * Nat.pow 2 (a.exponent - e).toNat % (b.mantissa * Nat.pow 2 (b.exponent - e).toNat)
    let magnitude := (Float.ofNat r).scaleB e
    if x.toBits >>> 63 = 1 then -magnitude else magnitude

instance : Scalar Float where
  ofInt := Float.ofInt
  ofDecimal := Decimal.toFloat
  isFinite := Float.isFinite
  remainder := Scalar.floatRemainder
  toInt32 := Float.toInt32
  text := Layout.message.text

/-! ## Rationals -/

/-- The integer part, cut toward zero. -/
def Scalar.truncateRat (x : Rat) : Int := x.num.tdiv x.den

instance : Scalar Rat where
  ofInt n := n
  ofDecimal := Decimal.toRat
  isFinite _ := true
  remainder x y := x - y * Scalar.truncateRat (x / y)
  toInt32 x := Int32.ofInt (max (-0x80000000) (min 0x7FFFFFFF (Scalar.truncateRat x)))
  text x := if x.den = 1 then toString x.num else toString x.num ++ "/" ++ toString x.den

end Cutscene
