import Cutscene.Error
import Cutscene.Number.Scalar

/-!
# Durations and rates

Every duration and rate that the user gives must be an ordinary number above zero.

Models `ensure_positive` (SPEC_FULL.md, §7).
-/

namespace Cutscene

/-- Refuses a value that is not finite or not above zero. `what` is its name in the message. -/
def ensurePositive {R : Type} [Scalar R] (what : String) (v : R) : Except Error Unit :=
  if Scalar.isFinite v ∧ 0 < v then .ok () else .error (.notPositive what (Scalar.text v))

end Cutscene
