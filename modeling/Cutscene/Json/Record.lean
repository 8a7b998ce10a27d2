import Cutscene.Json.Basic

/-!
# Reading records

A record is written as an object that names its fields, in any order, or as an array of their
values in the order of declaration. `Json.record?` finds the values; the type that is being read
then asks for each of them by name.

`DirectorConfig` refuses fields that it does not have, and so does `StageConfig` (SPEC_FULL.md, §B.4);
other records pass over them.
-/

namespace Cutscene.Json

/-- The values found for the fields of a record. -/
structure Fields where
  values : List (String × Json)

/-- What becomes of a member that is no field. -/
inductive Unknown where
  | ignored
  | refused
deriving DecidableEq

/-- The members of an object whose keys all are texts. -/
def named? : List (Option String × Json) → Option (List (String × Json))
  | [] => some []
  | (none, _) :: _ => none
  | (some k, v) :: r => (named? r).map ((k, v) :: ·)

/--
The fields of a record. An object may not give a field twice; an array may not be longer than the
list of fields.
-/
def record? (names : List String) (unknown : Unknown) : Json → Option Fields
  | .object members => do
    let members ← named? members
    let known := members.filter fun (k, _) => names.contains k
    if unknown = .refused ∧ known.length ≠ members.length then none
    else if (known.map Prod.fst).Nodup then some ⟨known⟩
    else none
  | .array items => if items.length ≤ names.length then some ⟨names.zip items⟩ else none
  | _ => none

namespace Fields

variable {α : Type}

/-- A field that must be there. -/
def required? (fs : Fields) (name : String) (read : Json → Option α) : Option α :=
  (fs.values.lookup name).bind read

/-- A field that has a default. -/
def orElse? (fs : Fields) (name : String) (default : α) (read : Json → Option α) : Option α :=
  match fs.values.lookup name with
  | none => some default
  | some v => read v

end Fields

/-- A text. -/
def text? : Json → Option String
  | .string s => s
  | _ => none

/-- A list of values. -/
def list? {α : Type} (read : Json → Option α) : Json → Option (List α)
  | .array items => items.mapM read
  | _ => none

/-- A value or `null`. -/
def nullable? {α : Type} (read : Json → Option α) : Json → Option (Option α)
  | .null => some none
  | v => (read v).map some

/-- The name of a plain choice, written alone or as the only key of an object that holds `null`. -/
def choice? : Json → Option String
  | .string s => s
  | .object [(some k, .null)] => some k
  | _ => none

end Cutscene.Json
