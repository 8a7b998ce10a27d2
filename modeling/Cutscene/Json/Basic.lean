/-!
# JSON values

`Json` is the tree that a JSON text spells. A number keeps its written form, since what it means
depends on the type it is read as. A string is a text, unless an escape in it names half of a
surrogate pair: such a string has no characters to give and is `none`.

Configurations, pages, offsets and audio logs are written in it (SPEC_FULL.md, §B.4, §B.10 and §B.11).
-/

namespace Cutscene

/-- A JSON value. Objects keep the order and the repetitions of their members. -/
inductive Json where
  | null
  | bool (b : Bool)
  | number (token : String)
  | string (s : Option String)
  | array (items : List Json)
  | object (members : List (Option String × Json))
deriving Repr, Inhabited, BEq

namespace Json

/-- A string that is a text. -/
def text (s : String) : Json := .string (some s)

/-- A whole number. -/
def int (n : Int) : Json := .number (toString n)

/-- An object from its members. -/
def record (fields : List (String × Json)) : Json := .object (fields.map fun (k, v) => (some k, v))

/-- A value, or `null` if there is none. -/
def optional {α : Type} (write : α → Json) : Option α → Json
  | none => .null
  | some a => write a

end Json

end Cutscene
