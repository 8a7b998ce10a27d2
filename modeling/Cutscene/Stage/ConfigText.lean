import Cutscene.Json.Parser
import Cutscene.Json.Printer
import Cutscene.Stage.Config

/-!
# Written configurations

A configuration as a JSON text.

Models `DirectorConfig.from_json_str` (SPEC_FULL.md, §B.4).
-/

namespace Cutscene.Config

/-- Reads a configuration and checks its values. -/
def ofText (s : String) : Except Error (Config Float) :=
  match (Json.ofText? s).bind ofJson? with
  | none => .error .json
  | some c => do
    c.validate
    .ok c

/-- Writes a configuration with all its fields. -/
def text (c : Config Float) : String := c.toJson.compact

end Cutscene.Config
