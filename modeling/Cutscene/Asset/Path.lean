import Cutscene.Disk.Basic

/-!
# Asset paths

Assets are named by paths relative to one root directory. `assetPath?` brings a path into its normal
form and refuses every path that could lead outside the root.

Models `normalize_rel_path`, by which `AssetStore` names what it loads (SPEC_FULL.md, §B.8).
-/

namespace Cutscene

/-- A path with slashes in place of backslashes. -/
def forwardSlashes (cs : List Char) : List Char := cs.map fun c => if c = '\\' then '/' else c

/--
The normal form of a path: its segments without empty ones and dots, joined by single slashes.
Refused are paths that start at the top, that go up, and that name nothing.
-/
def assetPath? (source : String) : Except Error String :=
  let cs := forwardSlashes source.toList
  if cs.head? = some '/' then .error (.badPath .absolute)
  else if cs = [] then .error (.badPath .empty)
  else
    let segments := slashSegments cs
    if segments.contains ['.', '.'] then .error (.badPath .parentSegment)
    else
      let kept := segments.filter fun s => s ≠ [] ∧ s ≠ ['.']
      if kept = [] then .error (.badPath .noFileName)
      else .ok ("/".intercalate (kept.map String.ofList))

end Cutscene
