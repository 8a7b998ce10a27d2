import Cutscene.Picture.Color

/-!
# Palettes

The colors of the style tags. A palette keeps its tags in ascending order and each of them once, so
two palettes with the same colors are equal.

Models the text palette of `DirectorConfig` and `TextBoxBinding` (SPEC_FULL.md, §B.4).
-/

namespace Cutscene

/-- Inserts a color into ascending entries, in place of one that is there. -/
def insertEntry (tag : String) (c : Color) : List (String × Color) → List (String × Color)
  | [] => [(tag, c)]
  | (t, d) :: r =>
    if tag < t then (tag, c) :: (t, d) :: r
    else if t < tag then (t, d) :: insertEntry tag c r
    else (tag, c) :: r

theorem mem_insertEntry {tag : String} {c : Color} {l : List (String × Color)} {e : String × Color}
    (h : e ∈ insertEntry tag c l) : e = (tag, c) ∨ e ∈ l := by
  induction l with
  | nil => simpa [insertEntry] using h
  | cons head r ih => grind [insertEntry]

theorem pairwise_insertEntry {tag : String} {c : Color} {l : List (String × Color)}
    (h : l.Pairwise fun a b => a.1 < b.1) :
    (insertEntry tag c l).Pairwise fun a b => a.1 < b.1 := by
  induction l with
  | nil => simp [insertEntry]
  | cons head r ih =>
    obtain ⟨t, d⟩ := head
    have hr := List.pairwise_cons.1 h
    unfold insertEntry
    split
    · rename_i lt
      refine List.pairwise_cons.2 ⟨fun e he => ?_, h⟩
      rcases List.mem_cons.1 he with rfl | he
      · exact lt
      · exact String.lt_trans lt (hr.1 e he)
    · split
      · rename_i lt
        refine List.pairwise_cons.2 ⟨fun e he => ?_, ih hr.2⟩
        rcases mem_insertEntry he with rfl | he
        · exact lt
        · exact hr.1 e he
      · rename_i not_lt not_gt
        have eq : tag = t := String.le_antisymm (String.not_lt.1 not_gt) (String.not_lt.1 not_lt)
        subst eq
        exact List.pairwise_cons.2 ⟨hr.1, hr.2⟩

/-- Colors by tag, in ascending order of the tags. -/
structure Palette where
  entries : List (String × Color)
  ascending : entries.Pairwise fun a b => a.1 < b.1

namespace Palette

instance : DecidableEq Palette := fun p q =>
  decidable_of_iff (p.entries = q.entries) ⟨fun h => by cases p; cases q; simp_all, fun h => h ▸ rfl⟩

def empty : Palette := ⟨[], .nil⟩

/-- Sets the color of a tag. -/
def insert (p : Palette) (tag : String) (c : Color) : Palette :=
  ⟨insertEntry tag c p.entries, pairwise_insertEntry p.ascending⟩

def ofList (l : List (String × Color)) : Palette :=
  l.foldl (fun p (tag, c) => p.insert tag c) empty

/-- The color of a tag. -/
def find? (p : Palette) (tag : String) : Option Color := p.entries.lookup tag

def toJson (p : Palette) : Json := .record (p.entries.map fun (tag, c) => (tag, c.toJson))

/-- Reads the members of an object; of a tag that stands twice the last color counts. -/
def ofJson? : Json → Option Palette
  | .object members => do
    let members ← Json.named? members
    let entries ← members.mapM fun (tag, v) => (Color.ofJson? v).map (tag, ·)
    some (ofList entries)
  | _ => none

end Palette

end Cutscene
