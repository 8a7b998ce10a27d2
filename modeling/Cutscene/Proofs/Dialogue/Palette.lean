import Mathlib.Data.List.Induction
import Mathlib.Data.List.Perm.Subperm
import Mathlib.Data.List.Sort
import Cutscene.Dialogue.Palette
import Cutscene.Proofs.Json.Numeral
import Cutscene.Proofs.Json.Record

/-!
# Written palettes

A palette is read back from its JSON in whatever order its tags are written.

Results:
* `Palette.ofList_of_perm`: the colors of a palette in any order make the palette.
* `Color.reads`, `Palette.reads`: colors and palettes are read as they were written.
-/

namespace Cutscene

open Json

theorem Color.reads (c : Color) : Reads Color.ofJson? c.toJson c := by
  intro j hj
  obtain ⟨fs, hfs, hholds⟩ := hj.record? (by decide) (.refl ["r", "g", "b", "a"]) .ignored
  have hr : fs.required? "r" nat8? = some c.r := hholds.required? (by simp) (reads_flat rfl (nat8?_int _))
  have hg : fs.required? "g" nat8? = some c.g := hholds.required? (by simp) (reads_flat rfl (nat8?_int _))
  have hb : fs.required? "b" nat8? = some c.b := hholds.required? (by simp) (reads_flat rfl (nat8?_int _))
  have ha : fs.required? "a" nat8? = some c.a := hholds.required? (by simp) (reads_flat rfl (nat8?_int _))
  simp [ofJson?, hfs, hr, hg, hb, ha]

theorem perm_insertEntry {tag : String} {c : Color} {l : List (String × Color)} (h : tag ∉ l.map Prod.fst) :
    (insertEntry tag c l).Perm ((tag, c) :: l) := by
  induction l with
  | nil => exact .refl _
  | cons head r ih =>
    obtain ⟨t, d⟩ := head
    rw [List.map_cons, List.mem_cons, not_or] at h
    unfold insertEntry
    split_ifs with hlt hgt
    · exact .refl _
    · exact ((ih h.2).cons _).trans (.swap _ _ _)
    · exact absurd (String.le_antisymm (String.not_lt.mp hgt) (String.not_lt.mp hlt)) h.1

namespace Palette

theorem ofList_append (l : List (String × Color)) (e : String × Color) :
    ofList (l ++ [e]) = (ofList l).insert e.1 e.2 := by
  unfold ofList
  rw [List.foldl_append]
  rfl

/-- Colors of different tags are kept all. -/
theorem perm_ofList {l : List (String × Color)} (h : (l.map Prod.fst).Nodup) : (ofList l).entries.Perm l := by
  induction l using List.reverseRecOn with
  | nil => exact .refl _
  | append_singleton l e ih =>
    rw [List.map_append, List.nodup_append] at h
    obtain ⟨hbefore, -, hnew⟩ := h
    have hperm := ih hbefore
    have hfresh : e.1 ∉ (ofList l).entries.map Prod.fst := fun hmem =>
      hnew e.1 ((hperm.map Prod.fst).mem_iff.mp hmem) e.1 List.mem_cons_self rfl
    rw [ofList_append]
    exact (perm_insertEntry hfresh).trans ((hperm.cons e).trans (List.perm_append_singleton e l).symm)

theorem nodup_tags (p : Palette) : (p.entries.map Prod.fst).Nodup :=
  List.pairwise_map.mpr (p.ascending.imp fun h => String.ne_of_lt h)

theorem eq_of_entries {p q : Palette} (h : p.entries = q.entries) : p = q := by
  cases p
  cases q
  cases h
  rfl

/-- The colors of a palette make it, whatever their order. -/
theorem ofList_of_perm {p : Palette} {l : List (String × Color)} (h : l.Perm p.entries) : ofList l = p := by
  have htags := (h.map Prod.fst).nodup_iff.mpr p.nodup_tags
  have hantisymm : Std.Antisymm fun a b : String × Color => a.1 < b.1 :=
    ⟨fun _ _ hab hba => absurd hab (String.lt_asymm hba)⟩
  exact eq_of_entries (((perm_ofList htags).trans h).eq_of_pairwise' (ofList l).ascending p.ascending)

/-- Written colors that all are read as those of a palette. -/
theorem mapM_colors {p : Palette} {fields : List (String × Json)}
    (h : ∀ name v, (name, v) ∈ fields → ∃ c, Color.ofJson? v = some c ∧ (name, c) ∈ p.entries) :
    ∃ l, fields.mapM (fun (tag, v) => (Color.ofJson? v).map (tag, ·)) = some l ∧
      l.map Prod.fst = fields.map Prod.fst ∧ ∀ e ∈ l, e ∈ p.entries := by
  induction fields with
  | nil => exact ⟨[], rfl, rfl, fun _ he => absurd he List.not_mem_nil⟩
  | cons f r ih =>
    obtain ⟨l, hl, htags, hentries⟩ := ih fun name v hv => h name v (List.mem_cons_of_mem _ hv)
    obtain ⟨c, hc, hmem⟩ := h f.1 f.2 List.mem_cons_self
    refine ⟨(f.1, c) :: l, ?_, ?_, ?_⟩
    · rw [List.mapM_cons, hl]
      simp [hc]
    · rw [List.map_cons, List.map_cons, htags]
    · intro e he
      rcases List.mem_cons.mp he with rfl | he
      · exact hmem
      · exact hentries e he

theorem reads (p : Palette) : Reads Palette.ofJson? p.toJson p := by
  intro j hj
  obtain ⟨fields, rfl, hsame⟩ := hj.sameFields
  have htags : (fields.map Prod.fst).Perm (p.entries.map Prod.fst) := by
    have hnames := hsame.names
    rwa [List.map_map] at hnames
  have hcolors : ∀ name v, (name, v) ∈ fields → ∃ c, Color.ofJson? v = some c ∧ (name, c) ∈ p.entries := by
    intro name v hv
    obtain ⟨w, hw, hr⟩ := hsame.back name v hv
    obtain ⟨e, he, heq⟩ := List.mem_map.mp hw
    cases heq
    exact ⟨e.2, e.2.reads v hr, he⟩
  obtain ⟨l, hl, hkeys, hentries⟩ := mapM_colors hcolors
  -- The entries that are read are different ones of the palette, and as many as it has.
  have hperm : l.Perm p.entries := by
    rw [← hkeys] at htags
    have hnodup : l.Nodup := .of_map Prod.fst (htags.nodup_iff.mpr p.nodup_tags)
    refine (hnodup.subperm hentries).perm_of_length_le ?_
    have hlength := htags.length_eq
    rw [List.length_map, List.length_map] at hlength
    exact Nat.le_of_eq hlength.symm
  rw [record_eq, ofJson?, named?_map_member, Option.bind_eq_bind, Option.bind_some]
  simp only [hl, Option.bind_eq_bind, Option.bind_some, ofList_of_perm hperm]

end Palette

end Cutscene
