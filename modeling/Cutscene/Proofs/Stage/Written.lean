import Cutscene.Proofs.Dialogue.Palette
import Cutscene.Proofs.Json.Spelling
import Cutscene.Stage.ConfigText

/-!
# Written configurations

A configuration that is written in part stands for the standard one with the fields that are written put in
place of the standard ones, those of the art one by one.

On `DirectorConfig.from_json_str` and the defaults (SPEC_FULL.md, §B.4).

Results:
* `StageArt.reads_pick`, `Config.reads_part`: what is read of some of the fields.
* `Config.Valid.merge`: fields of valid configurations make a valid one.
* `Config.ofJson?_of_misfits`: what is not read at all.
* `Config.overrides_listed`: a written configuration overrides what it lists.
-/

namespace Cutscene

open Json

/-! ## Values of fields -/

theorem Canvas.reads (c : Canvas) : Reads Canvas.ofJson? c.toJson c := by
  intro j hj
  obtain ⟨fs, hfs, hholds⟩ := hj.record? (by decide) (.refl ["width", "height"]) .ignored
  have hwidth : fs.required? "width" nat32? = some c.width :=
    hholds.required? (by simp) (reads_flat rfl (nat32?_int _))
  have hheight : fs.required? "height" nat32? = some c.height :=
    hholds.required? (by simp) (reads_flat rfl (nat32?_int _))
  simp [ofJson?, hfs, hwidth, hheight]

theorem FrameRate.reads (r : FrameRate) : Reads FrameRate.ofJson? r.toJson r := by
  intro j hj
  obtain ⟨fs, hfs, hholds⟩ := hj.record? (by decide) (.refl ["num", "den"]) .ignored
  have hnum : fs.required? "num" nat32? = some r.num :=
    hholds.required? (by simp) (reads_flat rfl (nat32?_int _))
  have hden : fs.required? "den" nat32? = some r.den :=
    hholds.required? (by simp) (reads_flat rfl (nat32?_int _))
  simp [ofJson?, hfs, hnum, hden]

theorem reads_int32 (n : Int32) : Reads int32? (int n.toInt) n := reads_flat rfl (int32?_int n)

/-! ## Fields that are written -/

namespace StageArt

/-- The art with the fields that are kept, and those of other art besides. -/
def merge (keep : String → Bool) (s d : StageArt) : StageArt where
  background := if keep "background" then s.background else d.background
  leftSprite := if keep "left_sprite" then s.leftSprite else d.leftSprite
  rightSprite := if keep "right_sprite" then s.rightSprite else d.rightSprite
  leftSlamSprite := if keep "left_slam_sprite" then s.leftSlamSprite else d.leftSlamSprite
  rightSlamSprite := if keep "right_slam_sprite" then s.rightSlamSprite else d.rightSlamSprite
  rightStandX := if keep "right_stand_x" then s.rightStandX else d.rightStandX
  dialogueBox := if keep "dialogue_box" then s.dialogueBox else d.dialogueBox
  dialogueBoxY := if keep "dialogue_box_y" then s.dialogueBoxY else d.dialogueBoxY
  arrow := if keep "arrow" then s.arrow else d.arrow
  font := if keep "font" then s.font else d.font
  nameFont := if keep "name_font" then s.nameFont else d.nameFont
  textSize := if keep "text_size_px" then s.textSize else d.textSize
  nameSize := if keep "name_size_px" then s.nameSize else d.nameSize

/-- The fields that are numbers with fractions. -/
def sizes (s : StageArt) : List (String × Float32) :=
  [("text_size_px", s.textSize), ("name_size_px", s.nameSize)]

theorem nodup_fieldNames : fieldNames.Nodup := by decide +kernel

/-- Some of the fields are read as standard art that has them. -/
theorem reads_pick {s : StageArt} {keep : String → Bool}
    (hsizes : ∀ f ∈ s.sizes, keep f.1 → float32? (float32 f.2) = some f.2) :
    Reads StageArt.ofJson? (s.toJson.pick keep) (s.merge keep standard) := by
  intro j hj
  rw [toJson] at hj
  obtain ⟨fs, hfs, hholds⟩ := hj.record?_pick nodup_fieldNames rfl .refused
  have hsize : ∀ name x, (name, x) ∈ s.sizes → keep name → Reads float32? (float32 x) x :=
    fun name x hx hkeep => reads_flat (isFlat_float32 x) (hsizes (name, x) hx hkeep)
  have htextSize := hsize "text_size_px" s.textSize (by simp [sizes])
  have hnameSize := hsize "name_size_px" s.nameSize (by simp [sizes])
  unfold ofJson?
  refine Option.bind_eq_some_iff.mpr ⟨fs, hfs, ?_⟩
  refine Option.bind_eq_some_iff.mpr ⟨_, hholds.orElse?_filter 0 rfl (fun _ => reads_text _) _, ?_⟩
  refine Option.bind_eq_some_iff.mpr ⟨_, hholds.orElse?_filter 1 rfl (fun _ => reads_text _) _, ?_⟩
  refine Option.bind_eq_some_iff.mpr ⟨_, hholds.orElse?_filter 2 rfl (fun _ => reads_text _) _, ?_⟩
  refine Option.bind_eq_some_iff.mpr ⟨_, hholds.orElse?_filter 3 rfl (fun _ => reads_text _) _, ?_⟩
  refine Option.bind_eq_some_iff.mpr ⟨_, hholds.orElse?_filter 4 rfl (fun _ => reads_text _) _, ?_⟩
  refine Option.bind_eq_some_iff.mpr ⟨_, hholds.orElse?_filter 5 rfl (fun _ => reads_int32 _) _, ?_⟩
  refine Option.bind_eq_some_iff.mpr ⟨_, hholds.orElse?_filter 6 rfl (fun _ => reads_text _) _, ?_⟩
  refine Option.bind_eq_some_iff.mpr ⟨_, hholds.orElse?_filter 7 rfl (fun _ => reads_int32 _) _, ?_⟩
  refine Option.bind_eq_some_iff.mpr ⟨_, hholds.orElse?_filter 8 rfl (fun _ => reads_text _) _, ?_⟩
  refine Option.bind_eq_some_iff.mpr ⟨_, hholds.orElse?_filter 9 rfl (fun _ => reads_optional _) _, ?_⟩
  refine Option.bind_eq_some_iff.mpr ⟨_, hholds.orElse?_filter 10 rfl (fun _ => reads_optional _) _, ?_⟩
  refine Option.bind_eq_some_iff.mpr ⟨_, hholds.orElse?_filter 11 rfl htextSize _, ?_⟩
  refine Option.bind_eq_some_iff.mpr ⟨_, hholds.orElse?_filter 12 rfl hnameSize _, ?_⟩
  rfl

end StageArt

namespace Config

section Merge

variable {R : Type}

/-- The configuration with the fields that are kept, and those of another one besides. -/
def merge (keep keepArt : String → Bool) (c d : Config R) : Config R where
  canvas := if keep "canvas" then c.canvas else d.canvas
  rate := if keep "fps" then c.rate else d.rate
  charsPerSecond := if keep "chars_per_second" then c.charsPerSecond else d.charsPerSecond
  holdSeconds := if keep "post_reveal_hold_secs" then c.holdSeconds else d.holdSeconds
  panSeconds := if keep "pan_secs" then c.panSeconds else d.panSeconds
  leftX := if keep "left_x" then c.leftX else d.leftX
  rightX := if keep "right_x" then c.rightX else d.rightX
  blipDelay := if keep "blip_loop_delay_secs" then c.blipDelay else d.blipDelay
  palette := if keep "palette" then c.palette else d.palette
  assetsRoot := if keep "assets_root" then c.assetsRoot else d.assetsRoot
  exclamationSeconds := if keep "exclamation_secs" then c.exclamationSeconds else d.exclamationSeconds
  slamSeconds := if keep "desk_slam_secs" then c.slamSeconds else d.slamSeconds
  maxFrames := if keep "max_frames" then c.maxFrames else d.maxFrames
  stage := if keep "stage" then c.stage.merge keepArt d.stage else d.stage

end Merge

/-- The fields that are numbers with fractions. -/
def fractions (c : Config Float) : List (String × Float) :=
  [("chars_per_second", c.charsPerSecond), ("post_reveal_hold_secs", c.holdSeconds),
    ("pan_secs", c.panSeconds), ("blip_loop_delay_secs", c.blipDelay),
    ("exclamation_secs", c.exclamationSeconds), ("desk_slam_secs", c.slamSeconds)]

/-- The written form of the fields that are kept, and of the fields of the art that are kept. -/
def part (c : Config Float) (keep keepArt : String → Bool) : Json :=
  (c.toJson.adjust "stage" (Json.pick keepArt)).pick keep

/-- The numbers with fractions among what is kept are read back from their text. -/
structure NumbersReadBack (c : Config Float) (keep keepArt : String → Bool) : Prop where
  own : ∀ f ∈ c.fractions, keep f.1 → float? (float f.2) = some f.2
  art : keep "stage" → ∀ f ∈ c.stage.sizes, keepArt f.1 → float32? (float32 f.2) = some f.2

theorem nodup_fieldNames : fieldNames.Nodup := by decide +kernel

/-- Some of the fields are read as the standard configuration that has them. -/
theorem reads_part {c : Config Float} {keep keepArt : String → Bool} (h : c.NumbersReadBack keep keepArt) :
    Reads Config.ofJson? (c.part keep keepArt) (c.merge keep keepArt standard) := by
  intro j hj
  rw [part, toJson, adjust_record] at hj
  obtain ⟨fs, hfs, hholds⟩ := hj.record?_pick nodup_fieldNames rfl .refused
  have hfloat : ∀ name x, (name, x) ∈ c.fractions → keep name → Reads float? (float x) x :=
    fun name x hx hkeep => reads_flat (isFlat_float x) (h.own (name, x) hx hkeep)
  have hpace := hfloat "chars_per_second" c.charsPerSecond (by simp [fractions])
  have hhold := hfloat "post_reveal_hold_secs" c.holdSeconds (by simp [fractions])
  have hpan := hfloat "pan_secs" c.panSeconds (by simp [fractions])
  have hblip := hfloat "blip_loop_delay_secs" c.blipDelay (by simp [fractions])
  have hexclamation := hfloat "exclamation_secs" c.exclamationSeconds (by simp [fractions])
  have hslam := hfloat "desk_slam_secs" c.slamSeconds (by simp [fractions])
  have hframes : Reads nat64? (int c.maxFrames.toNat) c.maxFrames := reads_flat rfl (nat64?_int _)
  unfold ofJson?
  refine Option.bind_eq_some_iff.mpr ⟨fs, hfs, ?_⟩
  refine Option.bind_eq_some_iff.mpr ⟨_, hholds.orElse?_filter 0 rfl (fun _ => c.canvas.reads) _, ?_⟩
  refine Option.bind_eq_some_iff.mpr ⟨_, hholds.orElse?_filter 1 rfl (fun _ => c.rate.reads) _, ?_⟩
  refine Option.bind_eq_some_iff.mpr ⟨_, hholds.orElse?_filter 2 rfl hpace _, ?_⟩
  refine Option.bind_eq_some_iff.mpr ⟨_, hholds.orElse?_filter 3 rfl hhold _, ?_⟩
  refine Option.bind_eq_some_iff.mpr ⟨_, hholds.orElse?_filter 4 rfl hpan _, ?_⟩
  refine Option.bind_eq_some_iff.mpr ⟨_, hholds.orElse?_filter 5 rfl (fun _ => reads_int32 _) _, ?_⟩
  refine Option.bind_eq_some_iff.mpr ⟨_, hholds.orElse?_filter 6 rfl (fun _ => reads_int32 _) _, ?_⟩
  refine Option.bind_eq_some_iff.mpr ⟨_, hholds.orElse?_filter 7 rfl hblip _, ?_⟩
  refine Option.bind_eq_some_iff.mpr ⟨_, hholds.orElse?_filter 8 rfl (fun _ => c.palette.reads) _, ?_⟩
  refine Option.bind_eq_some_iff.mpr ⟨_, hholds.orElse?_filter 9 rfl (fun _ => reads_text _) _, ?_⟩
  refine Option.bind_eq_some_iff.mpr ⟨_, hholds.orElse?_filter 10 rfl hexclamation _, ?_⟩
  refine Option.bind_eq_some_iff.mpr ⟨_, hholds.orElse?_filter 11 rfl hslam _, ?_⟩
  refine Option.bind_eq_some_iff.mpr ⟨_, hholds.orElse?_filter 12 rfl (fun _ => hframes) _, ?_⟩
  refine Option.bind_eq_some_iff.mpr ⟨_, hholds.orElse?_filter 13 rfl
    (fun hkeep => StageArt.reads_pick (h.art hkeep)) _, ?_⟩
  rfl

/-! ## Values in their domains -/

section Valid

variable {R : Type} [Scalar R] {c d : Config R}

/-- What every field of a configuration is checked for by itself. -/
structure Valid (c : Config R) : Prop where
  canvas : c.canvas.validate = .ok ()
  rate : c.rate.validate = .ok ()
  charsPerSecond : ensurePositive "chars_per_second" c.charsPerSecond = .ok ()
  holdSeconds : ensurePositive "post_reveal_hold_secs" c.holdSeconds = .ok ()
  panSeconds : ensurePositive "pan_secs" c.panSeconds = .ok ()
  exclamationSeconds : ensurePositive "exclamation_secs" c.exclamationSeconds = .ok ()
  slamSeconds : ensurePositive "desk_slam_secs" c.slamSeconds = .ok ()
  blipDelay : ¬(¬Scalar.isFinite c.blipDelay ∨ c.blipDelay < 0)
  maxFrames : c.maxFrames ≠ 0
  textSize : StageArt.ensureTextSize c.stage.textSize = .ok ()
  nameSize : StageArt.ensureTextSize c.stage.nameSize = .ok ()

theorem validate_eq_ok_iff : c.validate = .ok () ↔ c.Valid := by
  constructor
  · intro h
    unfold validate at h
    obtain ⟨_, hcanvas, h⟩ := bind_eq_ok_iff.mp h
    obtain ⟨_, hrate, h⟩ := bind_eq_ok_iff.mp h
    obtain ⟨_, hpace, h⟩ := bind_eq_ok_iff.mp h
    obtain ⟨_, hchars, hhold⟩ := bind_eq_ok_iff.mp hpace
    obtain ⟨_, hpan, h⟩ := bind_eq_ok_iff.mp h
    obtain ⟨_, hexclamation, h⟩ := bind_eq_ok_iff.mp h
    obtain ⟨_, hslam, h⟩ := bind_eq_ok_iff.mp h
    simp only at h
    split_ifs at h with hblip hframes hframes
    · cases h
    · cases h
    · cases h
    · obtain ⟨_, htext, hname⟩ := bind_eq_ok_iff.mp h
      exact ⟨hcanvas, hrate, hchars, hhold, hpan, hexclamation, hslam, hblip, hframes, htext, hname⟩
  · intro h
    have hpace : c.pace.validate = .ok () := by
      unfold Pace.validate pace
      rw [h.charsPerSecond, h.holdSeconds]
      rfl
    have hstage : c.stage.validate = .ok () := by
      unfold StageArt.validate
      rw [h.textSize, h.nameSize]
      rfl
    unfold validate
    rw [h.canvas, h.rate, hpace, h.panSeconds, h.exclamationSeconds, h.slamSeconds, hstage]
    simp only [if_neg h.blipDelay, if_neg h.maxFrames]
    rfl

/-- Fields of two valid configurations make a valid one. -/
theorem Valid.merge (hc : c.Valid) (hd : d.Valid) (keep keepArt : String → Bool) :
    (c.merge keep keepArt d).Valid := by
  have hite : ∀ {α : Type} (P : α → Prop) (k : Bool) {a b : α}, P a → P b →
      P (if k then a else b) := by
    intro α P k a b ha hb
    cases k <;> assumption
  constructor
  · exact hite (Canvas.validate · = .ok ()) _ hc.canvas hd.canvas
  · exact hite (FrameRate.validate · = .ok ()) _ hc.rate hd.rate
  · exact hite (ensurePositive _ · = .ok ()) _ hc.charsPerSecond hd.charsPerSecond
  · exact hite (ensurePositive _ · = .ok ()) _ hc.holdSeconds hd.holdSeconds
  · exact hite (ensurePositive _ · = .ok ()) _ hc.panSeconds hd.panSeconds
  · exact hite (ensurePositive _ · = .ok ()) _ hc.exclamationSeconds hd.exclamationSeconds
  · exact hite (ensurePositive _ · = .ok ()) _ hc.slamSeconds hd.slamSeconds
  · exact hite (fun x => ¬(¬Scalar.isFinite x ∨ x < 0)) _ hc.blipDelay hd.blipDelay
  · exact hite (· ≠ 0) _ hc.maxFrames hd.maxFrames
  · exact hite (fun s : StageArt => StageArt.ensureTextSize s.textSize = .ok ()) _
      (hite (StageArt.ensureTextSize · = .ok ()) _ hc.textSize hd.textSize) hd.textSize
  · exact hite (fun s : StageArt => StageArt.ensureTextSize s.nameSize = .ok ()) _
      (hite (StageArt.ensureTextSize · = .ok ()) _ hc.nameSize hd.nameSize) hd.nameSize

end Valid

theorem valid_standard : (standard : Config Float).Valid where
  canvas := rfl
  rate := rfl
  charsPerSecond := if_pos (by decide +kernel)
  holdSeconds := if_pos (by decide +kernel)
  panSeconds := if_pos (by decide +kernel)
  exclamationSeconds := if_pos (by decide +kernel)
  slamSeconds := if_pos (by decide +kernel)
  blipDelay := by decide +kernel
  maxFrames := by decide
  textSize := if_pos (by decide +kernel)
  nameSize := if_pos (by decide +kernel)

/-! ## Written configurations -/

/-- Members that a configuration does not have, or has already, at the top or in the art. -/
def Misfits (ms : List (Option String × Json)) : Prop :=
  Misnamed fieldNames ms ∨ ∃ art, (some "stage", .object art) ∈ ms ∧ Misnamed StageArt.fieldNames art

theorem ofJson?_of_misfits {ms : List (Option String × Json)} (h : Misfits ms) :
    ofJson? (.object ms) = none := by
  unfold ofJson?
  refine Option.bind_eq_none_iff.mpr fun fs hfs => ?_
  rcases h with h | ⟨art, hmem, h⟩
  · rw [record?_of_misnamed h] at hfs
    cases hfs
  · obtain ⟨rfl, hnodup, -⟩ := record?_object hfs
    have hart : StageArt.ofJson? (.object art) = none := by
      unfold StageArt.ofJson?
      rw [record?_of_misnamed h]
      rfl
    have hstage : fs.orElse? "stage" (standard : Config Float).stage StageArt.ofJson? = none := by
      unfold Fields.orElse?
      rw [lookup_of_mem hnodup (mem_map_member_iff.mp hmem)]
      exact hart
    -- Whatever is read of the thirteen fields before it, the art is not read.
    iterate 13 refine Option.bind_eq_none_iff.mpr fun _ _ => ?_
    rw [hstage]
    rfl

theorem sound_toJson (c : Config Float) : c.toJson.Sound := by
  have hoptional : ∀ s : Option String, (Json.optional Json.text s).Sound := fun s => by cases s <;> trivial
  have hpalette : c.palette.toJson.Sound :=
    sound_record.mpr (List.forall_mem_map.mpr fun e _ => by simp [Color.toJson, sound_record, sound_int])
  have hart : c.stage.toJson.Sound := by
    simp [StageArt.toJson, sound_record, sound_text, sound_int, sound_float32, hoptional]
  simp [toJson, Canvas.toJson, FrameRate.toJson, sound_record, sound_text, sound_int, sound_float, hpalette,
    hart]

/-- What is made of written configurations, when it comes to those that are taken from this one. -/
structure OverridesListed (c : Config Float) : Prop where
  /-- Whichever fields are written, at the top and of the art, in whatever order and with whatever
  blanks: they are put in place of the standard ones. -/
  listed : ∀ keep keepArt, c.NumbersReadBack keep keepArt → ∀ j, Reordered (c.part keep keepArt) j →
    ∀ s, j.Spelled s → ofText s = .ok (c.merge keep keepArt standard)
  /-- The text of the whole configuration is read as the configuration. -/
  whole : c.NumbersReadBack (fun _ => true) (fun _ => true) → ofText c.text = .ok c
  /-- A text with a key that is no field, or with a field twice, is refused as no written form. -/
  refused : ∀ s ms, Json.ofText? s = some (.object ms) → Misfits ms →
    ∃ e, ofText s = .error e ∧ e.kind = .serialization

theorem part_true (c : Config Float) : c.part (fun _ => true) (fun _ => true) = c.toJson := by
  have hart : c.stage.toJson.pick (fun _ => true) = c.stage.toJson := pick_record_true _
  rw [part, toJson, adjust_record, pick_record_true]
  simp [hart]

/-- **A written configuration overrides what it lists**, and nothing else can be written in it. -/
theorem overrides_listed {c : Config Float} (hc : c.validate = .ok ()) : c.OverridesListed := by
  have hlisted : ∀ keep keepArt, c.NumbersReadBack keep keepArt → ∀ j, Reordered (c.part keep keepArt) j →
      ∀ s, j.Spelled s → ofText s = .ok (c.merge keep keepArt standard) := by
    intro keep keepArt hnumbers j hj s hs
    have hvalid : (c.merge keep keepArt standard).validate = .ok () :=
      validate_eq_ok_iff.mpr ((validate_eq_ok_iff.mp hc).merge valid_standard keep keepArt)
    unfold ofText
    rw [hs.ofText?, Option.bind_some, reads_part hnumbers j hj]
    simp only [hvalid]
    rfl
  refine ⟨hlisted, fun hnumbers => ?_, fun s ms hs hms => ⟨.json, ?_, rfl⟩⟩
  · exact hlisted _ _ hnumbers _ (.same _) _ (c.part_true ▸ .compact c.sound_toJson)
  · unfold ofText
    rw [hs, Option.bind_some, ofJson?_of_misfits hms]

/-- A font, and text that is revealed faster. -/
def swiftConfig : Config Float :=
  { standard with charsPerSecond := 45.5, stage := { StageArt.standard with font := some "a.ttf" } }

/-- The font is written before the pace, which stands before it in a configuration; a pace that is written
twice is refused. -/
theorem overrides_listed_swift : swiftConfig.validate = .ok () ∧ swiftConfig.OverridesListed ∧
    ofText "\x7b\"stage\":\x7b\"font\":\"a.ttf\"\x7d,\"chars_per_second\":45.5\x7d" = .ok swiftConfig ∧
    ∃ e, ofText "\x7b\"chars_per_second\":45.5,\"chars_per_second\":45.5\x7d" = .error e ∧
      e.kind = .serialization := by
  have hvalid : swiftConfig.validate = .ok () :=
    validate_eq_ok_iff.mpr { valid_standard with charsPerSecond := if_pos (by decide +kernel) }
  have hoverrides := overrides_listed hvalid
  have hnumbers : swiftConfig.NumbersReadBack (["stage", "chars_per_second"].contains ·) (· == "font") := by
    have hread : float? (float 45.5) = some 45.5 := by decide +kernel
    constructor
    · simpa [fractions, swiftConfig] using hread
    · simp [StageArt.sizes]
  let j : Json := .record [("stage", .record [("font", .text "a.ttf")]), ("chars_per_second", .float 45.5)]
  have hj : Reordered (swiftConfig.part (["stage", "chars_per_second"].contains ·) (· == "font")) j := by
    exact .object (List.forall₂_same.mpr fun m _ => .mk m.1 (.same m.2)) (.swap _ _ _)
  have hspelled : j.Spelled j.compact := .compact (by simp [j, sound_record, sound_text, sound_float])
  have hlisted := hoverrides.listed _ _ hnumbers j hj _ hspelled
  refine ⟨hvalid, hoverrides, ?_, ?_⟩
  · have htext : j.compact = "\x7b\"stage\":\x7b\"font\":\"a.ttf\"\x7d,\"chars_per_second\":45.5\x7d" := by
      decide +kernel
    rw [← htext, hlisted]
    rfl
  · let twice : List (String × Json) := [("chars_per_second", .float 45.5), ("chars_per_second", .float 45.5)]
    have hmisfits : Misfits (twice.map member) := .inl (.inr (by simp [twice, member]))
    have hspelled : (record twice).Spelled (record twice).compact :=
      .compact (by simp [twice, sound_record, sound_float])
    have htext : (record twice).compact =
        "\x7b\"chars_per_second\":45.5,\"chars_per_second\":45.5\x7d" := by
      decide +kernel
    rw [← htext]
    exact hoverrides.refused _ _ hspelled.ofText? hmisfits

end Config

end Cutscene
