import Cutscene.Movie.Memory
import Cutscene.Proofs.Stage.Effects

/-!
# Frames that are painted

A scene is painted if no picture in it is too large and every font in it is one. The frame then has the size
of the canvas. What has been painted before makes no difference to what happens on the stage.

Results:
* `Painter.exists_drawText`: text adds typefaces and layers, and changes nothing else.
* `Painter.renderFrame_of_isPaintable`: a scene that can be painted gives a frame of the canvas.
* `Painter.checkFrame_frame`: which a sink that was told the size of the canvas takes.
* `Stage.step_repaint`: the painter makes no difference to a step.
-/

namespace Cutscene

/-! ## What can be painted -/

/-- Whether a font can be used: it holds a typeface, and the family of that has a name. -/
def Font.isNamed (f : Font) : Bool :=
  match f.content with
  | .font face => face.family.isSome
  | _ => false

/-- Whether a run of text is painted without fail: what it shows has a font that can be used and a size. -/
def TextRun.isPaintable (r : TextRun) : Bool :=
  match r.font with
  | none => true
  | some font => (r.spans.all fun s => s.text = "") || (font.isNamed && (r.size.isFinite && 0 < r.size))

/-- Whether a payload is painted without fail: pictures have sides of 16 bits, and text can be painted. -/
def Payload.isPaintable {R : Type} : Payload R → Bool
  | .none => true
  | .sprite s _ _ => s.frames.all fun f => f.width ≤ 65535 && f.height ≤ 65535
  | .text run => run.isPaintable
  | .fill _ _ _ => true

/-- Whether the payloads of all nodes are. -/
def Scene.isPaintable {R : Type} (s : Scene R) : Bool := s.nodes.all fun n => n.payload.isPaintable

theorem Sprite.frameAt_mem {R : Type} [Scalar R] (s : Sprite R) (t : R) : s.frameAt t ∈ s.frames := by
  unfold Sprite.frameAt
  cases h : s.frames[s.frameIndex t]? with
  | none => exact List.head_mem s.frames_ne_nil
  | some f => exact List.mem_of_getElem? h

theorem Scene.isPaintable_node {R : Type} [Scalar R] {s : Scene R} (h : s.isPaintable) (id : NodeId) :
    (s.node id).payload.isPaintable := by
  unfold Scene.node
  cases hid : s.nodes[id]? with
  | none => rfl
  | some n => exact Array.all_eq_true_iff_forall_mem.mp h n (Array.mem_of_getElem? hid)

namespace Painter

variable {R : Type} [Scalar R] {p : Painter}

theorem prepare_of_le (key : String × Nat) {f : SpriteFrame} (hw : f.width ≤ 65535)
    (hh : f.height ≤ 65535) : ∃ q, p.prepare key f = .ok q ∧ q.canvas = p.canvas := by
  unfold prepare
  by_cases hready : p.ready.contains key
  · rw [if_pos hready]
    exact ⟨p, rfl, rfl⟩
  · rw [if_neg hready, if_neg (UInt32.not_lt.mpr hw), if_neg (UInt32.not_lt.mpr hh)]
    exact ⟨_, rfl, rfl⟩

/-! ### Text -/

theorem register_of_isNamed {font : Font} (h : font.isNamed) : ∃ face, (p.register font).1 = .ok face := by
  unfold Font.isNamed at h
  unfold register
  cases p.face? font.path with
  | some face => exact ⟨face, rfl⟩
  | none =>
    cases hcontent : font.content with
    | font face =>
      rw [hcontent] at h
      simp only [if_pos h]
      exact ⟨face, rfl⟩
    | _ =>
      rw [hcontent] at h
      cases h

theorem exists_register (p : Painter) (font : Font) : ∃ faces, (p.register font).2 = { p with faces } := by
  unfold register
  cases p.face? font.path with
  | some face => exact ⟨p.faces, rfl⟩
  | none =>
    cases font.content with
    | font face => exact ⟨(font.path, face) :: p.faces, rfl⟩
    | _ => exact ⟨p.faces, rfl⟩

theorem exists_addGlyphs (p : Painter) (x y : Int) (glyphs : List Glyph) :
    ∃ layers, p.addGlyphs x y glyphs = { p with layers } := by
  unfold addGlyphs
  induction glyphs generalizing p with
  | nil => exact ⟨p.layers, rfl⟩
  | cons g r ih => exact ih (p.add _)

/-- Text adds typefaces and layers, and changes nothing else. -/
theorem exists_drawText (p : Painter) (run : TextRun) (x y : Int) :
    ∃ faces layers, (p.drawText run x y).2 = { p with faces, layers } := by
  unfold drawText
  cases run.font with
  | none => exact ⟨p.faces, p.layers, rfl⟩
  | some font =>
    simp only
    split_ifs
    · exact ⟨p.faces, p.layers, rfl⟩
    · obtain ⟨faces, hfaces⟩ := p.exists_register font
      cases hfont : p.register font with
      | mk result q =>
        rw [hfont] at hfaces
        obtain rfl : q = { p with faces } := hfaces
        cases result with
        | error e => exact ⟨faces, p.layers, rfl⟩
        | ok face =>
          obtain ⟨layers, hlayers⟩ := exists_addGlyphs { p with faces } x y (glyphsOf { p with faces } face run)
          exact ⟨faces, layers, hlayers⟩
    · exact ⟨p.faces, p.layers, rfl⟩

theorem drawText_of_isPaintable {run : TextRun} (h : run.isPaintable) (x y : Int) :
    (p.drawText run x y).1 = .ok () := by
  unfold TextRun.isPaintable at h
  unfold drawText
  cases hrun : run.font with
  | none => rfl
  | some font =>
    simp only [hrun, Bool.or_eq_true, Bool.and_eq_true, decide_eq_true_eq] at h
    simp only
    split_ifs with hblank hsize
    · rfl
    · obtain ⟨face, hface⟩ := p.register_of_isNamed (h.resolve_left hblank).1
      cases hregister : p.register font with
      | mk result q =>
        rw [hregister] at hface
        cases hface
        rfl
    · exact absurd (h.resolve_left hblank).2 hsize

/-- A typeface that paints one glyph for each character, each in a place of its own. -/
example :
    let face : Typeface := ⟨.empty, some "Row", fun _ spans _ =>
      (String.join (spans.map (·.1))).toList.mapIdx fun i _ => ⟨9 * i, -7, 8, 6, .empty⟩⟩
    let run : TextRun := .plain "ab" (some ⟨"row.ttf", .font face⟩) 12 .white
    let p : Painter := ⟨⟨64, 48⟩, none, [], [], []⟩
    run.isPaintable ∧ (p.drawText run 10 20).2.layers.map (fun l => (l.x, l.y)) = [(19, 13), (10, 13)] := by
  decide +kernel

/-! ### Scenes -/

theorem draw_of_isPaintable {item : DrawItem R} (h : item.payload.isPaintable) :
    ∃ q, draw item p = (.ok (), q) ∧ q.canvas = p.canvas := by
  unfold draw
  cases hitem : item.payload with
  | none => exact ⟨_, rfl, rfl⟩
  | fill w h c => exact ⟨_, rfl, rfl⟩
  | sprite s width height =>
    rw [hitem] at h
    have hframe := List.all_eq_true.mp h _ (s.frameAt_mem item.clock)
    rw [Bool.and_eq_true, decide_eq_true_eq, decide_eq_true_eq] at hframe
    obtain ⟨q, hq, hcanvas⟩ :=
      p.prepare_of_le (s.path, s.frameIndex item.clock) hframe.1 hframe.2
    simp only [hq]
    exact ⟨_, rfl, hcanvas⟩
  | text run =>
    rw [hitem] at h
    obtain ⟨faces, layers, hkept⟩ := p.exists_drawText run item.position.x.toInt item.position.y.toInt
    have hgood := p.drawText_of_isPaintable h item.position.x.toInt item.position.y.toInt
    have hcanvas := congrArg Painter.canvas hkept
    exact ⟨_, Prod.ext hgood rfl, hcanvas⟩

theorem paintItems_of_isPaintable {items : List (DrawItem R)}
    (h : ∀ item ∈ items, item.payload.isPaintable) :
    ∃ q, paintItems items p = (.ok (), q) ∧ q.canvas = p.canvas := by
  induction items generalizing p with
  | nil => exact ⟨p, rfl, rfl⟩
  | cons item r ih =>
    obtain ⟨q, hq, hcanvas⟩ := p.draw_of_isPaintable (h item List.mem_cons_self)
    obtain ⟨q', hq', hcanvas'⟩ := ih (p := q) fun i hi => h i (List.mem_cons_of_mem _ hi)
    refine ⟨q', ?_, hcanvas'.trans hcanvas⟩
    unfold paintItems
    simp only [DrawTarget.draw, hq]
    exact hq'

/-- A scene without obstacles gives a frame of the canvas. -/
theorem renderFrame_of_isPaintable {s : Scene R} (h : s.isPaintable) :
    ∃ q : Painter, p.renderFrame s = (.ok q.frame, q) ∧ q.canvas = p.canvas := by
  have hitems : ∀ item ∈ s.drawItems, item.payload.isPaintable := by
    intro item hitem
    obtain ⟨id, -, rfl⟩ := List.mem_map.mp hitem
    exact s.isPaintable_node h id
  obtain ⟨q, hq, hcanvas⟩ := paintItems_of_isPaintable (p := { p with layers := [] }) hitems
  refine ⟨q, ?_, hcanvas⟩
  unfold renderFrame Scene.render
  rw [hq]

/-! ## The size of a frame -/

theorem size_frame (p : Painter) :
    p.frame.data.size = 4 * (p.canvas.width.toNat * p.canvas.height.toNat) := Array.size_ofFn

/-- A frame of a canvas that is not too large is what a sink was told of. -/
theorem checkFrame_frame {r : FrameRate} (h : p.canvas.validate = .ok ()) :
    (⟨p.canvas.width, p.canvas.height, r⟩ : SinkConfig).checkFrame p.frame = .ok () := by
  unfold Canvas.validate at h
  split_ifs at h with hempty hlarge
  rw [not_or, UInt32.not_lt, UInt32.not_lt, UInt32.le_iff_toNat_le, UInt32.le_iff_toNat_le] at hlarge
  obtain ⟨hwidth, hheight⟩ := hlarge
  have hwidth : p.canvas.width.toNat ≤ 65535 := hwidth
  have hheight : p.canvas.height.toNat ≤ 65535 := hheight
  have hpixels : p.canvas.width.toNat * p.canvas.height.toNat ≤ 65535 * 65535 :=
    Nat.mul_le_mul hwidth hheight
  have hbytes : p.frame.data.size =
      (⟨p.canvas.width, p.canvas.height, r⟩ : SinkConfig).dataLength.toNat := by
    have hword : p.canvas.width.toNat * p.canvas.height.toNat * 4 < UInt64.size :=
      Nat.lt_of_le_of_lt (Nat.mul_le_mul_right 4 hpixels) (by decide)
    rw [size_frame, SinkConfig.toNat_dataLength, Nat.mod_eq_of_lt hword, Nat.mul_comm]
  unfold SinkConfig.checkFrame
  rw [if_neg (by simp [frame]), if_neg (not_not.mpr hbytes)]

end Painter

/-! ## The painter in a step -/

namespace Stage

variable {R : Type}

/-- The stage with another painter. -/
def repaint (s : Stage R) (painter : Painter) : Stage R := { s with painter }

theorem complete_repaint (s : Stage R) (painter : Painter) (completed : Option Completion) :
    (s.repaint painter).complete completed = (s.complete completed).repaint painter := by
  cases completed with
  | none => rfl
  | some token => cases token <;> rfl

theorem withSound_repaint (s : Stage R) (painter : Painter) (path : Except Error String)
    (log : String → SoundLog R → SoundLog R) :
    (s.repaint painter).withSound path log =
      ((s.withSound path log).1, (s.withSound path log).2.repaint painter) := by
  unfold withSound
  cases path <;> rfl

variable [Scalar R]

theorem renderFrame_repaint (s : Stage R) (painter : Painter) :
    (s.repaint painter).renderFrame =
      ((painter.renderFrame s.scene).1, s.repaint (painter.renderFrame s.scene).2) := rfl

theorem withSprite_repaint (s : Stage R) (painter : Painter) (disk : Disk) (path : String)
    {next : Sprite R → Stage R → Except Error Unit × Stage R}
    (h : ∀ sprite (t : Stage R),
      next sprite (t.repaint painter) = ((next sprite t).1, (next sprite t).2.repaint painter)) :
    (s.repaint painter).withSprite disk path next =
      ((s.withSprite disk path next).1, (s.withSprite disk path next).2.repaint painter) := by
  have hassets : (s.repaint painter).assets = s.assets := rfl
  unfold withSprite
  rw [hassets]
  cases s.assets.loadSprite disk path with
  | error e => rfl
  | ok r => exact h r.1 { s with assets := r.2 }

theorem apply_repaint (s : Stage R) (painter : Painter) (disk : Disk) (d : Directive R) :
    (s.repaint painter).apply disk d =
      ((s.apply disk d).1, (s.apply disk d).2.repaint painter) := by
  cases d with
  | sprite side path =>
    simp only [apply]
    exact s.withSprite_repaint painter disk _ fun sprite t => rfl
  | playSound name =>
    simp only [apply]
    exact s.withSound_repaint painter _ _
  | startBlip voice =>
    simp only [apply]
    exact s.withSound_repaint painter _ _
  | musicStart name =>
    simp only [apply]
    exact s.withSound_repaint painter _ _
  | exclamation kind speaker =>
    simp only [apply]
    refine s.withSprite_repaint painter disk _ fun sprite t => ?_
    exact (t.showBubble sprite).withSound_repaint painter _ _
  | deskSlam side =>
    simp only [apply]
    refine s.withSprite_repaint painter disk _ fun sprite t => ?_
    simp only [repaint, modifyNode]
  | _ => rfl

theorem applyAll_repaint (s : Stage R) (painter : Painter) (disk : Disk) (ds : List (Directive R)) :
    (s.repaint painter).applyAll disk ds =
      ((s.applyAll disk ds).1, (s.applyAll disk ds).2.repaint painter) := by
  induction ds generalizing s with
  | nil => rfl
  | cons d r ih =>
    unfold applyAll
    rw [apply_repaint]
    cases hd : s.apply disk d with
    | mk result t =>
      cases result with
      | error e => rfl
      | ok _ => exact ih t

/-- What has been painted makes no difference to a step. -/
theorem step_repaint (s : Stage R) (painter : Painter) (disk : Disk) :
    (s.repaint painter).step disk = ((s.step disk).1, (s.step disk).2.repaint painter) := by
  have hplayed : (s.repaint painter).played = (s.played.1, s.played.2.repaint painter) := by
    refine Prod.ext rfl ?_
    exact complete_repaint { s.cued with
      dialogue := (s.cued.dialogue.update s.config.rate.frameSeconds).typewriter } painter _
  rw [step_eq, step_eq, hplayed]
  simp only [applyAll_repaint]
  cases s.played.2.applyAll disk s.played.1 with
  | mk r u => cases r <;> rfl

end Stage

end Cutscene
