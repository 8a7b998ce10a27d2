import Mathlib.Data.List.Basic
import Cutscene.Movie.Sink
import Cutscene.Proofs.Picture.Pixels

/-!
# Frames that can be read

A frame is read pixel by pixel, at offsets that are counted in 64-bit words. The sides of a frame are words of
32 bits, so four bytes for each pixel may be more than such a word counts, and then offsets wrap around to the
start of the data. Below that, the frames that a sink accepts are read in whole.

On `FrameRGBA.pixel` and `SinkConfig.check_frame`.

Results:
* `Frame.pixel_eq`: which bytes are read for a pixel.
* `Frame.start_disjoint`, `Frame.exists_start`: pixels have bytes of their own, and every byte is of a pixel.
* `SinkConfig.readable_iff`: an accepted frame is read in whole just if nothing wraps around.
* `frames_read_pixelwise`: what is read of any frame.
-/

namespace Cutscene

namespace Frame

variable {f : Frame} {x y x' y' : UInt32}

/-- The frame has a column `x` and a row `y`. -/
def Has (f : Frame) (x y : UInt32) : Prop := x < f.width ∧ y < f.height

instance (f : Frame) (x y : UInt32) : Decidable (f.Has x y) := inferInstanceAs (Decidable (_ ∧ _))

/-- The place of the first byte of a pixel, row by row. -/
def start (f : Frame) (x y : UInt32) : Nat := (y.toNat * f.width.toNat + x.toNat) * 4

/-- Four bytes for each pixel. -/
def fullLength (f : Frame) : Nat := f.width.toNat * f.height.toNat * 4

/-! ## Places of pixels -/

theorem has_iff : f.Has x y ↔ x.toNat < f.width.toNat ∧ y.toNat < f.height.toNat := by
  unfold Has
  rw [UInt32.lt_iff_toNat_lt, UInt32.lt_iff_toNat_lt]

/-- A pixel ends within the frame. -/
theorem start_add_four_le (h : f.Has x y) : f.start x y + 4 ≤ f.fullLength := by
  obtain ⟨hx, hy⟩ := has_iff.mp h
  have hrows : (y.toNat + 1) * f.width.toNat ≤ f.height.toNat * f.width.toNat := Nat.mul_le_mul_right _ hy
  unfold start fullLength
  rw [Nat.mul_comm f.width.toNat]
  rw [Nat.succ_mul] at hrows
  omega

/-- A row ends before the next one starts. -/
theorem start_lt_of_row_lt (h : f.Has x y) (hy : y.toNat < y'.toNat) : f.start x y + 4 ≤ f.start x' y' := by
  have hx := (has_iff.mp h).1
  have hrows : (y.toNat + 1) * f.width.toNat ≤ y'.toNat * f.width.toNat := Nat.mul_le_mul_right _ hy
  unfold start
  rw [Nat.succ_mul] at hrows
  omega

/-- Different pixels have no byte in common. -/
theorem start_disjoint (h : f.Has x y) (h' : f.Has x' y') (hne : (x, y) ≠ (x', y')) :
    f.start x y + 4 ≤ f.start x' y' ∨ f.start x' y' + 4 ≤ f.start x y := by
  rcases Nat.lt_trichotomy y.toNat y'.toNat with hlt | heq | hgt
  · exact .inl (start_lt_of_row_lt h hlt)
  · obtain rfl := UInt32.toNat_inj.mp heq
    have hx : x.toNat ≠ x'.toNat := fun hx => hne (by rw [UInt32.toNat_inj.mp hx])
    unfold start
    omega
  · exact .inr (start_lt_of_row_lt h' hgt)

/-- Pixels are counted row by row, and none is left out. -/
theorem exists_start_eq {k : Nat} (hk : k * 4 < f.fullLength) : ∃ x y, f.Has x y ∧ f.start x y = k * 4 := by
  have hk : k < f.width.toNat * f.height.toNat := Nat.lt_of_mul_lt_mul_right hk
  have hwidth : 0 < f.width.toNat := Nat.pos_of_lt_mul_right hk
  have hx := Nat.mod_lt k hwidth
  have hy : k / f.width.toNat < f.height.toNat := Nat.div_lt_of_lt_mul hk
  have hx' := UInt32.toNat_ofNat_of_lt' (Nat.lt_trans hx f.width.toNat_lt)
  have hy' := UInt32.toNat_ofNat_of_lt' (Nat.lt_trans hy f.height.toNat_lt)
  refine ⟨.ofNat (k % f.width.toNat), .ofNat (k / f.width.toNat), ?_, ?_⟩
  · rw [has_iff, hx', hy']
    exact ⟨hx, hy⟩
  · unfold start
    rw [hx', hy', Nat.mul_comm (k / _), Nat.div_add_mod]

/-- Every byte is of a pixel. -/
theorem exists_start {i : Nat} (hi : i < f.fullLength) :
    ∃ x y, f.Has x y ∧ f.start x y ≤ i ∧ i < f.start x y + 4 := by
  obtain ⟨x, y, hxy, hstart⟩ := exists_start_eq (f := f) (k := i / 4) (by omega)
  exact ⟨x, y, hxy, by omega, by omega⟩

/-! ## Reading a pixel -/

/-- The place that is read for a pixel is counted in a 64-bit word. -/
theorem pixel_eq (f : Frame) (x y : UInt32) : f.pixel x y =
    if f.Has x y ∧ f.start x y % UInt64.size + 4 ≤ f.data.size then
      some (colorAt f.data (f.start x y % UInt64.size))
    else none := by
  have hword : ((y.toUInt64 * f.width.toUInt64 + x.toUInt64) * 4).toNat = f.start x y % UInt64.size := by
    simp [start]
  have hout : f.width ≤ x ∨ f.height ≤ y ↔ ¬f.Has x y := by
    unfold Has
    rw [not_and_or, UInt32.not_lt, UInt32.not_lt]
  unfold pixel
  simp only [hword, hout, ite_not, ite_and]

theorem isSome_pixel_iff : (f.pixel x y).isSome ↔ f.Has x y ∧ f.start x y % UInt64.size + 4 ≤ f.data.size := by
  rw [pixel_eq]
  split_ifs with h
  · exact iff_of_true rfl h
  · exact iff_of_false nofun h

/-- A pixel whose place is counted by a word is read from its place. -/
theorem pixel_of_lt (h : f.start x y < UInt64.size) : f.pixel x y =
    if f.Has x y ∧ f.start x y + 4 ≤ f.data.size then some (colorAt f.data (f.start x y)) else none := by
  rw [pixel_eq, Nat.mod_eq_of_lt h]

end Frame

/-! ## Frames that a sink accepts -/

namespace SinkConfig

variable {c : SinkConfig} {f : Frame}

theorem size_of_accepted (h : c.checkFrame f = .ok ()) : f.data.size = f.fullLength % UInt64.size := by
  obtain ⟨hwidth, hheight, hlength⟩ := checkFrame_eq_ok_iff.mp h
  rw [hlength, toNat_dataLength, Frame.fullLength, hwidth, hheight]

/-- An accepted frame is read in whole just if a word counts four bytes for each pixel of it. -/
theorem readable_iff (h : c.checkFrame f = .ok ()) :
    (∀ x y, f.Has x y → (f.pixel x y).isSome) ↔ f.fullLength < UInt64.size := by
  have hsize := size_of_accepted h
  constructor
  · refine fun hall => Nat.lt_of_not_le fun hlong => ?_
    -- The pixel that would start where the data ends is of the frame.
    have hshort : f.data.size < UInt64.size := hsize ▸ Nat.mod_lt _ (by decide)
    have hwhole : f.data.size % 4 = 0 := by
      rw [hsize, Nat.mod_mod_of_dvd _ (by decide), Frame.fullLength, Nat.mul_mod_left]
    obtain ⟨x, y, hxy, hstart⟩ := Frame.exists_start_eq (f := f) (k := f.data.size / 4) (by omega)
    obtain ⟨-, hread⟩ := Frame.isSome_pixel_iff.mp (hall x y hxy)
    rw [hstart, Nat.mod_eq_of_lt (by omega)] at hread
    omega
  · intro hshort x y hxy
    have hend := Frame.start_add_four_le hxy
    rw [Frame.isSome_pixel_iff, hsize, Nat.mod_eq_of_lt hshort, Nat.mod_eq_of_lt (by omega)]
    exact ⟨hxy, hend⟩

end SinkConfig

/-- What is read of a frame, and of one that a sink with some configuration accepts. -/
structure ReadsPixelwise (c : SinkConfig) (f : Frame) : Prop where
  /-- Nothing is read outside. -/
  outside : ∀ x y, ¬f.Has x y → f.pixel x y = none
  /-- Inside, a pixel is read if the data goes on to the end of it, its place counted in a 64-bit word. -/
  isSome_iff : ∀ x y, (f.pixel x y).isSome ↔ f.Has x y ∧ f.start x y % UInt64.size + 4 ≤ f.data.size
  /-- Where a word counts the place of a pixel, the place itself is what counts. -/
  isSome_iff_of_lt : ∀ x y, f.start x y < UInt64.size →
    ((f.pixel x y).isSome ↔ f.Has x y ∧ f.start x y + 4 ≤ f.data.size)
  /-- A pixel of which all data is there is read in any case. -/
  isSome_of_le : ∀ x y, f.Has x y → f.start x y + 4 ≤ f.data.size → (f.pixel x y).isSome
  /-- An accepted frame is read in whole just if four bytes for each pixel are counted by a word. -/
  accepted_iff : c.checkFrame f = .ok () →
    ((∀ x y, f.Has x y → (f.pixel x y).isSome) ↔ f.fullLength < UInt64.size)
  /-- Then every pixel is read from its place in the data, which is as long as all pixels take. -/
  accepted : c.checkFrame f = .ok () → f.fullLength < UInt64.size →
    f.data.size = f.fullLength ∧ ∀ x y, f.Has x y → f.pixel x y = some (colorAt f.data (f.start x y))
  /-- The places of pixels have no byte in common, and leave none out. -/
  disjoint : ∀ x y x' y', f.Has x y → f.Has x' y' → (x, y) ≠ (x', y') →
    f.start x y + 4 ≤ f.start x' y' ∨ f.start x' y' + 4 ≤ f.start x y
  covered : ∀ i < f.fullLength, ∃ x y, f.Has x y ∧ f.start x y ≤ i ∧ i < f.start x y + 4

/-- **What is read of a frame**, pixel by pixel: an accepted frame in whole, if its length does not wrap around,
and any frame as far as its data goes, up to the place where offsets wrap around. -/
theorem frames_read_pixelwise (c : SinkConfig) (f : Frame) : ReadsPixelwise c f where
  outside x y hout := by rw [f.pixel_eq, if_neg fun h => hout h.1]
  isSome_iff _ _ := Frame.isSome_pixel_iff
  isSome_iff_of_lt x y hlt := by rw [Frame.isSome_pixel_iff, Nat.mod_eq_of_lt hlt]
  isSome_of_le x y hxy hend := by
    have hle := Nat.mod_le (f.start x y) UInt64.size
    exact Frame.isSome_pixel_iff.mpr ⟨hxy, by omega⟩
  accepted_iff := SinkConfig.readable_iff
  accepted h hshort := by
    have hsize := SinkConfig.size_of_accepted h
    rw [Nat.mod_eq_of_lt hshort] at hsize
    refine ⟨hsize, fun x y hxy => ?_⟩
    have hend := Frame.start_add_four_le hxy
    rw [Frame.pixel_of_lt (by omega), if_pos ⟨hxy, hsize ▸ hend⟩]
  disjoint _ _ _ _ := Frame.start_disjoint
  covered _ := Frame.exists_start

/-- A frame of 2 ^ 31 by 2 ^ 31 pixels is accepted without any data, and no pixel of it can be read. With one
row more, a frame that has the data of one pixel shows that pixel again in the last row. -/
theorem offsets_wrap :
    let c : SinkConfig := ⟨2147483648, 2147483648, .standard⟩
    let blank : Frame := ⟨2147483648, 2147483648, .empty, true⟩
    let tall : Frame := ⟨2147483648, 2147483649, bytesOfFn 4 fun i => (i + 1).toUInt8, true⟩
    (c.checkFrame blank = .ok () ∧ blank.Has 0 0 ∧ blank.pixel 0 0 = none) ∧
      tall.Has 0 2147483648 ∧ tall.pixel 0 2147483648 = some ⟨1, 2, 3, 4⟩ ∧
      tall.data.size < tall.start 0 2147483648 + 4 := by
  decide +kernel

end Cutscene
