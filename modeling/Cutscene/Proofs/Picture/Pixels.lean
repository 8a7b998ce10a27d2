import Cutscene.Movie.Video

/-!
# Pixels in data

Pictures are changed pixel by pixel, in data that is read byte by byte. Here is what the bytes and the
pixels of changed data are, and the arithmetic of bytes that are scaled.

Results:
* `ext_byteAt`: data is known by its length and its bytes.
* `byteAt_mapPixels`, `colorAt_mapPixels`: the bytes and the pixels of changed data.
* `writePixels_eq_mapPixels`: a buffer that is used again keeps nothing.
* `mapPixels_congr`, `mapPixels_eq_self_iff`, `mapPixels_mapPixels`: changes that agree on all pixels, changes
  that are none, and one change after another.
* `toNat_scaleByte`, `scaleByte_le`: what scaling a byte comes to.
-/

namespace Cutscene

/-! ## Bytes -/

theorem byteAt_of_lt {data : ByteArray} {i : Nat} (h : i < data.size) : byteAt data i = data[i] := dif_pos h

theorem byteAt_of_le {data : ByteArray} {i : Nat} (h : data.size ≤ i) : byteAt data i = 0 :=
  dif_neg (Nat.not_lt.mpr h)

/-- Data is known by its length and its bytes. -/
theorem ext_byteAt {a b : ByteArray} (hsize : a.size = b.size)
    (h : ∀ i < a.size, byteAt a i = byteAt b i) : a = b := by
  refine ByteArray.ext (Array.ext hsize fun i hi hi' => ?_)
  have hbyte := h i hi
  rw [byteAt_of_lt hi, byteAt_of_lt hi'] at hbyte
  exact hbyte

@[simp] theorem size_bytesOfFn (n : Nat) (f : Nat → UInt8) : (bytesOfFn n f).size = n := Array.size_ofFn

@[simp] theorem size_zeroBytes (n : Nat) : (zeroBytes n).size = n := size_bytesOfFn _ _

theorem byteAt_bytesOfFn {n i : Nat} (f : Nat → UInt8) (h : i < n) : byteAt (bytesOfFn n f) i = f i := by
  rw [byteAt_of_lt (by rwa [size_bytesOfFn])]
  exact Array.getElem_ofFn _

theorem byteAt_append (a b : ByteArray) (i : Nat) :
    byteAt (a ++ b) i = if i < a.size then byteAt a i else byteAt b (i - a.size) := by
  split
  · next h =>
    rw [byteAt_of_lt h, byteAt_of_lt (by rw [ByteArray.size_append]; omega)]
    exact ByteArray.getElem_append_left h
  · next h =>
    by_cases hi : i - a.size < b.size
    · rw [byteAt_of_lt hi, byteAt_of_lt (by rw [ByteArray.size_append]; omega)]
      exact ByteArray.getElem_append_right (Nat.not_lt.mp h)
    · rw [byteAt_of_le (Nat.not_lt.mp hi), byteAt_of_le (by rw [ByteArray.size_append]; omega)]

/-! ## Pixels -/

variable {f g : Color → Color} {data : ByteArray} {i k : Nat}

@[simp] theorem size_writePixels (buffer : ByteArray) : (writePixels f data buffer).size = buffer.size :=
  size_bytesOfFn _ _

@[simp] theorem size_mapPixels : (mapPixels f data).size = data.size := size_writePixels data

theorem byteAt_mapPixels (h : i < data.size) : byteAt (mapPixels f data) i =
    if i / 4 * 4 + 4 ≤ data.size then (f (colorAt data (i / 4 * 4))).byte (i % 4) else byteAt data i := by
  unfold mapPixels writePixels
  rw [byteAt_bytesOfFn _ h]
  simp only [and_self]

/-- A buffer of whole pixels is written anew with all its bytes: it is of no importance what was in it. -/
theorem writePixels_eq_mapPixels {buffer : ByteArray} (hsize : buffer.size = data.size)
    (hwhole : data.size % 4 = 0) : writePixels f data buffer = mapPixels f data := by
  refine ext_byteAt (by rw [size_writePixels, size_mapPixels, hsize]) fun i hi => ?_
  rw [size_writePixels, hsize] at hi
  have hpixel : i / 4 * 4 + 4 ≤ data.size := by omega
  rw [byteAt_mapPixels hi, if_pos hpixel]
  unfold writePixels
  rw [byteAt_bytesOfFn _ (by rwa [hsize]), hsize]
  exact if_pos ⟨hpixel, hpixel⟩

/-- The pixels of changed data are the changed pixels. -/
theorem colorAt_mapPixels (h : 4 * k + 4 ≤ data.size) :
    colorAt (mapPixels f data) (4 * k) = f (colorAt data (4 * k)) := by
  have hbyte : ∀ j < 4, byteAt (mapPixels f data) (4 * k + j) = (f (colorAt data (4 * k))).byte j := by
    intro j hj
    have hstart : (4 * k + j) / 4 * 4 = 4 * k := by omega
    have hplace : (4 * k + j) % 4 = j := by omega
    rw [byteAt_mapPixels (by omega), hstart, hplace, if_pos h]
  have h0 := hbyte 0 (by omega)
  have h1 := hbyte 1 (by omega)
  have h2 := hbyte 2 (by omega)
  have h3 := hbyte 3 (by omega)
  rw [Nat.add_zero] at h0
  unfold colorAt
  rw [h0, h1, h2, h3]
  rfl

theorem byte_colorAt (data : ByteArray) (i : Nat) {j : Nat} (hj : j < 4) :
    (colorAt data i).byte j = byteAt data (i + j) := by
  match j, hj with
  | 0, _ => rfl
  | 1, _ => rfl
  | 2, _ => rfl
  | 3, _ => rfl

/-- Changes that agree on all pixels give the same data. -/
theorem mapPixels_congr
    (h : ∀ k, 4 * k + 4 ≤ data.size → f (colorAt data (4 * k)) = g (colorAt data (4 * k))) :
    mapPixels f data = mapPixels g data := by
  refine ext_byteAt (by rw [size_mapPixels, size_mapPixels]) fun i hi => ?_
  rw [size_mapPixels] at hi
  rw [byteAt_mapPixels hi, byteAt_mapPixels hi]
  split
  · next hwhole =>
    rw [Nat.mul_comm] at hwhole ⊢
    rw [h _ hwhole]
  · rfl

/-- Data stays as it is if every pixel does. -/
theorem mapPixels_eq_self_iff :
    mapPixels g data = data ↔ ∀ k, 4 * k + 4 ≤ data.size → g (colorAt data (4 * k)) = colorAt data (4 * k) := by
  constructor
  · intro h k hk
    rw [← colorAt_mapPixels (f := g) hk, h]
  · intro h
    refine ext_byteAt size_mapPixels fun i hi => ?_
    rw [size_mapPixels] at hi
    rw [byteAt_mapPixels hi]
    split
    · next hwhole =>
      rw [Nat.mul_comm] at hwhole ⊢
      rw [h _ hwhole, byte_colorAt data _ (Nat.mod_lt i (by decide)), Nat.div_add_mod]
    · rfl

/-- One change after another changes every pixel by both. -/
theorem mapPixels_mapPixels (f g : Color → Color) (data : ByteArray) :
    mapPixels g (mapPixels f data) = mapPixels (fun c => g (f c)) data := by
  refine ext_byteAt (by simp) fun i hi => ?_
  rw [size_mapPixels, size_mapPixels] at hi
  rw [byteAt_mapPixels (by rwa [size_mapPixels]), byteAt_mapPixels hi, byteAt_mapPixels hi, size_mapPixels]
  split
  · next hwhole =>
    rw [Nat.mul_comm] at hwhole ⊢
    rw [colorAt_mapPixels hwhole]
  · rfl

/-! ## Bytes that are scaled -/

theorem mul_le_of_byte (x : UInt8) (n : Nat) : x.toNat * n ≤ 255 * n :=
  Nat.mul_le_mul_right n (Nat.le_of_lt_succ x.toNat_lt)

theorem toNat_scaleByte (x y : UInt8) : (scaleByte x y).toNat = (x.toNat * y.toNat + 127) / 255 := by
  have hx := mul_le_of_byte x y.toNat
  have hy := y.toNat_lt
  unfold scaleByte
  rw [Nat.toUInt8_eq, UInt8.toNat_ofNat']
  omega

/-- A byte is not scaled beyond what it is scaled by. -/
theorem scaleByte_le (x y : UInt8) : (scaleByte x y).toNat ≤ y.toNat := by
  have hx := mul_le_of_byte x y.toNat
  rw [toNat_scaleByte]
  omega

@[simp] theorem scaleByte_full (x : UInt8) : scaleByte x 255 = x := by
  refine UInt8.toNat_inj.mp ?_
  have hfull : (255 : UInt8).toNat = 255 := rfl
  rw [toNat_scaleByte, hfull]
  omega

/-- An opaque color is its own scaled one. -/
theorem Color.premultiplied_of_full {c : Color} (h : c.a = 255) : c.premultiplied = c := by
  unfold premultiplied
  rw [h, scaleByte_full, scaleByte_full, scaleByte_full, ← h]

end Cutscene
