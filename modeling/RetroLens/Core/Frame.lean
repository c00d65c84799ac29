import RetroLens.Lib.Text

/-!
# Frames

The 80x60 frames of the reduced decoder, and their bytes as `fwrite` and
`fread` of `Pixel` see them.
-/

namespace RetroLens.Core

open Text

structure Pixel where
  r : UInt8
  g : UInt8
  b : UInt8
  deriving DecidableEq, Repr, Inhabited

def kFrameWidth : Nat := 80
def kFrameHeight : Nat := 60
/-- `kFrameWidth * kFrameHeight`. -/
def framePixels : Nat := kFrameWidth * kFrameHeight

/-- The pixels of a frame, row by row. -/
structure Frame where
  pixels : List Pixel
  size : pixels.length = framePixels
  deriving DecidableEq

def Pixel.bytes (p : Pixel) : Bytes := [p.r, p.g, p.b]

def Frame.bytes (f : Frame) : Bytes := f.pixels.flatMap Pixel.bytes

/-- The whole pixels of a byte string. -/
def readPixels : Bytes → List Pixel
  | r :: g :: b :: rest => ⟨r, g, b⟩ :: readPixels rest
  | _ => []

/-- `fread` of a whole frame: the frame, if the file holds as many pixels. -/
def readFrame (data : Bytes) : Option Frame :=
  let pixels := (readPixels data).take framePixels
  if h : pixels.length = framePixels then some ⟨pixels, h⟩ else none

/-- A frame of one colour. -/
def Frame.filled (p : Pixel) : Frame := ⟨List.replicate framePixels p, List.length_replicate⟩

theorem readPixels_bytes (ps : List Pixel) : readPixels (ps.flatMap Pixel.bytes) = ps := by
  induction ps with
  | nil => rfl
  | cons p ps ih =>
    simp only [List.flatMap_cons, Pixel.bytes, List.cons_append, List.nil_append, readPixels]
    rw [ih]

/-- A frame read back is the frame written. -/
theorem readFrame_bytes (f : Frame) : readFrame f.bytes = some f := by
  have hp : (readPixels f.bytes).take framePixels = f.pixels := by
    rw [Frame.bytes, readPixels_bytes, List.take_of_length_le (Nat.le_of_eq f.size)]
  simp only [readFrame, hp, f.size, dite_true]

theorem readPixels_length : ∀ data : Bytes, (readPixels data).length = data.length / 3
  | [] => rfl
  | [_] => by simp [readPixels]
  | [_, _] => by simp [readPixels]
  | _ :: _ :: _ :: data => by
    simp only [readPixels, List.length_cons, readPixels_length data]
    omega

/-- A file of the right size is a frame. -/
theorem readFrame_of_length {data : Bytes} (h : data.length = framePixels * 3) :
    ∃ f, readFrame data = some f := by
  have hlen : ((readPixels data).take framePixels).length = framePixels := by
    rw [List.length_take, readPixels_length, h]
    omega
  exact ⟨⟨_, hlen⟩, dif_pos hlen⟩

theorem flatMap_bytes_length (ps : List Pixel) :
    (ps.flatMap Pixel.bytes).length = ps.length * 3 := by
  induction ps with
  | nil => rfl
  | cons p ps ih =>
    simp only [List.flatMap_cons, List.length_append, ih, List.length_cons, Pixel.bytes,
      List.length_nil]
    omega

theorem Frame.bytes_length (f : Frame) : f.bytes.length = framePixels * 3 := by
  rw [Frame.bytes, flatMap_bytes_length, f.size]

end RetroLens.Core
