import RetroLens.Lib.Text

/-!
# RIFF files

A RIFF file is a tree of chunks: a four-character code, the length of the
contents in 32 bits, the contents, and a zero byte where that length is odd.
The contents of a LIST are a form code and chunks.

* `fileBytes form chunks` — the bytes of a tree, each size field the length of
  its contents, cut to 32 bits.
* `parse` reads a file back. It takes only size fields that fit: a chunk ends
  where its size says, and the last one ends with its list.
* `parse_fileBytes_iff` — the tree is read back exactly if the file's length
  fits its own size field.
-/

namespace Riff

open Text

structure FourCC where
  a : UInt8
  b : UInt8
  c : UInt8
  d : UInt8
  deriving DecidableEq, Repr

def FourCC.bytes (id : FourCC) : Bytes := [id.a, id.b, id.c, id.d]

/-- RIFF. -/
def riffId : FourCC := ⟨0x52, 0x49, 0x46, 0x46⟩

/-- LIST. -/
def listId : FourCC := ⟨0x4c, 0x49, 0x53, 0x54⟩

def le16 (n : Nat) : Bytes := [n.toUInt8, (n / 2 ^ 8).toUInt8]

/-- The low 32 bits, the lowest byte first. -/
def le32 (n : Nat) : Bytes :=
  [n.toUInt8, (n / 2 ^ 8).toUInt8, (n / 2 ^ 16).toUInt8, (n / 2 ^ 24).toUInt8]

def readLe32 (a b c d : UInt8) : Nat :=
  a.toNat + 2 ^ 8 * b.toNat + 2 ^ 16 * c.toNat + 2 ^ 24 * d.toNat

/-- A chunk that is not a LIST, or a LIST. -/
inductive Chunk where
  | leaf (id : {id : FourCC // id ≠ listId}) (data : Bytes)
  | list (form : FourCC) (chunks : List Chunk)

def Chunk.id : Chunk → FourCC
  | .leaf id _ => id
  | .list _ _ => listId

/-- What makes the length of the contents even. -/
def pad (length : Nat) : Bytes := if length % 2 = 1 then [0] else []

/-- A chunk's code, its size field, its contents and their pad. -/
def frame (id : FourCC) (contents : Bytes) : Bytes :=
  id.bytes ++ le32 contents.length ++ contents ++ pad contents.length

mutual

def Chunk.contents : Chunk → Bytes
  | .leaf _ data => data
  | .list form chunks => form.bytes ++ chunksBytes chunks

def chunksBytes : List Chunk → Bytes
  | [] => []
  | c :: cs => frame c.id c.contents ++ chunksBytes cs

end

def fileBytes (form : FourCC) (chunks : List Chunk) : Bytes :=
  riffId.bytes ++ le32 (4 + (chunksBytes chunks).length) ++ form.bytes ++ chunksBytes chunks

/-! ## Reading -/

/-- The chunk with this code and these contents; `read` reads the chunks in a list. -/
def chunkOf (read : Bytes → Option (List Chunk)) (id : FourCC) (contents : Bytes) : Option Chunk :=
  if hid : id ≠ listId then some (.leaf ⟨id, hid⟩ contents)
  else
    match contents with
    | a :: b :: c :: d :: body => (read body).map (.list ⟨a, b, c, d⟩)
    | _ => none

def parseChunks : Nat → Bytes → Option (List Chunk)
  | _, [] => some []
  | fuel + 1, a :: b :: c :: d :: e :: f :: g :: h :: rest =>
    let size := readLe32 e f g h
    let contents := rest.take size
    let padding := (rest.drop size).take (size % 2)
    if contents.length ≠ size ∨ padding ≠ pad size then none
    else
      match chunkOf (parseChunks fuel) ⟨a, b, c, d⟩ contents,
        parseChunks fuel (rest.drop (size + size % 2)) with
      | some chunk, some chunks => some (chunk :: chunks)
      | _, _ => none
  | _, _ => none

/-- The form and the chunks of a file. -/
def parse : Bytes → Option (FourCC × List Chunk)
  | a :: b :: c :: d :: e :: f :: g :: h :: rest =>
    if (⟨a, b, c, d⟩ : FourCC) = riffId ∧ readLe32 e f g h = rest.length then
      match rest with
      | a :: b :: c :: d :: body => (parseChunks body.length body).map (⟨a, b, c, d⟩, ·)
      | _ => none
    else none
  | _ => none

/-! ## The round trip -/

variable {n fuel : Nat} {form : FourCC} {chunks : List Chunk} {bytes rest : Bytes}

@[simp] theorem FourCC.bytes_length (id : FourCC) : id.bytes.length = 4 := rfl

@[simp] theorem le16_length (n : Nat) : (le16 n).length = 2 := rfl

@[simp] theorem le32_length (n : Nat) : (le32 n).length = 4 := rfl

theorem pad_length (n : Nat) : (pad n).length = n % 2 := by
  unfold pad
  split <;> simp only [List.length_nil, List.length_singleton] <;> omega

theorem readLe32_le32 (n : Nat) :
    readLe32 n.toUInt8 (n / 2 ^ 8).toUInt8 (n / 2 ^ 16).toUInt8 (n / 2 ^ 24).toUInt8 =
      n % 2 ^ 32 := by
  simp only [readLe32, Nat.toUInt8_eq, UInt8.toNat_ofNat']
  omega

theorem readLe32_lt (a b c d : UInt8) : readLe32 a b c d < 2 ^ 32 := by
  have ha := a.toNat_lt
  have hb := b.toNat_lt
  have hc := c.toNat_lt
  have hd := d.toNat_lt
  unfold readLe32
  omega

theorem frame_length (id : FourCC) (contents : Bytes) :
    (frame id contents).length = 8 + contents.length + contents.length % 2 := by
  simp only [frame, List.length_append, FourCC.bytes_length, le32_length, pad_length]

theorem frame_even (id : FourCC) (contents : Bytes) (h : contents.length % 2 = 0) :
    frame id contents = id.bytes ++ le32 contents.length ++ contents := by
  simp [frame, pad, h]

/-- Chunks take an even number of bytes. -/
theorem chunksBytes_even (chunks : List Chunk) : (chunksBytes chunks).length % 2 = 0 := by
  induction chunks with
  | nil => rfl
  | cons c cs ih =>
    rw [chunksBytes, List.length_append, frame_length]
    omega

/-- A chunk in front of other bytes, as the reader takes it apart. -/
theorem frame_append (id : FourCC) (contents rest : Bytes) :
    frame id contents ++ rest =
      id.a :: id.b :: id.c :: id.d :: contents.length.toUInt8 ::
        (contents.length / 2 ^ 8).toUInt8 :: (contents.length / 2 ^ 16).toUInt8 ::
        (contents.length / 2 ^ 24).toUInt8 :: (contents ++ (pad contents.length ++ rest)) := by
  simp [frame, FourCC.bytes, le32]

/-- The reader cuts contents, pad and rest where the size field says. -/
theorem cut_contents (contents rest : Bytes) :
    (contents ++ (pad contents.length ++ rest)).take contents.length = contents ∧
      ((contents ++ (pad contents.length ++ rest)).drop contents.length).take
        (contents.length % 2) = pad contents.length ∧
      (contents ++ (pad contents.length ++ rest)).drop
        (contents.length + contents.length % 2) = rest := by
  refine ⟨List.take_left, ?_, ?_⟩
  · rw [List.drop_left, List.take_left' (pad_length _)]
  · rw [← List.drop_drop, List.drop_left, List.drop_left' (pad_length _)]

/-- A chunk is read back if the chunks in it are. -/
theorem chunkOf_contents {read : Bytes → Option (List Chunk)} (c : Chunk)
    (h : ∀ form chunks, c = .list form chunks → read (chunksBytes chunks) = some chunks) :
    chunkOf read c.id c.contents = some c := by
  unfold chunkOf
  cases c with
  | leaf id data => simp [Chunk.id, Chunk.contents, id.2]
  | list form chunks => simp [Chunk.id, Chunk.contents, FourCC.bytes, h form chunks rfl]

/-- The reader at the start of a chunk. -/
theorem parseChunks_frame (id : FourCC) {contents : Bytes} (h : contents.length < 2 ^ 32)
    (rest : Bytes) :
    parseChunks (fuel + 1) (frame id contents ++ rest) =
      match chunkOf (parseChunks fuel) id contents, parseChunks fuel rest with
      | some chunk, some chunks => some (chunk :: chunks)
      | _, _ => none := by
  obtain ⟨hcut, hpad, hdrop⟩ := cut_contents contents rest
  rw [frame_append]
  obtain ⟨a, b, c, d⟩ := id
  simp only [parseChunks, readLe32_le32, Nat.mod_eq_of_lt h, hcut, hpad, hdrop, ne_eq, not_true,
    or_self, if_false]

/-- **Chunks whose sizes fit are read back.** -/
theorem parseChunks_chunksBytes (hfuel : (chunksBytes chunks).length ≤ fuel)
    (hfits : (chunksBytes chunks).length < 2 ^ 32 + 8) :
    parseChunks fuel (chunksBytes chunks) = some chunks := by
  induction fuel generalizing chunks with
  | zero =>
    cases chunks with
    | nil => rfl
    | cons c cs =>
      simp only [chunksBytes, List.length_append, frame_length] at hfuel
      omega
  | succ fuel ih =>
    cases chunks with
    | nil => rfl
    | cons c cs =>
      simp only [chunksBytes, List.length_append, frame_length] at hfuel hfits
      have hrest : parseChunks fuel (chunksBytes cs) = some cs := ih (by omega) (by omega)
      have hchunk : chunkOf (parseChunks fuel) c.id c.contents = some c := by
        refine chunkOf_contents c fun form chunks hc => ?_
        subst hc
        simp only [Chunk.contents, List.length_append, FourCC.bytes_length] at hfuel hfits
        exact ih (by omega) (by omega)
      rw [chunksBytes, parseChunks_frame c.id (by omega), hchunk, hrest]

theorem fileBytes_length (form : FourCC) (chunks : List Chunk) :
    (fileBytes form chunks).length = 12 + (chunksBytes chunks).length := by
  simp only [fileBytes, List.length_append, FourCC.bytes_length, le32_length]

/-- A file that is read has a length that fits its size field. -/
theorem length_of_parse {file : Bytes} {r : FourCC × List Chunk} (h : parse file = some r) :
    file.length < 2 ^ 32 + 8 := by
  unfold parse at h
  split at h
  · rename_i e f g k rest
    split at h
    · rename_i hsize
      have hlt := readLe32_lt e f g k
      simp only [List.length_cons]
      omega
    · cases h
  · cases h

/-- **A file is read back exactly if its length fits its own size field.** -/
theorem parse_fileBytes_iff (form : FourCC) (chunks : List Chunk) :
    parse (fileBytes form chunks) = some (form, chunks) ↔
      (fileBytes form chunks).length < 2 ^ 32 + 8 := by
  refine ⟨length_of_parse, fun h => ?_⟩
  have hread := readLe32_le32 (4 + (chunksBytes chunks).length)
  have hfile : fileBytes form chunks =
      riffId.a :: riffId.b :: riffId.c :: riffId.d :: (4 + (chunksBytes chunks).length).toUInt8 ::
        ((4 + (chunksBytes chunks).length) / 2 ^ 8).toUInt8 ::
        ((4 + (chunksBytes chunks).length) / 2 ^ 16).toUInt8 ::
        ((4 + (chunksBytes chunks).length) / 2 ^ 24).toUInt8 ::
        form.a :: form.b :: form.c :: form.d :: chunksBytes chunks := by
    simp [fileBytes, FourCC.bytes, le32]
  rw [fileBytes_length] at h
  rw [hfile]
  simp only [parse, hread, List.length_cons]
  rw [if_pos ⟨trivial, by omega⟩, parseChunks_chunksBytes (Nat.le_refl _) (by omega)]
  rfl

end Riff
