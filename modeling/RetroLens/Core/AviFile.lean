import RetroLens.Lib.Riff

/-!
# The movie as a RIFF file

The chunks of a movie with given frames, and what a file must be to be that
movie (`AviFile`): it parses, its movi list is the frames, its index has an
entry for each frame that finds it there, its two frame counts are right. The
bytes of these chunks are such a file exactly if their number fits the RIFF
size field (`aviFile_movie_iff`).
-/

namespace RetroLens.Core

open Text Riff

/-! ## Chunks of a movie -/

/-- The code of a text of four characters. -/
def cc (s : String) : FourCC :=
  match ascii s with
  | [a, b, c, d] => ⟨a, b, c, d⟩
  | _ => ⟨0, 0, 0, 0⟩

def avihId : {id : FourCC // id ≠ listId} := ⟨cc "avih", by decide⟩
def strhId : {id : FourCC // id ≠ listId} := ⟨cc "strh", by decide⟩
def strfId : {id : FourCC // id ≠ listId} := ⟨cc "strf", by decide⟩
def frameId : {id : FourCC // id ≠ listId} := ⟨cc "00dc", by decide⟩
def idx1Id : {id : FourCC // id ≠ listId} := ⟨cc "idx1", by decide⟩

def u16 (v : UInt16) : Bytes := le16 v.toNat
def u32 (v : UInt32) : Bytes := le32 v.toNat

/-- Before the frame count. -/
def avihHead (fps : Int) : Bytes := u32 (1000000 / .ofInt fps) ++ u32 0 ++ u32 0 ++ u32 0x10

/-- After it. -/
def avihTail (width height : Int) : Bytes :=
  u32 0 ++ u32 1 ++ u32 (.ofInt (width * height * 3)) ++ u32 (.ofInt width) ++
    u32 (.ofInt height) ++ List.replicate 16 0

def avihData (width height fps : Int) (frameCount : Nat) : Bytes :=
  avihHead fps ++ le32 frameCount ++ avihTail width height

def strhHead (fps : Int) : Bytes :=
  ascii "vids" ++ ascii "MJPG" ++ u32 0 ++ u16 0 ++ u16 0 ++ u32 0 ++ u32 1 ++ u32 (.ofInt fps) ++
    u32 0

def strhTail (width height : Int) : Bytes :=
  u32 (.ofInt (width * height * 3)) ++ u32 0xffffffff ++ u32 0 ++ u16 0 ++ u16 0 ++
    u16 (.ofInt width) ++ u16 (.ofInt height)

def strhData (width height fps : Int) (frameCount : Nat) : Bytes :=
  strhHead fps ++ le32 frameCount ++ strhTail width height

def strfData (width height : Int) : Bytes :=
  u32 40 ++ u32 (.ofInt width) ++ u32 (.ofInt height) ++ u16 1 ++ u16 24 ++ ascii "MJPG" ++
    u32 (.ofInt (width * height * 3)) ++ u32 0 ++ u32 0 ++ u32 0 ++ u32 0

/-- The index of frames the first of which is at `offset`. -/
def indexEntries (offset : Nat) : List Bytes → Bytes
  | [] => []
  | jpeg :: frames =>
    ascii "00dc" ++ u32 0x10 ++ le32 offset ++ le32 jpeg.length ++
      indexEntries (offset + (frame frameId jpeg).length) frames

def frameChunks (frames : List Bytes) : List Chunk := frames.map (.leaf frameId)

def movie (width height fps : Int) (frames : List Bytes) : List Chunk :=
  [.list (cc "hdrl")
    [.leaf avihId (avihData width height fps frames.length),
     .list (cc "strl")
      [.leaf strhId (strhData width height fps frames.length),
       .leaf strfId (strfData width height)]],
   .list (cc "movi") (frameChunks frames),
   .leaf idx1Id (indexEntries 4 frames)]

def movieBytes (width height fps : Int) (frames : List Bytes) : Bytes :=
  fileBytes (cc "AVI ") (movie width height fps frames)

/-! ## What a file must be -/

/-- The 32-bit field at `pos`. -/
def field (data : Bytes) (pos : Nat) : Option Nat :=
  match data.drop pos with
  | a :: b :: c :: d :: _ => some (readLe32 a b c d)
  | _ => none

/-- The `i`-th entry of the index finds the frame `jpeg` in the bytes of the movi list. -/
def Finds (index movi : Bytes) (i : Nat) (jpeg : Bytes) : Prop :=
  (index.drop (16 * i)).take 4 = ascii "00dc" ∧ field index (16 * i + 12) = some jpeg.length ∧
    ∃ offset, field index (16 * i + 8) = some offset ∧
      (movi.drop offset).take (8 + jpeg.length) = ascii "00dc" ++ le32 jpeg.length ++ jpeg

/-- The file is a movie of these frames. -/
structure AviFile (file : Bytes) (frames : List Bytes) : Prop where
  parses : ∃ avih strh strf index,
    parse file = some (cc "AVI ",
      [.list (cc "hdrl")
        [.leaf avihId avih, .list (cc "strl") [.leaf strhId strh, .leaf strfId strf]],
       .list (cc "movi") (frameChunks frames), .leaf idx1Id index]) ∧
    avih.length = 56 ∧ field avih 16 = some frames.length ∧
    strh.length = 56 ∧ field strh 32 = some frames.length ∧
    index.length = 16 * frames.length ∧
    ∀ i (_ : i < frames.length),
      Finds index (Chunk.list (cc "movi") (frameChunks frames)).contents i frames[i]

variable {width height fps : Int} {frames : List Bytes}

/-! ## The bytes of a movie -/

/-- A movie file up to its movi list, with the fields that are patched later, and what follows. -/
def aviBytes (width height fps : Int) (riff hdrl strl avihFrames strhFrames : Nat) (rest : Bytes) :
    Bytes :=
  ascii "RIFF" ++ (le32 riff ++ (ascii "AVI " ++ ascii "LIST" ++ (le32 hdrl ++
    (ascii "hdrl" ++ ascii "avih" ++ u32 56 ++ avihHead fps ++ (le32 avihFrames ++
      (avihTail width height ++ ascii "LIST" ++ (le32 strl ++
        (ascii "strl" ++ ascii "strh" ++ u32 56 ++ strhHead fps ++ (le32 strhFrames ++
          (strhTail width height ++ ascii "strf" ++ u32 40 ++ strfData width height ++
            rest))))))))))

section

variable {riff hdrl strl avihFrames strhFrames : Nat} {rest : Bytes}

theorem aviBytes_append (a b : Bytes) :
    aviBytes width height fps riff hdrl strl avihFrames strhFrames (a ++ b) =
      aviBytes width height fps riff hdrl strl avihFrames strhFrames a ++ b := by
  simp only [aviBytes, List.append_assoc]

theorem aviBytes_nil_length :
    (aviBytes width height fps riff hdrl strl avihFrames strhFrames []).length = 212 := by
  have hlist : (ascii "AVI " ++ ascii "LIST").length = 8 := rfl
  have havih : (ascii "hdrl" ++ ascii "avih" ++ u32 56 ++ avihHead fps).length = 28 := rfl
  have hstrl : (avihTail width height ++ ascii "LIST").length = 40 := rfl
  have hstrh : (ascii "strl" ++ ascii "strh" ++ u32 56 ++ strhHead fps).length = 44 := rfl
  have hstrf : (strhTail width height ++ ascii "strf" ++ u32 40 ++
    strfData width height).length = 68 := rfl
  rw [aviBytes, List.length_append, List.length_append, List.length_append, hlist,
    List.length_append, List.length_append, havih, List.length_append, List.length_append, hstrl,
    List.length_append, List.length_append, hstrh, List.length_append, List.append_nil, hstrf]
  rfl

theorem aviBytes_length : (aviBytes width height fps riff hdrl strl avihFrames strhFrames
    rest).length = 212 + rest.length := by
  rw [← List.nil_append rest, aviBytes_append, List.length_append, aviBytes_nil_length,
    List.nil_append]

end

theorem frameChunks_append (a b : List Bytes) :
    chunksBytes (frameChunks (a ++ b)) =
      chunksBytes (frameChunks a) ++ chunksBytes (frameChunks b) := by
  induction a with
  | nil => rfl
  | cons jpeg a ih =>
    simp only [frameChunks, List.map_cons, List.cons_append, chunksBytes, List.append_assoc] at ih ⊢
    rw [ih]

theorem frameChunks_singleton (jpeg : Bytes) :
    chunksBytes (frameChunks [jpeg]) = frame frameId jpeg := by
  simp [frameChunks, chunksBytes, Chunk.id, Chunk.contents]

theorem indexEntries_append (offset : Nat) (a b : List Bytes) :
    indexEntries offset (a ++ b) = indexEntries offset a ++
      indexEntries (offset + (chunksBytes (frameChunks a)).length) b := by
  induction a generalizing offset with
  | nil => simp [indexEntries, frameChunks, chunksBytes]
  | cons jpeg a ih =>
    have hlen : (chunksBytes (frameChunks (jpeg :: a))).length =
        (frame frameId jpeg).length + (chunksBytes (frameChunks a)).length := by
      rw [← List.singleton_append, frameChunks_append, frameChunks_singleton, List.length_append]
    simp only [List.cons_append, indexEntries, ih, hlen, List.append_assoc, Nat.add_assoc]

theorem indexEntries_length (offset : Nat) (frames : List Bytes) :
    (indexEntries offset frames).length = 16 * frames.length := by
  induction frames generalizing offset with
  | nil => rfl
  | cons jpeg frames ih =>
    have hhead : (ascii "00dc" ++ u32 0x10 ++ le32 offset ++ le32 jpeg.length).length = 16 := rfl
    rw [indexEntries, List.length_append, hhead, ih, List.length_cons]
    omega

theorem list_frame (form : FourCC) (chunks : List Chunk) :
    frame listId (Chunk.list form chunks).contents =
      ascii "LIST" ++ (le32 (4 + (chunksBytes chunks).length) ++
        (form.bytes ++ chunksBytes chunks)) := by
  have heven := chunksBytes_even chunks
  have hid : listId.bytes = ascii "LIST" := rfl
  rw [Chunk.contents, frame_even _ _ (by rw [List.length_append, FourCC.bytes_length]; omega), hid,
    List.length_append, FourCC.bytes_length]
  simp only [List.append_assoc]

/-- The movie as `finish` writes it. -/
theorem movieBytes_eq (width height fps : Int) (frames : List Bytes) :
    movieBytes width height fps frames =
      aviBytes width height fps (4 + (chunksBytes (movie width height fps frames)).length) 192 116
        frames.length frames.length
        (ascii "LIST" ++ (le32 (4 + (chunksBytes (frameChunks frames)).length) ++
          (ascii "movi" ++ chunksBytes (frameChunks frames) ++
            (ascii "idx1" ++ le32 (frames.length * 16) ++ indexEntries 4 frames)))) := by
  have havih : frame avihId (avihData width height fps frames.length) =
      ascii "avih" ++ u32 56 ++ avihData width height fps frames.length := by
    have hlen : (avihData width height fps frames.length).length = 56 := rfl
    rw [frame_even _ _ (by rw [hlen]), hlen]
    rfl
  have hstrh : frame strhId (strhData width height fps frames.length) =
      ascii "strh" ++ u32 56 ++ strhData width height fps frames.length := by
    have hlen : (strhData width height fps frames.length).length = 56 := rfl
    rw [frame_even _ _ (by rw [hlen]), hlen]
    rfl
  have hstrf : frame strfId (strfData width height) =
      ascii "strf" ++ u32 40 ++ strfData width height := by
    have hlen : (strfData width height).length = 40 := rfl
    rw [frame_even _ _ (by rw [hlen]), hlen]
    rfl
  have hidx1 : frame idx1Id (indexEntries 4 frames) =
      ascii "idx1" ++ le32 (frames.length * 16) ++ indexEntries 4 frames := by
    have hlen := indexEntries_length 4 frames
    rw [frame_even _ _ (by omega), hlen, Nat.mul_comm]
    rfl
  rw [movieBytes, fileBytes]
  generalize 4 + (chunksBytes (movie width height fps frames)).length = riff
  have hstrl : 4 + (ascii "strh" ++ u32 56 ++ strhData width height fps frames.length ++
      (ascii "strf" ++ u32 40 ++ strfData width height)).length = 116 := rfl
  have hhdrl : 4 + (ascii "avih" ++ u32 56 ++ avihData width height fps frames.length ++
      (ascii "LIST" ++ (le32 116 ++ ((cc "strl").bytes ++
        (ascii "strh" ++ u32 56 ++ strhData width height fps frames.length ++
          (ascii "strf" ++ u32 40 ++ strfData width height)))))).length = 192 := rfl
  simp only [movie, chunksBytes, Chunk.id, list_frame]
  simp only [Chunk.contents, havih, hstrh, hstrf, hidx1, List.append_nil, hstrl, hhdrl]
  have hcc : riffId.bytes = ascii "RIFF" ∧ (cc "AVI ").bytes = ascii "AVI " ∧
      (cc "hdrl").bytes = ascii "hdrl" ∧ (cc "strl").bytes = ascii "strl" ∧
      (cc "movi").bytes = ascii "movi" := ⟨rfl, rfl, rfl, rfl, rfl⟩
  simp only [hcc, aviBytes, avihData, strhData, List.append_assoc]

/-! ## When the movie is well formed -/

/-- The length of a movie file of these frames. -/
def movieLength (frames : List Bytes) : Nat :=
  232 + (frames.map fun jpeg => 24 + jpeg.length + jpeg.length % 2).sum

theorem frameChunks_length (frames : List Bytes) :
    (chunksBytes (frameChunks frames)).length + 16 * frames.length =
      (frames.map fun jpeg => 24 + jpeg.length + jpeg.length % 2).sum := by
  induction frames with
  | nil => rfl
  | cons jpeg frames ih =>
    rw [← List.singleton_append, frameChunks_append, frameChunks_singleton, List.length_append,
      frame_length, List.length_append, List.length_singleton, List.map_append, List.sum_append,
      ← ih, List.map_singleton, List.sum_singleton]
    omega

theorem movieBytes_length (width height fps : Int) (frames : List Bytes) :
    (movieBytes width height fps frames).length = movieLength frames := by
  have hlist : (ascii "LIST").length = 4 ∧ (ascii "movi").length = 4 ∧ (ascii "idx1").length = 4 :=
    ⟨rfl, rfl, rfl⟩
  have hchunks := frameChunks_length frames
  rw [movieBytes_eq, aviBytes_length, movieLength]
  simp only [List.length_append, le32_length, indexEntries_length, hlist]
  omega

theorem field_append (a : Bytes) {n pos : Nat} (b : Bytes) (hpos : pos = a.length)
    (hn : n < 2 ^ 32) : field (a ++ (le32 n ++ b)) pos = some n := by
  subst hpos
  rw [field, List.drop_left]
  simp only [le32, List.cons_append, List.nil_append, readLe32_le32, Nat.mod_eq_of_lt hn]

/-- The frames before one, the one, and the frames after it. -/
theorem frameChunks_middle (pre : List Bytes) (jpeg : Bytes) (post : List Bytes) :
    chunksBytes (frameChunks (pre ++ jpeg :: post)) = chunksBytes (frameChunks pre) ++
      (ascii "00dc" ++ le32 jpeg.length ++ jpeg ++
        (pad jpeg.length ++ chunksBytes (frameChunks post))) := by
  have hid : frameId.1.bytes = ascii "00dc" := rfl
  rw [← List.singleton_append, frameChunks_append, frameChunks_append, frameChunks_singleton,
    frame, hid]
  simp only [List.append_assoc]

/-- The index finds a frame behind others. -/
theorem finds_frame (pre : List Bytes) (jpeg : Bytes) (post : List Bytes)
    (hfits : (chunksBytes (frameChunks (pre ++ jpeg :: post))).length + 4 < 2 ^ 32) :
    Finds (indexEntries 4 (pre ++ jpeg :: post))
      (Chunk.list (cc "movi") (frameChunks (pre ++ jpeg :: post))).contents pre.length jpeg := by
  have hpre := indexEntries_length 4 pre
  have hentry : indexEntries 4 (pre ++ jpeg :: post) = indexEntries 4 pre ++
      (ascii "00dc" ++ u32 0x10 ++ le32 (4 + (chunksBytes (frameChunks pre)).length) ++
        le32 jpeg.length ++ indexEntries (4 + (chunksBytes (frameChunks pre)).length +
          (frame frameId jpeg).length) post) := by
    rw [indexEntries_append]
    rfl
  have hfourcc : (ascii "00dc").length = 4 := rfl
  have hflags : (u32 0x10).length = 4 := rfl
  have hmovi : (ascii "movi").length = 4 := rfl
  rw [frameChunks_middle] at hfits
  simp only [List.length_append, le32_length, hfourcc] at hfits
  refine ⟨?_, ?_, 4 + (chunksBytes (frameChunks pre)).length, ?_, ?_⟩
  · rw [hentry, List.drop_left' hpre]
    rfl
  · rw [hentry, List.append_assoc _ (le32 jpeg.length), ← List.append_assoc]
    refine field_append _ _ ?_ (by omega)
    simp only [List.length_append, le32_length, hfourcc, hflags, hpre]
  · rw [hentry, List.append_assoc _ (le32 jpeg.length), List.append_assoc _ (le32 (4 + _)),
      ← List.append_assoc]
    refine field_append _ _ ?_ (by omega)
    simp only [List.length_append, hfourcc, hflags, hpre]
  · have hcontents : (Chunk.list (cc "movi") (frameChunks (pre ++ jpeg :: post))).contents =
        (ascii "movi" ++ chunksBytes (frameChunks pre)) ++
          (ascii "00dc" ++ le32 jpeg.length ++ jpeg ++
            (pad jpeg.length ++ chunksBytes (frameChunks post))) := by
      rw [Chunk.contents, frameChunks_middle, List.append_assoc]
      rfl
    rw [hcontents, List.drop_left' (by rw [List.length_append, hmovi])]
    exact List.take_left' (by simp only [List.length_append, le32_length, hfourcc])

/-- **A movie's bytes are a movie file exactly if their number fits the RIFF size field.** -/
theorem aviFile_movie_iff (width height fps : Int) (frames : List Bytes) :
    AviFile (movieBytes width height fps frames) frames ↔ movieLength frames < 2 ^ 32 + 8 := by
  constructor
  · rintro ⟨_, _, _, _, hparse, -⟩
    rw [← movieBytes_length width height fps]
    exact length_of_parse hparse
  · intro hfits
    have hchunks := frameChunks_length frames
    have hcount : frames.length < 2 ^ 32 := by
      unfold movieLength at hfits
      omega
    refine ⟨_, _, _, _, (parse_fileBytes_iff _ _).2 ?_, rfl, ?_, rfl, ?_, ?_, ?_⟩
    · rwa [← movieBytes_length width height fps] at hfits
    · exact (congrArg (field · 16) (List.append_assoc _ _ _)).trans (field_append _ _ rfl hcount)
    · exact (congrArg (field · 32) (List.append_assoc _ _ _)).trans (field_append _ _ rfl hcount)
    · exact indexEntries_length 4 frames
    · intro i hi
      have hsplit : frames = frames.take i ++ frames[i] :: frames.drop (i + 1) := by
        rw [List.getElem_cons_drop, List.take_append_drop]
      have hi' : (frames.take i).length = i := List.length_take_of_le (Nat.le_of_lt hi)
      have hfinds := finds_frame (frames.take i) frames[i] (frames.drop (i + 1))
      rw [← hsplit, hi'] at hfinds
      apply hfinds
      unfold movieLength at hfits
      omega

end RetroLens.Core
