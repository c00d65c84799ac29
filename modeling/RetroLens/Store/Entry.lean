import RetroLens.Core.Frame
import RetroLens.Core.Preset
import RetroLens.Lib.Disk

/-!
# Photo entries and their files

The photo store's entries, the paths of an entry's three files, the check that
an entry names a complete set, and the text of `index.txt`.

A path is a directory of the card and a name in it. The buffers that the paths
are printed into hold every path whole, so only the buffers that a name is
copied through appear here.
-/

namespace RetroLens.Store

open Text Disk RetroLens.Core

def kMaxPhotoEntries : Nat := 48

inductive PhotoStorageState where
  | notConfigured | ready | invalidRoot | directoryFailed | insufficientSpace | indexFailed
  | writeProbeFailed | initializing
  deriving DecidableEq, Repr

inductive PhotoWriteStage where
  | none | encode | jpeg | sidecar | thumbnail | index | complete
  deriving DecidableEq, Repr

/-- `config_`, `photos_` and `thumbnails_`. -/
inductive Dir where
  | config | photos | thumbnails
  deriving DecidableEq, Repr

structure Path where
  dir : Dir
  name : Bytes
  deriving DecidableEq, Repr

abbrev CardWorld := World Path

/-- The path with `.tmp` after it. -/
def Path.temporary (p : Path) : Path := { p with name := p.name ++ ascii ".tmp" }

def settingsPath : Path := ⟨.config, ascii "settings.cfg"⟩
def indexPath : Path := ⟨.thumbnails, ascii "index.txt"⟩

structure PhotoEntry where
  timestampMs : Int64
  presetIndex : Int
  favorite : Bool
  filename : Bytes
  deriving DecidableEq, Repr

def photoPath (filename : Bytes) : Path := ⟨.photos, filename⟩

def sidecarPath (filename : Bytes) : Path :=
  ⟨.photos, dropExtension (filename.take 127) ++ ascii ".json"⟩

def thumbnailPath (filename : Bytes) : Path :=
  ⟨.thumbnails, dropExtension (filename.take 127) ++ ascii ".rgb"⟩

/-- The entries, oldest first; never more than `kMaxPhotoEntries`. -/
structure Entries where
  list : List PhotoEntry
  bound : list.length ≤ kMaxPhotoEntries
  deriving DecidableEq

namespace Entries

def empty : Entries := ⟨[], Nat.zero_le _⟩

def count (e : Entries) : Nat := e.list.length

/-- Drop the oldest entry when all places are taken, and append. -/
def addEntry (entry : PhotoEntry) (e : Entries) : Entries :=
  if h : e.list.length = kMaxPhotoEntries then
    ⟨e.list.drop 1 ++ [entry], by simp [h, kMaxPhotoEntries]⟩
  else ⟨e.list ++ [entry], by have := e.bound; simp; omega⟩

def erase (index : Nat) (e : Entries) : Entries :=
  ⟨e.list.eraseIdx index, Nat.le_trans (List.length_eraseIdx_le ..) e.bound⟩

/-- The entry that the next one drives out. -/
def evicted (e : Entries) : Option PhotoEntry :=
  if e.count = kMaxPhotoEntries then e.list.head? else none

/-- The place of the `newestIndex`-th newest entry. -/
def storageIndex (newestIndex : Int) (e : Entries) : Option Nat :=
  if newestIndex < 0 ∨ newestIndex ≥ e.count then none
  else some (e.count - 1 - newestIndex.toNat)

end Entries

/-! ## Checking an entry's files -/

/-- `exactSize` is `none` where any non-empty file will do. -/
def regularFileWithSize (card : Card Path) (path : Path) (exactSize : Option Nat) : Bool :=
  match card path with
  | none => false
  | some data =>
    match exactSize with
    | some n => data.length == n
    | none => 0 < data.length

def thumbnailSize : Nat := framePixels * 3

def validName (filename : Bytes) : Bool :=
  filename ≠ [] && !hasInfix filename (ascii "..") && !filename.contains 47 &&
    endsWith filename (ascii ".jpg")

def completeFiles (card : Card Path) (filename : Bytes) : Bool :=
  regularFileWithSize card (photoPath filename) none &&
    regularFileWithSize card (sidecarPath filename) none &&
    regularFileWithSize card (thumbnailPath filename) (some thumbnailSize)

def validateEntry (card : Card Path) (entry : PhotoEntry) : Bool :=
  validName entry.filename && completeFiles card entry.filename

/-! ## The index file -/

def favoriteText (favorite : Bool) : Bytes := if favorite then [49] else [48]

/-- An entry's line, without the line end. -/
def indexLine (e : PhotoEntry) : Bytes :=
  decimal e.timestampMs.toInt ++ 124 :: e.filename ++ 124 :: (presetAt e.presetIndex).id ++
    124 :: favoriteText e.favorite

def indexText (entries : List PhotoEntry) : Bytes :=
  entries.flatMap fun e => indexLine e ++ [10]

/-- The entry a line of `index.txt` stands for, if it is well formed and its files are complete. -/
def parseIndexLine (card : Card Path) (line : Bytes) : Option PhotoEntry :=
  match cut 124 (trimLine (cstring line)) with
  | none => none
  | some (stamp, rest) =>
    match cut 124 rest with
    | none => none
    | some (name, rest) =>
      match cut 124 rest with
      | none => none
      | some (preset, favorite) =>
        let entry : PhotoEntry :=
          { timestampMs := Int64.ofInt (strtoll stamp), filename := name.take 127
            presetIndex := findPreset preset, favorite := atoi favorite != 0 }
        if (presetAt entry.presetIndex).id = preset ∧ validateEntry card entry = true then
          some entry
        else none

/-- The lines of `index.txt`, as long as there is a place left: the entries, and
whether some line was not taken. -/
def loadLines (card : Card Path) : List Bytes → Entries → Bool → Entries × Bool
  | [], entries, needsRebuild => (entries, needsRebuild)
  | line :: lines, entries, needsRebuild =>
    if h : entries.list.length < kMaxPhotoEntries then
      match parseIndexLine card line with
      | none => loadLines card lines entries true
      | some entry =>
        loadLines card lines ⟨entries.list ++ [entry], by simp; omega⟩ needsRebuild
    else (entries, needsRebuild)

/-- A missing index is to be rebuilt. -/
def loadIndex (card : Card Path) : Entries × Bool :=
  match card indexPath with
  | none => (.empty, true)
  | some data => loadLines card (fgets 320 data) .empty false

end RetroLens.Store
