import RetroLens.Store.PhotoStore

/-!
# Starting the photo store

`initialize`: the root and directory checks, the write probe, the removal of
stale temporary files, and the index, loaded or rebuilt from the photo names.
-/

namespace RetroLens.Store

open Text Disk RetroLens.Core

structure InitPlan where
  base : Outcome := .done
  config : Outcome := .done
  photos : Outcome := .done
  thumbnails : Outcome := .done
  freeBytes : Int := -1
  /-- The stale probe files' unlinks. -/
  staleTemporary : Outcome := .done
  staleCompleted : Outcome := .done
  probe : FilePlan := {}
  /-- Reading the probe back. -/
  readBack : Outcome := .done
  probeTemporary : Outcome := .done
  probeCompleted : Outcome := .done
  /-- The names `readdir` gives in the three directories, with the outcome of an unlink. -/
  configNames : List (Bytes × Outcome) := []
  photoNames : List (Bytes × Outcome) := []
  thumbnailNames : List (Bytes × Outcome) := []
  /-- `opendir` of the photos, the names it gives, and the files' modification times. -/
  rebuildDir : Outcome := .done
  rebuildNames : List Bytes := []
  mtime : Bytes → Int := fun _ => 0
  index : FilePlan := {}

/-- `makeDirectory` of the four directories; the first failure ends it. -/
def makeDirectories : List Outcome → CardWorld → Bool × CardWorld
  | [], w => (true, w)
  | o :: os, w => if o.ok then makeDirectories os (w.note o) else (false, w.note o)

def cleanTemporaryFiles (dir : Dir) (names : List (Bytes × Outcome)) (w : CardWorld) : CardWorld :=
  (names.take 256).foldl (fun w item =>
    if endsWith item.1 (ascii ".tmp") then (w.unlink item.2 ⟨dir, item.1⟩).2 else w) w

/-! ## Rebuilding the index -/

/-- The first preset whose id stands before `_preview.jpg`. -/
def presetOfName (filename : Bytes) : Option Nat :=
  presets.findIdx? fun p => endsWith filename ((ascii "_" ++ p.id ++ ascii "_preview.jpg").take 95)

/-- The entry of a directory entry, if its name and its files are a photo's. -/
def photoOfName (card : Card Path) (mtime : Bytes → Int) (name : Bytes) : Option PhotoEntry :=
  let name := cstring name
  if !endsWith name (ascii "_preview.jpg") || name.contains 47 || hasInfix name (ascii "..") then
    none
  else
    let filename := name.take 127
    match presetOfName filename with
    | none => none
    | some preset =>
      let timestampMs :=
        if (card (photoPath filename)).isSome then Int64.ofInt (mtime filename * 1000) else 0
      let entry : PhotoEntry := { timestampMs, presetIndex := preset, favorite := false, filename }
      if validateEntry card entry then some entry else none

/-- The index of the first entry with the least timestamp; `best` stands at `at`. -/
def oldestFrom (best : Nat) (stamp : Int64) : Nat → List PhotoEntry → Nat
  | _, [] => best
  | i, e :: es =>
    if e.timestampMs < stamp then oldestFrom i e.timestampMs (i + 1) es
    else oldestFrom best stamp (i + 1) es

/-- Keep a photo: in a free place, or in the oldest one's. -/
def keepNewest (entry : PhotoEntry) (entries : Entries) : Entries :=
  if h : entries.list.length < kMaxPhotoEntries then
    ⟨entries.list ++ [entry], by simp; omega⟩
  else
    match entries.list with
    | [] => entries
    | first :: rest =>
      let oldest := oldestFrom 0 first.timestampMs 1 rest
      match entries.list[oldest]? with
      | none => entries
      | some e =>
        if e.timestampMs < entry.timestampMs then
          ⟨entries.list.set oldest entry, by rw [List.length_set]; exact entries.bound⟩
        else entries

/-- One pass of the exchange sort: the least of all goes first. -/
def exchangePass : PhotoEntry → List PhotoEntry → PhotoEntry × List PhotoEntry
  | x, [] => (x, [])
  | x, y :: ys =>
    if y.timestampMs < x.timestampMs then
      let r := exchangePass y ys
      (r.1, x :: r.2)
    else
      let r := exchangePass x ys
      (r.1, y :: r.2)

/-- The exchange sort, with at most `n` passes. -/
def exchangeSort : Nat → List PhotoEntry → List PhotoEntry
  | 0, l => l
  | _ + 1, [] => []
  | n + 1, x :: xs =>
    let r := exchangePass x xs
    r.1 :: exchangeSort n r.2

theorem exchangePass_perm (x : PhotoEntry) (l : List PhotoEntry) :
    ((exchangePass x l).1 :: (exchangePass x l).2).Perm (x :: l) := by
  induction l generalizing x with
  | nil => exact .refl _
  | cons y ys ih =>
    unfold exchangePass
    split
    · exact (List.Perm.swap ..).trans ((ih y).cons x)
    · exact (List.Perm.swap ..).trans (((ih x).cons y).trans (.swap ..))

theorem exchangePass_length (x : PhotoEntry) (l : List PhotoEntry) :
    (exchangePass x l).2.length = l.length := by
  have h := (exchangePass_perm x l).length_eq
  simpa using h

theorem exchangeSort_perm (n : Nat) (l : List PhotoEntry) : (exchangeSort n l).Perm l := by
  induction n generalizing l with
  | zero => exact .refl _
  | succ n ih =>
    cases l with
    | nil => exact .refl _
    | cons x xs => exact ((ih _).cons _).trans (exchangePass_perm x xs)

theorem exchangeSort_length (n : Nat) (l : List PhotoEntry) :
    (exchangeSort n l).length = l.length :=
  (exchangeSort_perm n l).length_eq

/-- The newest complete sets among the names, oldest first. -/
def scanPhotos (card : Card Path) (mtime : Bytes → Int) (names : List Bytes) : Entries :=
  let found := (names.take 512).foldl (fun entries name =>
    match photoOfName card mtime name with
    | none => entries
    | some entry => keepNewest entry entries) Entries.empty
  ⟨exchangeSort found.list.length found.list, by rw [exchangeSort_length]; exact found.bound⟩

def rebuildIndex (plan : InitPlan) (s : PhotoStore) (w : CardWorld) :
    Bool × PhotoStore × CardWorld :=
  if !plan.rebuildDir.ok then (false, { s with entries := .empty }, w.note plan.rebuildDir)
  else
    let s := { s with entries := scanPhotos w.card plan.mtime plan.rebuildNames }
    let r := saveIndex plan.index s w
    (r.1, s, r.2)

/-! ## The start -/

def probeValue : Bytes := ascii "RETROLENS STORAGE OK\n"
def probeCompleted : Path := ⟨.config, ascii "storage_probe.ok"⟩
def probeTemporary : Path := ⟨.config, ascii "storage_probe.tmp"⟩

/-- Write the probe, close it whatever `fwrite` returned, and put it in place. -/
def writeProbe (plan : InitPlan) (w : CardWorld) : Bool × CardWorld :=
  let o := w.fopen plan.probe.fopen probeTemporary
  if !o.1 then (false, o.2)
  else
    let data := if plan.probe.fwrite.ok then probeValue else plan.probe.torn
    let r := flushAndClose plan.probe probeTemporary data o.2
    if !(plan.probe.fwrite.ok && r.1) then (false, r.2)
    else
      let r := atomicReplace plan.probe probeTemporary probeCompleted r.2
      (r.1 && regularFileWithSize r.2.card probeCompleted (some probeValue.length), r.2)

/-- The first byte of the probe, read back. -/
def probeReadable (plan : InitPlan) (w : CardWorld) : Bool :=
  plan.readBack.ok && ((w.card probeCompleted).bind List.head?) == some 82

/-- `initialize` once the card can be written: clean up, load or rebuild the index. -/
def openIndex (plan : InitPlan) (s : PhotoStore) (w : CardWorld) : PhotoStore × CardWorld :=
  let w := cleanTemporaryFiles .config plan.configNames w
  let w := cleanTemporaryFiles .photos plan.photoNames w
  let w := cleanTemporaryFiles .thumbnails plan.thumbnailNames w
  let loaded := loadIndex w.card
  let s := { s with entries := loaded.1 }
  if loaded.2 then
    let r := rebuildIndex plan s w
    if r.1 then ({ r.2.1 with storageState := .ready }, r.2.2)
    else ({ r.2.1 with storageState := .indexFailed }, r.2.2)
  else ({ s with storageState := .ready }, w)

def initializeStore (plan : InitPlan) (s : PhotoStore) (w : CardWorld) : PhotoStore × CardWorld :=
  if s.root.head? ≠ some 47 || hasInfix s.root (ascii "..") then
    ({ s with storageState := .invalidRoot }, w)
  else
    let d := makeDirectories [plan.base, plan.config, plan.photos, plan.thumbnails] w
    if !d.1 then
      ({ s with lastError := d.2.errno, storageState := .directoryFailed }, d.2)
    else if insufficientSpace plan.freeBytes then
      ({ s with storageState := .insufficientSpace }, d.2)
    else
      let w := (d.2.unlink plan.staleTemporary probeTemporary).2
      let w := (w.unlink plan.staleCompleted probeCompleted).2
      let r := writeProbe plan w
      if !r.1 then
        let w := (r.2.unlink plan.probeTemporary probeTemporary).2
        ({ s with lastError := r.2.errno, storageState := .writeProbeFailed },
          (w.unlink plan.probeCompleted probeCompleted).2)
      else
        let readable := probeReadable plan r.2
        let w := ((r.2.note plan.readBack).unlink plan.probeCompleted probeCompleted).2
        if !readable then
          ({ s with lastError := w.errno, storageState := .writeProbeFailed }, w)
        else openIndex plan s w

end RetroLens.Store
