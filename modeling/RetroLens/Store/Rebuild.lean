import RetroLens.Store.Opened

/-!
# What a rebuilt index lists

Said of the names and the card, with no word of the scan: the sets that can be
listed (`photoSet`), a list of the newest of them (`Newest`) that is complete
and free of repeats (`Counted`). `rebuildIndex` lists the newest sets; it lists
each once, and as many as it can, unless a name too long for an entry begins
with the name of a set.
-/

namespace RetroLens.Store

open Text Disk RetroLens.Core Selection

def presetSuffix (p : Preset) : Bytes := ascii "_" ++ p.id ++ ascii "_preview.jpg"

/-- The name ends in `_<id>_preview.jpg`, with the id of the `k`-th preset. -/
def Carries (name : Bytes) (k : Nat) : Prop :=
  ∃ p, presets[k]? = some p ∧ presetSuffix p <:+ name

def matchesPreset (name : Bytes) : Bool := presets.any fun p => endsWith name (presetSuffix p)

/-- A complete set whose name fits an entry and passes the check. -/
def photoSet (card : Card Path) (name : Bytes) : Bool :=
  name.length ≤ 127 && !hasInfix name (ascii "..") && matchesPreset name && completeFiles card name

def stampOf (mtime : Bytes → Int) (name : Bytes) : Int64 := Int64.ofInt (mtime name * 1000)

/-- Names that `readdir` can give, of at most 512 entries. -/
structure Listing (names : List Bytes) : Prop where
  length : names.length ≤ 512
  once : names.Nodup
  bytes : ∀ name ∈ names, ∀ c ∈ name, c ≠ 0 ∧ c ≠ 47

/-- What is listed are sets, oldest first, and none that is left out is newer. -/
structure Newest (set : Bytes → Bool) (mtime : Bytes → Int) (names : List Bytes)
    (listed : List PhotoEntry) : Prop where
  sorted : listed.Pairwise fun a b => a.timestampMs ≤ b.timestampMs
  sets : ∀ e ∈ listed, set e.filename = true ∧ e.timestampMs = stampOf mtime e.filename ∧
    ∀ k : Nat, Carries e.filename k ↔ e.presetIndex = k
  left_out : ∀ name ∈ names, set name = true → name ∉ listed.map (·.filename) →
    ∀ e ∈ listed, stampOf mtime name ≤ e.timestampMs

/-- The sets among the names are listed once each, as many as there is place for. -/
structure Counted (set : Bytes → Bool) (names : List Bytes) (listed : List PhotoEntry) :
    Prop where
  count : listed.length = min 48 (names.countP set)
  once : (listed.map (·.filename)).Nodup
  names : ∀ e ∈ listed, e.filename ∈ names

/-- No name that is cut off to fit an entry becomes the name of a set. -/
def NoneCutToSet (card : Card Path) (names : List Bytes) : Prop :=
  ∀ name ∈ names, 127 < name.length → endsWith name (ascii "_preview.jpg") = true →
    photoSet card (name.take 127) = false

variable {card : Card Path} {mtime : Bytes → Int} {names : List Bytes} {name : Bytes}
  {e : PhotoEntry} {i j k : Nat}

/-! ## The preset of a name -/

/-- No `_<id>` ends in another one: read backwards, none begins with another. -/
theorem presetIds_apart : (presets.map fun p => (ascii "_" ++ p.id).reverse).Pairwise
    fun a b => a.isPrefixOf b = false ∧ b.isPrefixOf a = false := by
  decide +kernel

theorem presetSuffix_take : ∀ p ∈ presets, (presetSuffix p).take 95 = presetSuffix p := by
  decide +kernel

theorem presetSuffix_preview (p : Preset) : ascii "_preview.jpg" <:+ presetSuffix p := ⟨_, rfl⟩

/-- A name carries one preset. -/
theorem Carries.unique (hi : Carries name i) (hj : Carries name j) : i = j := by
  obtain ⟨p, hp, hps⟩ := hi
  obtain ⟨q, hq, hqs⟩ := hj
  obtain ⟨hil, rfl⟩ := List.getElem?_eq_some_iff.1 hp
  obtain ⟨hjl, rfl⟩ := List.getElem?_eq_some_iff.1 hq
  have hor := List.suffix_or_suffix_of_suffix hps hqs
  unfold presetSuffix at hor
  rw [List.suffix_append_self_iff, List.suffix_append_self_iff] at hor
  simp only [← List.reverse_prefix, ← List.isPrefixOf_iff_prefix] at hor
  have hapart := List.pairwise_iff_getElem.1 presetIds_apart
  simp only [List.length_map, List.getElem_map] at hapart
  rcases Nat.lt_trichotomy i j with hlt | heq | hgt
  · obtain ⟨hij, hji⟩ := hapart i j hil hjl hlt
    simp only [hij, hji, Bool.false_eq_true, or_self] at hor
  · exact heq
  · obtain ⟨hji, hij⟩ := hapart j i hjl hil hgt
    simp only [hij, hji, Bool.false_eq_true, or_self] at hor

theorem presetOfName_iff : presetOfName name = some k ↔ Carries name k := by
  have htake (p : Preset) (hp : p ∈ presets) :
      endsWith name ((ascii "_" ++ p.id ++ ascii "_preview.jpg").take 95) = true ↔
        presetSuffix p <:+ name := by
    rw [endsWith, List.isSuffixOf_iff_suffix, ← presetSuffix_take p hp]
    rfl
  have hcarries {k : Nat} (h : presetOfName name = some k) : Carries name k := by
    obtain ⟨hk, hends, -⟩ := List.findIdx?_eq_some_iff_getElem.1 h
    exact ⟨presets[k], List.getElem?_eq_getElem hk, (htake _ (List.getElem_mem hk)).1 hends⟩
  refine ⟨hcarries, fun h => ?_⟩
  cases hp : presetOfName name with
  | none =>
    obtain ⟨p, hk, hends⟩ := h
    have hmem := List.mem_of_getElem? hk
    have := List.findIdx?_eq_none_iff.1 hp p hmem
    rw [(htake p hmem).2 hends] at this
    cases this
  | some j => rw [h.unique (hcarries hp)]

theorem matchesPreset_iff : matchesPreset name = true ↔ ∃ k, Carries name k := by
  simp only [matchesPreset, List.any_eq_true, endsWith, List.isSuffixOf_iff_suffix, Carries,
    List.mem_iff_getElem?]
  constructor
  · rintro ⟨p, ⟨k, hk⟩, hp⟩
    exact ⟨k, p, hk, hp⟩
  · rintro ⟨k, p, hk, hp⟩
    exact ⟨p, ⟨k, hk⟩, hp⟩

theorem Carries.preview (h : Carries name k) : ascii "_preview.jpg" <:+ name := by
  obtain ⟨p, -, hp⟩ := h
  exact (presetSuffix_preview p).trans hp

/-! ## The entry of a name -/

def rebuilt (mtime : Bytes → Int) (filename : Bytes) (k : Nat) : PhotoEntry :=
  { timestampMs := stampOf mtime filename, presetIndex := k, favorite := false, filename }

theorem photoSet_iff : photoSet card name = true ↔
    name.length ≤ 127 ∧ hasInfix name (ascii "..") = false ∧ (∃ k, Carries name k) ∧
      completeFiles card name = true := by
  simp only [photoSet, Bool.and_eq_true, decide_eq_true_eq, Bool.not_eq_true', matchesPreset_iff,
    and_assoc]

theorem validName_iff (hpreview : ascii "_preview.jpg" <:+ name) (hslash : ∀ c ∈ name, c ≠ 47) :
    validName name = true ↔ hasInfix name (ascii "..") = false := by
  have hne : name ≠ [] := by
    rintro rfl
    have := hpreview.length_le
    exact absurd this (by decide)
  have hjpg : endsWith name (ascii ".jpg") = true := by
    rw [endsWith, List.isSuffixOf_iff_suffix]
    exact List.IsSuffix.trans ⟨ascii "_preview", rfl⟩ hpreview
  have hmem : 47 ∉ name := fun h => hslash 47 h rfl
  simp [validName, hne, hjpg, hmem]

/-- The entry of a name is that of its first 127 bytes, if they name a set. -/
theorem photoOfName_iff (hb : ∀ c ∈ name, c ≠ 0 ∧ c ≠ 47) :
    photoOfName card mtime name = some e ↔
      endsWith name (ascii "_preview.jpg") = true ∧ hasInfix name (ascii "..") = false ∧
        photoSet card (name.take 127) = true ∧
        ∃ k, Carries (name.take 127) k ∧ e = rebuilt mtime (name.take 127) k := by
  have hcstring : cstring name = name := cstring_plain fun c hc => (hb c hc).1
  have hcontains : name.contains 47 = false := by
    rw [List.contains_eq_mem, decide_eq_false_iff_not]
    exact fun h => (hb 47 h).2 rfl
  have hslash : ∀ c ∈ name.take 127, c ≠ 47 := fun c hc => (hb c (List.mem_of_mem_take hc)).2
  unfold photoOfName
  dsimp only
  rw [hcstring, hcontains]
  generalize hfile : name.take 127 = filename at hslash ⊢
  have hlength : filename.length ≤ 127 := hfile ▸ List.length_take_le ..
  have hvalidate (stamp : Int64) (k : Nat) :
      validateEntry card { timestampMs := stamp, presetIndex := k, favorite := false, filename } =
        (validName filename && completeFiles card filename) := rfl
  by_cases hends : endsWith name (ascii "_preview.jpg") = true
  swap
  · simp [hends]
  by_cases hdots : hasInfix name (ascii "..") = false
  swap
  · simp [hdots]
  rw [hends, hdots, if_neg (by decide)]
  cases hp : presetOfName filename with
  | none =>
    have hnone (k : Nat) : ¬ Carries filename k := fun hk => by
      rw [presetOfName_iff.2 hk] at hp
      cases hp
    simp [hnone]
  | some preset =>
    have hk := presetOfName_iff.1 hp
    have hset : photoSet card filename = (validName filename && completeFiles card filename) := by
      rw [Bool.eq_iff_iff, photoSet_iff, Bool.and_eq_true, validName_iff hk.preview hslash]
      exact ⟨fun h => ⟨h.2.1, h.2.2.2⟩, fun h => ⟨hlength, h.1, ⟨_, hk⟩, h.2⟩⟩
    dsimp only
    rw [hvalidate, ← hset]
    by_cases hs : photoSet card filename = true
    · have hfiles := photo_of_complete (photoSet_iff.1 hs).2.2.2
      rw [if_pos hs, if_pos (Option.isSome_iff_ne_none.2 hfiles)]
      refine ⟨fun h => ⟨rfl, rfl, hs, preset, hk, (Option.some.inj h).symm⟩, ?_⟩
      rintro ⟨-, -, -, k, hc, rfl⟩
      rw [hc.unique hk]
      rfl
    · simp [hs]

theorem photoOfName_set (mtime : Bytes → Int) (hb : ∀ c ∈ name, c ≠ 0 ∧ c ≠ 47)
    (hs : photoSet card name = true) :
    ∃ k, photoOfName card mtime name = some (rebuilt mtime name k) := by
  obtain ⟨hlength, hdots, ⟨k, hk⟩, -⟩ := photoSet_iff.1 hs
  have htake : name.take 127 = name := List.take_of_length_le hlength
  refine ⟨k, (photoOfName_iff hb).2 ⟨?_, hdots, ?_, k, ?_, ?_⟩⟩
  · rw [endsWith, List.isSuffixOf_iff_suffix]
    exact hk.preview
  · rwa [htake]
  · rwa [htake]
  · rw [htake]

/-- Where no name is cut to a set's, the names that give an entry are the sets. -/
theorem photosOf_filename (mtime : Bytes → Int) (hl : Listing names)
    (hcut : NoneCutToSet card names) :
    (photosOf card mtime names).map (·.filename) = names.filter (photoSet card) := by
  rw [photosOf, List.take_of_length_le hl.length, List.map_filterMap, ← List.filterMap_eq_filter]
  refine List.filterMap_congr fun name hname => ?_
  have hb := hl.bytes name hname
  by_cases hs : photoSet card name = true
  · obtain ⟨k, hk⟩ := photoOfName_set mtime hb hs
    rw [hk, Option.guard_apply, if_pos hs]
    rfl
  · rw [Option.guard_apply, if_neg hs]
    cases hp : photoOfName card mtime name with
    | none => rfl
    | some e =>
      obtain ⟨hends, -, hset, -⟩ := (photoOfName_iff hb).1 hp
      rcases Nat.lt_or_ge 127 name.length with hlong | hfits
      · rw [hcut name hname hlong hends] at hset
        cases hset
      · rw [List.take_of_length_le hfits] at hset
        exact absurd hset hs

/-! ## The list -/

theorem scanPhotos_newest (hl : Listing names) :
    Newest (photoSet card) mtime names (scanPhotos card mtime names).list where
  sorted := (scanPhotos_sorted card mtime names).imp Int64.le_iff_toInt_le.2
  sets e he := by
    obtain ⟨name, hname, hp⟩ := mem_scanPhotos he
    obtain ⟨-, -, hset, k, hk, rfl⟩ := (photoOfName_iff (hl.bytes name hname)).1 hp
    refine ⟨hset, rfl, fun j => ⟨fun hj => ?_, fun hj => ?_⟩⟩
    · rw [hj.unique hk]
      rfl
    · rwa [← Int.ofNat.inj hj]
  left_out name hname hs hnot e he := by
    obtain ⟨k, hk⟩ := photoOfName_set mtime (hl.bytes name hname) hs
    have hseen : rebuilt mtime name k ∈ photosOf card mtime names := by
      rw [photosOf, List.take_of_length_le hl.length]
      exact List.mem_filterMap.2 ⟨name, hname, hk⟩
    have hleft := (scanPhotos_largest card mtime names).left_out hseen
      (fun h => hnot (List.mem_map_of_mem h)) he
    exact Int64.le_iff_toInt_le.2 hleft

theorem scanPhotos_counted (hl : Listing names) (hcut : NoneCutToSet card names) :
    Counted (photoSet card) names (scanPhotos card mtime names).list := by
  have hlargest := scanPhotos_largest card mtime names
  have hnames := photosOf_filename mtime hl hcut
  refine ⟨?_, hlargest.nodup_map ?_, fun e he => ?_⟩
  · have hlength := congrArg List.length hnames
    rw [List.length_map, ← List.countP_eq_length_filter] at hlength
    rw [hlargest.length, hlength]
    rfl
  · rw [hnames]
    exact hl.once.filter _
  · have hmem := List.mem_map_of_mem (f := (·.filename)) (hlargest.subset he)
    rw [hnames] at hmem
    exact List.mem_of_mem_filter hmem

/-! ## Cards of whole sets -/

/-- The JPEG, the sidecar and the thumbnail of a name of any length. -/
def wholeSet (card : Card Path) (name : Bytes) : Bool :=
  regularFileWithSize card (photoPath name) none &&
    regularFileWithSize card ⟨.photos, dropExtension name ++ ascii ".json"⟩ none &&
    regularFileWithSize card ⟨.thumbnails, dropExtension name ++ ascii ".rgb"⟩ (some thumbnailSize)

theorem wholeSet_fits (h : name.length ≤ 127) : wholeSet card name = completeFiles card name := by
  rw [completeFiles, sidecarPath, thumbnailPath, List.take_of_length_le h]
  rfl

/-- What the directory of photos holds when it holds the whole sets of these names. -/
def photoNames (ns : List Bytes) : List Bytes := ns ++ ns.map (dropExtension · ++ ascii ".json")

/-- A card with the whole sets of these names and nothing else. -/
def setsCard (ns : List Bytes) : Card Path := fun p =>
  match p.dir with
  | .config => none
  | .photos => if p.name ∈ photoNames ns then some [1] else none
  | .thumbnails =>
    if p.name ∈ ns.map (dropExtension · ++ ascii ".rgb") then
      some (List.replicate thumbnailSize 0)
    else none

theorem setsCard_whole {ns : List Bytes} (h : name ∈ ns) : wholeSet (setsCard ns) name = true := by
  have hphoto : setsCard ns (photoPath name) = some [1] := if_pos (List.mem_append_left _ h)
  have hsidecar : setsCard ns ⟨.photos, dropExtension name ++ ascii ".json"⟩ = some [1] :=
    if_pos (List.mem_append_right _
      (List.mem_map_of_mem (f := (dropExtension · ++ ascii ".json")) h))
  have hthumbnail : setsCard ns ⟨.thumbnails, dropExtension name ++ ascii ".rgb"⟩ =
      some (List.replicate thumbnailSize 0) :=
    if_pos (List.mem_map_of_mem (f := (dropExtension · ++ ascii ".rgb")) h)
  simp [wholeSet, regularFileWithSize, hphoto, hsidecar, hthumbnail]

def setsPlan (ns : List Bytes) (mtime : Bytes → Int) : InitPlan :=
  { rebuildNames := photoNames ns, mtime }

theorem rebuildIndex_sets (ns : List Bytes) (mtime : Bytes → Int) (s : PhotoStore) :
    (rebuildIndex (setsPlan ns mtime) s { card := setsCard ns }).1 = true ∧
      (rebuildIndex (setsPlan ns mtime) s { card := setsCard ns }).2.1.entries =
        scanPhotos (setsCard ns) mtime (photoNames ns) :=
  ⟨(replaceText_spec ..).1.trans rfl, rfl⟩

/-! ## The rebuilt index -/

/-- **A rebuilt index lists the newest sets, oldest first**; each once, and as many as there is
place for, where no name is cut to a set's. -/
theorem rebuildIndex_newest (plan : InitPlan) (s : PhotoStore) (w : CardWorld)
    (hl : Listing plan.rebuildNames) (h : (rebuildIndex plan s w).1 = true) :
    Newest (photoSet w.card) plan.mtime plan.rebuildNames
        (rebuildIndex plan s w).2.1.entries.list ∧
      (NoneCutToSet w.card plan.rebuildNames →
        Counted (photoSet w.card) plan.rebuildNames
          (rebuildIndex plan s w).2.1.entries.list) := by
  unfold rebuildIndex at h ⊢
  split at h
  · cases h
  rename_i hdir
  rw [if_neg hdir]
  exact ⟨scanPhotos_newest hl, scanPhotos_counted hl⟩

def plainSet : List Bytes := [ascii "a_olive_pocket_preview.jpg", ascii "b_virtual_red_preview.jpg"]

theorem plainSet_listing : Listing (photoNames plainSet) where
  length := by decide +kernel
  once := by decide +kernel
  bytes := by decide +kernel

theorem rebuildIndex_newest_plain :
    let card := setsCard plainSet
    let r := rebuildIndex (setsPlan plainSet fun _ => 1) (.create none none none) { card }
    Newest (photoSet card) (fun _ => 1) (photoNames plainSet) r.2.1.entries.list ∧
      Counted (photoSet card) (photoNames plainSet) r.2.1.entries.list := by
  have h := rebuildIndex_newest (setsPlan plainSet fun _ => 1) (.create none none none)
    { card := setsCard plainSet } plainSet_listing (rebuildIndex_sets ..).1
  refine ⟨h.1, h.2 fun name hname hlong => ?_⟩
  have hshort : ∀ name ∈ photoNames plainSet, name.length ≤ 127 := by decide +kernel
  exact absurd (hshort name hname) (Nat.not_le.2 hlong)

/-! ## Names that are too long, and names with dots -/

/-- A name of 127 bytes. -/
def longestName : Bytes := List.replicate 102 97 ++ ascii "_olive_pocket_preview.jpg"

/-- A name that is cut to the longest. -/
def cutName : Bytes := longestName ++ ascii "_preview.jpg"

def dottedName : Bytes := ascii "a.._olive_pocket_preview.jpg"

def tooLongName : Bytes := List.replicate 150 97 ++ ascii "_olive_pocket_preview.jpg"

def oddSets : List Bytes := [longestName, cutName, dottedName, tooLongName]

theorem oddSets_listing : Listing (photoNames oddSets) where
  length := by decide +kernel
  once := by decide +kernel
  bytes := by decide +kernel

/-- The longest name is a second old, the others are two. -/
def oddTime (name : Bytes) : Int := if name = longestName then 1 else 2

/-- What the scan asks of a name before it looks at the card. -/
def inspected (name : Bytes) : Bool :=
  endsWith name (ascii "_preview.jpg") && !hasInfix name (ascii "..") &&
    matchesPreset (name.take 127)

theorem photosOf_inspected (hl : Listing names) :
    photosOf card mtime names = (names.filter inspected).filterMap (photoOfName card mtime) := by
  rw [photosOf, List.take_of_length_le hl.length, List.filterMap_filter]
  refine List.filterMap_congr fun name hname => ?_
  split
  · rfl
  · rename_i hnot
    refine Option.eq_none_iff_forall_ne_some.2 fun e h => hnot ?_
    obtain ⟨hends, hdots, hset, -⟩ := (photoOfName_iff (hl.bytes name hname)).1 h
    simp only [inspected, hends, hdots, matchesPreset_iff.2 (photoSet_iff.1 hset).2.2.1]
    rfl

theorem longestName_set : photoSet (setsCard oddSets) longestName = true := by
  have hcomplete : completeFiles (setsCard oddSets) longestName = true := by
    rw [← wholeSet_fits (by decide +kernel)]
    exact setsCard_whole (by simp [oddSets])
  have hname : (longestName.length ≤ 127 && !hasInfix longestName (ascii "..") &&
      matchesPreset longestName) = true := by decide +kernel
  rw [photoSet, hname, hcomplete]
  rfl

/-- The scan finds the set of the longest name twice, and no other. -/
theorem photosOf_odd : ∃ k, photosOf (setsCard oddSets) oddTime (photoNames oddSets) =
    [rebuilt oddTime longestName k, rebuilt oddTime longestName k] := by
  have hfilter : (photoNames oddSets).filter inspected = [longestName, cutName] := by
    decide +kernel
  have hbytes := oddSets_listing.bytes
  have hlongest := hbytes longestName (by simp [photoNames, oddSets])
  obtain ⟨k, hk⟩ := photoOfName_set oddTime hlongest longestName_set
  have htake : longestName.take 127 = longestName ∧ cutName.take 127 = longestName := by
    decide +kernel
  obtain ⟨-, -, -, j, hj, heq⟩ := (photoOfName_iff hlongest).1 hk
  rw [htake.1] at hj heq
  have hcut : photoOfName (setsCard oddSets) oddTime cutName =
      some (rebuilt oddTime longestName k) := by
    refine (photoOfName_iff (hbytes cutName (by simp [photoNames, oddSets]))).2 ?_
    rw [htake.2]
    exact ⟨by decide +kernel, by decide +kernel, longestName_set, j, hj, heq⟩
  refine ⟨k, ?_⟩
  rw [photosOf_inspected oddSets_listing, hfilter]
  simp only [List.filterMap_cons, hk, hcut, List.filterMap_nil]

theorem scanPhotos_odd : ∃ k, (scanPhotos (setsCard oddSets) oddTime (photoNames oddSets)).list =
    [rebuilt oddTime longestName k, rebuilt oddTime longestName k] := by
  obtain ⟨k, hk⟩ := photosOf_odd
  have hlargest := scanPhotos_largest (setsCard oddSets) oddTime (photoNames oddSets)
  rw [hk] at hlargest
  have hperm := hlargest.all_kept (show 2 ≤ 48 by decide)
  exact ⟨k, List.perm_replicate.1 (show List.Perm _ (List.replicate 2 _) from hperm)⟩

/-- A set whose name has dots and one whose name is too long are left out though they are newer,
and the set that a long name is cut to is listed twice. -/
theorem rebuildIndex_miscounts :
    let card := setsCard oddSets
    let r := rebuildIndex (setsPlan oddSets oddTime) (.create none none none) { card }
    let set := fun name => matchesPreset name && wholeSet card name
    Listing (photoNames oddSets) ∧ r.1 = true ∧
      ¬ Newest set oddTime (photoNames oddSets) r.2.1.entries.list ∧
      ¬ Counted set (photoNames oddSets) r.2.1.entries.list ∧
      (∀ name ∈ [dottedName, tooLongName], set name = true) ∧
      r.2.1.entries.list.map (·.filename) = [longestName, longestName] := by
  obtain ⟨hdone, hentries⟩ := rebuildIndex_sets oddSets oddTime (.create none none none)
  obtain ⟨k, hlist⟩ := scanPhotos_odd
  have hset (name : Bytes) (hn : name ∈ oddSets) (hm : matchesPreset name = true) :
      (matchesPreset name && wholeSet (setsCard oddSets) name) = true := by
    rw [hm, setsCard_whole hn]
    rfl
  have hdotted := hset dottedName (by simp [oddSets]) (by decide +kernel)
  have htooLong := hset tooLongName (by simp [oddSets]) (by decide +kernel)
  dsimp only
  rw [hentries, hlist]
  refine ⟨oddSets_listing, hdone, fun h => ?_, fun h => ?_, ?_, rfl⟩
  · have hnewer : ¬ stampOf oddTime dottedName ≤ stampOf oddTime longestName := by decide +kernel
    refine hnewer (h.left_out dottedName (by simp [photoNames, oddSets]) hdotted ?_
      (rebuilt oddTime longestName k) (by simp))
    have hne : dottedName ≠ longestName := by decide +kernel
    simp [rebuilt, hne]
  · have hnodup := h.once
    simp at hnodup
  · exact List.forall_mem_cons.2 ⟨hdotted, List.forall_mem_singleton.2 htooLong⟩

end RetroLens.Store
