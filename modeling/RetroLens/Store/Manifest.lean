import RetroLens.Lib.Json
import RetroLens.Store.Session

/-!
# The sidecar as JSON

What `jsonEscape` prints is read back as it was, so that the manifest of a
photo is one object whose members are what was saved (`manifest_parse`).
-/

namespace RetroLens.Store

open Text Disk RetroLens.Core Json Runs

/-! ## Strings -/

theorem codeUnit_control {n : Nat} (h : n < 32) :
    codeUnit 48 48 (hexDigit (n / 16)) (hexDigit (n % 16)) = some n := by
  obtain ⟨h1, v1, -⟩ := hexDigit_spec (n / 16) (by omega)
  obtain ⟨h2, v2, -⟩ := hexDigit_spec (n % 16) (by omega)
  have h0 : isHexDigit 48 = true := by decide
  have v0 : hexDigitValue 48 = 0 := by decide
  simp only [codeUnit, h0, h1, h2, v0, v1, v2, Bool.and_self, if_true]
  congr 1
  omega

/-- Each branch of the escaping is undone by one of the reader's. -/
theorem characters_escapeByte (c : UInt8) (s : Bytes) :
    characters (jsonEscapeByte c ++ s) = (characters s).map fun r => (c :: r.1, r.2) := by
  unfold jsonEscapeByte
  by_cases hquote : c = 34 ∨ c = 92
  · rw [if_pos hquote]
    refine characters_escape ?_ ?_ s
    · rcases hquote with rfl | rfl <;> decide
    · rcases hquote with rfl | rfl <;> rfl
  rw [if_neg hquote]
  by_cases hn : c = 10
  · subst hn
    exact characters_escape (e := 110) (by decide) rfl s
  rw [if_neg hn]
  by_cases hr : c = 13
  · subst hr
    exact characters_escape (e := 114) (by decide) rfl s
  rw [if_neg hr]
  by_cases ht : c = 9
  · subst ht
    exact characters_escape (e := 116) (by decide) rfl s
  rw [if_neg ht]
  by_cases hcontrol : c < 0x20
  · rw [if_pos hcontrol]
    have hlt : c.toNat < 32 := UInt8.lt_iff_toNat_lt.1 hcontrol
    have hutf8 : utf8 c.toNat = [c] := by
      rw [utf8, if_pos (by omega)]
      simp
    have hread := characters_unicode (codeUnit_control hlt) (s := s)
      (by simp only [isLowSurrogate, Bool.and_eq_false_imp, decide_eq_true_eq]; omega)
      (by simp only [isHighSurrogate, Bool.and_eq_false_imp, decide_eq_true_eq]; omega)
    rw [hutf8] at hread
    exact hread
  · rw [if_neg hcontrol]
    refine characters_plain ?_ s
    obtain ⟨h34, h92⟩ := not_or.1 hquote
    simp only [isPlain, Bool.and_eq_true, decide_eq_true_eq, bne_iff_ne, ne_eq]
    exact ⟨⟨UInt8.not_lt.1 hcontrol, h34⟩, h92⟩

/-- **Decoding `jsonEscape` gives back its input**, of whatever bytes. -/
theorem characters_jsonEscape (value rest : Bytes) :
    characters (value.flatMap jsonEscapeByte ++ 34 :: rest) = some (value, rest) := by
  induction value with
  | nil => exact characters_quote rest
  | cons c value ih =>
    rw [List.flatMap_cons, List.append_assoc, characters_escapeByte, ih]
    rfl

theorem reads_jsonEscape (value : Bytes) : Reads (jsonEscape value) (.string value) :=
  reads_string (characters_jsonEscape value)

/-! ## The object -/

def stringMember (key : String) (value : Bytes) : Member :=
  ⟨ascii key, jsonEscape value, .string value⟩

def numberMember (key : String) (z : Int) : Member := ⟨ascii key, decimal z, .number z 0⟩

def boolMember (key : String) (b : Bool) : Member :=
  ⟨ascii key, if b then ascii "true" else ascii "false", .bool b⟩

/-- The first member, and the others. -/
def firstMember : Member := stringMember "type" (ascii "preview-resolution derivative")

def otherMembers (model version : Bytes) (presetIndex intensity : Int) (adjustments : Adjustments)
    (favorite : Bool) (timestampMs : Int64) : List Member :=
  [stringMember "preset" (presetAt presetIndex).id, numberMember "width" kPhotoWidth,
    numberMember "height" kPhotoHeight, numberMember "intensity" intensity,
    numberMember "contrastAdjustment" adjustments.contrast,
    numberMember "grainAdjustment" adjustments.grain,
    numberMember "motionAdjustment" adjustments.motion,
    numberMember "sourceTimestampMs" timestampMs.toInt, boolMember "favorite" favorite,
    boolMember "originalPreserved" true, boolMember "originalPathKnown" false,
    stringMember "cameraModel" model, stringMember "applicationVersion" version]

variable {model version : Bytes} {presetIndex intensity : Int} {adjustments : Adjustments}
  {favorite : Bool} {timestampMs : Int64}

theorem stringMember_wellFormed {key : String} (hkey : (ascii key).all isPlain = true)
    (value : Bytes) : (stringMember key value).WellFormed :=
  ⟨List.all_eq_true.1 hkey, reads_jsonEscape value⟩

theorem numberMember_wellFormed {key : String} (hkey : (ascii key).all isPlain = true) (z : Int) :
    (numberMember key z).WellFormed :=
  ⟨List.all_eq_true.1 hkey, reads_decimal z⟩

theorem boolMember_wellFormed {key : String} (hkey : (ascii key).all isPlain = true) (b : Bool) :
    (boolMember key b).WellFormed := by
  refine ⟨List.all_eq_true.1 hkey, ?_⟩
  cases b
  · exact reads_false
  · exact reads_true

theorem otherMembers_wellFormed : ∀ m ∈ otherMembers model version presetIndex intensity
    adjustments favorite timestampMs, m.WellFormed := by
  simp only [otherMembers, List.forall_mem_cons, List.not_mem_nil, false_imp_iff, implies_true,
    and_true]
  refine ⟨?_, ?_, ?_, ?_, ?_, ?_, ?_, ?_, ?_, ?_, ?_, ?_, ?_⟩
  all_goals
    first
    | exact stringMember_wellFormed (by decide) _
    | exact numberMember_wellFormed (by decide) _
    | exact boolMember_wellFormed (by decide) _

theorem intercalate_flatMap (c : UInt8) (x : Bytes) (xs : List Bytes) :
    [c].intercalate (x :: xs) = x ++ xs.flatMap fun y => c :: y := by
  induction xs generalizing x with
  | nil => simp [List.intercalate]
  | cons y xs ih => rw [intercalate_cons, ih, List.flatMap_cons, List.cons_append]

/-- What is printed before a value that is not the first. -/
def lead (key : String) : Bytes := 44 :: (ascii "\n  " ++ 34 :: ascii key ++ [34, 58])

theorem lead_text (m : Member) {key : String} (hkey : m.key = ascii key) :
    44 :: m.print (ascii "\n  ") = lead key ++ m.text := by
  rw [lead, Member.print, hkey]
  simp only [List.append_assoc, List.cons_append, List.nil_append]

theorem lead_keys :
    ascii ",\n  \"width\":" = lead "width" ∧
    ascii ",\n  \"height\":" = lead "height" ∧
    ascii ",\n  \"intensity\":" = lead "intensity" ∧
    ascii ",\n  \"contrastAdjustment\":" = lead "contrastAdjustment" ∧
    ascii ",\n  \"grainAdjustment\":" = lead "grainAdjustment" ∧
    ascii ",\n  \"motionAdjustment\":" = lead "motionAdjustment" ∧
    ascii ",\n  \"sourceTimestampMs\":" = lead "sourceTimestampMs" ∧
    ascii ",\n  \"favorite\":" = lead "favorite" ∧
    ascii ",\n  \"applicationVersion\":" = lead "applicationVersion" := by
  decide +kernel

/-- The pieces that are printed make up the members. -/
theorem sidecarText_eq : sidecarText model version presetIndex intensity adjustments favorite
    timestampMs = 123 :: ([44].intercalate ((firstMember :: otherMembers model version presetIndex
      intensity adjustments favorite timestampMs).map (Member.print (ascii "\n  "))) ++
        (ascii "\n" ++ 125 :: ascii "\n")) := by
  have hstring (key : String) (v : Bytes) : 44 :: (stringMember key v).print (ascii "\n  ") =
      lead key ++ jsonEscape v := lead_text (stringMember key v) rfl
  have hnumber (key : String) (z : Int) : 44 :: (numberMember key z).print (ascii "\n  ") =
      lead key ++ decimal z := lead_text (numberMember key z) rfl
  have hbool (key : String) (b : Bool) : 44 :: (boolMember key b).print (ascii "\n  ") =
      lead key ++ if b then ascii "true" else ascii "false" := lead_text (boolMember key b) rfl
  have hopen : ascii "\x7b\n  \"type\":\"preview-resolution derivative\",\n  \"preset\":" =
      123 :: (firstMember.print (ascii "\n  ") ++ lead "preset") := by decide
  have hflags (rest : Bytes) :
      ascii ",\n  \"originalPreserved\":true,\n  \"originalPathKnown\":false,\n" ++
        (ascii "  \"cameraModel\":" ++ rest) = lead "originalPreserved" ++ (ascii "true" ++
          (lead "originalPathKnown" ++ (ascii "false" ++ (lead "cameraModel" ++ rest)))) := by
    simp only [← List.append_assoc]
    exact congrArg (· ++ rest) (by decide)
  have hclose : ascii "\n\x7d\n" = ascii "\n" ++ 125 :: ascii "\n" := by decide
  obtain ⟨h1, h2, h3, h4, h5, h6, h7, h8, h9⟩ := lead_keys
  have hsize (n : Nat) : decimalNat n = decimal n := (if_neg (by omega)).symm
  rw [List.map_cons, intercalate_flatMap, List.flatMap_map]
  unfold sidecarText
  rw [hopen, h1, h2, h3, h4, h5, h6, h7, h8, h9, hclose, hsize, hsize]
  unfold otherMembers
  simp only [List.flatMap_cons, List.flatMap_nil, hstring, hnumber, hbool, List.append_assoc]
  rw [hflags]
  simp only [List.cons_append, List.append_assoc, List.nil_append, if_true, Bool.false_eq_true,
    if_false]

/-- **The sidecar is one JSON object that says what was saved.** -/
theorem sidecarText_parse : parse (sidecarText model version presetIndex intensity adjustments
    favorite timestampMs) = some (.object ((firstMember :: otherMembers model version presetIndex
      intensity adjustments favorite timestampMs).map fun m => (m.key, m.value))) := by
  rw [sidecarText_eq]
  exact parse_object (by decide +kernel) (by decide +kernel) (by decide +kernel)
    (stringMember_wellFormed (by decide) _) otherMembers_wellFormed

/-! ## The camera that is named -/

/-- The model and the version are as before. -/
structure SameCamera (s s' : PhotoStore) : Prop where
  model : s'.model = s.model
  version : s'.version = s.version

variable {s s' s'' : PhotoStore}

theorem SameCamera.trans (h : SameCamera s s') (h' : SameCamera s' s'') : SameCamera s s'' :=
  ⟨h'.model.trans h.model, h'.version.trans h.version⟩

theorem SameStore.camera (h : SameStore s s') : SameCamera s s' := ⟨h.model, h.version⟩

theorem commitIndex_camera (plan : SavePlan) (entry : PhotoEntry) (s : PhotoStore)
    (w : CardWorld) : SameCamera s (commitIndex plan entry s w).2.1 := by
  unfold commitIndex commitIndexWith
  dsimp only
  split <;> exact ⟨rfl, rfl⟩

theorem writePhoto_camera (plan : SavePlan) (photo : Photo) (encoded : Bytes) (s : PhotoStore)
    (w : CardWorld) : SameCamera s (writePhoto plan photo encoded s w).2.1 := by
  unfold writePhoto writePhotoWith
  dsimp only
  have hjpeg := (writeJpeg_spec (f := plan.jpeg) (n := (photo.entry plan.wall).filename) (s := s)
    (w := w) encoded).same.camera
  split
  · exact hjpeg
  · apply hjpeg.trans
    generalize writeJpeg plan.jpeg (photo.entry plan.wall).filename encoded s w = r
    have hsidecar := (writeSidecar_spec (f := plan.sidecar) (s := r.2.1) (w := r.2.2)
      (n := (photo.entry plan.wall).filename) plan.undo (photo.manifest s)).same.camera
    split
    · exact hsidecar
    · apply hsidecar.trans
      generalize writeSidecar plan.sidecar plan.undo (photo.entry plan.wall).filename
        (photo.manifest s) r.2.1 r.2.2 = r
      have hthumbnail := (writeThumbnail_spec (f := plan.thumbnail) (s := r.2.1) (w := r.2.2)
        (n := (photo.entry plan.wall).filename) plan.undo photo.frame).same.camera
      split
      · exact hthumbnail
      · exact hthumbnail.trans (commitIndex_camera ..)

theorem savePhoto_camera (plan : SavePlan) (photo : Photo) (encodedCapacity : Int) (s : PhotoStore)
    (w : CardWorld) : SameCamera s (savePhoto plan photo encodedCapacity s w).2.1 := by
  unfold savePhoto savePhotoWith
  dsimp only
  split
  · split <;> exact ⟨rfl, rfl⟩
  · rename_i encoded _
    have h := writePhoto_camera plan photo encoded
      { s with writeStage := .encode, lastError := 0 } w
    exact ⟨h.model, h.version⟩

theorem deletePhoto_camera (plan : DeletePlan) (newestIndex : Int) (s : PhotoStore)
    (w : CardWorld) : SameCamera s (deletePhoto plan newestIndex s w).2.1 := by
  unfold deletePhoto
  split
  · exact ⟨rfl, rfl⟩
  · split
    · exact ⟨rfl, rfl⟩
    · dsimp only
      split <;> exact ⟨rfl, rfl⟩

theorem openIndex_camera (plan : InitPlan) (s : PhotoStore) (w : CardWorld) :
    SameCamera s (openIndex plan s w).1 := by
  have hrebuild (s : PhotoStore) (w : CardWorld) : SameCamera s (rebuildIndex plan s w).2.1 := by
    unfold rebuildIndex
    split <;> exact ⟨rfl, rfl⟩
  unfold openIndex
  dsimp only
  split
  · split
    · exact ⟨(hrebuild _ _).model, (hrebuild _ _).version⟩
    · exact ⟨(hrebuild _ _).model, (hrebuild _ _).version⟩
  · exact ⟨rfl, rfl⟩

theorem initializeStore_camera (plan : InitPlan) (s : PhotoStore) (w : CardWorld) :
    SameCamera s (initializeStore plan s w).1 := by
  unfold initializeStore
  dsimp only
  split
  · exact ⟨rfl, rfl⟩
  split
  · exact ⟨rfl, rfl⟩
  split
  · exact ⟨rfl, rfl⟩
  split
  · exact ⟨rfl, rfl⟩
  split
  · exact ⟨rfl, rfl⟩
  · exact openIndex_camera plan s _

variable {x x₀ : Session} {calls : List Call} {l : List Answer}

theorem run_camera (h : Run store x₀ calls l x) : SameCamera x₀.1 x.1 := by
  refine h.inv_state (I := fun x => SameCamera x₀.1 x.1) ⟨rfl, rfl⟩ ?_
  intro _ x call x' o hx _ hs
  cases hs
  cases call with
  | save plan photo encodedCapacity =>
    exact hx.trans (savePhoto_camera plan photo encodedCapacity x.1 x.2)
  | delete plan newestIndex => exact hx.trans (deletePhoto_camera plan newestIndex x.1 x.2)

/-! ## What the sidecar says -/

theorem parse_jsonEscape (value : Bytes) : parse (jsonEscape value) = some (.string value) :=
  (reads_jsonEscape value).parse

/-- **The sidecar of a photo is one JSON object that says what was saved**, whatever bytes name the
camera and the version: they are decoded as they are stored. -/
theorem manifest_parse (root : Option Bytes) (cameraModel versionName : Bytes) (plan : InitPlan)
    (w : CardWorld) (photo : Photo)
    (h : Run store (initializeStore plan
      (PhotoStore.create root (some cameraModel) (some versionName)) w) calls l x) :
    parse (photo.manifest x.1) = some (.object
      [(ascii "type", .string (ascii "preview-resolution derivative")),
        (ascii "preset", .string (presetAt photo.presetIndex).id),
        (ascii "width", .number kPhotoWidth 0), (ascii "height", .number kPhotoHeight 0),
        (ascii "intensity", .number photo.intensity 0),
        (ascii "contrastAdjustment", .number photo.adjustments.contrast 0),
        (ascii "grainAdjustment", .number photo.adjustments.grain 0),
        (ascii "motionAdjustment", .number photo.adjustments.motion 0),
        (ascii "sourceTimestampMs", .number photo.timestampMs.toInt 0),
        (ascii "favorite", .bool photo.favorite), (ascii "originalPreserved", .bool true),
        (ascii "originalPathKnown", .bool false),
        (ascii "cameraModel", .string (cameraModel.take 63)),
        (ascii "applicationVersion", .string (versionName.take 31))]) ∧
      (InCatalogue photo.presetIndex →
        findPreset (presetAt photo.presetIndex).id = photo.presetIndex) ∧
      ∀ value, parse (jsonEscape value) = some (.string value) := by
  have hcamera := (initializeStore_camera plan
    (PhotoStore.create root (some cameraModel) (some versionName)) w).trans (run_camera h)
  refine ⟨?_, fun hin => findPreset_presetAt hin.1 hin.2, parse_jsonEscape⟩
  rw [Photo.manifest, hcamera.model, hcamera.version]
  exact sidecarText_parse

/-- A model with a quote, a backslash and a line break in its name. -/
theorem manifest_parse_quoted : ∃ members,
    parse (samplePhoto.manifest (initializeStore {}
      (PhotoStore.create none (some (ascii "\"\\\n")) (some (ascii "2"))) { card := sampleCard }).1) =
        some (.object members) ∧
      members[12]? = some (ascii "cameraModel", .string (ascii "\"\\\n")) :=
  ⟨_, (manifest_parse none (ascii "\"\\\n") (ascii "2") {} { card := sampleCard } samplePhoto
    .init).1, rfl⟩

end RetroLens.Store
