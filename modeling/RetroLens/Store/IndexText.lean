import RetroLens.Store.Names

/-!
# Reading the index back

`loadIndex` reads back what `saveIndex` prints, line by line, as long as the
names hold no `|`, line end or zero byte and the entries' files are complete.
The index stores a preset by its id, so an entry comes back with its preset
index brought into range (`reread`). An index that has been read once reads
the same on any card that holds the files of its entries.
-/

namespace RetroLens.Store

open Text Disk RetroLens.Core

/-- A name that survives the index file and passes the check of its entry. -/
structure IndexName (n : Bytes) : Prop where
  valid : validName n = true
  length : n.length ≤ 127
  plain : ∀ c ∈ n, c ≠ 124 ∧ c ≠ 10 ∧ c ≠ 0

theorem IndexName.jpg {n : Bytes} (h : IndexName n) : JpgName n := jpgName_of_valid h.valid h.length

/-- The entry that the reader makes of an entry's line. -/
def PhotoEntry.reread (e : PhotoEntry) : PhotoEntry :=
  { e with presetIndex := findPreset (presetAt e.presetIndex).id }

/-- An entry with a preset of the table comes back as it was. -/
theorem reread_eq {e : PhotoEntry} (h0 : 0 ≤ e.presetIndex) (h1 : e.presetIndex < presetCount) :
    e.reread = e := by
  rw [PhotoEntry.reread, findPreset_presetAt h0 h1]

/-! ## One line -/

variable {e : PhotoEntry} {card card' : Card Path} {c : UInt8}

theorem isDigit_ne {d : UInt8} (h : isDigit d = true) :
    d ≠ 124 ∧ d ≠ 10 ∧ d ≠ 0 ∧ d ≠ 46 ∧ d ≠ 47 := by
  simp only [isDigit, Bool.and_eq_true, decide_eq_true_eq, UInt8.le_iff_toNat_le] at h
  refine ⟨?_, ?_, ?_, ?_, ?_⟩ <;> rintro rfl <;> simp at h

theorem decimal_plain {z : Int} (h : c ∈ decimal z) :
    c ≠ 124 ∧ c ≠ 10 ∧ c ≠ 0 ∧ c ≠ 46 ∧ c ≠ 47 := by
  unfold decimal at h
  split at h
  · rcases List.mem_cons.1 h with rfl | h
    · decide
    · exact isDigit_ne (decimalNat_digits c h)
  · exact isDigit_ne (decimalNat_digits c h)

theorem decimal_length (t : Int64) : (decimal t.toInt).length ≤ 21 := by
  have hlo := t.le_toInt
  have hhi := t.toInt_lt
  exact decimal_length_le (k := 20) (by decide) (by omega)

theorem favoriteText_plain {favorite : Bool} (h : c ∈ favoriteText favorite) :
    c ≠ 124 ∧ c ≠ 10 ∧ c ≠ 0 := by
  have : c = 48 ∨ c = 49 := by
    cases favorite
    · exact .inl (by simpa [favoriteText] using h)
    · exact .inr (by simpa [favoriteText] using h)
  rcases this with rfl | rfl <;> decide

theorem indexLine_plain (hn : IndexName e.filename) (h : c ∈ indexLine e) : c ≠ 10 ∧ c ≠ 0 := by
  have hbar : (124 : UInt8) ≠ 10 ∧ (124 : UInt8) ≠ 0 := by decide
  simp only [indexLine, List.mem_append, List.mem_cons] at h
  rcases h with (((h | h | h) | h | h) | h | h)
  · exact ⟨(decimal_plain h).2.1, (decimal_plain h).2.2.1⟩
  · exact h ▸ hbar
  · exact (hn.plain c h).2
  · exact h ▸ hbar
  · have := (presetAt_id e.presetIndex).1 c h
    exact ⟨this.2.2.1, this.2.2.2.2.2.2⟩
  · exact h ▸ hbar
  · exact (favoriteText_plain h).2

theorem indexLine_length (hn : IndexName e.filename) : (indexLine e).length + 2 ≤ 320 := by
  have h1 := decimal_length e.timestampMs
  have h2 := hn.length
  have h3 := (presetAt_id e.presetIndex).2
  have h4 : (favoriteText e.favorite).length = 1 := by cases e.favorite <;> rfl
  simp only [indexLine, List.length_append, List.length_cons]
  omega

theorem trimLine_indexLine (e : PhotoEntry) : trimLine (indexLine e ++ [10]) = indexLine e := by
  obtain ⟨d, hd, hn⟩ : ∃ d, favoriteText e.favorite = [d] ∧ isNewline d = false := by
    cases e.favorite
    · exact ⟨48, rfl, rfl⟩
    · exact ⟨49, rfl, rfl⟩
  have hline : ∃ a, indexLine e = a ++ [d] := by
    refine ⟨decimal e.timestampMs.toInt ++ 124 :: e.filename ++
      124 :: (presetAt e.presetIndex).id ++ [124], ?_⟩
    rw [indexLine, hd]
    simp
  obtain ⟨a, ha⟩ := hline
  rw [ha, trimLine_newline hn]

theorem atoi_favoriteText (favorite : Bool) : (atoi (favoriteText favorite) != 0) = favorite := by
  cases favorite <;> decide

/-- A printed line parses to its entry. -/
theorem parseIndexLine_indexLine (hn : IndexName e.filename)
    (hc : completeFiles card e.filename = true) :
    parseIndexLine card (indexLine e ++ [10]) = some e.reread := by
  have hcs : cstring (indexLine e ++ [10]) = indexLine e ++ [10] := by
    refine cstring_plain fun c h => ?_
    rcases List.mem_append.1 h with h | h
    · exact (indexLine_plain hn h).2
    · obtain rfl := List.mem_singleton.1 h
      decide
  have h1 : cut 124 (indexLine e) = some (decimal e.timestampMs.toInt,
      e.filename ++ 124 :: (presetAt e.presetIndex).id ++ 124 :: favoriteText e.favorite) := by
    rw [indexLine, List.append_assoc, List.append_assoc, List.cons_append, List.append_assoc]
    rw [cut_append fun h => (decimal_plain h).1 rfl, ← List.append_assoc]
  have h2 : cut 124 (e.filename ++ 124 :: (presetAt e.presetIndex).id ++
      124 :: favoriteText e.favorite) = some (e.filename,
        (presetAt e.presetIndex).id ++ 124 :: favoriteText e.favorite) := by
    rw [List.append_assoc, List.cons_append, cut_append fun h => (hn.plain _ h).1 rfl]
  have h3 : cut 124 ((presetAt e.presetIndex).id ++ 124 :: favoriteText e.favorite) =
      some ((presetAt e.presetIndex).id, favoriteText e.favorite) :=
    cut_append fun h => ((presetAt_id e.presetIndex).1 _ h).1 rfl
  have hts : Int64.ofInt (strtoll (decimal e.timestampMs.toInt)) = e.timestampMs := by
    rw [strtoll_decimal (Int64.le_toInt _) (Int64.toInt_lt _), Int64.ofInt_toInt]
  unfold parseIndexLine
  rw [hcs, trimLine_indexLine, h1]
  simp only [h2, h3, hts, List.take_of_length_le hn.length, presetAt_findPreset,
    atoi_favoriteText, validateEntry, hn.valid, hc, Bool.and_self, and_self, if_true]
  rfl

/-! ## The names that a save generates -/

theorem padded_plain {k : Nat} {z : Int} (h : c ∈ padded k z) :
    c ≠ 124 ∧ c ≠ 10 ∧ c ≠ 0 ∧ c ≠ 46 ∧ c ≠ 47 := by
  have hzero : ∀ {j : Nat}, c ∈ List.replicate j (48 : UInt8) →
      c ≠ 124 ∧ c ≠ 10 ∧ c ≠ 0 ∧ c ≠ 46 ∧ c ≠ 47 := fun h => by
    rw [List.eq_of_mem_replicate h]
    decide
  unfold padded at h
  split at h
  · rcases List.mem_cons.1 h with rfl | h
    · decide
    · exact (List.mem_append.1 h).elim hzero fun h => isDigit_ne (decimalNat_digits c h)
  · exact (List.mem_append.1 h).elim hzero fun h => isDigit_ne (decimalNat_digits c h)

theorem stem_plain {wall : Tm} {stamp : Int64} {preset : Int} (h : c ∈ stem wall stamp preset) :
    c ≠ 124 ∧ c ≠ 10 ∧ c ≠ 0 ∧ c ≠ 46 ∧ c ≠ 47 := by
  have hbar : ∀ x ∈ ascii "_", x ≠ 124 ∧ x ≠ 10 ∧ x ≠ 0 ∧ x ≠ 46 ∧ x ≠ 47 := by decide +kernel
  have hend : ∀ x ∈ ascii "_preview", x ≠ 124 ∧ x ≠ 10 ∧ x ≠ 0 ∧ x ≠ 46 ∧ x ≠ 47 := by decide +kernel
  have h := List.mem_of_mem_take h
  simp only [List.mem_append] at h
  rcases h with (((((((((((h | h) | h) | h) | h) | h) | h) | h) | h) | h) | h) | h)
  all_goals first | exact padded_plain h | exact hbar c h | exact hend c h | skip
  have := (presetAt_id preset).1 c h
  exact ⟨this.1, this.2.2.1, this.2.2.2.2.2.2, this.2.2.2.2.1, this.2.2.2.2.2.1⟩

/-- One dot only: no `..`. -/
theorem hasInfix_dots {x : Bytes} (h : 46 ∉ x) :
    hasInfix (x ++ ascii ".jpg") (ascii "..") = false := by
  rw [hasInfix, List.any_eq_false]
  intro t ht hp
  have hsub := ((List.isPrefixOf_iff_prefix.1 hp).sublist.trans
    ((List.mem_tails _ _).1 ht).sublist).count_le 46
  rw [List.count_append, List.count_eq_zero.2 h] at hsub
  exact absurd hsub (by decide)

theorem indexName_filename (wall : Tm) (photo : Photo) : IndexName (photo.filename wall) := by
  have hj := jpgName_filename wall photo
  have hplain : ∀ c ∈ photo.filename wall, c ≠ 124 ∧ c ≠ 10 ∧ c ≠ 0 ∧ c ≠ 47 := by
    intro c hc
    have hext : ∀ x ∈ ascii ".jpg", x ≠ 124 ∧ x ≠ 10 ∧ x ≠ 0 ∧ x ≠ 47 := by decide +kernel
    have hc := List.mem_of_mem_take hc
    rcases List.mem_append.1 hc with hc | hc
    · obtain ⟨h1, h2, h3, -, h4⟩ := stem_plain hc
      exact ⟨h1, h2, h3, h4⟩
    · exact hext c hc
  refine ⟨?_, hj.length, fun c hc => ⟨(hplain c hc).1, (hplain c hc).2.1, (hplain c hc).2.2.1⟩⟩
  obtain ⟨⟨x, hx⟩, hl⟩ := hj
  have hstem : photo.filename wall = stem wall photo.timestampMs photo.presetIndex ++ ascii ".jpg" :=
    filename_eq wall photo
  have hdot : 46 ∉ stem wall photo.timestampMs photo.presetIndex :=
    fun h => (stem_plain h).2.2.2.1 rfl
  have hslash : 47 ∉ photo.filename wall := fun h => (hplain 47 h).2.2.2 rfl
  have hne : photo.filename wall ≠ [] := by
    rw [hx]
    exact List.append_ne_nil_of_right_ne_nil _ (by decide)
  have hinf : hasInfix (photo.filename wall) (ascii "..") = false := by
    rw [hstem, hasInfix_dots hdot]
  have hsuf : endsWith (photo.filename wall) (ascii ".jpg") = true := by
    rw [endsWith, List.isSuffixOf_iff_suffix, hx]
    exact List.suffix_append _ _
  simp [validName, hne, hinf, hslash, hsuf]

/-! ## The whole file -/

theorem fgets_indexText {entries : List PhotoEntry} (hn : ∀ e ∈ entries, IndexName e.filename) :
    fgets 320 (indexText entries) = entries.map fun e => indexLine e ++ [10] := by
  have hlines : ∀ l ∈ entries.map indexLine, 10 ∉ l ∧ l.length + 2 ≤ 320 := fun l hl => by
    obtain ⟨e, he, rfl⟩ := List.mem_map.1 hl
    exact ⟨fun h => (indexLine_plain (hn e he) h).1 rfl, indexLine_length (hn e he)⟩
  have h := fgets_lines hlines
  rw [List.flatMap_map, List.map_map] at h
  exact h

theorem loadLines_indexText {entries : List PhotoEntry} (held : Entries)
    (hlen : held.list.length + entries.length ≤ kMaxPhotoEntries)
    (hn : ∀ e ∈ entries, IndexName e.filename)
    (hc : ∀ e ∈ entries, completeFiles card e.filename = true) :
    let r := loadLines card (entries.map fun e => indexLine e ++ [10]) held false
    r.1.list = held.list ++ entries.map PhotoEntry.reread ∧ r.2 = false := by
  induction entries generalizing held with
  | nil => simp [loadLines]
  | cons e entries ih =>
    rw [List.length_cons] at hlen
    have hroom : held.list.length < kMaxPhotoEntries := by omega
    simp only [List.map_cons, loadLines, hroom, dite_true,
      parseIndexLine_indexLine (hn e (by simp)) (hc e (by simp))]
    have := ih ⟨held.list ++ [e.reread], by simp; omega⟩ (by simp; omega)
      (fun x hx => hn x (by simp [hx])) fun x hx => hc x (by simp [hx])
    simpa using this

/-- **The index read back is the index written.** -/
theorem loadIndex_indexText {entries : Entries}
    (hi : card indexPath = some (indexText entries.list))
    (hn : ∀ e ∈ entries.list, IndexName e.filename)
    (hc : ∀ e ∈ entries.list, completeFiles card e.filename = true) :
    (loadIndex card).1.list = entries.list.map PhotoEntry.reread ∧ (loadIndex card).2 = false := by
  have := loadLines_indexText .empty (by simpa [Entries.empty] using entries.bound) hn hc
  simp only [loadIndex, hi, fgets_indexText hn]
  exact this

/-! ## An index that was read without complaint -/

/-- What the check of an entry says about it. -/
structure Checked (card : Card Path) (e : PhotoEntry) : Prop where
  valid : validName e.filename = true
  length : e.filename.length ≤ 127
  cstring : ∀ c ∈ e.filename, c ≠ 0
  preset : 0 ≤ e.presetIndex ∧ e.presetIndex < presetCount
  complete : completeFiles card e.filename = true

theorem Checked.jpg {card : Card Path} {e : PhotoEntry} (h : Checked card e) :
    JpgName e.filename := jpgName_of_valid h.valid h.length

theorem parseIndexLine_checked {line : Bytes} (h : parseIndexLine card line = some e) :
    Checked card e := by
  unfold parseIndexLine at h
  split at h
  · cases h
  rename_i stamp rest h1
  split at h
  · cases h
  rename_i name rest' h2
  split at h
  · cases h
  dsimp only at h
  split at h
  · rename_i hv
    cases h
    simp only [validateEntry, Bool.and_eq_true] at hv
    refine ⟨hv.2.1, List.length_take_le .., fun c hc => ?_, findPreset_range _, hv.2.2⟩
    have hrest := cut_mem h1 (.inr (cut_mem h2 (.inl (List.mem_of_mem_take hc))))
    exact cstring_ne_zero (trimLine_mem hrest)
  · cases h

/-- A line reads the same on every card that holds its entry's files. -/
theorem parseIndexLine_congr {line : Bytes} (h : parseIndexLine card line = some e)
    (hc : completeFiles card' e.filename = true) : parseIndexLine card' line = some e := by
  unfold parseIndexLine at h ⊢
  split at h
  · cases h
  split at h
  · cases h
  split at h
  · cases h
  dsimp only at h ⊢
  split at h
  · rename_i hv
    cases h
    simp only [validateEntry, Bool.and_eq_true] at hv
    simp only [validateEntry, hv.1, hv.2.1, hc, Bool.and_self, and_self, if_true]
  · cases h

theorem loadLines_true (card : Card Path) (lines : List Bytes) (held : Entries) :
    (loadLines card lines held true).2 = true := by
  induction lines generalizing held with
  | nil => rfl
  | cons line lines ih =>
    unfold loadLines
    split
    · split <;> exact ih _
    · rfl

/-- Every entry read passed its check, and those held before are kept. -/
theorem loadLines_entries (card : Card Path) (lines : List Bytes) (held : Entries) (flag : Bool) :
    held.list <+: (loadLines card lines held flag).1.list ∧
      ∀ e ∈ (loadLines card lines held flag).1.list, e ∈ held.list ∨
        Checked card e := by
  induction lines generalizing held flag with
  | nil => exact ⟨List.prefix_refl _, fun e he => .inl he⟩
  | cons line lines ih =>
    unfold loadLines
    split
    · split
      · exact ih _ _
      · rename_i entry hentry
        obtain ⟨hpre, hmem⟩ := ih ⟨held.list ++ [entry], by simp; omega⟩ flag
        refine ⟨(List.prefix_append _ _).trans hpre, fun e he => ?_⟩
        rcases hmem e he with h | h
        · rcases List.mem_append.1 h with h | h
          · exact .inl h
          · obtain rfl := List.mem_singleton.1 h
            exact .inr (parseIndexLine_checked hentry)
        · exact .inr h
    · exact ⟨List.prefix_refl _, fun e he => .inl he⟩

theorem loadLines_congr {lines : List Bytes} {held read : Entries}
    (h : loadLines card lines held false = (read, false))
    (hc : ∀ e ∈ read.list, completeFiles card' e.filename = true) :
    loadLines card' lines held false = (read, false) := by
  induction lines generalizing held with
  | nil => exact h
  | cons line lines ih =>
    unfold loadLines at h ⊢
    split at h
    · rename_i hroom
      rw [dif_pos hroom]
      split at h
      · have := loadLines_true card lines held
        rw [h] at this
        cases this
      · rename_i entry hentry
        have hpre := (loadLines_entries card lines
          ⟨held.list ++ [entry], by simp; omega⟩ false).1
        rw [h] at hpre
        have hmem : entry ∈ read.list := hpre.subset (by simp)
        rw [parseIndexLine_congr hentry (hc entry hmem)]
        exact ih h
    · rename_i hroom
      rwa [dif_neg hroom]

/-- **An accepted index reads the same wherever its entries' files are complete.** -/
theorem loadIndex_congr {read : Entries} (h : loadIndex card = (read, false))
    (hi : card' indexPath = card indexPath)
    (hc : ∀ e ∈ read.list, completeFiles card' e.filename = true) :
    loadIndex card' = (read, false) := by
  unfold loadIndex at h ⊢
  rw [hi]
  cases hd : card indexPath with
  | none => simp [hd] at h
  | some data =>
    rw [hd] at h
    exact loadLines_congr h hc

theorem loadIndex_checked (h : e ∈ (loadIndex card).1.list) : Checked card e := by
  unfold loadIndex at h
  split at h
  · simp [Entries.empty] at h
  · refine ((loadLines_entries _ _ _ _).2 e h).resolve_left ?_
    simp [Entries.empty]

end RetroLens.Store
