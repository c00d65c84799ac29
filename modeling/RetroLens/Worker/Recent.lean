import RetroLens.Lib.Checked
import RetroLens.Lib.Recency
import RetroLens.Worker.Mirror

/-!
# The recent styles

`recent_` is an array of which `recentCount_` elements are used, and
`recordRecentLocked` shifts it in place. On what is used of it that is the
`recordRecent` of the worker's state, and on a list without repetition the
`use` of a most-recently-used list, so that after any run the recent styles
are the latest different ones that were selected (`recent_mostRecent`).
-/

namespace RetroLens.Worker

open Text RetroLens.Core Store Runs Checked Recency

/-! ## The array -/

structure RecentStyles where
  recent : Buffer Int kRecentPresetCount
  recentCount : Nat
  inArray : recentCount ≤ kRecentPresetCount

/-- The place of the last of the first elements that is the preset. -/
def existingPlace (recent : Buffer Int kRecentPresetCount) (presetIndex : Int) :
    Nat → Option (Option Nat)
  | 0 => some none
  | i + 1 => do
    let existing ← existingPlace recent presetIndex i
    let style ← recent.get i
    some (if style = presetIndex then some i else existing)

/-- Each element up to `k` moves one place on, the last one first. -/
def shift (recent : Buffer Int kRecentPresetCount) : Nat → Option (Buffer Int kRecentPresetCount)
  | 0 => some recent
  | i + 1 => do
    let style ← recent.get i
    let recent ← recent.set (i + 1 : Nat) style
    shift recent i

/-- `recentCount_` after a style that is not there yet. -/
def RecentStyles.grown (r : RecentStyles) : Nat :=
  if r.recentCount < kRecentPresetCount then r.recentCount + 1 else r.recentCount

theorem RecentStyles.grown_le (r : RecentStyles) : r.grown ≤ kRecentPresetCount := by
  have := r.inArray
  unfold grown
  split <;> omega

def RecentStyles.recordRecentLocked (r : RecentStyles) (presetIndex : Int) :
    Option RecentStyles := do
  match ← existingPlace r.recent presetIndex r.recentCount with
  | some existing =>
    let recent ← shift r.recent existing
    let recent ← recent.set 0 presetIndex
    some { r with recent }
  | none =>
    let recent ← shift r.recent (r.grown - 1)
    let recent ← recent.set 0 presetIndex
    some { recent, recentCount := r.grown, inArray := r.grown_le }

/-- `recent_[0..recentCount_)`. -/
def RecentStyles.used (r : RecentStyles) : List Int := r.recent.front r.recentCount

variable {recent : Buffer Int kRecentPresetCount} {presetIndex : Int} {r : RecentStyles}

theorem lastIndexOf_concat (presetIndex style : Int) (l : List Int) :
    lastIndexOf presetIndex (l ++ [style]) =
      if style = presetIndex then some l.length else lastIndexOf presetIndex l := by
  unfold lastIndexOf
  rw [List.reverse_append, List.reverse_singleton, List.singleton_append, List.findIdx?_cons]
  by_cases hs : style = presetIndex
  · simp [hs]
  · simp only [hs, decide_false, Bool.false_eq_true, if_false, Option.map_map]
    congr 1
    funext i
    simp only [Function.comp_apply, List.length_append, List.length_singleton]
    omega

/-- The first loop looks at used elements only, and finds the last place. -/
theorem existingPlace_eq (recent : Buffer Int kRecentPresetCount) (presetIndex : Int)
    {count : Nat} (hcount : count ≤ kRecentPresetCount) :
    existingPlace recent presetIndex count =
      some (lastIndexOf presetIndex (recent.front count)) := by
  induction count with
  | zero => rfl
  | succ count ih =>
    rw [existingPlace, ih (by omega), Option.bind_eq_bind, Option.bind_some,
      recent.get_inside ⟨count, hcount⟩, Option.bind_eq_bind, Option.bind_some,
      recent.front_succ hcount, lastIndexOf_concat, recent.front_length (by omega)]

/-- The shift stays in the array; the place it starts from is what is lost. -/
theorem shift_cell {k : Nat} (hk : k < kRecentPresetCount)
    (recent : Buffer Int kRecentPresetCount) :
    ∃ shifted, shift recent k = some shifted ∧ ∀ i : Fin kRecentPresetCount,
      shifted.cell i =
        if 0 < i.val ∧ i.val ≤ k then recent.cell ⟨i.val - 1, by omega⟩ else recent.cell i := by
  induction k generalizing recent with
  | zero => exact ⟨recent, rfl, fun i => by rw [if_neg (by omega)]⟩
  | succ k ih =>
    obtain ⟨moved, hset, hat, hother⟩ :=
      recent.set_inside ⟨k + 1, hk⟩ (recent.cell ⟨k, by omega⟩)
    obtain ⟨shifted, hshift, hcell⟩ := ih (by omega) moved
    refine ⟨shifted, ?_, fun i => ?_⟩
    · rw [shift, recent.get_inside ⟨k, by omega⟩, Option.bind_eq_bind, Option.bind_some, hset]
      exact hshift
    · rw [hcell]
      by_cases hi : i.val = k + 1
      · obtain rfl : i = ⟨k + 1, hk⟩ := Fin.ext hi
        rw [if_neg (by simp), if_pos (by simp)]
        exact hat
      · have hne : i ≠ ⟨k + 1, hk⟩ := fun h => hi (congrArg Fin.val h)
        by_cases hin : 0 < i.val ∧ i.val ≤ k
        · rw [if_pos hin, if_pos (by omega)]
          exact hother _ fun h => by have := congrArg Fin.val h; simp at this; omega
        · rw [if_neg hin, if_neg (by omega)]
          exact hother i hne

/-- A style is put before the elements up to `k`, over the one there. -/
theorem place_front {k m : Nat} (hk : k < m) (hm : m ≤ kRecentPresetCount)
    (recent : Buffer Int kRecentPresetCount) (presetIndex : Int) :
    ∃ placed, ((shift recent k).bind fun shifted => shifted.set 0 presetIndex) = some placed ∧
      placed.front m = presetIndex :: (recent.front k ++ (recent.front m).drop (k + 1)) := by
  obtain ⟨shifted, hshift, hcell⟩ := shift_cell (by omega : k < kRecentPresetCount) recent
  obtain ⟨placed, hset, hat, hother⟩ := shifted.set_inside ⟨0, by omega⟩ presetIndex
  refine ⟨placed, by rw [hshift, Option.bind_some]; exact hset, ?_⟩
  have hlen := recent.front_length (by omega : k ≤ kRecentPresetCount)
  refine List.ext_getElem? fun i => ?_
  rw [Buffer.front_getElem?]
  cases i with
  | zero =>
    rw [dif_pos ⟨by omega, by omega⟩, List.getElem?_cons_zero]
    exact congrArg some hat
  | succ i =>
    rw [List.getElem?_cons_succ]
    by_cases him : i + 1 < m
    · rw [dif_pos ⟨him, by omega⟩, hother _ (by simp), hcell]
      by_cases hik : i < k
      · rw [if_pos ⟨Nat.succ_pos _, hik⟩, List.getElem?_append_left (by omega),
          Buffer.front_getElem?, dif_pos ⟨hik, by omega⟩]
        rfl
      · rw [if_neg (by simp only; omega), List.getElem?_append_right (by omega), hlen,
          List.getElem?_drop, Buffer.front_getElem?]
        have hplace : k + 1 + (i - k) = i + 1 := by omega
        simp only [hplace]
        rw [dif_pos ⟨him, by omega⟩]
    · rw [dif_neg (by omega), List.getElem?_append_right (by omega), List.getElem?_drop,
        List.getElem?_eq_none]
      rw [recent.front_length hm]
      omega

/-- **The array is shifted in bounds**, and what is used of it is what the worker's state says. -/
theorem recordRecentLocked_refines (r : RecentStyles) (presetIndex : Int) :
    ∃ r', r.recordRecentLocked presetIndex = some r' ∧
      r'.used = recordRecent presetIndex r.used := by
  have hin := r.inArray
  have hlen : r.used.length = r.recentCount := r.recent.front_length hin
  unfold RecentStyles.recordRecentLocked recordRecent
  rw [existingPlace_eq _ _ hin, Option.bind_eq_bind, Option.bind_some]
  change ∃ r', (match lastIndexOf presetIndex r.used with | some _ => _ | none => _) = some r' ∧ _
  cases hplace : lastIndexOf presetIndex r.used with
  | some existing =>
    have := lastIndexOf_lt hplace
    have hlt : existing < r.recentCount := by omega
    obtain ⟨placed, hput, hfront⟩ := place_front hlt hin r.recent presetIndex
    simp only [Option.bind_eq_bind, ← Option.bind_assoc, hput, Option.bind_some]
    refine ⟨_, rfl, ?_⟩
    rw [List.eraseIdx_eq_take_drop_succ, RecentStyles.used, RecentStyles.used,
      Buffer.take_front _ (by omega)]
    exact hfront
  | none =>
    have hgrown : r.grown = min (r.recentCount + 1) kRecentPresetCount := by
      unfold RecentStyles.grown
      split <;> omega
    have hpos : 0 < kRecentPresetCount := by decide
    obtain ⟨placed, hput, hfront⟩ :=
      place_front (by omega : r.grown - 1 < r.grown) r.grown_le r.recent presetIndex
    simp only [Option.bind_eq_bind, ← Option.bind_assoc, hput, Option.bind_some]
    refine ⟨_, rfl, ?_⟩
    have hnil : (r.recent.front r.grown).drop (r.grown - 1 + 1) = [] :=
      List.drop_eq_nil_of_le (by rw [Buffer.front_length _ r.grown_le]; omega)
    rw [hnil, List.append_nil] at hfront
    rw [hlen, ← hgrown, RecentStyles.used, RecentStyles.used, Buffer.take_front _ (by omega)]
    exact hfront

/-- Without repetition, the style is used as in a most-recently-used list. -/
theorem recordRecent_use {recent : List Int} (hnodup : recent.Nodup)
    (hlen : recent.length ≤ kRecentPresetCount) (presetIndex : Int) :
    recordRecent presetIndex recent = use kRecentPresetCount recent presetIndex := by
  unfold recordRecent use
  cases hplace : lastIndexOf presetIndex recent with
  | some existing =>
    have hlt := lastIndexOf_lt hplace
    have hat : recent[existing] = presetIndex := by
      obtain ⟨i, hi, rfl⟩ := Option.map_eq_some_iff.1 hplace
      obtain ⟨hlt, hi, -⟩ := List.findIdx?_eq_some_iff_getElem.1 hi
      rw [List.getElem_reverse] at hi
      simpa using hi
    have herase : recent.erase presetIndex = recent.eraseIdx existing := by
      rw [← hat]
      exact hnodup.erase_getElem existing hlt
    have hfits : (presetIndex :: recent.eraseIdx existing).length ≤ kRecentPresetCount := by
      rw [List.length_cons, List.length_eraseIdx_of_lt hlt]
      omega
    rw [herase]
    exact (List.take_of_length_le hfits).symm
  | none =>
    have hmem : presetIndex ∉ recent := by
      have hnone := List.findIdx?_eq_none_iff.1 (Option.map_eq_none_iff.1 hplace)
      intro hin
      have := hnone presetIndex (List.mem_reverse.2 hin)
      simp at this
    have hpos : kRecentPresetCount = 11 + 1 := rfl
    rw [List.erase_of_not_mem hmem, hpos, List.take_succ_cons]
    refine congrArg _ (List.take_eq_take_iff.2 ?_)
    omega

/-! ## What the calls select -/

def categoryStyle (direction selected : Int) : Int :=
  nextCategory (presetAt selected).category selected direction presets.length selected

/-- The style that a pressed key selects, if it selects one. -/
def keySelects (keyValue : PhotoUiKey) (c : Screen) : Option Int :=
  if c.scene = .gallery ∨ c.scene = .controls then none
  else
    match keyValue with
    | .previous => some (neighbour c.style.selectedStyle (-1))
    | .next => some (neighbour c.style.selectedStyle 1)
    | .up => some (categoryStyle (-1) c.style.selectedStyle)
    | .down => some (categoryStyle 1 c.style.selectedStyle)
    | _ => none

/-- The style that a call selects. -/
def UiCall.selects (c : Screen) : UiCall → Option Int
  | .key keyValue down _ => if down = false then none else keySelects keyValue c
  | .touch (.up .left) _ => some (neighbour c.style.selectedStyle 1)
  | .touch (.up .right) _ => some (neighbour c.style.selectedStyle (-1))
  | .changeStyle delta => if delta = 0 then none else some (shiftedStyle c.style.selectedStyle delta)
  | _ => none

/-- Nothing else of the style is about the selection. -/
def Style.After (s s' : Style) : Option Int → Prop
  | none => s'.selectedStyle = s.selectedStyle ∧ s'.recent = s.recent
  | some style => s'.selectedStyle = style ∧ s'.recent = recordRecent style s.recent

variable {sh : Shared} {c c' : Screen}

theorem after_same (h : Screen.SameSettings c c') : c.style.After c'.style none := by
  rw [h.style]
  exact ⟨rfl, rfl⟩

theorem keyDirection_after (direction : Int) (sh : Shared) :
    sh.screen.style.After (keyDirection direction sh).screen.style
      (if sh.screen.scene = .gallery ∨ sh.screen.scene = .controls then none
        else some (neighbour sh.screen.style.selectedStyle direction)) := by
  unfold keyDirection
  split
  · rename_i hscene
    rw [if_pos (.inl hscene)]
    exact after_same (moveInGallery_same direction sh).toSameSettings
  · rename_i hscene
    rw [if_pos (.inr hscene)]
    unfold adjustParameterLocked
    dsimp only
    split <;> exact ⟨rfl, rfl⟩
  · rename_i hgallery hcontrols
    rw [if_neg (not_or.2 ⟨hgallery, hcontrols⟩)]
    exact ⟨rfl, rfl⟩

theorem keyVertical_after (down : Bool) (c : Screen) :
    c.style.After (keyVertical down c).style
      (if c.scene = .gallery ∨ c.scene = .controls then none
        else some (categoryStyle (if down then 1 else -1) c.style.selectedStyle)) := by
  generalize hselected : (if c.scene = .gallery ∨ c.scene = .controls then none
    else some (categoryStyle (if down then 1 else -1) c.style.selectedStyle)) = selected
  unfold keyVertical
  split
  · rename_i hscene
    rw [if_pos (.inr hscene)] at hselected
    subst hselected
    exact ⟨rfl, rfl⟩
  · rename_i hscene
    rw [if_pos (.inl hscene)] at hselected
    subst hselected
    exact ⟨rfl, rfl⟩
  · rename_i hcontrols hgallery
    rw [if_neg (not_or.2 ⟨hgallery, hcontrols⟩)] at hselected
    subst hselected
    exact ⟨rfl, rfl⟩

theorem keyConfirm_after (sh : Shared) :
    sh.screen.style.After (keyConfirm sh).screen.style none := by
  unfold keyConfirm
  split
  · have hsame : Screen.Same sh.screen (queueGalleryDeleteLocked sh).2.screen :=
      queueGalleryLocked_same (.refl _)
    dsimp only
    split
    · exact after_same hsame.toSameSettings
    · have hafter : sh.screen.style.After (queueGalleryDeleteLocked sh).2.screen.style none :=
        after_same hsame.toSameSettings
      exact hafter
  · unfold toggleFavoriteLocked
    dsimp only
    split <;> exact ⟨rfl, rfl⟩
  · exact ⟨rfl, rfl⟩
  · exact ⟨rfl, rfl⟩

theorem keyEffect_after (keyValue : PhotoUiKey) (timestampMs : Int) (sh : Shared) :
    sh.screen.style.After (keyEffect keyValue timestampMs sh).2.screen.style
      (keySelects keyValue sh.screen) := by
  have hnone {s' : Style} (h : sh.screen.style.After s' none) : sh.screen.style.After s'
      (if sh.screen.scene = .gallery ∨ sh.screen.scene = .controls then none else none) := by
    rwa [ite_self]
  cases keyValue with
  | previous => exact keyDirection_after (-1) sh
  | next => exact keyDirection_after 1 sh
  | up => exact keyVertical_after false sh.screen
  | down => exact keyVertical_after true sh.screen
  | confirm => exact hnone (keyConfirm_after sh)
  | gallery => exact hnone (after_same (keyGallery_same sh).toSameSettings)
  | back => exact hnone (after_same (keyBack_same sh.screen).toSameSettings)
  | diagnostics | browser | record | focus | compare | capture | other => exact hnone ⟨rfl, rfl⟩

theorem key_after (keyValue : PhotoUiKey) (down : Bool) (timestampMs : Int) (sh : Shared) :
    sh.screen.style.After (key keyValue down timestampMs sh).2.screen.style
      ((UiCall.key keyValue down timestampMs).selects sh.screen) := by
  change sh.screen.style.After _ (if down = false then none else keySelects keyValue sh.screen)
  unfold key
  by_cases hcompare : keyValue = .compare
  · subst hcompare
    have hselects : keySelects .compare sh.screen = none := ite_self _
    rw [if_pos rfl, hselects, ite_self]
    exact ⟨rfl, rfl⟩
  rw [if_neg hcompare]
  by_cases hdown : down = false
  · rw [if_pos hdown, if_pos hdown]
    exact ⟨rfl, rfl⟩
  · rw [if_neg hdown, if_neg hdown]
    exact keyEffect_after keyValue timestampMs { sh with
      screen.controlsVisible := true
      screen.controlsVisibleUntilMs := timestampMs + 2000 }

theorem touch_after (action : TouchAction) (timestampMs : Int) (sh : Shared) :
    sh.screen.style.After (touch action timestampMs sh.screen).style
      ((UiCall.touch action timestampMs).selects sh.screen) := by
  cases action with
  | down => exact ⟨rfl, rfl⟩
  | move =>
    unfold touch
    dsimp only
    split <;> exact ⟨rfl, rfl⟩
  | up swipe => cases swipe <;> exact ⟨rfl, rfl⟩
  | other => exact ⟨rfl, rfl⟩

theorem changeStyle_after (delta : Int) (sh : Shared) :
    sh.screen.style.After (changeStyle delta sh.screen).style
      ((UiCall.changeStyle delta).selects sh.screen) := by
  change sh.screen.style.After _
    (if delta = 0 then none else some (shiftedStyle sh.screen.style.selectedStyle delta))
  by_cases hd : delta = 0
  · rw [changeStyle, if_pos hd, if_pos hd]
    exact ⟨rfl, rfl⟩
  · rw [changeStyle_eq hd, if_neg hd]
    exact ⟨rfl, rfl⟩

/-- A call records the style that it selects, and no other. -/
theorem UiCall.run_after (filtered : Frame) (call : UiCall) (sh : Shared) :
    sh.screen.style.After (call.run filtered sh).screen.style (call.selects sh.screen) := by
  cases call with
  | key keyValue down timestampMs => exact key_after keyValue down timestampMs sh
  | touch action timestampMs => exact touch_after action timestampMs sh
  | changeStyle delta => exact changeStyle_after delta sh
  | requestPhoto timestampMs => exact after_same (requestPhoto_same filtered _ sh).toSameSettings
  | setFocus active => exact ⟨rfl, rfl⟩
  | configureStorage status => exact ⟨rfl, rfl⟩
  | noteAttempts attempts => exact ⟨rfl, rfl⟩
  | submitJpeg jpeg timestampMs => exact after_same (submitJpeg_settings jpeg timestampMs _)

/-! ## Runs -/

variable {s s' s₀ : DisplayProbeWorker} {l o : List Act} {es : List Event}

/-- The styles that an event selects. -/
def Event.selects (s : DisplayProbeWorker) : Event → List Int
  | .ui call => (call.selects s.shared.screen).toList
  | _ => []

/-- No settings file is applied. -/
def nothingLoaded : Guard DisplayProbeWorker Event Act := fun _ s e =>
  ∀ freeBytes state settings, e = .photo (.install freeBytes) →
    s.photo.pc ≠ .initialized state (some settings)

/-- **One step** records what its event selects. -/
theorem worker_step_recent {e : Event} (hg : nothingLoaded l s e)
    (hs : worker.step s e = some (s', o)) :
    s'.shared.screen.style.recent =
      (e.selects s).foldl (fun recent style => recordRecent style recent)
        s.shared.screen.style.recent := by
  cases e with
  | ui call =>
    cases hs
    have hafter := call.run_after s.frame.filtered s.shared
    simp only [Event.selects]
    cases hselects : call.selects s.shared.screen with
    | none =>
      rw [hselects] at hafter
      exact hafter.2
    | some style =>
      rw [hselects] at hafter
      exact hafter.2
  | frame e =>
    obtain ⟨v, hv, hs⟩ := Option.map_eq_some_iff.1 hs
    cases hs
    exact congrArg Style.recent (FrameEvent.run_settings hv).style
  | photo e =>
    obtain ⟨v, hv, hs⟩ := Option.map_eq_some_iff.1 hs
    cases hs
    have hstep : e.Step s.shared s.photo v := PhotoEvent.run_step hv
    cases hstep with
    | install freeBytes state settings event pc eq =>
      subst eq
      cases settings with
      | none => exact congrArg Style.recent (installStore_style state none freeBytes _ _)
      | some settings => exact absurd pc (hg freeBytes state settings (event ▸ rfl))
    | publish job result now freeBytes event pc eq =>
      subst eq
      exact congrArg Style.recent (publish_same job result now freeBytes _ _).style
    | exit event pc running eq => exact eq ▸ rfl
    | configure event pc eq => exact eq ▸ rfl
    | opened plan readable status event pc eq => exact eq ▸ rfl
    | take event pc pending eq => exact eq ▸ rfl
    | call job event pc eq => exact eq ▸ rfl
    | finish job work r event pc call eq => exact eq ▸ rfl
    | handBack job result event pc eq => exact eq ▸ rfl
  | owner created plan =>
    obtain ⟨_, hv, hs⟩ := Option.map_eq_some_iff.1 hs
    cases hs
    obtain ⟨_, _, _, _, hscreen⟩ := ownerStep_screen hv
    rw [hscreen]
    rfl

/-- The array, shifted by each of the styles that the events select. -/
def recordAll (s₀ : DisplayProbeWorker) (es : List Event) (r : RecentStyles) :
    Option RecentStyles :=
  (worker.notes Event.selects s₀ es).foldlM RecentStyles.recordRecentLocked r

theorem recordAll_refines (r : RecentStyles) (styles : List Int) :
    ∃ r', styles.foldlM RecentStyles.recordRecentLocked r = some r' ∧
      r'.used = styles.foldl (fun recent style => recordRecent style recent) r.used := by
  induction styles generalizing r with
  | nil => exact ⟨r, rfl, rfl⟩
  | cons style styles ih =>
    obtain ⟨next, hnext, hused⟩ := recordRecentLocked_refines r style
    obtain ⟨r', hrest, hlast⟩ := ih next
    refine ⟨r', by rw [List.foldlM_cons, hnext]; exact hrest, ?_⟩
    rw [List.foldl_cons, ← hused]
    exact hlast

theorem foldl_recordRecent {recent : List Int} (hnodup : recent.Nodup)
    (hlen : recent.length ≤ kRecentPresetCount) (styles : List Int) :
    styles.foldl (fun recent style => recordRecent style recent) recent =
      mostRecent kRecentPresetCount (styles.reverse ++ recent) := by
  have hfold := foldl_use (f := fun recent style => recordRecent style recent)
    (by decide : 0 < kRecentPresetCount) (fun _ style h hle => recordRecent_use h hle style)
    styles recent
  rwa [mostRecent_self hnodup hlen] at hfold

theorem run_recent (h : Reach worker nothingLoaded s₀ es l s) :
    s.shared.screen.style.recent =
      (worker.notes Event.selects s₀ es).foldl (fun recent style => recordRecent style recent)
        s₀.shared.screen.style.recent := by
  induction h with
  | init => rfl
  | step h hg hs ih =>
    rw [worker_step_recent hg hs, h.notes_step Event.selects hs, List.foldl_append, ih]

/-- **The recent styles are a most-recently-used list**: over any run that loads no settings, the
first 12 different ones of the styles that were selected, the last one first, and of those that
were there before. -/
theorem recent_mostRecent (r : RecentStyles) (hnodup : r.used.Nodup)
    (hr : s₀.shared.screen.style.recent = r.used)
    (h : Reach worker nothingLoaded s₀ es l s) :
    ∃ r', recordAll s₀ es r = some r' ∧ s.shared.screen.style.recent = r'.used ∧
      r'.used = mostRecent kRecentPresetCount
        ((worker.notes Event.selects s₀ es).reverse ++ r.used) ∧
      r'.used.Nodup ∧
      ∀ style, (worker.notes Event.selects s₀ es).getLast? = some style →
        r'.used.head? = some style := by
  obtain ⟨r', hall, hused⟩ := recordAll_refines r (worker.notes Event.selects s₀ es)
  have hlen : r.used.length ≤ kRecentPresetCount := by
    rw [RecentStyles.used, r.recent.front_length r.inArray]
    exact r.inArray
  have hrecent := (run_recent h).trans (hr ▸ hused.symm)
  have hmost := hused.trans (foldl_recordRecent hnodup hlen _)
  refine ⟨r', hall, hrecent, hmost, hmost ▸ mostRecent_nodup .., fun style hlast => ?_⟩
  obtain ⟨before, hbefore⟩ := List.getLast?_eq_some_iff.1 hlast
  rw [hmost, hbefore, List.reverse_append, List.reverse_singleton]
  exact mostRecent_head (by decide) _ style

/-- A worker with two recent styles. -/
def twoRecent : DisplayProbeWorker :=
  let s := DisplayProbeWorker.create 0 none none none .ready blackFrame { card := fun _ => none }
  { s with shared.screen.style.recent := [5, 3] }

theorem recent_mostRecent_two : ∃ l s r', Reach worker nothingLoaded twoRecent
      [.ui (.key .next true 0), .ui (.changeStyle 4)] l s ∧
    recordAll twoRecent [.ui (.key .next true 0), .ui (.changeStyle 4)]
      ⟨⟨fun i => if i.val = 0 then 5 else 3⟩, 2, by decide⟩ = some r' ∧
    s.shared.screen.style.recent = r'.used ∧ r'.used = [5, 1, 3] := by
  have hui (l : List Act) (s : DisplayProbeWorker) (call : UiCall) :
      nothingLoaded l s (.ui call) := fun _ _ _ h => by cases h
  obtain ⟨s₁, o₁, h₁⟩ : ∃ s₁ o₁, worker.step twoRecent (.ui (.key .next true 0)) =
      some (s₁, o₁) := ⟨_, _, rfl⟩
  obtain ⟨s₂, o₂, h₂⟩ : ∃ s₂ o₂, worker.step s₁ (.ui (.changeStyle 4)) = some (s₂, o₂) :=
    ⟨_, _, rfl⟩
  have hreach := Reach.step (.step .init (hui [] twoRecent _) h₁) (hui _ s₁ _) h₂
  obtain ⟨r', hall, hrecent, hmost, -⟩ := recent_mostRecent
    ⟨⟨fun i => if i.val = 0 then 5 else 3⟩, 2, by decide⟩ (by decide) (by decide) hreach
  refine ⟨_, _, r', hreach, hall, hrecent, hmost.trans ?_⟩
  decide +kernel

end RetroLens.Worker
