import RetroLens.Store.Entry

/-!
# Writing a file in full

`flushAndClose` and `atomicReplace`, and the ways the photo store uses them:
`replaceText` for the index and the settings, `writeAndReplace` for the photo
and its thumbnail, `closeAndReplace` for the sidecar. A `FilePlan` says what each call of one file's
writing does.
-/

namespace RetroLens.Store

open Text Disk

structure FilePlan where
  fopen : Outcome := .done
  /-- It fails where `fwrite` comes back short. -/
  fwrite : Outcome := .done
  fflush : Outcome := .done
  /-- What a failed flush leaves in the file. -/
  torn : Bytes := []
  fsync : Outcome := .done
  fclose : Outcome := .done
  rename : Outcome := .done
  /-- The sync of the directory after the rename. -/
  directory : Outcome := .done
  /-- The `unlink` of the temporary file in `atomicReplace`. -/
  discard : Outcome := .done
  /-- The caller's `unlink` of the temporary file. -/
  cleanup : Outcome := .done
  deriving DecidableEq, Repr

/-- EINVAL, ENOSYS and ENOTSUP. -/
def syncTolerated (errno : Int) : Bool := errno == 22 || errno == 38 || errno == 95

namespace FilePlan

def synced (f : FilePlan) : Bool :=
  match f.fsync with
  | .done _ => true
  | .fails errno => syncTolerated errno

/-- What `flushAndClose` returns. -/
def closes (f : FilePlan) : Bool := f.fflush.ok && f.synced && f.fclose.ok

/-- The file is closed and put in place. -/
def replaces (f : FilePlan) : Bool := f.closes && f.rename.ok

end FilePlan

def flushAndClose (f : FilePlan) (p : Path) (data : Bytes) (w : CardWorld) : Bool × CardWorld :=
  let r := w.fflush f.fflush f.torn p data
  let ok := r.1
  let w := if ok then r.2.note f.fsync else r.2
  let ok := ok && (f.fsync.ok || syncTolerated w.errno)
  let r := w.fclose f.fclose
  (ok && r.1, r.2)

def atomicReplace (f : FilePlan) (temporary final : Path) (w : CardWorld) : Bool × CardWorld :=
  let r := w.rename f.rename temporary final
  if r.1 then (true, r.2.note f.directory)
  else (false, (r.2.unlink f.discard temporary).2)

def closeAndReplace (f : FilePlan) (final : Path) (data : Bytes) (w : CardWorld) :
    Bool × CardWorld :=
  let r := flushAndClose f final.temporary data w
  if !r.1 then (false, r.2) else atomicReplace f final.temporary final r.2

/-- From `fwrite` on: a short `fwrite` skips `flushAndClose`. -/
def writeAndReplace (f : FilePlan) (final : Path) (data : Bytes) (w : CardWorld) :
    Bool × CardWorld :=
  if !f.fwrite.ok then (false, w.note f.fwrite) else closeAndReplace f final data w

/-- Open the temporary file, print `text` into it and put it in `final`'s place. -/
def replaceText (f : FilePlan) (final : Path) (text : Bytes) (w : CardWorld) : Bool × CardWorld :=
  let r := w.fopen f.fopen final.temporary
  if !r.1 then (false, r.2)
  else
    let r := flushAndClose f final.temporary text r.2
    if !r.1 then (false, (r.2.unlink f.cleanup final.temporary).2)
    else atomicReplace f final.temporary final r.2

/-! ## What they do -/

/-- `final` holds `data` and the temporary file is gone, by one last change of the card. -/
structure Replaced (final : Path) (data : Bytes) (w w' : CardWorld) : Prop where
  card : w'.card = Function.update (Function.update w.card final.temporary none) final (some data)
  trail : ∃ t, w'.trail = w.trail ++ t ++ [w'.card] ∧
    ∀ c ∈ t, ∀ p ≠ final.temporary, c p = w.card p

/-- Nothing but the temporary file has changed. -/
abbrev Untouched (final : Path) (w w' : CardWorld) : Prop := Within {final.temporary} w w'

variable {f : FilePlan} {p final : Path} {data text : Bytes} {w : CardWorld}

theorem Replaced.card_of {v : CardWorld} (h : Replaced final data w v) (hp : p ≠ final)
    (ht : p ≠ final.temporary) : v.card p = w.card p := by
  rw [h.card, Function.update_of_ne hp, Function.update_of_ne ht]

theorem Replaced.within {v : CardWorld} (h : Replaced final data w v) :
    Within {final.temporary, final} w v := by
  have hcard : ∀ p ∉ ({final.temporary, final} : Set Path), v.card p = w.card p := by
    intro p hp
    simp only [Set.mem_insert_iff, Set.mem_singleton_iff, not_or] at hp
    exact h.card_of hp.2 hp.1
  obtain ⟨t, ht, htc⟩ := h.trail
  refine ⟨hcard, t ++ [v.card], by rw [ht, List.append_assoc], fun c hc p hp => ?_⟩
  rcases List.mem_append.1 hc with hc | hc
  · exact htc c hc p fun he => hp (.inl he)
  · rw [List.mem_singleton.1 hc]
    exact hcard p hp

/-- Up to the rename only `S` and the temporary file differ from the first card,
and from then on only `T` from the card that the rename left. -/
theorem Replaced.passed {S T : Set Path} {v u w' : CardWorld} (hv : Within S w v)
    (hu : Replaced final data v u) (hw : Within T u w') {c : Card Path} (hc : c ∈ passed w w') :
    (∀ p ∉ S, p ≠ final.temporary → c p = w.card p) ∨ (∀ p ∉ T, c p = u.card p) := by
  obtain ⟨hvc, t₁, ht₁, hc₁⟩ := hv
  obtain ⟨t₂, ht₂, hc₂⟩ := hu.trail
  obtain ⟨hwc, t₃, ht₃, hc₃⟩ := hw
  rcases hc with rfl | rfl | ⟨t, ht, hc⟩
  · exact .inl fun _ _ _ => rfl
  · exact .inr hwc
  · rw [ht₃, ht₂, ht₁] at ht
    simp only [List.append_assoc] at ht
    rw [← List.append_cancel_left ht] at hc
    simp only [List.mem_append, List.mem_singleton] at hc
    rcases hc with hc | hc | rfl | hc
    · exact .inl fun p hp _ => hc₁ c hc p hp
    · exact .inl fun p hp ht => (hc₂ c hc p ht).trans (hvc p hp)
    · exact .inr fun _ _ => rfl
    · exact .inr (hc₃ c hc)

theorem fopen_spec {o : Outcome} (ho : o.ok = true) :
    ∃ v, w.fopen o p = (true, v) ∧ Within {p} w v ∧ v.streams = w.streams + 1 := by
  refine ⟨{ (w.put p (some [])).note o with streams := w.streams + 1 }, by simp [World.fopen, ho],
    ?_, rfl⟩
  exact (put_within (Set.mem_singleton p)).congr rfl rfl

/-- What stands under `p` before an update of `p` does not matter. -/
theorem update_eq_of_within {w' : CardWorld} {x : Option Bytes} (h : Within {p} w w') :
    Function.update w'.card p x = Function.update w.card p x := by
  funext q
  by_cases hq : q = p
  · rw [hq, Function.update_self, Function.update_self]
  · rw [Function.update_of_ne hq, Function.update_of_ne hq, h.card q hq]

theorem flushAndClose_spec (f : FilePlan) (p : Path) (data : Bytes) (w : CardWorld) :
    (flushAndClose f p data w).1 = f.closes ∧
      (flushAndClose f p data w).2.streams = w.streams - 1 ∧
      Within {p} w (flushAndClose f p data w).2 ∧
      (flushAndClose f p data w).2.card =
        Function.update w.card p (some (if f.fflush.ok then data else f.torn)) := by
  have hput : Within {p} w (w.put p (some (if f.fflush.ok then data else f.torn))) :=
    put_within rfl
  refine ⟨?_, ?_, hput.congr ?_ ?_, ?_⟩
  · cases h : f.fflush.ok
    · simp [flushAndClose, World.fflush, h, FilePlan.closes]
    · cases hs : f.fsync <;>
        simp [flushAndClose, World.fflush, World.fclose, h, FilePlan.closes, FilePlan.synced, hs]
  all_goals cases h : f.fflush.ok <;> simp [flushAndClose, World.fflush, World.fclose, h]

theorem closes_flush (h : f.closes = true) : f.fflush.ok = true := by
  simp only [FilePlan.closes, Bool.and_eq_true] at h
  exact h.1.1

/-- A replacement succeeds in one step, or leaves all but the temporary file alone. -/
theorem atomicReplace_spec (hsrc : w.card final.temporary = some data) :
    (atomicReplace f final.temporary final w).1 = f.rename.ok ∧
      (atomicReplace f final.temporary final w).2.streams = w.streams ∧
      (f.rename.ok = true →
        (atomicReplace f final.temporary final w).2.card =
            Function.update (Function.update w.card final.temporary none) final (some data) ∧
          (atomicReplace f final.temporary final w).2.trail =
            w.trail ++ [(atomicReplace f final.temporary final w).2.card]) ∧
      (f.rename.ok = false →
        Untouched final w (atomicReplace f final.temporary final w).2 ∧
          (f.discard.ok = true →
            (atomicReplace f final.temporary final w).2.card final.temporary = none)) := by
  cases h : f.rename.ok with
  | true =>
    simp [atomicReplace, World.rename, hsrc, h, World.become]
  | false =>
    have hw : (w.rename f.rename final.temporary final) = (false, w.note f.rename) := by
      simp [World.rename, hsrc, h]
    have hu := (note_within f.rename w).trans
      (unlink_within f.discard (Set.mem_singleton final.temporary))
    simp only [atomicReplace, hw, Bool.false_eq_true, if_false, unlink_streams, note_streams]
    exact ⟨trivial, trivial, by simp, fun _ =>
      ⟨hu, fun hd => by rw [unlink_card hd, Function.update_self]⟩⟩

theorem closeAndReplace_spec (f : FilePlan) (final : Path) (data : Bytes) (w : CardWorld) :
    (closeAndReplace f final data w).1 = f.replaces ∧
      (closeAndReplace f final data w).2.streams = w.streams - 1 ∧
      (f.replaces = true → Replaced final data w (closeAndReplace f final data w).2) ∧
      (f.replaces = false → Untouched final w (closeAndReplace f final data w).2) := by
  obtain ⟨hfst, hs, hw, hc⟩ := flushAndClose_spec f final.temporary data w
  unfold closeAndReplace FilePlan.replaces
  cases h : f.closes with
  | false =>
    simp only [hfst, h, Bool.not_false, if_true]
    exact ⟨rfl, hs, by simp, fun _ => hw⟩
  | true =>
    rw [if_pos (closes_flush h)] at hc
    have hsrc : (flushAndClose f final.temporary data w).2.card final.temporary = some data := by
      rw [hc, Function.update_self]
    obtain ⟨hfst', hs', hdone, hfail⟩ := atomicReplace_spec (f := f) hsrc
    simp only [hfst, h, Bool.not_true, Bool.false_eq_true, if_false, Bool.true_and]
    refine ⟨hfst', hs'.trans hs, fun hr => ?_, fun hr => hw.trans (hfail hr).1⟩
    obtain ⟨hc', ht'⟩ := hdone hr
    obtain ⟨-, t, ht, htc⟩ := hw
    refine ⟨?_, t, ?_, fun c hmem q hq => htc c hmem q hq⟩
    · rw [hc', hc, Function.update_idem]
    · rw [ht', ht]

/-- A text file is replaced in one step, or all but the temporary file is as it
was; the temporary file is then gone if the clean-up can remove it. -/
theorem replaceText_spec (f : FilePlan) (final : Path) (text : Bytes) (w : CardWorld) :
    (replaceText f final text w).1 = (f.fopen.ok && f.replaces) ∧
      (replaceText f final text w).2.streams = w.streams ∧
      ((f.fopen.ok && f.replaces) = true → Replaced final text w (replaceText f final text w).2) ∧
      ((f.fopen.ok && f.replaces) = false →
        Untouched final w (replaceText f final text w).2 ∧
          (f.cleanup.ok = true → f.discard.ok = true →
            Restores {final.temporary} w.card (replaceText f final text w).2.card)) := by
  unfold replaceText FilePlan.replaces
  cases ho : f.fopen.ok with
  | false =>
    have hw : w.fopen f.fopen final.temporary = (false, w.note f.fopen) := by
      simp [World.fopen, ho]
    simp only [hw, Bool.not_false, if_true, Bool.false_and]
    exact ⟨trivial, rfl, by simp, fun _ => ⟨.of_eq rfl rfl, fun _ _ => .refl _ _⟩⟩
  | true =>
    obtain ⟨v, hv, hopen, hstreams⟩ := fopen_spec (o := f.fopen) (p := final.temporary) (w := w) ho
    obtain ⟨hfst, hs, hw, hc⟩ := flushAndClose_spec f final.temporary text v
    have hw := hopen.trans hw
    simp only [hv, Bool.not_true, Bool.false_eq_true, if_false, Bool.true_and]
    cases h : f.closes with
    | false =>
      simp only [hfst, h, Bool.not_false, if_true, unlink_streams, Bool.false_and]
      refine ⟨trivial, by omega, by simp, fun _ => ⟨?_, fun hcl _ => ?_⟩⟩
      · exact hw.trans (unlink_within _ (Set.mem_singleton _))
      · rw [unlink_card hcl, update_eq_of_within hw]
        exact restores_none (Set.mem_singleton _)
    | true =>
      rw [if_pos (closes_flush h)] at hc
      have hsrc : (flushAndClose f final.temporary text v).2.card final.temporary = some text := by
        rw [hc, Function.update_self]
      obtain ⟨hfst', hs', hdone, hfail⟩ := atomicReplace_spec (f := f) hsrc
      simp only [hfst, h, Bool.not_true, Bool.false_eq_true, if_false, Bool.true_and]
      refine ⟨hfst', by omega, fun hr => ?_, fun hr => ?_⟩
      · obtain ⟨hc', ht'⟩ := hdone hr
        obtain ⟨-, t, ht, htc⟩ := hw
        refine ⟨?_, t, by rw [ht', ht], fun c hmem q hq => htc c hmem q hq⟩
        rw [hc', hc, Function.update_idem, update_eq_of_within hopen]
      · obtain ⟨hu, hgone⟩ := hfail hr
        have hall := hw.trans hu
        refine ⟨hall, fun _ hd q => ?_⟩
        by_cases hq : q = final.temporary
        · exact .inr ⟨hq, hq ▸ hgone hd⟩
        · exact .inl (hall.card q hq)

end RetroLens.Store
