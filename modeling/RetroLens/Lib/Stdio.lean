import RetroLens.Lib.Text

/-!
# Buffered streams

An output stream of the C library: bytes go to a buffer, and the buffer to the
file when the library is forced to write it, when the stream is flushed and
when the position changes. A write that fails loses what the buffer holds and
sets the error indicator, which nothing clears. `Faults` says, for each call in
turn, whether a write is forced and whether it succeeds; so it stands for any
size of the buffer and any pattern of failures.

* `Shown s file pos` — the stream holds `file` and stands at `pos`.
* `Clean P x Q` — from `P`, the program `x` ends in `Q` if no write has failed
  by then. Its rules compose, so a program is taken apart at its binds.
* `Quiet x` — no write of `x` fails.
-/

namespace Stdio

open Text

/-- What becomes of the `n`-th call: no write is forced, or one is and succeeds or not. -/
abbrev Faults := Nat → Option Bool

structure Stream where
  /-- The bytes of the file. -/
  disk : Bytes := []
  /-- Where the buffer goes in it. -/
  start : Nat := 0
  buffer : Bytes := []
  /-- The number of writes that failed. -/
  failed : Nat := 0
  /-- The number of calls so far. -/
  calls : Nat := 0
  deriving DecidableEq, Repr

/-- `bytes` in place of what is at `pos`, or beyond the end. -/
def overwrite (file : Bytes) (pos : Nat) (bytes : Bytes) : Bytes :=
  file.take pos ++ List.replicate (pos - file.length) 0 ++ bytes ++ file.drop (pos + bytes.length)

namespace Stream

def ferror (s : Stream) : Bool := decide (0 < s.failed)

def ftell (s : Stream) : Nat := s.start + s.buffer.length

/-- Write the buffer out, if there is anything in it. -/
def writeOut (ok : Bool) (s : Stream) : Stream :=
  if s.buffer = [] then s
  else if ok then
    { s with
      disk := overwrite s.disk s.start s.buffer
      start := s.start + s.buffer.length
      buffer := [] }
  else { s with buffer := [], failed := s.failed + 1 }

def force (faults : Faults) (s : Stream) : Stream :=
  match faults s.calls with
  | some ok => s.writeOut ok
  | none => s

def fputc (faults : Faults) (c : UInt8) (s : Stream) : Stream :=
  let s := s.force faults
  { s with buffer := s.buffer ++ [c], calls := s.calls + 1 }

def fputs (faults : Faults) (bytes : Bytes) (s : Stream) : Stream :=
  bytes.foldl (fun s c => s.fputc faults c) s

/-- `fwrite` of all the bytes, and whether it could write them. -/
def fwrite (faults : Faults) (bytes : Bytes) (s : Stream) : Bool × Stream :=
  let s' := s.fputs faults bytes
  (s'.failed == s.failed, s')

def fflush (faults : Faults) (s : Stream) : Bool × Stream :=
  let s' := s.writeOut (faults s.calls != some false)
  (s'.failed == s.failed, { s' with calls := s.calls + 1 })

/-- `fseek` flushes the stream, and stays where it is if that fails. -/
def fseek (faults : Faults) (pos : Nat) (s : Stream) : Stream :=
  let r := s.fflush faults
  if r.1 then { r.2 with start := pos } else r.2

/-- The file that `fclose` leaves. -/
def fclose (faults : Faults) (s : Stream) : Bytes := (s.fflush faults).2.disk

end Stream

variable {faults : Faults} {s : Stream} {file bytes a b : Bytes} {pos : Nat} {c : UInt8} {ok : Bool}

/-! ## Overwriting -/

theorem overwrite_of_le (h : pos ≤ file.length) (bytes : Bytes) :
    overwrite file pos bytes = file.take pos ++ bytes ++ file.drop (pos + bytes.length) := by
  simp [overwrite, Nat.sub_eq_zero_of_le h]

@[simp] theorem overwrite_nil (h : pos ≤ file.length) : overwrite file pos [] = file := by
  simp [overwrite_of_le h]

theorem overwrite_length (h : pos ≤ file.length) (bytes : Bytes) :
    (overwrite file pos bytes).length = max file.length (pos + bytes.length) := by
  simp [overwrite_of_le h]
  omega

theorem overwrite_append (h : pos ≤ file.length) (a b : Bytes) :
    overwrite (overwrite file pos a) (pos + a.length) b = overwrite file pos (a ++ b) := by
  have hle : pos + a.length ≤ (overwrite file pos a).length := by
    rw [overwrite_length h]; omega
  have hpos : (file.take pos).length = pos := List.length_take_of_le h
  have htake : (overwrite file pos a).take (pos + a.length) = file.take pos ++ a := by
    rw [overwrite_of_le h]
    exact List.take_left' (by simp [hpos])
  have hdrop : (overwrite file pos a).drop (pos + a.length + b.length) =
      file.drop (pos + (a ++ b).length) := by
    rw [← List.drop_drop, overwrite_of_le h, List.drop_left' (by simp [hpos]), List.drop_drop,
      List.length_append, Nat.add_assoc]
  rw [overwrite_of_le hle, htake, hdrop, overwrite_of_le h, List.append_assoc (file.take pos)]

theorem overwrite_end (file bytes : Bytes) :
    overwrite file file.length bytes = file ++ bytes := by
  simp [overwrite_of_le (Nat.le_refl _)]

/-- A part of the file replaced by one of its length. -/
theorem overwrite_middle (a old new b : Bytes) (h : old.length = new.length) :
    overwrite (a ++ (old ++ b)) a.length new = a ++ (new ++ b) := by
  rw [overwrite_of_le (by simp), List.take_left, ← List.append_assoc a old b,
    List.drop_left' (by simp [h]), List.append_assoc]

/-- The place to overwrite is beyond `a`. -/
theorem overwrite_skip {n : Nat} (h : a.length = n) (b bytes : Bytes) (k : Nat) :
    overwrite (a ++ b) (n + k) bytes = a ++ overwrite b k bytes := by
  subst h
  have htake : (a ++ b).take (a.length + k) = a ++ b.take k := List.take_length_add_append k
  have hdrop : (a ++ b).drop (a.length + k + bytes.length) = b.drop (k + bytes.length) := by
    rw [Nat.add_assoc]
    exact List.drop_length_add_append _
  simp only [overwrite, htake, hdrop, List.length_append, Nat.add_sub_add_left, List.append_assoc]

theorem overwrite_front (old new b : Bytes) (h : old.length = new.length) :
    overwrite (old ++ b) 0 new = new ++ b :=
  overwrite_middle [] old new b h

/-! ## Failures are never forgotten -/

theorem writeOut_failed_le (ok : Bool) (s : Stream) : s.failed ≤ (s.writeOut ok).failed := by
  unfold Stream.writeOut
  split_ifs <;> simp

theorem force_failed_le (faults : Faults) (s : Stream) : s.failed ≤ (s.force faults).failed := by
  unfold Stream.force
  split
  · exact writeOut_failed_le _ s
  · exact Nat.le_refl _

@[simp] theorem fputs_nil (faults : Faults) (s : Stream) : s.fputs faults [] = s := rfl

@[simp] theorem fputs_cons (faults : Faults) (c : UInt8) (bytes : Bytes) (s : Stream) :
    s.fputs faults (c :: bytes) = (s.fputc faults c).fputs faults bytes := rfl

theorem fputs_append (faults : Faults) (a b : Bytes) (s : Stream) :
    s.fputs faults (a ++ b) = (s.fputs faults a).fputs faults b :=
  List.foldl_append

theorem fputs_failed_le (faults : Faults) (bytes : Bytes) (s : Stream) :
    s.failed ≤ (s.fputs faults bytes).failed := by
  induction bytes generalizing s with
  | nil => exact Nat.le_refl _
  | cons c bytes ih => exact Nat.le_trans (force_failed_le faults s) (ih (s.fputc faults c))

theorem fflush_failed_le (faults : Faults) (s : Stream) :
    s.failed ≤ (s.fflush faults).2.failed :=
  writeOut_failed_le _ s

theorem fseek_failed (faults : Faults) (pos : Nat) (s : Stream) :
    (s.fseek faults pos).failed = (s.fflush faults).2.failed := by
  unfold Stream.fseek
  dsimp only
  split_ifs <;> rfl

/-! ## Programs on a stream -/

/-- A program on a stream; it cannot take a failure back. -/
structure Out (α : Type) where
  run : Stream → α × Stream
  mono : ∀ s, s.failed ≤ (run s).2.failed

namespace Out

instance : Monad Out where
  pure a := ⟨fun s => (a, s), fun _ => Nat.le_refl _⟩
  bind x f :=
    ⟨fun s => (f (x.run s).1).run (x.run s).2, fun s => Nat.le_trans (x.mono s) ((f _).mono _)⟩

def fputc (faults : Faults) (c : UInt8) : Out Unit :=
  ⟨fun s => ((), s.fputc faults c), force_failed_le faults⟩

def fputs (faults : Faults) (bytes : Bytes) : Out Unit :=
  ⟨fun s => ((), s.fputs faults bytes), fputs_failed_le faults bytes⟩

def fwrite (faults : Faults) (bytes : Bytes) : Out Bool :=
  ⟨fun s => s.fwrite faults bytes, fputs_failed_le faults bytes⟩

def fflush (faults : Faults) : Out Bool :=
  ⟨fun s => s.fflush faults, fflush_failed_le faults⟩

def fseek (faults : Faults) (pos : Nat) : Out Unit :=
  ⟨fun s => ((), s.fseek faults pos), fun s => fseek_failed faults pos s ▸ fflush_failed_le faults s⟩

def ftell : Out Nat := ⟨fun s => (s.ftell, s), fun _ => Nat.le_refl _⟩

def ferror : Out Bool := ⟨fun s => (s.ferror, s), fun _ => Nat.le_refl _⟩

end Out

/-- Texts printed one after the other are one text. -/
theorem fputs_bind (faults : Faults) (a b : Bytes) :
    (do Out.fputs faults a; Out.fputs faults b) = Out.fputs faults (a ++ b) := by
  have hrun : (do Out.fputs faults a; Out.fputs faults b : Out Unit).run =
      (Out.fputs faults (a ++ b)).run :=
    funext fun s => congrArg (Prod.mk ()) (fputs_append faults a b s).symm
  exact Out.mk.injEq .. |>.mpr hrun

theorem fputs_bind_bind {α : Type} (faults : Faults) (a b : Bytes) (k : Unit → Out α) :
    (Out.fputs faults a >>= fun _ => Out.fputs faults b >>= k) =
      Out.fputs faults (a ++ b) >>= k := by
  rw [← fputs_bind]
  rfl

theorem fputc_eq (faults : Faults) (c : UInt8) : Out.fputc faults c = Out.fputs faults [c] := rfl

theorem fputs_forM {α : Type} (faults : Faults) (f : α → Bytes) (l : List α) :
    (l.forM fun a => Out.fputs faults (f a)) = Out.fputs faults (l.flatMap f) := by
  induction l with
  | nil => rfl
  | cons a l ih =>
    rw [List.flatMap_cons, ← fputs_bind, ← ih]
    rfl

/-- From `P`, and if no write has failed by its end, `x` ends in `Q`. -/
def Clean {α : Type} (P : Stream → Prop) (x : Out α) (Q : α → Stream → Prop) : Prop :=
  ∀ s, P s → (x.run s).2.failed = 0 → Q (x.run s).1 (x.run s).2

section Rules

variable {α β : Type} {P P' : Stream → Prop} {Q Q' : α → Stream → Prop} {x : Out α}

theorem Out.failed_start (x : Out α) {s : Stream} (h : (x.run s).2.failed = 0) : s.failed = 0 :=
  Nat.le_zero.1 (h ▸ x.mono s)

theorem Clean.pure (a : α) (h : ∀ s, P s → Q a s) : Clean P (Pure.pure a) Q :=
  fun s hs _ => h s hs

theorem Clean.bind {R : β → Stream → Prop} {f : α → Out β} (hx : Clean P x Q)
    (hf : ∀ a, Clean (Q a) (f a) R) : Clean P (x >>= f) R :=
  fun s hs hfail => hf _ _ (hx s hs ((f _).failed_start hfail)) hfail

theorem Clean.imp (h : Clean P x Q) (hP : ∀ s, P' s → P s) (hQ : ∀ a s, Q a s → Q' a s) :
    Clean P' x Q' :=
  fun s hs hfail => hQ _ _ (h s (hP s hs) hfail)

/-- What does not look at the stream may be used in the proof. -/
theorem Clean.fact {p : Prop} (h : p → Clean P x Q) : Clean (fun s => p ∧ P s) x Q :=
  fun s hs => h hs.1 s hs.2

/-- If no write fails, `ferror` is false. -/
theorem Clean.ferror {f : Bool → Out α} (h : Clean P (f false) Q) :
    Clean P (Out.ferror >>= f) Q := by
  intro s hs hfail
  have hz : s.ferror = false := by
    have hzero : s.failed = 0 := (f s.ferror).failed_start hfail
    simp [Stream.ferror, hzero]
  change ((f s.ferror).run s).2.failed = 0 at hfail
  change Q ((f s.ferror).run s).1 ((f s.ferror).run s).2
  rw [hz] at hfail ⊢
  exact h s hs hfail

end Rules

/-! ## Checking for failures -/

/-- Every run of `x` ends in `Q`. -/
def Ends {α : Type} (x : Out α) (Q : α → Stream → Prop) : Prop :=
  ∀ s, Q (x.run s).1 (x.run s).2

theorem Ends.bind {α β : Type} {x : Out α} {f : α → Out β} {Q : β → Stream → Prop}
    (h : ∀ a, Ends (f a) Q) : Ends (x >>= f) Q :=
  fun _ => h _ _

/-- `ferror` and then `fflush` find out every failure. -/
theorem ends_checked (faults : Faults) :
    Ends (do
      let error ← Out.ferror
      if error then return false
      Out.fflush faults) fun ok s => ok = true → s.failed = 0 := by
  refine fun s hok => ?_
  change ((if s.ferror then pure false else Out.fflush faults : Out Bool).run s).1 = true at hok
  change ((if s.ferror then pure false else Out.fflush faults : Out Bool).run s).2.failed = 0
  split at hok
  · cases hok
  · rename_i herror
    have hzero : s.failed = 0 := by simpa [Stream.ferror] using herror
    rw [if_neg herror]
    simp only [Out.fflush, Stream.fflush, beq_iff_eq] at hok ⊢
    exact hok.trans hzero

/-! ## Programs no write of which fails -/

/-- No write of `x` fails. -/
def Quiet {α : Type} (x : Out α) : Prop := ∀ s, (x.run s).2.failed = s.failed

theorem Quiet.pure {α : Type} (a : α) : Quiet (Pure.pure a : Out α) := fun _ => rfl

theorem Quiet.bind {α β : Type} {x : Out α} {f : α → Out β} (hx : Quiet x)
    (hf : ∀ a, Quiet (f a)) : Quiet (x >>= f) :=
  fun s => (hf _ _).trans (hx s)

theorem quiet_ftell : Quiet Out.ftell := fun _ => rfl

theorem quiet_ferror : Quiet Out.ferror := fun _ => rfl

section

variable (hfree : ∀ n, faults n ≠ some false)

theorem writeOut_true_failed (s : Stream) : (s.writeOut true).failed = s.failed := by
  unfold Stream.writeOut
  rw [if_pos rfl]
  split <;> rfl

include hfree

theorem force_failed_eq (s : Stream) : (s.force faults).failed = s.failed := by
  unfold Stream.force
  split
  · rename_i ok hok
    cases ok with
    | true => exact writeOut_true_failed s
    | false => exact absurd hok (hfree _)
  · rfl

theorem quiet_fputs (bytes : Bytes) : Quiet (Out.fputs faults bytes) := by
  intro s
  change (s.fputs faults bytes).failed = s.failed
  induction bytes generalizing s with
  | nil => rfl
  | cons c bytes ih => exact (ih (s.fputc faults c)).trans (force_failed_eq hfree s)

theorem quiet_fwrite (bytes : Bytes) : Quiet (Out.fwrite faults bytes) :=
  quiet_fputs hfree bytes

theorem quiet_fflush : Quiet (Out.fflush faults) := by
  intro s
  have hok : (faults s.calls != some false) = true := by simpa using hfree s.calls
  change (s.writeOut (faults s.calls != some false)).failed = s.failed
  rw [hok]
  exact writeOut_true_failed s

theorem quiet_fseek (pos : Nat) : Quiet (Out.fseek faults pos) :=
  fun s => (fseek_failed faults pos s).trans (quiet_fflush hfree s)

end

/-! ## What the calls leave in the file -/

/-- The stream holds `file` and stands at `pos`. -/
structure Shown (s : Stream) (file : Bytes) (pos : Nat) : Prop where
  within : s.start ≤ s.disk.length
  view : overwrite s.disk s.start s.buffer = file
  at_pos : s.start + s.buffer.length = pos

theorem Shown.pos_le (h : Shown s file pos) : pos ≤ file.length := by
  rw [← h.view, overwrite_length h.within, ← h.at_pos]
  omega

/-- A write that succeeds moves the buffer to the file. -/
theorem Shown.writeOut (h : Shown s file pos) (hf : (s.writeOut ok).failed = 0) :
    Shown (s.writeOut ok) file pos ∧ (s.writeOut ok).buffer = [] := by
  unfold Stream.writeOut at hf ⊢
  split_ifs at hf ⊢ with hb hok
  · exact ⟨h, hb⟩
  · have hfile := h.pos_le
    obtain ⟨hw, hv, hp⟩ := h
    refine ⟨⟨?_, ?_, by simpa using hp⟩, rfl⟩
    · simp only [hv, hp]
      exact hfile
    · simp only [hv, hp]
      exact overwrite_nil hfile

theorem Shown.force (h : Shown s file pos) (hf : (s.force faults).failed = 0) :
    Shown (s.force faults) file pos := by
  unfold Stream.force at hf ⊢
  split at hf
  · exact (h.writeOut hf).1
  · exact h

theorem Shown.fflush (h : Shown s file pos) (hf : (s.fflush faults).2.failed = 0) :
    (s.fflush faults).2.buffer = [] ∧ (s.fflush faults).2.disk = file := by
  have hout : (s.writeOut (faults s.calls != some false)).failed = 0 := hf
  obtain ⟨⟨hw, hv, -⟩, hb⟩ := h.writeOut hout
  rw [hb, overwrite_nil hw] at hv
  exact ⟨hb, hv⟩

/-- With nothing in the buffer, `fclose` leaves the file as it is. -/
theorem fclose_of_empty (h : s.buffer = []) : s.fclose faults = s.disk := by
  simp [Stream.fclose, Stream.fflush, Stream.writeOut, h]

variable (faults)

theorem clean_fputc (c : UInt8) :
    Clean (Shown · file pos) (Out.fputc faults c)
      fun _ s => Shown s (overwrite file pos [c]) (pos + 1) := by
  intro s hs hf
  have hforce : (s.force faults).failed = 0 := hf
  obtain ⟨hw, hv, hp⟩ := hs.force hforce
  refine ⟨hw, ?_, ?_⟩
  · rw [← hv, ← hp]
    exact (overwrite_append hw _ [c]).symm
  · simp only [Out.fputc, Stream.fputc, List.length_append, List.length_singleton]
    omega

theorem clean_fputs (hpos : pos ≤ file.length) (bytes : Bytes) :
    Clean (Shown · file pos) (Out.fputs faults bytes)
      fun _ s => Shown s (overwrite file pos bytes) (pos + bytes.length) := by
  induction bytes generalizing file pos with
  | nil =>
    rw [overwrite_nil hpos]
    exact .pure () fun _ hs => hs
  | cons c bytes ih =>
    have hle : pos + 1 ≤ (overwrite file pos [c]).length := by
      rw [overwrite_length hpos [c]]
      exact Nat.le_max_right _ _
    refine ((clean_fputc faults c).bind fun _ => ih hle).imp (fun _ hs => hs) fun _ s hs => ?_
    rw [show pos + 1 = pos + [c].length from rfl, overwrite_append hpos] at hs
    simpa [Nat.add_assoc, Nat.add_comm 1] using hs

theorem clean_fseek {target : Nat} (ht : target ≤ file.length) :
    Clean (Shown · file pos) (Out.fseek faults target) fun _ s => Shown s file target := by
  intro s hs hf
  have hz := (Out.fseek faults target).failed_start hf
  simp only [Out.fseek, fseek_failed] at hf
  obtain ⟨hb, hdisk⟩ := hs.fflush hf
  have hok : (s.fflush faults).1 = true := by
    simp only [Stream.fflush, beq_iff_eq]
    exact hf.trans hz.symm
  simp only [Out.fseek, Stream.fseek, hok, if_true]
  refine ⟨by simpa [hdisk] using ht, ?_, by simp [hb]⟩
  simp only [hb, hdisk]
  exact overwrite_nil ht

theorem clean_fflush :
    Clean (Shown · file pos) (Out.fflush faults) fun ok s =>
      ok = true ∧ s.buffer = [] ∧ s.disk = file := by
  intro s hs hf
  refine ⟨?_, hs.fflush hf⟩
  simp only [Out.fflush, Stream.fflush, beq_iff_eq]
  exact hf.trans ((Out.fflush faults).failed_start hf).symm

theorem Clean.ftell {α : Type} {f : Nat → Out α} {Q : α → Stream → Prop}
    (h : Clean (Shown · file pos) (f pos) Q) : Clean (Shown · file pos) (Out.ftell >>= f) Q := by
  intro s hs hfail
  change ((f s.ftell).run s).2.failed = 0 at hfail
  change Q ((f s.ftell).run s).1 ((f s.ftell).run s).2
  have hp : s.ftell = pos := hs.at_pos
  rw [hp] at hfail ⊢
  exact h s hs hfail

/-! ## At the end of the file -/

/-- The stream holds `file` and stands at its end. -/
abbrev AtEnd (file : Bytes) (s : Stream) : Prop := Shown s file file.length

theorem clean_append (bytes : Bytes) :
    Clean (AtEnd file) (Out.fputs faults bytes) fun _ => AtEnd (file ++ bytes) := by
  refine (clean_fputs faults (Nat.le_refl _) bytes).imp (fun _ hs => hs) fun _ s hs => ?_
  rwa [overwrite_end, ← List.length_append] at hs

/-- If no write fails, `fwrite` writes all of the bytes. -/
theorem Clean.fwrite {α : Type} {f : Bool → Out α} {Q : α → Stream → Prop}
    (h : Clean (AtEnd (file ++ bytes)) (f true) Q) :
    Clean (AtEnd file) (Out.fwrite faults bytes >>= f) Q := by
  intro s hs hfail
  have hmid := (f _).failed_start hfail
  have hok : ((Out.fwrite faults bytes).run s).1 = true := by
    simp only [Out.fwrite, Stream.fwrite, beq_iff_eq]
    exact hmid.trans ((Out.fwrite faults bytes).failed_start hmid).symm
  change ((f _).run ((Out.fwrite faults bytes).run s).2).2.failed = 0 at hfail
  change Q ((f _).run ((Out.fwrite faults bytes).run s).2).1
    ((f _).run ((Out.fwrite faults bytes).run s).2).2
  rw [hok] at hfail ⊢
  exact h _ (clean_append faults bytes s hs hmid) hfail

/-! ## A text printed into a new file -/

/-- The result of the `fflush` behind a program on a new file, and the file after it. -/
def printed (faults : Faults) (x : Out Unit) : Bool × Bytes :=
  let r := (x.run {}).2.fflush faults
  (r.1, r.2.disk)

/-- No write that printing the text forces fails; before the first byte there is nothing to
write. -/
def Unlost (faults : Faults) (text : Bytes) : Prop :=
  ∀ i, 0 < i → i < text.length → faults i ≠ some false

/-- The stream appends, and each failure has cost at least one of the bytes put into it. -/
structure Appends (s : Stream) : Prop where
  start : s.start = s.disk.length
  bound : s.disk.length + s.buffer.length + s.failed ≤ s.calls

theorem writeOut_calls (ok : Bool) (s : Stream) : (s.writeOut ok).calls = s.calls := by
  unfold Stream.writeOut
  split_ifs <;> rfl

theorem force_calls (s : Stream) : (s.force faults).calls = s.calls := by
  unfold Stream.force
  split
  · exact writeOut_calls _ s
  · rfl

theorem fputs_calls (text : Bytes) (s : Stream) :
    (s.fputs faults text).calls = s.calls + text.length := by
  induction text generalizing s with
  | nil => rfl
  | cons c text ih =>
    rw [fputs_cons, ih]
    simp only [Stream.fputc, force_calls, List.length_cons]
    omega

theorem Appends.writeOut (h : Appends s) (ok : Bool) : Appends (s.writeOut ok) := by
  obtain ⟨hstart, hbound⟩ := h
  unfold Stream.writeOut
  split_ifs with hempty hok
  · exact ⟨hstart, hbound⟩
  · have hdisk : overwrite s.disk s.start s.buffer = s.disk ++ s.buffer := by
      rw [hstart, overwrite_end]
    refine ⟨?_, ?_⟩
    · simp only [hdisk, List.length_append]
      omega
    · simp only [hdisk, List.length_append, List.length_nil]
      omega
  · have hpos := List.length_pos_iff.2 hempty
    refine ⟨hstart, ?_⟩
    simp only [List.length_nil]
    omega

theorem Appends.fputs (h : Appends s) (text : Bytes) : Appends (s.fputs faults text) := by
  induction text generalizing s with
  | nil => exact h
  | cons c text ih =>
    apply ih
    have hforce : Appends (s.force faults) := by
      unfold Stream.force
      split
      · exact h.writeOut _
      · exact h
    refine ⟨hforce.start, ?_⟩
    have hbound := hforce.bound
    simp only [Stream.fputc, List.length_append, List.length_singleton]
    omega

theorem writeOut_failed_iff (ok : Bool) (s : Stream) :
    (s.writeOut ok).failed = s.failed ↔ s.buffer = [] ∨ ok = true := by
  unfold Stream.writeOut
  split_ifs with hempty hok <;> simp_all

theorem force_failed_iff (s : Stream) :
    (s.force faults).failed = s.failed ↔ (s.buffer ≠ [] → faults s.calls ≠ some false) := by
  unfold Stream.force
  cases hf : faults s.calls with
  | none => simp
  | some ok => cases ok <;> simp [writeOut_failed_iff]

/-- Printing fails where a byte finds something in the buffer, and the write that it forces
fails. -/
theorem fputs_failed_iff (text : Bytes) (s : Stream) :
    (s.fputs faults text).failed = s.failed ↔
      ∀ i < text.length, s.buffer ≠ [] ∨ 0 < i → faults (s.calls + i) ≠ some false := by
  induction text generalizing s with
  | nil => simp
  | cons c text ih =>
    have hnext := ih (s.fputc faults c)
    have hfirst := force_failed_iff faults s
    have hle := force_failed_le faults s
    have hle' := fputs_failed_le faults text (s.fputc faults c)
    have hbuffer : (s.fputc faults c).buffer ≠ [] := by simp [Stream.fputc]
    have hcalls : (s.fputc faults c).calls = s.calls + 1 := congrArg (· + 1) (force_calls faults s)
    have hfailed : (s.fputc faults c).failed = (s.force faults).failed := rfl
    rw [fputs_cons]
    constructor
    · intro h i hi hi'
      cases i with
      | zero => exact hfirst.1 (by omega) (hi'.resolve_right (by omega))
      | succ i =>
        have hrest := hnext.1 (by omega) i (by simpa using hi) (.inl hbuffer)
        rwa [hcalls, Nat.add_assoc, Nat.add_comm 1] at hrest
    · intro h
      have h0 := hfirst.2 fun hne => h 0 (by simp) (.inl hne)
      have h1 := hnext.2 fun i hi _ => by
        rw [hcalls, Nat.add_assoc, Nat.add_comm 1]
        exact h (i + 1) (by simpa using hi) (.inr (by omega))
      omega

theorem fputs_buffer {text : Bytes} (h : text ≠ []) (s : Stream) :
    (s.fputs faults text).buffer ≠ [] := by
  obtain ⟨front, c, rfl⟩ := (List.eq_nil_or_concat' text).resolve_left h
  rw [fputs_append]
  simp [Stream.fputc]

theorem unlost_iff (text : Bytes) :
    (({} : Stream).fputs faults text).failed = 0 ↔ Unlost faults text := by
  refine (fputs_failed_iff faults text {}).trans ?_
  simp only [ne_eq, not_true, false_or, Nat.zero_add]
  exact ⟨fun h i hpos hi => h i hi hpos, fun h i hi hpos => h i hpos hi⟩

/-- The flush fails if there is something to write and writing it fails. -/
theorem printed_fst (text : Bytes) :
    (printed faults (Out.fputs faults text)).1 = true ↔
      text = [] ∨ faults text.length ≠ some false := by
  have hcalls := fputs_calls faults text {}
  rw [Nat.zero_add] at hcalls
  change (({} : Stream).fputs faults text |>.fflush faults).1 = true ↔ _
  simp only [Stream.fflush, beq_iff_eq, writeOut_failed_iff, hcalls, bne_iff_ne]
  refine or_congr_left ⟨fun h => ?_, fun h => by rw [h]; rfl⟩
  by_contra hne
  exact fputs_buffer faults hne {} h

/-- **After a flush that succeeds the file is the text exactly if no forced write has failed.** -/
theorem printed_snd (text : Bytes) (hok : (printed faults (Out.fputs faults text)).1 = true) :
    (printed faults (Out.fputs faults text)).2 = text ↔ Unlost faults text := by
  rw [← unlost_iff]
  have hflush : (({} : Stream).fputs faults text |>.fflush faults).2.failed =
      (({} : Stream).fputs faults text).failed := by
    simpa [printed, Out.fputs, Stream.fflush] using hok
  constructor
  · intro htext
    have hnew : Appends {} := ⟨rfl, Nat.le_refl _⟩
    have happends := (hnew.fputs faults text).writeOut
      (faults (({} : Stream).fputs faults text).calls != some false)
    have hbound := happends.bound
    have hlength := congrArg List.length htext
    have hcalls := fputs_calls faults text {}
    rw [Nat.zero_add] at hcalls
    rw [writeOut_calls] at hbound
    simp only [printed, Out.fputs, Stream.fflush] at hlength hflush
    omega
  · intro hzero
    have hstart : AtEnd [] {} := ⟨Nat.le_refl _, rfl, rfl⟩
    have hend := clean_append faults text {} hstart hzero
    exact (clean_fflush faults _ hend (hflush.trans hzero)).2.2

end Stdio
