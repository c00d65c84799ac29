import Mathlib.Data.List.TakeWhile
import Mathlib.Data.Nat.Digits.Lemmas
import Mathlib.Tactic.Common

/-!
# C text

Byte strings as the C library reads and writes them: `printf` numbers, the
number readers, `fgets` lines and the `str*` searches, with the round trips
between the writers and the readers. A C string is a `Bytes` without zero
byte; `cstring` is the C string at the start of a buffer.
-/

namespace Text

abbrev Bytes := List UInt8

/-- The bytes of a literal. -/
def ascii (s : String) : Bytes := s.toByteArray.data.toList

def cstring (s : Bytes) : Bytes := s.takeWhile (· ≠ 0)

theorem cstring_plain {s : Bytes} (h : ∀ c ∈ s, c ≠ 0) : cstring s = s := by
  rw [cstring, List.takeWhile_eq_self_iff]
  simpa using h

theorem cstring_ne_zero {s : Bytes} {c : UInt8} (h : c ∈ cstring s) : c ≠ 0 := by
  simpa using List.mem_takeWhile_imp h

/-! ## Numbers -/

def digit (d : Nat) : UInt8 := (48 + d).toUInt8

/-- `%u`. -/
def decimalNat (n : Nat) : Bytes :=
  if n = 0 then [digit 0] else (Nat.digits 10 n).reverse.map digit

/-- `%d` and `%lld`. -/
def decimal (z : Int) : Bytes :=
  if z < 0 then 45 :: decimalNat z.natAbs else decimalNat z.natAbs

/-- `%0wd`. -/
def padded (w : Nat) (z : Int) : Bytes :=
  if z < 0 then 45 :: (List.replicate (w - 1 - (decimalNat z.natAbs).length) 48 ++ decimalNat z.natAbs)
  else List.replicate (w - (decimalNat z.natAbs).length) 48 ++ decimalNat z.natAbs

def hexDigit (d : Nat) : UInt8 := if d < 10 then (48 + d).toUInt8 else (87 + d).toUInt8

/-- `%llx`. -/
def hex (n : Nat) : Bytes := if n = 0 then [48] else (Nat.digits 16 n).reverse.map hexDigit

def isSpace (c : UInt8) : Bool := c == 32 || (9 ≤ c && c ≤ 13)

def isDigit (c : UInt8) : Bool := 48 ≤ c && c ≤ 57

/-- The value of the leading decimal digits. -/
def digitsValue (s : Bytes) : Nat :=
  (s.takeWhile isDigit).foldl (fun n c => 10 * n + (c.toNat - 48)) 0

/-- The leading decimal integer: blanks, a sign, digits. -/
def parseInt (s : Bytes) : Int :=
  match s.dropWhile isSpace with
  | [] => 0
  | c :: rest =>
    if c = 45 then -digitsValue rest
    else if c = 43 then digitsValue rest
    else digitsValue (c :: rest)

def clamp (lo hi z : Int) : Int := max lo (min hi z)

/-- `strtoll(s, 0, 10)`. -/
def strtoll (s : Bytes) : Int := clamp (-2 ^ 63) (2 ^ 63 - 1) (parseInt s)

/-- `atoi(s)`, with the 32-bit `long` of the camera. -/
def atoi (s : Bytes) : Int := clamp (-2 ^ 31) (2 ^ 31 - 1) (parseInt s)

def isHexDigit (c : UInt8) : Bool :=
  isDigit c || (97 ≤ c && c ≤ 102) || (65 ≤ c && c ≤ 70)

def hexDigitValue (c : UInt8) : Nat :=
  if isDigit c then c.toNat - 48 else if 97 ≤ c then c.toNat - 87 else c.toNat - 55

/-- The sign in front of a number: whether it is a minus, and what follows it. -/
def takeSign : Bytes → Bool × Bytes
  | 45 :: rest => (true, rest)
  | 43 :: rest => (false, rest)
  | s => (false, s)

/-- Drop `0x` in front of a hexadecimal digit. -/
def dropHexPrefix : Bytes → Bytes
  | 48 :: x :: d :: rest =>
    if (x = 120 ∨ x = 88) ∧ isHexDigit d = true then d :: rest else 48 :: x :: d :: rest
  | s => s

/-- `strtoull(s, 0, 16)`: a minus negates modulo 2^64. -/
def strtoullHex (s : Bytes) : UInt64 :=
  let r := takeSign (s.dropWhile isSpace)
  let n := ((dropHexPrefix r.2).takeWhile isHexDigit).foldl (fun n c => 16 * n + hexDigitValue c) 0
  if n < 2 ^ 64 then (if r.1 then -UInt64.ofNat n else UInt64.ofNat n) else UInt64.ofNat (2 ^ 64 - 1)

/-- `%d` of `sscanf`: the number, kept in the range of `int`, and what follows it. -/
def scanInt (s : Bytes) : Option (Int × Bytes) :=
  let r := takeSign (s.dropWhile isSpace)
  if r.2.takeWhile isDigit = [] then none
  else
    let n : Int := digitsValue r.2
    some (clamp (-2 ^ 31) (2 ^ 31 - 1) (if r.1 then -n else n), r.2.dropWhile isDigit)

/-- A character that the format of `sscanf` gives as it is. -/
def scanChar (c : UInt8) : Bytes → Option Bytes
  | [] => none
  | x :: rest => if x = c then some rest else none

/-- `%N[^c]` of `sscanf`: from one to `n` characters other than `c`. -/
def scanUntil (n : Nat) (c : UInt8) (s : Bytes) : Option (Bytes × Bytes) :=
  let token := (s.takeWhile (· ≠ c)).take n
  if token = [] then none else some (token, s.drop token.length)

theorem digit_toNat {d : Nat} (h : d < 10) : (digit d).toNat = 48 + d := by
  simp only [digit, Nat.toUInt8, UInt8.toNat_ofNat']
  omega

theorem isDigit_digit {d : Nat} (h : d < 10) : isDigit (digit d) = true := by
  have := digit_toNat h
  simp only [isDigit, Bool.and_eq_true, decide_eq_true_eq, UInt8.le_iff_toNat_le]
  exact ⟨by simp [this], by rw [this]; simp; omega⟩

theorem decimalNat_digits {n : Nat} : ∀ c ∈ decimalNat n, isDigit c = true := by
  intro c hc
  unfold decimalNat at hc
  split at hc
  · obtain rfl := List.mem_singleton.1 hc
    exact isDigit_digit (by omega)
  · obtain ⟨d, hd, rfl⟩ := List.mem_map.1 hc
    exact isDigit_digit (Nat.digits_lt_base (by omega) (List.mem_reverse.1 hd))

theorem decimalNat_ne_nil (n : Nat) : decimalNat n ≠ [] := by
  unfold decimalNat
  split
  · simp
  · rename_i h
    simpa [Nat.digits_eq_nil_iff_eq_zero] using h

theorem decimalNat_length {n k : Nat} (hk : 0 < k) (h : n < 10 ^ k) :
    (decimalNat n).length ≤ k := by
  unfold decimalNat
  split
  · exact hk
  · rwa [List.length_map, List.length_reverse, Nat.digits_length_le_iff (by decide)]

theorem decimal_length_le {z : Int} {k : Nat} (hk : 0 < k) (h : z.natAbs < 10 ^ k) :
    (decimal z).length ≤ k + 1 := by
  have hnat := decimalNat_length hk h
  unfold decimal
  split
  · rw [List.length_cons]
    omega
  · omega

theorem padded_length_le {w k : Nat} {z : Int} (hk : 0 < k) (h : z.natAbs < 10 ^ k) :
    (padded w z).length ≤ max w k + 1 := by
  have hnat := decimalNat_length hk h
  unfold padded
  split
  · rw [List.length_cons, List.length_append, List.length_replicate]
    omega
  · rw [List.length_append, List.length_replicate]
    omega

/-- Reading digits off one by one, the highest first, gives the number they are digits of. -/
theorem foldl_ofDigits {b : Nat} {print : Nat → UInt8} {value : UInt8 → Nat} (ds : List Nat)
    (h : ∀ d ∈ ds, value (print d) = d) :
    (ds.reverse.map print).foldl (fun n c => b * n + value c) 0 = Nat.ofDigits b ds := by
  induction ds with
  | nil => rfl
  | cons d ds ih =>
    have hd : value (print d) = d := h d (by simp)
    rw [List.reverse_cons, List.map_append, List.foldl_append, ih fun x hx => h x (by simp [hx])]
    simp only [List.map_cons, List.map_nil, List.foldl_cons, List.foldl_nil, hd, Nat.ofDigits_cons]
    omega

theorem takeWhile_append {p : UInt8 → Bool} {a b : Bytes} (ha : ∀ c ∈ a, p c = true)
    (hb : ∀ c ∈ b.head?, p c = false) : (a ++ b).takeWhile p = a := by
  induction a with
  | nil =>
    cases b with
    | nil => rfl
    | cons c b => simp [hb c (by simp)]
  | cons x a ih =>
    simp only [List.cons_append, List.takeWhile_cons, ha x (by simp), if_true]
    rw [ih fun c hc => ha c (by simp [hc])]

theorem dropWhile_append {p : UInt8 → Bool} {a b : Bytes} (ha : ∀ c ∈ a, p c = true)
    (hb : ∀ c ∈ b.head?, p c = false) : (a ++ b).dropWhile p = b := by
  have h := List.takeWhile_append_dropWhile (p := p) (l := a ++ b)
  rw [takeWhile_append ha hb] at h
  exact List.append_cancel_left h

theorem isHexDigit_of_isDigit {c : UInt8} (h : isDigit c = true) : isHexDigit c = true := by
  simp [isHexDigit, h]

/-- A digit is neither a blank nor a sign. -/
theorem isHexDigit_lead {c : UInt8} (h : isHexDigit c = true) :
    isSpace c = false ∧ c ≠ 45 ∧ c ≠ 43 := by
  simp only [isHexDigit, isDigit, Bool.or_eq_true, Bool.and_eq_true, decide_eq_true_eq,
    UInt8.le_iff_toNat_le] at h
  refine ⟨?_, ?_, ?_⟩
  · simp only [isSpace, Bool.or_eq_false_iff, beq_eq_false_iff_ne, Bool.and_eq_false_imp,
      decide_eq_true_eq, decide_eq_false_iff_not, UInt8.le_iff_toNat_le]
    refine ⟨?_, fun _ => ?_⟩
    · rintro rfl
      simp at h
    · simp at h ⊢
      omega
  · rintro rfl
    simp at h
  · rintro rfl
    simp at h

/-- A number that begins with a digit has no blank and no sign in front. -/
theorem takeSign_lead {c : UInt8} {s : Bytes} (h : isHexDigit c = true) :
    takeSign ((c :: s).dropWhile isSpace) = (false, c :: s) := by
  obtain ⟨hs, h1, h2⟩ := isHexDigit_lead h
  rw [List.dropWhile_cons, hs]
  unfold takeSign
  split
  · rename_i heq
    exact absurd (List.cons.inj heq).1 h1
  · rename_i heq
    exact absurd (List.cons.inj heq).1 h2
  · rfl

/-- Reading back the digits that `%u` wrote. -/
theorem digitsValue_decimalNat (n : Nat) {rest : Bytes}
    (h : ∀ c ∈ rest.head?, isDigit c = false) : digitsValue (decimalNat n ++ rest) = n := by
  rw [digitsValue, takeWhile_append decimalNat_digits h]
  unfold decimalNat
  split
  · rename_i h0
    subst h0
    rfl
  · have hval : ∀ d ∈ Nat.digits 10 n, (digit d).toNat - 48 = d := fun d hd => by
      rw [digit_toNat (Nat.digits_lt_base (by omega) hd)]
      omega
    rw [foldl_ofDigits _ hval, Nat.ofDigits_digits]

theorem parseInt_decimal (z : Int) {rest : Bytes} (h : ∀ c ∈ rest.head?, isDigit c = false) :
    parseInt (decimal z ++ rest) = z := by
  unfold decimal
  split
  · rename_i hz
    have hv := digitsValue_decimalNat z.natAbs h
    change -(digitsValue (decimalNat z.natAbs ++ rest) : Int) = z
    rw [hv]
    omega
  · rename_i hz
    have hv := digitsValue_decimalNat z.natAbs h
    obtain ⟨c, cs, hc⟩ := List.exists_cons_of_ne_nil (decimalNat_ne_nil z.natAbs)
    have hd : isDigit c = true := decimalNat_digits c (by rw [hc]; simp)
    have hs := isHexDigit_lead (isHexDigit_of_isDigit hd)
    rw [hc] at hv ⊢
    simp only [parseInt, List.cons_append, List.dropWhile_cons, hs.1]
    simp only [Bool.false_eq_true, if_false, hs.2.1, hs.2.2]
    rw [← List.cons_append, hv]
    omega

theorem clamp_of_mem {lo hi z : Int} (h1 : lo ≤ z) (h2 : z ≤ hi) : clamp lo hi z = z := by
  unfold clamp
  omega

/-- `strtoll` reads back what `%lld` wrote. -/
theorem strtoll_decimal {z : Int} (h1 : -2 ^ 63 ≤ z) (h2 : z < 2 ^ 63) :
    strtoll (decimal z) = z := by
  have := @parseInt_decimal z [] (by simp)
  rw [List.append_nil] at this
  rw [strtoll, this, clamp_of_mem h1 (by omega)]

/-- `atoi` reads back what `%d` wrote. -/
theorem atoi_decimal {z : Int} (h1 : -2 ^ 31 ≤ z) (h2 : z < 2 ^ 31) : atoi (decimal z) = z := by
  have := @parseInt_decimal z [] (by simp)
  rw [List.append_nil] at this
  rw [atoi, this, clamp_of_mem h1 (by omega)]

/-- `%d` of `sscanf` reads back what `%d` of `printf` wrote, up to the next character. -/
theorem scanInt_decimal {z : Int} (h1 : -2 ^ 31 ≤ z) (h2 : z < 2 ^ 31) {rest : Bytes}
    (h : ∀ c ∈ rest.head?, isDigit c = false) : scanInt (decimal z ++ rest) = some (z, rest) := by
  have hsign : takeSign ((decimal z ++ rest).dropWhile isSpace) =
      (decide (z < 0), decimalNat z.natAbs ++ rest) := by
    unfold decimal
    split
    · rename_i hz
      have hspace : isSpace 45 = false := by decide
      rw [List.cons_append, List.dropWhile_cons, hspace, decide_eq_true hz]
      rfl
    · rename_i hz
      obtain ⟨c, cs, hc⟩ := List.exists_cons_of_ne_nil (decimalNat_ne_nil z.natAbs)
      have hd : isDigit c = true := decimalNat_digits c (by rw [hc]; simp)
      rw [hc, List.cons_append, takeSign_lead (isHexDigit_of_isDigit hd), decide_eq_false hz]
  have htake := takeWhile_append decimalNat_digits h (a := decimalNat z.natAbs)
  have hdrop := dropWhile_append decimalNat_digits h (a := decimalNat z.natAbs)
  have hvalue : (if decide (z < 0) = true then -(z.natAbs : Int) else z.natAbs) = z := by
    simp only [decide_eq_true_eq]
    split <;> omega
  simp only [scanInt, hsign, htake, hdrop, decimalNat_ne_nil, if_false, digitsValue_decimalNat _ h,
    hvalue]
  rw [clamp_of_mem h1 (by omega)]

theorem hexDigit_spec : ∀ d < 16, isHexDigit (hexDigit d) = true ∧
    hexDigitValue (hexDigit d) = d ∧ (hexDigit d = 48 → d = 0) := by decide

theorem hex_digits {n : Nat} : ∀ c ∈ hex n, isHexDigit c = true := by
  intro c hc
  unfold hex at hc
  split at hc
  · obtain rfl := List.mem_singleton.1 hc
    rfl
  · obtain ⟨d, hd, rfl⟩ := List.mem_map.1 hc
    exact (hexDigit_spec d (Nat.digits_lt_base (by omega) (List.mem_reverse.1 hd))).1

/-- `%llx` writes no leading zero, so nothing in it reads as `0x`. -/
theorem dropHexPrefix_hex (n : Nat) : dropHexPrefix (hex n) = hex n := by
  unfold hex
  split
  · rfl
  · rename_i hn
    have hne : Nat.digits 16 n ≠ [] := Nat.digits_ne_nil_iff_ne_zero.2 hn
    have hlast := Nat.getLast_digit_ne_zero 16 hn
    have hlt := Nat.digits_lt_base (b := 16) (by omega) (List.getLast_mem hne)
    have hrev : (Nat.digits 16 n).reverse =
        (Nat.digits 16 n).getLast hne :: (Nat.digits 16 n).dropLast.reverse := by
      conv_lhs => rw [← List.dropLast_append_getLast hne]
      rw [List.reverse_append]
      rfl
    rw [hrev, List.map_cons]
    unfold dropHexPrefix
    split
    · rename_i heq
      exact absurd ((hexDigit_spec _ hlt).2.2 (List.cons.inj heq).1) hlast
    · rfl

/-- `strtoull` reads back what `%llx` wrote. -/
theorem strtoullHex_hex (n : UInt64) : strtoullHex (hex n.toNat) = n := by
  have hsign : takeSign ((hex n.toNat).dropWhile isSpace) = (false, hex n.toNat) := by
    cases hc : hex n.toNat with
    | nil => rfl
    | cons c s => exact takeSign_lead (hex_digits c (by rw [hc]; simp))
  have htake : (hex n.toNat).takeWhile isHexDigit = hex n.toNat :=
    List.takeWhile_eq_self_iff.2 hex_digits
  have hvalue : (hex n.toNat).foldl (fun n c => 16 * n + hexDigitValue c) 0 = n.toNat := by
    unfold hex
    split
    · rename_i h0
      rw [h0]
      rfl
    · rw [foldl_ofDigits _ fun d hd => (hexDigit_spec d (Nat.digits_lt_base (by omega) hd)).2.1,
        Nat.ofDigits_digits]
  simp only [strtoullHex, hsign, dropHexPrefix_hex, htake, hvalue, n.toNat_lt, if_true,
    Bool.false_eq_true, if_false, UInt64.ofNat_toNat]

theorem scanUntil_append {n : Nat} {c : UInt8} {a rest : Bytes} (hc : c ∉ a) (ha : a ≠ [])
    (hn : a.length ≤ n) : scanUntil n c (a ++ c :: rest) = some (a, c :: rest) := by
  have htake : (a ++ c :: rest).takeWhile (· ≠ c) = a := by
    refine takeWhile_append (fun x hx => ?_) (by simp)
    simpa using fun h : x = c => hc (h ▸ hx)
  simp only [scanUntil, htake, List.take_of_length_le hn, ha, if_false, List.drop_left]

/-! ## Lines and searches -/

/-- `strchr`: what stands before and after the first `c`. -/
def cut (c : UInt8) : Bytes → Option (Bytes × Bytes)
  | [] => none
  | x :: xs => if x = c then some ([], xs) else (cut c xs).map fun r => (x :: r.1, r.2)

/-- Cut a name at its last dot, as `strrchr` finds it. -/
def dropExtension (s : Bytes) : Bytes :=
  match cut 46 s.reverse with
  | none => s
  | some (_, b) => b.reverse

def endsWith (value suffix : Bytes) : Bool := suffix.isSuffixOf value

/-- `strstr`. -/
def hasInfix (value pattern : Bytes) : Bool := value.tails.any pattern.isPrefixOf

def isNewline (c : UInt8) : Bool := c == 10 || c == 13

/-- Drop the line ends at the end. -/
def trimLine (s : Bytes) : Bytes := (s.reverse.dropWhile isNewline).reverse

/-- The lines that `fgets` into a buffer of `size` returns; `line` has been read
backwards, and `room` more bytes fit. -/
def fgetsAux (size : Nat) : Bytes → Nat → Bytes → List Bytes
  | line, _, [] => if line = [] then [] else [line.reverse]
  | line, room, c :: data =>
    if c = 10 ∨ room ≤ 1 then (c :: line).reverse :: fgetsAux size [] (size - 1) data
    else fgetsAux size (c :: line) (room - 1) data

def fgets (size : Nat) (data : Bytes) : List Bytes := fgetsAux size [] (size - 1) data

theorem cut_append {c : UInt8} {a b : Bytes} (h : c ∉ a) : cut c (a ++ c :: b) = some (a, b) := by
  induction a with
  | nil => simp [cut]
  | cons x a ih =>
    simp only [List.mem_cons, not_or] at h
    simp [cut, Ne.symm h.1, ih h.2]

theorem cut_none {c : UInt8} {a : Bytes} (h : c ∉ a) : cut c a = none := by
  induction a with
  | nil => rfl
  | cons x a ih =>
    simp only [List.mem_cons, not_or] at h
    simp [cut, Ne.symm h.1, ih h.2]

/-- What stands before the first `c` has no `c` in it. -/
theorem cut_not_mem {c : UInt8} {s a b : Bytes} (h : cut c s = some (a, b)) : c ∉ a := by
  induction s generalizing a b with
  | nil => cases h
  | cons y s ih =>
    unfold cut at h
    split at h
    · cases h
      simp
    · rename_i hy
      obtain ⟨r, hr, heq⟩ := Option.map_eq_some_iff.1 h
      obtain ⟨rfl, rfl⟩ := Prod.mk.inj heq
      have hrest := ih hr
      simp [Ne.symm hy, hrest]

theorem cut_eq {c : UInt8} {s a b : Bytes} (h : cut c s = some (a, b)) : s = a ++ c :: b := by
  induction s generalizing a b with
  | nil => cases h
  | cons y s ih =>
    unfold cut at h
    split at h
    · rename_i hy
      cases h
      rw [hy, List.nil_append]
    · obtain ⟨r, hr, heq⟩ := Option.map_eq_some_iff.1 h
      obtain ⟨rfl, rfl⟩ := Prod.mk.inj heq
      rw [ih hr, List.cons_append]

/-- What `cut` gives was there before. -/
theorem cut_mem {c x : UInt8} {s a b : Bytes} (h : cut c s = some (a, b)) (hx : x ∈ a ∨ x ∈ b) :
    x ∈ s := by
  rw [cut_eq h, List.mem_append, List.mem_cons]
  exact hx.imp_right .inr

theorem dropExtension_append {a e : Bytes} (h : 46 ∉ e) : dropExtension (a ++ 46 :: e) = a := by
  have : (a ++ 46 :: e).reverse = e.reverse ++ 46 :: a.reverse := by simp
  rw [dropExtension, this, cut_append (by simpa using h)]
  simp

theorem dropExtension_length_le (s : Bytes) : (dropExtension s).length ≤ s.length := by
  unfold dropExtension
  cases hcut : cut 46 s.reverse with
  | none => exact Nat.le_refl _
  | some r =>
    have hlen := congrArg List.length (cut_eq hcut)
    simp only [List.length_reverse, List.length_append, List.length_cons] at hlen ⊢
    omega

theorem trimLine_newline {s : Bytes} {c : UInt8} (h : isNewline c = false) :
    trimLine (s ++ [c] ++ [10]) = s ++ [c] := by
  have h10 : isNewline 10 = true := rfl
  simp [trimLine, h, h10]

/-- A line without line ends in it comes out of its line. -/
theorem trimLine_line {l : Bytes} (h : ∀ c ∈ l, isNewline c = false) : trimLine (l ++ [10]) = l := by
  rcases List.eq_nil_or_concat l with rfl | ⟨init, last, rfl⟩
  · rfl
  · rw [List.concat_eq_append]
    exact trimLine_newline (h last (by simp))

theorem trimLine_mem {s : Bytes} {c : UInt8} (h : c ∈ trimLine s) : c ∈ s :=
  List.mem_reverse.1 ((List.dropWhile_suffix _).subset (List.mem_reverse.1 h))

theorem fgetsAux_line (size : Nat) {line l rest : Bytes} {room : Nat} (hl : 10 ∉ l)
    (hroom : l.length + 1 ≤ room) :
    fgetsAux size line room (l ++ 10 :: rest) =
      (line.reverse ++ l ++ [10]) :: fgetsAux size [] (size - 1) rest := by
  induction l generalizing line room with
  | nil => simp [fgetsAux]
  | cons x l ih =>
    simp only [List.mem_cons, not_or, List.length_cons] at hl hroom
    have hx : ¬ (x = 10 ∨ room ≤ 1) := by
      rintro (rfl | h)
      · exact hl.1 rfl
      · omega
    rw [List.cons_append, fgetsAux, if_neg hx, ih hl.2 (by omega)]
    simp

/-- A line that fits the buffer comes back whole. -/
theorem fgets_line {size : Nat} {l rest : Bytes} (hl : 10 ∉ l) (hs : l.length + 2 ≤ size) :
    fgets size (l ++ 10 :: rest) = (l ++ [10]) :: fgets size rest :=
  fgetsAux_line size hl (by omega)

/-- Lines that fit the buffer come back one by one. -/
theorem fgets_lines_append {size : Nat} {lines : List Bytes} (rest : Bytes)
    (h : ∀ l ∈ lines, 10 ∉ l ∧ l.length + 2 ≤ size) :
    fgets size (lines.flatMap (· ++ [10]) ++ rest) =
      lines.map (· ++ [10]) ++ fgets size rest := by
  induction lines with
  | nil => rfl
  | cons l lines ih =>
    obtain ⟨h1, h2⟩ := h l (by simp)
    rw [List.flatMap_cons, List.append_assoc, List.append_assoc, List.singleton_append,
      fgets_line h1 h2, ih fun x hx => h x (by simp [hx]), List.map_cons, List.cons_append]

theorem fgets_lines {size : Nat} {lines : List Bytes}
    (h : ∀ l ∈ lines, 10 ∉ l ∧ l.length + 2 ≤ size) :
    fgets size (lines.flatMap (· ++ [10])) = lines.map (· ++ [10]) := by
  have happend := fgets_lines_append [] h
  rw [List.append_nil] at happend
  exact happend.trans (List.append_nil _)

/-- A line break stands at the end only, as in what `fgets` returns. -/
def BreakAtEnd (l : Bytes) : Prop := ∀ a b, l = a ++ 10 :: b → b = []

theorem BreakAtEnd.of_start {l x : Bytes} (h : BreakAtEnd l) (hx : x <+: l) : BreakAtEnd x := by
  obtain ⟨t, rfl⟩ := hx
  rintro a b rfl
  have hb := h a (b ++ t) (by simp)
  exact (List.append_eq_nil_iff.1 hb).1

theorem breakAtEnd_concat {l : Bytes} {c : UInt8} (h : 10 ∉ l) : BreakAtEnd (l ++ [c]) := by
  intro a b hab
  rcases List.eq_nil_or_concat b with rfl | ⟨b', d, rfl⟩
  · rfl
  · rw [List.concat_eq_append, ← List.cons_append, ← List.append_assoc] at hab
    have hl := (List.append_inj' hab rfl).1
    exact absurd (by simp [hl]) h

theorem fgetsAux_break (size : Nat) {line data : Bytes} {room : Nat} (h : 10 ∉ line) :
    ∀ l ∈ fgetsAux size line room data, BreakAtEnd l := by
  induction data generalizing line room with
  | nil =>
    intro l hl
    unfold fgetsAux at hl
    split at hl
    · cases hl
    · obtain rfl := List.mem_singleton.1 hl
      rintro a b hab
      exact absurd (List.mem_reverse.1 (by simp [hab])) h
  | cons c data ih =>
    intro l hl
    unfold fgetsAux at hl
    split at hl
    · rcases List.mem_cons.1 hl with rfl | hl
      · rw [List.reverse_cons]
        exact breakAtEnd_concat (by simpa using h)
      · exact ih (by simp) l hl
    · rename_i hc
      have hne : c ≠ 10 := fun h10 => hc (.inl h10)
      refine ih (fun hm => ?_) l hl
      rcases List.mem_cons.1 hm with h10 | hm
      · exact hne h10.symm
      · exact h hm

/-- A line that `fgets` returned and `trimLine` trimmed holds no line break. -/
theorem trimLine_break {l : Bytes} (h : BreakAtEnd l) : 10 ∉ trimLine l := by
  have hpre : trimLine l <+: l := by
    obtain ⟨t, ht⟩ := List.dropWhile_suffix (p := isNewline) (l := l.reverse)
    refine ⟨t.reverse, ?_⟩
    rw [trimLine, ← List.reverse_append, ht, List.reverse_reverse]
  intro hm
  obtain ⟨a, b, hab⟩ := List.append_of_mem hm
  obtain ⟨t, ht⟩ := hpre
  rw [hab, List.append_assoc, List.cons_append] at ht
  obtain ⟨rfl, rfl⟩ := List.append_eq_nil_iff.1 (h a (b ++ t) ht.symm)
  rw [← ht] at hab
  have h10 : isNewline 10 = true := rfl
  have hlen : (trimLine (a ++ [10])).length ≤ a.length := by
    rw [trimLine, List.reverse_append, List.reverse_singleton, List.singleton_append,
      List.dropWhile_cons, if_pos h10, List.length_reverse]
    exact (List.dropWhile_sublist _).length_le.trans (by simp)
  rw [List.append_nil] at hab
  rw [hab, List.length_append] at hlen
  exact absurd hlen (by simp)

theorem fgets_trimLine {size : Nat} {data line : Bytes} (h : line ∈ fgets size data) :
    10 ∉ trimLine (cstring line) :=
  trimLine_break ((fgetsAux_break size (by simp) line h).of_start (List.takeWhile_prefix _))

/-! ## Printing into a buffer -/

/-- An `snprintf`: the size of its buffer, and the text that it prints. -/
structure Print where
  capacity : Nat
  text : Bytes
  deriving DecidableEq, Repr

namespace Print

/-- What the buffer holds. -/
def held (p : Print) : Bytes := p.text.take (p.capacity - 1)

/-- The text and its end fit the buffer. -/
def Fits (p : Print) : Prop := p.text.length < p.capacity

instance (p : Print) : Decidable p.Fits := inferInstanceAs (Decidable (_ < _))

theorem Fits.held {p : Print} (h : p.Fits) : p.held = p.text :=
  List.take_of_length_le (Nat.le_sub_one_of_lt h)

/-- The text has at most `n` bytes, for which there is room. -/
structure Within (p : Print) (n : Nat) : Prop where
  text : p.text.length ≤ n
  room : n < p.capacity

variable {p : Print} {n : Nat}

theorem Within.fits (h : p.Within n) : p.Fits := Nat.lt_of_le_of_lt h.text h.room

theorem Within.held_le (h : p.Within n) : p.held.length ≤ n := by
  rw [h.fits.held]
  exact h.text

theorem within_append {a b : Bytes} {i j capacity : Nat} (ha : a.length ≤ i) (hb : b.length ≤ j)
    (hn : i + j ≤ n) (hc : n < capacity) : Within ⟨capacity, a ++ b⟩ n := by
  refine ⟨?_, hc⟩
  rw [List.length_append]
  exact (Nat.add_le_add ha hb).trans hn

end Print

end Text
