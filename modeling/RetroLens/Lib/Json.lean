import RetroLens.Lib.Text

/-!
# JSON

A parser for JSON texts as byte strings: every byte from 0x20 on other than the
quote and the backslash stands for itself in a string, and `\u` stands for the
UTF-8 bytes of its code point. `Reads text v` says that `text` is read as the
value `v` wherever a value can end, and the lemmas here compose it: strings,
decimal numbers, literals, and objects out of their members.
-/

namespace Json

open Text

inductive Value where
  | null
  | bool (b : Bool)
  /-- The number `mantissa * 10 ^ exponent`. -/
  | number (mantissa exponent : Int)
  | string (s : Bytes)
  | array (elements : List Value)
  | object (members : List (Bytes × Value))

/-! ## The parser -/

def isBlank (c : UInt8) : Bool := c == 32 || c == 9 || c == 10 || c == 13

def skipBlanks (s : Bytes) : Bytes := s.dropWhile isBlank

/-- A structural character, with blanks before it. -/
def expect (c : UInt8) (s : Bytes) : Option Bytes := scanChar c (skipBlanks s)

/-- The four digits of a `\u` escape. -/
def codeUnit (a b c d : UInt8) : Option Nat :=
  if isHexDigit a && isHexDigit b && isHexDigit c && isHexDigit d then
    some (((hexDigitValue a * 16 + hexDigitValue b) * 16 + hexDigitValue c) * 16 + hexDigitValue d)
  else none

def utf8 (code : Nat) : Bytes :=
  if code < 0x80 then [code.toUInt8]
  else if code < 0x800 then [(0xc0 + code / 64).toUInt8, (0x80 + code % 64).toUInt8]
  else if code < 0x10000 then
    [(0xe0 + code / 4096).toUInt8, (0x80 + code / 64 % 64).toUInt8, (0x80 + code % 64).toUInt8]
  else
    [(0xf0 + code / 262144).toUInt8, (0x80 + code / 4096 % 64).toUInt8,
      (0x80 + code / 64 % 64).toUInt8, (0x80 + code % 64).toUInt8]

def isHighSurrogate (unit : Nat) : Bool := 0xd800 ≤ unit && unit < 0xdc00

def isLowSurrogate (unit : Nat) : Bool := 0xdc00 ≤ unit && unit < 0xe000

/-- The character that a backslash and `c` stand for. -/
def simpleEscape (c : UInt8) : Option UInt8 :=
  if c = 34 ∨ c = 92 ∨ c = 47 then some c
  else if c = 98 then some 8
  else if c = 102 then some 12
  else if c = 110 then some 10
  else if c = 114 then some 13
  else if c = 116 then some 9
  else none

/-- The characters of a string after its opening quote, and what follows the closing one. -/
def characters : Bytes → Option (Bytes × Bytes)
  | [] => none
  | c :: s =>
    if c = 34 then some ([], s)
    else if c < 32 then none
    else if c ≠ 92 then (characters s).map fun r => (c :: r.1, r.2)
    else
      match s with
      | [] => none
      | e :: s =>
        if e ≠ 117 then
          (simpleEscape e).bind fun x => (characters s).map fun r => (x :: r.1, r.2)
        else
          match s with
          | a :: b :: c :: d :: s =>
            (codeUnit a b c d).bind fun unit =>
              if isLowSurrogate unit then none
              else if isHighSurrogate unit then
                match s with
                | x :: y :: a :: b :: c :: d :: s =>
                  if x = 92 ∧ y = 117 then
                    (codeUnit a b c d).bind fun low =>
                      if isLowSurrogate low then
                        (characters s).map fun r =>
                          (utf8 (0x10000 + (unit - 0xd800) * 1024 + (low - 0xdc00)) ++ r.1, r.2)
                      else none
                  else none
                | _ => none
              else (characters s).map fun r => (utf8 unit ++ r.1, r.2)
          | _ => none

/-- The digits at the start, of which there is one at least. -/
def digits (s : Bytes) : Option (Bytes × Bytes) :=
  if s.takeWhile isDigit = [] then none else some (s.takeWhile isDigit, s.dropWhile isDigit)

def minus : Bytes → Bool × Bytes
  | [] => (false, [])
  | c :: s => if c = 45 then (true, s) else (false, c :: s)

def fraction : Bytes → Option (Bytes × Bytes)
  | [] => some ([], [])
  | c :: s => if c = 46 then digits s else some ([], c :: s)

def exponent : Bytes → Option (Int × Bytes)
  | [] => some (0, [])
  | c :: s =>
    if c = 101 ∨ c = 69 then
      (digits (takeSign s).2).map fun r =>
        (if (takeSign s).1 then -(digitsValue r.1 : Int) else digitsValue r.1, r.2)
    else some (0, c :: s)

/-- A number: no zero leads another digit. -/
def number (s : Bytes) : Option (Value × Bytes) := do
  let (negative, s) := minus s
  let (whole, s) ← digits s
  if whole.head? = some 48 ∧ whole.length ≠ 1 then none
  else
    let (part, s) ← fraction s
    let (power, s) ← exponent s
    let n : Int := digitsValue (whole ++ part)
    some (.number (if negative then -n else n) (power - part.length), s)

def literal (word : Bytes) (v : Value) (s : Bytes) : Option (Value × Bytes) :=
  if word.isPrefixOf s then some (v, s.drop word.length) else none

mutual

/-- A value, nested at most as deep as the fuel. -/
def value : Nat → Bytes → Option (Value × Bytes)
  | 0, _ => none
  | fuel + 1, s =>
    match skipBlanks s with
    | [] => none
    | c :: s =>
      if c = 34 then (characters s).map fun r => (.string r.1, r.2)
      else if c = 123 then
        match expect 125 s with
        | some s => some (.object [], s)
        | none => (members fuel s).map fun r => (.object r.1, r.2)
      else if c = 91 then
        match expect 93 s with
        | some s => some (.array [], s)
        | none => (elements fuel s).map fun r => (.array r.1, r.2)
      else if c = 116 then literal (ascii "true") (.bool true) (c :: s)
      else if c = 102 then literal (ascii "false") (.bool false) (c :: s)
      else if c = 110 then literal (ascii "null") .null (c :: s)
      else number (c :: s)

/-- The members of an object, up to its closing brace. -/
def members : Nat → Bytes → Option (List (Bytes × Value) × Bytes)
  | 0, _ => none
  | fuel + 1, s => do
    let (key, s) ← characters (← expect 34 s)
    let (v, s) ← value fuel (← expect 58 s)
    match expect 44 s with
    | some s =>
      let (rest, s) ← members fuel s
      some ((key, v) :: rest, s)
    | none => some ([(key, v)], ← expect 125 s)

/-- The elements of an array, up to its closing bracket. -/
def elements : Nat → Bytes → Option (List Value × Bytes)
  | 0, _ => none
  | fuel + 1, s => do
    let (v, s) ← value fuel s
    match expect 44 s with
    | some s =>
      let (rest, s) ← elements fuel s
      some (v :: rest, s)
    | none => some ([v], ← expect 93 s)

end

/-- The value of a whole text. -/
def parse (s : Bytes) : Option Value :=
  (value (s.length + 1) s).bind fun r => if skipBlanks r.2 = [] then some r.1 else none

/-! ## Characters -/

variable {s rest text : Bytes} {v : Value} {c : UInt8}

/-- A byte that stands for itself in a string. -/
def isPlain (c : UInt8) : Bool := 32 ≤ c && c != 34 && c != 92

theorem characters_plain (h : isPlain c = true) (s : Bytes) :
    characters (c :: s) = (characters s).map fun r => (c :: r.1, r.2) := by
  simp only [isPlain, Bool.and_eq_true, decide_eq_true_eq, bne_iff_ne, ne_eq] at h
  rw [characters.eq_def]
  simp only [h.1.2, if_false, UInt8.not_lt.2 h.1.1, h.2, not_false_eq_true, if_true, ne_eq]

theorem characters_escape {e x : UInt8} (he : e ≠ 117) (h : simpleEscape e = some x) (s : Bytes) :
    characters (92 :: e :: s) = (characters s).map fun r => (x :: r.1, r.2) := by
  rw [characters.eq_def]
  simp only [he, h, Option.bind_some, if_true, ne_eq, not_true_eq_false, if_false,
    not_false_eq_true]
  rfl

theorem characters_unicode {a b c d : UInt8} {unit : Nat} (h : codeUnit a b c d = some unit)
    (hlow : isLowSurrogate unit = false) (hhigh : isHighSurrogate unit = false) (s : Bytes) :
    characters (92 :: 117 :: a :: b :: c :: d :: s) =
      (characters s).map fun r => (utf8 unit ++ r.1, r.2) := by
  rw [characters.eq_def]
  simp only [h, Option.bind_some, hlow, hhigh, Bool.false_eq_true, if_false, ne_eq,
    not_true_eq_false]
  rfl

theorem characters_quote (rest : Bytes) : characters (34 :: rest) = some ([], rest) := by
  rw [characters.eq_def]
  rfl

/-- Plain bytes up to the closing quote. -/
theorem characters_key (h : ∀ c ∈ s, isPlain c = true) (rest : Bytes) :
    characters (s ++ 34 :: rest) = some (s, rest) := by
  induction s with
  | nil => exact characters_quote rest
  | cons c s ih =>
    rw [List.cons_append, characters_plain (h c (by simp)), ih fun c hc => h c (by simp [hc])]
    rfl

/-! ## Values -/

/-- What can follow a value: nothing that could go on with a number. -/
def Delimited (rest : Bytes) : Prop :=
  ∀ c ∈ rest.head?, isDigit c = false ∧ c ≠ 46 ∧ c ≠ 101 ∧ c ≠ 69

/-- The text is read as the value, whatever follows it. -/
def Reads (text : Bytes) (v : Value) : Prop :=
  ∀ fuel rest, Delimited rest → value (fuel + 1) (text ++ rest) = some (v, rest)

theorem Reads.parse (h : Reads text v) : parse text = some v := by
  have hvalue := h text.length [] (by simp [Delimited])
  rw [List.append_nil] at hvalue
  rw [Json.parse, hvalue]
  rfl

theorem reads_string (h : ∀ rest, characters (text ++ 34 :: rest) = some (s, rest)) :
    Reads (34 :: text ++ [34]) (.string s) := by
  intro fuel rest _
  rw [List.append_assoc, List.cons_append, value, skipBlanks,
    List.dropWhile_cons_of_neg (by decide)]
  change (characters (text ++ 34 :: rest)).map (fun r => (Value.string r.1, r.2)) = _
  rw [h]
  rfl

theorem decimalNat_lead {n : Nat} (h : (decimalNat n).head? = some 48) :
    (decimalNat n).length = 1 := by
  unfold decimalNat at h ⊢
  by_cases hn : n = 0
  · rw [if_pos hn]
    rfl
  · rw [if_neg hn] at h ⊢
    have hne : Nat.digits 10 n ≠ [] := Nat.digits_ne_nil_iff_ne_zero.2 hn
    rw [List.head?_map, List.head?_reverse, List.getLast?_eq_some_getLast hne, Option.map_some,
      Option.some.injEq] at h
    have hlt := Nat.digits_lt_base (by decide : 1 < 10) (List.getLast_mem hne)
    have hval := congrArg UInt8.toNat h
    rw [digit_toNat hlt] at hval
    have h48 : (48 : UInt8).toNat = 48 := rfl
    exact absurd (by omega : (Nat.digits 10 n).getLast hne = 0) (Nat.getLast_digit_ne_zero 10 hn)

theorem digits_decimalNat (n : Nat) (h : Delimited rest) :
    digits (decimalNat n ++ rest) = some (decimalNat n, rest) := by
  have hrest : ∀ c ∈ rest.head?, isDigit c = false := fun c hc => (h c hc).1
  rw [digits, takeWhile_append decimalNat_digits hrest, dropWhile_append decimalNat_digits hrest,
    if_neg (decimalNat_ne_nil n)]

theorem minus_decimal (z : Int) (rest : Bytes) :
    minus (decimal z ++ rest) = (decide (z < 0), decimalNat z.natAbs ++ rest) := by
  unfold decimal
  by_cases hz : z < 0
  · rw [if_pos hz, decide_eq_true hz]
    rfl
  · rw [if_neg hz, decide_eq_false hz]
    obtain ⟨c, cs, hc⟩ := List.exists_cons_of_ne_nil (decimalNat_ne_nil z.natAbs)
    have hd : isDigit c = true := decimalNat_digits c (by rw [hc]; simp)
    have hne : c ≠ 45 := (isHexDigit_lead (isHexDigit_of_isDigit hd)).2.1
    rw [hc, List.cons_append, minus, if_neg hne]

theorem fraction_delimited (h : Delimited rest) : fraction rest = some ([], rest) := by
  cases rest with
  | nil => rfl
  | cons c rest => exact if_neg (h c rfl).2.1

theorem exponent_delimited (h : Delimited rest) : exponent rest = some (0, rest) := by
  cases rest with
  | nil => rfl
  | cons c rest => exact if_neg (not_or.2 (h c rfl).2.2)

theorem number_decimal (z : Int) (h : Delimited rest) :
    number (decimal z ++ rest) = some (.number z 0, rest) := by
  have hlead : ¬ ((decimalNat z.natAbs).head? = some 48 ∧ (decimalNat z.natAbs).length ≠ 1) :=
    fun hl => hl.2 (decimalNat_lead hl.1)
  have hvalue : digitsValue (decimalNat z.natAbs ++ []) = z.natAbs :=
    digitsValue_decimalNat z.natAbs (by simp)
  have hsign : (if decide (z < 0) = true then -(z.natAbs : Int) else z.natAbs) = z := by
    simp only [decide_eq_true_eq]
    split <;> omega
  unfold number
  simp only [minus_decimal, digits_decimalNat _ h, Option.bind_eq_bind, Option.bind_some,
    if_neg hlead, fraction_delimited h, exponent_delimited h, hvalue, hsign]
  rfl

/-- A number in decimal. -/
theorem reads_decimal (z : Int) : Reads (decimal z) (.number z 0) := by
  intro fuel rest h
  have hnumber := number_decimal z h
  obtain ⟨c, cs, hc, hlead⟩ : ∃ c cs, decimal z = c :: cs ∧ (c = 45 ∨ isDigit c = true) := by
    unfold decimal
    by_cases hz : z < 0
    · exact ⟨_, _, if_pos hz, .inl rfl⟩
    · obtain ⟨c, cs, hc⟩ := List.exists_cons_of_ne_nil (decimalNat_ne_nil z.natAbs)
      exact ⟨c, cs, (if_neg hz).trans hc, .inr (decimalNat_digits c (by rw [hc]; simp))⟩
  have hother (d : UInt8) (hd : d ≠ 45 ∧ isDigit d = false) : c ≠ d := by
    rintro rfl
    rcases hlead with hlead | hlead
    · exact hd.1 hlead
    · rw [hd.2] at hlead
      cases hlead
  have hblank : isBlank c = false := by
    simp only [isBlank, beq_eq_false_iff_ne.2 (hother 32 (by decide)),
      beq_eq_false_iff_ne.2 (hother 9 (by decide)), beq_eq_false_iff_ne.2 (hother 10 (by decide)),
      beq_eq_false_iff_ne.2 (hother 13 (by decide)), Bool.or_self]
  rw [hc, List.cons_append] at hnumber ⊢
  rw [value, skipBlanks, List.dropWhile_cons_of_neg (by simp [hblank])]
  simp only [hother 34 (by decide), hother 123 (by decide), hother 91 (by decide),
    hother 116 (by decide), hother 102 (by decide), hother 110 (by decide), if_false]
  exact hnumber

theorem reads_true : Reads (ascii "true") (.bool true) := fun _ _ _ => rfl

theorem reads_false : Reads (ascii "false") (.bool false) := fun _ _ _ => rfl

/-! ## Objects -/

/-- A member as it is printed: its key, which has nothing to escape, and the text of its value. -/
structure Member where
  key : Bytes
  text : Bytes
  value : Value

structure Member.WellFormed (m : Member) : Prop where
  key : ∀ c ∈ m.key, isPlain c = true
  reads : Reads m.text m.value

def Member.print (blanks : Bytes) (m : Member) : Bytes :=
  blanks ++ 34 :: m.key ++ 34 :: 58 :: m.text

variable {blanks blanks' : Bytes} {m : Member} {ms : List Member}

theorem expect_eq (hblanks : ∀ c ∈ blanks, isBlank c = true) (hc : isBlank c = false)
    (rest : Bytes) : expect c (blanks ++ c :: rest) = some rest := by
  rw [expect, skipBlanks, dropWhile_append hblanks (by simpa using hc), scanChar, if_pos rfl]

theorem expect_here (hc : isBlank c = false) (rest : Bytes) :
    expect c (c :: rest) = some rest := by
  show expect c ([] ++ c :: rest) = some rest
  exact expect_eq (by simp) hc rest

theorem expect_other {d : UInt8} (hblanks : ∀ c ∈ blanks, isBlank c = true)
    (hd : isBlank d = false) (hcd : d ≠ c) (rest : Bytes) :
    expect c (blanks ++ d :: rest) = none := by
  rw [expect, skipBlanks, dropWhile_append hblanks (by simpa using hd), scanChar, if_neg hcd]

/-- One member, up to what comes after its value. -/
theorem member_read (hblanks : ∀ c ∈ blanks, isBlank c = true) (hm : m.WellFormed) (fuel : Nat)
    (hrest : Delimited rest) :
    members (fuel + 2) (m.print blanks ++ rest) =
      match expect 44 rest with
      | some s => (members (fuel + 1) s).map fun r => ((m.key, m.value) :: r.1, r.2)
      | none => (expect 125 rest).map fun s => ([(m.key, m.value)], s) := by
  have htext :
      m.print blanks ++ rest = blanks ++ 34 :: (m.key ++ 34 :: 58 :: (m.text ++ rest)) := by
    simp only [Member.print, List.append_assoc, List.cons_append]
  have hcolon : expect 58 (58 :: (m.text ++ rest)) = some (m.text ++ rest) :=
    expect_here (by decide) _
  rw [members, htext]
  simp only [expect_eq hblanks (by decide : isBlank 34 = false), Option.bind_eq_bind,
    Option.bind_some, characters_key hm.key, hcolon, hm.reads fuel rest hrest]
  cases expect 44 rest with
  | none => cases expect 125 rest <;> rfl
  | some s =>
    dsimp only
    cases members (fuel + 1) s <;> rfl

theorem delimited_blanks (hblanks : ∀ c ∈ blanks, isBlank c = true) (hrest : Delimited rest) :
    Delimited (blanks ++ rest) := by
  cases blanks with
  | nil => exact hrest
  | cons c blanks =>
    rintro d ⟨⟩
    have hblank := hblanks c (by simp)
    simp only [isBlank, Bool.or_eq_true, beq_iff_eq] at hblank
    rcases hblank with ((rfl | rfl) | rfl) | rfl <;> decide

theorem delimited_cons {c : UInt8} (h : isDigit c = false ∧ c ≠ 46 ∧ c ≠ 101 ∧ c ≠ 69)
    (rest : Bytes) : Delimited (c :: rest) := by
  rintro d ⟨⟩
  exact h

theorem intercalate_cons (c : UInt8) (x y : Bytes) (xs : List Bytes) :
    [c].intercalate (x :: y :: xs) = x ++ c :: [c].intercalate (y :: xs) := by
  simp [List.intercalate, List.intersperse]

/-- The members of an object, with blanks before each and before the closing brace. -/
theorem members_read (hblanks : ∀ c ∈ blanks, isBlank c = true)
    (hblanks' : ∀ c ∈ blanks', isBlank c = true) (hm : m.WellFormed)
    (hms : ∀ m ∈ ms, m.WellFormed) (fuel : Nat) (rest : Bytes) :
    members (fuel + ms.length + 2)
        ([44].intercalate ((m :: ms).map (Member.print blanks)) ++ (blanks' ++ 125 :: rest)) =
      some ((m :: ms).map fun m => (m.key, m.value), rest) := by
  induction ms generalizing m with
  | nil =>
    have hend := delimited_blanks hblanks' (delimited_cons (c := 125) (by decide) rest)
    have hone : [44].intercalate ([m].map (Member.print blanks)) = m.print blanks := by
      simp [List.intercalate]
    rw [hone, List.length_nil, Nat.add_zero, member_read hblanks hm fuel hend,
      expect_other hblanks' (by decide) (by decide), expect_eq hblanks' (by decide)]
    rfl
  | cons m' ms ih =>
    have hcomma : expect 44 (44 :: ([44].intercalate ((m' :: ms).map (Member.print blanks)) ++
        (blanks' ++ 125 :: rest))) = some _ := expect_here (by decide) _
    have hrest := ih (hms m' (by simp)) fun m hm => hms m (by simp [hm])
    have hfuel : fuel + (m' :: ms).length + 2 = fuel + ms.length + 1 + 2 := by
      rw [List.length_cons]
      omega
    rw [List.map_cons, List.map_cons, intercalate_cons, List.append_assoc, List.cons_append,
      ← List.map_cons, hfuel, member_read hblanks hm _ (delimited_cons (by decide) _), hcomma]
    dsimp only
    rw [hrest]
    rfl

theorem length_le_intercalate (blanks : Bytes) (ms : List Member) :
    ms.length ≤ ([44].intercalate (ms.map (Member.print blanks))).length := by
  induction ms with
  | nil => exact Nat.zero_le _
  | cons m ms ih =>
    have hone : 1 ≤ (m.print blanks).length := by
      simp only [Member.print, List.length_append, List.length_cons]
      omega
    cases ms with
    | nil => simpa [List.intercalate] using hone
    | cons m' ms =>
      rw [List.map_cons, List.map_cons, intercalate_cons, ← List.map_cons, List.length_append]
      simp only [List.length_cons] at ih ⊢
      omega

/-- **A text of one object**, its members printed one after the other. -/
theorem parse_object (hblanks : ∀ c ∈ blanks, isBlank c = true)
    (hblanks' : ∀ c ∈ blanks', isBlank c = true) (hrest : ∀ c ∈ rest, isBlank c = true)
    (hm : m.WellFormed) (hms : ∀ m ∈ ms, m.WellFormed) :
    parse (123 :: ([44].intercalate ((m :: ms).map (Member.print blanks)) ++
        (blanks' ++ 125 :: rest))) =
      some (.object ((m :: ms).map fun m => (m.key, m.value))) := by
  obtain ⟨fuel, hfuel⟩ : ∃ fuel, (123 :: ([44].intercalate ((m :: ms).map (Member.print blanks)) ++
      (blanks' ++ 125 :: rest))).length = fuel + ms.length + 2 := by
    have hle := length_le_intercalate blanks (m :: ms)
    simp only [List.length_cons, List.length_append] at hle ⊢
    exact ⟨_, (Nat.sub_add_cancel (by omega : ms.length + 2 ≤ _)).symm⟩
  have hquote : expect 125 ([44].intercalate ((m :: ms).map (Member.print blanks)) ++
      (blanks' ++ 125 :: rest)) = none := by
    obtain ⟨tail, htail⟩ : ∃ tail, [44].intercalate ((m :: ms).map (Member.print blanks)) =
        blanks ++ 34 :: tail := by
      have hprint : m.print blanks = blanks ++ 34 :: (m.key ++ 34 :: 58 :: m.text) :=
        List.append_assoc ..
      cases ms with
      | nil =>
        refine ⟨m.key ++ 34 :: 58 :: m.text, ?_⟩
        rw [← hprint]
        simp [List.intercalate]
      | cons m' ms =>
        refine ⟨m.key ++ 34 :: 58 :: m.text ++ 44 ::
          [44].intercalate ((m' :: ms).map (Member.print blanks)), ?_⟩
        rw [List.map_cons, List.map_cons, intercalate_cons, hprint, List.append_assoc]
        rfl
    rw [htail, List.append_assoc, List.cons_append]
    exact expect_other hblanks (by decide) (by decide) _
  have hmembers := members_read hblanks hblanks' hm hms fuel rest
  have hskip : skipBlanks rest = [] := List.dropWhile_eq_nil_iff.2 hrest
  rw [parse, hfuel, value, skipBlanks, List.dropWhile_cons_of_neg (by decide)]
  simp only [hquote, hmembers, Option.map_some]
  change (if skipBlanks rest = [] then _ else none) = _
  rw [if_pos hskip]

end Json
