import Mathlib.Data.Rat.Floor

/-!
# The Python built-ins the sources use

`str.strip`, `str.split(",")`, `str.lower`, `int(str)` and the exceptions that leave a modelled
function. Strings are sequences of Unicode scalar values. `float` is exact: a clock reading is a
rational (`Time`). The text of a float is not fixed here; `FloatFmt` is the pair `str(float)` and
`float(str)`, and what is needed of it (that a value survives the trip) is a hypothesis where it is
used.

* `int_str`: `int(str(i)) = i`.
* `truncate_mono`: `int(float)` is monotone.
* `float_str_exact`: there are formats in which every value survives.
-/

namespace ClaudeSwarm.Python

/-- A `float`, exactly: seconds since the epoch where it is a clock reading. -/
abbrev Time := ℚ

/-- The exceptions that leave a modelled function, with their text. -/
inductive PyError where
  | valueError (msg : String)
  | typeError (msg : String)
  | fileNotFound (msg : String)
  | osError
  | jsonDecode
  | sqlite (msg : String)
  | keyError (key : String)
  deriving DecidableEq, Repr

/-- `str(float)` and `float(str)`. -/
structure FloatFmt where
  str : Time → String
  float : String → Option Time

/-- Floats survive `float(str(·))`. -/
def FloatFmt.RoundTrips (F : FloatFmt) : Prop := ∀ t : Time, F.float (F.str t) = some t

/-- `int(float)`: truncation towards zero. -/
def truncate (t : Time) : Int := Int.tdiv t.num t.den

/-- The characters `str.strip` removes. -/
def isSpace (c : Char) : Bool :=
  let n := c.toNat
  (9 ≤ n && n ≤ 13) || (28 ≤ n && n ≤ 32) || n == 0x85 || n == 0xA0 || n == 0x1680 ||
    (0x2000 ≤ n && n ≤ 0x200A) || n == 0x2028 || n == 0x2029 || n == 0x202F || n == 0x205F ||
    n == 0x3000

/-- `str.strip()`. -/
def strip (s : List Char) : List Char :=
  ((s.dropWhile isSpace).reverse.dropWhile isSpace).reverse

/-- `str.lower()` on the letters the priority names are made of. -/
def lower (s : List Char) : List Char := s.map Char.toLower

/-- `[r.strip() for r in s.split(",") if r.strip()]`. -/
def splitCommas (s : String) : List String :=
  ((s.toList.splitOn ',').map strip).filterMap fun r => if r = [] then none else some (.ofList r)

/-- A run of digits. -/
def digits (s : List Char) : Option Nat :=
  if s ≠ [] ∧ s.all Char.isDigit then some (Nat.ofDigitChars 10 s 0) else none

/-- `int(str)`; `none` is the `ValueError`. -/
def int (s : String) : Option Int :=
  match strip s.toList with
  | '-' :: ds => (digits ds).map fun n : Nat => -(n : Int)
  | '+' :: ds => (digits ds).map fun n : Nat => (n : Int)
  | ds => (digits ds).map fun n : Nat => (n : Int)

/-- `str` and `float` as they are on whole seconds. -/
def wholeSeconds : FloatFmt where
  str t := toString t.num ++ ".0"
  float s := (int (.ofList (s.toList.takeWhile (· ≠ '.')))).map fun i => (i : Time)

theorem isSpace_of_isDigit {c : Char} (h : c.isDigit = true) : isSpace c = false := by
  have hc : 48 ≤ c.toNat ∧ c.toNat ≤ 57 := by
    simpa [Char.isDigit, UInt32.le_iff_toNat_le] using h
  simp only [isSpace, Bool.or_eq_false_iff, Bool.and_eq_false_iff, decide_eq_false_iff_not,
    beq_eq_false_iff_ne]
  omega

theorem strip_eq_self {s : List Char} (h : ∀ c ∈ s, isSpace c = false) : strip s = s := by
  have hd : ∀ l : List Char, (∀ c ∈ l, isSpace c = false) → l.dropWhile isSpace = l := by
    intro l hl
    cases l with
    | nil => rfl
    | cons c l => rw [List.dropWhile_cons_of_neg (by simp [hl c List.mem_cons_self])]
  rw [strip, hd s h, hd s.reverse fun c hc => h c (List.mem_reverse.mp hc), List.reverse_reverse]

theorem dropWhile_append_cons {p : Char → Bool} {c : Char} (hc : p c = false) (l r : List Char) :
    (l ++ c :: r).dropWhile p = l.dropWhile p ++ c :: r := by
  induction l with
  | nil => simp [hc]
  | cons a l ih =>
    by_cases ha : p a
    · simp [ha, ih]
    · simp [ha]

/-- A character that is no space ends what is stripped on either side of it. -/
theorem strip_append_cons {c : Char} (hc : isSpace c = false) (l r : List Char) :
    strip (l ++ c :: r) = l.dropWhile isSpace ++ c :: (r.reverse.dropWhile isSpace).reverse := by
  rw [strip, dropWhile_append_cons hc, List.reverse_append, List.reverse_cons, List.append_assoc,
    List.singleton_append, dropWhile_append_cons hc]
  simp

/-- What has no space at its ends has none to drop at its start. -/
theorem dropWhile_of_strip {l : List Char} (h : strip l = l) : l.dropWhile isSpace = l := by
  have hle := (List.dropWhile_suffix (l := l) isSpace).length_le
  have hlen : (strip l).length ≤ (l.dropWhile isSpace).length := by
    have := (List.dropWhile_suffix (l := (l.dropWhile isSpace).reverse) isSpace).length_le
    simpa [strip] using this
  rw [h] at hlen
  exact (List.dropWhile_suffix isSpace).eq_of_length (by omega)

/-- Nor at its end. -/
theorem dropWhile_reverse_of_strip {l : List Char} (h : strip l = l) : l.reverse.dropWhile isSpace = l.reverse := by
  have hstrip : (l.reverse.dropWhile isSpace).reverse = l := by
    rw [strip, dropWhile_of_strip h] at h
    exact h
  rw [← List.reverse_reverse (l.reverse.dropWhile isSpace), hstrip]

/-- `strip` keeps what is no space. -/
theorem mem_strip {c : Char} (hc : isSpace c = false) {l : List Char} (h : c ∈ l) : c ∈ strip l := by
  obtain ⟨a, r, rfl⟩ := List.append_of_mem h
  rw [strip_append_cons hc]
  simp

theorem digits_toDigits (n : Nat) : digits (Nat.toDigits 10 n) = some n := by
  have hne : Nat.toDigits 10 n ≠ [] := by
    intro h
    have := Nat.repr_ne_empty (n := n)
    rw [Nat.repr_eq_ofList_toDigits, h] at this
    exact this rfl
  have hall : (Nat.toDigits 10 n).all Char.isDigit = true :=
    List.all_eq_true.mpr fun c hc => Nat.isDigit_of_mem_toDigits (by decide) (by decide) hc
  rw [digits, if_pos ⟨hne, hall⟩, Nat.ofDigitChars_ten_toDigits]

theorem isSpace_toDigits (n : Nat) : ∀ c ∈ Nat.toDigits 10 n, isSpace c = false :=
  fun _ hc => isSpace_of_isDigit (Nat.isDigit_of_mem_toDigits (by decide) (by decide) hc)

theorem truncate_of_nonneg {t : Time} (h : 0 ≤ t) : truncate t = ⌊t⌋ := by
  rw [truncate, Int.tdiv_eq_ediv_of_nonneg (Rat.num_nonneg.mpr h), Rat.floor_def']

theorem truncate_of_nonpos {t : Time} (h : t ≤ 0) : truncate t = ⌈t⌉ := by
  have hneg := truncate_of_nonneg (neg_nonneg.mpr h)
  rw [truncate, Rat.num_neg_eq_neg_num, Rat.den_neg_eq_den, Int.neg_tdiv, Int.floor_neg] at hneg
  exact Int.neg_inj.mp hneg

/-- `int` is monotone. -/
theorem truncate_mono {t t' : Time} (h : t ≤ t') : truncate t ≤ truncate t' := by
  rcases le_total 0 t with h₀ | h₀
  · rw [truncate_of_nonneg h₀, truncate_of_nonneg (h₀.trans h)]
    exact Int.floor_mono h
  · rw [truncate_of_nonpos h₀]
    rcases le_total 0 t' with h₁ | h₁
    · rw [truncate_of_nonneg h₁]
      exact (Int.ceil_le.mpr (by exact_mod_cast h₀)).trans (Int.floor_nonneg.mpr h₁)
    · rw [truncate_of_nonpos h₁]
      exact Int.ceil_mono h

/-- `int` drops less than one. -/
theorem le_truncate_add_one (t : Time) : t ≤ truncate t + 1 := by
  rcases le_total 0 t with h | h
  · rw [truncate_of_nonneg h]
    exact (Int.lt_floor_add_one t).le
  · rw [truncate_of_nonpos h]
    exact (Int.le_ceil t).trans (le_add_of_nonneg_right zero_le_one)

/-- `str(int)` of what is not negative. -/
theorem toList_str_ofNat (n : Nat) : (toString (Int.ofNat n)).toList = Nat.toDigits 10 n :=
  Nat.toList_repr

/-- `str(int)` of a negative number. -/
theorem toList_str_negSucc (n : Nat) :
    (toString (Int.negSucc n)).toList = '-' :: Nat.toDigits 10 (n + 1) := by
  show ("-" ++ Nat.repr (n + 1)).toList = _
  rw [String.toList_append, Nat.toList_repr]
  rfl

/-- `int(str(i)) = i`. -/
theorem int_str (i : Int) : int (toString i) = some i := by
  cases i with
  | ofNat n =>
    unfold int
    rw [toList_str_ofNat, strip_eq_self (isSpace_toDigits n)]
    split
    · rename_i ds hds
      have := Nat.isDigit_of_mem_toDigits (b := 10) (c := '-') (n := n) (by decide) (by decide)
        (hds ▸ List.mem_cons_self)
      exact absurd this (by decide)
    · rename_i ds hds
      have := Nat.isDigit_of_mem_toDigits (b := 10) (c := '+') (n := n) (by decide) (by decide)
        (hds ▸ List.mem_cons_self)
      exact absurd this (by decide)
    · rw [digits_toDigits]
      rfl
  | negSucc n =>
    unfold int
    rw [toList_str_negSucc, strip_eq_self fun c hc => ?_]
    · simp only
      rw [digits_toDigits, Option.map_some]
      rfl
    · rcases List.mem_cons.mp hc with rfl | hc
      · decide
      · exact isSpace_toDigits _ c hc

/-- A character of `str(int)`. -/
def isNumeral (c : Char) : Bool := c.isDigit || c == '-'

theorem mem_of_digits {s : List Char} {n : Nat} (h : digits s = some n) {c : Char} (hc : c ∈ s) :
    c.isDigit = true := by
  unfold digits at h
  split at h
  · rename_i hs
    exact List.all_eq_true.mp hs.2 c hc
  · cases h

/-- `int` refuses a text with a character no number has. -/
theorem int_eq_none {s : String} {c : Char} (hc : c ∈ s.toList) (hspace : isSpace c = false)
    (hnum : isNumeral c = false) (hplus : c ≠ '+') : int s = none := by
  have hmem := mem_strip hspace hc
  have hno : ∀ ds : List Char, c ∈ ds → digits ds = none := by
    intro ds hds
    cases h : digits ds with
    | none => rfl
    | some n => simp [isNumeral, mem_of_digits h hds] at hnum
  have hminus : c ≠ '-' := by
    rintro rfl
    exact absurd hnum (by decide)
  unfold int
  split
  · rename_i ds hds
    rw [hds, List.mem_cons] at hmem
    rw [hno ds (hmem.resolve_left hminus), Option.map_none]
  · rename_i ds hds
    rw [hds, List.mem_cons] at hmem
    rw [hno ds (hmem.resolve_left hplus), Option.map_none]
  · rw [hno _ hmem, Option.map_none]

/-- `wholeSeconds`, with a fraction for what is not a whole number. -/
def exact : FloatFmt where
  str t := toString t.num ++ if t.den = 1 then ".0" else "/" ++ toString (t.den : Int)
  float s :=
    match int (.ofList (s.toList.takeWhile isNumeral)), s.toList.dropWhile isNumeral with
    | some n, '/' :: d => (int (.ofList d)).map fun d => (n : Time) / d
    | n, _ => n.map fun n => (n : Time)

theorem isNumeral_str (i : Int) : ∀ c ∈ (toString i).toList, isNumeral c = true := by
  have hdigit : ∀ (n : Nat), ∀ c ∈ Nat.toDigits 10 n, isNumeral c = true := fun n c hc => by
    simp [isNumeral, Nat.isDigit_of_mem_toDigits (by decide) (by decide) hc]
  cases i with
  | ofNat n =>
    rw [toList_str_ofNat]
    exact hdigit n
  | negSucc n =>
    rw [toList_str_negSucc]
    intro c hc
    rcases List.mem_cons.mp hc with rfl | hc
    · decide
    · exact hdigit _ c hc

/-- `str` of different numbers is different. -/
theorem str_inj {i j : Int} (h : toString i = toString j) : i = j := by
  have hint := int_str i
  rw [h, int_str] at hint
  exact (Option.some.inj hint).symm

/-- The number a text starts with. -/
def numeral : List Char → List Char
  | '-' :: l => '-' :: l.takeWhile Char.isDigit
  | l => l.takeWhile Char.isDigit

theorem numeral_append (i : Int) (l : List Char) :
    numeral ((toString i).toList ++ '-' :: l) = (toString i).toList := by
  have hdigit : ∀ n : Nat, ∀ c ∈ Nat.toDigits 10 n, c.isDigit = true := fun n c hc =>
    Nat.isDigit_of_mem_toDigits (by decide) (by decide) hc
  have htake : ∀ n : Nat, (Nat.toDigits 10 n ++ '-' :: l).takeWhile Char.isDigit = Nat.toDigits 10 n := by
    intro n
    rw [List.takeWhile_append_of_pos (hdigit n), List.takeWhile_cons_of_neg (by decide), List.append_nil]
  cases i with
  | ofNat n =>
    rw [toList_str_ofNat]
    unfold numeral
    split
    · rename_i l' hl
      cases hds : Nat.toDigits 10 n with
      | nil =>
        have hint := digits_toDigits n
        rw [hds] at hint
        cases hint
      | cons d ds =>
        rw [hds] at hl
        obtain rfl := (List.cons.inj hl).1
        exact absurd (hdigit n '-' (hds ▸ List.mem_cons_self)) (by decide)
    · exact htake n
  | negSucc n =>
    rw [toList_str_negSucc]
    exact congrArg ('-' :: ·) (htake (n + 1))

/-- What follows `str(i)` and a dash starts there. -/
theorem str_append_inj {i j : Int} {l l' : List Char}
    (h : (toString i).toList ++ '-' :: l = (toString j).toList ++ '-' :: l') : i = j ∧ l = l' := by
  have hnum := congrArg numeral h
  rw [numeral_append, numeral_append] at hnum
  rw [hnum] at h
  exact ⟨str_inj (String.toList_inj.mp hnum), (List.cons.inj (List.append_cancel_left h)).2⟩

/-- `float(str(t)) = t`. -/
theorem float_str_exact (t : Time) : exact.float (exact.str t) = some t := by
  have hnum := isNumeral_str t.num
  have hsplit : ∀ c rest, isNumeral c = false →
      ((toString t.num).toList ++ c :: rest).takeWhile isNumeral = (toString t.num).toList ∧
        ((toString t.num).toList ++ c :: rest).dropWhile isNumeral = c :: rest := by
    intro c rest hc
    rw [List.takeWhile_append_of_pos hnum, List.dropWhile_append_of_pos hnum]
    simp [hc]
  by_cases hden : t.den = 1
  · obtain ⟨ht, hd⟩ := hsplit '.' ['0'] (by decide)
    have hl : (exact.str t).toList = (toString t.num).toList ++ ['.', '0'] := by
      simp [exact, hden]
    simp only [exact] at hl ⊢
    rw [hl, ht, hd, String.ofList_toList, int_str]
    simp [Rat.coe_int_num_of_den_eq_one hden]
  · obtain ⟨ht, hd⟩ := hsplit '/' (toString (t.den : Int)).toList (by decide)
    have hl : (exact.str t).toList =
        (toString t.num).toList ++ '/' :: (toString (t.den : Int)).toList := by
      simp [exact, hden]
    simp only [exact] at hl ⊢
    rw [hl, ht, hd, String.ofList_toList, int_str]
    simp only [String.ofList_toList, int_str]
    exact congrArg some (Rat.num_div_den t)

/-- The digits of a number after the last dash are read back. -/
theorem dash_toDigits {l l' : List Char} {n n' : Nat}
    (h : l ++ '-' :: Nat.toDigits 10 n = l' ++ '-' :: Nat.toDigits 10 n') : l = l' ∧ n = n' := by
  have hdash : ∀ k, ∀ c ∈ (Nat.toDigits 10 k).reverse, (c != '-') = true := by
    intro k c hc
    have hdigit := Nat.isDigit_of_mem_toDigits (by decide) (by decide) (List.mem_reverse.mp hc)
    exact bne_iff_ne.mpr fun he => absurd (he ▸ hdigit) (by decide)
  have hrev := congrArg List.reverse h
  simp only [List.reverse_append, List.reverse_cons, List.append_assoc, List.singleton_append]
    at hrev
  have hpre := congrArg (List.takeWhile (· != '-')) hrev
  rw [List.takeWhile_append_of_pos (hdash n), List.takeWhile_append_of_pos (hdash n')] at hpre
  simp only [List.takeWhile_cons, bne_self_eq_false, Bool.false_eq_true, if_false,
    List.append_nil, List.reverse_inj] at hpre
  have hn : n = n' := by
    have hd := congrArg (fun d => Nat.ofDigitChars 10 d 0) hpre
    simpa only [Nat.ofDigitChars_ten_toDigits] using hd
  subst hn
  simpa using hrev

end ClaudeSwarm.Python
