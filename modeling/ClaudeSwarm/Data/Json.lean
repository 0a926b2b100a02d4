import ClaudeSwarm.Python

/-!
# JSON texts

`json.dumps` (with its defaults: ASCII only, separators `", "` and `": "`) and `json.loads`, on the
values the sources store as text. A number literal with a fraction or an exponent is kept as its
text (`float`). A `\uXXXX` escape that is not a scalar value, which Python reads as a lone
surrogate, has no counterpart here and is refused.

* `string_quote`: a string survives the trip, whatever follows it.
* **`loads_dumps_strings`**: so does a list of strings.
* `same_iff`: whether two values are the same can be computed.
-/

namespace ClaudeSwarm.Data

/-- A JSON value. -/
inductive Json where
  | null
  | bool (b : Bool)
  | int (i : Int)
  | float (text : String)
  | str (s : String)
  | arr (l : List Json)
  | obj (l : List (String × Json))

namespace Json

/-! ## `dumps` -/

/-- A hexadecimal digit. -/
def hexDigit (n : Nat) : Char := "0123456789abcdef".toList.getD n '0'

/-- `\uXXXX`. -/
def hexEscape (n : Nat) : List Char :=
  ['\\', 'u', hexDigit (n / 4096 % 16), hexDigit (n / 256 % 16), hexDigit (n / 16 % 16),
    hexDigit (n % 16)]

/-- One character of a string: short escapes, ASCII as it is, the rest by code unit. -/
def escape (c : Char) : List Char :=
  if c = '"' then ['\\', '"']
  else if c = '\\' then ['\\', '\\']
  else if c = '\n' then ['\\', 'n']
  else if c = '\r' then ['\\', 'r']
  else if c = '\t' then ['\\', 't']
  else if c.toNat = 12 then ['\\', 'f']
  else if c.toNat = 8 then ['\\', 'b']
  else if 32 ≤ c.toNat ∧ c.toNat ≤ 126 then [c]
  else if c.toNat < 0x10000 then hexEscape c.toNat
  else
    hexEscape (0xD800 + (c.toNat - 0x10000) / 1024) ++
      hexEscape (0xDC00 + (c.toNat - 0x10000) % 1024)

/-- A string with its quotes. -/
def quote (s : String) : List Char := '"' :: (s.toList.flatMap escape ++ ['"'])

mutual

/-- The text of a value. -/
def chars : Json → List Char
  | .null => "null".toList
  | .bool b => if b then "true".toList else "false".toList
  | .int i => (toString i).toList
  | .float t => t.toList
  | .str s => quote s
  | .arr [] => ['[', ']']
  | .arr (v :: l) => '[' :: (chars v ++ moreElems l)
  | .obj [] => ['{', '}']
  | .obj ((k, v) :: l) => '{' :: (quote k ++ [':', ' '] ++ chars v ++ moreMembers l)

/-- The rest of an array after its first element. -/
def moreElems : List Json → List Char
  | [] => [']']
  | v :: l => [',', ' '] ++ chars v ++ moreElems l

/-- The rest of an object after its first member. -/
def moreMembers : List (String × Json) → List Char
  | [] => ['}']
  | (k, v) :: l => [',', ' '] ++ quote k ++ [':', ' '] ++ chars v ++ moreMembers l

end

/-- `json.dumps`. -/
def dumps (v : Json) : String := .ofList v.chars

/-! ## `loads` -/

/-- Drop the white space between tokens. -/
def skip (s : List Char) : List Char :=
  s.dropWhile fun c => c = ' ' ∨ c = '\t' ∨ c = '\n' ∨ c = '\r'

/-- The value of a hexadecimal digit. -/
def hexVal (c : Char) : Option Nat :=
  if '0' ≤ c ∧ c ≤ '9' then some (c.toNat - 48)
  else if 'a' ≤ c ∧ c ≤ 'f' then some (c.toNat - 87)
  else if 'A' ≤ c ∧ c ≤ 'F' then some (c.toNat - 55)
  else none

/-- Four hexadecimal digits. -/
def hex4 (a b c d : Char) : Option Nat := do
  return (← hexVal a) * 4096 + (← hexVal b) * 256 + (← hexVal c) * 16 + (← hexVal d)

/-- The character of a one-letter escape. -/
def unescape (c : Char) : Option Char :=
  if c = '"' ∨ c = '\\' ∨ c = '/' then some c
  else if c = 'n' then some '\n'
  else if c = 'r' then some '\r'
  else if c = 't' then some '\t'
  else if c = 'f' then some (.ofNat 12)
  else if c = 'b' then some (.ofNat 8)
  else none

/-- The scalar value with code `n`. -/
def scalar (n : Nat) : Option Char := if n.isValidChar then some (.ofNat n) else none

/-- The second half of a surrogate pair whose first code unit is `n`. -/
def lowSurrogate (n : Nat) : List Char → Option (Char × List Char)
  | '\\' :: 'u' :: a :: b :: c :: d :: s => do
    let m ← hex4 a b c d
    if 0xDC00 ≤ m ∧ m ≤ 0xDFFF then
      return (← scalar (0x10000 + (n - 0xD800) * 1024 + (m - 0xDC00)), s)
    else none
  | _ => none

/-- A character after `\u`. -/
def unicode : List Char → Option (Char × List Char)
  | a :: b :: c :: d :: s => do
    let n ← hex4 a b c d
    if 0xD800 ≤ n ∧ n ≤ 0xDBFF then lowSurrogate n s else return (← scalar n, s)
  | _ => none

/-- One character of a string, escaped or not. -/
def oneChar (s : List Char) : Option (Char × List Char) :=
  match s with
  | [] => none
  | c :: s =>
    if c = '\\' then
      match s with
      | [] => none
      | e :: s => if e = 'u' then unicode s else (unescape e).map (·, s)
    else if c.toNat < 32 then none
    else some (c, s)

/-- A string after its opening quote, up to its closing one; `fuel` bounds its length. -/
def strBody : Nat → List Char → Option (List Char × List Char)
  | 0, _ => none
  | fuel + 1, s =>
    match s with
    | [] => none
    | q :: t =>
      if q = '"' then some ([], t)
      else do
        let (c, s) ← oneChar s
        let (l, s) ← strBody fuel s
        return (c :: l, s)

/-- A string after its opening quote. -/
def string (s : List Char) : Option (String × List Char) :=
  (strBody (s.length + 1) s).map fun p => (.ofList p.1, p.2)

/-- The digits at the front. -/
def spanDigits : List Char → List Char × List Char := List.span Char.isDigit

/-- A fraction or exponent, if there is one: its text and the rest. -/
def fraction (s : List Char) : List Char × List Char :=
  let f := match s with
    | '.' :: t => if (spanDigits t).1 = [] then ([], s) else ('.' :: (spanDigits t).1, (spanDigits t).2)
    | _ => ([], s)
  let exp (e : Char) (sign t : List Char) : List Char × List Char :=
    if (spanDigits t).1 = [] then f
    else (f.1 ++ e :: sign ++ (spanDigits t).1, (spanDigits t).2)
  match f.2 with
  | e :: '+' :: t => if e = 'e' ∨ e = 'E' then exp e ['+'] t else f
  | e :: '-' :: t => if e = 'e' ∨ e = 'E' then exp e ['-'] t else f
  | e :: t => if e = 'e' ∨ e = 'E' then exp e [] t else f
  | [] => f

/-- A number without its sign. -/
def number (neg : Bool) (s : List Char) : Option (Json × List Char) :=
  let ds := match s with
    | '0' :: t => (['0'], t)
    | _ => spanDigits s
  if ds.1 = [] then none
  else
    let f := fraction ds.2
    if f.1 = [] then
      let n : Int := Nat.ofDigitChars 10 ds.1 0
      some (.int (if neg then -n else n), f.2)
    else some (.float (.ofList ((if neg then ['-'] else []) ++ ds.1 ++ f.1)), f.2)

mutual

/-- A value at the front, without leading white space; `fuel` bounds the nesting. -/
def value : Nat → List Char → Option (Json × List Char)
  | 0, _ => none
  | fuel + 1, s =>
    match s with
    | '"' :: s => (string s).map fun p => (.str p.1, p.2)
    | '[' :: s =>
      match skip s with
      | ']' :: s => some (.arr [], s)
      | s => do
        let (v, s) ← value fuel s
        let (l, s) ← elems fuel (skip s)
        return (.arr (v :: l), s)
    | '{' :: s =>
      match skip s with
      | '}' :: s => some (.obj [], s)
      | s => do
        let (m, s) ← member fuel s
        let (l, s) ← members fuel (skip s)
        return (.obj (m :: l), s)
    | 'n' :: 'u' :: 'l' :: 'l' :: s => some (.null, s)
    | 't' :: 'r' :: 'u' :: 'e' :: s => some (.bool true, s)
    | 'f' :: 'a' :: 'l' :: 's' :: 'e' :: s => some (.bool false, s)
    | 'N' :: 'a' :: 'N' :: s => some (.float "NaN", s)
    | 'I' :: 'n' :: 'f' :: 'i' :: 'n' :: 'i' :: 't' :: 'y' :: s => some (.float "Infinity", s)
    | '-' :: 'I' :: 'n' :: 'f' :: 'i' :: 'n' :: 'i' :: 't' :: 'y' :: s =>
      some (.float "-Infinity", s)
    | '-' :: s => number true s
    | s => number false s

/-- The rest of an array after an element. -/
def elems : Nat → List Char → Option (List Json × List Char)
  | 0, _ => none
  | fuel + 1, s =>
    match s with
    | ']' :: s => some ([], s)
    | ',' :: s => do
      let (v, s) ← value fuel (skip s)
      let (l, s) ← elems fuel (skip s)
      return (v :: l, s)
    | _ => none

/-- A key, a colon and a value. -/
def member : Nat → List Char → Option ((String × Json) × List Char)
  | 0, _ => none
  | fuel + 1, s =>
    match s with
    | '"' :: s => do
      let (k, s) ← string s
      match skip s with
      | ':' :: s => do
        let (v, s) ← value fuel (skip s)
        return ((k, v), s)
      | _ => none
    | _ => none

/-- The rest of an object after a member. -/
def members : Nat → List Char → Option (List (String × Json) × List Char)
  | 0, _ => none
  | fuel + 1, s =>
    match s with
    | '}' :: s => some ([], s)
    | ',' :: s => do
      let (m, s) ← member fuel (skip s)
      let (l, s) ← members fuel (skip s)
      return (m :: l, s)
    | _ => none

end

/-- `json.loads`; `none` is the `JSONDecodeError`. -/
def loads (s : String) : Option Json :=
  match value (s.toList.length + 1) (skip s.toList) with
  | some (v, rest) => if skip rest = [] then some v else none
  | none => none

/-- What `json.loads` does with a text. Besides the `JSONDecodeError` of a text that is no JSON it raises
others, for an integer with too many digits or a text that is nested too deeply. -/
inductive Loaded where
  | value (v : Json)
  | decodeError
  | otherError

/-- `json.loads` within its limits. -/
def load (s : String) : Loaded := (loads s).elim .decodeError .value

/-- The strings of an array of strings. -/
def strings : List Json → Option (List String)
  | [] => some []
  | .str s :: l => (strings l).map (s :: ·)
  | _ :: _ => none

/-- The JSON array of `l`. -/
def ofStrings (l : List String) : Json := .arr (l.map .str)

/-- The value under a key of an object: the last one wins. -/
def get? (key : String) : Json → Option Json
  | .obj l => l.reverse.lookup key
  | _ => none

/-! ## The trip of a string -/

theorem hexVal_hexDigit : ∀ n < 16, hexVal (hexDigit n) = some n := by decide

theorem hex4_digits {n : Nat} (h : n < 65536) :
    hex4 (hexDigit (n / 4096 % 16)) (hexDigit (n / 256 % 16)) (hexDigit (n / 16 % 16))
      (hexDigit (n % 16)) = some n := by
  have hm : ∀ k, hexVal (hexDigit (k % 16)) = some (k % 16) :=
    fun k => hexVal_hexDigit _ (Nat.mod_lt _ (by decide))
  simp only [hex4, hm, Option.bind_eq_bind, Option.bind_some, Option.pure_def, Option.some.injEq]
  omega

theorem scalar_toNat (c : Char) : scalar c.toNat = some c := by
  have hv : c.toNat.isValidChar := c.valid
  rw [scalar, if_pos hv, Char.ofNat_toNat]

theorem toNat_not_surrogate (c : Char) : c.toNat < 0xD800 ∨ 0xDFFF < c.toNat ∧ c.toNat < 0x110000 :=
  c.valid

/-- Reading a code unit that is a character. -/
theorem oneChar_hexEscape {c : Char} (hc : c.toNat < 0x10000) (s : List Char) :
    oneChar (hexEscape c.toNat ++ s) = some (c, s) := by
  have hv : ¬ (0xD800 ≤ c.toNat ∧ c.toNat ≤ 0xDBFF) := by
    have := toNat_not_surrogate c
    omega
  simp only [hexEscape, List.cons_append, List.nil_append, oneChar, if_true, unicode,
    hex4_digits hc, Option.bind_eq_bind, Option.bind_some, if_neg hv, scalar_toNat, Option.pure_def]

/-- Reading a pair of code units. -/
theorem oneChar_units {n m : Nat} {c : Char} (hn : 0xD800 ≤ n ∧ n ≤ 0xDBFF)
    (hm : 0xDC00 ≤ m ∧ m ≤ 0xDFFF) (hc : 0x10000 + (n - 0xD800) * 1024 + (m - 0xDC00) = c.toNat)
    (s : List Char) : oneChar (hexEscape n ++ hexEscape m ++ s) = some (c, s) := by
  have hn' : n < 65536 := by omega
  have hm' : m < 65536 := by omega
  simp only [hexEscape, List.cons_append, List.nil_append, oneChar, if_true, unicode, lowSurrogate,
    hex4_digits hn', hex4_digits hm', Option.bind_eq_bind, Option.bind_some, if_pos hn, if_pos hm,
    hc, scalar_toNat, Option.pure_def]

/-- Reading an escaped character. -/
theorem oneChar_escape (c : Char) (s : List Char) : oneChar (escape c ++ s) = some (c, s) := by
  unfold escape
  split_ifs with h₁ h₂ h₃ h₄ h₅ h₆ h₇ h₈ h₉
  · subst h₁; rfl
  · subst h₂; rfl
  · subst h₃; rfl
  · subst h₄; rfl
  · subst h₅; rfl
  · obtain rfl : c = .ofNat 12 := by rw [← h₆, Char.ofNat_toNat]
    rfl
  · obtain rfl : c = .ofNat 8 := by rw [← h₇, Char.ofNat_toNat]
    rfl
  · simp only [List.cons_append, List.nil_append, oneChar, if_neg h₂]
    rw [if_neg (by omega)]
  · exact oneChar_hexEscape h₉ s
  · have := toNat_not_surrogate c
    exact oneChar_units (by omega) (by omega) (by omega) s

/-- An escaped character does not close the string. -/
theorem escape_head (c : Char) : ∃ q t, escape c = q :: t ∧ q ≠ '"' := by
  unfold escape
  split_ifs with h₁ h₂ h₃ h₄ h₅ h₆ h₇ h₈ h₉
  · exact ⟨_, _, rfl, by decide⟩
  · exact ⟨_, _, rfl, by decide⟩
  · exact ⟨_, _, rfl, by decide⟩
  · exact ⟨_, _, rfl, by decide⟩
  · exact ⟨_, _, rfl, by decide⟩
  · exact ⟨_, _, rfl, by decide⟩
  · exact ⟨_, _, rfl, by decide⟩
  · exact ⟨_, _, rfl, h₁⟩
  · exact ⟨_, _, rfl, by decide⟩
  · exact ⟨_, _, rfl, by decide⟩

theorem length_le_escape (l : List Char) : l.length ≤ (l.flatMap escape).length := by
  induction l with
  | nil => exact Nat.zero_le _
  | cons c l ih =>
    obtain ⟨q, t, he, -⟩ := escape_head c
    rw [List.flatMap_cons, List.length_append, he]
    simp only [List.length_cons]
    omega

/-- **A string survives the trip**, whatever follows its closing quote. -/
theorem strBody_escape (s : List Char) : ∀ (l : List Char) (fuel : Nat), l.length < fuel →
    strBody fuel (l.flatMap escape ++ '"' :: s) = some (l, s)
  | [], fuel + 1, _ => rfl
  | c :: l, fuel + 1, h => by
    have ih := strBody_escape s l fuel (by simpa using h)
    have hc := oneChar_escape c (l.flatMap escape ++ '"' :: s)
    obtain ⟨q, t, he, hq⟩ := escape_head c
    rw [List.flatMap_cons, List.append_assoc]
    rw [he, List.cons_append] at hc ⊢
    rw [strBody]
    simp only [if_neg hq, hc, Option.bind_eq_bind, Option.bind_some, ih, Option.pure_def]

theorem string_quote (s : String) (r : List Char) :
    string (s.toList.flatMap escape ++ '"' :: r) = some (s, r) := by
  have hl := length_le_escape s.toList
  rw [string, strBody_escape r s.toList _ (by rw [List.length_append]; omega), Option.map_some,
    String.ofList_toList]

theorem value_str (fuel : Nat) (s : String) (r : List Char) :
    value (fuel + 1) (chars (.str s) ++ r) = some (.str s, r) := by
  simp only [chars, quote, List.cons_append, List.append_assoc, List.nil_append, value,
    string_quote, Option.map_some]

theorem skip_quote (s : String) (r : List Char) : skip (chars (.str s) ++ r) = chars (.str s) ++ r := by
  simp only [chars, quote, List.cons_append, skip]
  rw [List.dropWhile_cons_of_neg (by decide)]

theorem elems_strings (r : List Char) : ∀ (l : List String) (fuel : Nat), l.length < fuel →
    elems fuel (moreElems (l.map .str) ++ r) = some (l.map .str, r)
  | [], fuel + 1, _ => rfl
  | s :: l, fuel + 1, h => by
    obtain ⟨fuel, rfl⟩ : ∃ k, fuel = k + 1 := ⟨fuel - 1, by simp only [List.length_cons] at h; omega⟩
    have ih := elems_strings r l (fuel + 1) (by simpa using h)
    have hm : skip (moreElems (l.map .str) ++ r) = moreElems (l.map .str) ++ r := by
      cases l <;> simp only [List.map, moreElems, List.cons_append, List.nil_append, skip] <;>
        rw [List.dropWhile_cons_of_neg (by decide)]
    have hsp : skip (' ' :: (chars (.str s) ++ (moreElems (l.map .str) ++ r))) =
        chars (.str s) ++ (moreElems (l.map .str) ++ r) := by
      rw [← skip_quote s]
      exact List.dropWhile_cons_of_pos (by decide)
    simp only [List.map_cons, moreElems, List.cons_append, List.nil_append, List.append_assoc]
    rw [elems]
    simp only [hsp, value_str, Option.bind_eq_bind, Option.bind_some, hm, ih, Option.pure_def]

/-- An array whose first element is `v`. -/
theorem value_arr {fuel : Nat} {q : Char} {t u r r' : List Char} {v : Json} {l : List Json}
    (ht : skip t = q :: u) (hq : q ≠ ']') (hv : value fuel (q :: u) = some (v, r))
    (he : elems fuel (skip r) = some (l, r')) :
    value (fuel + 1) ('[' :: t) = some (.arr (v :: l), r') := by
  rw [value, ht]
  split
  · rename_i h
    exact absurd (List.cons.inj h).1 hq
  · simp only [hv, he, Option.bind_eq_bind, Option.bind_some, Option.pure_def]

theorem length_le_moreElems (l : List String) :
    l.length < (moreElems (l.map .str)).length := by
  induction l with
  | nil => decide
  | cons s l ih =>
    simp only [List.map_cons, moreElems, List.length_append, List.length_cons] at ih ⊢
    omega

/-- **A list of strings survives the trip.** -/
theorem loads_dumps_strings (l : List String) :
    loads (dumps (ofStrings l)) = some (ofStrings l) := by
  cases l with
  | nil => rfl
  | cons s l =>
    have hlen := length_le_moreElems l
    have hfuel : ∃ k, (chars (ofStrings (s :: l))).length + 1 = k + 2 ∧ l.length < k + 1 := by
      refine ⟨(chars (ofStrings (s :: l))).length - 1, ?_, ?_⟩ <;>
        simp only [ofStrings, List.map_cons, chars, List.length_cons, List.length_append] <;> omega
    obtain ⟨k, hk, hl⟩ := hfuel
    have hbr : skip (chars (ofStrings (s :: l))) = chars (ofStrings (s :: l)) := by
      simp only [ofStrings, List.map_cons, chars, skip]
      exact List.dropWhile_cons_of_neg (by decide)
    have hm : skip (moreElems (l.map .str)) = moreElems (l.map .str) := by
      cases l <;> simp only [List.map, moreElems, List.cons_append, List.nil_append, skip] <;>
        rw [List.dropWhile_cons_of_neg (by decide)]
    have he : elems (k + 1) (skip (moreElems (l.map .str))) = some (l.map .str, []) := by
      rw [hm, ← List.append_nil (moreElems _)]
      exact elems_strings [] l (k + 1) hl
    have hv : value (k + 2) (chars (ofStrings (s :: l))) = some (ofStrings (s :: l), []) :=
      value_arr (skip_quote s _) (by decide) (value_str k s _) he
    unfold loads dumps
    rw [String.toList_ofList, hk, hbr, hv]
    rfl

theorem strings_map (l : List String) : strings (l.map .str) = some l := by
  induction l with
  | nil => rfl
  | cons s l ih => rw [List.map_cons, strings, ih, Option.map_some]

/-! ## Equality -/

mutual

/-- Whether two values are the same. -/
def same : Json → Json → Bool
  | .null, .null => true
  | .bool b, .bool c => b == c
  | .int i, .int j => i == j
  | .float s, .float t => s == t
  | .str s, .str t => s == t
  | .arr l, .arr m => sameElems l m
  | .obj l, .obj m => sameMembers l m
  | _, _ => false

def sameElems : List Json → List Json → Bool
  | [], [] => true
  | v :: l, w :: m => same v w && sameElems l m
  | _, _ => false

def sameMembers : List (String × Json) → List (String × Json) → Bool
  | [], [] => true
  | (k, v) :: l, (k', w) :: m => k == k' && same v w && sameMembers l m
  | _, _ => false

end

mutual

theorem same_iff : ∀ {v w : Json}, same v w = true ↔ v = w
  | .arr l, .arr m => by simp [same, sameElems_iff (l := l) (m := m)]
  | .obj l, .obj m => by simp [same, sameMembers_iff (l := l) (m := m)]
  | .null, w => by cases w <;> simp [same]
  | .bool b, w => by cases w <;> simp [same]
  | .int i, w => by cases w <;> simp [same]
  | .float s, w => by cases w <;> simp [same]
  | .str s, w => by cases w <;> simp [same]
  | .arr l, .null | .arr l, .bool _ | .arr l, .int _ | .arr l, .float _ | .arr l, .str _ | .arr l, .obj _ => by simp [same]
  | .obj l, .null | .obj l, .bool _ | .obj l, .int _ | .obj l, .float _ | .obj l, .str _ | .obj l, .arr _ => by simp [same]

theorem sameElems_iff : ∀ {l m : List Json}, sameElems l m = true ↔ l = m
  | [], [] => by simp [sameElems]
  | [], _ :: _ => by simp [sameElems]
  | _ :: _, [] => by simp [sameElems]
  | v :: l, w :: m => by
    simp [sameElems, same_iff (v := v) (w := w), sameElems_iff (l := l) (m := m)]

theorem sameMembers_iff : ∀ {l m : List (String × Json)}, sameMembers l m = true ↔ l = m
  | [], [] => by simp [sameMembers]
  | [], _ :: _ => by simp [sameMembers]
  | _ :: _, [] => by simp [sameMembers]
  | (k, v) :: l, (k', w) :: m => by
    simp [sameMembers, same_iff (v := v) (w := w), sameMembers_iff (l := l) (m := m)]

end

instance : DecidableEq Json := fun _ _ => decidable_of_iff _ same_iff

/-! ## Dictionaries -/

/-- `d[key] = value`. -/
def setKey (d : List (String × Json)) (f : String × Json) : List (String × Json) :=
  if d.any fun g => g.1 == f.1 then d.map fun g => if g.1 = f.1 then f else g else d ++ [f]

end Json

end ClaudeSwarm.Data
