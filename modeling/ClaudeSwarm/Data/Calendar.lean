import Mathlib.Tactic.IntervalCases

/-!
# Dates and ISO 8601 texts

`Date` is a day of the Gregorian calendar, extended to all years; `Date.ofDays` counts from 1970-01-01.
A year of the calendar begins in March here, so that the leap day is its last day.
`isoFormat` writes a second since the epoch as `YYYY-MM-DDThh:mm:ssZ`, and `fromIsoFormat` reads a text
`YYYY-MM-DD hh:mm:ss` with an offset `+hh:mm` or `-hh:mm`, whatever separates date and time.

* `Date.toDays_ofDays`: the days up to a date are those it was made of.
* **`fromIsoFormat_isoFormat`**: what was written is read back, up to the year 9999.
-/

namespace ClaudeSwarm.Data

/-- A day of the calendar. -/
structure Date where
  year : Int
  month : Int
  day : Int
  deriving DecidableEq

namespace Date

/-- The days before year `y` of a cycle of 400 years. -/
def yearDays (y : Int) : Int := 365 * y + y / 4 - y / 100

/-- The days of a year before its month `m`; March is month 0. -/
def monthDays (m : Int) : Int := (153 * m + 2) / 5

/-- The days from 1970-01-01 to a date. -/
def toDays (d : Date) : Int :=
  let y := if d.month ≤ 2 then d.year - 1 else d.year
  y / 400 * 146097 + yearDays (y % 400) + monthDays ((d.month + 9) % 12) + (d.day - 1) - 719468

/-- The year of day `d` of a cycle: its century, the four years in it, the year of these. -/
def yearOf (d : Int) : Int :=
  let c := min (d / 36524) 3
  let r := d - 36524 * c
  let q := r / 1461
  100 * c + 4 * q + min ((r - 1461 * q) / 365) 3

/-- The month of day `d` of a year. -/
def monthOf (d : Int) : Int := (5 * d + 2) / 153

/-- Day `r` of month `m` of year `y` of cycle `e`. -/
def ofParts (e y m r : Int) : Date where
  year := e * 400 + y + if 10 ≤ m then 1 else 0
  month := if 10 ≤ m then m - 9 else m + 3
  day := r + 1

/-- The date that many days after 1970-01-01. -/
def ofDays (days : Int) : Date :=
  let e := (days + 719468) / 146097
  let d := (days + 719468) % 146097
  let r := d - yearDays (yearOf d)
  ofParts e (yearOf d) (monthOf r) (r - monthDays (monthOf r))

/-- A day of a cycle is one of the days of its year. -/
theorem yearOf_spec {d : Int} (h0 : 0 ≤ d) (h1 : d < 146097) :
    0 ≤ yearOf d ∧ yearOf d < 400 ∧ yearDays (yearOf d) ≤ d ∧ d < yearDays (yearOf d) + 366 := by
  have hc : 0 ≤ min (d / 36524) 3 ∧ min (d / 36524) 3 ≤ 3 ∧
      0 ≤ d - 36524 * min (d / 36524) 3 ∧ d - 36524 * min (d / 36524) 3 ≤ 36524 := by
    omega
  simp only [yearOf, yearDays]
  generalize min (d / 36524) 3 = c at hc ⊢
  obtain ⟨hc0, hc3, hr0, hr⟩ := hc
  generalize hrd : d - 36524 * c = r at hr0 hr ⊢
  have hq : 0 ≤ r / 1461 ∧ r / 1461 ≤ 24 ∧ 0 ≤ r - 1461 * (r / 1461) ∧
      r - 1461 * (r / 1461) ≤ 1460 := by
    omega
  generalize r / 1461 = q at hq ⊢
  obtain ⟨hq0, hq24, hs0, hs⟩ := hq
  generalize hsd : r - 1461 * q = s at hs0 hs ⊢
  have hy : 0 ≤ min (s / 365) 3 ∧ min (s / 365) 3 ≤ 3 ∧ 0 ≤ s - 365 * min (s / 365) 3 ∧
      s - 365 * min (s / 365) 3 ≤ 365 := by
    omega
  generalize min (s / 365) 3 = y at hy ⊢
  have h4 : (100 * c + 4 * q + y) / 4 = 25 * c + q := by omega
  have h100 : (100 * c + 4 * q + y) / 100 = c := by omega
  rw [h4, h100]
  omega

/-- A day of a year is one of the days of its month. -/
theorem monthOf_spec {r : Int} (h0 : 0 ≤ r) (h1 : r < 366) :
    0 ≤ monthOf r ∧ monthOf r ≤ 11 ∧ monthDays (monthOf r) ≤ r ∧ r ≤ monthDays (monthOf r) + 30 := by
  simp only [monthOf, monthDays]
  omega

theorem toDays_ofParts {e y m r : Int} (hy0 : 0 ≤ y) (hy : y < 400) (hm0 : 0 ≤ m) (hm : m ≤ 11) :
    (ofParts e y m r).toDays = e * 146097 + yearDays y + monthDays m + r - 719468 := by
  simp only [toDays, ofParts]
  by_cases h : 10 ≤ m
  · have hjan : m - 9 ≤ 2 := by omega
    have hmonth : (m - 9 + 9) % 12 = m := by omega
    have hcycle : (e * 400 + y + 1 - 1) / 400 = e := by omega
    have hyear : (e * 400 + y + 1 - 1) % 400 = y := by omega
    simp only [h, if_true, hjan, hmonth, hcycle, hyear]
    omega
  · have hmar : ¬ m + 3 ≤ 2 := by omega
    have hmonth : (m + 3 + 9) % 12 = m := by omega
    have hcycle : (e * 400 + y + 0) / 400 = e := by omega
    have hyear : (e * 400 + y + 0) % 400 = y := by omega
    simp only [h, if_false, hmar, hmonth, hcycle, hyear]
    omega

theorem toDays_ofDays (days : Int) : (ofDays days).toDays = days := by
  have hd : 0 ≤ (days + 719468) % 146097 ∧ (days + 719468) % 146097 < 146097 := by omega
  obtain ⟨hy0, hy, hle, hlt⟩ := yearOf_spec hd.1 hd.2
  obtain ⟨hm0, hm, -, -⟩ := monthOf_spec (Int.sub_nonneg.mpr hle) (by omega)
  rw [ofDays, toDays_ofParts hy0 hy hm0 hm]
  omega

/-- The parts of a date have two digits each, and its year four. -/
theorem ofDays_bounds {days : Int} (h0 : 0 ≤ days) (h1 : days < 2932897) :
    1 ≤ (ofDays days).year ∧ (ofDays days).year < 10000 ∧ 0 ≤ (ofDays days).month ∧
      (ofDays days).month < 100 ∧ 0 ≤ (ofDays days).day ∧ (ofDays days).day < 100 := by
  have hd : 0 ≤ (days + 719468) % 146097 ∧ (days + 719468) % 146097 < 146097 := by omega
  have hz : (days + 719468) / 146097 * 146097 + (days + 719468) % 146097 = days + 719468 := by omega
  obtain ⟨hy0, hy, hle, hlt⟩ := yearOf_spec hd.1 hd.2
  obtain ⟨hm0, hm, hdle, hdlt⟩ := monthOf_spec (Int.sub_nonneg.mpr hle) (by omega)
  have hmonth : (days + 719468) / 146097 = 24 → yearOf ((days + 719468) % 146097) = 399 →
      monthOf ((days + 719468) % 146097 - yearDays (yearOf ((days + 719468) % 146097))) < 10 := by
    intro he hy
    rw [hy]
    simp only [monthOf, yearDays]
    omega
  simp only [ofDays, ofParts]
  split <;> omega

end Date

/-! ## The text -/

/-- Two decimal digits. -/
def twoDigits (n : Nat) : List Char := [Nat.digitChar (n / 10 % 10), Nat.digitChar (n % 10)]

/-- The value of a digit. -/
def readDigit (c : Char) : Option Nat := if c.isDigit then some (c.toNat - 48) else none

/-- The value of two digits. -/
def readTwo (a b : Char) : Option Nat := do
  let x ← readDigit a
  let y ← readDigit b
  return 10 * x + y

theorem readDigit_digitChar {n : Nat} (h : n < 10) : readDigit (Nat.digitChar n) = some n := by
  interval_cases n <;> rfl

theorem readTwo_digits {n : Nat} (h : n < 100) :
    readTwo (Nat.digitChar (n / 10 % 10)) (Nat.digitChar (n % 10)) = some n := by
  rw [readTwo, readDigit_digitChar (by omega), readDigit_digitChar (by omega)]
  simp only [bind, Option.bind, pure, Option.some.injEq]
  omega

/-- `YYYY-MM-DDThh:mm:ssZ` of a second since the epoch. -/
def isoFormat (second : Nat) : List Char :=
  let d := Date.ofDays ((second / 86400 : Nat) : Int)
  twoDigits (d.year.toNat / 100) ++ twoDigits (d.year.toNat % 100) ++
    '-' :: twoDigits d.month.toNat ++ '-' :: twoDigits d.day.toNat ++
    'T' :: twoDigits (second / 3600 % 24) ++ ':' :: twoDigits (second / 60 % 60) ++
    ':' :: twoDigits (second % 60) ++ ['Z']

/-- The seconds of `+hh:mm` or `-hh:mm`. -/
def offset (sign : Char) (hours minutes : Nat) : Option Int :=
  if 24 ≤ hours ∨ 60 ≤ minutes then none
  else if sign = '+' then some (3600 * hours + 60 * minutes)
  else if sign = '-' then some (-(3600 * hours + 60 * minutes))
  else none

/-- The second since the epoch that a text with an offset names; `none` when it is not a date. -/
def fromIsoFormat : List Char → Option Int
  | [y₁, y₂, y₃, y₄, '-', m₁, m₂, '-', d₁, d₂, _, h₁, h₂, ':', i₁, i₂, ':', s₁, s₂, sign, o₁, o₂, ':',
      p₁, p₂] => do
    let century ← readTwo y₁ y₂
    let year ← readTwo y₃ y₄
    let month ← readTwo m₁ m₂
    let day ← readTwo d₁ d₂
    let hour ← readTwo h₁ h₂
    let minute ← readTwo i₁ i₂
    let second ← readTwo s₁ s₂
    let hours ← readTwo o₁ o₂
    let minutes ← readTwo p₁ p₂
    let off ← offset sign hours minutes
    let date : Date := ⟨100 * century + year, month, day⟩
    if Date.ofDays date.toDays = date ∧ 1 ≤ date.year ∧ hour < 24 ∧ minute < 60 ∧ second < 60 then
      some (date.toDays * 86400 + 3600 * hour + 60 * minute + second - off)
    else none
  | _ => none

/-- `text.replace("Z", "+00:00")`. -/
def zuluOffset (text : List Char) : List Char :=
  text.flatMap fun c => if c = 'Z' then ['+', '0', '0', ':', '0', '0'] else [c]

theorem digitChar_ne {n : Nat} {c : Char} (h : n < 10) (hc : c.isDigit = false) :
    Nat.digitChar n ≠ c := by
  rintro rfl
  interval_cases n <;> exact absurd hc (by decide)

theorem zuluOffset_isoFormat (second : Nat) : zuluOffset (isoFormat second) =
    (isoFormat second).dropLast ++ ['+', '0', '0', ':', '0', '0'] := by
  have hd : ∀ k : Nat, Nat.digitChar (k % 10) ≠ 'Z' := fun k =>
    digitChar_ne (Nat.mod_lt k (by decide)) (by decide)
  simp [zuluOffset, isoFormat, twoDigits, hd]

/-- The characters of a text are digits and the separators. -/
theorem mem_isoFormat {second : Nat} {c : Char} (h : c ∈ isoFormat second) :
    c.isDigit = true ∨ c ∈ ['-', 'T', ':', 'Z'] := by
  have hd : ∀ k : Nat, (Nat.digitChar (k % 10)).isDigit = true := fun k =>
    Nat.isDigit_digitChar.trans (decide_eq_true (Nat.mod_lt k (by decide)))
  simp only [isoFormat, twoDigits, List.cons_append, List.nil_append, List.mem_cons,
    List.not_mem_nil, or_false] at h
  rcases h with rfl | rfl | rfl | rfl | rfl | rfl | rfl | rfl | rfl | rfl | rfl | rfl | rfl | rfl |
    rfl | rfl | rfl | rfl | rfl | rfl <;> simp [hd]

theorem length_isoFormat (second : Nat) : (isoFormat second).length = 20 := by
  simp [isoFormat, twoDigits]

/-- **What was written is read back.** -/
theorem fromIsoFormat_isoFormat {second : Nat} (h : second < 253402300800) :
    fromIsoFormat (zuluOffset (isoFormat second)) = some (second : Int) := by
  have hb := @Date.ofDays_bounds ((second / 86400 : Nat) : Int) (by omega) (by omega)
  have hdays := Date.toDays_ofDays ((second / 86400 : Nat) : Int)
  rw [zuluOffset_isoFormat]
  simp only [isoFormat, twoDigits]
  have hback : Date.ofDays (Date.ofDays ((second / 86400 : Nat) : Int)).toDays =
      Date.ofDays ((second / 86400 : Nat) : Int) := by
    rw [hdays]
  generalize Date.ofDays ((second / 86400 : Nat) : Int) = d at hb hdays hback ⊢
  obtain ⟨y, m, k⟩ := d
  simp only at hb
  have hy : 100 * ((y.toNat / 100 : Nat) : Int) + ((y.toNat % 100 : Nat) : Int) = y := by omega
  have hm : (m.toNat : Int) = m := by omega
  have hk : (k.toNat : Int) = k := by omega
  simp only [List.cons_append, List.nil_append, List.dropLast, fromIsoFormat]
  rw [readTwo_digits (n := y.toNat / 100) (by omega), readTwo_digits (n := y.toNat % 100) (by omega),
    readTwo_digits (n := m.toNat) (by omega), readTwo_digits (n := k.toNat) (by omega),
    readTwo_digits (n := second / 3600 % 24) (by omega),
    readTwo_digits (n := second / 60 % 60) (by omega), readTwo_digits (n := second % 60) (by omega)]
  have hzero : readTwo '0' '0' = some 0 := rfl
  have hoff : offset '+' 0 0 = some 0 := rfl
  simp only [hzero, hoff, bind, Option.bind, hy, hm, hk, hback]
  rw [if_pos ⟨trivial, hb.1, by omega, by omega, by omega⟩, hdays]
  simp only [Option.some.injEq]
  omega

end ClaudeSwarm.Data
