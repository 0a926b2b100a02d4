import ClaudeSwarm.Data.Calendar
import Mathlib.Data.String.Basic

/-!
# The order of ISO 8601 texts

A later second has a later text, character by character: each part has a fixed number of digits, and the greater parts
come first. `stampFormat` writes a microsecond without separators, for the name of a file.

* `Date.ofDays_lt`: a later day has a later date.
* **`isoFormat_lt_iff`**: the order of the texts is that of the seconds, up to the year 9999.
* `stampFormat_lt`: a later microsecond has a later stamp, whatever follows the two.
* `secondStamp_inj`: a stamp to the second is that of one second.
-/

namespace ClaudeSwarm.Data

namespace Date

/-- A later day of a cycle is in no earlier year. -/
theorem yearOf_mono {d d' : Int} (h0 : 0 ≤ d) (h : d ≤ d') (h1 : d' < 146097) : yearOf d ≤ yearOf d' := by
  obtain ⟨c, hc⟩ : ∃ c, c = min (d / 36524) 3 := ⟨_, rfl⟩
  obtain ⟨c', hc'⟩ : ∃ c, c = min (d' / 36524) 3 := ⟨_, rfl⟩
  simp only [yearOf]
  rw [← hc, ← hc']
  have hcc : c ≤ c' := by omega
  have hr : 0 ≤ d - 36524 * c ∧ d - 36524 * c ≤ 36524 ∧ 0 ≤ d' - 36524 * c' := by omega
  have hlt : c < c' → d - 36524 * c < 36524 := by omega
  generalize hrd : d - 36524 * c = r at hr hlt ⊢
  generalize hrd' : d' - 36524 * c' = r' at hr ⊢
  obtain ⟨q, hq⟩ : ∃ q, q = r / 1461 := ⟨_, rfl⟩
  obtain ⟨q', hq'⟩ : ∃ q, q = r' / 1461 := ⟨_, rfl⟩
  rw [← hq, ← hq']
  by_cases he : c = c'
  · subst he
    have hrr : r ≤ r' := by omega
    have hqq : q ≤ q' := by omega
    by_cases heq : q = q'
    · subst heq
      omega
    · omega
  · have h2 := hlt (by omega)
    have hq24 : q ≤ 24 := by omega
    have hq0 : 0 ≤ q' := by omega
    omega

theorem monthOf_mono {r r' : Int} (h : r ≤ r') : monthOf r ≤ monthOf r' := by
  simp only [monthOf]
  omega

/-- By year, then month, then day. -/
def Before (d d' : Date) : Prop :=
  d.year < d'.year ∨ d.year = d'.year ∧ (d.month < d'.month ∨ d.month = d'.month ∧ d.day < d'.day)

theorem ofParts_before {e y m r e' y' m' r' : Int} (hy0 : 0 ≤ y') (hy : y < 400) (hm0 : 0 ≤ m') (hm : m ≤ 11)
    (h : e < e' ∨ e = e' ∧ (y < y' ∨ y = y' ∧ (m < m' ∨ m = m' ∧ r < r'))) (hmonth : 0 ≤ m) (hmonth' : m' ≤ 11) :
    (ofParts e y m r).Before (ofParts e' y' m' r') := by
  simp only [Before, ofParts]
  split <;> split <;> omega

/-- **A later day has a later date.** -/
theorem ofDays_lt {days days' : Int} (h : days < days') : (ofDays days).Before (ofDays days') := by
  have hd : 0 ≤ (days + 719468) % 146097 ∧ (days + 719468) % 146097 < 146097 := by omega
  have hd' : 0 ≤ (days' + 719468) % 146097 ∧ (days' + 719468) % 146097 < 146097 := by omega
  obtain ⟨hy0, hy, hle, hlt⟩ := yearOf_spec hd.1 hd.2
  obtain ⟨hy0', hy', hle', hlt'⟩ := yearOf_spec hd'.1 hd'.2
  obtain ⟨hm0, hm, -, -⟩ := monthOf_spec (Int.sub_nonneg.mpr hle) (by omega)
  obtain ⟨hm0', hm', -, -⟩ := monthOf_spec (Int.sub_nonneg.mpr hle') (by omega)
  refine ofParts_before hy0' hy hm0' hm ?_ hm0 hm'
  by_cases hcycle : (days + 719468) / 146097 < (days' + 719468) / 146097
  · exact .inl hcycle
  have hday : (days + 719468) % 146097 < (days' + 719468) % 146097 := by omega
  refine .inr ⟨by omega, ?_⟩
  rcases (yearOf_mono hd.1 hday.le hd'.2).lt_or_eq with hyear | hyear
  · exact .inl hyear
  refine .inr ⟨hyear, ?_⟩
  have hrest : (days + 719468) % 146097 - yearDays (yearOf ((days + 719468) % 146097)) <
      (days' + 719468) % 146097 - yearDays (yearOf ((days' + 719468) % 146097)) := by
    rw [hyear]
    omega
  rcases (monthOf_mono hrest.le).lt_or_eq with hmonth | hmonth
  · exact .inl hmonth
  · exact .inr ⟨hmonth, by rw [hmonth]; omega⟩

end Date

theorem digitChar_lt {a b : Nat} (h : a < b) (hb : b < 10) : Nat.digitChar a < Nat.digitChar b := by
  interval_cases b <;> interval_cases a <;> decide

/-- Two digits decide, or what follows them. -/
theorem field_lt {a b : Nat} {x y : List Char} (hb : b < 100) (h : a < b ∨ a = b ∧ x < y) :
    twoDigits a ++ x < twoDigits b ++ y := by
  rcases h with h | ⟨rfl, h⟩
  · have ha : a / 10 % 10 = a / 10 := Nat.mod_eq_of_lt (by omega)
    have hb' : b / 10 % 10 = b / 10 := Nat.mod_eq_of_lt (by omega)
    simp only [twoDigits, ha, hb', List.cons_append, List.nil_append, List.cons_lt_cons_iff]
    by_cases htens : a / 10 < b / 10
    · exact .inl (digitChar_lt htens (by omega))
    · have heq : a / 10 = b / 10 := by omega
      exact .inr ⟨by rw [heq], .inl (digitChar_lt (by omega) (by omega))⟩
  · simp only [twoDigits, List.cons_append, List.nil_append, List.cons_lt_cons_iff, lt_irrefl, false_or, true_and]
    exact h

/-- The separators decide nothing. -/
theorem cons_lt {c : Char} {x y : List Char} (h : x < y) : c :: x < c :: y :=
  List.cons_lt_cons_iff.mpr (.inr ⟨rfl, h⟩)

/-- A date with `sep` between its fields, and what follows it. -/
def dateFields (sep : List Char) (d : Date) (rest : List Char) : List Char :=
  twoDigits (d.year.toNat / 100) ++ (twoDigits (d.year.toNat % 100) ++
    (sep ++ (twoDigits d.month.toNat ++ (sep ++ (twoDigits d.day.toNat ++ 'T' :: rest)))))

section dateFields

variable {d d' : Date} (sep : List Char) {x y : List Char}

theorem dateFields_lt (h : d.Before d') (hd : 0 ≤ d.year ∧ 0 ≤ d.month ∧ 0 ≤ d.day)
    (hd' : d'.year < 10000 ∧ d'.month < 100 ∧ d'.day < 100) : dateFields sep d x < dateFields sep d' y := by
  unfold dateFields
  simp only [Date.Before] at h
  refine field_lt (by omega) ?_
  by_cases hcentury : d.year.toNat / 100 < d'.year.toNat / 100
  · exact .inl hcentury
  refine .inr ⟨by omega, field_lt (by omega) ?_⟩
  by_cases hyear : d.year.toNat % 100 < d'.year.toNat % 100
  · exact .inl hyear
  refine .inr ⟨by omega, List.append_left_lt (field_lt (by omega) ?_)⟩
  by_cases hmonth : d.month.toNat < d'.month.toNat
  · exact .inl hmonth
  · exact .inr ⟨by omega, List.append_left_lt (field_lt (by omega) (.inl (by omega)))⟩

theorem dateFields_same (hd : d.year < 10000 ∧ d.month < 100 ∧ d.day < 100) (h : x < y) :
    dateFields sep d x < dateFields sep d y := by
  unfold dateFields
  refine field_lt (by omega) (.inr ⟨rfl, field_lt (by omega) (.inr ⟨rfl, ?_⟩)⟩)
  refine List.append_left_lt (field_lt (by omega) ?_)
  exact .inr ⟨rfl, List.append_left_lt (field_lt (by omega) (.inr ⟨rfl, cons_lt h⟩))⟩

end dateFields

/-- The date of a text, and what follows it. -/
def dateText (d : Date) (rest : List Char) : List Char :=
  twoDigits (d.year.toNat / 100) ++ (twoDigits (d.year.toNat % 100) ++
    '-' :: (twoDigits d.month.toNat ++ '-' :: (twoDigits d.day.toNat ++ 'T' :: rest)))

/-- The time of day of a text. -/
def timeText (second : Nat) : List Char :=
  twoDigits (second / 3600 % 24) ++ ':' :: (twoDigits (second / 60 % 60) ++ ':' :: (twoDigits (second % 60) ++ ['Z']))

theorem isoFormat_eq (second : Nat) :
    isoFormat second = dateText (Date.ofDays ((second / 86400 : Nat) : Int)) (timeText second) := by
  simp only [isoFormat, dateText, timeText, List.append_assoc, List.cons_append]

theorem timeText_lt {s t : Nat} (hday : s / 86400 = t / 86400) (h : s < t) : timeText s < timeText t := by
  unfold timeText
  refine field_lt (by omega) ?_
  by_cases hhour : s / 3600 % 24 < t / 3600 % 24
  · exact .inl hhour
  refine .inr ⟨by omega, cons_lt (field_lt (by omega) ?_)⟩
  by_cases hminute : s / 60 % 60 < t / 60 % 60
  · exact .inl hminute
  · exact .inr ⟨by omega, cons_lt (field_lt (by omega) (.inl (by omega)))⟩

/-- **A later second has a later text.** -/
theorem isoFormat_lt {s t : Nat} (h : s < t) (ht : t < 253402300800) : isoFormat s < isoFormat t := by
  have hs := @Date.ofDays_bounds ((s / 86400 : Nat) : Int) (by omega) (by omega)
  have ht := @Date.ofDays_bounds ((t / 86400 : Nat) : Int) (by omega) (by omega)
  rw [isoFormat_eq, isoFormat_eq]
  by_cases hday : s / 86400 = t / 86400
  · rw [hday]
    exact dateFields_same ['-'] ⟨ht.2.1, ht.2.2.2.1, ht.2.2.2.2.2⟩ (timeText_lt hday h)
  · exact dateFields_lt ['-'] (Date.ofDays_lt (by omega)) ⟨by omega, hs.2.2.1, hs.2.2.2.2.1⟩
      ⟨ht.2.1, ht.2.2.2.1, ht.2.2.2.2.2⟩

/-- **The order of the texts** is that of the seconds. -/
theorem isoFormat_lt_iff {s t : Nat} (hs : s < 253402300800) (ht : t < 253402300800) :
    String.ofList (isoFormat s) < String.ofList (isoFormat t) ↔ s < t := by
  rw [String.lt_iff_toList_lt, String.toList_ofList, String.toList_ofList]
  refine ⟨fun h => ?_, fun h => isoFormat_lt h ht⟩
  by_contra hle
  rcases (not_lt.mp hle).lt_or_eq with hlt | rfl
  · exact lt_asymm h (isoFormat_lt hlt hs)
  · exact lt_irrefl _ h

/-! ## Stamps -/

/-- The date of a stamp, and what follows it. -/
def dateStamp (d : Date) (rest : List Char) : List Char :=
  twoDigits (d.year.toNat / 100) ++ (twoDigits (d.year.toNat % 100) ++
    (twoDigits d.month.toNat ++ (twoDigits d.day.toNat ++ 'T' :: rest)))

theorem dateStamp_eq (d : Date) (rest : List Char) : dateStamp d rest = dateFields [] d rest := rfl

/-- The time of day of a stamp, and what follows it. -/
def timeStamp (micro : Nat) (rest : List Char) : List Char :=
  twoDigits (micro / 3600000000 % 24) ++ (twoDigits (micro / 60000000 % 60) ++
    (twoDigits (micro / 1000000 % 60) ++ (twoDigits (micro / 10000 % 100) ++
      (twoDigits (micro / 100 % 100) ++ (twoDigits (micro % 100) ++ rest)))))

/-- `YYYYMMDDThhmmssffffff` of a microsecond since the epoch, and what follows it. -/
def stampFormat (micro : Nat) (rest : List Char) : List Char :=
  dateStamp (Date.ofDays ((micro / 86400000000 : Nat) : Int)) (timeStamp micro rest)

theorem timeStamp_lt {s t : Nat} (hday : s / 86400000000 = t / 86400000000) (h : s < t) (x y : List Char) :
    timeStamp s x < timeStamp t y := by
  unfold timeStamp
  refine field_lt (by omega) ?_
  by_cases hhour : s / 3600000000 % 24 < t / 3600000000 % 24
  · exact .inl hhour
  have hhours : s / 3600000000 = t / 3600000000 := by omega
  refine .inr ⟨by omega, field_lt (by omega) ?_⟩
  by_cases hminute : s / 60000000 % 60 < t / 60000000 % 60
  · exact .inl hminute
  have hminutes : s / 60000000 = t / 60000000 := by omega
  refine .inr ⟨by omega, field_lt (by omega) ?_⟩
  by_cases hsecond : s / 1000000 % 60 < t / 1000000 % 60
  · exact .inl hsecond
  have hseconds : s / 1000000 = t / 1000000 := by omega
  refine .inr ⟨by omega, field_lt (by omega) ?_⟩
  by_cases hhundredth : s / 10000 % 100 < t / 10000 % 100
  · exact .inl hhundredth
  have hhundredths : s / 10000 = t / 10000 := by omega
  refine .inr ⟨by omega, field_lt (by omega) ?_⟩
  by_cases htenth : s / 100 % 100 < t / 100 % 100
  · exact .inl htenth
  · exact .inr ⟨by omega, field_lt (by omega) (.inl (by omega))⟩

/-- **A later microsecond has a later stamp.** -/
theorem stampFormat_lt {s t : Nat} (h : s < t) (ht : t < 253402300800000000) (x y : List Char) :
    stampFormat s x < stampFormat t y := by
  have hs := @Date.ofDays_bounds ((s / 86400000000 : Nat) : Int) (by omega) (by omega)
  have ht := @Date.ofDays_bounds ((t / 86400000000 : Nat) : Int) (by omega) (by omega)
  rw [stampFormat, stampFormat, dateStamp_eq, dateStamp_eq]
  by_cases hday : s / 86400000000 = t / 86400000000
  · rw [hday]
    exact dateFields_same [] ⟨ht.2.1, ht.2.2.2.1, ht.2.2.2.2.2⟩ (timeStamp_lt hday h x y)
  · exact dateFields_lt [] (Date.ofDays_lt (by omega)) ⟨by omega, hs.2.2.1, hs.2.2.2.2.1⟩
      ⟨ht.2.1, ht.2.2.2.1, ht.2.2.2.2.2⟩

theorem stampFormat_append (micro : Nat) (rest : List Char) :
    stampFormat micro rest = stampFormat micro [] ++ rest := by
  simp [stampFormat, dateStamp, timeStamp]

/-- **The order of stamps** is that of their microseconds, and then of what follows. -/
theorem stampFormat_lt_iff {s t : Nat} (hs : s < 253402300800000000) (ht : t < 253402300800000000) {x y : List Char} :
    stampFormat s x < stampFormat t y ↔ s < t ∨ s = t ∧ x < y := by
  constructor
  · intro h
    rcases lt_trichotomy s t with hlt | rfl | hlt
    · exact .inl hlt
    · refine .inr ⟨rfl, lt_of_not_ge fun hle => ?_⟩
      rw [stampFormat_append s x, stampFormat_append s y] at h
      rcases hle.lt_or_eq with hyx | rfl
      · exact lt_asymm h (List.append_left_lt hyx)
      · exact lt_irrefl _ h
    · exact absurd (stampFormat_lt hlt hs y x) (lt_asymm h)
  · rintro (h | ⟨rfl, h⟩)
    · exact stampFormat_lt h ht x y
    · rw [stampFormat_append s x, stampFormat_append s y]
      exact List.append_left_lt h

/-- The time of day of a stamp to the second, and what follows it. -/
def secondTime (second : Nat) (rest : List Char) : List Char :=
  twoDigits (second / 3600 % 24) ++ (twoDigits (second / 60 % 60) ++ (twoDigits (second % 60) ++ rest))

/-- `YYYYMMDDThhmmss` of a second since the epoch, and what follows it. -/
def secondStamp (second : Nat) (rest : List Char) : List Char :=
  dateStamp (Date.ofDays ((second / 86400 : Nat) : Int)) (secondTime second rest)

theorem secondStamp_append (second : Nat) (rest : List Char) :
    secondStamp second rest = secondStamp second [] ++ rest := by
  simp [secondStamp, dateStamp, secondTime]

theorem length_secondStamp (second : Nat) : (secondStamp second []).length = 15 := by
  simp [secondStamp, dateStamp, secondTime, twoDigits]

/-- The stamp of a whole second. -/
theorem stampFormat_second (second : Nat) (rest : List Char) :
    stampFormat (second * 1000000) rest = secondStamp second ("000000".toList ++ rest) := by
  have hday : second * 1000000 / 86400000000 = second / 86400 := by omega
  have hhour : second * 1000000 / 3600000000 = second / 3600 := by omega
  have hminute : second * 1000000 / 60000000 = second / 60 := by omega
  have hsecond : second * 1000000 / 1000000 = second := by omega
  have hhundredth : second * 1000000 / 10000 % 100 = 0 := by omega
  have htenth : second * 1000000 / 100 % 100 = 0 := by omega
  have hmicro : second * 1000000 % 100 = 0 := by omega
  rw [stampFormat, secondStamp, hday, timeStamp, secondTime, hhour, hminute, hsecond, hhundredth, htenth,
    hmicro]
  rfl

/-- **A stamp is that of one second**, whatever follows it. -/
theorem secondStamp_inj {s t : Nat} (hs : s < 253402300800) (ht : t < 253402300800) {x y : List Char}
    (h : secondStamp s x = secondStamp t y) : s = t ∧ x = y := by
  rw [secondStamp_append s, secondStamp_append t] at h
  obtain ⟨hstamp, hrest⟩ := List.append_inj h (by rw [length_secondStamp, length_secondStamp])
  have hmicro : stampFormat (s * 1000000) [] = stampFormat (t * 1000000) [] := by
    rw [stampFormat_second, stampFormat_second, secondStamp_append s, secondStamp_append t, hstamp]
  refine ⟨?_, hrest⟩
  rcases lt_trichotomy s t with hlt | heq | hlt
  · have := stampFormat_lt (s := s * 1000000) (t := t * 1000000) (by omega) (by omega) [] []
    rw [hmicro] at this
    exact absurd this (lt_irrefl _)
  · exact heq
  · have := stampFormat_lt (s := t * 1000000) (t := s * 1000000) (by omega) (by omega) [] []
    rw [hmicro] at this
    exact absurd this (lt_irrefl _)

end ClaudeSwarm.Data
