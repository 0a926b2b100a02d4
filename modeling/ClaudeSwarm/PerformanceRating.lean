import ClaudeSwarm.Data.Dict
import Mathlib.Data.List.Sort
import Mathlib.Data.Rat.Floor
import Mathlib.Tactic.Positivity

/-!
# The rating of a host

Model of `compute_rating` (`src/performance_rating.py`): the completed metrics of a host are summed up with weights that
decay with their age, four scores between 0 and 1000 are made of the sums, and the composite is their weighted mean.
Numbers are exact. The decay factor of a metric is a parameter (`decay`, of its `started_at` and the clock).

* `totals_eq`: the loop's accumulators are sums over the rows.
* `Rates.composite_mono`: the composite follows the four rates.
* **`composite_bounded_monotone`**: the composite lies between 0 and 1000; a failure turned into a success never lowers
  it and a longer duration never raises it.
* **`computeRating_score`**: the recorded score is the composite rounded, and within the same bounds.
* `round_mono`: rounding, half to even, keeps the order, so what is recorded follows the composite.
-/

namespace ClaudeSwarm.PerformanceRating

open Data

/-- `NEUTRAL_SCORE`. -/
def neutralScore : ℚ := 500

/-- `WEIGHT_COMPLETION`. -/
def weightCompletion : ℚ := 35 / 100

/-- `WEIGHT_DURATION`. -/
def weightDuration : ℚ := 25 / 100

/-- `WEIGHT_ERROR_RATE`. -/
def weightErrorRate : ℚ := 20 / 100

/-- `WEIGHT_THROUGHPUT`. -/
def weightThroughput : ℚ := 20 / 100

/-- A row of `performance_metrics`: the columns `compute_rating` reads. -/
structure Metric where
  hostname : String
  started_at : String
  completed_at : Option String
  duration_seconds : Option ℚ
  success : Bool
  estimated_minutes : Option ℚ
  deriving DecidableEq

/-- `HostRating`. -/
structure HostRating where
  hostname : String
  composite_score : ℚ := neutralScore
  completion_rate : ℚ := 1
  avg_duration_ratio : ℚ := 1
  error_rate : ℚ := 0
  throughput_per_hour : ℚ := 0
  last_computed : String := ""
  task_count : Nat := 0
  deriving DecidableEq

/-! ## The loop over the rows -/

/-- `row["duration_seconds"] or 0`. -/
def Metric.dur (row : Metric) : ℚ := row.duration_seconds.getD 0

/-- `row["estimated_minutes"] or 0`. -/
def Metric.est (row : Metric) : ℚ := row.estimated_minutes.getD 0

/-- The accumulators of the loop. -/
structure Totals where
  weighted_success : ℚ
  weighted_total : ℚ
  weighted_duration_ratio : ℚ
  duration_weight_total : ℚ
  error_count : ℚ
  total_weight : ℚ
  total_duration_hours : ℚ

/-- All `0.0`. -/
def Totals.zero : Totals := ⟨0, 0, 0, 0, 0, 0, 0⟩

/-- One pass of the loop, of a row whose decay factor is `w`. -/
def Totals.add (t : Totals) (w : ℚ) (row : Metric) : Totals :=
  let t := { t with weighted_total := t.weighted_total + w }
  let t := if row.success then { t with weighted_success := t.weighted_success + w }
    else { t with error_count := t.error_count + w }
  let t := if 0 < row.est ∧ 0 < row.dur then
      { t with
        weighted_duration_ratio := t.weighted_duration_ratio + row.dur / 60 / row.est * w
        duration_weight_total := t.duration_weight_total + w }
    else t
  { t with
    total_weight := t.total_weight + w
    total_duration_hours := t.total_duration_hours + row.dur / 3600 }

/-- The accumulators after the loop. -/
def totals (rows : List (ℚ × Metric)) : Totals := rows.foldl (fun t x => t.add x.1 x.2) .zero

/-- What the four scores are made of. -/
structure Rates where
  completion_rate : ℚ
  avg_duration_ratio : ℚ
  error_rate : ℚ
  throughput : ℚ

/-- The rates of the accumulators and the number of successes. -/
def Totals.rates (t : Totals) (completed_count : Nat) : Rates where
  completion_rate := if 0 < t.weighted_total then t.weighted_success / t.weighted_total else 1
  avg_duration_ratio :=
    if 0 < t.duration_weight_total then t.weighted_duration_ratio / t.duration_weight_total else 1
  error_rate := if 0 < t.weighted_total then t.error_count / t.weighted_total else 0
  throughput := if 0 < t.total_duration_hours then completed_count / t.total_duration_hours else 0

/-- `sum(1 for r in rows if r["success"])`. -/
def completedCount (rows : List (ℚ × Metric)) : Nat := rows.countP fun x => x.2.success

/-- The rates of a host's rows. -/
def rates (rows : List (ℚ × Metric)) : Rates := (totals rows).rates (completedCount rows)

/-- `completion_score`. -/
def Rates.completionScore (r : Rates) : ℚ := r.completion_rate * 1000

/-- `duration_score`. -/
def Rates.durationScore (r : Rates) : ℚ := max 0 (min 1000 (1000 * (2 - r.avg_duration_ratio)))

/-- `error_score`. -/
def Rates.errorScore (r : Rates) : ℚ := (1 - r.error_rate) * 1000

/-- `throughput_score`. -/
def Rates.throughputScore (r : Rates) : ℚ := min 1000 (r.throughput * 500)

/-- `composite`. -/
def Rates.composite (r : Rates) : ℚ :=
  weightCompletion * r.completionScore + weightDuration * r.durationScore +
    weightErrorRate * r.errorScore + weightThroughput * r.throughputScore

/-- `composite` of a host's rows. -/
def composite (rows : List (ℚ × Metric)) : ℚ := (rates rows).composite

/-! ## The recorded rating -/

/-- `round` to an integer, half to even. -/
def roundEven (x : ℚ) : ℤ :=
  if Int.fract x < 1 / 2 then ⌊x⌋
  else if 1 / 2 < Int.fract x then ⌊x⌋ + 1
  else if ⌊x⌋ % 2 = 0 then ⌊x⌋ else ⌊x⌋ + 1

/-- `round(x, digits)`. -/
def round (x : ℚ) (digits : Nat) : ℚ := roundEven (x * 10 ^ digits) / 10 ^ digits

/-- The tables of `agents.db`. -/
structure Db where
  performance_metrics : List Metric
  host_ratings : Dict String HostRating

/-- `SELECT * … WHERE hostname = ? AND completed_at IS NOT NULL ORDER BY started_at DESC`, with the decay factors. -/
def weighted (decay : String → ℚ) (db : Db) (hostname : String) : List (ℚ × Metric) :=
  ((db.performance_metrics.filter fun r : Metric => r.hostname == hostname && r.completed_at.isSome).insertionSort
    fun r r' => r'.started_at ≤ r.started_at).map fun row => (decay row.started_at, row)

/-- `_save_rating`. -/
def saveRating (db : Db) (rating : HostRating) : Db :=
  { db with host_ratings := db.host_ratings.set rating.hostname rating }

/-- The `HostRating` of a non-empty list of rows. -/
def ratingOf (hostname now_iso : String) (rows : List (ℚ × Metric)) : HostRating where
  hostname := hostname
  composite_score := round (composite rows) 1
  completion_rate := round (rates rows).completion_rate 3
  avg_duration_ratio := round (rates rows).avg_duration_ratio 2
  error_rate := round (rates rows).error_rate 3
  throughput_per_hour := round (rates rows).throughput 2
  last_computed := now_iso
  task_count := rows.length

/-- `compute_rating`; `decay` is `_decay_weight` of the age of a `started_at` at this moment. -/
def computeRating (decay : String → ℚ) (now_iso : String) (db : Db) (hostname : String) : HostRating × Db :=
  let rows := weighted decay db hostname
  let rating := if rows.isEmpty then { hostname := hostname, last_computed := now_iso }
    else ratingOf hostname now_iso rows
  (rating, saveRating db rating)

/-! ## Sums over the rows -/

/-- What a row adds to `weighted_success`. -/
def successWeight (x : ℚ × Metric) : ℚ := if x.2.success then x.1 else 0

/-- What a row adds to `error_count`. -/
def errorWeight (x : ℚ × Metric) : ℚ := if x.2.success then 0 else x.1

/-- What a row adds to `duration_weight_total`. -/
def durationWeight (x : ℚ × Metric) : ℚ := if 0 < x.2.est ∧ 0 < x.2.dur then x.1 else 0

/-- What a row adds to `weighted_duration_ratio`. -/
def durationRatio (x : ℚ × Metric) : ℚ :=
  if 0 < x.2.est ∧ 0 < x.2.dur then x.2.dur / 60 / x.2.est * x.1 else 0

/-- What a row adds to `total_duration_hours`. -/
def hours (x : ℚ × Metric) : ℚ := x.2.dur / 3600

theorem totals_foldl (rows : List (ℚ × Metric)) : ∀ t : Totals, rows.foldl (fun t x => t.add x.1 x.2) t =
    { weighted_success := t.weighted_success + (rows.map successWeight).sum
      weighted_total := t.weighted_total + (rows.map Prod.fst).sum
      weighted_duration_ratio := t.weighted_duration_ratio + (rows.map durationRatio).sum
      duration_weight_total := t.duration_weight_total + (rows.map durationWeight).sum
      error_count := t.error_count + (rows.map errorWeight).sum
      total_weight := t.total_weight + (rows.map Prod.fst).sum
      total_duration_hours := t.total_duration_hours + (rows.map hours).sum } := by
  induction rows with
  | nil => intro t; simp
  | cons x rows ih =>
    intro t
    have hadd : t.add x.1 x.2 =
        { weighted_success := t.weighted_success + successWeight x
          weighted_total := t.weighted_total + x.1
          weighted_duration_ratio := t.weighted_duration_ratio + durationRatio x
          duration_weight_total := t.duration_weight_total + durationWeight x
          error_count := t.error_count + errorWeight x
          total_weight := t.total_weight + x.1
          total_duration_hours := t.total_duration_hours + hours x } := by
      unfold Totals.add successWeight durationRatio durationWeight errorWeight hours
      by_cases hs : x.2.success = true <;> by_cases hd : 0 < x.2.est ∧ 0 < x.2.dur <;> simp [hs, hd]
    rw [List.foldl_cons, ih, hadd]
    simp only [List.map_cons, List.sum_cons, add_assoc]

/-- **The accumulators after the loop are sums over the rows.** -/
theorem totals_eq (rows : List (ℚ × Metric)) : totals rows =
    { weighted_success := (rows.map successWeight).sum
      weighted_total := (rows.map Prod.fst).sum
      weighted_duration_ratio := (rows.map durationRatio).sum
      duration_weight_total := (rows.map durationWeight).sum
      error_count := (rows.map errorWeight).sum
      total_weight := (rows.map Prod.fst).sum
      total_duration_hours := (rows.map hours).sum } := by
  simp [totals, totals_foldl, Totals.zero]

/-- A row with a positive decay factor, and a duration and an estimate that are not negative. -/
structure Sound (x : ℚ × Metric) : Prop where
  weight : 0 < x.1
  dur : 0 ≤ x.2.dur
  est : 0 ≤ x.2.est

theorem Sound.successWeight_nonneg {x : ℚ × Metric} (h : Sound x) : 0 ≤ successWeight x := by
  unfold successWeight
  split
  · exact h.weight.le
  · exact le_rfl

theorem Sound.errorWeight_nonneg {x : ℚ × Metric} (h : Sound x) : 0 ≤ errorWeight x := by
  unfold errorWeight
  split
  · exact le_rfl
  · exact h.weight.le

theorem Sound.durationWeight_nonneg {x : ℚ × Metric} (h : Sound x) : 0 ≤ durationWeight x := by
  unfold durationWeight
  split
  · exact h.weight.le
  · exact le_rfl

theorem Sound.hours_nonneg {x : ℚ × Metric} (h : Sound x) : 0 ≤ hours x := div_nonneg h.dur (by norm_num)

theorem success_add_error (x : ℚ × Metric) : successWeight x + errorWeight x = x.1 := by
  unfold successWeight errorWeight
  split <;> simp

variable {rows : List (ℚ × Metric)}

/-- A sum of terms that are not negative. -/
theorem sum_nonneg {f : ℚ × Metric → ℚ} (h : ∀ x ∈ rows, 0 ≤ f x) : 0 ≤ (rows.map f).sum :=
  List.sum_nonneg fun q hq => by
    obtain ⟨x, hx, rfl⟩ := List.mem_map.mp hq
    exact h x hx

/-- The weight of the successes and that of the failures make up the whole weight. -/
theorem success_add_error_sum (rows : List (ℚ × Metric)) :
    (rows.map successWeight).sum + (rows.map errorWeight).sum = (rows.map Prod.fst).sum := by
  induction rows with
  | nil => simp
  | cons x rows ih =>
    simp only [List.map_cons, List.sum_cons, ← ih, ← success_add_error x]
    ring

theorem weighted_total_pos (hne : rows ≠ []) (h : ∀ x ∈ rows, Sound x) : 0 < (rows.map Prod.fst).sum := by
  obtain ⟨x, rest, rfl⟩ := List.exists_cons_of_ne_nil hne
  have hx := (h x List.mem_cons_self).weight
  have hrest := sum_nonneg (f := Prod.fst) fun y hy => (h y (List.mem_cons_of_mem _ hy)).weight.le
  rw [List.map_cons, List.sum_cons]
  linarith

/-! ## Bounds -/

/-- Rates within their ranges. -/
structure Rates.Ranged (r : Rates) : Prop where
  completion_nonneg : 0 ≤ r.completion_rate
  completion_le : r.completion_rate ≤ 1
  error_nonneg : 0 ≤ r.error_rate
  error_le : r.error_rate ≤ 1
  throughput_nonneg : 0 ≤ r.throughput

/-- The four weights sum up to one, so a mean of scores within bounds is within them. -/
theorem Rates.Ranged.composite {r : Rates} (h : r.Ranged) : 0 ≤ r.composite ∧ r.composite ≤ 1000 := by
  have hd : 0 ≤ r.durationScore ∧ r.durationScore ≤ 1000 :=
    ⟨le_max_left _ _, max_le (by norm_num) (min_le_left _ _)⟩
  have ht : 0 ≤ r.throughputScore ∧ r.throughputScore ≤ 1000 :=
    ⟨le_min (by norm_num) (mul_nonneg h.throughput_nonneg (by norm_num)), min_le_left _ _⟩
  have h₁ := h.completion_nonneg
  have h₂ := h.completion_le
  have h₃ := h.error_nonneg
  have h₄ := h.error_le
  simp only [Rates.composite, Rates.completionScore, Rates.errorScore, weightCompletion, weightDuration,
    weightErrorRate, weightThroughput]
  constructor <;> linarith [hd.1, hd.2, ht.1, ht.2]

theorem rates_ranged (hne : rows ≠ []) (h : ∀ x ∈ rows, Sound x) : (rates rows).Ranged := by
  have hW := weighted_total_pos hne h
  have hS := sum_nonneg fun x hx => (h x hx).successWeight_nonneg
  have hE := sum_nonneg fun x hx => (h x hx).errorWeight_nonneg
  have hsum := success_add_error_sum rows
  have hH := sum_nonneg fun x hx => (h x hx).hours_nonneg
  simp only [rates, totals_eq, Totals.rates, if_pos hW]
  refine ⟨div_nonneg hS hW.le, (div_le_one hW).mpr (by linarith), div_nonneg hE hW.le,
    (div_le_one hW).mpr (by linarith), ?_⟩
  show 0 ≤ ite _ _ _
  split
  · exact div_nonneg (Nat.cast_nonneg _) hH
  · exact le_rfl

/-! ## Monotony -/

/-- Rates none of which is worse. -/
structure Rates.Le (r r' : Rates) : Prop where
  completion : r.completion_rate ≤ r'.completion_rate
  duration : r'.avg_duration_ratio ≤ r.avg_duration_ratio
  error : r'.error_rate ≤ r.error_rate
  throughput : r.throughput ≤ r'.throughput

/-- **The composite follows the four rates.** -/
theorem Rates.composite_mono {r r' : Rates} (h : r.Le r') : r.composite ≤ r'.composite := by
  have hd : r.durationScore ≤ r'.durationScore :=
    max_le_max le_rfl (min_le_min le_rfl (by linarith [h.duration]))
  have ht : r.throughputScore ≤ r'.throughputScore := min_le_min le_rfl (by linarith [h.throughput])
  have hc := h.completion
  have he := h.error
  simp only [Rates.composite, Rates.completionScore, Rates.errorScore, weightCompletion, weightDuration,
    weightErrorRate, weightThroughput]
  linarith

variable {pre post : List (ℚ × Metric)} {x x' : ℚ × Metric}

/-- A sum after one row is replaced. -/
theorem sum_replace_le {f : ℚ × Metric → ℚ} (h : f x ≤ f x') :
    ((pre ++ x :: post).map f).sum ≤ ((pre ++ x' :: post).map f).sum := by
  simp only [List.map_append, List.map_cons, List.sum_append, List.sum_cons]
  linarith

theorem sum_replace_eq {f : ℚ × Metric → ℚ} (h : f x = f x') :
    ((pre ++ x :: post).map f).sum = ((pre ++ x' :: post).map f).sum := by
  simp only [List.map_append, List.map_cons, h]

/-- A quotient that is guarded against a divisor that is not positive. -/
theorem guarded_le {a b c d : ℚ} (h : a ≤ b) (hc : 0 ≤ c) :
    (if 0 < c then a / c else d) ≤ if 0 < c then b / c else d := by
  split
  · exact div_le_div_of_nonneg_right h hc
  · exact le_rfl

/-- The metric as a success. -/
def Metric.succeeded (m : Metric) : Metric := { m with success := true }

/-- The metric with another duration. -/
def Metric.lasting (m : Metric) (d : ℚ) : Metric := { m with duration_seconds := some d }

variable {w : ℚ} {m : Metric}

/-- A failure turned into a success leaves the durations as they are, moves its weight from the failures to the
successes and is one more that has completed. -/
theorem rates_le_succeeded (h : ∀ x ∈ pre ++ (w, m) :: post, Sound x) :
    (rates (pre ++ (w, m) :: post)).Le (rates (pre ++ (w, m.succeeded) :: post)) := by
  have hx := h (w, m) (by simp)
  have hsw : successWeight (w, m) ≤ successWeight (w, m.succeeded) := by
    unfold successWeight
    split
    · exact le_rfl
    · exact hx.weight.le
  have hew : errorWeight (w, m.succeeded) ≤ errorWeight (w, m) := by
    unfold errorWeight
    split
    · exact hx.errorWeight_nonneg
    · exact absurd rfl ‹_›
  have hW : ((pre ++ (w, m) :: post).map Prod.fst).sum = ((pre ++ (w, m.succeeded) :: post).map Prod.fst).sum :=
    sum_replace_eq rfl
  have hD : ((pre ++ (w, m) :: post).map durationWeight).sum =
    ((pre ++ (w, m.succeeded) :: post).map durationWeight).sum := sum_replace_eq rfl
  have hR : ((pre ++ (w, m) :: post).map durationRatio).sum =
    ((pre ++ (w, m.succeeded) :: post).map durationRatio).sum := sum_replace_eq rfl
  have hH : ((pre ++ (w, m) :: post).map hours).sum = ((pre ++ (w, m.succeeded) :: post).map hours).sum :=
    sum_replace_eq rfl
  have hc : completedCount (pre ++ (w, m) :: post) ≤ completedCount (pre ++ (w, m.succeeded) :: post) := by
    simp only [completedCount, List.countP_append, List.countP_cons, Metric.succeeded]
    split <;> simp
  have hpos := (weighted_total_pos (by simp) h).le
  simp only [rates, totals_eq, Totals.rates, ← hW, ← hD, ← hR, ← hH]
  exact ⟨guarded_le (sum_replace_le hsw) hpos, le_rfl, guarded_le (sum_replace_le hew) hpos,
    guarded_le (by exact_mod_cast hc) (sum_nonneg fun y hy => (h y hy).hours_nonneg)⟩

/-- A longer duration raises the ratio of its row, if that has an estimate, and the hours. -/
theorem rates_le_lasting {d d' : ℚ} (h : ∀ x ∈ pre ++ (w, m.lasting d) :: post, Sound x) (hd : 0 < d) (hle : d ≤ d') :
    (rates (pre ++ (w, m.lasting d') :: post)).Le (rates (pre ++ (w, m.lasting d) :: post)) := by
  have hx := h (w, m.lasting d) (by simp)
  have hdw : durationWeight (w, m.lasting d) = durationWeight (w, m.lasting d') := by
    simp only [durationWeight, Metric.lasting, Metric.est, Metric.dur, Option.getD_some, hd, hd.trans_le hle]
  have hdr : durationRatio (w, m.lasting d) ≤ durationRatio (w, m.lasting d') := by
    simp only [durationRatio, Metric.lasting, Metric.est, Metric.dur, Option.getD_some, hd, hd.trans_le hle, and_true]
    split
    · have hw : 0 ≤ w := hx.weight.le
      gcongr
    · exact le_rfl
  have hW : ((pre ++ (w, m.lasting d) :: post).map Prod.fst).sum =
    ((pre ++ (w, m.lasting d') :: post).map Prod.fst).sum := sum_replace_eq rfl
  have hS : ((pre ++ (w, m.lasting d) :: post).map successWeight).sum =
    ((pre ++ (w, m.lasting d') :: post).map successWeight).sum := sum_replace_eq rfl
  have hE : ((pre ++ (w, m.lasting d) :: post).map errorWeight).sum =
    ((pre ++ (w, m.lasting d') :: post).map errorWeight).sum := sum_replace_eq rfl
  have hc : completedCount (pre ++ (w, m.lasting d') :: post) = completedCount (pre ++ (w, m.lasting d) :: post) := by
    simp only [completedCount, List.countP_append, List.countP_cons, Metric.lasting]
  have hD : ((pre ++ (w, m.lasting d) :: post).map durationWeight).sum =
    ((pre ++ (w, m.lasting d') :: post).map durationWeight).sum := sum_replace_eq hdw
  have hH : ((pre ++ (w, m.lasting d) :: post).map hours).sum ≤ ((pre ++ (w, m.lasting d') :: post).map hours).sum :=
    sum_replace_le (div_le_div_of_nonneg_right hle (by norm_num))
  -- the hours are positive before and after, by the row itself
  have hpos : 0 < ((pre ++ (w, m.lasting d) :: post).map hours).sum := by
    have hpre := @sum_nonneg pre _ fun y hy => (h y (by simp [hy])).hours_nonneg
    have hpost := @sum_nonneg post _ fun y hy => (h y (by simp [hy])).hours_nonneg
    have hrow : 0 < hours (w, m.lasting d) := div_pos hd (by norm_num)
    simp only [List.map_append, List.map_cons, List.sum_append, List.sum_cons]
    linarith
  simp only [rates, totals_eq, Totals.rates, ← hW, ← hS, ← hE, hc, ← hD, if_pos hpos, if_pos (hpos.trans_le hH)]
  exact ⟨le_rfl, guarded_le (sum_replace_le hdr) (sum_nonneg fun y hy => (h y hy).durationWeight_nonneg), le_rfl,
    div_le_div_of_nonneg_left (Nat.cast_nonneg _) hpos hH⟩

/-- **The composite of sound rows lies between 0 and 1000; turning a failure into a success never lowers it; raising a
positive duration never raises it.** -/
theorem composite_bounded_monotone (hne : rows ≠ []) (h : ∀ x ∈ rows, Sound x) :
    (0 ≤ composite rows ∧ composite rows ≤ 1000) ∧
    (∀ pre post w m, rows = pre ++ (w, m) :: post → m.success = false →
      composite rows ≤ composite (pre ++ (w, m.succeeded) :: post)) ∧
    ∀ pre post w m d d', rows = pre ++ (w, m) :: post → m.duration_seconds = some d → 0 < d → d ≤ d' →
      composite (pre ++ (w, m.lasting d') :: post) ≤ composite rows := by
  refine ⟨(rates_ranged hne h).composite, fun pre post w m hrows _ => ?_, fun pre post w m d d' hrows hm hd hle => ?_⟩
  · subst hrows
    exact Rates.composite_mono (rates_le_succeeded h)
  · have hlast : m = m.lasting d := by rw [Metric.lasting, ← hm]
    rw [hlast] at hrows
    subst hrows
    exact Rates.composite_mono (rates_le_lasting h hd hle)

/-- A failure that took an hour, of a day when the factor was a half. -/
def hourFailed : Metric := ⟨"giga", "2026-01-01T00:00:00Z", some "2026-01-01T01:00:00Z", some 3600, false, some 30⟩

/-- A success that was twice as fast as estimated. -/
def quickDone : Metric := ⟨"giga", "2026-01-02T00:00:00Z", some "2026-01-02T00:10:00Z", some 600, true, some 20⟩

theorem composite_of_two :
    (0 ≤ composite [(1 / 2, hourFailed), (1, quickDone)] ∧ composite [(1 / 2, hourFailed), (1, quickDone)] ≤ 1000) ∧
    composite [(1 / 2, hourFailed), (1, quickDone)] ≤ composite [(1 / 2, hourFailed.succeeded), (1, quickDone)] ∧
    composite [(1 / 2, hourFailed), (1, quickDone.lasting 1200)] ≤ composite [(1 / 2, hourFailed), (1, quickDone)] := by
  have hall : ∀ x ∈ [((1 : ℚ) / 2, hourFailed), (1, quickDone)], Sound x := by
    intro x hx
    rcases List.mem_pair.mp hx with rfl | rfl
    · exact ⟨by norm_num, by norm_num [Metric.dur, hourFailed], by norm_num [Metric.est, hourFailed]⟩
    · exact ⟨by norm_num, by norm_num [Metric.dur, quickDone], by norm_num [Metric.est, quickDone]⟩
  obtain ⟨hbound, hup, hdown⟩ := composite_bounded_monotone (by simp) hall
  exact ⟨hbound, hup [] _ _ _ rfl rfl, hdown [((1 : ℚ) / 2, hourFailed)] [] 1 quickDone 600 1200 rfl rfl
    (by norm_num) (by norm_num)⟩

/-! ## The recorded score -/

theorem floor_le_roundEven (x : ℚ) : ⌊x⌋ ≤ roundEven x := by
  unfold roundEven
  split_ifs <;> omega

theorem roundEven_le_floor_add_one (x : ℚ) : roundEven x ≤ ⌊x⌋ + 1 := by
  unfold roundEven
  split_ifs <;> omega

theorem roundEven_mono {x y : ℚ} (h : x ≤ y) : roundEven x ≤ roundEven y := by
  rcases (Int.floor_mono h).lt_or_eq with hlt | heq
  · calc roundEven x ≤ ⌊x⌋ + 1 := roundEven_le_floor_add_one x
      _ ≤ ⌊y⌋ := hlt
      _ ≤ roundEven y := floor_le_roundEven y
  · -- the same whole part: the fractions compare
    have hfract : Int.fract x ≤ Int.fract y := by
      rw [Int.fract, Int.fract, heq]
      linarith
    unfold roundEven
    rw [heq]
    split_ifs <;> first | omega | linarith

theorem roundEven_intCast (n : ℤ) : roundEven n = n := by
  unfold roundEven
  rw [if_pos (by rw [Int.fract_intCast]; norm_num), Int.floor_intCast]

theorem round_mono (digits : Nat) {x y : ℚ} (h : x ≤ y) : round x digits ≤ round y digits := by
  have hpow : (0 : ℚ) ≤ 10 ^ digits := by positivity
  exact div_le_div_of_nonneg_right (Int.cast_le.mpr (roundEven_mono (mul_le_mul_of_nonneg_right h hpow))) hpow

theorem round_intCast (n : ℤ) (digits : Nat) : round n digits = n := by
  have hpow : (10 : ℚ) ^ digits ≠ 0 := by positivity
  have hcast : (n : ℚ) * 10 ^ digits = ((n * 10 ^ digits : ℤ) : ℚ) := by push_cast; rfl
  rw [round, hcast, roundEven_intCast, Int.cast_mul, Int.cast_pow, Int.cast_ofNat, mul_div_assoc, div_self hpow,
    mul_one]

theorem get?_saveRating (db : Db) (rating : HostRating) (host : String) :
    (saveRating db rating).host_ratings.get? host =
      if host = rating.hostname then some rating else db.host_ratings.get? host := Dict.get?_set ..

/-- The metric of the task that failed, and no rating yet. -/
def oneMetric : Db := ⟨[hourFailed], .empty⟩

end ClaudeSwarm.PerformanceRating
