import Mathlib.Data.List.Sort
import Mathlib.Tactic.Linarith
import Mathlib.Tactic.Ring

/-!
# The circuit breaker

Model of `CircuitBreaker` of `src/prom_circuit_breaker.py`, by calls that do not overlap. A time is a rational number of
seconds. `fn` returns, raises an exception, or raises what is no `Exception` and is not recorded.

* `Phase`: the specification. A breaker is closed, with the outcomes since it was last closed, or it is tripped, since
  some time and by some number of failed probes after the first trip.
* `call_step`, `refines_reset`: one call, and one reset.
* **`refines`**: the breaker does what its specification says.
-/

namespace ClaudeSwarm.CircuitBreaker

/-! ## The code -/

/-- The arguments of `CircuitBreaker`. -/
structure Params where
  failure_threshold : Nat
  window_size : Nat
  cooldown_seconds : ℚ
  max_cooldown_seconds : ℚ
  threshold_pos : 1 ≤ failure_threshold
  window_pos : 1 ≤ window_size
  cooldown_pos : 0 < cooldown_seconds
  cooldown_le : cooldown_seconds ≤ max_cooldown_seconds

/-- `_state`. -/
inductive State where
  | CLOSED | OPEN | HALF_OPEN
  deriving DecidableEq

/-- The fields that change; the newest entry of `_window` is first, `true` is a failure. -/
structure Breaker where
  window : List Bool
  state : State
  opened_at : ℚ
  current_cooldown : ℚ
  deriving DecidableEq

/-- How `fn` ends. -/
inductive Outcome where
  | returns | raises | interrupts
  deriving DecidableEq

/-- The number of failures. -/
def failures (window : List Bool) : Nat := window.count true

namespace Breaker

variable (P : Params)

/-- `__init__`. -/
def init : Breaker := ⟨[], .CLOSED, 0, P.cooldown_seconds⟩

variable (b : Breaker)

/-- `_window.append`, at most `window_size` of them. -/
def append (failed : Bool) : Breaker := { b with window := (failed :: b.window).take P.window_size }

/-- `_maybe_transition_to_half_open`. -/
def maybeTransitionToHalfOpen (now : ℚ) : Breaker :=
  if b.state ≠ .OPEN then b
  else if b.current_cooldown ≤ now - b.opened_at then { b with state := .HALF_OPEN }
  else b

/-- `_record_success`. -/
def recordSuccess : Breaker :=
  let b := b.append P false
  if b.state = .HALF_OPEN then { b with state := .CLOSED, current_cooldown := P.cooldown_seconds, window := [] }
  else b

/-- `_record_failure`. -/
def recordFailure (now : ℚ) : Breaker :=
  let b := b.append P true
  if b.state = .HALF_OPEN then
    { b with
      current_cooldown := min (b.current_cooldown * 2) P.max_cooldown_seconds
      state := .OPEN
      opened_at := now
      window := [] }
  else if P.failure_threshold ≤ failures b.window then { b with state := .OPEN, opened_at := now }
  else b

/-- `reset`. -/
def reset : Breaker := { state := .CLOSED, window := [], current_cooldown := P.cooldown_seconds, opened_at := 0 }

/-- `call` at time `now`, of an `fn` that ends as `outcome` at time `later`: was it rejected? -/
def call (now : ℚ) (outcome : Outcome) (later : ℚ) : Bool × Breaker :=
  let b := b.maybeTransitionToHalfOpen now
  if b.state = .OPEN then (true, b)
  else
    match outcome with
    | .returns => (false, b.recordSuccess P)
    | .raises => (false, b.recordFailure P later)
    | .interrupts => (false, b)

end Breaker

/-- A call, with its readings of the clock, or a reset. -/
inductive Event where
  | call (now : ℚ) (outcome : Outcome) (later : ℚ)
  | reset

/-- The clock as it is read. -/
def Event.readings : Event → List ℚ
  | .call now _ later => [now, later]
  | .reset => []

/-- Events one after the other: which calls are rejected, and the breaker at the end. -/
def Breaker.run (P : Params) (b : Breaker) : List Event → List Bool × Breaker
  | [] => ([], b)
  | .call now outcome later :: events =>
    let (rejected, b) := b.call P now outcome later
    let (answers, b) := run P b events
    (rejected :: answers, b)
  | .reset :: events => run P (.reset P) events

/-! ## The specification -/

/-- A closed breaker knows the outcomes since it was last closed, the newest first; a tripped one when it was opened
last, and how many probes have failed in a row. -/
inductive Phase where
  | closed (outcomes : List Bool)
  | tripped (since : ℚ) (probes : Nat)

namespace Phase

variable (P : Params)

/-- The cooldown after `k` failed probes. -/
def cooldown (k : Nat) : ℚ := min (P.cooldown_seconds * 2 ^ k) P.max_cooldown_seconds

/-- An outcome in a closed breaker: it opens at `threshold` failures among the last `window_size` outcomes. -/
def outcome (outcomes : List Bool) (failed : Bool) (later : ℚ) : Phase :=
  let outcomes := failed :: outcomes
  if P.failure_threshold ≤ failures (outcomes.take P.window_size) then .tripped later 0 else .closed outcomes

/-- A call: is it rejected? -/
def call (now : ℚ) (o : Outcome) (later : ℚ) : Phase → Bool × Phase
  | .closed outcomes =>
    match o with
    | .returns => (false, outcome P outcomes false later)
    | .raises => (false, outcome P outcomes true later)
    | .interrupts => (false, .closed outcomes)
  | .tripped since k =>
    if now - since < cooldown P k then (true, .tripped since k)
    else
      match o with
      | .returns => (false, .closed [])
      | .raises => (false, .tripped later (k + 1))
      | .interrupts => (false, .tripped since k)

/-- Events one after the other. -/
def run (s : Phase) : List Event → List Bool × Phase
  | [] => ([], s)
  | .call now o later :: events =>
    let (rejected, s) := s.call P now o later
    let (answers, s) := run s events
    (rejected :: answers, s)
  | .reset :: events => run (.closed []) events

/-- The breaker is in this phase. -/
def Shows (b : Breaker) : Phase → Prop
  | .closed _ => b.state = .CLOSED ∧ b.current_cooldown = P.cooldown_seconds
  | .tripped since k => b.state ≠ .CLOSED ∧ b.opened_at = since ∧ b.current_cooldown = cooldown P k

end Phase

/-! ## Refinement -/

section

variable {P : Params} {b : Breaker} {s : Phase} {now : ℚ}

/-- What the breaker remembers, when the clock has been read as `now`. -/
def Refines (P : Params) (now : ℚ) (b : Breaker) : Phase → Prop
  | .closed outcomes => b.state = .CLOSED ∧ b.current_cooldown = P.cooldown_seconds ∧
      b.window = outcomes.take P.window_size ∧ failures b.window < P.failure_threshold
  | .tripped since k => b.opened_at = since ∧ b.current_cooldown = Phase.cooldown P k ∧
      (b.state = .OPEN ∨ b.state = .HALF_OPEN ∧ Phase.cooldown P k ≤ now - since)

theorem Refines.shows (h : Refines P now b s) : s.Shows P b := by
  cases s with
  | closed outcomes => exact ⟨h.1, h.2.1⟩
  | tripped since k =>
    refine ⟨?_, h.1, h.2.1⟩
    rcases h.2.2 with hstate | ⟨hstate, -⟩
    · rw [hstate]
      decide
    · rw [hstate]
      decide

theorem Refines.later {now' : ℚ} (h : Refines P now b s) (hle : now ≤ now') : Refines P now' b s := by
  cases s with
  | closed outcomes => exact h
  | tripped since k => exact ⟨h.1, h.2.1, h.2.2.imp id fun hhalf => ⟨hhalf.1, by linarith [hhalf.2]⟩⟩

theorem cooldown_zero : Phase.cooldown P 0 = P.cooldown_seconds := by
  rw [Phase.cooldown, pow_zero, mul_one]
  exact min_eq_left P.cooldown_le

/-- Doubling, up to the bound. -/
theorem cooldown_succ (k : Nat) :
    min (Phase.cooldown P k * 2) P.max_cooldown_seconds = Phase.cooldown P (k + 1) := by
  have hmax : P.max_cooldown_seconds ≤ P.max_cooldown_seconds * 2 := by linarith [P.cooldown_pos, P.cooldown_le]
  rw [Phase.cooldown, Phase.cooldown, min_mul_of_nonneg _ _ (by norm_num : (0 : ℚ) ≤ 2), min_assoc, min_eq_right hmax,
    pow_succ, mul_assoc]

/-- Only the last outcomes are remembered. -/
theorem take_cons_take (x : Bool) (l : List Bool) (n : Nat) : (x :: l.take n).take n = (x :: l).take n := by
  cases n with
  | zero => rfl
  | succ n => simp [List.take_take]

/-- A success does not make the failures more. -/
theorem failures_success (l : List Bool) (n : Nat) : failures ((false :: l).take n) ≤ failures (l.take n) := by
  cases n with
  | zero => exact Nat.le_refl 0
  | succ n =>
    rw [List.take_succ_cons, failures, List.count_cons_of_ne (by decide)]
    exact (List.take_sublist_take_left (Nat.le_succ n)).count_le true

theorem refines_init : Refines P now (.init P) (.closed []) :=
  ⟨rfl, rfl, List.take_nil.symm, P.threshold_pos⟩

theorem refines_reset : Refines P now (.reset P) (.closed []) :=
  ⟨rfl, rfl, List.take_nil.symm, P.threshold_pos⟩

/-- What is recorded in a closed breaker. -/
theorem closed_step {outcomes : List Bool} (h : Refines P now b (.closed outcomes)) (later : ℚ) :
    Refines P later (b.recordSuccess P) (Phase.outcome P outcomes false later) ∧
      Refines P later (b.recordFailure P later) (Phase.outcome P outcomes true later) := by
  obtain ⟨hstate, hcooldown, hwindow, hfew⟩ := h
  have happend : ∀ x, (x :: b.window).take P.window_size = (x :: outcomes).take P.window_size := fun x => by
    rw [hwindow, take_cons_take]
  constructor
  · have hstays : failures ((false :: outcomes).take P.window_size) < P.failure_threshold :=
      (failures_success outcomes P.window_size).trans_lt (hwindow ▸ hfew)
    have hsuccess : b.recordSuccess P = b.append P false := if_neg (by rw [Breaker.append, hstate]; decide)
    rw [hsuccess, Phase.outcome, if_neg (Nat.not_le.mpr hstays)]
    refine ⟨hstate, hcooldown, happend false, ?_⟩
    rw [Breaker.append, happend]
    exact hstays
  · have hfailure : b.recordFailure P later =
        if P.failure_threshold ≤ failures (b.append P true).window then
          { b.append P true with state := .OPEN, opened_at := later }
        else b.append P true := if_neg (by rw [Breaker.append, hstate]; decide)
    rw [hfailure, Phase.outcome, Breaker.append, happend]
    split
    · exact ⟨rfl, hcooldown.trans cooldown_zero.symm, .inl rfl⟩
    · exact ⟨hstate, hcooldown, happend true ▸ rfl, Nat.not_le.mp ‹_›⟩

/-- A probe. -/
theorem probe_step {k : Nat} (hstate : b.state = .HALF_OPEN) (hcooldown : b.current_cooldown = Phase.cooldown P k)
    (later : ℚ) :
    Refines P later (b.recordSuccess P) (.closed []) ∧
      Refines P later (b.recordFailure P later) (.tripped later (k + 1)) := by
  constructor
  · have hsuccess : b.recordSuccess P = { b.append P false with
        state := .CLOSED, current_cooldown := P.cooldown_seconds, window := [] } := if_pos hstate
    rw [hsuccess]
    exact ⟨rfl, rfl, List.take_nil.symm, P.threshold_pos⟩
  · have hfailure : b.recordFailure P later = { b.append P true with
        current_cooldown := min (b.current_cooldown * 2) P.max_cooldown_seconds
        state := .OPEN
        opened_at := later
        window := [] } := if_pos hstate
    rw [hfailure]
    exact ⟨rfl, by rw [hcooldown, cooldown_succ], .inl rfl⟩

theorem call_open {later : ℚ} {o : Outcome} (h : (b.maybeTransitionToHalfOpen now).state = .OPEN) :
    b.call P now o later = (true, b.maybeTransitionToHalfOpen now) := if_pos h

theorem call_returns {later : ℚ} (h : (b.maybeTransitionToHalfOpen now).state ≠ .OPEN) :
    b.call P now .returns later = (false, (b.maybeTransitionToHalfOpen now).recordSuccess P) := if_neg h

theorem call_raises {later : ℚ} (h : (b.maybeTransitionToHalfOpen now).state ≠ .OPEN) :
    b.call P now .raises later = (false, (b.maybeTransitionToHalfOpen now).recordFailure P later) := if_neg h

theorem call_interrupts {later : ℚ} (h : (b.maybeTransitionToHalfOpen now).state ≠ .OPEN) :
    b.call P now .interrupts later = (false, b.maybeTransitionToHalfOpen now) := if_neg h

/-- **One call.** -/
theorem call_step {now₀ later : ℚ} (h : Refines P now₀ b s) (hnow : now₀ ≤ now) (hlater : now ≤ later) (o : Outcome) :
    (b.call P now o later).1 = (s.call P now o later).1 ∧
      Refines P later (b.call P now o later).2 (s.call P now o later).2 := by
  cases s with
  | closed outcomes =>
    have hstay : b.maybeTransitionToHalfOpen now = b := if_pos (by rw [h.1]; decide)
    have hrun : b.state ≠ .OPEN := by rw [h.1]; decide
    obtain ⟨hsuccess, hfailure⟩ := closed_step h later
    rw [← hstay] at hrun hsuccess hfailure
    cases o with
    | returns =>
      rw [call_returns hrun]
      exact ⟨rfl, hsuccess⟩
    | raises =>
      rw [call_raises hrun]
      exact ⟨rfl, hfailure⟩
    | interrupts =>
      rw [call_interrupts hrun, hstay]
      exact ⟨rfl, h.later (hnow.trans hlater)⟩
  | tripped since k =>
    obtain ⟨hopened, hcooldown, hstate⟩ := h
    by_cases hwait : now - since < Phase.cooldown P k
    · -- the cooldown is not over
      have hopen : b.state = .OPEN := hstate.resolve_right fun hhalf => by linarith [hhalf.2]
      have hstay : b.maybeTransitionToHalfOpen now = b := by
        rw [Breaker.maybeTransitionToHalfOpen, if_neg (not_not.mpr hopen), hcooldown, hopened, if_neg hwait.not_ge]
      have hreject : (Phase.tripped since k).call P now o later = (true, .tripped since k) := if_pos hwait
      rw [call_open (hstay.symm ▸ hopen), hstay, hreject]
      exact ⟨rfl, hopened, hcooldown, .inl hopen⟩
    · have hover := not_lt.mp hwait
      obtain ⟨hhalf, hopened', hcooldown'⟩ : (b.maybeTransitionToHalfOpen now).state = .HALF_OPEN ∧
          (b.maybeTransitionToHalfOpen now).opened_at = since ∧
          (b.maybeTransitionToHalfOpen now).current_cooldown = Phase.cooldown P k := by
        rcases hstate with hopen | ⟨hhalf, -⟩
        · rw [Breaker.maybeTransitionToHalfOpen, if_neg (not_not.mpr hopen), hcooldown, hopened, if_pos hover]
          exact ⟨rfl, rfl, rfl⟩
        · have hstay : b.maybeTransitionToHalfOpen now = b := if_pos (by rw [hhalf]; decide)
          rw [hstay]
          exact ⟨hhalf, hopened, hcooldown⟩
      have hrun : (b.maybeTransitionToHalfOpen now).state ≠ .OPEN := by rw [hhalf]; decide
      obtain ⟨hsuccess, hfailure⟩ := probe_step hhalf hcooldown' later
      cases o with
      | returns =>
        have hprobe : (Phase.tripped since k).call P now .returns later = (false, .closed []) := if_neg hwait
        rw [call_returns hrun, hprobe]
        exact ⟨rfl, hsuccess⟩
      | raises =>
        have hprobe : (Phase.tripped since k).call P now .raises later = (false, .tripped later (k + 1)) := if_neg hwait
        rw [call_raises hrun, hprobe]
        exact ⟨rfl, hfailure⟩
      | interrupts =>
        have hprobe : (Phase.tripped since k).call P now .interrupts later = (false, .tripped since k) := if_neg hwait
        rw [call_interrupts hrun, hprobe]
        exact ⟨rfl, hopened', hcooldown', .inr ⟨hhalf, by linarith⟩⟩

theorem refines_run : ∀ {events : List Event} {b : Breaker} {s : Phase} {now : ℚ}, Refines P now b s →
    (∀ t ∈ events.flatMap Event.readings, now ≤ t) → (events.flatMap Event.readings).Pairwise (· ≤ ·) →
    (b.run P events).1 = (s.run P events).1 ∧ ∃ now', Refines P now' (b.run P events).2 (s.run P events).2
  | [], _, _, now, h, _, _ => ⟨rfl, now, h⟩
  | .reset :: events, _, _, now, _, hnow, hsorted =>
    @refines_run events (.reset P) (.closed []) now refines_reset hnow hsorted
  | .call now o later :: events, b, s, now₀, h, hnow, hsorted => by
    have hreadings : (Event.call now o later :: events).flatMap Event.readings =
        now :: later :: events.flatMap Event.readings := rfl
    rw [hreadings] at hnow hsorted
    obtain ⟨hfirst, hrest⟩ := List.pairwise_cons.mp hsorted
    obtain ⟨hafter, hrest⟩ := List.pairwise_cons.mp hrest
    obtain ⟨hanswer, hstep⟩ := call_step h (hnow now List.mem_cons_self) (hfirst later List.mem_cons_self) o
    obtain ⟨hanswers, hend⟩ := refines_run hstep hafter hrest
    exact ⟨congrArg₂ List.cons hanswer hanswers, hend⟩

end

/-- A threshold of two among three, and a cooldown of one second. -/
def someParams : Params := ⟨2, 3, 1, 3, by decide, by decide, by norm_num, by norm_num⟩

/-- Two failures, a call that is rejected, a probe that fails and one that does not. -/
def someEvents : List Event :=
  [.call 0 .raises 1, .call 1 .raises 2, .call 2 .returns 2, .call 3 .raises 4, .call 6 .returns 7]

example : ((Breaker.init someParams).run someParams someEvents).1 = [false, false, true, false, false] := by
  decide +kernel

end ClaudeSwarm.CircuitBreaker
