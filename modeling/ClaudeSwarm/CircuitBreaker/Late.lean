import ClaudeSwarm.CircuitBreaker.Threads

/-!
# Results that come late

A result is recorded in the state the breaker is in then, not in the one in which the call was admitted. A failure of a
call from before the opening moves `opened_at`, since the window still holds the failures that opened the breaker
(`postponed`); in `HALF_OPEN` a late result counts as that of a probe.

* `attributed_run`: what is recorded is recorded by a call that was admitted.
* **`undisturbed_iff`**: the runs in which late results change nothing.
-/

namespace ClaudeSwarm.CircuitBreaker

open Interleave

variable {P : Params}

/-! ## What should hold -/

/-- Call `n` was admitted, or rejected, in this state. -/
def TestedIn (s : State) (n : Nat) (l : List (Interleave.Event (threads P))) : Prop :=
  ∃ e ∈ l, e.call = n ∧ Tests s e

/-- A result that is recorded: was it a failure? -/
def records : Interleave.Event (threads P) → Option (Bool × Change)
  | ⟨_, _, .success, x⟩ => some (false, x)
  | ⟨_, _, .failure, x⟩ => some (true, x)
  | _ => none

/-- The breaker stays as it is, the window apart. -/
def Change.Keeps (x : Change) : Prop :=
  x.left.state = x.found.state ∧ x.left.opened_at = x.found.opened_at ∧
    x.left.current_cooldown = x.found.current_cooldown

/-- The result of a call that was admitted in `CLOSED` changes nothing in a breaker that has opened, and only a call that
was admitted in `HALF_OPEN` takes the breaker out of it. -/
def Harmless (e : Interleave.Event (threads P)) (earlier : List (Interleave.Event (threads P))) : Prop :=
  ∀ failed x, records e = some (failed, x) →
    (TestedIn .CLOSED e.call earlier → x.found.state ≠ .CLOSED → x.Keeps) ∧
      (x.found.state = .HALF_OPEN → x.left.state ≠ .HALF_OPEN → TestedIn .HALF_OPEN e.call earlier)

instance (s : State) (n : Nat) (l : List (Interleave.Event (threads P))) : Decidable (TestedIn s n l) :=
  inferInstanceAs (Decidable (∃ e ∈ l, e.call = n ∧ Tests s e))

/-- **Late results do not disturb the breaker.** -/
def Undisturbed (l : List (Interleave.Event (threads P))) : Prop := WithPast Harmless l

/-- A call that was admitted in `CLOSED` records no result in `HALF_OPEN`, and no failure in `OPEN` that makes the
threshold, unless at the very time of the opening. -/
def InTime (e : Interleave.Event (threads P)) (earlier : List (Interleave.Event (threads P))) : Prop :=
  ∀ failed x, records e = some (failed, x) → TestedIn .CLOSED e.call earlier →
    x.found.state ≠ .HALF_OPEN ∧ (failed = true → x.found.state = .OPEN →
      P.failure_threshold ≤ failures (x.found.append P true).window → x.now = x.found.opened_at)

/-- No call that was admitted in `CLOSED` is too late. -/
def Timely (l : List (Interleave.Event (threads P))) : Prop := WithPast InTime l

/-! ## Who records -/

/-- What is recorded is recorded by a call that was admitted, and as the code does it. -/
def Attributed (e : Interleave.Event (threads P)) (earlier : List (Interleave.Event (threads P))) : Prop :=
  ∀ failed x, records e = some (failed, x) →
    (∃ s, s ≠ .OPEN ∧ TestedIn s e.call earlier) ∧
      x.left = if failed then x.found.recordFailure P x.now else x.found.recordSuccess P

/-- Only a call that was admitted records a result. -/
def Admitted : Guard (threads P) := fun w n _ c =>
  c = .success ∨ c = .failure → ∃ s, s ≠ .OPEN ∧ TestedIn s n w.trace

/-- The discipline of the calls. -/
def admitting (P : Params) : Discipline (threads P) := ⟨Free, fun _ => True, fun w e => Admitted w e.call e.op e.cmd⟩

theorem lasting_tested (s : State) (n : Nat) : Lasting fun w : World (threads P) => TestedIn s n w.trace :=
  lasting_executed

/-- A command that records nothing. -/
theorem establishes_quiet {n : Nat} {o : Op} {c : Cmd} (hc : c ≠ .success ∧ c ≠ .failure)
    {R : World (threads P) → Prop} {R' : Resp c → World (threads P) → Prop}
    (h : ∀ w x w', R w → Fires w ⟨n, o, c, x⟩ w' → R' x w') : Establishes (admitting P) n o R c R' :=
  fun w x w' _ hw _ hf => ⟨fun hrecord => (hrecord.elim hc.1 hc.2).elim, trivial, h w x w' hw hf⟩

/-- The record of a call that was admitted. -/
theorem outline_record {n : Nat} {o : Op} {c : Cmd} {s : State} (hs : s ≠ .OPEN)
    {Q : Except Raised Unit → World (threads P) → Prop} {r : Thread Unit}
    (hr : Outline (admitting P) n o Q r fun _ => True) :
    Outline (admitting P) n o Q (cmd c >>= fun _ => r) fun w => TestedIn s n w.trace :=
  outline_cmd (fun _ _ => True) (fun _ => stable_true)
    (fun _ _ _ _ hw _ _ => ⟨fun _ => ⟨s, hs, hw⟩, trivial, trivial⟩) fun _ => hr

theorem attempt_outline (n : Nat) (o : Op) {s : State} (hs : s ≠ .OPEN) :
    Outline (admitting P) n o (fun _ _ => True) attempt fun w => TestedIn s n w.trace := by
  refine outline_cmd (fun _ w => TestedIn s n w.trace) (fun _ => (lasting_tested s n).stable)
    (establishes_quiet (by decide) fun w x w' hw hf => lasting_tested s n w _ w' hf hw) fun outcome => ?_
  cases outcome with
  | returns => exact outline_record hs (outline_ret fun _ _ _ => trivial)
  | raises => exact outline_record hs (outline_raise fun _ _ _ => trivial)
  | interrupts => exact outline_raise fun _ _ _ => trivial

theorem call_outline (n : Nat) (o : Op) : Outline (admitting P) n o (fun _ _ => True) call fun _ => True := by
  refine outline_cmd (fun _ _ => True) (fun _ => stable_true)
    (establishes_quiet (by decide) fun _ _ _ _ _ => trivial) fun _ => ?_
  refine outline_cmd (fun s w => TestedIn s n w.trace) (fun s => (lasting_tested s n).stable)
    (establishes_quiet (by decide) fun w s w' _ hf => executed_now hf ⟨rfl, rfl⟩) fun s => ?_
  by_cases hs : s = .OPEN
  · rw [if_pos hs]
    exact outline_raise fun _ _ _ => trivial
  · rw [if_neg hs]
    exact attempt_outline n o hs

theorem reset_outline (n : Nat) (o : Op) : Outline (admitting P) n o (fun _ _ => True) reset fun _ => True :=
  outline_cmd (fun _ _ => True) (fun _ => stable_true) (establishes_quiet (by decide) fun _ _ _ _ _ => trivial)
    fun _ => outline_ret fun _ _ _ => trivial

/-- **Who records.** -/
theorem attributed_run {s : Shared} {c : Config (threads P)} (h : Run Free (.init s) c) :
    WithPast Attributed c.world.trace := by
  have hadmitted : Run (fun w n o cmd => (admitting P).Guard w n o cmd ∧ Admitted w n o cmd) (.init s) c :=
    run_obeys (D := admitting P) (Q := fun _ _ _ _ => True) (fun _ _ hg => hg) (fun n o => by
      refine outline_pre (fun _ _ _ => trivial) ?_
      cases o with
      | call => exact call_outline n .call
      | reset => exact reset_outline n .reset) trivial h
  refine run_inv (I := fun w => WithPast Attributed w.trace) (a := .init s) (fun w e w' hi hg hf => ?_) trivial
    hadmitted
  have he : Attributed e w.trace := by
    obtain ⟨n, o, cmd, x⟩ := e
    obtain ⟨⟨i, hx⟩, -⟩ := hf
    have hanswer := (exec_eq hx).2.1
    intro failed y hrecords
    cases cmd with
    | success =>
      cases hrecords
      have hy : y = ⟨w.state.breaker, w.state.breaker.recordSuccess P, i.1⟩ := hanswer
      rw [hy]
      exact ⟨hg.2 (.inl rfl), rfl⟩
    | failure =>
      cases hrecords
      have hy : y = ⟨w.state.breaker, w.state.breaker.recordFailure P i.1, i.1⟩ := hanswer
      rw [hy]
      exact ⟨hg.2 (.inr rfl), rfl⟩
    | transition | state | fn | reset => cases hrecords
  rw [hf.2]
  exact ⟨he, hi⟩

/-! ## What a record does -/

theorem recordSuccess_half {b : Breaker} (h : b.state = .HALF_OPEN) : (b.recordSuccess P).state = .CLOSED := by
  have hsuccess : b.recordSuccess P = { b.append P false with
    state := .CLOSED, current_cooldown := P.cooldown_seconds, window := [] } := if_pos h
  rw [hsuccess]

theorem recordSuccess_of_ne {b : Breaker} (h : b.state ≠ .HALF_OPEN) : b.recordSuccess P = b.append P false := if_neg h

theorem recordFailure_half {b : Breaker} {now : ℚ} (h : b.state = .HALF_OPEN) :
    (b.recordFailure P now).state = .OPEN := by
  have hfailure : b.recordFailure P now = { b.append P true with
    current_cooldown := min (b.current_cooldown * 2) P.max_cooldown_seconds
    state := .OPEN
    opened_at := now
    window := [] } := if_pos h
  rw [hfailure]

theorem recordFailure_of_ne {b : Breaker} {now : ℚ} (h : b.state ≠ .HALF_OPEN) :
    b.recordFailure P now = if P.failure_threshold ≤ failures (b.append P true).window then
      { b.append P true with state := .OPEN, opened_at := now } else b.append P true := if_neg h

/-- A result that is recorded in `HALF_OPEN` ends it. -/
theorem ends_half {failed : Bool} {x : Change}
    (hleft : x.left = if failed then x.found.recordFailure P x.now else x.found.recordSuccess P)
    (h : x.found.state = .HALF_OPEN) : x.left.state ≠ .HALF_OPEN := by
  rw [hleft]
  cases failed with
  | true =>
    rw [if_pos rfl, recordFailure_half h]
    decide
  | false =>
    rw [if_neg (by decide), recordSuccess_half h]
    decide

/-- A result that is recorded in `OPEN`. -/
theorem keeps_open {failed : Bool} {x : Change}
    (hleft : x.left = if failed then x.found.recordFailure P x.now else x.found.recordSuccess P)
    (h : x.found.state = .OPEN) :
    x.Keeps ↔ (failed = true → P.failure_threshold ≤ failures (x.found.append P true).window →
      x.now = x.found.opened_at) := by
  have hne : x.found.state ≠ .HALF_OPEN := by
    rw [h]
    decide
  unfold Change.Keeps
  cases failed with
  | false =>
    rw [if_neg (by decide), recordSuccess_of_ne hne] at hleft
    rw [hleft]
    exact iff_of_true ⟨rfl, rfl, rfl⟩ fun hfalse => by cases hfalse
  | true =>
    rw [if_pos rfl, recordFailure_of_ne hne] at hleft
    rw [hleft]
    split
    · exact ⟨fun hkeeps _ _ => hkeeps.2.1, fun hnow => ⟨h.symm, hnow rfl ‹_›, rfl⟩⟩
    · exact iff_of_true ⟨rfl, rfl, rfl⟩ fun _ hle => absurd hle ‹_›

/-- **A record**: it is harmless if it comes in time. -/
theorem quietly_iff {e : Interleave.Event (threads P)} {l : List (Interleave.Event (threads P))} (h : Attributed e l) :
    Harmless e l ↔ InTime e l := by
  constructor
  · intro hharmless failed x hrecords hclosed
    obtain ⟨-, hleft⟩ := h failed x hrecords
    have hkeeps := (hharmless failed x hrecords).1 hclosed
    refine ⟨fun hhalf => ?_, fun hfailed hopen => ?_⟩
    · have hsame := (hkeeps (by rw [hhalf]; decide)).1
      exact ends_half hleft hhalf (hsame.trans hhalf)
    · exact (keeps_open hleft hopen).mp (hkeeps (by rw [hopen]; decide)) hfailed
  · intro htime failed x hrecords
    obtain ⟨⟨s, hs, htested⟩, hleft⟩ := h failed x hrecords
    refine ⟨fun hclosed hopened => ?_, fun hhalf _ => ?_⟩
    · obtain ⟨hhalf, hfew⟩ := htime failed x hrecords hclosed
      cases hstate : x.found.state with
      | CLOSED => exact absurd hstate hopened
      | HALF_OPEN => exact absurd hstate hhalf
      | OPEN => exact (keeps_open hleft hstate).mpr fun hfailed => hfew hfailed hstate
    · cases s with
      | CLOSED => exact absurd hhalf (htime failed x hrecords htested).1
      | HALF_OPEN => exact htested
      | OPEN => exact absurd rfl hs

/-- **Late results**: in a run they do not disturb the breaker if and only if none that does comes late. -/
theorem undisturbed_iff {s : Shared} {c : Config (threads P)} (h : Run Free (.init s) c) :
    Undisturbed c.world.trace ↔ Timely c.world.trace :=
  withPast_congr (fun _ _ => quietly_iff) (attributed_run h)

/-! ## A failure after the opening -/

/-- A call and another in the middle of it, which fails; a second later the first one fails. -/
def overlap : List (Act (threads oneParams)) :=
  solo (threads oneParams) 0 .call 2 (1, .raises) ++ solo (threads oneParams) 1 .call 4 (1, .raises) ++
    List.replicate 2 (.step 0 (2, .raises))

theorem overlap_plays : (play Free (.init (Shared.init oneParams)) overlap).isSome := by
  decide +kernel

/-- `undisturbed_iff` of these calls. -/
theorem undisturbed_iff_overlap : Undisturbed (played Free _ _ overlap_plays).world.trace ↔
    Timely (played Free _ _ overlap_plays).world.trace :=
  undisturbed_iff (run_played overlap_plays)

/-- The failure moves `opened_at`. -/
theorem postponed : ¬ ∀ (P : Params) (c : Config (threads P)), Run Free (.init (Shared.init P)) c →
    Undisturbed c.world.trace := by
  intro hall
  have hundisturbed := hall _ _ (run_played overlap_plays)
  have hfailure : (played Free _ _ overlap_plays).world.trace.head?.bind records =
      some (true, ⟨⟨[true], .OPEN, 1, 1⟩, ⟨[true], .OPEN, 2, 1⟩, 2⟩) := by
    decide +kernel
  have hclosed : ∀ e ∈ (played Free _ _ overlap_plays).world.trace.head?,
      TestedIn .CLOSED e.call (played Free _ _ overlap_plays).world.trace.tail := by
    decide +kernel
  cases htrace : (played Free _ _ overlap_plays).world.trace with
  | nil =>
    rw [htrace] at hfailure
    cases hfailure
  | cons e l =>
    rw [htrace] at hundisturbed hfailure hclosed
    have hkeeps := (hundisturbed.1 true _ hfailure).1 (hclosed e rfl) (by decide)
    exact absurd hkeeps.2.1 (by decide)

end ClaudeSwarm.CircuitBreaker
