import ClaudeSwarm.CircuitBreaker.Sequential
import ClaudeSwarm.Interleave.Span

/-!
# The circuit breaker and several threads

`call` of `src/prom_circuit_breaker.py`, by calls that overlap. The check of the cooldown and the record of a result are
each done under the lock; between them the state is tested and `fn` runs without it. In `HALF_OPEN` the test lets a call
pass as in `CLOSED`, so two calls that come after a cooldown both run `fn` (`two_probes`).

What is done under the lock is answered by the breaker as it was found and left, for the history; the code does not look
at the answer.

* `runs_call`: a call that is alone does what `Breaker.call` does.
* **`single_of_alone`**: one probe at a time, where no call tests the state of a half-open breaker beside a probe.
-/

namespace ClaudeSwarm.CircuitBreaker

open Interleave

/-! ## The code -/

/-- The breaker, and the clock. -/
structure Shared where
  breaker : Breaker
  now : ℚ

/-- The breaker after `__init__`. -/
def Shared.init (P : Params) : Shared := ⟨.init P, 0⟩

/-- What a call does: the check of the cooldown, the test of the state, `fn`, and the record of its result. -/
inductive Cmd where
  | transition | state | fn | success | failure | reset
  deriving DecidableEq

/-- The breaker as a command found and left it, at some time. -/
structure Change where
  found : Breaker
  left : Breaker
  now : ℚ
  deriving DecidableEq

/-- The answer to a command. -/
abbrev Resp : Cmd → Type
  | .state => State
  | .fn => Outcome
  | .transition | .success | .failure | .reset => Change

/-- The signature of the breaker. -/
abbrev breakerSig : Sig := ⟨Cmd, Resp⟩

variable (P : Params)

/-- The breaker after a command. -/
def Breaker.after (b : Breaker) (now : ℚ) : Cmd → Breaker
  | .transition => b.maybeTransitionToHalfOpen now
  | .state | .fn => b
  | .success => b.recordSuccess P
  | .failure => b.recordFailure P now
  | .reset => .reset P

/-- The answer to a command; `fn` ends as `outcome` says. -/
def Breaker.answer (b : Breaker) (now : ℚ) (outcome : Outcome) : (c : Cmd) → Resp c
  | .state => b.state
  | .fn => outcome
  | .transition => ⟨b, b.after P now .transition, now⟩
  | .success => ⟨b, b.after P now .success, now⟩
  | .failure => ⟨b, b.after P now .failure, now⟩
  | .reset => ⟨b, b.after P now .reset, now⟩

/-- One command; the clock does not go back. -/
def exec (i : ℚ × Outcome) (s : Shared) (c : Cmd) : Option (Resp c × Shared) :=
  if i.1 < s.now then none else some (s.breaker.answer P i.1 i.2 c, ⟨s.breaker.after P i.1 c, i.1⟩)

/-- The exceptions of a call: its own, or that of `fn`, which is an `Exception` or is not. -/
inductive Raised where
  | CircuitBreakerOpen | Exception | BaseException
  deriving DecidableEq

/-- A program of a thread. -/
abbrev Thread (α : Type) := Prog breakerSig Raised α

/-- Issue one command. -/
abbrev cmd (c : Cmd) : Thread (Resp c) := Prog.cmd (S := breakerSig) c

/-- After the test: `fn`, and the record of its result. -/
def attempt : Thread Unit := do
  match ← cmd .fn with
  | .returns => cmd .success >>= fun _ => .ret ()
  | .raises => cmd .failure >>= fun _ => .raise .Exception
  | .interrupts => .raise .BaseException

/-- `call`. -/
def call : Thread Unit := do
  let _ ← cmd .transition
  let state ← cmd .state
  if state = .OPEN then .raise .CircuitBreakerOpen else attempt

/-- `reset`. -/
def reset : Thread Unit := cmd .reset >>= fun _ => .ret ()

/-- The methods of the breaker. -/
inductive Op where
  | call | reset

/-- The threads on one breaker. -/
abbrev threads : System where
  sig := breakerSig
  store := ⟨Shared, ℚ × Outcome, fun _ => exec P⟩
  Err := Raised
  Op := Op
  Ret _ := Unit
  prog
    | .call => call
    | .reset => reset

/-! ## A call alone -/

section

variable {P} {n : Nat} {s s' : Shared} {r : Except Raised Unit}

theorem exec_eq {i : ℚ × Outcome} {c : Cmd} {x : Resp c} (h : exec P i s c = some (x, s')) :
    s.now ≤ i.1 ∧ x = s.breaker.answer P i.1 i.2 c ∧ s' = ⟨s.breaker.after P i.1 c, i.1⟩ := by
  unfold exec at h
  split at h
  · cases h
  · cases h
    exact ⟨not_lt.mp ‹_›, rfl, rfl⟩

/-- How a call ends that is admitted. -/
def Outcome.result : Outcome → Except Raised Unit
  | .returns => .ok ()
  | .raises => .error .Exception
  | .interrupts => .error .BaseException

end

/-! ## Probes -/

section

variable {P}

/-- The call is admitted or not by a test that finds the breaker in this state. -/
def Tests (found : State) : Interleave.Event (threads P) → Prop
  | ⟨_, _, .state, x⟩ => x = found
  | _ => False

/-- The result of the call is recorded, or is not going to be. -/
def Settles : Interleave.Event (threads P) → Prop
  | ⟨_, _, .fn, x⟩ => x = .interrupts
  | ⟨_, _, .success, _⟩ | ⟨_, _, .failure, _⟩ => True
  | _ => False

instance (found : State) (e : Interleave.Event (threads P)) : Decidable (Tests found e) :=
  match e with
  | ⟨_, _, .state, x⟩ => inferInstanceAs (Decidable (x = found))
  | ⟨_, _, .transition, _⟩ | ⟨_, _, .fn, _⟩ | ⟨_, _, .success, _⟩ | ⟨_, _, .failure, _⟩ | ⟨_, _, .reset, _⟩ =>
    .isFalse id

instance (e : Interleave.Event (threads P)) : Decidable (Settles e) :=
  match e with
  | ⟨_, _, .fn, x⟩ => inferInstanceAs (Decidable (x = .interrupts))
  | ⟨_, _, .success, _⟩ | ⟨_, _, .failure, _⟩ => .isTrue trivial
  | ⟨_, _, .transition, _⟩ | ⟨_, _, .state, _⟩ | ⟨_, _, .reset, _⟩ => .isFalse id

/-- The call was admitted in `HALF_OPEN`, and its result is not recorded. -/
def Probing (n : Nat) (l : List (Interleave.Event (threads P))) : Prop :=
  Held (fun e (_ : Unit) => Tests .HALF_OPEN e) (fun e _ => Settles e) () (l.filter fun e => e.call == n)

/-- The call was admitted in `HALF_OPEN`, and `fn` has not ended. -/
def Running (n : Nat) (w : World (threads P)) : Prop := ∃ e ∈ (mine n w).head?, Tests .HALF_OPEN e

/-- At most one call is a probe. -/
def Sole (l : List (Interleave.Event (threads P))) : Prop := ∀ n m, Probing n l → Probing m l → n = m

/-- Beside a probe no other call was admitted in `HALF_OPEN`. -/
def Rejects (l : List (Interleave.Event (threads P))) : Prop :=
  WithPast (fun e earlier => Tests .HALF_OPEN e → ∀ n, Probing n earlier → n = e.call) l

/-- **One probe at a time**: while the breaker is half open at most one call that was admitted so is running `fn`, and
the others were rejected. -/
structure SingleProbe (w : World (threads P)) : Prop where
  one : w.state.breaker.state = .HALF_OPEN → ∀ n m, Running n w → Running m w → n = m
  rejects : Rejects w.trace

/-- No call tests the state of a half-open breaker beside a probe of another call. -/
def Alone : Guard (threads P) := fun w n _ c =>
  c = .state → w.state.breaker.state = .HALF_OPEN → ∀ e ∈ w.trace, Probing e.call w.trace → e.call = n

instance (n : Nat) (l : List (Interleave.Event (threads P))) : Decidable (Probing n l) :=
  decidableHeld _ _ () _

instance (n : Nat) (w : World (threads P)) : Decidable (Running n w) :=
  inferInstanceAs (Decidable (∃ e ∈ (mine n w).head?, Tests .HALF_OPEN e))

instance (w : World (threads P)) (n : Nat) (o : Op) (c : Cmd) : Decidable (Alone w n o c) :=
  match c with
  | .state => decidable_of_iff (w.state.breaker.state = .HALF_OPEN → ∀ e ∈ w.trace, Probing e.call w.trace → e.call = n)
    ⟨fun h _ => h, fun h => h rfl⟩
  | .transition | .fn | .success | .failure | .reset => .isTrue fun h => by cases h

variable {w w' : World (threads P)} {e : Interleave.Event (threads P)} {n : Nat}

theorem Running.probing (h : Running n w) : Probing n w.trace := by
  obtain ⟨e, he, ht⟩ := h
  obtain ⟨l, hl⟩ := List.head?_eq_some_iff.mp he
  have hheld : Held (fun e (_ : Unit) => Tests .HALF_OPEN e) (fun e _ => Settles e) () (mine n w) := by
    rw [hl]
    exact .inl ht
  exact hheld

/-- A call that is a probe has done something. -/
theorem exists_of_probing {l : List (Interleave.Event (threads P))} (h : Probing n l) : ∃ e ∈ l, e.call = n := by
  unfold Probing at h
  cases hl : l.filter fun e => e.call == n with
  | nil =>
    rw [hl] at h
    exact h.elim
  | cons e _ =>
    have he : e ∈ l.filter fun e => e.call == n := hl ▸ List.mem_cons_self
    exact ⟨e, List.mem_of_mem_filter he, by simpa using List.of_mem_filter he⟩

/-- A call becomes a probe by its test. -/
theorem probing_fires (hf : Fires w e w') (h : Probing n w'.trace) :
    Probing n w.trace ∨ e.call = n ∧ Tests .HALF_OPEN e := by
  by_cases hn : e.call = n
  · subst hn
    rcases (open_own hf ()).mp h with ht | ⟨hopen, -⟩
    · exact .inr ⟨rfl, ht⟩
    · exact .inl hopen
  · exact .inl ((open_other hf hn ()).mp h)

/-- A test finds the breaker as it is. -/
theorem found_of_tests {s : State} (hf : Fires w e w') (h : Tests s e) :
    e.cmd = .state ∧ w.state.breaker.state = s := by
  obtain ⟨n, o, c, x⟩ := e
  obtain ⟨⟨i, hx⟩, -⟩ := hf
  cases c with
  | state => exact ⟨rfl, (exec_eq hx).2.1.symm.trans h⟩
  | transition | fn | success | failure | reset => exact h.elim

/-- **A step.** The tests keep to one probe at a time. -/
theorem alone_step (hg : Alone w e.call e.op e.cmd) (hf : Fires w e w')
    (hsole : Sole w.trace) : (Tests .HALF_OPEN e → ∀ n, Probing n w.trace → n = e.call) ∧ Sole w'.trace := by
  have halone : Tests .HALF_OPEN e → ∀ n, Probing n w.trace → n = e.call := fun ht n hn => by
    obtain ⟨hcmd, hstate⟩ := found_of_tests hf ht
    obtain ⟨d, hd, rfl⟩ := exists_of_probing hn
    exact hg hcmd hstate d hd hn
  refine ⟨halone, fun n m hn hm => ?_⟩
  rcases probing_fires hf hn with hn | ⟨rfl, ht⟩
  · rcases probing_fires hf hm with hm | ⟨rfl, ht⟩
    · exact hsole n m hn hm
    · exact halone ht n hn
  · rcases probing_fires hf hm with hm | ⟨rfl, -⟩
    · exact (halone ht m hm).symm
    · rfl

theorem sole_nil : Sole ([] : List (Interleave.Event (threads P))) := fun _ _ hn => False.elim hn

/-- **One probe at a time**, where no call tests the state of a half-open breaker beside a probe. -/
theorem single_of_alone {s : Shared} {c : Config (threads P)} (h : Run Alone (.init s) c) : SingleProbe c.world := by
  have hinv : Sole c.world.trace ∧ Rejects c.world.trace := by
    refine run_inv (I := fun w => Sole w.trace ∧ Rejects w.trace) (fun w e w' hi hg hf => ?_)
      (a := .init s) ⟨sole_nil, trivial⟩ h
    obtain ⟨halone, hsole⟩ := alone_step hg hf hi.1
    have hrejects : Rejects (e :: w.trace) := ⟨halone, hi.2⟩
    exact ⟨hsole, hf.2 ▸ hrejects⟩
  exact ⟨fun _ n m hn hm => hinv.1 n m hn.probing hm.probing, hinv.2⟩

end

/-! ## Two calls after a cooldown -/

/-- One failure opens the breaker. -/
def oneParams : Params := ⟨1, 1, 1, 1, by decide, by decide, one_pos, le_rfl⟩

/-- A call that fails at once. -/
def failing : List (Act (threads oneParams)) := solo (threads oneParams) 2 .call 4 (0, .raises)

/-- A call at time 1, up to the test of the state. -/
def untilTest (n : Nat) : List (Act (threads oneParams)) := solo (threads oneParams) n .call 2 (1, .returns)

theorem two_probes_play :
    (play Free (.init (Shared.init oneParams)) (failing ++ untilTest 0 ++ untilTest 1)).isSome := by
  decide +kernel

/-- Both calls run `fn`. -/
theorem two_probes : ¬ ∀ (P : Params) (c : Config (threads P)), Run Free (.init (Shared.init P)) c →
    SingleProbe c.world := by
  intro hall
  have hsingle := hall _ _ (run_played two_probes_play)
  have hhalf : (played Free _ _ two_probes_play).world.state.breaker.state = .HALF_OPEN := by decide +kernel
  have hrunning : ∀ n < 2, Running n (played Free _ _ two_probes_play).world := by decide +kernel
  exact absurd (hsingle.one hhalf 0 1 (hrunning 0 (by decide)) (hrunning 1 (by decide))) (by decide)

/-- The second call comes when the first has failed. -/
def inTurn : List (Act (threads oneParams)) :=
  failing ++ solo (threads oneParams) 0 .call 4 (1, .raises) ++ untilTest 1

theorem inTurn_plays : (play Alone (.init (Shared.init oneParams)) inTurn).isSome := by
  decide +kernel

/-- `single_of_alone` of these calls. -/
theorem single_of_alone_inTurn : SingleProbe (played Alone _ _ inTurn_plays).world :=
  single_of_alone (run_played inTurn_plays)

end ClaudeSwarm.CircuitBreaker
