import ClaudeSwarm.Interleave.Prog

/-!
# Interleaved runs

A `System` is a store together with the operations callers may invoke on it. Every call has its
own number; a caller that makes several calls one after the other uses several numbers. A
configuration holds the world (the store and the trace of every command executed so far, newest
first) and, for each call made, what is left of its program. A run starts calls and executes one
command of one call at a time, in any order (`Run`). A run can be restricted to those whose
commands all meet a guard on the world before the command (`Guard`); `Free` restricts nothing.

* `run_inv`: an invariant of the world that every command preserves holds along every run.
* `exists_turn`: what holds after a run and did not before was made true by one of its steps.
* `play` executes a schedule, and `run_of_play` makes its result a run: concrete interleavings are
  evaluated, not derived by hand.
-/

namespace ClaudeSwarm.Interleave

/-- A store and the operations offered over it. -/
structure System where
  sig : Sig
  store : Store sig
  Err : Type
  Op : Type
  Ret : Op → Type
  prog : (o : Op) → Prog sig Err (Ret o)

variable (M : System)

/-- Call number `call`, running `op`, executed `cmd` and was answered `resp`. -/
structure Event where
  call : Nat
  op : M.Op
  cmd : M.sig.Cmd
  resp : M.sig.Resp cmd

/-- The store and its history, newest command first. -/
structure World where
  state : M.store.State
  trace : List (Event M)

/-- A call in progress or ended: its operation and what is left of its program. -/
structure Call where
  op : M.Op
  code : Prog M.sig M.Err (M.Ret op)

/-- The world and every call made so far. -/
structure Config where
  world : World M
  proc : Nat → Option (Call M)

/-- A condition on the world before a call executes a command. -/
abbrev Guard := World M → Nat → M.Op → M.sig.Cmd → Prop

variable {M}

/-- No restriction. -/
def Free : Guard M := fun _ _ _ _ => True

/-- The store `s` before any call. -/
def Config.init (s : M.store.State) : Config M := ⟨⟨s, []⟩, fun _ => none⟩

/-- Call `n` invokes `o`. -/
def Config.start (c : Config M) (n : Nat) (o : M.Op) : Config M :=
  { c with proc := Function.update c.proc n (some ⟨o, M.prog o⟩) }

/-- Call `n` has returned `a` from `o`. -/
def Config.Returned (c : Config M) (n : Nat) (o : M.Op) (a : M.Ret o) : Prop :=
  c.proc n = some ⟨o, .ret a⟩

/-- Call `n` has ended `o` with outcome `r`. -/
def Config.Ended (c : Config M) (n : Nat) (o : M.Op) (r : Except M.Err (M.Ret o)) : Prop :=
  c.proc n = some ⟨o, .ofExcept r⟩

/-- No operation is in progress: what is left of every call is its outcome. -/
def Config.Quiescent (c : Config M) : Prop :=
  ∀ n o cmd k, c.proc n ≠ some ⟨o, .op cmd k⟩

theorem Config.Quiescent.ended {c : Config M} (h : c.Quiescent) {n : Nat} {k : Call M}
    (hn : c.proc n = some k) : ∃ r, c.Ended n k.op r := by
  obtain ⟨o, p⟩ := k
  cases p with
  | ret a => exact ⟨.ok a, hn⟩
  | raise e => exact ⟨.error e, hn⟩
  | op cmd k => exact absurd hn (h n o cmd k)

/-- The store executes `e`, taking the world from `w` to `w'`. -/
def Fires (w : World M) (e : Event M) (w' : World M) : Prop :=
  (∃ i, M.store.exec e.call i w.state e.cmd = some (e.resp, w'.state)) ∧ w'.trace = e :: w.trace

/-- The runs from `a` whose commands all meet `G`. -/
inductive Run (G : Guard M) (a : Config M) : Config M → Prop
  | refl : Run G a a
  | start {c : Config M} {n : Nat} (o : M.Op) (h : Run G a c) (hn : c.proc n = none) :
      Run G a (c.start n o)
  | step {c : Config M} {n : Nat} {o : M.Op} {cmd : M.sig.Cmd}
      {k : M.sig.Resp cmd → Prog M.sig M.Err (M.Ret o)} {x : M.sig.Resp cmd} {w' : World M}
      (h : Run G a c) (hn : c.proc n = some ⟨o, .op cmd k⟩) (hg : G c.world n o cmd)
      (hf : Fires c.world ⟨n, o, cmd, x⟩ w') :
      Run G a ⟨w', Function.update c.proc n (some ⟨o, k x⟩)⟩

/-- A guarded run is a run. -/
theorem Run.mono {G H : Guard M} {a c : Config M} (hGH : ∀ w n o cmd, G w n o cmd → H w n o cmd)
    (h : Run G a c) : Run H a c := by
  induction h with
  | refl => exact .refl
  | start o _ hn ih => exact ih.start o hn
  | step _ hn hg hf ih => exact ih.step hn (hGH _ _ _ _ hg) hf

theorem Run.trans {G : Guard M} {a b c : Config M} (h : Run G a b) (h' : Run G b c) : Run G a c := by
  induction h' with
  | refl => exact h
  | start o _ hn ih => exact ih.start o hn
  | step _ hn hg hf ih => exact ih.step hn hg hf

/-- **Store invariants.** What every command meeting `G` preserves holds along every run. -/
theorem run_inv {G : Guard M} {I : World M → Prop}
    (hstep : ∀ w e w', I w → G w e.call e.op e.cmd → Fires w e w' → I w')
    {a c : Config M} (ha : I a.world) (h : Run G a c) : I c.world := by
  induction h with
  | refl => exact ha
  | start o _ _ ih => exact ih
  | step _ _ hg hf ih => exact hstep _ _ _ ih hg hf

/-- A call goes on running the operation it was made for. -/
theorem Run.op_of_proc {G : Guard M} {a c : Config M} (h : Run G a c) {n : Nat} {k : Call M}
    (hn : a.proc n = some k) : ∃ p, c.proc n = some ⟨k.op, p⟩ := by
  induction h with
  | refl => exact ⟨k.code, hn⟩
  | @start c m o _ hm ih =>
    obtain ⟨p, hp⟩ := ih
    refine ⟨p, ?_⟩
    have hne : n ≠ m := fun he => by simp [← he, hp] at hm
    simpa [Config.start, Function.update_of_ne hne] using hp
  | @step c m o cmd f x w' _ hm _ _ ih =>
    obtain ⟨p, hp⟩ := ih
    by_cases he : n = m
    · subst he
      rw [hp] at hm
      cases hm
      exact ⟨f x, by simp⟩
    · exact ⟨p, by simpa [Function.update_of_ne he] using hp⟩

/-- In `c₁`, on the way from `a` to `c`, event `e` is the next to happen and makes `R` true. -/
structure Turn (G : Guard M) (R : World M → Prop) (a c c₁ : Config M) (e : Event M) : Prop where
  before : Run G a c₁
  after : Run G c₁ c
  ready : ∃ k, c₁.proc e.call = some ⟨e.op, .op e.cmd k⟩
  guard : G c₁.world e.call e.op e.cmd
  turns : ∃ w', Fires c₁.world e w' ∧ ¬ R c₁.world ∧ R w'

/-- **What a run makes true one of its steps makes true.** -/
theorem exists_turn {G : Guard M} {R : World M → Prop} {a c : Config M} (h : Run G a c)
    (ha : ¬ R a.world) (hc : R c.world) : ∃ c₁ e, Turn G R a c c₁ e := by
  induction h with
  | refl => exact absurd hc ha
  | start o _ hn ih =>
    obtain ⟨c₁, e, ht⟩ := ih hc
    exact ⟨c₁, e, ht.before, ht.after.start o hn, ht.ready, ht.guard, ht.turns⟩
  | @step c n o cmd k x w' h hn hg hf ih =>
    by_cases hr : R c.world
    · obtain ⟨c₁, e, ht⟩ := ih hr
      exact ⟨c₁, e, ht.before, ht.after.step hn hg hf, ht.ready, ht.guard, ht.turns⟩
    · exact ⟨c, ⟨n, o, cmd, x⟩, h, Run.refl.step hn hg hf, ⟨k, hn⟩, hg, w', hf, hr, hc⟩

/-- An event that happened had a moment when it was the next to happen. -/
theorem exists_turn_of_mem {G : Guard M} {s : M.store.State} {c : Config M} {e : Event M}
    (h : Run G (.init s) c) (he : e ∈ c.world.trace) :
    ∃ c₁, Turn G (fun w => e ∈ w.trace) (.init s) c c₁ e := by
  obtain ⟨c₁, e', ht⟩ := exists_turn (R := fun w => e ∈ w.trace) h List.not_mem_nil he
  obtain ⟨w', hf, hno, hyes⟩ := ht.turns
  rw [hf.2, List.mem_cons] at hyes
  obtain rfl := hyes.resolve_right hno
  exact ⟨c₁, ht⟩

/-- Every executed command belongs to a call that was made, for the operation it was made for. -/
theorem run_event {G : Guard M} {s : M.store.State} {c : Config M} (h : Run G (.init s) c) :
    ∀ e ∈ c.world.trace, ∃ p, c.proc e.call = some ⟨e.op, p⟩ := by
  induction h with
  | refl => exact fun e he => absurd he List.not_mem_nil
  | @start c n o _ hn ih =>
    intro e he
    obtain ⟨p, hp⟩ := ih e he
    have hne : e.call ≠ n := fun hc => by simp [← hc, hp] at hn
    exact ⟨p, by simpa [Config.start, Function.update_of_ne hne] using hp⟩
  | @step c n o cmd k x w' _ hn _ hf ih =>
    intro e he
    rw [hf.2, List.mem_cons] at he
    rcases he with rfl | he
    · exact ⟨k x, Function.update_self _ _ _⟩
    · obtain ⟨p, hp⟩ := ih e he
      by_cases hc : e.call = n
      · subst hc
        rw [hp] at hn
        cases hn
        exact ⟨k x, Function.update_self _ _ _⟩
      · exact ⟨p, by simpa only [Function.update_of_ne hc] using hp⟩

theorem run_traced {G : Guard M} {s : M.store.State} {c : Config M} (h : Run G (.init s) c) :
    ∀ e ∈ c.world.trace, c.proc e.call ≠ none := fun e he hnone => by
  obtain ⟨p, hp⟩ := run_event h e he
  rw [hp] at hnone
  cases hnone

/-- Finitely many calls were made. -/
theorem exists_calls {G : Guard M} {s : M.store.State} {c : Config M} (h : Run G (.init s) c) :
    ∃ calls : List Nat, calls.Nodup ∧ ∀ n, n ∈ calls ↔ c.proc n ≠ none := by
  induction h with
  | refl => exact ⟨[], .nil, fun n => iff_of_false List.not_mem_nil fun hne => hne rfl⟩
  | @start c n o _ hn ih =>
    obtain ⟨calls, hnodup, hcalls⟩ := ih
    refine ⟨n :: calls, List.nodup_cons.mpr ⟨fun hmem => (hcalls n).mp hmem hn, hnodup⟩, fun m => ?_⟩
    rw [List.mem_cons, hcalls m]
    by_cases hm : m = n
    · simp [Config.start, hm]
    · simp [Config.start, hm]
  | @step c n o cmd k x w' _ hn _ _ ih =>
    obtain ⟨calls, hnodup, hcalls⟩ := ih
    refine ⟨calls, hnodup, fun m => (hcalls m).trans ?_⟩
    by_cases hm : m = n
    · simp [hm, hn]
    · simp [Function.update_of_ne hm]

/-! ## Playing a schedule -/

/-- One move of a scheduler: make a call, or let call `n` execute one command under input `i`. -/
inductive Act (M : System) where
  | start (n : Nat) (o : M.Op)
  | step (n : Nat) (i : M.store.Input)

/-- Call `n` invokes `o` and executes `k` commands, all under input `i`. -/
def solo (M : System) (n : Nat) (o : M.Op) (k : Nat) (i : M.store.Input) : List (Act M) :=
  .start n o :: List.replicate k (.step n i)

instance (w : World M) (n : Nat) (o : M.Op) (cmd : M.sig.Cmd) : Decidable (Free w n o cmd) :=
  isTrue trivial

variable (G : Guard M) [∀ w n o cmd, Decidable (G w n o cmd)]

/-- The configuration after a move; `none` when the move is not possible, or not under `G`. -/
def Config.act (c : Config M) : Act M → Option (Config M)
  | .start n o => if (c.proc n).isNone then some (c.start n o) else none
  | .step n i =>
    match c.proc n with
    | some ⟨o, .op cmd k⟩ =>
      if G c.world n o cmd then
        match M.store.exec n i c.world.state cmd with
        | some (x, s') =>
          some ⟨⟨s', ⟨n, o, cmd, x⟩ :: c.world.trace⟩, Function.update c.proc n (some ⟨o, k x⟩)⟩
        | none => none
      else none
    | _ => none

/-- Execute a schedule. -/
def play : Config M → List (Act M) → Option (Config M)
  | c, [] => some c
  | c, m :: ms => (c.act G m).bind (play · ms)

/-- The configuration a playable schedule ends in. -/
def played (a : Config M) (ms : List (Act M)) (h : (play G a ms).isSome) : Config M :=
  (play G a ms).get h

variable {G}

theorem run_act {a c c' : Config M} {m : Act M} (h : Run G a c) (hm : c.act G m = some c') :
    Run G a c' := by
  cases m with
  | start n o =>
    simp only [Config.act] at hm
    split at hm
    · rename_i hn
      obtain rfl := Option.some.inj hm
      exact h.start o (Option.isNone_iff_eq_none.mp hn)
    · cases hm
  | step n i =>
    simp only [Config.act] at hm
    split at hm
    · rename_i o cmd k hp
      split at hm
      · rename_i hg
        split at hm
        · rename_i x s' hx
          obtain rfl := Option.some.inj hm
          exact h.step hp hg ⟨⟨i, hx⟩, rfl⟩
        · cases hm
      · cases hm
    · cases hm

/-- **A played schedule is a run.** -/
theorem run_of_play {a : Config M} : ∀ {ms : List (Act M)} {c c' : Config M},
    Run G a c → play G c ms = some c' → Run G a c'
  | [], _, _, h, hp => Option.some.inj hp ▸ h
  | m :: ms, c, c', h, hp => by
    simp only [play, Option.bind_eq_some_iff] at hp
    obtain ⟨c₁, hm, hp⟩ := hp
    exact run_of_play (run_act h hm) hp

theorem run_played {a : Config M} {ms : List (Act M)} (h : (play G a ms).isSome) :
    Run G a (played G a ms h) :=
  run_of_play .refl (Option.some_get h).symm

/-- A schedule whose result passes the test `t` is a run whose result does. -/
theorem exists_run_of_play {a : Config M} {ms : List (Act M)} {t : Config M → Bool}
    (h : (play G a ms).any t = true) : ∃ c, Run G a c ∧ t c = true := by
  obtain ⟨c, hc, ht⟩ := (Option.any_eq_true _ _).mp h
  exact ⟨c, run_of_play .refl hc, ht⟩

/-- The calls a schedule makes. -/
def starts (ms : List (Act M)) : List Nat :=
  ms.filterMap fun m => match m with
    | .start n _ => some n
    | .step _ _ => none

/-- Call `n` is not in progress. -/
def Config.atRest (c : Config M) (n : Nat) : Bool :=
  match c.proc n with
  | some ⟨_, .op _ _⟩ => false
  | _ => true

/-- A move makes no call but the one it starts. -/
theorem proc_act {c c' : Config M} {m : Act M} {n : Nat} (hm : c.act G m = some c')
    (hn : n ∉ starts [m]) (h : c.proc n = none) : c'.proc n = none := by
  cases m with
  | start n' o =>
    simp only [Config.act] at hm
    split at hm
    · obtain rfl := Option.some.inj hm
      have hne : n ≠ n' := by simpa [starts] using hn
      simpa [Config.start, Function.update_of_ne hne] using h
    · cases hm
  | step n' i =>
    simp only [Config.act] at hm
    split at hm
    · rename_i o cmd k hp
      have hne : n ≠ n' := fun he => by simp [← he, h] at hp
      split at hm
      · split at hm
        · obtain rfl := Option.some.inj hm
          simpa [Function.update_of_ne hne] using h
        · cases hm
      · cases hm
    · cases hm

theorem proc_play {n : Nat} : ∀ {ms : List (Act M)} {c c' : Config M},
    play G c ms = some c' → n ∉ starts ms → c.proc n = none → c'.proc n = none
  | [], _, _, hp, _, h => Option.some.inj hp ▸ h
  | m :: ms, c, c', hp, hn, h => by
    simp only [play, Option.bind_eq_some_iff] at hp
    obtain ⟨c₁, hm, hp⟩ := hp
    have hcons : starts (m :: ms) = starts [m] ++ starts ms := by
      simp only [starts, ← List.filterMap_append, List.singleton_append]
    rw [hcons, List.mem_append, not_or] at hn
    exact proc_play hp hn.2 (proc_act hm hn.1 h)

/-- A schedule after which all the calls it made are at rest. -/
theorem exists_quiescent_of_play {s : M.store.State} {ms : List (Act M)} {t : Config M → Bool}
    (h : (play G (.init s) ms).any (fun c => (starts ms).all c.atRest && t c) = true) :
    ∃ c, Run G (.init s) c ∧ c.Quiescent ∧ t c = true := by
  obtain ⟨c, hc, ht⟩ := (Option.any_eq_true _ _).mp h
  rw [Bool.and_eq_true, List.all_eq_true] at ht
  refine ⟨c, run_of_play .refl hc, fun n o cmd k hn => ?_, ht.2⟩
  by_cases hs : n ∈ starts ms
  · have := ht.1 n hs
    simp [Config.atRest, hn] at this
  · rw [proc_play hc hs rfl] at hn
    cases hn

end ClaudeSwarm.Interleave
