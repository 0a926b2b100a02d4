import Mathlib.Tactic.Common

/-!
# Programs over an atomic store

A program is what one caller does between a call and its return: a tree of commands on a shared
store, each answered before the next is issued (`Prog`). The store is a parameter: a signature
`Sig` of commands and replies, and `Store.exec`, which runs one command atomically. Nothing here
fixes what the store is, so the same programs run over a database, a key-value server or a
directory tree.

* `raise` ends a program with an exception; `finally_` runs a clean-up either way.
* `Store.Runs` is the run of a program **alone**: every command is executed, none is interleaved.
  `runs_bind`, `runs_finally` compose such runs.

The interleaved run of many programs is `System.lean`.
-/

namespace ClaudeSwarm.Interleave

/-- The commands of a store and the reply type of each. -/
structure Sig where
  Cmd : Type
  Resp : Cmd → Type

/-- A program that issues commands of `S`, raises `ε` or returns `α`. -/
inductive Prog (S : Sig) (ε α : Type) : Type
  | ret (a : α)
  | raise (e : ε)
  | op (c : S.Cmd) (k : S.Resp c → Prog S ε α)

namespace Prog

variable {S : Sig} {ε α β : Type}

/-- Sequencing; an exception skips the rest. -/
def bind : Prog S ε α → (α → Prog S ε β) → Prog S ε β
  | .ret a, f => f a
  | .raise e, _ => .raise e
  | .op c k, f => .op c fun r => (k r).bind f

instance : Monad (Prog S ε) where
  pure := .ret
  bind := Prog.bind

/-- Issue one command and return its reply. -/
def cmd (c : S.Cmd) : Prog S ε (S.Resp c) := .op c .ret

/-- The outcome of a computation that issues no command. -/
def ofExcept : Except ε α → Prog S ε α
  | .ok a => .ret a
  | .error e => .raise e

/-- `try: p finally: q`. An exception of `q` replaces the outcome of `p`. -/
def finally_ : Prog S ε α → Prog S ε Unit → Prog S ε α
  | .ret a, q => q.bind fun _ => .ret a
  | .raise e, q => q.bind fun _ => .raise e
  | .op c k, q => .op c fun r => (k r).finally_ q

/-- `try: p except e: f e`. -/
def catch_ : Prog S ε α → (ε → Prog S ε α) → Prog S ε α
  | .ret a, _ => .ret a
  | .raise e, f => f e
  | .op c k, f => .op c fun r => (k r).catch_ f

@[simp] theorem pure_eq (a : α) : (pure a : Prog S ε α) = .ret a := rfl

@[simp] theorem ret_bind (a : α) (f : α → Prog S ε β) : (.ret a : Prog S ε α) >>= f = f a := rfl

@[simp] theorem raise_bind (e : ε) (f : α → Prog S ε β) :
    (.raise e : Prog S ε α) >>= f = .raise e := rfl

@[simp] theorem op_bind (c : S.Cmd) (k : S.Resp c → Prog S ε α) (f : α → Prog S ε β) :
    (.op c k : Prog S ε α) >>= f = .op c fun r => k r >>= f := rfl

@[simp] theorem cmd_bind (c : S.Cmd) (f : S.Resp c → Prog S ε β) :
    (cmd c : Prog S ε _) >>= f = .op c f := rfl

@[simp] theorem ret_finally (a : α) (q : Prog S ε Unit) :
    (.ret a : Prog S ε α).finally_ q = q >>= fun _ => .ret a := rfl

@[simp] theorem raise_finally (e : ε) (q : Prog S ε Unit) :
    (.raise e : Prog S ε α).finally_ q = q >>= fun _ => .raise e := rfl

@[simp] theorem op_finally (c : S.Cmd) (k : S.Resp c → Prog S ε α) (q : Prog S ε Unit) :
    (.op c k : Prog S ε α).finally_ q = .op c fun r => (k r).finally_ q := rfl

@[simp] theorem bind_ret (p : Prog S ε α) : p >>= .ret = p := by
  induction p with
  | ret a => rfl
  | raise e => rfl
  | op c k ih => exact congrArg (Prog.op c) (funext ih)

theorem bind_assoc {γ : Type} (p : Prog S ε α) (f : α → Prog S ε β) (g : β → Prog S ε γ) :
    p >>= f >>= g = p >>= fun a => f a >>= g := by
  induction p with
  | ret a => rfl
  | raise e => rfl
  | op c k ih => exact congrArg (Prog.op c) (funext ih)

/-- Every command `p` can issue meets `ok`. -/
def Each (ok : S.Cmd → Prop) : Prog S ε α → Prop
  | .ret _ => True
  | .raise _ => True
  | .op c k => ok c ∧ ∀ x, Each ok (k x)

variable {ok : S.Cmd → Prop}

@[simp] theorem each_ret (a : α) : (.ret a : Prog S ε α).Each ok := trivial

@[simp] theorem each_cmd {c : S.Cmd} : (cmd c : Prog S ε _).Each ok ↔ ok c :=
  and_iff_left fun _ => trivial

theorem each_ofExcept (x : Except ε α) : (ofExcept x : Prog S ε α).Each ok := by
  cases x <;> trivial

theorem each_true : ∀ p : Prog S ε α, p.Each fun _ => True
  | .ret _ => trivial
  | .raise _ => trivial
  | .op _ k => ⟨trivial, fun x => each_true (k x)⟩

theorem each_mono {ok' : S.Cmd → Prop} (h : ∀ c, ok c → ok' c) :
    ∀ {p : Prog S ε α}, p.Each ok → p.Each ok'
  | .ret _, _ => trivial
  | .raise _, _ => trivial
  | .op _ k, ⟨hc, hk⟩ => ⟨h _ hc, fun x => each_mono h (p := k x) (hk x)⟩

theorem each_bind {f : α → Prog S ε β} (hf : ∀ a, (f a).Each ok) :
    ∀ {p : Prog S ε α}, p.Each ok → (p >>= f).Each ok
  | .ret a, _ => hf a
  | .raise _, _ => trivial
  | .op _ k, ⟨hc, hk⟩ => ⟨hc, fun x => each_bind hf (p := k x) (hk x)⟩

theorem each_cmd_bind {c : S.Cmd} {f : S.Resp c → Prog S ε α} (hc : ok c) (hf : ∀ x, (f x).Each ok) :
    (cmd c >>= f).Each ok := ⟨hc, hf⟩

theorem each_finally {q : Prog S ε Unit} (hq : q.Each ok) :
    ∀ {p : Prog S ε α}, p.Each ok → (p.finally_ q).Each ok
  | .ret a, _ => each_bind (f := fun _ => (.ret a : Prog S ε α)) (fun _ => trivial) hq
  | .raise e, _ => each_bind (f := fun _ => (.raise e : Prog S ε α)) (fun _ => trivial) hq
  | .op _ k, ⟨hc, hk⟩ => ⟨hc, fun x => each_finally hq (p := k x) (hk x)⟩

theorem each_catch {f : ε → Prog S ε α} (hf : ∀ e, (f e).Each ok) :
    ∀ {p : Prog S ε α}, p.Each ok → (p.catch_ f).Each ok
  | .ret _, _ => trivial
  | .raise e, _ => hf e
  | .op _ k, ⟨hc, hk⟩ => ⟨hc, fun x => each_catch hf (p := k x) (hk x)⟩

/-- A property of programs that sequencing keeps. -/
structure Compositional (C : (α : Type) → Prog S ε α → Prop) : Prop where
  ret : ∀ {α : Type} (a : α), C α (.ret a)
  bind : ∀ {α β : Type} {p : Prog S ε α} {f : α → Prog S ε β},
    C α p → (∀ a, C β (f a)) → C β (p >>= f)

theorem each_compositional : Compositional (S := S) (ε := ε) fun _ p => p.Each ok where
  ret _ := trivial
  bind hp hf := each_bind hf hp

end Prog

/-- A store: its state, the outside input one command may read (a clock, a random draw), and the
atomic execution of one command for caller `n`. `none` means the command blocks. -/
structure Store (S : Sig) where
  State : Type
  Input : Type
  exec : (n : Nat) → Input → State → (c : S.Cmd) → Option (S.Resp c × State)

namespace Store

variable {S : Sig} {ε α β : Type} (T : Store S) (n : Nat)

/-- `p` run alone by caller `n` from `s` may end with outcome `r` in `s'`. -/
def Runs : Prog S ε α → T.State → Except ε α → T.State → Prop
  | .ret a, s, r, s' => r = .ok a ∧ s' = s
  | .raise e, s, r, s' => r = .error e ∧ s' = s
  | .op c k, s, r, s' => ∃ i x s₁, T.exec n i s c = some (x, s₁) ∧ Runs (k x) s₁ r s'

@[simp] theorem runs_ret (a : α) (s s' : T.State) (r : Except ε α) :
    T.Runs n (.ret a) s r s' ↔ r = .ok a ∧ s' = s := Iff.rfl

theorem runs_ofExcept (x r : Except ε α) (s s' : T.State) :
    T.Runs n (.ofExcept x) s r s' ↔ r = x ∧ s' = s := by
  cases x <;> rfl

theorem runs_op {c : S.Cmd} {k : S.Resp c → Prog S ε α} {s s' : T.State} {r : Except ε α} :
    T.Runs n (.op c k) s r s' ↔
      ∃ i x s₁, T.exec n i s c = some (x, s₁) ∧ T.Runs n (k x) s₁ r s' := Iff.rfl

/-- `p` run alone with one given input for each of its commands; `none` when a command blocks or the
inputs run out. -/
def runWith : Prog S ε α → List T.Input → T.State → Option (Except ε α × T.State)
  | .ret a, _, s => some (.ok a, s)
  | .raise e, _, s => some (.error e, s)
  | .op _ _, [], _ => none
  | .op c k, i :: is, s =>
    match T.exec n i s c with
    | some (x, s₁) => runWith (k x) is s₁
    | none => none

theorem runs_of_runWith : ∀ {p : Prog S ε α} {is : List T.Input} {s s' : T.State}
    {r : Except ε α}, T.runWith n p is s = some (r, s') → T.Runs n p s r s'
  | .ret _, _, _, _, _, h => by
    cases h
    exact ⟨rfl, rfl⟩
  | .raise _, _, _, _, _, h => by
    cases h
    exact ⟨rfl, rfl⟩
  | .op _ _, [], _, _, _, h => nomatch h
  | .op c k, i :: is, s, s', r, h => by
    rw [runWith] at h
    split at h
    · exact ⟨i, _, _, ‹_›, runs_of_runWith h⟩
    · cases h

/-- A run that is computed, of a program that returns. -/
theorem exists_runs_of_runWith {p : Prog S ε α} {is : List T.Input} {s : T.State}
    (h : (T.runWith n p is s).map (fun q => q.1.toBool) = some true) : ∃ a s', T.Runs n p s (.ok a) s' := by
  obtain ⟨⟨r, s'⟩, hq, hr⟩ := Option.map_eq_some_iff.mp h
  cases r with
  | ok a => exact ⟨a, s', T.runs_of_runWith n hq⟩
  | error e => cases hr

/-- A program whose commands are never blocked has a run. -/
theorem exists_runs_each {ok : S.Cmd → Prop} (h : ∀ s c, ok c → ∃ i x s', T.exec n i s c = some (x, s')) :
    ∀ {p : Prog S ε α}, p.Each ok → ∀ s, ∃ r s', T.Runs n p s r s'
  | .ret a, _, s => ⟨.ok a, s, rfl, rfl⟩
  | .raise e, _, s => ⟨.error e, s, rfl, rfl⟩
  | .op c k, ⟨hc, hk⟩, s => by
    obtain ⟨i, x, s₁, hx⟩ := h s c hc
    obtain ⟨r, s', hr⟩ := exists_runs_each h (p := k x) (hk x) s₁
    exact ⟨r, s', i, x, s₁, hx, hr⟩

/-- On a store that never blocks every program has a run. -/
theorem exists_runs (h : ∀ s c, ∃ i x s', T.exec n i s c = some (x, s')) (p : Prog S ε α) (s : T.State) :
    ∃ r s', T.Runs n p s r s' :=
  T.exists_runs_each n (fun s c _ => h s c) (Prog.each_true p) s

/-- A run of `p >>= f` is a run of `p` followed by one of `f`, or ends with `p`'s exception. -/
theorem runs_bind {p : Prog S ε α} {f : α → Prog S ε β} {s s' : T.State} {r : Except ε β} :
    T.Runs n (p >>= f) s r s' ↔
      (∃ a s₁, T.Runs n p s (.ok a) s₁ ∧ T.Runs n (f a) s₁ r s') ∨
      ∃ e, T.Runs n p s (.error e) s' ∧ r = .error e := by
  induction p generalizing s with
  | ret a =>
    constructor
    · intro h
      exact Or.inl ⟨a, s, ⟨rfl, rfl⟩, h⟩
    · rintro (⟨b, s₁, ⟨hb, rfl⟩, h⟩ | ⟨e, ⟨he, -⟩, -⟩)
      · cases hb
        exact h
      · cases he
  | raise e =>
    constructor
    · rintro ⟨rfl, rfl⟩
      exact Or.inr ⟨e, ⟨rfl, rfl⟩, rfl⟩
    · rintro (⟨b, s₁, ⟨hb, -⟩, -⟩ | ⟨e', ⟨he, rfl⟩, rfl⟩)
      · cases hb
      · cases he
        exact ⟨rfl, rfl⟩
  | op c k ih =>
    constructor
    · rintro ⟨i, x, s₁, hx, h⟩
      rcases (ih x).mp h with ⟨a, s₂, hp, hf⟩ | ⟨e, hp, rfl⟩
      · exact Or.inl ⟨a, s₂, ⟨i, x, s₁, hx, hp⟩, hf⟩
      · exact Or.inr ⟨e, ⟨i, x, s₁, hx, hp⟩, rfl⟩
    · rintro (⟨a, s₂, ⟨i, x, s₁, hx, hp⟩, hf⟩ | ⟨e, ⟨i, x, s₁, hx, hp⟩, rfl⟩)
      · exact ⟨i, x, s₁, hx, (ih x).mpr (Or.inl ⟨a, s₂, hp, hf⟩)⟩
      · exact ⟨i, x, s₁, hx, (ih x).mpr (Or.inr ⟨e, hp, rfl⟩)⟩

/-- `try: p finally: q` runs `p`, then `q`; an exception of `q` is the outcome. -/
theorem runs_finally {p : Prog S ε α} {q : Prog S ε Unit} {s s' : T.State} {r : Except ε α} :
    T.Runs n (p.finally_ q) s r s' ↔ ∃ r₁ s₁, T.Runs n p s r₁ s₁ ∧
      (T.Runs n q s₁ (.ok ()) s' ∧ r = r₁ ∨ ∃ e, T.Runs n q s₁ (.error e) s' ∧ r = .error e) := by
  have hend : ∀ (x : Except ε α) (s : T.State), T.Runs n (q >>= fun _ => Prog.ofExcept x) s r s' ↔
      (T.Runs n q s (.ok ()) s' ∧ r = x ∨ ∃ e, T.Runs n q s (.error e) s' ∧ r = .error e) := by
    intro x s
    rw [runs_bind]
    refine or_congr ⟨?_, ?_⟩ Iff.rfl
    · rintro ⟨_, s₁, hq, hr⟩
      obtain ⟨rfl, rfl⟩ := (T.runs_ofExcept n x r s₁ s').mp hr
      exact ⟨hq, rfl⟩
    · rintro ⟨hq, rfl⟩
      exact ⟨(), s', hq, (T.runs_ofExcept n r r s' s').mpr ⟨rfl, rfl⟩⟩
  induction p generalizing s with
  | ret a =>
    rw [Prog.ret_finally]
    refine (hend (.ok a) s).trans ⟨fun h => ⟨.ok a, s, ⟨rfl, rfl⟩, h⟩, ?_⟩
    rintro ⟨r₁, s₁, ⟨rfl, rfl⟩, h⟩
    exact h
  | raise e =>
    rw [Prog.raise_finally]
    refine (hend (.error e) s).trans ⟨fun h => ⟨.error e, s, ⟨rfl, rfl⟩, h⟩, ?_⟩
    rintro ⟨r₁, s₁, ⟨rfl, rfl⟩, h⟩
    exact h
  | op c k ih =>
    constructor
    · rintro ⟨i, x, s₁, hx, h⟩
      obtain ⟨r₁, s₂, hp, hq⟩ := (ih x).mp h
      exact ⟨r₁, s₂, ⟨i, x, s₁, hx, hp⟩, hq⟩
    · rintro ⟨r₁, s₂, ⟨i, x, s₁, hx, hp⟩, hq⟩
      exact ⟨i, x, s₁, hx, (ih x).mpr ⟨r₁, s₂, hp, hq⟩⟩

/-- `try: p except e: f e`. -/
theorem runs_catch {p : Prog S ε α} {f : ε → Prog S ε α} {s s' : T.State} {r : Except ε α} :
    T.Runs n (p.catch_ f) s r s' ↔
      (∃ a, r = .ok a ∧ T.Runs n p s (.ok a) s') ∨ ∃ e s₁, T.Runs n p s (.error e) s₁ ∧ T.Runs n (f e) s₁ r s' := by
  induction p generalizing s with
  | ret a =>
    constructor
    · rintro ⟨rfl, rfl⟩
      exact Or.inl ⟨a, rfl, rfl, rfl⟩
    · rintro (⟨b, rfl, hb, rfl⟩ | ⟨e, s₁, ⟨he, -⟩, -⟩)
      · exact ⟨hb, rfl⟩
      · cases he
  | raise e =>
    constructor
    · exact fun h => Or.inr ⟨e, s, ⟨rfl, rfl⟩, h⟩
    · rintro (⟨b, rfl, hb, -⟩ | ⟨e', s₁, ⟨he, rfl⟩, h⟩)
      · cases hb
      · cases he
        exact h
  | op c k ih =>
    constructor
    · rintro ⟨i, x, s₁, hx, h⟩
      rcases (ih x).mp h with ⟨a, rfl, hp⟩ | ⟨e, s₂, hp, hf⟩
      · exact Or.inl ⟨a, rfl, i, x, s₁, hx, hp⟩
      · exact Or.inr ⟨e, s₂, ⟨i, x, s₁, hx, hp⟩, hf⟩
    · rintro (⟨a, rfl, i, x, s₁, hx, hp⟩ | ⟨e, s₂, ⟨i, x, s₁, hx, hp⟩, hf⟩)
      · exact ⟨i, x, s₁, hx, (ih x).mpr (Or.inl ⟨a, rfl, hp⟩)⟩
      · exact ⟨i, x, s₁, hx, (ih x).mpr (Or.inr ⟨e, s₂, hp, hf⟩)⟩

/-- A computation that returns `a` and changes nothing, and what follows it. -/
theorem runs_bind_of {p : Prog S ε α} {f : α → Prog S ε β} {a : α} {s s' : T.State}
    {r : Except ε β} (hp : ∀ x s₁, T.Runs n p s x s₁ ↔ x = .ok a ∧ s₁ = s) :
    T.Runs n (p >>= f) s r s' ↔ T.Runs n (f a) s r s' := by
  rw [runs_bind]
  constructor
  · rintro (⟨b, s₁, h, hr⟩ | ⟨e, h, -⟩)
    · obtain ⟨hb, rfl⟩ := (hp _ _).mp h
      cases hb
      exact hr
    · cases ((hp _ _).mp h).1
  · exact fun h => Or.inl ⟨a, s, (hp _ _).mpr ⟨rfl, rfl⟩, h⟩

end Store

end ClaudeSwarm.Interleave
