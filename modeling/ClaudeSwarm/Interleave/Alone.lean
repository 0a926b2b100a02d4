import ClaudeSwarm.Interleave.Prog

/-!
# Programs run alone

A program run alone may be killed between any two of its commands. `Reaches p s s'` says that `s'` is a
state in which it may have been killed, and `cut` computes one. `Safe I Q p s` says that all of these
satisfy `I`, and the outcome of `p` satisfies `Q`.

`Triple I A p R` is the judgement of a program logic for such programs: from every state with `I` and
`A`, every state on the way satisfies `I`, and `R` holds of what `p` returns. It composes as the
programs do (`triple_bind`, `triple_finally`, `triple_catch`).

`Ends I A p R` is the judgement about both outcomes: when `p` has returned or raised an exception, `R` holds.

* `Safe.reaches`, `Triple.runs`, `Ends.runs`: what the judgements say about runs.
-/

namespace ClaudeSwarm.Interleave.Store

variable {S : Sig} {ε α β : Type} (T : Store S) (n : Nat)

/-- `p`, run alone from `s`, goes through `s'`. -/
def Reaches : Prog S ε α → T.State → T.State → Prop
  | .ret _, s, s' => s' = s
  | .raise _, s, s' => s' = s
  | .op c k, s, s' => s' = s ∨ ∃ i x s₁, T.exec n i s c = some (x, s₁) ∧ Reaches (k x) s₁ s'

/-- The state in which `p` is killed after `k` commands, all under input `i`, or has ended or blocked
before. -/
def cut (i : T.Input) : Nat → Prog S ε α → T.State → T.State
  | k + 1, .op c f, s =>
    match T.exec n i s c with
    | some (x, s₁) => cut i k (f x) s₁
    | none => s
  | _, _, s => s

/-- Every state `p` goes through from `s` satisfies `I`, and its outcome `Q`. -/
def Safe (I : T.State → Prop) (Q : Except ε α → T.State → Prop) : Prog S ε α → T.State → Prop
  | .ret a, s => I s ∧ Q (.ok a) s
  | .raise e, s => I s ∧ Q (.error e) s
  | .op c k, s => I s ∧ ∀ i x s₁, T.exec n i s c = some (x, s₁) → Safe I Q (k x) s₁

/-- From `I` and `A`, every state `p` goes through satisfies `I`, and what it returns satisfies `R`. -/
def Triple (I A : T.State → Prop) (p : Prog S ε α) (R : α → T.State → Prop) : Prop :=
  ∀ s, I s → A s → T.Safe n I (fun r s => match r with
    | .ok a => R a s
    | .error _ => True) p s

/-- From `I` and `A`, every state `p` goes through satisfies `I`, and when it has ended, `R` holds of its outcome. -/
def Ends (I A : T.State → Prop) (p : Prog S ε α) (R : Except ε α → T.State → Prop) : Prop :=
  ∀ s, I s → A s → T.Safe n I R p s

theorem reaches_refl : ∀ (p : Prog S ε α) (s : T.State), T.Reaches n p s s
  | .ret _, _ => rfl
  | .raise _, _ => rfl
  | .op _ _, _ => Or.inl rfl

theorem reaches_cut (i : T.Input) : ∀ (k : Nat) (p : Prog S ε α) (s : T.State),
    T.Reaches n p s (T.cut n i k p s)
  | 0, p, s => by
    cases p <;> exact T.reaches_refl n _ s
  | _ + 1, .ret _, _ => rfl
  | _ + 1, .raise _, _ => rfl
  | k + 1, .op c f, s => by
    rw [cut]
    split
    · rename_i x s₁ hx
      exact Or.inr ⟨i, x, s₁, hx, reaches_cut i k (f x) s₁⟩
    · exact Or.inl rfl

theorem reaches_of_runs : ∀ {p : Prog S ε α} {s s' : T.State} {r : Except ε α}, T.Runs n p s r s' → T.Reaches n p s s'
  | .ret _, _, _, _, h => h.2
  | .raise _, _, _, _, h => h.2
  | .op _ _, _, _, _, ⟨i, x, s₁, hx, hr⟩ => Or.inr ⟨i, x, s₁, hx, reaches_of_runs hr⟩

/-- `p >>= f` goes through what `p` goes through, and after it what `f` does. -/
theorem reaches_bind {f : α → Prog S ε β} : ∀ {p : Prog S ε α} {s s' : T.State}, T.Reaches n (p >>= f) s s' ↔
    T.Reaches n p s s' ∨ ∃ a s₁, T.Runs n p s (.ok a) s₁ ∧ T.Reaches n (f a) s₁ s'
  | .ret a, s, s' => by
    constructor
    · exact fun h => Or.inr ⟨a, s, ⟨rfl, rfl⟩, h⟩
    · rintro (rfl | ⟨b, s₁, ⟨hb, rfl⟩, h⟩)
      · exact T.reaches_refl n (f a) s'
      · cases hb
        exact h
  | .raise e, s, s' => by
    constructor
    · exact Or.inl
    · rintro (h | ⟨b, s₁, ⟨hb, -⟩, -⟩)
      · exact h
      · cases hb
  | .op c k, s, s' => by
    constructor
    · rintro (rfl | ⟨i, x, s₁, hx, h⟩)
      · exact Or.inl (Or.inl rfl)
      · rcases (reaches_bind (p := k x)).mp h with h | ⟨a, s₂, hr, h⟩
        · exact Or.inl (Or.inr ⟨i, x, s₁, hx, h⟩)
        · exact Or.inr ⟨a, s₂, ⟨i, x, s₁, hx, hr⟩, h⟩
    · rintro ((rfl | ⟨i, x, s₁, hx, h⟩) | ⟨a, s₂, ⟨i, x, s₁, hx, hr⟩, h⟩)
      · exact Or.inl rfl
      · exact Or.inr ⟨i, x, s₁, hx, (reaches_bind (p := k x)).mpr (Or.inl h)⟩
      · exact Or.inr ⟨i, x, s₁, hx, (reaches_bind (p := k x)).mpr (Or.inr ⟨a, s₂, hr, h⟩)⟩

variable {T n} {I : T.State → Prop}

/-! ## Every state on the way -/

section Safe

variable {Q Q' : Except ε α → T.State → Prop} {s : T.State}

/-- **Wherever the program is killed, `I` holds.** -/
theorem Safe.reaches : ∀ {p : Prog S ε α} {s s' : T.State}, T.Safe n I Q p s →
    T.Reaches n p s s' → I s'
  | .ret _, _, _, h, hr => hr ▸ h.1
  | .raise _, _, _, h, hr => hr ▸ h.1
  | .op _ k, _, _, h, hr => by
    rcases hr with rfl | ⟨i, x, s₁, hx, hr⟩
    · exact h.1
    · exact Safe.reaches (p := k x) (h.2 i x s₁ hx) hr

/-- A program that ended. -/
theorem Safe.runs : ∀ {p : Prog S ε α} {s s' : T.State} {r : Except ε α}, T.Safe n I Q p s →
    T.Runs n p s r s' → Q r s'
  | .ret _, _, _, _, h, ⟨hr, hs⟩ => hr ▸ hs ▸ h.2
  | .raise _, _, _, _, h, ⟨hr, hs⟩ => hr ▸ hs ▸ h.2
  | .op _ k, _, _, _, h, ⟨i, x, s₁, hx, hr⟩ => Safe.runs (p := k x) (h.2 i x s₁ hx) hr

theorem safe_mono (hQ : ∀ r s, I s → Q r s → Q' r s) : ∀ {p : Prog S ε α} {s : T.State},
    T.Safe n I Q p s → T.Safe n I Q' p s
  | .ret _, _, h => ⟨h.1, hQ _ _ h.1 h.2⟩
  | .raise _, _, h => ⟨h.1, hQ _ _ h.1 h.2⟩
  | .op _ k, _, h => ⟨h.1, fun i x s₁ hx => safe_mono hQ (p := k x) (h.2 i x s₁ hx)⟩

theorem safe_mono_inv {I' : T.State → Prop} (hI : ∀ s, I s → I' s) : ∀ {p : Prog S ε α} {s : T.State},
    T.Safe n I Q p s → T.Safe n I' Q p s
  | .ret _, _, h => ⟨hI _ h.1, h.2⟩
  | .raise _, _, h => ⟨hI _ h.1, h.2⟩
  | .op _ k, _, h => ⟨hI _ h.1, fun i x s₁ hx => safe_mono_inv hI (p := k x) (h.2 i x s₁ hx)⟩

/-- Sequencing: `f` starts from what `p` returns, and an exception is the outcome. -/
theorem safe_bind {Q : Except ε β → T.State → Prop} {p : Prog S ε α} {f : α → Prog S ε β}
    (h : T.Safe n I (fun r s => match r with
      | .ok a => T.Safe n I Q (f a) s
      | .error e => Q (.error e) s) p s) : T.Safe n I Q (p >>= f) s := by
  induction p generalizing s with
  | ret a => exact h.2
  | raise e => exact h
  | op c k ih => exact ⟨h.1, fun i x s₁ hx => ih x (h.2 i x s₁ hx)⟩

/-- `try … finally`: the clean-up keeps `I` and the outcome. -/
theorem safe_finally {q : Prog S ε Unit} {p : Prog S ε α}
    (hq : ∀ r s, I s → Q r s → T.Safe n I (fun r' s => match r' with
      | .ok _ => Q r s
      | .error e => Q (.error e) s) q s)
    (h : T.Safe n I Q p s) : T.Safe n I Q (p.finally_ q) s := by
  have hend : ∀ (r : Except ε α) (s : T.State), I s → Q r s →
      T.Safe n I Q (q >>= fun _ => Prog.ofExcept r) s := by
    intro r s hI hr
    refine safe_bind (safe_mono (fun r' s hI h => ?_) (hq r s hI hr))
    cases r' with
    | error e => exact h
    | ok _ => cases r <;> exact ⟨hI, h⟩
  induction p generalizing s with
  | ret a => exact hend (.ok a) s h.1 h.2
  | raise e => exact hend (.error e) s h.1 h.2
  | op c k ih => exact ⟨h.1, fun i x s₁ hx => ih x (h.2 i x s₁ hx)⟩

/-- `try … except`: the handler starts from the exception. -/
theorem safe_catch {p : Prog S ε α} {f : ε → Prog S ε α}
    (h : T.Safe n I (fun r s => match r with
      | .ok a => Q (.ok a) s
      | .error e => T.Safe n I Q (f e) s) p s) : T.Safe n I Q (p.catch_ f) s := by
  induction p generalizing s with
  | ret a => exact h
  | raise e => exact h.2
  | op c k ih => exact ⟨h.1, fun i x s₁ hx => ih x (h.2 i x s₁ hx)⟩

end Safe

/-! ## Triples -/

variable {A A' : T.State → Prop} {R R' : α → T.State → Prop}

/-- **A run that returned.** -/
theorem Triple.runs {p : Prog S ε α} {s s' : T.State} {a : α} (h : T.Triple n I A p R) (hI : I s)
    (hA : A s) (hr : T.Runs n p s (.ok a) s') : R a s' :=
  Safe.runs (h s hI hA) hr

theorem triple_ret {a : α} (h : ∀ s, I s → A s → R a s) :
    T.Triple n I A (.ret a : Prog S ε α) R :=
  fun s hI hA => ⟨hI, h s hI hA⟩

theorem triple_raise {e : ε} : T.Triple n I A (.raise e : Prog S ε α) R :=
  fun _ hI _ => ⟨hI, trivial⟩

/-- Consequence. -/
theorem triple_mono {p : Prog S ε α} (hA : ∀ s, I s → A' s → A s) (hR : ∀ a s, I s → R a s → R' a s)
    (h : T.Triple n I A p R) : T.Triple n I A' p R' := by
  intro s hI hA'
  refine safe_mono (fun r s hI hr => ?_) (h s hI (hA s hI hA'))
  cases r with
  | ok a => exact hR a s hI hr
  | error e => trivial

/-- What does not depend on the state may be assumed. -/
theorem triple_assume {p : Prog S ε α} {a : Prop} (h : a → T.Triple n I A p R) :
    T.Triple n I (fun s => A s ∧ a) p R := fun s hI hA => h hA.2 s hI hA.1

theorem triple_bind {p : Prog S ε α} {f : α → Prog S ε β} {R' : β → T.State → Prop}
    (hp : T.Triple n I A p R) (hf : ∀ a, T.Triple n I (R a) (f a) R') :
    T.Triple n I A (p >>= f) R' := by
  intro s hI hA
  refine safe_bind (safe_mono (fun r s hI hr => ?_) (hp s hI hA))
  cases r with
  | ok a => exact hf a s hI hr
  | error e => trivial

/-- A command and what follows. -/
theorem triple_cmd {c : S.Cmd} {f : S.Resp c → Prog S ε α} (P : S.Resp c → T.State → Prop)
    (hc : ∀ i s x s', I s → A s → T.exec n i s c = some (x, s') → I s' ∧ P x s')
    (hf : ∀ x, T.Triple n I (P x) (f x) R) : T.Triple n I A (Prog.cmd c >>= f) R :=
  fun s hI hA => ⟨hI, fun i x s' hx =>
    hf x s' (hc i s x s' hI hA hx).1 (hc i s x s' hI hA hx).2⟩

/-- The clean-up keeps what `p` established. -/
theorem triple_finally {p : Prog S ε α} {q : Prog S ε Unit}
    (hq : ∀ P : T.State → Prop, (∃ a, P = R a) ∨ P = (fun _ => True) →
      T.Triple n I P q fun _ => P)
    (hp : T.Triple n I A p R) : T.Triple n I A (p.finally_ q) R := by
  intro s hI hA
  refine safe_finally (fun r s hI hr => ?_) (hp s hI hA)
  cases r with
  | ok a =>
    refine safe_mono (fun r' s _ hr' => ?_) (hq (R a) (Or.inl ⟨a, rfl⟩) s hI hr)
    cases r' with
    | ok _ => exact hr'
    | error e => trivial
  | error e =>
    refine safe_mono (fun r' s _ _ => ?_) (hq (fun _ => True) (Or.inr rfl) s hI trivial)
    cases r' <;> trivial

/-- The handler starts from any state with `I`. -/
theorem triple_catch {p : Prog S ε α} {f : ε → Prog S ε α} (hp : T.Triple n I A p R)
    (hf : ∀ e, T.Triple n I (fun _ => True) (f e) R) : T.Triple n I A (p.catch_ f) R := by
  intro s hI hA
  refine safe_catch (safe_mono (fun r s hI hr => ?_) (hp s hI hA))
  cases r with
  | ok a => exact hr
  | error e => exact hf e s hI trivial

/-- A program of commands that keep `I` and `A`. -/
theorem triple_each {ok : S.Cmd → Prop}
    (hok : ∀ c, ok c → ∀ i s x s', I s → A s → T.exec n i s c = some (x, s') → I s' ∧ A s') :
    ∀ {p : Prog S ε α}, p.Each ok → T.Triple n I A p fun _ => A
  | .ret _, _ => triple_ret fun _ _ h => h
  | .raise _, _ => triple_raise
  | .op c k, h => triple_cmd (f := k) (fun _ => A) (hok c h.1) fun x =>
    triple_each hok (p := k x) (h.2 x)

/-! ## Any end -/

section Ends

variable {Q Q' : Except ε α → T.State → Prop} {Q'' : Except ε β → T.State → Prop} {p : Prog S ε α}

theorem Ends.runs (h : T.Ends n I A p Q) {s s' : T.State} {r : Except ε α} (hI : I s) (hA : A s)
    (hr : T.Runs n p s r s') : Q r s' := Safe.runs (h s hI hA) hr

theorem ends_ret {a : α} (h : ∀ s, I s → A s → Q (.ok a) s) : T.Ends n I A (.ret a) Q :=
  fun s hI hA => ⟨hI, h s hI hA⟩

theorem ends_raise {e : ε} (h : ∀ s, I s → A s → Q (.error e) s) : T.Ends n I A (.raise e) Q :=
  fun s hI hA => ⟨hI, h s hI hA⟩

theorem ends_mono (hA : ∀ s, I s → A' s → A s) (hQ : ∀ r s, I s → Q r s → Q' r s) (h : T.Ends n I A p Q) :
    T.Ends n I A' p Q' :=
  fun s hI hs => safe_mono hQ (h s hI (hA s hI hs))

theorem ends_bind {f : α → Prog S ε β} (hp : T.Ends n I A p Q) (hok : ∀ a, T.Ends n I (Q (.ok a)) (f a) Q'')
    (herr : ∀ e s, I s → Q (.error e) s → Q'' (.error e) s) : T.Ends n I A (p >>= f) Q'' := by
  intro s hI hA
  refine safe_bind (safe_mono (fun r s hI hr => ?_) (hp s hI hA))
  cases r with
  | ok a => exact hok a s hI hr
  | error e => exact herr e s hI hr

theorem ends_catch {f : ε → Prog S ε α} (hp : T.Ends n I A p Q)
    (hok : ∀ a s, I s → Q (.ok a) s → Q' (.ok a) s) (hf : ∀ e, T.Ends n I (Q (.error e)) (f e) Q') :
    T.Ends n I A (p.catch_ f) Q' := by
  intro s hI hA
  refine safe_catch (safe_mono (fun r s hI hr => ?_) (hp s hI hA))
  cases r with
  | ok a => exact hok a s hI hr
  | error e => exact hf e s hI hr

/-- A command and what follows. -/
theorem ends_cmd {c : S.Cmd} {f : S.Resp c → Prog S ε α} (P : S.Resp c → T.State → Prop)
    (hc : ∀ i s x s', I s → A s → T.exec n i s c = some (x, s') → I s' ∧ P x s')
    (hf : ∀ x, T.Ends n I (P x) (f x) Q) : T.Ends n I A (Prog.cmd c >>= f) Q :=
  fun s hI hA => ⟨hI, fun i x s' hx => hf x s' (hc i s x s' hI hA hx).1 (hc i s x s' hI hA hx).2⟩

/-- A program of commands that keep `I` and `A`. -/
theorem ends_each {ok : S.Cmd → Prop}
    (hok : ∀ c, ok c → ∀ i s x s', I s → A s → T.exec n i s c = some (x, s') → I s' ∧ A s') :
    ∀ {p : Prog S ε α}, p.Each ok → T.Ends n I A p fun _ => A
  | .ret _, _ => ends_ret fun _ _ h => h
  | .raise _, _ => ends_raise fun _ _ h => h
  | .op c k, h => ends_cmd (f := k) (fun _ => A) (hok c h.1) fun x => ends_each hok (p := k x) (h.2 x)

end Ends

end ClaudeSwarm.Interleave.Store
