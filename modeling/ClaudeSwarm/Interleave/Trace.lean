import ClaudeSwarm.Interleave.Prog

/-!
# Traces

What a program did, as the list of its commands with the replies to them. `Prog.Goes p l r` is about the program
alone: with these replies it issues these commands and ends with `r`. `Store.Plays s l s'` is about the store
alone: from `s` these are replies it may give. A run is both (`runs_iff`). A property that does not depend on what
the store holds is proved of `Goes`.

* `goes_bind`: a trace of `p >>= f` is one of `p` followed by one of `f`.
* `Store.Can`: a program has a run, from whatever state, whose trace has a property.
* `Store.play`: the trace with one given input for each command.
-/

namespace ClaudeSwarm.Interleave

/-- A command and the reply to it. -/
abbrev Entry (S : Sig) := (c : S.Cmd) × S.Resp c

namespace Prog

variable {S : Sig} {ε α β : Type}

/-- With the replies in `l` the program issues the commands in `l` and ends with `r`. -/
def Goes : Prog S ε α → List (Entry S) → Except ε α → Prop
  | .ret a, l, r => l = [] ∧ r = .ok a
  | .raise e, l, r => l = [] ∧ r = .error e
  | .op c k, l, r => ∃ x l', l = ⟨c, x⟩ :: l' ∧ Goes (k x) l' r

theorem goes_cmd {c : S.Cmd} {f : S.Resp c → Prog S ε α} {l : List (Entry S)} {r : Except ε α} :
    (cmd c >>= f).Goes l r ↔ ∃ x l', l = ⟨c, x⟩ :: l' ∧ (f x).Goes l' r := Iff.rfl

/-- Sequencing: the trace splits, unless `p` ended with an exception. -/
theorem goes_bind {p : Prog S ε α} {f : α → Prog S ε β} {l : List (Entry S)} {r : Except ε β} :
    (p >>= f).Goes l r ↔
      (∃ a l₁ l₂, l = l₁ ++ l₂ ∧ p.Goes l₁ (.ok a) ∧ (f a).Goes l₂ r) ∨ ∃ e, p.Goes l (.error e) ∧ r = .error e := by
  induction p generalizing l with
  | ret a =>
    constructor
    · exact fun h => Or.inl ⟨a, [], l, rfl, ⟨rfl, rfl⟩, h⟩
    · rintro (⟨b, l₁, l₂, rfl, ⟨rfl, hb⟩, h⟩ | ⟨e, ⟨-, he⟩, -⟩)
      · cases hb
        exact h
      · cases he
  | raise e =>
    constructor
    · rintro ⟨rfl, rfl⟩
      exact Or.inr ⟨e, ⟨rfl, rfl⟩, rfl⟩
    · rintro (⟨b, l₁, l₂, rfl, ⟨-, hb⟩, -⟩ | ⟨e', ⟨rfl, he⟩, rfl⟩)
      · cases hb
      · cases he
        exact ⟨rfl, rfl⟩
  | op c k ih =>
    constructor
    · rintro ⟨x, l', rfl, h⟩
      rcases (ih x).mp h with ⟨a, l₁, l₂, rfl, hp, hf⟩ | ⟨e, hp, rfl⟩
      · exact Or.inl ⟨a, ⟨c, x⟩ :: l₁, l₂, rfl, ⟨x, l₁, rfl, hp⟩, hf⟩
      · exact Or.inr ⟨e, ⟨x, l', rfl, hp⟩, rfl⟩
    · rintro (⟨a, l₁, l₂, rfl, ⟨x, l', rfl, hp⟩, hf⟩ | ⟨e, ⟨x, l', rfl, hp⟩, rfl⟩)
      · exact ⟨x, l' ++ l₂, rfl, (ih x).mpr (Or.inl ⟨a, l', l₂, rfl, hp, hf⟩)⟩
      · exact ⟨x, l', rfl, (ih x).mpr (Or.inr ⟨e, hp, rfl⟩)⟩

/-- A program ends where its commands are answered: no trace of it goes on where another one has ended. -/
theorem Goes.unique {p : Prog S ε α} : ∀ {l₁ l₂ m₁ m₂ : List (Entry S)} {r₁ r₂ : Except ε α}, p.Goes l₁ r₁ →
    p.Goes l₂ r₂ → l₁ ++ m₁ = l₂ ++ m₂ → l₁ = l₂ ∧ r₁ = r₂ := by
  induction p with
  | ret a =>
    rintro _ _ m₁ m₂ _ _ ⟨rfl, rfl⟩ ⟨rfl, rfl⟩ _
    exact ⟨rfl, rfl⟩
  | raise e =>
    rintro _ _ m₁ m₂ _ _ ⟨rfl, rfl⟩ ⟨rfl, rfl⟩ _
    exact ⟨rfl, rfl⟩
  | op c k ih =>
    rintro _ _ m₁ m₂ r₁ r₂ ⟨x, l, rfl, h⟩ ⟨x', l', rfl, h'⟩ he
    obtain ⟨hx, hrest⟩ := List.cons.inj he
    obtain rfl : x = x' := eq_of_heq (Sigma.mk.inj hx).2
    obtain ⟨rfl, hr⟩ := ih x h h' hrest
    exact ⟨rfl, hr⟩

/-- What follows a part that has returned. -/
theorem goes_of_bind {p : Prog S ε α} {f : α → Prog S ε β} {l₁ l₂ : List (Entry S)} {a : α} {r : Except ε β}
    (h : (p >>= f).Goes (l₁ ++ l₂) r) (hp : p.Goes l₁ (.ok a)) : (f a).Goes l₂ r := by
  rcases goes_bind.mp h with ⟨b, m₁, m₂, he, hb, hf⟩ | ⟨e, he, -⟩
  · obtain ⟨rfl, hab⟩ := hp.unique hb he
    cases hab
    rwa [List.append_cancel_left he]
  · have hsplit : l₁ ++ l₂ = (l₁ ++ l₂) ++ [] := (List.append_nil _).symm
    cases (hp.unique he hsplit).2

/-- The commands of a trace are commands of the program. -/
theorem Each.goes {ok : S.Cmd → Prop} {p : Prog S ε α} (hp : p.Each ok) {l : List (Entry S)} {r : Except ε α}
    (h : p.Goes l r) : ∀ e ∈ l, ok e.1 := by
  induction p generalizing l with
  | ret a =>
    rw [h.1]
    exact fun _ he => absurd he List.not_mem_nil
  | raise e =>
    rw [h.1]
    exact fun _ he => absurd he List.not_mem_nil
  | op c k ih =>
    obtain ⟨x, l', rfl, h'⟩ := h
    intro e he
    rcases List.mem_cons.mp he with rfl | he
    · exact hp.1
    · exact ih x (hp.2 x) h' e he

end Prog

namespace Store

variable {S : Sig} {ε α β : Type} (T : Store S) (n : Nat)

/-- From `s` the store may give the replies of `l`, and is then in `s'`. -/
def Plays : T.State → List (Entry S) → T.State → Prop
  | s, [], s' => s' = s
  | s, e :: l, s' => ∃ i s₁, T.exec n i s e.1 = some (e.2, s₁) ∧ Plays s₁ l s'

theorem plays_append {l₁ l₂ : List (Entry S)} {s s' : T.State} :
    T.Plays n s (l₁ ++ l₂) s' ↔ ∃ s₁, T.Plays n s l₁ s₁ ∧ T.Plays n s₁ l₂ s' := by
  induction l₁ generalizing s with
  | nil => exact ⟨fun h => ⟨s, rfl, h⟩, fun ⟨_, hs, h⟩ => hs ▸ h⟩
  | cons e l₁ ih =>
    constructor
    · rintro ⟨i, s₁, hx, h⟩
      obtain ⟨s₂, h₁, h₂⟩ := ih.mp h
      exact ⟨s₂, ⟨i, s₁, hx, h₁⟩, h₂⟩
    · rintro ⟨s₂, ⟨i, s₁, hx, h₁⟩, h₂⟩
      exact ⟨i, s₁, hx, ih.mpr ⟨s₂, h₁, h₂⟩⟩

/-- **Runs.** A run is a trace of the program that the store plays. -/
theorem runs_iff {p : Prog S ε α} {s s' : T.State} {r : Except ε α} :
    T.Runs n p s r s' ↔ ∃ l, p.Goes l r ∧ T.Plays n s l s' := by
  induction p generalizing s with
  | ret a =>
    constructor
    · rintro ⟨rfl, rfl⟩
      exact ⟨[], ⟨rfl, rfl⟩, rfl⟩
    · rintro ⟨l, ⟨rfl, rfl⟩, h⟩
      exact ⟨rfl, h⟩
  | raise e =>
    constructor
    · rintro ⟨rfl, rfl⟩
      exact ⟨[], ⟨rfl, rfl⟩, rfl⟩
    · rintro ⟨l, ⟨rfl, rfl⟩, h⟩
      exact ⟨rfl, h⟩
  | op c k ih =>
    constructor
    · rintro ⟨i, x, s₁, hx, h⟩
      obtain ⟨l, hg, hp⟩ := (ih x).mp h
      exact ⟨⟨c, x⟩ :: l, ⟨x, l, rfl, hg⟩, i, s₁, hx, hp⟩
    · rintro ⟨_, ⟨x, l, rfl, hg⟩, i, s₁, hx, hp⟩
      exact ⟨i, x, s₁, hx, (ih x).mpr ⟨l, hg, hp⟩⟩

/-- From every state `p` has a run that returns, whose value and trace satisfy `R`. -/
def Can (p : Prog S ε α) (R : α → List (Entry S) → Prop) : Prop :=
  ∀ s, ∃ a l s', p.Goes l (.ok a) ∧ T.Plays n s l s' ∧ R a l

variable {T n}

theorem can_ret {a : α} {R : α → List (Entry S) → Prop} (h : R a []) : T.Can n (.ret a : Prog S ε α) R :=
  fun s => ⟨a, [], s, ⟨rfl, rfl⟩, rfl, h⟩

theorem can_mono {p : Prog S ε α} {R R' : α → List (Entry S) → Prop} (h : T.Can n p R)
    (hR : ∀ a l, R a l → R' a l) : T.Can n p R' := by
  intro s
  obtain ⟨a, l, s', hg, hp, hr⟩ := h s
  exact ⟨a, l, s', hg, hp, hR a l hr⟩

theorem can_bind {p : Prog S ε α} {f : α → Prog S ε β} {R : α → List (Entry S) → Prop}
    {R' : β → List (Entry S) → Prop} (hp : T.Can n p R)
    (hf : ∀ a l₁, R a l₁ → T.Can n (f a) fun b l₂ => R' b (l₁ ++ l₂)) : T.Can n (p >>= f) R' := by
  intro s
  obtain ⟨a, l₁, s₁, hg₁, hp₁, hr₁⟩ := hp s
  obtain ⟨b, l₂, s₂, hg₂, hp₂, hr₂⟩ := hf a l₁ hr₁ s₁
  exact ⟨b, l₁ ++ l₂, s₂, Prog.goes_bind.mpr (Or.inl ⟨a, l₁, l₂, rfl, hg₁, hg₂⟩),
    (T.plays_append n).mpr ⟨s₁, hp₁, hp₂⟩, hr₂⟩

/-- A command with a reply that the store may give in every state. -/
theorem can_cmd {c : S.Cmd} {f : S.Resp c → Prog S ε α} {R : α → List (Entry S) → Prop} {P : S.Resp c → Prop}
    (hc : ∀ s, ∃ i x s', T.exec n i s c = some (x, s') ∧ P x)
    (hf : ∀ x, P x → T.Can n (f x) fun a l => R a (⟨c, x⟩ :: l)) : T.Can n (Prog.cmd c >>= f) R := by
  intro s
  obtain ⟨i, x, s₁, hx, hP⟩ := hc s
  obtain ⟨a, l, s', hg, hp, hr⟩ := hf x hP s₁
  exact ⟨a, ⟨c, x⟩ :: l, s', ⟨x, l, rfl, hg⟩, ⟨i, s₁, hx, hp⟩, hr⟩

variable (T n)

/-- The trace, the outcome and the state after it, with one given input for each command. -/
def play : Prog S ε α → List T.Input → T.State → Option (List (Entry S) × Except ε α × T.State)
  | .ret a, _, s => some ([], .ok a, s)
  | .raise e, _, s => some ([], .error e, s)
  | .op _ _, [], _ => none
  | .op c k, i :: is, s =>
    match T.exec n i s c with
    | some (x, s₁) => (play (k x) is s₁).map fun q => (⟨c, x⟩ :: q.1, q.2)
    | none => none

theorem goes_of_play : ∀ {p : Prog S ε α} {is : List T.Input} {s s' : T.State} {l : List (Entry S)}
    {r : Except ε α}, T.play n p is s = some (l, r, s') → p.Goes l r ∧ T.Plays n s l s'
  | .ret _, _, _, _, _, _, h => by
    cases h
    exact ⟨⟨rfl, rfl⟩, rfl⟩
  | .raise _, _, _, _, _, _, h => by
    cases h
    exact ⟨⟨rfl, rfl⟩, rfl⟩
  | .op _ _, [], _, _, _, _, h => nomatch h
  | .op c k, i :: is, s, s', l, r, h => by
    rw [play] at h
    split at h
    · rename_i x s₁ hx
      obtain ⟨⟨_, _, _⟩, hq, he⟩ := Option.map_eq_some_iff.mp h
      cases he
      obtain ⟨hg, hp⟩ := @goes_of_play (k x) is _ _ _ _ hq
      exact ⟨⟨x, _, rfl, hg⟩, i, s₁, hx, hp⟩
    · cases h

end Store

end ClaudeSwarm.Interleave
