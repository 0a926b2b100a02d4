import Mathlib.Data.List.Basic

/-!
# Exclusive use, read off a history

A history is a list of events, newest first; `take e k` and `free e k` say that event `e` takes,
respectively gives back, key `k`. `Held k l` says that the last of these in `l` was a take, and
`Alternating k l` that no take in `l` found `k` held. A component that only takes a key it finds
free keeps `Alternating` (`alternating_cons`), and in an alternating history any two takes of a key
have a release of it between them (`separated`, and `apart_of_mem` for the takes of two callers).
`WithPast R l` says that every event of `l` stands in `R` to those before it.
-/

namespace ClaudeSwarm.Interleave

variable {E K : Type} (take free : E → K → Prop) (k : K)

/-- The last event of `l` on `k` took it. -/
def Held : List E → Prop
  | [] => False
  | e :: l => take e k ∨ (Held l ∧ ¬ free e k)

/-- No take of `k` in `l` found it held. -/
def Alternating : List E → Prop
  | [] => True
  | e :: l => Alternating l ∧ (take e k → ¬ Held take free k l)

/-- Every event of `l` and those before it are in `R`. -/
def WithPast (R : E → List E → Prop) : List E → Prop
  | [] => True
  | e :: l => R e l ∧ WithPast R l

/-- Where the events are in `A`, what is the same there is the same for the history. -/
theorem withPast_congr {A R R' : E → List E → Prop} (h : ∀ e l, A e l → (R e l ↔ R' e l)) :
    ∀ {l : List E}, WithPast A l → (WithPast R l ↔ WithPast R' l)
  | [], _ => Iff.rfl
  | e :: l, hl => and_congr (h e l hl.1) (withPast_congr h hl.2)

instance decidableHeld [∀ e, Decidable (take e k)] [∀ e, Decidable (free e k)] :
    ∀ l : List E, Decidable (Held take free k l)
  | [] => isFalse id
  | e :: l =>
    haveI := decidableHeld l
    inferInstanceAs (Decidable (take e k ∨ (Held take free k l ∧ ¬ free e k)))

variable {take free k}

theorem alternating_cons {e : E} {l : List E} (h : Alternating take free k l)
    (ht : take e k → ¬ Held take free k l) : Alternating take free k (e :: l) := ⟨h, ht⟩

/-- An event that neither takes nor frees `k` does not change who holds it. -/
theorem held_cons_iff {e : E} {l : List E} (ht : ¬ take e k) (hf : ¬ free e k) :
    Held take free k (e :: l) ↔ Held take free k l := by
  simp [Held, ht, hf]

theorem alternating_suffix {l : List E} :
    ∀ {a : List E}, Alternating take free k (a ++ l) → Alternating take free k l
  | [], h => h
  | _ :: _, h => alternating_suffix h.1

/-- A take not followed by a release still holds. -/
theorem held_append {l : List E} (h : Held take free k l) :
    ∀ {b : List E}, (∀ e ∈ b, ¬ free e k) → Held take free k (b ++ l)
  | [], _ => h
  | e :: _, hb => Or.inr
    ⟨held_append h fun e' he' => hb e' (List.mem_cons_of_mem e he'), hb e List.mem_cons_self⟩

/-- **Two takes are separated by a release.** -/
theorem separated {a b c : List E} {e₁ e₂ : E}
    (h : Alternating take free k (a ++ e₂ :: (b ++ e₁ :: c))) (h₁ : take e₁ k) (h₂ : take e₂ k) :
    ∃ e ∈ b, free e k := by
  by_contra hb
  have hheld : Held take free k (e₁ :: c) := Or.inl h₁
  exact (alternating_suffix h).2 h₂
    (held_append hheld fun e he hf => hb ⟨e, he, hf⟩)

/-- `n` and `m` took `k`, and it was released in between. -/
def Apart (take free : E → K → Prop) (who : E → Nat) (k : K) (n m : Nat) (l : List E) : Prop :=
  ∃ a e₂ b e₁ c, l = a ++ e₂ :: (b ++ e₁ :: c) ∧ take e₁ k ∧ take e₂ k ∧
    (who e₁ = n ∧ who e₂ = m ∨ who e₁ = m ∧ who e₂ = n) ∧ ∃ e ∈ b, free e k

theorem apart_of_mem {who : E → Nat} {n m : Nat} {l : List E} {e e' : E}
    (h : Alternating take free k l) (hnm : n ≠ m) (he : e ∈ l) (he' : e' ∈ l) (ht : take e k)
    (ht' : take e' k) (hn : who e = n) (hm : who e' = m) : Apart take free who k n m l := by
  obtain ⟨a, r, rfl⟩ := List.append_of_mem he
  have hne : e' ≠ e := fun heq => hnm (hn.symm.trans (heq ▸ hm))
  rw [List.mem_append, List.mem_cons] at he'
  rcases he' with he' | rfl | he'
  · obtain ⟨a, b, rfl⟩ := List.append_of_mem he'
    have hl : a ++ e' :: b ++ e :: r = a ++ e' :: (b ++ e :: r) := by simp
    rw [hl] at h ⊢
    exact ⟨a, e', b, e, r, rfl, ht, ht', Or.inl ⟨hn, hm⟩, separated h ht ht'⟩
  · exact absurd rfl hne
  · obtain ⟨b, c, rfl⟩ := List.append_of_mem he'
    exact ⟨a, e, b, e', c, rfl, ht', ht, Or.inr ⟨hm, hn⟩, separated h ht' ht⟩

end ClaudeSwarm.Interleave
