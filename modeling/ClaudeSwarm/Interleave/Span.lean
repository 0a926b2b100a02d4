import ClaudeSwarm.Interleave.History
import ClaudeSwarm.Interleave.Outline

/-!
# Calls in the middle of a change

Some changes take a call several commands; `opens e k` and `closes e k` say that event `e` begins,
respectively ends, the change of `k`. `Open opens closes n k w` says that call `n` is in the middle of
changing `k`. Whether it is depends on its own commands only, so `OpenIn`, which bounds what a call
has open, is stable. `not_open_of_quiescent`: when no call is in progress, and every call ends with
nothing open, nothing is.

`Concludes last p` says that after a command that meets `last` the program `p` only returns;
`run_concludes`: a call that has executed such a command has returned.
-/

namespace ClaudeSwarm.Interleave

variable {M : System} {K : Type} (opens closes : Event M → K → Prop)

/-- Call `n` has begun a change of `k` and not ended it. -/
def Open (n : Nat) (k : K) (w : World M) : Prop := Held opens closes k (mine n w)

/-- Call `n` is in the middle of changes in `S` only. -/
def OpenIn (S : Set K) (n : Nat) (w : World M) : Prop := ∀ k, Open opens closes n k w → k ∈ S

variable {opens closes} {n : Nat} {w w' : World M} {e : Event M}

theorem open_own (hf : Fires w e w') (k : K) :
    Open opens closes e.call k w' ↔ opens e k ∨ (Open opens closes e.call k w ∧ ¬ closes e k) := by
  rw [Open, mine_own hf rfl]
  rfl

theorem open_other (hf : Fires w e w') (hn : e.call ≠ n) (k : K) :
    Open opens closes n k w' ↔ Open opens closes n k w := by
  rw [Open, mine_other hf hn]
  rfl

/-- An event that begins and ends nothing on `k`. -/
theorem open_same (hf : Fires w e w') {k : K} (ho : ¬ opens e k) (hc : ¬ closes e k) (n : Nat) :
    Open opens closes n k w' ↔ Open opens closes n k w := by
  by_cases hn : e.call = n
  · subst hn
    rw [open_own hf]
    simp [ho, hc]
  · exact open_other hf hn k

theorem openIn_of_untouched {S : Set K} (h : Untouched n w) : OpenIn opens closes S n w := by
  intro k hk
  rw [Open, show mine n w = [] from h] at hk
  exact hk.elim

theorem stable_openIn {D : Discipline M} {S : Set K} : Stable D n (OpenIn opens closes S n) := by
  intro w e w' hn _ _ _ hf _ h k hk
  exact h k ((open_other hf hn k).mp hk)

/-- When no call is in progress nothing is open, if every call ends with nothing open. -/
theorem not_open_of_quiescent {D : Discipline M} {G : Guard M} {s : M.store.State} {c : Config M}
    (hsound : Sound D (fun n _ _ => OpenIn opens closes ∅ n) c) (h : Run G (.init s) c)
    (hq : c.Quiescent) (n : Nat) (k : K) : ¬ Open opens closes n k c.world := by
  intro hk
  cases hn : c.proc n with
  | none =>
    have hin : OpenIn opens closes ∅ n c.world := openIn_of_untouched (untouched_of_run h hn)
    exact hin k hk
  | some call =>
    obtain ⟨r, hr⟩ := hq.ended hn
    exact hsound.ended hr k hk

/-! ## Last commands -/

/-- After a command that meets `last` the program only returns. -/
def Prog.Concludes {S : Sig} {ε α : Type} (last : S.Cmd → Prop) : Prog S ε α → Prop
  | .ret _ => True
  | .raise _ => True
  | .op c k => (last c → ∀ x, ∃ a, k x = .ret a) ∧ ∀ x, Concludes last (k x)

theorem Prog.concludes_bind {S : Sig} {ε α β : Type} {last : S.Cmd → Prop} {f : α → Prog S ε β}
    (hf : ∀ a, (f a).Concludes last) :
    ∀ {p : Prog S ε α}, p.Each (fun c => ¬ last c) → (p >>= f).Concludes last
  | .ret a, _ => hf a
  | .raise _, _ => trivial
  | .op _ k, ⟨hc, hk⟩ => ⟨fun h => absurd h hc, fun x => concludes_bind hf (p := k x) (hk x)⟩

/-- Where no command is a last one. -/
theorem Prog.concludes_of_each {S : Sig} {ε α : Type} {last : S.Cmd → Prop} :
    ∀ {p : Prog S ε α}, p.Each (fun c => ¬ last c) → p.Concludes last
  | .ret _, _ => trivial
  | .raise _, _ => trivial
  | .op _ k, ⟨hc, hk⟩ => ⟨fun h => absurd h hc, fun x => concludes_of_each (p := k x) (hk x)⟩

/-- **A call that has executed its last command has returned.** -/
theorem run_concludes {last : M.Op → M.sig.Cmd → Prop} (hlast : ∀ o, (M.prog o).Concludes (last o)) {G : Guard M}
    {s : M.store.State} {c : Config M} (h : Run G (.init s) c) :
    ∀ e ∈ c.world.trace, last e.op e.cmd → ∃ a, c.Returned e.call e.op a := by
  have hinv : (∀ n o p, c.proc n = some ⟨o, p⟩ → p.Concludes (last o)) ∧
      ∀ e ∈ c.world.trace, last e.op e.cmd → ∃ a, c.Returned e.call e.op a := by
    induction h with
    | refl => exact ⟨fun n o p hp => by simp [Config.init] at hp, fun e he => absurd he List.not_mem_nil⟩
    | @start c n o hrun hn ih =>
      refine ⟨fun m o' p hp => ?_, fun e he hl => ?_⟩
      · by_cases hm : m = n
        · subst hm
          simp only [Config.start, Function.update_self] at hp
          cases hp
          exact hlast o
        · simp only [Config.start, Function.update_of_ne hm] at hp
          exact ih.1 m o' p hp
      · obtain ⟨a, ha⟩ := ih.2 e he hl
        have hne : e.call ≠ n := fun hc => by
          rw [Config.Returned, hc, hn] at ha
          cases ha
        exact ⟨a, by simpa only [Config.Returned, Config.start, Function.update_of_ne hne] using ha⟩
    | @step c n o cmd k x w' hrun hn hg hf ih =>
      have hcode := ih.1 n o _ hn
      refine ⟨fun m o' p hp => ?_, fun e he hl => ?_⟩
      · by_cases hm : m = n
        · subst hm
          simp only [Function.update_self] at hp
          cases hp
          exact hcode.2 x
        · simp only [Function.update_of_ne hm] at hp
          exact ih.1 m o' p hp
      · rw [hf.2, List.mem_cons] at he
        rcases he with rfl | he
        · obtain ⟨a, ha⟩ := hcode.1 hl x
          exact ⟨a, (Function.update_self _ _ _).trans (ha ▸ rfl)⟩
        · obtain ⟨a, ha⟩ := ih.2 e he hl
          have hne : e.call ≠ n := fun hc => by
            rw [Config.Returned, hc, hn] at ha
            cases ha
          exact ⟨a, by simpa only [Config.Returned, Function.update_of_ne hne] using ha⟩
  exact hinv.2

end ClaudeSwarm.Interleave
