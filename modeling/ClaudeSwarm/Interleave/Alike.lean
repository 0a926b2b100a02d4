import ClaudeSwarm.Interleave.Parallel

/-!
# Two runs side by side

When may two runs be told apart? `cv` is what is seen of a command and `rv` what is seen of its reply. `Alike R p q`
says that the programs issue commands that look alike, go on alike after replies that look alike, and end with
outcomes in `R`. It composes as the programs do.

* **`Alike.goes`**: two runs with answers that look alike have commands that look alike.
* `alike_bind`, `alike_par`: sequencing and threads.
-/

namespace ClaudeSwarm.Interleave

namespace Prog

variable {S : Sig} {ε α β α' β' κ V W : Type} (cv : S.Cmd → V) (rv : Entry S → W)

/-- The two programs do what looks alike and end with values in `R`. -/
inductive Alike (R : α → β → Prop) : Prog S ε α → Prog S ε β → Prop
  | ret {a : α} {b : β} (h : R a b) : Alike R (.ret a) (.ret b)
  | raise (e : ε) : Alike R (.raise e) (.raise e)
  | op {c c' : S.Cmd} {k : S.Resp c → Prog S ε α} {k' : S.Resp c' → Prog S ε β} (hc : cv c = cv c')
    (hk : ∀ x x', rv ⟨c, x⟩ = rv ⟨c', x'⟩ → Alike R (k x) (k' x')) : Alike R (.op c k) (.op c' k')

variable {cv rv} {R : α → β → Prop} {R' : α' → β' → Prop} {p : Prog S ε α} {q : Prog S ε β}

theorem alike_bind {f : α → Prog S ε α'} {g : β → Prog S ε β'} (hp : Alike cv rv R p q)
    (hf : ∀ a b, R a b → Alike cv rv R' (f a) (g b)) : Alike cv rv R' (p >>= f) (q >>= g) := by
  induction hp with
  | ret h => exact hf _ _ h
  | raise e => exact .raise e
  | op hc _ ih => exact .op hc fun x x' hx => ih x x' hx

theorem alike_cmd {c c' : S.Cmd} {f : S.Resp c → Prog S ε α} {g : S.Resp c' → Prog S ε β} (hc : cv c = cv c')
    (hf : ∀ x x', rv ⟨c, x⟩ = rv ⟨c', x'⟩ → Alike cv rv R (f x) (g x')) :
    Alike cv rv R (cmd c >>= f) (cmd c' >>= g) := .op hc hf

/-- **Two runs.** From one state, with answers (`ans`) that look alike, two such programs issue commands that look
alike, if this is so for one command. -/
theorem Alike.goes {T : Store S} {n : Nat} {A : Type} {ans : Entry S → A} (h : Alike cv rv R p q)
    (hstep : ∀ {c c' i i' s x x' s₁ s₁'}, cv c = cv c' → T.exec n i s c = some (x, s₁) →
      T.exec n i' s c' = some (x', s₁') → ans ⟨c, x⟩ = ans ⟨c', x'⟩ → rv ⟨c, x⟩ = rv ⟨c', x'⟩ ∧ s₁ = s₁')
    {l l' : List (Entry S)} {r : Except ε α} {r' : Except ε β} {s s₁ s₁' : T.State} (hp : p.Goes l r)
    (hq : q.Goes l' r') (hpl : T.Plays n s l s₁) (hql : T.Plays n s l' s₁') (hl : l.map ans = l'.map ans) :
    l.map (fun e => cv e.1) = l'.map fun e => cv e.1 := by
  induction h generalizing l l' s with
  | ret _ => rw [hp.1, hq.1]
  | raise _ => rw [hp.1, hq.1]
  | op hc _ ih =>
    obtain ⟨x, l₁, rfl, h₁⟩ := hp
    obtain ⟨x', l₁', rfl, h₁'⟩ := hq
    obtain ⟨i, s₂, hx, hpl⟩ := hpl
    obtain ⟨i', s₂', hx', hql⟩ := hql
    obtain ⟨hans, hrest⟩ := List.cons.inj hl
    obtain ⟨hrv, rfl⟩ := hstep hc hx hx' hans
    rw [List.map_cons, List.map_cons, ih x x' hrv h₁ h₁' hpl hql hrest, hc]

theorem forall₂_eraseIdx {A B : Type} {Q : A → B → Prop} {as : List A} {bs : List B} (h : List.Forall₂ Q as bs)
    (j : Nat) : List.Forall₂ Q (as.eraseIdx j) (bs.eraseIdx j) := by
  rw [List.eraseIdx_eq_take_drop_succ, List.eraseIdx_eq_take_drop_succ]
  exact List.rel_append (List.forall₂_take j h) (List.forall₂_drop (j + 1) h)

theorem forall₂_set {A B : Type} {Q : A → B → Prop} {as : List A} {bs : List B} (h : List.Forall₂ Q as bs) {a : A}
    {b : B} (hab : Q a b) : ∀ j, List.Forall₂ Q (as.set j a) (bs.set j b) := by
  induction h with
  | nil => exact fun _ => .nil
  | cons hq hqs ih =>
    intro j
    cases j with
    | zero => exact .cons hab hqs
    | succ j => exact .cons hq (ih j)

/-- The threads of two pools, of one name and alike. -/
def AlikeThreads (cv : S.Cmd → V) (rv : Entry S → W) (R : α → β → Prop) :
    List (κ × Prog S ε α) → List (κ × Prog S ε β) → Prop :=
  List.Forall₂ fun t t' => t.1 = t'.1 ∧ Alike cv rv R t.2 t'.2

/-- Threads that are alike, run together. -/
theorem alike_par {pick : Prog S ε Nat} {deliver : α' → κ → α → Prog S ε α'} {deliver' : β' → κ → β → Prog S ε β'}
    (hpick : Alike cv rv (· = ·) pick pick)
    (hdeliver : ∀ {b b' name a a'}, R' b b' → R a a' →
      Alike cv rv R' (deliver b name a) (deliver' b' name a')) :
    ∀ {fuel : Nat} {ts : List (κ × Prog S ε α)} {ts' : List (κ × Prog S ε β)} {b : α'} {b' : β'},
      AlikeThreads cv rv R ts ts' → R' b b' →
      Alike cv rv R' (par pick deliver fuel ts b) (par pick deliver' fuel ts' b') := by
  intro fuel
  induction fuel with
  | zero => exact fun _ hb => .ret hb
  | succ fuel ih =>
    intro ts ts' b b' hts hb
    cases hts with
    | nil => exact .ret hb
    | @cons t t' ts ts' ht hts =>
      rw [par, par]
      refine alike_bind hpick fun i j hij => ?_
      subst hij
      dsimp only
      have hall : AlikeThreads cv rv R (t :: ts) (t' :: ts') := .cons ht hts
      rw [← hts.length_eq]
      have hlt : i % (ts.length + 1) < (t :: ts).length := Nat.mod_lt _ (Nat.succ_pos _)
      have hlt' : i % (ts.length + 1) < (t' :: ts').length := hall.length_eq ▸ hlt
      obtain ⟨hname, halike⟩ := hall.get hlt hlt'
      rw [List.getElem?_eq_getElem hlt, List.getElem?_eq_getElem hlt']
      simp only [List.get_eq_getElem] at hname halike
      generalize (t :: ts)[i % (ts.length + 1)] = u at hname halike ⊢
      generalize (t' :: ts')[i % (ts.length + 1)] = u' at hname halike ⊢
      obtain ⟨name, p⟩ := u
      obtain ⟨name', q⟩ := u'
      obtain rfl : name = name' := hname
      cases halike with
      | ret h => exact alike_bind (hdeliver hb h) fun _ _ hb' => ih (forall₂_eraseIdx hall _) hb'
      | raise e => exact .raise e
      | op hc hk => exact .op hc fun x x' hx => ih (forall₂_set hall ⟨rfl, hk x x' hx⟩ _) hb

end Prog

end ClaudeSwarm.Interleave
