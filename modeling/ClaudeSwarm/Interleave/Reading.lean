import ClaudeSwarm.Interleave.Outline

/-!
# Calls that only read

A call that reads a store piece by piece may see pieces of different states. A `View` says which commands read, when two
states look the same to them, and which events of other calls leave what they look like. A call is `Undisturbed` if
nothing but such events happens between its commands.

`Acts G a c n o c₁` says that `c₁` is a moment of call `n`: on the way from `a` to `c`, the call executes a command in `c₁`.

* `Store.Yields`: a program that changes nothing and has one outcome; `yields_bind`, `yields_bind_error` compose them.
* `exists_acts`: a call that has begun has such moments.
* **`one_moment`**: an undisturbed call that only reads ends, at each of its moments, as if it were run alone then.
-/

namespace ClaudeSwarm.Interleave

/-! ## One outcome -/

namespace Store

variable {S : Sig} {ε α β : Type} (T : Store S) (n : Nat)

/-- Run alone at `s`, `p` ends with `y` and changes nothing. -/
def Yields (p : Prog S ε α) (s : T.State) (y : Except ε α) : Prop := ∀ r s', T.Runs n p s r s' ↔ r = y ∧ s' = s

variable {T n} {s : T.State}

theorem yields_ret {a : α} : T.Yields n (.ret a : Prog S ε α) s (.ok a) := fun _ _ => Iff.rfl

theorem yields_raise {e : ε} : T.Yields n (.raise e : Prog S ε α) s (.error e) := fun _ _ => Iff.rfl

/-- A command that has one answer. -/
theorem yields_op {c : S.Cmd} {k : S.Resp c → Prog S ε α} {x : S.Resp c} {y : Except ε α}
    (hc : ∃ i, T.exec n i s c = some (x, s)) (hone : ∀ i x' s', T.exec n i s c = some (x', s') → x' = x ∧ s' = s)
    (hk : T.Yields n (k x) s y) : T.Yields n (.op c k) s y := by
  intro r s'
  constructor
  · rintro ⟨i, x', s₁, hx, h⟩
    obtain ⟨rfl, rfl⟩ := hone i x' s₁ hx
    exact (hk r s').mp h
  · intro h
    obtain ⟨i, hx⟩ := hc
    exact ⟨i, x, s, hx, (hk r s').mpr h⟩

theorem yields_bind {p : Prog S ε α} {f : α → Prog S ε β} {a : α} {y : Except ε β} (hp : T.Yields n p s (.ok a))
    (hf : T.Yields n (f a) s y) : T.Yields n (p >>= f) s y := fun r s' =>
  (T.runs_bind_of n hp).trans (hf r s')

theorem yields_bind_error {p : Prog S ε α} {f : α → Prog S ε β} {e : ε} (hp : T.Yields n p s (.error e)) :
    T.Yields n (p >>= f) s (.error e) := by
  intro r s'
  rw [runs_bind]
  constructor
  · rintro (⟨a, s₁, h, -⟩ | ⟨e', h, rfl⟩)
    · cases ((hp _ _).mp h).1
    · obtain ⟨he, hs⟩ := (hp _ _).mp h
      cases he
      exact ⟨rfl, hs⟩
  · rintro ⟨rfl, rfl⟩
    exact .inr ⟨e, (hp _ _).mpr ⟨rfl, rfl⟩, rfl⟩

end Store

/-! ## Moments -/

variable {M : System}

/-- What reading commands see, and what leaves it alone. -/
structure View (M : System) where
  Reads : M.sig.Cmd → Prop
  Same : M.store.State → M.store.State → Prop
  Still : Event M → Prop
  refl : ∀ s, Same s s
  symm : ∀ {s₁ s₂}, Same s₁ s₂ → Same s₂ s₁
  trans : ∀ {s₁ s₂ s₃}, Same s₁ s₂ → Same s₂ s₃ → Same s₁ s₃
  read : ∀ {n i s c x s'}, Reads c → M.store.exec n i s c = some (x, s') →
    s' = s ∧ ∀ s₁, Same s₁ s → ∃ j, M.store.exec n j s₁ c = some (x, s₁)
  still : ∀ {w e w'}, Still e → Fires w e w' → Same w.state w'.state

/-- Nothing that the view sees has changed since the last command of call `n`. -/
def View.Undisturbed (V : View M) (n : Nat) (w : World M) : Prop := mine n w ≠ [] → ∀ e ∈ others n w, V.Still e

/-- On the way from `a` to `c`, call `n` executes a command of `o` in `c₁`. -/
inductive Acts (G : Guard M) (a c : Config M) (n : Nat) (o : M.Op) (c₁ : Config M) : Prop
  | intro {cmd : M.sig.Cmd} {k : M.sig.Resp cmd → Prog M.sig M.Err (M.Ret o)} {x : M.sig.Resp cmd} {w' : World M}
      (before : Run G a c₁) (ready : c₁.proc n = some ⟨o, .op cmd k⟩) (guard : G c₁.world n o cmd)
      (fires : Fires c₁.world ⟨n, o, cmd, x⟩ w')
      (after : Run G ⟨w', Function.update c₁.proc n (some ⟨o, k x⟩)⟩ c)

variable {G : Guard M} {c c₁ : Config M} {n : Nat} {o : M.Op}

theorem Acts.guarded {a : Config M} (h : Acts G a c n o c₁) : ∃ cmd, G c₁.world n o cmd := by
  obtain ⟨-, -, hguard, -, -⟩ := h
  exact ⟨_, hguard⟩

/-- A call that is no longer at its start has executed a command. -/
theorem exists_acts {s₀ : M.store.State} (h : Run G (.init s₀) c) {p : Prog M.sig M.Err (M.Ret o)}
    (hn : c.proc n = some ⟨o, p⟩) : p = M.prog o ∨ ∃ c₁, Acts G (.init s₀) c n o c₁ := by
  induction h generalizing p with
  | refl => cases hn
  | @start c m o' hrun hm ih =>
    by_cases hnm : n = m
    · subst hnm
      simp only [Config.start, Function.update_self] at hn
      cases hn
      exact .inl rfl
    · simp only [Config.start, Function.update_of_ne hnm] at hn
      refine (ih hn).imp_right ?_
      rintro ⟨c₁, hbefore, hready, hguard, hfires, hafter⟩
      exact ⟨c₁, hbefore, hready, hguard, hfires, hafter.start o' hm⟩
  | @step c m o' cmd k x w' hrun hm hg hf ih =>
    by_cases hnm : n = m
    · subst hnm
      simp only [Function.update_self] at hn
      cases hn
      exact .inr ⟨c, hrun, hm, hg, hf, .refl⟩
    · simp only [Function.update_of_ne hnm] at hn
      refine (ih hn).imp_right ?_
      rintro ⟨c₁, hbefore, hready, hguard, hfires, hafter⟩
      exact ⟨c₁, hbefore, hready, hguard, hfires, hafter.step hm hg hf⟩

namespace View

variable (V : View M) {s s₁ s' : M.store.State}

/-- A program that only reads reads the same where things look the same. -/
theorem runs_same {α : Type} {p : Prog M.sig M.Err α} {r : Except M.Err α} (hp : p.Each V.Reads) (hsame : V.Same s₁ s)
    (h : M.store.Runs n p s r s') : M.store.Runs n p s₁ r s₁ := by
  induction p with
  | ret a => exact ⟨h.1, rfl⟩
  | raise e => exact ⟨h.1, rfl⟩
  | op cmd k ih =>
    obtain ⟨i, x, s₂, hx, h⟩ := h
    obtain ⟨rfl, hread⟩ := V.read hp.1 hx
    obtain ⟨j, hj⟩ := hread s₁ hsame
    exact ⟨j, x, s₁, hj, ih x (hp.2 x) h⟩

/-- What is left of call `n` ends, at `s`, as the whole of it does, and so far `s` is what it has seen. -/
structure Tracks (n : Nat) (o : M.Op) (s : M.store.State) (p : Prog M.sig M.Err (M.Ret o)) (w : World M) : Prop where
  reads : p.Each V.Reads
  ends : ∀ r, M.store.Runs n p s r s → M.store.Runs n (M.prog o) s r s
  begun : mine n w ≠ []
  now : (∀ e ∈ others n w, V.Still e) → V.Same s w.state

variable {V}

/-- A command of the call itself. -/
theorem Tracks.own {cmd : M.sig.Cmd} {k : M.sig.Resp cmd → Prog M.sig M.Err (M.Ret o)} {x : M.sig.Resp cmd}
    {w w' : World M} (h : V.Tracks n o s (.op cmd k) w) (hu : V.Undisturbed n w) (hf : Fires w ⟨n, o, cmd, x⟩ w') :
    V.Tracks n o s (k x) w' := by
  obtain ⟨i, hx⟩ := hf.1
  obtain ⟨hs, hread⟩ := V.read h.reads.1 hx
  have hsame : V.Same s w.state := h.now (hu h.begun)
  obtain ⟨j, hj⟩ := hread s hsame
  refine ⟨h.reads.2 x, fun r hr => h.ends r ⟨j, x, s, hj, hr⟩, ?_, fun _ => hs ▸ hsame⟩
  rw [mine_own hf rfl]
  exact List.cons_ne_nil _ _

/-- The first command of the call. -/
theorem tracks_first {cmd : M.sig.Cmd} {k : M.sig.Resp cmd → Prog M.sig M.Err (M.Ret o)} {x : M.sig.Resp cmd}
    {w w' : World M} (hp : M.prog o = .op cmd k) (hreads : (M.prog o).Each V.Reads) (hf : Fires w ⟨n, o, cmd, x⟩ w') :
    V.Tracks n o w.state (k x) w' := by
  rw [hp] at hreads
  obtain ⟨i, hx⟩ := hf.1
  obtain ⟨hs, hread⟩ := V.read hreads.1 hx
  obtain ⟨j, hj⟩ := hread w.state (V.refl _)
  refine ⟨hreads.2 x, fun r hr => ?_, ?_, fun _ => hs ▸ V.refl _⟩
  · rw [hp]
    exact ⟨j, x, _, hj, hr⟩
  · rw [mine_own hf rfl]
    exact List.cons_ne_nil _ _

/-- A command of another call. -/
theorem Tracks.other {p : Prog M.sig M.Err (M.Ret o)} {w w' : World M} {e : Event M} (h : V.Tracks n o s p w)
    (hf : Fires w e w') (hn : e.call ≠ n) : V.Tracks n o s p w' := by
  refine ⟨h.reads, h.ends, by rw [mine_other hf hn]; exact h.begun, fun hstill => ?_⟩
  rw [others_other hf hn] at hstill
  have hbefore : V.Same s w.state := h.now fun e' he' => hstill e' (List.mem_cons_of_mem _ he')
  exact V.trans hbefore (V.still (hstill e List.mem_cons_self) hf)

variable (hG : ∀ w cmd, G w n o cmd → V.Undisturbed n w)

include hG

/-- From a moment of the call on. -/
theorem tracks_after {b : Config M} {p : Prog M.sig M.Err (M.Ret o)} (h : Run G b c) (hn : b.proc n = some ⟨o, p⟩)
    (hb : V.Tracks n o s p b.world) : ∃ q, c.proc n = some ⟨o, q⟩ ∧ V.Tracks n o s q c.world := by
  induction h with
  | refl => exact ⟨p, hn, hb⟩
  | @start c m o' hrun hm ih =>
    obtain ⟨q, hq, ht⟩ := ih
    have hnm : n ≠ m := fun he => by simp [← he, hq] at hm
    exact ⟨q, by simpa only [Config.start, Function.update_of_ne hnm] using hq, ht⟩
  | @step c m o' cmd k x w' hrun hm hg hf ih =>
    obtain ⟨q, hq, ht⟩ := ih
    by_cases hnm : n = m
    · subst hnm
      rw [hq] at hm
      cases hm
      exact ⟨k x, Function.update_self _ _ _, ht.own (hG _ _ hg) hf⟩
    · exact ⟨q, by simpa only [Function.update_of_ne hnm] using hq, ht.other hf fun he => hnm he.symm⟩

/-- From the start of the run on. -/
theorem tracks_run {p : Prog M.sig M.Err (M.Ret o)} (hreads : (M.prog o).Each V.Reads) {s₀ : M.store.State}
    (h : Run G (.init s₀) c) (hn : c.proc n = some ⟨o, p⟩) :
    mine n c.world = [] ∧ p = M.prog o ∨ ∃ s, V.Tracks n o s p c.world := by
  induction h generalizing p with
  | refl => cases hn
  | @start c m o' hrun hm ih =>
    by_cases hnm : n = m
    · subst hnm
      simp only [Config.start, Function.update_self] at hn
      cases hn
      have hnone : Untouched n c.world := untouched_of_run hrun hm
      exact .inl ⟨hnone, rfl⟩
    · simp only [Config.start, Function.update_of_ne hnm] at hn
      exact ih hn
  | @step c m o' cmd k x w' hrun hm hg hf ih =>
    by_cases hnm : n = m
    · subst hnm
      simp only [Function.update_self] at hn
      cases hn
      rcases ih hm with ⟨-, hfirst⟩ | ⟨s, ht⟩
      · exact .inr ⟨_, tracks_first hfirst.symm hreads hf⟩
      · exact .inr ⟨s, ht.own (hG _ _ hg) hf⟩
    · simp only [Function.update_of_ne hnm] at hn
      rcases ih hn with ⟨hnone, hfirst⟩ | ⟨s, ht⟩
      · exact .inl ⟨by rw [mine_other hf fun he => hnm he.symm]; exact hnone, hfirst⟩
      · exact .inr ⟨s, ht.other hf fun he => hnm he.symm⟩

/-- **One moment.** Whatever moment of an undisturbed call is chosen, its outcome is that of the program run alone
then. -/
theorem one_moment (hreads : (M.prog o).Each V.Reads) {s₀ : M.store.State} {r : Except M.Err (M.Ret o)}
    (h : Acts G (.init s₀) c n o c₁) (hr : c.Ended n o r) :
    M.store.Runs n (M.prog o) c₁.world.state r c₁.world.state := by
  obtain ⟨hbefore, hready, hguard, hfires, hafter⟩ := h
  have hend : ∀ {s}, M.store.Runs n (.ofExcept r : Prog M.sig M.Err (M.Ret o)) s r s :=
    (M.store.runs_ofExcept n _ _ _ _).mpr ⟨rfl, rfl⟩
  rcases tracks_run hG hreads hbefore hready with ⟨-, hfirst⟩ | ⟨s, ht⟩
  · obtain ⟨q, hq, hlast⟩ :=
      tracks_after hG hafter (Function.update_self _ _ _) (tracks_first hfirst.symm hreads hfires)
    rw [Config.Ended, hq] at hr
    cases hr
    exact hlast.ends r hend
  · have hsame : V.Same s c₁.world.state := ht.now (hG _ _ hguard ht.begun)
    obtain ⟨q, hq, hlast⟩ := tracks_after hG hafter (Function.update_self _ _ _) (ht.own (hG _ _ hguard) hfires)
    rw [Config.Ended, hq] at hr
    cases hr
    exact V.runs_same hreads (V.symm hsame) (hlast.ends r hend)

end View

end ClaudeSwarm.Interleave
