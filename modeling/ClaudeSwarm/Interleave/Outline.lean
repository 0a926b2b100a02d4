import ClaudeSwarm.Interleave.System

/-!
# Proof outlines for interleaved programs

The rely/guarantee method over `System.lean`. A `Discipline` fixes the guard of the runs under
study, an invariant `Inv` of the world and a guarantee `Guar` every executed command must meet. An
assertion about call `n` is `Stable` when no command of another call that meets the guarantee can
break it. `Outline D n o Q p P` says that program `p`, run by call `n` for operation `o` from a
world satisfying `P`, has a proof outline: after each of its commands the invariant holds again,
the guarantee was met and a stable assertion holds, and its outcome satisfies `Q`.

* `outline_bind`, `outline_mono`, `outline_op`: outlines compose as the programs do.
* **`run_sound`**: if every operation's program has an outline, the invariant holds along every
  guarded run, and every call that ended satisfies its `Q`.
* **`run_obeys`**: then every command of such a run also met the guarantee, so the guarantee can be
  added to the guard and used for further invariants (`run_inv`).
* `run_each`: what every command in the text of a program satisfies needs no outline; `keeping` is the
  discipline of an invariant that every guarded command preserves.
* `Untouched` and `mine`: assertions about a call's own commands are stable for free.
-/

namespace ClaudeSwarm.Interleave

/-- The runs under study, the invariant of the world, and what every executed command meets. -/
structure Discipline (M : System) where
  Guard : Guard M
  Inv : World M → Prop
  Guar : World M → Event M → Prop

variable {M : System} (D : Discipline M) (n : Nat) (o : M.Op)

/-- No other call's command breaks `P`. -/
def Stable (P : World M → Prop) : Prop :=
  ∀ w e w', e.call ≠ n → D.Inv w → D.Guard w e.call e.op e.cmd → D.Guar w e → Fires w e w' →
    D.Inv w' → P w → P w'

/-- What executing command `c` of call `n` must establish, from `P` to `P'`. -/
def Establishes (P : World M → Prop) (c : M.sig.Cmd) (P' : M.sig.Resp c → World M → Prop) : Prop :=
  ∀ w x w', D.Inv w → P w → D.Guard w n o c → Fires w ⟨n, o, c, x⟩ w' →
    D.Guar w ⟨n, o, c, x⟩ ∧ D.Inv w' ∧ P' x w'

/-- `p` has a proof outline from `P`, ending in `Q`. -/
def Outline {α : Type} (Q : Except M.Err α → World M → Prop) :
    Prog M.sig M.Err α → (World M → Prop) → Prop
  | .ret a, P => ∀ w, D.Inv w → P w → Q (.ok a) w
  | .raise e, P => ∀ w, D.Inv w → P w → Q (.error e) w
  | .op c k, P => ∃ P' : M.sig.Resp c → World M → Prop,
      (∀ x, Stable D n (P' x)) ∧ Establishes D n o P c P' ∧ ∀ x, Outline Q (k x) (P' x)

variable {D n o} {α β : Type}

theorem outline_ret {Q : Except M.Err α → World M → Prop} {a : α} {P : World M → Prop}
    (h : ∀ w, D.Inv w → P w → Q (.ok a) w) : Outline D n o Q (.ret a) P := h

theorem outline_raise {Q : Except M.Err α → World M → Prop} {e : M.Err} {P : World M → Prop}
    (h : ∀ w, D.Inv w → P w → Q (.error e) w) : Outline D n o Q (.raise e) P := h

theorem outline_op {Q : Except M.Err α → World M → Prop} {c : M.sig.Cmd}
    {k : M.sig.Resp c → Prog M.sig M.Err α} {P : World M → Prop}
    (P' : M.sig.Resp c → World M → Prop) (hs : ∀ x, Stable D n (P' x))
    (he : Establishes D n o P c P') (hk : ∀ x, Outline D n o Q (k x) (P' x)) :
    Outline D n o Q (.op c k) P := ⟨P', hs, he, hk⟩

/-- Consequence: a stronger precondition, a weaker postcondition. -/
theorem outline_mono {Q Q' : Except M.Err α → World M → Prop} {P P' : World M → Prop} :
    ∀ {p : Prog M.sig M.Err α}, (∀ w, D.Inv w → P' w → P w) → (∀ r w, D.Inv w → Q r w → Q' r w) →
      Outline D n o Q p P → Outline D n o Q' p P'
  | .ret _, hP, hQ, h => fun w hi hw => hQ _ w hi (h w hi (hP w hi hw))
  | .raise _, hP, hQ, h => fun w hi hw => hQ _ w hi (h w hi (hP w hi hw))
  | .op _ k, hP, hQ, ⟨R, hs, he, hk⟩ =>
    ⟨R, hs, fun w x w' hi hw hg hf => he w x w' hi (hP w hi hw) hg hf,
      fun x => outline_mono (p := k x) (fun _ _ h => h) hQ (hk x)⟩

theorem outline_pre {Q : Except M.Err α → World M → Prop} {P P' : World M → Prop}
    {p : Prog M.sig M.Err α} (hP : ∀ w, D.Inv w → P' w → P w) (h : Outline D n o Q p P) :
    Outline D n o Q p P' :=
  outline_mono hP (fun _ _ _ h => h) h

/-- Nothing is to be shown from an assertion that never holds. -/
theorem outline_false {Q : Except M.Err α → World M → Prop} :
    ∀ {p : Prog M.sig M.Err α}, Outline D n o Q p fun _ => False
  | .ret _ => fun _ _ h => h.elim
  | .raise _ => fun _ _ h => h.elim
  | .op _ k => ⟨fun _ _ => False, fun _ _ _ _ _ _ _ _ _ _ h => h, fun _ _ _ _ h => h.elim,
    fun x => outline_false (p := k x)⟩

/-- What is known to exist may be fixed. -/
theorem outline_exists {ι : Type} {Q : Except M.Err α → World M → Prop} :
    ∀ {p : Prog M.sig M.Err α} {P : ι → World M → Prop},
      (∀ i, Outline D n o Q p (P i)) → Outline D n o Q p fun w => ∃ i, P i w
  | .ret _, _, h => fun w hi ⟨i, hw⟩ => h i w hi hw
  | .raise _, _, h => fun w hi ⟨i, hw⟩ => h i w hi hw
  | .op c k, P, h => by
    choose P' hs he hk using h
    refine ⟨fun x w => ∃ i, P' i x w, fun x => ?_, ?_, fun x => outline_exists fun i => hk i x⟩
    · intro w e w' hn hi hg hr hf hi' ⟨i, hw⟩
      exact ⟨i, hs i x w e w' hn hi hg hr hf hi' hw⟩
    · intro w x w' hi ⟨i, hw⟩ hg hf
      obtain ⟨hr, hi', hP'⟩ := he i w x w' hi hw hg hf
      exact ⟨hr, hi', i, hP'⟩

/-- The outcome of a step: `R` of what it returned, or `E` of its exception. -/
def Outcome (R : α → World M → Prop) (E : M.Err → World M → Prop) : Except M.Err α → World M → Prop
  | .ok a => R a
  | .error e => E e

/-- Sequencing: what `p` returns is what `f` starts from, and an exception is the outcome. -/
theorem outline_bind {Q : Except M.Err β → World M → Prop} {R : α → World M → Prop}
    {f : α → Prog M.sig M.Err β} (hf : ∀ a, Outline D n o Q (f a) (R a)) :
    ∀ {p : Prog M.sig M.Err α} {P : World M → Prop},
      Outline D n o (Outcome R fun e => Q (.error e)) p P → Outline D n o Q (p >>= f) P
  | .ret a, _, h => outline_pre h (hf a)
  | .raise _, _, h => h
  | .op _ k, _, ⟨P', hs, he, hk⟩ => ⟨P', hs, he, fun x => outline_bind hf (p := k x) (hk x)⟩

/-- A command and what follows its reply. -/
theorem outline_cmd {Q : Except M.Err α → World M → Prop} {c : M.sig.Cmd}
    {f : M.sig.Resp c → Prog M.sig M.Err α} {P : World M → Prop}
    (P' : M.sig.Resp c → World M → Prop) (hs : ∀ x, Stable D n (P' x))
    (he : Establishes D n o P c P') (hf : ∀ x, Outline D n o Q (f x) (P' x)) :
    Outline D n o Q (Prog.cmd c >>= f) P := ⟨P', hs, he, hf⟩

/-- `try … finally`: the clean-up starts from `p`'s outcome, which it passes on. -/
theorem outline_finally {Q R : Except M.Err α → World M → Prop} {q : Prog M.sig M.Err Unit}
    (hq : ∀ r, Outline D n o (Outcome (fun _ => Q r) fun e => Q (.error e)) q (R r)) :
    ∀ {p : Prog M.sig M.Err α} {P : World M → Prop},
      Outline D n o R p P → Outline D n o Q (p.finally_ q) P
  | .ret a, _, h =>
    outline_bind (R := fun _ => Q (.ok a)) (f := fun _ => .ret a) (fun _ _ _ h => h)
      (outline_pre h (hq (.ok a)))
  | .raise e, _, h =>
    outline_bind (R := fun _ => Q (.error e)) (f := fun _ => .raise e) (fun _ _ _ h => h)
      (outline_pre h (hq (.error e)))
  | .op _ k, _, ⟨P', hs, he, hk⟩ => ⟨P', hs, he, fun x => outline_finally hq (p := k x) (hk x)⟩

/-- `try … except`: the handler starts from what the exception leaves. -/
theorem outline_catch {Q : Except M.Err α → World M → Prop} {E : M.Err → World M → Prop}
    {f : M.Err → Prog M.sig M.Err α} (hf : ∀ e, Outline D n o Q (f e) (E e)) :
    ∀ {p : Prog M.sig M.Err α} {P : World M → Prop},
      Outline D n o (Outcome (fun a => Q (.ok a)) E) p P → Outline D n o Q (p.catch_ f) P
  | .ret _, _, h => h
  | .raise e, _, h => outline_pre h (hf e)
  | .op _ k, _, ⟨P', hs, he, hk⟩ => ⟨P', hs, he, fun x => outline_catch hf (p := k x) (hk x)⟩

/-- A program whose commands all meet `ok`, which is all they need to keep `P`, keeps `P`. -/
theorem outline_of_each {ok : M.sig.Cmd → Prop} {P : World M → Prop} (hs : Stable D n P)
    (hok : ∀ c, ok c → Establishes D n o P c fun _ => P) :
    ∀ {p : Prog M.sig M.Err α}, p.Each ok → Outline D n o (fun _ => P) p P
  | .ret _, _ => fun _ _ h => h
  | .raise _, _ => fun _ _ h => h
  | .op c k, ⟨hc, hk⟩ =>
    ⟨fun _ => P, fun _ => hs, hok c hc, fun x => outline_of_each hs hok (p := k x) (hk x)⟩

/-- An operation that the guard does not let execute anything. -/
theorem outline_unguarded {Q : Except M.Err α → World M → Prop} {P : World M → Prop}
    (hg : ∀ w c, ¬ D.Guard w n o c) (hQ : ∀ r w, D.Inv w → P w → Q r w) :
    ∀ p : Prog M.sig M.Err α, Outline D n o Q p P
  | .ret _ => fun w hi hw => hQ _ w hi hw
  | .raise _ => fun w hi hw => hQ _ w hi hw
  | .op _ k => ⟨fun _ _ => False, fun _ _ _ _ _ _ _ _ _ _ h => h,
    fun w _ _ _ _ hguard _ => absurd hguard (hg w _), fun x => outline_false (p := k x)⟩

/-! ## Stable assertions -/

theorem stable_true : Stable D n fun _ => True := fun _ _ _ _ _ _ _ _ _ _ => trivial

theorem stable_pure {p : Prop} : Stable D n fun _ => p := fun _ _ _ _ _ _ _ _ _ h => h

theorem stable_and {P P' : World M → Prop} (h : Stable D n P) (h' : Stable D n P') :
    Stable D n fun w => P w ∧ P' w :=
  fun w e w' hn hi hg hr hf hi' hw =>
    ⟨h w e w' hn hi hg hr hf hi' hw.1, h' w e w' hn hi hg hr hf hi' hw.2⟩

/-- No command at all breaks `P`. -/
def Lasting (P : World M → Prop) : Prop := ∀ w e w', Fires w e w' → P w → P w'

theorem Lasting.stable {P : World M → Prop} (h : Lasting P) : Stable D n P :=
  fun w e w' _ _ _ _ hf _ hw => h w e w' hf hw

theorem lasting_pure {p : Prop} : Lasting fun _ : World M => p := fun _ _ _ _ h => h

theorem Lasting.and {P P' : World M → Prop} (h : Lasting P) (h' : Lasting P') :
    Lasting fun w => P w ∧ P' w :=
  fun w e w' hf hw => ⟨h w e w' hf hw.1, h' w e w' hf hw.2⟩

/-- What lasts goes on holding beside an outline. -/
theorem outline_frame {L : World M → Prop} (hL : Lasting L) {Q : Except M.Err α → World M → Prop} :
    ∀ {p : Prog M.sig M.Err α} {P : World M → Prop}, Outline D n o Q p P →
      Outline D n o (fun r w => Q r w ∧ L w) p fun w => P w ∧ L w
  | .ret _, _, h => fun w hi hw => ⟨h w hi hw.1, hw.2⟩
  | .raise _, _, h => fun w hi hw => ⟨h w hi hw.1, hw.2⟩
  | .op c k, P, ⟨P', hs, he, hk⟩ => by
    refine ⟨fun x w => P' x w ∧ L w, fun x => stable_and (hs x) hL.stable, ?_,
      fun x => outline_frame hL (p := k x) (hk x)⟩
    intro w x w' hi hw hg hf
    obtain ⟨hr, hi', hP'⟩ := he w x w' hi hw.1 hg hf
    exact ⟨hr, hi', hP', hL _ _ _ hf hw.2⟩

/-- The history only grows. -/
theorem lasting_executed {p : Event M → Prop} : Lasting fun w => ∃ e ∈ w.trace, p e := by
  intro w e w' hf ⟨e', he', hp⟩
  exact ⟨e', hf.2 ▸ List.mem_cons_of_mem e he', hp⟩

theorem executed_now {p : Event M → Prop} {w w' : World M} {e : Event M} (hf : Fires w e w')
    (h : p e) : ∃ e ∈ w'.trace, p e :=
  ⟨e, hf.2 ▸ List.mem_cons_self, h⟩

/-- The commands call `n` has executed, newest first. -/
def mine (n : Nat) (w : World M) : List (Event M) := w.trace.filter fun e => e.call == n

theorem mine_other {w w' : World M} {e : Event M} (hf : Fires w e w') (hn : e.call ≠ n) :
    mine n w' = mine n w := by
  simp [mine, hf.2, hn]

theorem mine_own {w w' : World M} {e : Event M} (hf : Fires w e w') (hn : e.call = n) :
    mine n w' = e :: mine n w := by
  simp [mine, hf.2, hn]

/-- A call's own commands are not changed by another call. -/
theorem stable_mine {p : List (Event M) → Prop} : Stable D n fun w => p (mine n w) := by
  intro w e w' hn _ _ _ hf _ h
  rwa [mine_other hf hn]

/-- What the other calls have executed since call `n`'s last command, newest first. -/
def others (n : Nat) (w : World M) : List (Event M) := w.trace.takeWhile fun e => e.call != n

theorem others_other {w w' : World M} {e : Event M} (hf : Fires w e w') (hn : e.call ≠ n) :
    others n w' = e :: others n w := by
  simp [others, hf.2, hn]

/-- Call `n` has executed nothing yet. -/
def Untouched (n : Nat) (w : World M) : Prop := mine n w = []

theorem untouched_iff {w : World M} : Untouched n w ↔ ∀ e ∈ w.trace, e.call ≠ n := by
  simp [Untouched, mine, List.filter_eq_nil_iff]

/-- A call that was not made has executed nothing. -/
theorem untouched_of_run {G : Guard M} {s : M.store.State} {c : Config M} (h : Run G (.init s) c)
    (hn : c.proc n = none) : Untouched n c.world :=
  untouched_iff.mpr fun e he hc => run_traced h e he (hc ▸ hn)

/-! ## Store invariants as disciplines -/

/-- Every command meeting `G` preserves `I`. -/
def Preserved (G : Guard M) (I : World M → Prop) : Prop :=
  ∀ w e w', I w → G w e.call e.op e.cmd → Fires w e w' → I w'

/-- The discipline of a store invariant: nothing more is guaranteed. -/
def keeping (G : Guard M) (I : World M → Prop) : Discipline M := ⟨G, I, fun _ _ => True⟩

/-- Under a preserved invariant a command establishes what it does. -/
theorem Preserved.establishes {G : Guard M} {I : World M → Prop} (h : Preserved G I)
    {P : World M → Prop} {c : M.sig.Cmd} {P' : M.sig.Resp c → World M → Prop}
    (hP : ∀ w x w', I w → P w → G w n o c → Fires w ⟨n, o, c, x⟩ w' → P' x w') :
    Establishes (keeping G I) n o P c P' :=
  fun w x w' hi hw hg hf => ⟨trivial, h w ⟨n, o, c, x⟩ w' hi hg hf, hP w x w' hi hw hg hf⟩

/-- A command after which only its answer is of interest; what lasts goes on holding. -/
theorem Preserved.outline_cmd {G : Guard M} {I : World M → Prop} (h : Preserved G I)
    {Q : Except M.Err α → World M → Prop} {P : World M → Prop} {c : M.sig.Cmd}
    {f : M.sig.Resp c → Prog M.sig M.Err α} (hP : Lasting P) (p : M.sig.Resp c → Prop)
    (hp : ∀ w x w', I w → Fires w ⟨n, o, c, x⟩ w' → p x)
    (hf : ∀ x, p x → Outline (keeping G I) n o Q (f x) P) :
    Outline (keeping G I) n o Q (Prog.cmd c >>= f) P := by
  refine Interleave.outline_cmd (fun x w => P w ∧ p x) (fun x => (hP.and lasting_pure).stable)
    (h.establishes fun w x w' hi hw _ hfire => ⟨hP _ _ _ hfire hw, hp w x w' hi hfire⟩) fun x => ?_
  by_cases hx : p x
  · exact outline_pre (fun w _ hw => hw.1) (hf x hx)
  · exact outline_pre (P := fun _ => False) (fun w _ hw => hx hw.2) outline_false

/-! ## Soundness -/

/-- The invariant, and for each call made a stable assertion that holds now and an outline of what
is left of its program. -/
structure Sound (D : Discipline M)
    (Q : (n : Nat) → (o : M.Op) → Except M.Err (M.Ret o) → World M → Prop) (c : Config M) :
    Prop where
  inv : D.Inv c.world
  call : ∀ n o p, c.proc n = some ⟨o, p⟩ →
    ∃ P : World M → Prop, Stable D n P ∧ P c.world ∧ Outline D n o (Q n o) p P

theorem run_sound {Q : (n : Nat) → (o : M.Op) → Except M.Err (M.Ret o) → World M → Prop}
    (hout : ∀ n o, Outline D n o (Q n o) (M.prog o) (Untouched n))
    {s : M.store.State} (h0 : D.Inv ⟨s, []⟩) {c : Config M} (h : Run D.Guard (.init s) c) :
    Sound D Q c := by
  induction h with
  | refl => exact ⟨h0, fun n o p hp => by simp [Config.init] at hp⟩
  | @start c n o hrun hn ih =>
    refine ⟨ih.inv, fun m o' p hp => ?_⟩
    by_cases hm : m = n
    · subst hm
      simp only [Config.start, Function.update_self, Option.some.injEq, Call.mk.injEq] at hp
      obtain ⟨rfl, hp⟩ := hp
      obtain rfl := eq_of_heq hp
      have hm : Untouched m c.world := untouched_of_run hrun hn
      exact ⟨Untouched m, stable_mine (p := fun l => l = []), hm, hout m o⟩
    · simp only [Config.start, Function.update_of_ne hm] at hp
      exact ih.call m o' p hp
  | @step c n o cmd k x w' hrun hn hg hf ih =>
    obtain ⟨P, hst, hP, P', hs, he, hk⟩ := ih.call n o _ hn
    obtain ⟨hr, hi, hP'⟩ := he _ _ _ ih.inv hP hg hf
    refine ⟨hi, fun m o' p hp => ?_⟩
    by_cases hm : m = n
    · subst hm
      simp only [Function.update_self, Option.some.injEq, Call.mk.injEq] at hp
      obtain ⟨rfl, hp⟩ := hp
      obtain rfl := eq_of_heq hp
      exact ⟨P' x, hs x, hP', hk x⟩
    · simp only [Function.update_of_ne hm] at hp
      obtain ⟨R, hsR, hR, hoR⟩ := ih.call m o' p hp
      exact ⟨R, hsR, hsR _ _ _ (fun h => hm h.symm) ih.inv hg hr hf hi hR, hoR⟩

/-- **The guarantee holds along every run**: a run under the guard is one whose commands also meet
what the outlines guarantee. -/
theorem run_obeys {Q : (n : Nat) → (o : M.Op) → Except M.Err (M.Ret o) → World M → Prop}
    {K : Guard M} (hK : ∀ w e, D.Guar w e → K w e.call e.op e.cmd)
    (hout : ∀ n o, Outline D n o (Q n o) (M.prog o) (Untouched n))
    {s : M.store.State} (h0 : D.Inv ⟨s, []⟩) {c : Config M} (h : Run D.Guard (.init s) c) :
    Run (fun w n o cmd => D.Guard w n o cmd ∧ K w n o cmd) (.init s) c := by
  induction h with
  | refl => exact .refl
  | start o _ hn ih => exact ih.start o hn
  | step h hn hg hf ih =>
    have hs := run_sound hout h0 h
    obtain ⟨P, -, hP, P', -, he, -⟩ := hs.call _ _ _ hn
    exact ih.step hn ⟨hg, hK _ _ (he _ _ _ hs.inv hP hg hf).1⟩ hf

/-- **What the programs say**: if every command an operation's program can issue meets `ok`, so does
every command it issues in a run. -/
theorem run_each {G : Guard M} {ok : M.Op → M.sig.Cmd → Prop} (hok : ∀ o, (M.prog o).Each (ok o))
    {s : M.store.State} {c : Config M} (h : Run G (.init s) c) :
    Run (fun w n o cmd => G w n o cmd ∧ ok o cmd) (.init s) c := by
  let D : Discipline M := ⟨G, fun _ => True, fun _ e => ok e.op e.cmd⟩
  refine run_obeys (D := D) (K := fun _ _ o cmd => ok o cmd) (Q := fun _ _ _ _ => True)
    (fun _ _ h => h) (fun n o => ?_) trivial h
  refine outline_pre (fun _ _ _ => trivial) (outline_of_each stable_true (fun c hc => ?_) (hok o))
  exact fun w x w' _ _ _ _ => ⟨hc, trivial, trivial⟩

/-- What a call is about to execute will meet the guarantee. -/
theorem Sound.next {Q : (n : Nat) → (o : M.Op) → Except M.Err (M.Ret o) → World M → Prop}
    {c : Config M} (h : Sound D Q c) {cmd : M.sig.Cmd}
    {k : M.sig.Resp cmd → Prog M.sig M.Err (M.Ret o)} (hn : c.proc n = some ⟨o, .op cmd k⟩)
    (hg : D.Guard c.world n o cmd) {x : M.sig.Resp cmd} {w' : World M}
    (hf : Fires c.world ⟨n, o, cmd, x⟩ w') : D.Guar c.world ⟨n, o, cmd, x⟩ := by
  obtain ⟨P, -, hP, P', -, he, -⟩ := h.call n o _ hn
  exact (he _ _ _ h.inv hP hg hf).1

/-- A call that ended satisfies its postcondition. -/
theorem Sound.ended {Q : (n : Nat) → (o : M.Op) → Except M.Err (M.Ret o) → World M → Prop}
    {c : Config M} (h : Sound D Q c) {r : Except M.Err (M.Ret o)} (hr : c.Ended n o r) :
    Q n o r c.world := by
  obtain ⟨P, -, hP, ho⟩ := h.call n o _ hr
  cases r with
  | ok a => exact ho _ h.inv hP
  | error e => exact ho _ h.inv hP

/-- A call that returned satisfies its postcondition. -/
theorem Sound.returned {Q : (n : Nat) → (o : M.Op) → Except M.Err (M.Ret o) → World M → Prop}
    {c : Config M} (h : Sound D Q c) {a : M.Ret o} (hr : c.Returned n o a) :
    Q n o (.ok a) c.world :=
  h.ended (r := .ok a) hr

end ClaudeSwarm.Interleave
