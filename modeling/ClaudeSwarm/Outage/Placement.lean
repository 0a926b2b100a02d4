import ClaudeSwarm.Outage.Outlines

/-!
# Where a task is while the share fails

One host creates, claims, completes and reconciles tasks while the share fails and recovers. A task is
moved by writing its file to one place and then removing it from another. When the removal raises an
`OSError` the task stays in both, whether the error is swallowed (the fallback) or not.

* `Careful`: every removal succeeds and is of a file the call has just copied, and a file is written only
  while the task is where the call has read it, and nowhere else.
* `Placed`: in careful runs a task that no call is moving is in one place at most, a task that is being
  moved is in two, and a completed task stays completed.
* `prog_ends`: a call that ended has ended its moves, and a `complete_task` that returned has written the
  task to a `completed/`.
-/

namespace ClaudeSwarm.Outage

open Interleave
open Python (PyError)
open SwarmLib (Stage Doc)

/-! ## Places -/

/-- The directories one host uses. -/
def places (host : String) : Finset Place :=
  {⟨.share, .pending⟩, ⟨.share, .claimed⟩, ⟨.share, .completed⟩, ⟨.share, .decomposed⟩,
    ⟨.home host, .claimed⟩, ⟨.home host, .completed⟩}

/-- Those that have a file of the task. -/
def placesOf (host : String) (s : State) (id : String) : Finset Place :=
  (places host).filter fun p => s.File p id

/-- A step forward of a task. -/
structure Moves (host : String) (a b : Place) : Prop where
  ne : a ≠ b
  mem : b ∈ places host
  forward : b.stage ≠ .decomposed
  absorbs : a.stage = .completed → b.stage = .completed

/-- The operation creates the tasks whose files it writes to `p`. -/
def Op.Creates : Op → Place → Bool
  | .create .., ⟨.share, .pending⟩ | .decompose _ _, ⟨.share, .pending⟩ => true
  | _, _ => false

/-- The operation runs on the host, or is the weather; nothing is decomposed. -/
def Op.OnHost (host : String) : Op → Prop
  | .create h .. | .claim h _ | .complete h _ _ | .reconcile h => h = host
  | .decompose _ _ => False
  | .weather _ => True

instance (host : String) : (o : Op) → Decidable (o.OnHost host)
  | .create h .. | .claim h _ | .complete h _ _ | .reconcile h =>
    inferInstanceAs (Decidable (h = host))
  | .decompose _ _ => isFalse id
  | .weather _ => isTrue trivial

/-! ## Moves -/

/-- The event writes the task's file to `p`. -/
def writes (e : Event system) (p : Place) (id : String) : Prop :=
  e.cmd.puts = some (p, id) ∧ succeeded e.cmd e.resp = true

/-- The event removes the task's file from `p`. -/
def removes (e : Event system) (p : Place) (id : String) : Prop :=
  e.cmd.takes = some (p, id) ∧ succeeded e.cmd e.resp = true

/-- The event writes the task's file to a directory of the stage. -/
def landsIn (st : Stage) (e : Event system) (id : String) : Prop := ∃ root, writes e ⟨root, st⟩ id

/-- The event puts a task into a second place. -/
def opens (e : Event system) (id : String) : Prop := ∃ p, writes e p id ∧ e.op.Creates p = false

/-- The event takes a task out of a place. -/
def closes (e : Event system) (id : String) : Prop := ∃ p, removes e p id

instance (e : Event system) (id : String) : Decidable (opens e id) :=
  decidable_of_iff
    ((∃ q ∈ e.cmd.puts, q.2 = id ∧ e.op.Creates q.1 = false) ∧ succeeded e.cmd e.resp = true)
    ⟨fun ⟨⟨q, hq, hid, hc⟩, hx⟩ => ⟨q.1, ⟨hid ▸ hq, hx⟩, hc⟩,
      fun ⟨p, ⟨hp, hx⟩, hc⟩ => ⟨⟨(p, id), hp, rfl, hc⟩, hx⟩⟩

instance (e : Event system) (id : String) : Decidable (closes e id) :=
  decidable_of_iff ((∃ q ∈ e.cmd.takes, q.2 = id) ∧ succeeded e.cmd e.resp = true)
    ⟨fun ⟨⟨q, hq, hid⟩, hx⟩ => ⟨q.1, hid ▸ hq, hx⟩, fun ⟨p, hp, hx⟩ => ⟨⟨(p, id), hp, rfl⟩, hx⟩⟩

/-- Call `n` is moving task `id`. -/
abbrev Moving (n : Nat) (id : String) (w : World system) : Prop := Open opens closes n id w

/-- Call `n` is moving no task. -/
abbrev Idle (n : Nat) (w : World system) : Prop := OpenIn opens closes ∅ n w

instance (n : Nat) (id : String) (w : World system) : Decidable (Moving n id w) := by
  unfold Moving Open
  infer_instance

/-- Where a task was last read, newest command first. -/
def source : List (Event system) → String → Option Place
  | [], _ => none
  | e :: l, id =>
    match e.cmd.reads with
    | some (p, id') => if id = id' then some p else source l id
    | none => source l id

/-- A file is removed without an error, by the call that is moving the task; it is written while the task
is where the call has read it, and only there; the file of a new task, while there is none. -/
def Careful (host : String) : Guard system := fun w n o c =>
  o.OnHost host ∧
    (∀ q ∈ c.puts,
      if o.Creates q.1 then placesOf host w.state q.2 = ∅
      else ∃ src ∈ source (mine n w) q.2, placesOf host w.state q.2 = {src}) ∧
    ∀ q ∈ c.takes, ¬ w.state.Raises c ∧ (w.state.File q.1 q.2 → Moving n q.2 w)

instance (host : String) (w : World system) (n : Nat) (o : Op) (c : Cmd) :
    Decidable (Careful host w n o c) := by
  unfold Careful
  infer_instance

/-! ## The invariant -/

/-- The task's file has been written to a directory of the stage. -/
def Landed (st : Stage) (id : String) (w : World system) : Prop := ∃ e ∈ w.trace, landsIn st e id

/-- The task was there from the start, and not decomposed, or has been written since. -/
def Known (host : String) (s₀ : State) (id : String) (w : World system) : Prop :=
  (∃ p ∈ placesOf host s₀ id, p.stage ≠ .decomposed) ∨ ∃ st, Landed st id w

/-- A task that nobody moves is in one place at most, one that is moved is in two and moved by one call,
none gets lost, and what has been completed is completed. -/
structure Placed (host : String) (s₀ : State) (id : String) (w : World system) : Prop where
  still : (∀ n, ¬ Moving n id w) → (placesOf host w.state id).card ≤ 1
  moved : ∀ n, Moving n id w → ∃ a b, Moves host a b ∧ placesOf host w.state id = {a, b} ∧
    (Landed .completed id w → b.stage = .completed)
  unique : ∀ n m, Moving n id w → Moving m id w → n = m
  kept : Known host s₀ id w → ∃ p ∈ placesOf host w.state id, p.stage ≠ .decomposed
  completed : (∀ n, ¬ Moving n id w) → Landed .completed id w →
    ∀ p ∈ placesOf host w.state id, p.stage = .completed

variable {host : String} {s₀ : State} {w w' : World system} {e : Event system} {id : String}
  {p a b : Place} {st : Stage}

theorem mem_placesOf {s : State} : p ∈ placesOf host s id ↔ p ∈ places host ∧ s.File p id :=
  Finset.mem_filter

theorem lasting_landed : Lasting (Landed st id) := lasting_executed

theorem landed_now (hf : Fires w e w') (h : landsIn st e id) : Landed st id w' := executed_now hf h

/-- What has landed after an event. -/
theorem landed_cons (hf : Fires w e w') : Landed st id w' ↔ landsIn st e id ∨ Landed st id w := by
  simp only [Landed, hf.2, List.mem_cons, exists_eq_or_imp]

/-- The places of a task after an event. -/
theorem placesOf_fires (hf : Fires w e w') (p : Place) : p ∈ placesOf host w'.state id ↔
    p ∈ places host ∧ (writes e p id ∨ (p ∈ placesOf host w.state id ∧ ¬ removes e p id)) := by
  obtain ⟨⟨i, hx⟩, -⟩ := hf
  have hfile : w'.state.File p id ↔ writes e p id ∨ (w.state.File p id ∧ ¬ removes e p id) :=
    file_of_exec hx p id
  rw [mem_placesOf, mem_placesOf, hfile]
  refine and_congr_right fun hp => or_congr_right (and_congr_left fun _ => ?_)
  exact (and_iff_right hp).symm

/-- An event that moves another task, or none. -/
theorem placesOf_same (hf : Fires w e w') (hp : ∀ p, ¬ writes e p id) (ht : ∀ p, ¬ removes e p id) :
    placesOf host w'.state id = placesOf host w.state id := by
  ext p
  rw [placesOf_fires hf]
  simp only [hp, ht, false_or, not_false_eq_true, and_true, and_iff_right_iff_imp]
  exact fun h => (mem_placesOf.mp h).1

theorem not_removes_of_writes (h : writes e p id) (q : Place) (id' : String) :
    ¬ removes e q id' := fun ⟨ht, _⟩ =>
  Option.some_ne_none _ (ht.symm.trans (Cmd.of_puts h.1).1)

theorem not_writes_of_removes (h : removes e p id) (q : Place) (id' : String) :
    ¬ writes e q id' := fun ⟨hp, _⟩ =>
  Option.some_ne_none _ (hp.symm.trans (Cmd.of_takes h.1).1)

theorem writes_unique {q : Place} {id' : String} (h : writes e p id) (h' : writes e q id') :
    p = q ∧ id = id' :=
  Prod.mk.inj (Option.some.inj (h.1.symm.trans h'.1))

theorem removes_unique {q : Place} {id' : String} (h : removes e p id) (h' : removes e q id') :
    p = q ∧ id = id' :=
  Prod.mk.inj (Option.some.inj (h.1.symm.trans h'.1))

/-- The file is written. -/
theorem placesOf_write (hf : Fires w e w') (hp : p ∈ places host) (hw : writes e p id) :
    placesOf host w'.state id = insert p (placesOf host w.state id) := by
  ext q
  rw [placesOf_fires hf, Finset.mem_insert]
  have ht : ¬ removes e q id := not_removes_of_writes hw q id
  constructor
  · rintro ⟨-, hq | ⟨hq, -⟩⟩
    · exact Or.inl (writes_unique hq hw).1
    · exact Or.inr hq
  · rintro (rfl | hq)
    · exact ⟨hp, Or.inl hw⟩
    · exact ⟨(mem_placesOf.mp hq).1, Or.inr ⟨hq, ht⟩⟩

/-- The file is removed. -/
theorem placesOf_remove (hf : Fires w e w') (hr : removes e p id) :
    placesOf host w'.state id = (placesOf host w.state id).erase p := by
  ext q
  rw [placesOf_fires hf, Finset.mem_erase]
  have hw : ¬ writes e q id := not_writes_of_removes hr q id
  constructor
  · rintro ⟨-, hq | ⟨hq, hne⟩⟩
    · exact absurd hq hw
    · refine ⟨?_, hq⟩
      rintro rfl
      exact hne hr
  · rintro ⟨hne, hq⟩
    exact ⟨(mem_placesOf.mp hq).1, Or.inr ⟨hq, fun h => hne (removes_unique h hr).1⟩⟩

/-! ## What an event does to the invariant -/

/-- A task that an event does not touch. -/
theorem Placed.same (h : Placed host s₀ id w) (hf : Fires w e w') (hp : ∀ p, ¬ writes e p id)
    (ht : ∀ p, ¬ removes e p id) : Placed host s₀ id w' := by
  have hopen : ¬ opens e id := fun ⟨p, hw, _⟩ => hp p hw
  have hclose : ¬ closes e id := fun ⟨p, hr⟩ => ht p hr
  have hmove : ∀ n, Moving n id w' ↔ Moving n id w := open_same hf hopen hclose
  have hland : ∀ st, Landed st id w' ↔ Landed st id w := fun st =>
    (landed_cons hf).trans (or_iff_right fun ⟨root, hw⟩ => hp _ hw)
  have hplaces : placesOf host w'.state id = placesOf host w.state id := placesOf_same hf hp ht
  have hknown : Known host s₀ id w' ↔ Known host s₀ id w := or_congr_right (exists_congr hland)
  refine ⟨fun hn => ?_, fun n hn => ?_, fun n m hn hm => ?_, fun hk => ?_, fun hn hl => ?_⟩
  · rw [hplaces]
    exact h.still fun n hw => hn n ((hmove n).mpr hw)
  · rw [hplaces, hland]
    exact h.moved n ((hmove n).mp hn)
  · exact h.unique n m ((hmove n).mp hn) ((hmove m).mp hm)
  · rw [hplaces]
    exact h.kept (hknown.mp hk)
  · rw [hplaces]
    exact h.completed (fun n hw => hn n ((hmove n).mpr hw)) ((hland _).mp hl)

/-- A task in fewer than two places is not being moved. -/
theorem Placed.not_moving (h : Placed host s₀ id w) (hcard : (placesOf host w.state id).card ≤ 1)
    (n : Nat) : ¬ Moving n id w := by
  intro hn
  obtain ⟨a, b, hab, hS, -⟩ := h.moved n hn
  rw [hS, Finset.card_pair hab.ne] at hcard
  omega

/-- A task is created. -/
theorem Placed.create (h : Placed host s₀ id w) (hf : Fires w e w') (hp : p ∈ places host)
    (hpending : p.stage = .pending) (hbefore : placesOf host w.state id = ∅) (hw : writes e p id)
    (hc : e.op.Creates p = true) : Placed host s₀ id w' := by
  have hafter : placesOf host w'.state id = {p} := by rw [placesOf_write hf hp hw, hbefore]; rfl
  have hopen : ¬ opens e id := by
    rintro ⟨q, hq, hcq⟩
    obtain ⟨rfl, -⟩ := writes_unique hw hq
    exact Bool.false_ne_true (hcq.symm.trans hc)
  have hclose : ¬ closes e id := fun ⟨q, hq⟩ => not_removes_of_writes hw q id hq
  have hmove : ∀ n, ¬ Moving n id w' := fun n hn =>
    h.not_moving (by simp [hbefore]) n ((open_same hf hopen hclose n).mp hn)
  have hland : ¬ Landed .completed id w' := by
    rw [landed_cons hf]
    rintro (⟨root, hq⟩ | hl)
    · obtain ⟨rfl, -⟩ := writes_unique hw hq
      cases hpending
    · obtain ⟨q, hq, -⟩ := h.kept (Or.inr ⟨_, hl⟩)
      rw [hbefore] at hq
      exact absurd hq (Finset.notMem_empty q)
  refine ⟨fun _ => by simp [hafter], fun n hn => absurd hn (hmove n), fun n _ hn => absurd hn (hmove n),
    fun _ => ⟨p, by simp [hafter], by simp [hpending]⟩, fun _ hl => absurd hl hland⟩

/-- A call begins to move a task. -/
theorem Placed.begin (h : Placed host s₀ id w) (hf : Fires w e w') (hab : Moves host a b)
    (hbefore : placesOf host w.state id = {a}) (hw : writes e b id) (hc : e.op.Creates b = false) :
    Placed host s₀ id w' ∧ Moving e.call id w' ∧ placesOf host w'.state id = {a, b} ∧
      (Landed .completed id w' → b.stage = .completed) := by
  have hafter : placesOf host w'.state id = {a, b} := by
    rw [placesOf_write hf hab.mem hw, hbefore, Finset.pair_comm]
  have hstill : ∀ n, ¬ Moving n id w := h.not_moving (by simp [hbefore])
  have hown : Moving e.call id w' := (open_own hf id).mpr (Or.inl ⟨b, hw, hc⟩)
  have hmove : ∀ n, Moving n id w' → n = e.call := by
    intro n hn
    by_contra hne
    exact hstill n ((open_other hf (Ne.symm hne) id).mp hn)
  have hland : Landed .completed id w' → b.stage = .completed := by
    rw [landed_cons hf]
    rintro (⟨root, hq⟩ | hl)
    · obtain ⟨rfl, -⟩ := writes_unique hw hq
      rfl
    · exact hab.absorbs (h.completed hstill hl a (by simp [hbefore]))
  refine ⟨⟨fun hn => absurd hown (hn _), fun n _ => ⟨a, b, hab, hafter, hland⟩, fun n m hn hm => ?_,
    fun _ => ⟨b, by simp [hafter], hab.forward⟩, fun hn => absurd hown (hn _)⟩, hown, hafter, hland⟩
  rw [hmove n hn, hmove m hm]

/-- A call ends its move of a task. -/
theorem Placed.finish (h : Placed host s₀ id w) (hf : Fires w e w') (hab : Moves host a b)
    (hown : Moving e.call id w) (hbefore : placesOf host w.state id = {a, b})
    (hland : Landed .completed id w → b.stage = .completed) (hr : removes e a id) :
    Placed host s₀ id w' ∧ ¬ Moving e.call id w' := by
  have hafter : placesOf host w'.state id = {b} := by
    rw [placesOf_remove hf hr, hbefore, Finset.erase_insert (by simpa using hab.ne)]
  have hopen : ¬ opens e id := fun ⟨q, hq, _⟩ => not_writes_of_removes hr q id hq
  have hmove : ∀ n, ¬ Moving n id w' := by
    intro n hn
    by_cases hne : e.call = n
    · subst hne
      exact ((open_own hf id).mp hn).elim hopen fun hn => hn.2 ⟨a, hr⟩
    · exact hne (h.unique _ _ hown ((open_other hf hne id).mp hn))
  have hland' : Landed .completed id w' → b.stage = .completed := by
    rw [landed_cons hf]
    rintro (⟨root, hq⟩ | hl)
    · exact absurd hq (not_writes_of_removes hr _ id)
    · exact hland hl
  refine ⟨⟨fun _ => by simp [hafter], fun n hn => absurd hn (hmove n),
    fun n _ hn => absurd hn (hmove n), fun _ => ⟨b, by simp [hafter], hab.forward⟩,
    fun _ hl p hp => ?_⟩, hmove _⟩
  rw [hafter, Finset.mem_singleton] at hp
  exact hp ▸ hland' hl

/-! ## The careful steps -/

section Careful

variable {n : Nat} {o : Op} {c : Cmd} {x : Resp c}

theorem Careful.creates (h : Careful host w n o c) (hp : c.puts = some (p, id))
    (hc : o.Creates p = true) : placesOf host w.state id = ∅ := by
  have hput := h.2.1 (p, id) hp
  rwa [if_pos hc] at hput

theorem Careful.moves (h : Careful host w n o c) (hp : c.puts = some (p, id))
    (hc : o.Creates p = false) :
    ∃ src, source (mine n w) id = some src ∧ placesOf host w.state id = {src} := by
  have hput := h.2.1 (p, id) hp
  rwa [if_neg (by simp [hc])] at hput

/-- What is written is in one place at most. -/
theorem Careful.card_le (h : Careful host w n o c) (hp : c.puts = some (p, id)) :
    (placesOf host w.state id).card ≤ 1 := by
  cases hc : o.Creates p with
  | true => simp [h.creates hp hc]
  | false =>
    obtain ⟨src, -, hS⟩ := h.moves hp hc
    simp [hS]

/-- Who takes a file out is moving the task. -/
theorem Careful.moving (h : Careful host w e.call e.op e.cmd) (hf : Fires w e w')
    (hr : removes e p id) : Moving e.call id w := by
  obtain ⟨⟨i, hx⟩, -⟩ := hf
  exact (h.2.2 (p, id) hr.1).2 (file_of_takes hx hr.1 hr.2)

/-- The careful runs. -/
def moving (host : String) (s₀ : State) : Discipline system :=
  keeping (Careful host) fun w => ∀ id, Placed host s₀ id w

/-- A command of operation `o` that moves no task and reads none. -/
structure Quiet (o : Op) (c : Cmd) : Prop where
  puts : ∀ q, c.puts = some q → o.Creates q.1 = true
  takes : c.takes = none
  reads : c.reads = none

theorem eq_of_creates (h : o.Creates p = true) : p = ⟨.share, .pending⟩ := by
  obtain ⟨root, st⟩ := p
  cases o <;> cases root <;> cases st <;> first | rfl | cases h

/-- A quiet command creates a task or moves none. -/
theorem placed_quiet (hp : ∀ id, Placed host s₀ id w) (hq : Quiet o c) (hg : Careful host w n o c)
    (hf : Fires w ⟨n, o, c, x⟩ w') : ∀ id, Placed host s₀ id w' := by
  intro id
  have ht : ∀ p, ¬ removes ⟨n, o, c, x⟩ p id := fun p h =>
    Option.some_ne_none _ (h.1.symm.trans hq.takes)
  by_cases hw : ∃ p, writes ⟨n, o, c, x⟩ p id
  · obtain ⟨p, hw⟩ := hw
    have hc : o.Creates p = true := hq.puts _ hw.1
    have hpending : p = ⟨.share, .pending⟩ := eq_of_creates hc
    exact (hp id).create hf (by simp [hpending, places]) (by simp [hpending])
      (hg.creates hw.1 hc) hw hc
  · exact (hp id).same hf (not_exists.mp hw) ht

/-- What a quiet command must keep besides the invariant. -/
theorem establishes_quiet {A : World system → Prop}
    (hA : ∀ w c x w', (∀ id, Placed host s₀ id w) → Quiet o c → Careful host w n o c →
      Fires w ⟨n, o, c, x⟩ w' → A w → A w') :
    ∀ c, Quiet o c → Establishes (moving host s₀) n o A c fun _ => A :=
  fun c hq w x w' hp hw hg hf =>
    ⟨trivial, placed_quiet hp hq hg hf, hA w c x w' hp hq hg hf hw⟩

theorem open_quiet (hq : Quiet o c) (hf : Fires w ⟨n, o, c, x⟩ w') (id : String) :
    Moving n id w' ↔ Moving n id w := by
  refine open_same hf ?_ ?_ n
  · rintro ⟨p, hw, hc⟩
    exact Bool.false_ne_true (hc.symm.trans (hq.puts _ hw.1))
  · rintro ⟨p, hr⟩
    exact Option.some_ne_none _ (hr.1.symm.trans hq.takes)

theorem openIn_quiet {S : Set String} (hq : Quiet o c) (hf : Fires w ⟨n, o, c, x⟩ w')
    (h : OpenIn opens closes S n w) : OpenIn opens closes S n w' :=
  fun id hid => h id ((open_quiet hq hf id).mp hid)

/-- Call `n` is moving nothing. -/
theorem kept_idle : Kept (moving host s₀) (Quiet o) n o (Idle n) where
  stable := stable_openIn
  own := establishes_quiet fun _ _ _ _ _ hq _ hf h => openIn_quiet hq hf h

/-- Call `n` is moving nothing, and has read task `id` in `p`. -/
def Ready (n : Nat) (id : String) (p : Place) (w : World system) : Prop :=
  Idle n w ∧ source (mine n w) id = some p

theorem source_quiet (hr : c.reads = none) (l : List (Event system)) :
    source (⟨n, o, c, x⟩ :: l) id = source l id := by
  rw [source, hr]

theorem source_read (hr : e.cmd.reads = some (p, id)) (l : List (Event system)) :
    source (e :: l) id = some p := by
  rw [source, hr]
  exact if_pos rfl

theorem kept_ready : Kept (moving host s₀) (Quiet o) n o (Ready n id p) where
  stable := stable_and stable_openIn (stable_mine (p := fun l => source l id = some p))
  own := establishes_quiet fun w c x w' _ hq _ hf h => by
    refine ⟨openIn_quiet hq hf h.1, ?_⟩
    rw [mine_own hf rfl, source_quiet hq.reads]
    exact h.2

/-- Call `n` is moving task `id` from `a` to `b`. -/
structure Between (host : String) (n : Nat) (id : String) (a b : Place) (w : World system) : Prop where
  only : OpenIn opens closes {id} n w
  moving : Moving n id w
  places : placesOf host w.state id = {a, b}
  completed : Landed .completed id w → b.stage = .completed
  landed : Landed b.stage id w

/-- A task in two places is not written. -/
theorem not_writes_between (hab : Moves host a b) (hS : placesOf host w.state id = {a, b})
    (hg : Careful host w e.call e.op e.cmd) (p : Place) : ¬ writes e p id := by
  intro hw
  have hcard := hg.card_le hw.1
  rw [hS, Finset.card_pair hab.ne] at hcard
  omega

/-- A task that is moved stays where it is unless it is removed. -/
theorem Between.kept (hab : Moves host a b) (h : Between host n id a b w)
    (hg : Careful host w e.call e.op e.cmd) (hr : ∀ p, ¬ removes e p id) (hf : Fires w e w')
    (honly : OpenIn opens closes {id} n w') : Between host n id a b w' := by
  have hw : ∀ p, ¬ writes e p id := not_writes_between hab h.places hg
  refine ⟨honly, ?_, ?_, fun hl => ?_, lasting_landed _ _ _ hf h.landed⟩
  · exact (open_same hf (fun ⟨p, hp, _⟩ => hw p hp) (fun ⟨p, hp⟩ => hr p hp) n).mpr h.moving
  · rw [placesOf_same hf hw hr, h.places]
  · rcases (landed_cons hf).mp hl with ⟨root, hl⟩ | hl
    · exact absurd hl (hw _)
    · exact h.completed hl

theorem kept_between (hab : Moves host a b) : Kept (moving host s₀) (Quiet o) n o (Between host n id a b) where
  stable := by
    intro w e w' hne hp hg hr hf hi' h
    refine h.kept hab hg (fun p hrem => hne ?_) hf (stable_openIn w e w' hne hp hg hr hf hi' h.only)
    exact (hp id).unique _ _ (Careful.moving hg hf hrem) h.moving
  own := establishes_quiet fun w c x w' hp hq hg hf h => by
    refine h.kept hab hg (fun p hrem => ?_) hf (openIn_quiet hq hf h.only)
    exact Option.some_ne_none _ (hrem.1.symm.trans hq.takes)

/-! ## Moving a task -/

/-- Reading a task. -/
theorem establishes_read :
    Establishes (moving host s₀) n o (Idle n) (.on p.root (.read p.stage id)) fun x =>
      x.elim (fun _ => False) fun _ => Ready n id p := by
  intro w x w' hp hw _ hf
  have hw' : ∀ id' q, ¬ writes ⟨n, o, .on p.root (.read p.stage id), x⟩ q id' :=
    fun _ _ h => Option.some_ne_none _ h.1.symm
  have hr : ∀ id' q, ¬ removes ⟨n, o, .on p.root (.read p.stage id), x⟩ q id' :=
    fun _ _ h => Option.some_ne_none _ h.1.symm
  refine ⟨trivial, fun id' => (hp id').same hf (hw' id') (hr id'), ?_⟩
  cases x with
  | none =>
    obtain ⟨⟨i, hx⟩, -⟩ := hf
    exact Bool.false_ne_true (changes_of_raised hx).1.2.2.1
  | some data =>
    refine ⟨fun id' hid => ?_, ?_⟩
    · exact hw id' ((open_same hf (fun ⟨q, h, _⟩ => hw' id' q h) (fun ⟨q, h⟩ => hr id' q h) n).mp hid)
    · rw [mine_own hf rfl]
      exact source_read rfl _

/-- Writing a task from `a` to `b` has begun the move, or failed. -/
def Begun (host : String) (n : Nat) (id : String) (a b : Place) : Option Bool → World system → Prop
  | some true => Between host n id a b
  | _ => Ready n id a

theorem begun_of_ready {x : Option Bool} (hx : x ≠ some true) (h : Ready n id a w) :
    Begun host n id a b x w := by
  cases x with
  | none => exact h
  | some x =>
    cases x with
    | true => exact absurd rfl hx
    | false => exact h

/-- Writing a task that was read to another place. -/
theorem establishes_rename (hab : Moves host a b) (hc : o.Creates b = false) :
    Establishes (moving host s₀) n o (Ready n id a) (.on b.root (.rename b.stage id))
      (Begun host n id a b) := by
  intro w x w' hp hw hg hf
  refine ⟨trivial, ?_⟩
  have hput : Cmd.puts (.on b.root (.rename b.stage id)) = some (b, id) := rfl
  have hr : ∀ id' q, ¬ removes ⟨n, o, .on b.root (.rename b.stage id), x⟩ q id' :=
    fun _ _ h => Option.some_ne_none _ h.1.symm
  have hsource : source (mine n w') id = some a := by
    rw [mine_own hf rfl, source_quiet rfl]
    exact hw.2
  by_cases hx : x = some true
  · have hwrites : writes ⟨n, o, .on b.root (.rename b.stage id), x⟩ b id := ⟨hput, decide_eq_true hx⟩
    obtain ⟨src, hsrc, hS⟩ := Careful.moves hg hput hc
    cases hw.2.symm.trans hsrc
    obtain ⟨hplaced, hmoving, hplaces, hcompleted⟩ := (hp id).begin hf hab hS hwrites hc
    subst hx
    refine ⟨fun id' => ?_, ⟨fun id' hid' => ?_, hmoving, hplaces, hcompleted,
      landed_now hf ⟨b.root, hwrites⟩⟩⟩
    · by_cases hne : id' = id
      · exact hne ▸ hplaced
      · exact (hp id').same hf (fun q h => hne (writes_unique hwrites h).2.symm) (hr id')
    · rcases (open_own hf id').mp hid' with ⟨q, h, -⟩ | ⟨hbefore, -⟩
      · exact (writes_unique hwrites h).2.symm
      · exact (hw.1 id' hbefore).elim
  · have hw' : ∀ id' q, ¬ writes ⟨n, o, .on b.root (.rename b.stage id), x⟩ q id' :=
      fun _ _ h => hx (of_decide_eq_true h.2)
    refine ⟨fun id' => (hp id').same hf (hw' id') (hr id'), begun_of_ready hx ⟨fun id' hid => ?_, hsource⟩⟩
    exact hw.1 id' ((open_same hf (fun ⟨q, h, _⟩ => hw' id' q h) (fun ⟨q, h⟩ => hr id' q h) n).mp hid)

/-- Removing a task from the place it was in. -/
theorem establishes_remove (hab : Moves host a b) :
    Establishes (moving host s₀) n o (Between host n id a b) (.on a.root (.remove a.stage id))
      fun x w => x = some true ∧ Idle n w ∧ Landed b.stage id w := by
  intro w x w' hp h hg hf
  have htake : Cmd.takes (.on a.root (.remove a.stage id)) = some (a, id) := rfl
  have hfile : w.state.File a id := (mem_placesOf.mp (h.places ▸ Finset.mem_insert_self a {b})).2
  obtain rfl : x = some true := by
    obtain ⟨⟨i, hx⟩, -⟩ := hf
    rcases exec_remove hx with ⟨hfails, -⟩ | hx
    · exact absurd hfails (hg.2.2 _ htake).1
    · exact hx.trans (congrArg some (decide_eq_true hfile))
  have hr : removes ⟨n, o, .on a.root (.remove a.stage id), some true⟩ a id := ⟨htake, rfl⟩
  have hw' : ∀ id' q, ¬ writes ⟨n, o, .on a.root (.remove a.stage id), some true⟩ q id' :=
    fun id' q => not_writes_of_removes hr q id'
  obtain ⟨hplaced, hnot⟩ := (hp id).finish hf hab h.moving h.places h.completed hr
  refine ⟨trivial, fun id' => ?_, rfl, fun id' hid' => ?_, lasting_landed _ _ _ hf h.landed⟩
  · by_cases hne : id' = id
    · exact hne ▸ hplaced
    · exact (hp id').same hf (hw' id') fun q h => hne (removes_unique hr h).2.symm
  · rcases (open_own hf id').mp hid' with ⟨q, hq, -⟩ | ⟨hbefore, hnc⟩
    · exact (hw' id' q hq).elim
    · cases h.only id' hbefore
      exact (hnc ⟨a, hr⟩).elim

end Careful

/-! ## The operations -/

section Outlines

variable {n : Nat} {o : Op} {α β : Type} {Q : Except PyError α → World system → Prop}

/-- Every outcome leaves the call idle. -/
abbrev Rest (n : Nat) : Except PyError α → World system → Prop := fun _ => Idle n

theorem quiet_of {c : Cmd} (hp : c.puts = none) (ht : c.takes = none) (hr : c.reads = none) :
    Quiet o c :=
  ⟨fun _ hq => absurd (hp.symm.trans hq) (Option.some_ne_none _).symm, ht, hr⟩

theorem quiet_locking (c : SwarmLib.Cmd) (hc : Locking c) : Quiet o (.on .share c) := by
  cases c <;> first | exact quiet_of rfl rfl rfl | exact hc.elim

/-- A task is read, or the call raises. -/
theorem readYaml_outline :
    Outline (moving host s₀) n o (Outcome (fun _ => Ready n id p) fun _ => Idle n) (readYaml p id)
      (Idle n) := by
  refine outline_on (c := .read p.stage id) (fun _ => Ready n id p) (fun _ => False)
    (fun _ => (kept_ready (o := o)).stable) stable_pure establishes_read (fun _ _ h => h.elim)
    fun data => ?_
  cases data with
  | some data => exact outline_ret fun _ _ h => h
  | none => exact outline_raise fun _ _ h => h.1

/-- A task that was read is written to another place, or the call raises. -/
theorem atomicWriteYaml_outline {data : Doc} (hab : Moves host a b) (hc : o.Creates b = false) :
    Outline (moving host s₀) n o
      (Outcome (fun _ => Between host n id a b) fun _ => Ready n id a) (atomicWriteYaml b id data)
      (Ready n id a) := by
  have hready : Kept (moving host s₀) (Quiet o) n o (Ready n id a) := kept_ready
  refine kept_on hready (c := .writeTmp b.stage id data) (quiet_of rfl rfl rfl) (fun _ _ h => h)
    fun _ => ?_
  refine outline_on (c := .rename b.stage id) (fun x => Begun host n id a b (some x)) (Ready n id a)
    (fun x => ?_) hready.stable (fun w x w' hi hw hg hf => ?_) (fun _ _ h => h) fun x => ?_
  · cases x with
    | true => exact (kept_between (o := o) hab).stable
    | false => exact hready.stable
  · obtain ⟨hr, hi', hx⟩ := establishes_rename hab hc w x w' hi hw hg hf
    refine ⟨hr, hi', ?_⟩
    cases x <;> exact hx
  · cases x with
    | true => exact outline_ret fun _ _ h => h
    | false => exact outline_raise fun _ _ h => h

/-- The move of a task is ended. -/
theorem removeYaml_outline (hab : Moves host a b) :
    Outline (moving host s₀) n o
      (Outcome (fun _ w => Idle n w ∧ Landed b.stage id w) fun _ _ => False) (removeYaml a id)
      (Between host n id a b) := by
  have hidle : Kept (moving host s₀) (Quiet o) n o fun w => Idle n w ∧ Landed b.stage id w :=
    kept_idle.and lasting_landed
  refine outline_on (c := .remove a.stage id)
    (fun (x : Bool) w => x = true ∧ Idle n w ∧ Landed b.stage id w) (fun _ => False)
    (fun x => stable_and stable_pure hidle.stable) stable_pure (fun w x w' hi hw hg hf => ?_)
    (fun _ _ h => h) fun x => ?_
  · obtain ⟨hr, hi', rfl, hend⟩ := establishes_remove hab w x w' hi hw hg hf
    exact ⟨hr, hi', rfl, hend⟩
  · cases x with
    | true => exact outline_ret fun _ _ h => h.2
    | false =>
      refine outline_pre (P := fun _ => False) (fun _ _ h => ?_) outline_false
      exact Bool.false_ne_true h.1

/-- Who is idle finds nothing to remove. -/
theorem removeYaml_idle {st : Stage} :
    Outline (moving host s₀) n o (Outcome (fun _ _ => False) fun _ => Idle n)
      (removeYaml ⟨.home host, st⟩ id) (Idle n) := by
  refine outline_on (c := .remove st id) (fun (x : Bool) w => x = false ∧ Idle n w) (fun _ => False)
    (fun x => stable_and stable_pure (kept_idle (o := o)).stable) stable_pure
    (fun w x w' hp hw hg hf => ?_) (fun _ _ h => h.elim) fun x => ?_
  · have hnot : ¬ w.state.File ⟨.home host, st⟩ id := by
      intro hfile
      have hmoving : Moving n id w := (hg.2.2 (⟨.home host, st⟩, id) rfl).2 hfile
      exact hw id hmoving
    obtain rfl : x = some false := by
      obtain ⟨⟨i, hx⟩, -⟩ := hf
      have hx : exec n i w.state (.on (.home host) (.remove st id)) = some (x, w'.state) := hx
      rcases exec_remove hx with ⟨hfails, -⟩ | hx
      · cases hfails.1
      · exact hx.trans (congrArg some (decide_eq_false hnot))
    have hw' : ∀ id' q, ¬ writes ⟨n, o, .on (.home host) (.remove st id), some false⟩ q id' :=
      fun _ _ h => Option.some_ne_none _ h.1.symm
    have hr : ∀ id' q, ¬ removes ⟨n, o, .on (.home host) (.remove st id), some false⟩ q id' :=
      fun _ _ h => Bool.false_ne_true h.2
    refine ⟨trivial, fun id' => (hp id').same hf (hw' id') (hr id'), rfl, fun id' hid => ?_⟩
    exact hw id' ((open_same hf (fun ⟨q, h, _⟩ => hw' id' q h) (fun ⟨q, h⟩ => hr id' q h) n).mp hid)
  · cases x with
    | true =>
      refine outline_pre (P := fun _ => False) (fun _ _ h => ?_) outline_false
      exact Bool.false_ne_true h.1.symm
    | false => exact outline_raise fun _ _ h => h.2

theorem lockedWriteYaml_outline {data : Doc} (hab : Moves host a ⟨.share, st⟩)
    (hc : o.Creates ⟨.share, st⟩ = false) :
    Outline (moving host s₀) n o
      (Outcome (fun _ => Between host n id a ⟨.share, st⟩) fun _ => Ready n id a)
      (lockedWriteYaml st id data) (Ready n id a) :=
  withLock_outline quiet_locking kept_ready
    (fun r => by cases r with | ok _ => exact kept_between hab | error _ => exact kept_ready)
    (fun _ _ h => h) (atomicWriteYaml_outline hab hc)

/-- A task that was read is moved, and what follows. -/
theorem move_then {write : P Unit} {f : P α} (hab : Moves host a b)
    (hwrite : Outline (moving host s₀) n o
      (Outcome (fun _ => Between host n id a b) fun _ => Ready n id a) write (Ready n id a))
    (hraise : ∀ e w, Idle n w → Q (.error e) w) (hf : Outline (moving host s₀) n o Q f (Idle n)) :
    Outline (moving host s₀) n o Q (write >>= fun _ => removeYaml a id >>= fun _ => f)
      (Ready n id a) := by
  refine outline_bind (R := fun _ => Between host n id a b) (fun _ => ?_)
    (outline_mono (fun _ _ h => h) (fun r w _ h => ?_) hwrite)
  · refine outline_bind (R := fun _ => Idle n) (fun _ => hf)
      (outline_mono (fun _ _ h => h) (fun r w _ h => ?_) (removeYaml_outline hab))
    cases r with
    | ok _ => exact h.1
    | error _ => exact h.elim
  · cases r with
    | ok _ => exact h
    | error e => exact hraise e w h.1

/-- The move succeeds, on the share or on the host, or it has not begun. -/
theorem moveOrFallback_outline {src : Place} {task : Doc} {write : P Unit}
    (hshare : Moves host src ⟨.share, st⟩) (hhome : Moves host src ⟨.home host, st⟩)
    (hc : o.Creates ⟨.home host, st⟩ = false)
    (hwrite : Outline (moving host s₀) n o
      (Outcome (fun _ => Between host n id src ⟨.share, st⟩) fun _ => Ready n id src) write
      (Ready n id src)) :
    Outline (moving host s₀) n o (Outcome (fun _ w => Idle n w ∧ Landed st id w) fun _ => Idle n)
      (moveOrFallback host src st id task write) (Ready n id src) := by
  refine exceptOSError_outline (E := fun _ => Ready n id src) ?_ (fun e => ?_) fun _ _ _ h => h.1
  · refine outline_bind (fun _ => ?_) hwrite
    exact outline_mono (fun _ _ h => h)
      (fun r _ _ h => by cases r with | ok _ => exact h | error _ => exact h.elim)
      (removeYaml_outline hshare)
  · refine kept_cmd kept_ready (c := .healthy) (quiet_of rfl rfl rfl) fun healthy => ?_
    cases healthy with
    | true => exact outline_raise fun _ _ h => h.1
    | false =>
      refine outline_bind (R := fun _ => Between host n id src ⟨.home host, st⟩) (fun _ => ?_)
        (outline_mono (fun _ _ h => h)
          (fun r _ _ h => by cases r with | ok _ => exact h | error _ => exact h.1)
          (atomicWriteYaml_outline hhome hc))
      exact exceptOSError_outline (E := fun _ _ => False) (removeYaml_outline hhome)
        (fun e => outline_false) fun _ _ _ h => h.elim

theorem claimTask_outline (hc : ∀ p, o.Creates p = false) :
    Outline (moving host s₀) n o (Rest n) (claimTask host id) (Idle n) := by
  refine kept_look kept_idle (c := .pathExists .pending id) (quiet_of rfl rfl rfl) rfl fun found => ?_
  cases found with
  | false => exact outline_raise fun _ _ h => h
  | true =>
    refine outline_bind (R := fun _ => Idle n) (fun task => ?_)
      (outline_mono (Q := Rest n) (fun _ _ h => h) (fun r _ _ h => by cases r <;> exact h)
        (withLock_outline quiet_locking kept_idle (fun _ => kept_idle) (fun _ _ h => h) ?_))
    · exact kept_on kept_idle (c := .unlink .pending id) (quiet_of rfl rfl rfl) (fun _ _ h => h)
        fun _ => outline_ret fun _ _ h => h
    · refine kept_look kept_idle (c := .pathExists .pending id) (quiet_of rfl rfl rfl) rfl
        fun found => ?_
      cases found with
      | false => exact outline_raise fun _ _ h => h
      | true =>
        refine outline_bind (fun task => ?_) readYaml_outline
        refine kept_look kept_ready (c := .host) (quiet_of rfl rfl rfl) rfl fun hostname =>
          kept_look kept_ready (c := .iso) (quiet_of rfl rfl rfl) rfl fun claimed_at => ?_
        refine outline_bind (fun _ => outline_ret fun _ _ h => h.1)
          (moveOrFallback_outline ?_ ?_ (hc _) (atomicWriteYaml_outline ?_ (hc _)))
        · exact ⟨by decide, by simp [places], by decide, by decide⟩
        · exact ⟨by simp, by simp [places], by simp, by simp⟩
        · exact ⟨by decide, by simp [places], by decide, by decide⟩

/-- Where the task is completed from. -/
theorem claimedPlace_outline :
    Outline (moving host s₀) n o
      (Outcome (fun src w => Idle n w ∧ (src = ⟨.share, .claimed⟩ ∨ src = ⟨.home host, .claimed⟩))
        fun _ => Idle n) (claimedPlace host id) (Idle n) := by
  refine kept_look kept_idle (c := .pathExists .claimed id) (quiet_of rfl rfl rfl) rfl fun found => ?_
  cases found with
  | true => exact outline_ret fun _ _ h => ⟨h, Or.inl rfl⟩
  | false =>
    refine kept_look kept_idle (c := .pathExists .claimed id) (quiet_of rfl rfl rfl) rfl
      fun found => ?_
    cases found with
    | true => exact outline_ret fun _ _ h => ⟨h, Or.inr rfl⟩
    | false => exact outline_ret fun _ _ h => ⟨h, Or.inl rfl⟩

theorem originalCompleteTask_outline {artifact : String} (hc : ∀ p, o.Creates p = false) :
    Outline (moving host s₀) n o
      (Outcome (fun _ w => Idle n w ∧ Landed .completed id w) fun _ => Idle n)
      (originalCompleteTask host id artifact) (Idle n) := by
  refine outline_bind (fun src => ?_) claimedPlace_outline
  by_cases hsrc : src = ⟨.share, .claimed⟩ ∨ src = ⟨.home host, .claimed⟩
  case neg => exact outline_pre (P := fun _ => False) (fun _ _ h => hsrc h.2) outline_false
  refine outline_pre (fun _ _ h => h.1) ?_
  refine kept_look kept_idle (c := .pathExists src.stage id) (quiet_of rfl rfl rfl) rfl
    fun found => ?_
  cases found with
  | false => exact outline_raise fun _ _ h => h
  | true =>
    refine outline_bind (fun task => ?_) readYaml_outline
    refine kept_look kept_ready (c := .host) (quiet_of rfl rfl rfl) rfl fun hostname =>
      kept_look kept_ready (c := .iso) (quiet_of rfl rfl rfl) rfl fun completed_at => ?_
    have hshare : Moves host src ⟨.share, .completed⟩ := by
      refine ⟨?_, by simp [places], by simp, fun _ => rfl⟩
      rcases hsrc with rfl | rfl <;> simp
    have hhome : Moves host src ⟨.home host, .completed⟩ := by
      refine ⟨?_, by simp [places], by simp, fun _ => rfl⟩
      rcases hsrc with rfl | rfl <;> simp
    exact outline_bind (fun _ => outline_ret fun _ _ h => h)
      (moveOrFallback_outline hshare hhome (hc _)
        (lockedWriteYaml_outline hshare (hc _)))

theorem checkParentCompletion_outline (hc : ∀ p, o.Creates p = false) :
    Outline (moving host s₀) n o (Rest n) (checkParentCompletion id) (Idle n) := by
  refine kept_look kept_idle (c := .pathExists .decomposed id) (quiet_of rfl rfl rfl) rfl
    fun found => ?_
  cases found with
  | false => exact outline_ret fun _ _ h => h
  | true =>
    refine outline_bind (fun parent => ?_) readYaml_outline
    simp only
    split
    · exact outline_ret fun _ _ h => h.1
    · refine kept_bind kept_ready (each_allCompleted (fun _ => quiet_of rfl rfl rfl) _) (fun _ _ h => h.1) fun all => ?_
      cases all with
      | false => exact outline_ret fun _ _ h => h.1
      | true =>
        refine kept_look kept_ready (c := .iso) (quiet_of rfl rfl rfl) rfl fun completed_at => ?_
        have hmoves : Moves host ⟨.share, .decomposed⟩ ⟨.share, .completed⟩ :=
          ⟨by simp, by simp [places], by simp, fun _ => rfl⟩
        exact move_then hmoves (lockedWriteYaml_outline hmoves (hc _)) (fun _ _ h => h)
          (outline_ret fun _ _ h => h)

/-- What holds when `complete_task` of `id` ends. -/
abbrev Completes (n : Nat) (id : String) : Except PyError α → World system → Prop :=
  Outcome (fun _ w => Idle n w ∧ Landed .completed id w) fun _ => Idle n

theorem completeTask_outline {artifact : String} (hc : ∀ p, o.Creates p = false) :
    Outline (moving host s₀) n o (Completes n id) (completeTask host id artifact) (Idle n) := by
  refine outline_bind (fun task => ?_) (originalCompleteTask_outline hc)
  split
  · exact outline_ret fun _ _ h => h
  · refine outline_bind (R := fun _ w => Idle n w ∧ Landed .completed id w)
      (fun _ => outline_ret fun _ _ h => h) ?_
    refine outline_mono (fun _ _ h => h) (fun r w _ h => ?_)
      (outline_frame (L := Landed .completed id) lasting_landed (checkParentCompletion_outline hc))
    cases r with
    | ok _ => exact h
    | error _ => exact h.1

/-- One file is taken back. -/
theorem reconcileFile_outline (hab : Moves host ⟨.home host, st⟩ ⟨.share, st⟩)
    (hc : ∀ p, o.Creates p = false) :
    Outline (moving host s₀) n o (Rest n) (reconcileFile host st id) (Idle n) := by
  refine exceptOSError_outline (E := fun _ => Idle n) ?_ (fun _ => outline_ret fun _ _ h => h)
    fun _ _ _ h => h
  refine kept_look kept_idle (c := .pathExists st id) (quiet_of rfl rfl rfl) rfl fun found => ?_
  cases found with
  | true =>
    refine outline_bind (R := fun _ _ => False) (fun _ => outline_false) removeYaml_idle
  | false =>
    refine outline_bind (fun data => ?_) readYaml_outline
    exact move_then hab (atomicWriteYaml_outline hab (hc _)) (fun _ _ h => h)
      (outline_ret fun _ _ h => h)

/-- What the call returns is what the program before returned. -/
theorem rest_bind {p : P β} {f : β → P α} (hp : Outline (moving host s₀) n o (Rest n) p (Idle n))
    (hf : ∀ a, Outline (moving host s₀) n o (Rest n) (f a) (Idle n)) :
    Outline (moving host s₀) n o (Rest n) (p >>= f) (Idle n) :=
  outline_bind (R := fun _ => Idle n) hf
    (outline_mono (fun _ _ h => h) (fun r _ _ h => by cases r <;> exact h) hp)

theorem reconcileFiles_outline (hab : Moves host ⟨.home host, st⟩ ⟨.share, st⟩)
    (hc : ∀ p, o.Creates p = false) :
    ∀ ids, Outline (moving host s₀) n o (Rest n) (reconcileFiles host st ids) (Idle n)
  | [] => outline_ret fun _ _ h => h
  | _ :: ids => rest_bind (reconcileFile_outline hab hc) fun _ =>
    rest_bind (reconcileFiles_outline hab hc ids) fun _ => outline_ret fun _ _ h => h

theorem reconcileLocalTasks_outline (hc : ∀ p, o.Creates p = false) :
    Outline (moving host s₀) n o (Rest n) (reconcileLocalTasks host) (Idle n) := by
  refine kept_cmd kept_idle (c := .healthy) (quiet_of rfl rfl rfl) fun healthy => ?_
  cases healthy with
  | false => exact outline_ret fun _ _ h => h
  | true =>
    refine kept_cmd kept_idle (c := .homeGlob host .claimed) (quiet_of rfl rfl rfl) fun claimed =>
      rest_bind (reconcileFiles_outline ?_ hc claimed) fun _ =>
        kept_cmd kept_idle (c := .homeGlob host .completed) (quiet_of rfl rfl rfl) fun completed =>
          rest_bind (reconcileFiles_outline ?_ hc completed) fun _ => outline_ret fun _ _ h => h
    · exact ⟨by simp, by simp [places], by simp, by simp⟩
    · exact ⟨by simp, by simp [places], by simp, fun _ => rfl⟩

theorem each_createTask {title description project priority : String} {requires : List String}
    {estimated : Int} (hc : o.Creates ⟨.share, .pending⟩ = true) :
    (createTask host title description project priority requires estimated).Each (Quiet o) := by
  refine Prog.each_bind (fun task_id => ?_) (p := nextTaskId) ?_
  · refine each_on_bind (c := .host) (quiet_of rfl rfl rfl) fun _ =>
      each_on_bind (c := .iso) (quiet_of rfl rfl rfl) fun _ => ?_
    refine Prog.each_bind (fun _ => Prog.each_ret _) (each_withLock quiet_locking ?_)
    refine each_on_bind (c := .writeTmp .pending task_id _) (quiet_of rfl rfl rfl) fun _ =>
      each_on_bind (c := .rename .pending task_id) ⟨fun q hq => ?_, rfl, rfl⟩ fun x => ?_
    · exact Option.some.inj hq ▸ hc
    · cases x <;> trivial
  · exact each_on_bind (c := .glob .pending) (quiet_of rfl rfl rfl) fun _ =>
      each_on_bind (c := .glob .claimed) (quiet_of rfl rfl rfl) fun _ =>
        each_on_bind (c := .glob .completed) (quiet_of rfl rfl rfl) fun _ => Prog.each_ret _

/-- What holds when a call ends. -/
def Ends (host : String) (n : Nat) : (o : Op) → Except PyError (Ret o) → World system → Prop
  | .complete h id _ => if h = host then Completes n id else Rest n
  | _ => Rest n

theorem idle_of_ends {r : Except PyError (Ret o)} (h : Ends host n o r w) : Idle n w := by
  cases o with
  | complete h' id' artifact =>
    rw [Ends] at h
    split at h
    · cases r with
      | ok _ => exact h.1
      | error _ => exact h
    · exact h
  | _ => exact h

/-- **A call that ended has ended its moves**, and a completed task has been written to a
`completed/`. -/
theorem prog_ends (n : Nat) (o : Op) :
    Outline (moving host s₀) n o (Ends host n o) (prog o) (Untouched n) := by
  refine outline_pre (P := Idle n) (fun _ _ h => openIn_of_untouched h) ?_
  have hforeign : ¬ o.OnHost host → Outline (moving host s₀) n o (Rest n) (prog o) (Idle n) :=
    fun ho => outline_unguarded (fun w c (hg : Careful host w n o c) => ho hg.1)
      (fun r w _ h => h) (prog o)
  cases o with
  | create h =>
    by_cases ho : h = host
    · subst ho
      exact kept_each kept_idle (each_createTask rfl)
    · exact hforeign ho
  | claim h =>
    by_cases ho : h = host
    · subst ho
      exact claimTask_outline fun _ => rfl
    · exact hforeign ho
  | complete h =>
    rw [Ends]
    split
    · rename_i ho
      subst ho
      exact completeTask_outline fun _ => rfl
    · rename_i ho
      exact hforeign ho
  | decompose => exact hforeign id
  | reconcile h =>
    by_cases ho : h = host
    · subst ho
      exact reconcileLocalTasks_outline fun _ => rfl
    · exact hforeign ho
  | weather h => exact kept_cmd kept_idle (c := .weather h) (quiet_of rfl rfl rfl) fun _ =>
      outline_ret fun _ _ h => h

end Outlines

end ClaudeSwarm.Outage
