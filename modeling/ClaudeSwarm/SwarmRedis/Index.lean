import ClaudeSwarm.Interleave.Span
import ClaudeSwarm.SwarmRedis.Exclusive

/-!
# The index and the hashes

A task is indexed by membership in `tasks:pending`, `tasks:claimed` or `tasks:completed`, and its hash
names its state. No operation looks at the index before it moves a task, so each of them can put a
task into a second set; `Tidy` lists, transaction by transaction, where the task must not be.
`decompose_task` and `check_parent_completion` change the index and the hash in two steps: in between
a task is `Open`.

* `Place s id p`: among the three sets, `id` is in `p` and no other.
* `Consistent s id`: it is in the set its hash names.
* `Indexed`: every task has a place, and one that is not open is consistent. `indexed_preserved`.
* `prog_settles`: a call that ended left nothing open.
* **`index_consistent`**: at most one set at any time, and the right one when no call is in progress.
-/

namespace ClaudeSwarm.SwarmRedis

open Interleave Data Redis
open Python (Time PyError FloatFmt)

variable {F : FloatFmt}

/-! ## Where a task is -/

/-- The states that have a set. -/
def HasSet (t : TaskState) : Prop := t = .pending ∨ t = .claimed ∨ t = .completed

/-- Among the three sets, `id` is in that of `p` only. -/
def Place (s : Keys) (id : String) (p : Option TaskState) : Prop :=
  ∀ t, HasSet t → (Member s t id ↔ p = some t)

/-- `id` is in the set of the state its hash names. -/
def Consistent (s : Keys) (id : String) : Prop :=
  ∀ t, HasSet t → (Member s t id ↔ hashState s id = some t.str)

theorem Place.same {s s' : Keys} {id : String} {p : Option TaskState} (hp : Place s id p)
    (h : SameAt s s' id) : Place s' id p :=
  fun t ht => (h.member t).trans (hp t ht)

theorem Consistent.same {s s' : Keys} {id : String} (hc : Consistent s id)
    (h : SameAt s s' id) : Consistent s' id := by
  intro t ht
  rw [h.member, hashState, h.task]
  exact hc t ht

/-- A task in its place with the hash naming it. -/
theorem consistent_of_place {s : Keys} {id : String} {t : TaskState} (hp : Place s id (some t))
    (hs : hashState s id = some t.str) : Consistent s id := by
  intro t' ht'
  rw [hp t' ht', hs, Option.some.injEq, Option.some.injEq]
  exact ⟨fun h => by rw [h], TaskState.str_injective⟩

/-! ## The transactions -/

section Transactions

variable {s : Keys} {id : String} {p : Option TaskState}

/-- A created task is pending. -/
theorem place_create {data : Json} {priority : Int} {now created_at : Time}
    (hclaimed : ¬ Member s .claimed id) (hcompleted : ¬ Member s .completed id) :
    Place (runAll (Client.createWrites F id data priority now created_at) s) id (some .pending) := by
  rintro t (rfl | rfl | rfl)
  · simp [Member, Client.createWrites, Write.run]
  · simpa [Member, Client.createWrites, Write.run] using hclaimed
  · simpa [Member, Client.createWrites, Write.run] using hcompleted

theorem hashState_create {data : Json} {priority : Int} {now created_at : Time} :
    hashState (runAll (Client.createWrites F id data priority now created_at) s) id =
      some "pending" := by
  simp [hashState, Client.createWrites, Write.run]

/-- A claimed task has left `tasks:pending`. -/
theorem place_claim {ws : List Write} {score : Int} {fields : List (String × String)}
    (hws : ws = [.zrem .pending id, .zadd .claimed id score, .hset id fields])
    (hcompleted : ¬ Member s .completed id) : Place (runAll ws s) id (some .claimed) := by
  subst hws
  rintro t (rfl | rfl | rfl)
  · simp [Member, Write.run]
  · simp [Member, Write.run]
  · simpa [Member, Write.run] using hcompleted

/-- A completed task has left `tasks:claimed`. -/
theorem place_complete {result_data : Option Json} {now completed_at : Time}
    (hpending : ¬ Member s .pending id) :
    Place (runAll (Client.completeWrites F id result_data now completed_at) s) id
      (some .completed) := by
  rintro t (rfl | rfl | rfl)
  · simpa [Member, Client.completeWrites, Write.run] using hpending
  · simp [Member, Client.completeWrites, Write.run]
  · simp [Member, Client.completeWrites, Write.run]

theorem hashState_complete {result_data : Option Json} {now completed_at : Time} :
    hashState (runAll (Client.completeWrites F id result_data now completed_at) s) id =
      some "completed" := by
  cases result_data <;> simp [hashState, Client.completeWrites, Write.run]

/-- Taking a task out of `tasks:pending` leaves it in one set at most. -/
theorem place_zrem (hp : Place s id p) : ∃ p, Place (runAll [.zrem .pending id] s) id p := by
  refine ⟨if p = some .pending then none else p, ?_⟩
  rintro t (rfl | rfl | rfl)
  · by_cases h : p = some .pending <;> simp [Member, Write.run, h]
  · have := hp .claimed (Or.inr (Or.inl rfl))
    by_cases h : p = some .pending
    · simpa [Member, Write.run, h] using this
    · simpa [Member, Write.run, h] using this
  · have := hp .completed (Or.inr (Or.inr rfl))
    by_cases h : p = some .pending
    · simpa [Member, Write.run, h] using this
    · simpa [Member, Write.run, h] using this

/-- A task put into `tasks:completed`. -/
theorem place_zadd {score : Int} (hpending : ¬ Member s .pending id)
    (hclaimed : ¬ Member s .claimed id) :
    Place (runAll [.zadd .completed id score] s) id (some .completed) := by
  rintro t (rfl | rfl | rfl)
  · simpa [Member, Write.run] using hpending
  · simpa [Member, Write.run] using hclaimed
  · simp [Member, Write.run]

/-- Writing a hash moves no task. -/
theorem place_hset {id' : String} {fields : List (String × String)} (hp : Place s id p) :
    Place (runAll [.hset id' fields] s) id p := hp

/-- A task in no set is consistent once its hash says `decomposed`. -/
theorem consistent_decomposed {decomposed_at : String} {count : Nat} (hp : Place s id none) :
    Consistent (runAll [.hset id (decomposedFields decomposed_at count)] s) id := by
  have hstate : hashState (runAll [.hset id (decomposedFields decomposed_at count)] s) id =
      some "decomposed" := by
    simp [hashState, decomposedFields, Write.run]
  intro t ht
  rw [place_hset hp t ht, hstate]
  rcases ht with rfl | rfl | rfl <;> simp [TaskState.str]

end Transactions

/-! ## Tasks in between -/

/-- The task whose place an event changes ahead of its hash. -/
def opens : Event (system F) → String → Prop
  | ⟨_, .decompose id _, .exec [.zrem _ _], _⟩, id' => id' = id
  | ⟨_, .checkParent id, .exec [.zadd _ _ _], _⟩, id' => id' = id
  | _, _ => False

/-- The task whose hash an event writes at last. -/
def closes : Event (system F) → String → Prop
  | ⟨_, .decompose id _, .exec [.hset _ _], _⟩, id' => id' = id
  | ⟨_, .checkParent id, .exec [.hset _ _], _⟩, id' => id' = id
  | _, _ => False

/-- Call `n` is between the two commands for task `id`. -/
abbrev Changing (n : Nat) (id : String) (w : World (system F)) : Prop := Open opens closes n id w

/-- Call `n` is between the two commands for tasks in `S` only. -/
abbrev ChangingIn (S : Set String) (n : Nat) (w : World (system F)) : Prop :=
  OpenIn opens closes S n w

/-- Where a task must not be, for a transaction to leave it in one set: `create_task` finds it neither
claimed nor completed, `claim_task` not completed, `complete_task` not pending, the completion of a
parent neither pending nor claimed, and the `HSET` of `decompose_task` finds its task in no set. -/
def Tidy : Guard (system F) := fun w _ o c =>
  match o, c with
  | .claim id, .exec _ => ¬ Member w.state .completed id
  | .complete id _, .exec _ => ¬ Member w.state .pending id
  | .checkParent id, .exec [.zadd _ _ _] =>
    ¬ Member w.state .pending id ∧ ¬ Member w.state .claimed id
  | .decompose id _, .exec [.hset _ _] => ∀ t ∈ [TaskState.pending, .claimed, .completed],
    ¬ Member w.state t id
  | _, .exec [_, .zadd _ id _] => ¬ Member w.state .claimed id ∧ ¬ Member w.state .completed id
  | _, _ => True

/-- The places `Tidy` forbids. -/
def forbidden : Op → Cmd → List (TaskState × String)
  | .claim id, .exec _ => [(.completed, id)]
  | .complete id _, .exec _ => [(.pending, id)]
  | .checkParent id, .exec [.zadd _ _ _] => [(.pending, id), (.claimed, id)]
  | .decompose id _, .exec [.hset _ _] => [(.pending, id), (.claimed, id), (.completed, id)]
  | _, .exec [_, .zadd _ id _] => [(.claimed, id), (.completed, id)]
  | _, _ => []

theorem tidy_iff {w : World (system F)} {n : Nat} {o : Op} {c : Cmd} :
    Tidy w n o c ↔ ∀ p ∈ forbidden o c, ¬ Member w.state p.1 p.2 := by
  unfold Tidy forbidden
  split <;> simp

instance (w : World (system F)) (n : Nat) (o : Op) (c : Cmd) : Decidable (Tidy w n o c) :=
  decidable_of_iff _ tidy_iff.symm

/-! ## What the calls do in order -/

/-- `check_parent_completion` writes the hash of a parent that is in `tasks:completed`. -/
def InOrder : Guard (system F) := fun w _ o c =>
  match o, c with
  | .checkParent id, .exec [.hset _ _] => Member w.state .completed id
  | _, _ => True

/-- The tidy runs, and the order they are to be in. -/
def settling (F : FloatFmt) : Discipline (system F) where
  Guard w n o c := Tidy w n o c ∧ Text F o c
  Inv _ := True
  Guar w e := InOrder w e.call e.op e.cmd

/-- The tidy runs, in order. -/
abbrev Settling (F : FloatFmt) : Guard (system F) := fun w n o c =>
  (settling F).Guard w n o c ∧ InOrder w n o c

variable {n : Nat} {o : Op} {S : Set String}

/-- A command that is not one of the two. -/
def Quiet (o : Op) (c : Cmd) : Prop :=
  ∀ ws, c = .exec ws → (∃ w w' ws', ws = w :: w' :: ws') ∨ ∀ id, o ≠ .checkParent id ∧
    ∀ subtasks, o ≠ .decompose id subtasks

theorem Quiet.not_opens {c : Cmd} (h : Quiet o c) (x : Resp c) (id : String) :
    ¬ opens (F := F) ⟨n, o, c, x⟩ id := by
  unfold opens
  split <;> simp_all [Quiet]

theorem Quiet.not_closes {c : Cmd} (h : Quiet o c) (x : Resp c) (id : String) :
    ¬ closes (F := F) ⟨n, o, c, x⟩ id := by
  unfold closes
  split <;> simp_all [Quiet]

theorem Quiet.inOrder {c : Cmd} (h : Quiet o c) (w : World (system F)) : InOrder w n o c := by
  unfold InOrder
  split <;> simp_all [Quiet]

theorem quiet_establishes {c : Cmd} (h : Quiet o c) :
    Establishes (settling F) n o (ChangingIn S n) c fun _ => ChangingIn S n := by
  refine fun w x w' _ hw _ hf => ⟨h.inOrder (n := n) w, trivial, fun id hid => ?_⟩
  rcases (open_own hf id).mp hid with ho | ⟨hid, -⟩
  · exact absurd ho (h.not_opens x id)
  · exact hw id hid

/-- A program of quiet commands leaves nothing more open. -/
theorem quiet_outline {α : Type} {p : P α} (h : p.Each (Quiet o)) :
    Outline (settling F) n o (fun _ => ChangingIn S n) p (ChangingIn S n) :=
  outline_of_each stable_openIn (fun _ => quiet_establishes) h

/-- A quiet command and what follows. -/
theorem quiet_then {α : Type} {Q : Except PyError α → World (system F) → Prop} {c : Cmd}
    {f : Resp c → P α} (h : Quiet o c)
    (hf : ∀ x, Outline (settling F) n o Q (f x) (ChangingIn S n)) :
    Outline (settling F) n o Q (cmd c >>= f) (ChangingIn S n) :=
  outline_cmd (fun _ => ChangingIn S n) (fun _ => stable_openIn) (quiet_establishes h) hf

theorem quiet_read {c : Cmd} (h : ∀ ws, c ≠ .exec ws := by simp) : Quiet o c :=
  fun ws he => absurd he (h ws)

theorem quiet_create {id : String} {data : Json} {priority : Int} {now created_at : Time} :
    Quiet o (.exec (Client.createWrites F id data priority now created_at)) := by
  rintro ws hws
  cases hws
  exact Or.inl ⟨_, _, _, rfl⟩

theorem decompose_outline {id : String} {subtasks : List Subtask} :
    Outline (settling F) n (.decompose id subtasks) (fun _ => ChangingIn ∅ n)
      (decomposeTask F id subtasks) (ChangingIn ∅ n) := by
  refine outline_cmd (fun _ => ChangingIn {id} n) (fun _ => stable_openIn) ?_ fun _ => ?_
  · refine fun w x w' _ hw _ hf => ⟨trivial, trivial, fun id' hid => ?_⟩
    rcases (open_own hf id').mp hid with ho | ⟨hid, -⟩
    · exact ho
    · exact (hw id' hid).elim
  refine quiet_then quiet_read fun decomposed_at => ?_
  refine outline_cmd (fun _ => ChangingIn ∅ n) (fun _ => stable_openIn) ?_ fun _ => ?_
  · refine fun w x w' _ hw _ hf => ⟨trivial, trivial, fun id' hid => ?_⟩
    rcases (open_own hf id').mp hid with ho | ⟨hid, hc⟩
    · exact ho.elim
    · exact absurd (hw id' hid) hc
  · exact quiet_outline (each_createSubtasks quiet_read quiet_read quiet_read
      (fun _ _ _ _ _ => quiet_create) subtasks 0)

/-- Nothing leaves `tasks:completed`. -/
theorem stable_completed {id : String} :
    Stable (settling F) n fun w => Member w.state .completed id := by
  rintro w ⟨m, o, c, x⟩ ⟨s', tr⟩ - - ⟨-, htext⟩ - ⟨⟨i, hx⟩, -⟩ - h
  show Member s' .completed id
  simp only at hx htext
  cases effect_of_exec hx with
  | read _ _ hz =>
    rw [Member, hz]
    exact h
  | @exec ws =>
    refine member_runAll (fun id' hmem => ?_) h
    have hw := htext ws rfl
    cases o with
    | create =>
      obtain ⟨_, _, _, _, _, rfl⟩ := hw
      simp [Client.createWrites] at hmem
    | claim =>
      obtain ⟨_, _, _, rfl⟩ := hw
      simp [claimWrites] at hmem
    | claimNext => exact hw
    | clientClaim => exact hw
    | complete =>
      obtain ⟨_, _, _, rfl⟩ := hw
      simp [Client.completeWrites] at hmem
    | decompose =>
      rcases hw with rfl | ⟨_, rfl⟩ | ⟨_, _, _, _, _, rfl⟩
      · simp at hmem
      · simp at hmem
      · simp [Client.createWrites] at hmem
    | checkParent =>
      rcases hw with ⟨_, rfl⟩ | ⟨_, rfl⟩ <;> simp at hmem
  | empty => exact h
  | @pop now claimer id' score =>
    have hpop : Member (runAll (Redis.claimWrites now claimer id' score) w.state) .completed id :=
      member_runAll (fun _ => by simp [Redis.claimWrites]) h
    exact hpop

theorem quiet_getTask {α : Type} {Q : Except PyError α → World (system F) → Prop} {id : String}
    {f : Option Hash → P α} (hf : ∀ task, Outline (settling F) n o Q (f task) (ChangingIn S n)) :
    Outline (settling F) n o Q (Client.getTask id >>= f) (ChangingIn S n) :=
  quiet_then (c := .hgetall id) quiet_read fun x => hf (if x.rows = [] then none else some x)

theorem checkParent_outline {id : String} :
    Outline (settling F) n (.checkParent id) (fun _ => ChangingIn ∅ n)
      (checkParentCompletion id) (ChangingIn ∅ n) := by
  refine quiet_getTask fun parent => ?_
  cases parent with
  | none => exact outline_ret fun _ _ h => h
  | some parent =>
    simp only
    split
    · exact outline_raise fun _ _ h => h
    split
    · exact outline_ret fun _ _ h => h
    refine outline_bind (R := fun _ => ChangingIn ∅ n) (fun completed => ?_)
      (outline_mono (fun _ _ h => h) (fun r _ _ h => by cases r <;> exact h)
        (quiet_outline (each_countCompleted (fun _ => quiet_read) _ _)))
    split
    · exact outline_ret fun _ _ h => h
    refine quiet_then (c := .now) quiet_read fun now => ?_
    -- the parent is open, and in `tasks:completed`, until its hash is written
    have hs : Stable (settling F) n fun w => ChangingIn {id} n w ∧ Member w.state .completed id :=
      stable_and stable_openIn stable_completed
    refine outline_cmd (fun _ w => ChangingIn {id} n w ∧ Member w.state .completed id) (fun _ => hs)
      (fun w x w' _ hw _ hf => ⟨trivial, trivial, fun id' hid => ?_, ?_⟩) fun _ => ?_
    · rcases (open_own hf id').mp hid with ho | ⟨hid, -⟩
      · exact ho
      · exact (hw id' hid).elim
    · obtain ⟨⟨i, hx⟩, -⟩ := hf
      obtain ⟨-, hx⟩ := Prod.mk.inj (Option.some.inj hx)
      rw [← hx]
      simp [Member, Write.run]
    refine outline_cmd (c := Cmd.iso)
      (fun _ w => ChangingIn {id} n w ∧ Member w.state .completed id) (fun _ => hs)
      (fun w x w' hi hw hg hf => ?_) fun completed_at => ?_
    · obtain ⟨hr, -, ho⟩ := quiet_establishes (c := .iso) quiet_read w x w' hi hw.1 hg hf
      obtain ⟨⟨i, hx⟩, -⟩ := hf
      obtain ⟨-, hx⟩ := Prod.mk.inj (Option.some.inj hx)
      exact ⟨hr, trivial, ho, hx ▸ hw.2⟩
    refine outline_cmd (fun _ => ChangingIn ∅ n) (fun _ => stable_openIn)
      (fun w x w' _ hw _ hf => ⟨hw.2, trivial, fun id' hid => ?_⟩) fun _ =>
      outline_ret fun _ _ h => h
    rcases (open_own hf id').mp hid with ho | ⟨hid, hc⟩
    · exact ho.elim
    · exact absurd (hw.1 id' hid) hc

/-- A call leaves nothing open behind. -/
theorem prog_settles (n : Nat) (o : Op) :
    Outline (settling F) n o (fun _ => ChangingIn ∅ n) (prog F o) (Untouched n) := by
  refine outline_pre (P := ChangingIn ∅ n) (fun w _ h => openIn_of_untouched h) ?_
  cases o with
  | decompose id subtasks => exact decompose_outline
  | checkParent id => exact checkParent_outline
  | _ =>
    refine quiet_outline (Prog.each_mono (fun c _ ws _ => Or.inr fun id => ?_) (Prog.each_true _))
    exact ⟨nofun, nofun⟩

/-! ## The index along a run -/

/-- Every task is in one set at most, and in the right one unless it is open. -/
structure Indexed (w : World (system F)) : Prop where
  place : ∀ id, ∃ p, Place w.state id p
  settled : ∀ id, (∀ n, ¬ Changing n id w) → Consistent w.state id

/-- A step that leaves every task alone, opens it, or leaves it consistent. -/
theorem Indexed.step {w w' : World (system F)} {e : Event (system F)} (h : Indexed w)
    (hf : Fires w e w')
    (hid : ∀ id, (SameAt w.state w'.state id ∧ ¬ closes e id) ∨
      ((∃ p, Place w'.state id p) ∧ (opens e id ∨ Consistent w'.state id))) : Indexed w' := by
  refine ⟨fun id => ?_, fun id hno => ?_⟩
  · rcases hid id with ⟨hs, -⟩ | ⟨hp, -⟩
    · obtain ⟨p, hp⟩ := h.place id
      exact ⟨p, hp.same hs⟩
    · exact hp
  · rcases hid id with ⟨hs, hc⟩ | ⟨-, ho | hc⟩
    · refine Consistent.same (h.settled id fun n hn => hno n ?_) hs
      by_cases hne : e.call = n
      · subst hne
        exact (open_own hf id).mpr (Or.inr ⟨hn, hc⟩)
      · exact (open_other hf hne id).mpr hn
    · exact absurd ((open_own hf id).mpr (Or.inl ho)) (hno e.call)
    · exact hc

/-- A transaction on one task. -/
theorem Indexed.transaction {w w' : World (system F)} {e : Event (system F)} (h : Indexed w)
    (hf : Fires w e w') {id : String} {ws : List Write} (hs : runAll ws w.state = w'.state)
    (hws : ∀ v ∈ ws, writeId v = id) (hcloses : ∀ id', closes e id' → id' = id)
    (hp : ∃ p, Place (runAll ws w.state) id p)
    (hc : opens e id ∨ Consistent (runAll ws w.state) id) : Indexed w' := by
  refine h.step hf fun id' => ?_
  by_cases hid : id' = id
  · subst hid
    exact Or.inr (hs ▸ ⟨hp, hc⟩)
  · refine Or.inl ⟨hs ▸ sameAt_runAll fun v hv he => ?_, fun h => hid (hcloses id' h)⟩
    exact hid (he.trans (hws v hv))

/-- A transaction that ends with the task in the set its hash names. -/
theorem Indexed.moved {w w' : World (system F)} {e : Event (system F)} (h : Indexed w)
    (hf : Fires w e w') {id : String} {ws : List Write} {t : TaskState}
    (hs : runAll ws w.state = w'.state) (hws : ∀ v ∈ ws, writeId v = id)
    (hcloses : ∀ id', closes e id' → id' = id) (hp : Place (runAll ws w.state) id (some t))
    (hstate : hashState (runAll ws w.state) id = some t.str) : Indexed w' :=
  h.transaction hf hs hws hcloses ⟨_, hp⟩ (Or.inr (consistent_of_place hp hstate))

/-- Creating a task that is neither claimed nor completed. -/
theorem Indexed.create {w w' : World (system F)} {e : Event (system F)} (h : Indexed w)
    (hf : Fires w e w') {id : String} {data : Json} {priority : Int} {now created_at : Time}
    (hs : runAll (Client.createWrites F id data priority now created_at) w.state = w'.state)
    (hcloses : ∀ id', ¬ closes e id') (hclaimed : ¬ Member w.state .claimed id)
    (hcompleted : ¬ Member w.state .completed id) : Indexed w' :=
  h.moved hf hs (by simp [Client.createWrites, writeId]) (fun id' hc => absurd hc (hcloses id'))
    (place_create hclaimed hcompleted) hashState_create

theorem indexed_preserved : Preserved (Settling F) Indexed := by
  rintro w ⟨n, o, c, x⟩ ⟨s', tr⟩ h ⟨⟨htidy, htext⟩, horder⟩ hf
  obtain ⟨i, hx⟩ := hf.1
  simp only at hx htext htidy horder
  cases effect_of_exec hx with
  | read hc ht hz =>
    have hquiet : Quiet o c := quiet_read fun ws he => by
      subst he
      exact hc
    refine h.step hf fun id => Or.inl ⟨⟨fun t => ?_, congrFun ht id⟩, hquiet.not_closes x id⟩
    exact congrArg (fun z => (z t).score id) hz
  | @exec ws =>
    have hw := htext ws rfl
    cases o with
    | create =>
      obtain ⟨id, _, _, _, _, rfl⟩ := hw
      exact h.create hf rfl (fun _ h => h) htidy.1 htidy.2
    | claim id =>
      obtain ⟨_, _, _, rfl⟩ := hw
      refine h.moved hf rfl (by simp [claimWrites, writeId]) (fun _ hc => hc.elim)
        (place_claim rfl htidy) ?_
      simp [hashState, claimWrites, Write.run, TaskState.str]
    | claimNext => exact hw.elim
    | clientClaim => exact hw.elim
    | complete id =>
      obtain ⟨_, _, _, rfl⟩ := hw
      exact h.moved hf rfl (by simp [Client.completeWrites, writeId]) (fun _ hc => hc.elim)
        (place_complete htidy) hashState_complete
    | decompose id =>
      rcases hw with rfl | ⟨_, rfl⟩ | ⟨_, _, _, _, _, rfl⟩
      · obtain ⟨p, hp⟩ := h.place id
        exact h.transaction hf rfl (by simp [writeId]) (fun _ hc => hc.elim)
          (place_zrem hp) (Or.inl rfl)
      · have hp : Place w.state id none := by
          rintro t (rfl | rfl | rfl) <;> exact iff_of_false (htidy _ (by simp)) (by simp)
        refine h.transaction hf rfl (by simp [writeId]) (fun _ h => h) ⟨_, place_hset hp⟩
          (Or.inr (consistent_decomposed hp))
      · exact h.create hf rfl (fun _ h => h) htidy.1 htidy.2
    | checkParent id =>
      rcases hw with ⟨_, rfl⟩ | ⟨_, rfl⟩
      · exact h.transaction hf rfl (by simp [writeId]) (fun _ hc => hc.elim)
          ⟨_, place_zadd htidy.1 htidy.2⟩ (Or.inl rfl)
      · obtain ⟨p, hp⟩ := h.place id
        obtain rfl := (hp .completed (Or.inr (Or.inr rfl))).mp horder
        refine h.moved hf rfl (by simp [writeId]) (fun _ h => h) (place_hset hp) ?_
        simp [hashState, Write.run, completedFields, TaskState.str]
  | @empty now claimer hm =>
    have hquiet : Quiet o (.evalClaim now claimer) := quiet_read
    exact h.step hf fun id => Or.inl ⟨⟨fun _ => rfl, rfl⟩, hquiet.not_closes _ id⟩
  | @pop now claimer id score hm =>
    have hpending : Member w.state .pending id :=
      Option.isSome_iff_exists.mpr ⟨score, ZSet.score_of_mem (ZSet.min?_mem hm)⟩
    obtain ⟨p, hp⟩ := h.place id
    obtain rfl := (hp .pending (Or.inl rfl)).mp hpending
    have hquiet : Quiet o (.evalClaim now claimer) := quiet_read
    refine h.moved hf (t := .claimed) rfl (by simp [Redis.claimWrites, writeId])
      (fun id' hc => absurd hc (hquiet.not_closes _ id'))
      (place_claim rfl fun hc => ?_) ?_
    · cases (hp .completed (Or.inr (Or.inr rfl))).mp hc
    · simp [hashState, Redis.claimWrites, Write.run, TaskState.str]

/-- A consistent task is in one set at most. -/
theorem Consistent.place {s : Keys} {id : String} (h : Consistent s id) : ∃ p, Place s id p := by
  by_cases hs : ∃ t : TaskState, hashState s id = some t.str
  · obtain ⟨t, hs⟩ := hs
    refine ⟨some t, fun t' ht' => ?_⟩
    rw [h t' ht', hs, Option.some.injEq, Option.some.injEq]
    exact ⟨fun he => TaskState.str_injective he, fun he => by rw [he]⟩
  · refine ⟨none, fun t ht => ?_⟩
    rw [h t ht]
    exact iff_of_false (fun he => hs ⟨t, he⟩) nofun

/-- **Index consistency** in every run whose transactions find their task where they should: at any
time a task is in one of the three sets at most, and when no call is in progress it is in the one its
hash names. -/
theorem index_consistent {s : Keys} {c : Config (system F)} (hs : ∀ id, Consistent s id)
    (h : Run Tidy (.init s) c) :
    (∀ id t t', HasSet t → HasSet t' → Member c.world.state t id → Member c.world.state t' id →
      t = t') ∧ (c.Quiescent → ∀ id, Consistent c.world.state id) := by
  have hinit : (settling F).Inv ⟨s, []⟩ := trivial
  have hsound := run_sound (D := settling F) (fun n o => prog_settles n o) hinit (run_text h)
  have hrun := run_obeys (D := settling F) (K := InOrder) (fun _ _ h => h)
    (fun n o => prog_settles n o) hinit (run_text h)
  have hindexed : Indexed c.world := run_inv (I := Indexed) indexed_preserved
    ⟨fun id => (hs id).place, fun id _ => hs id⟩ hrun
  refine ⟨fun id t t' ht ht' hm hm' => ?_, fun hq id => hindexed.settled id fun n => ?_⟩
  · obtain ⟨p, hp⟩ := hindexed.place id
    exact Option.some.inj (((hp t ht).mp hm).symm.trans ((hp t' ht').mp hm'))
  · exact not_open_of_quiescent hsound h hq n id

/-! ## A task in two sets -/

theorem consistent_empty (id : String) : Consistent .empty id :=
  fun _ _ => iff_of_false nofun nofun

/-- `a` creates a task. -/
def creates : List (Act (system Python.wholeSeconds)) :=
  solo (system _) 0 (.create "t" "" "" "medium" [] 0) 6 (host "a")

/-- `b` completes the task while it is pending. -/
def completesPending : List (Act (system Python.wholeSeconds)) :=
  creates ++ solo (system _) 1 (.complete "task-0001" "") 5 (host "b")

/-- A task completed without having been claimed stays in `tasks:pending`. -/
theorem complete_keeps_pending : ∃ c : Config (system Python.wholeSeconds),
    Run Free (.init Keys.empty) c ∧
      Member c.world.state .pending "task-0001" ∧ Member c.world.state .completed "task-0001" := by
  have hplay : (play Free (.init Keys.empty) completesPending).any (fun c =>
      decide (Member c.world.state .pending "task-0001" ∧
        Member c.world.state .completed "task-0001")) = true := by
    decide +kernel
  obtain ⟨c, hrun, hc⟩ := exists_run_of_play hplay
  exact ⟨c, hrun, of_decide_eq_true hc⟩

/-- `b` claims the task, then completes it. -/
def completesClaimed : List (Act (system Python.wholeSeconds)) :=
  creates ++ solo (system _) 1 (.claim "task-0001") 6 (host "b") ++
    solo (system _) 2 (.complete "task-0001" "") 5 (host "b")

theorem completesClaimed_plays :
    (play (M := system Python.wholeSeconds) Tidy (.init Keys.empty) completesClaimed).isSome := by
  decide +kernel

theorem index_consistent_completesClaimed :
    (∀ id t t', HasSet t → HasSet t' →
      Member (played Tidy _ completesClaimed completesClaimed_plays).world.state t id →
      Member (played Tidy _ completesClaimed completesClaimed_plays).world.state t' id → t = t') ∧
      ((played Tidy _ completesClaimed completesClaimed_plays).Quiescent → ∀ id,
        Consistent (played Tidy _ completesClaimed completesClaimed_plays).world.state id) :=
  index_consistent consistent_empty (run_played completesClaimed_plays)

end ClaudeSwarm.SwarmRedis
