import ClaudeSwarm.Sqlite.Backend

/-!
# What a statement finds when it runs

The guards of the SQLite backend are spread over `WHERE` clauses and earlier `SELECT`s. This module
says what they amount to at the moment a statement writes (`Stmt.Allowed`): a claim writes to a row
that is pending **in the table it writes to**, and no other transition writes `pending` or starts
from `completed`.

* `effect_of_exec`: the five things a command can do to the database.
* `exec_txn_other`: nobody changes another connection's transaction.
* `claimRow_outline`, `claimFirst_outline`: between the `SELECT` and the `UPDATE` of a claim the
  connection keeps the write lock, so what it selected is still pending.
* **`run_allowed`**: every statement of every run is allowed.
-/

namespace ClaudeSwarm.Sqlite

open Interleave Data

/-- The row `id` of `t` is pending. -/
def Pending (id : String) (t : Tasks) : Prop := ∃ r, t.find? id = some r ∧ r.state = .pending

/-- What the table is like when one of the methods executes a statement on it. -/
def Stmt.Allowed (t : Tasks) : Stmt → Prop
  | .claim _ _ id => Pending id t
  | .transition _ newState validFrom _ => newState ≠ .pending ∧ .completed ∉ validFrom
  | _ => True

/-- Every statement is executed on a table it is allowed on. -/
def Allowed : Guard system := fun w n _ c =>
  match c with
  | .execute st => st.Allowed (w.state.view n)
  | _ => True

/-- Connection `n` holds the write lock and its transaction sees `p`. -/
def Writing (n : Nat) (p : Tasks → Prop) (w : World system) : Prop :=
  ∃ t, w.state.txn = some t ∧ t.owner = n ∧ p t.view

theorem Db.view_of_txn {s : Db} {t : Txn} (h : s.txn = some t) : s.view t.owner = t.view := by
  simp [Db.view, h]

theorem Writing.view {n : Nat} {p : Tasks → Prop} {w : World system} (h : Writing n p w) :
    p (w.state.view n) := by
  obtain ⟨t, ht, rfl, hp⟩ := h
  rwa [Db.view_of_txn ht]

theorem Writing.mono {n : Nat} {p q : Tasks → Prop} {w : World system} (hpq : ∀ t, p t → q t)
    (h : Writing n p w) : Writing n q w := by
  obtain ⟨t, ht, ho, hp⟩ := h
  exact ⟨t, ht, ho, hpq _ hp⟩

/-- What a command of connection `n` does to the database. -/
inductive Effect (n : Nat) (s : Db) : Cmd → Db → Prop
  | same {c : Cmd} : Effect n s c s
  | begin_ {c : Cmd} (h : s.txn = none) : Effect n s c { s with txn := some ⟨n, s.table, []⟩ }
  | write {st : Stmt} {t : Txn} {k : Nat} {view : Tasks}
      (ht : s.txn = some t ∧ t.owner = n ∨ s.txn = none ∧ t = ⟨n, s.table, []⟩)
      (hr : st.run t.view = some (k, view)) :
      Effect n s (.execute st) { s with txn := some ⟨t.owner, view, ⟨t.owner, st, k⟩ :: t.done⟩ }
  | commit {t : Txn} (ht : s.txn = some t) (ho : t.owner = n) :
      Effect n s .commit ⟨t.view, none, ⟨n, t.done, t.view⟩ :: s.commits⟩
  | abandon {c : Cmd} : Effect n s c { s with txn := none }

/-- What an executed statement leaves of the transaction. -/
theorem Txn.execute_cases (t : Txn) (st : Stmt) :
    (t.execute st).2 = t ∨ ∃ k view, st.run t.view = some (k, view) ∧
      (t.execute st).2 = ⟨t.owner, view, ⟨t.owner, st, k⟩ :: t.done⟩ := by
  unfold Txn.execute
  cases h : st.run t.view with
  | none => exact Or.inl rfl
  | some p => exact Or.inr ⟨p.1, p.2, rfl, rfl⟩

theorem effect_of_exec {n : Nat} {i : Env} {s s' : Db} {c : Cmd} {x : Resp c}
    (h : exec n i s c = some (x, s')) : Effect n s c s' := by
  cases c with
  | beginImmediate =>
    simp only [exec] at h
    split at h
    · rename_i ht
      cases h
      exact .begin_ ht
    · split at h <;> cases h
      exact .same
  | execute st =>
    simp only [exec] at h
    split at h
    · rename_i ht
      cases h
      rcases Txn.execute_cases ⟨n, s.table, []⟩ st with hx | ⟨k, view, hr, hx⟩
      · rw [hx]
        exact .begin_ ht
      · rw [hx]
        exact .write (Or.inr ⟨ht, rfl⟩) hr
    · rename_i t ht
      split at h
      · rename_i ho
        cases h
        rcases t.execute_cases st with hx | ⟨k, view, hr, hx⟩
        · rw [hx, ← ht]
          exact .same
        · rw [hx]
          exact .write (Or.inl ⟨ht, ho⟩) hr
      · split at h <;> cases h
        exact .same
  | commit =>
    simp only [exec] at h
    split at h
    · rename_i t ht
      split at h <;> cases h
      · exact .commit ht ‹_›
      · exact .same
    · cases h
      exact .same
  | rollback | close =>
    simp only [exec] at h
    split at h
    · split at h <;> cases h
      · exact .abandon
      · exact .same
    · cases h
      exact .same
  | _ =>
    cases h
    exact .same

/-- The table a statement runs on is the one its connection sees. -/
theorem Db.view_of_open {n : Nat} {s : Db} {t : Txn}
    (ht : s.txn = some t ∧ t.owner = n ∨ s.txn = none ∧ t = ⟨n, s.table, []⟩) :
    s.view n = t.view := by
  rcases ht with ⟨ht, rfl⟩ | ⟨ht, rfl⟩
  · exact Db.view_of_txn ht
  · simp [Db.view, ht]

/-- A connection does not change another one's transaction. -/
theorem exec_txn_other {m : Nat} {i : Env} {s s' : Db} {c : Cmd} {x : Resp c} {t : Txn}
    (h : exec m i s c = some (x, s')) (ht : s.txn = some t) (ho : t.owner ≠ m) :
    s'.txn = some t := by
  cases c <;> simp only [exec, ht, if_neg ho, Option.some.injEq, Prod.mk.injEq] at h
  case beginImmediate | execute =>
    split at h
    · obtain ⟨-, rfl⟩ := Prod.mk.inj (Option.some.inj h)
      exact ht
    · cases h
  all_goals exact h.2 ▸ ht

/-- The discipline: the runs under `G`, and every statement allowed. -/
def protocol (G : Guard system) : Discipline system where
  Guard := G
  Inv _ := True
  Guar w e := Allowed w e.call e.op e.cmd

variable {G : Guard system} {n : Nat} {o : Op}

theorem stable_writing {p : Tasks → Prop} : Stable (protocol G) n (Writing n p) := by
  intro w e w' hn _ _ _ hf _ ⟨t, ht, ho, hp⟩
  obtain ⟨i, hx⟩ := hf.1
  exact ⟨t, exec_txn_other hx ht (ho ▸ hn.symm), ho, hp⟩

/-- A command that is allowed whatever the table holds. -/
def Plain : Cmd → Prop
  | .execute st => ∀ t, st.Allowed t
  | _ => True

theorem outline_plain {α : Type} {p : P α} {A : World system → Prop} (h : p.Each Plain) :
    Outline (protocol G) n o (fun _ _ => True) p A := by
  refine outline_pre (fun _ _ _ => trivial) (outline_of_each stable_true (fun c hc => ?_) h)
  refine fun w x w' _ _ _ _ => ⟨?_, trivial, trivial⟩
  cases c with
  | execute st => exact hc _
  | _ => trivial

theorem close_plain : (cmd .close).Each Plain := ⟨trivial, fun _ => trivial⟩

theorem closing_plain {α : Type} {p : P α} (h : p.Each Plain) : (closing p).Each Plain :=
  Prog.each_finally close_plain h

theorem outline_closing {p : P (Option Row)} {A : World system → Prop}
    (h : Outline (protocol G) n o (fun _ _ => True) p A) :
    Outline (protocol G) n o (fun _ _ => True) (closing p) A :=
  outline_finally (R := fun _ _ => True) (fun _ => outline_mono (fun _ _ h => h)
    (fun r _ _ _ => by cases r <;> trivial) (outline_plain close_plain)) h

/-! ## The claims -/

theorem pending_of_mem {t : Tasks} {r : Row} (h : r ∈ inState t .pending) : Pending r.id t :=
  ⟨r, Table.find?_of_mem (mem_inState.mp h).1, (mem_inState.mp h).2⟩

/-- A read keeps the connection's transaction and tells what it sees. -/
theorem establishes_read {p : Tasks → Prop} {c : Cmd} {q : Resp c → Tasks → Prop}
    (hc : ∀ i s, ∃ x, exec n i s c = some (x, s) ∧ (p (s.view n) → q x (s.view n)))
    (ha : ∀ w : World system, Allowed w n o c) :
    Establishes (protocol G) n o (Writing n p) c fun x => Writing n (q x) := by
  intro w x w' _ hw _ hf
  obtain ⟨i, hx⟩ := hf.1
  obtain ⟨y, hy, hp⟩ := hc i w.state
  obtain ⟨rfl, hs⟩ := Prod.mk.inj (Option.some.inj (hx.symm.trans hy))
  refine ⟨ha w, trivial, ?_⟩
  have hv := hp hw.view
  obtain ⟨t, ht, rfl, -⟩ := hw
  rw [Db.view_of_txn ht] at hv
  exact ⟨t, by rw [hs, ht], rfl, hv⟩

theorem rollbackRaise_plain {α : Type} (e : Python.PyError) :
    (rollbackRaise (α := α) e).Each Plain := ⟨trivial, fun _ => trivial⟩

/-- The common end of both claims: the row selected is still pending when it is updated. -/
theorem claimRow_outline {claimer id : String} :
    Outline (protocol G) n o (fun _ _ => True) (claimRow claimer id) (Writing n (Pending id)) := by
  refine outline_cmd (fun _ => Writing n (Pending id)) (fun _ => stable_writing)
    (establishes_read (fun i s => ⟨i.now, rfl, fun h => h⟩) fun _ => trivial) fun now => ?_
  refine outline_cmd (fun _ _ => True) (fun _ => stable_true)
    (fun w x w' _ hw _ _ => ⟨hw.view, trivial, trivial⟩) fun x => ?_
  cases x with
  | error e => exact outline_plain (rollbackRaise_plain e)
  | ok k => exact outline_plain ⟨trivial, fun _ => ⟨trivial, fun _ => trivial⟩⟩

/-- What `beginImmediate` gives: the lock, or the refusal. -/
theorem establishes_begin {A : World system → Prop} :
    Establishes (protocol G) n o A .beginImmediate fun x w => x = true → Writing n (fun _ => True) w := by
  intro w x w' _ _ _ hf
  obtain ⟨i, hx⟩ := hf.1
  refine ⟨trivial, trivial, fun hlock => ?_⟩
  simp only [exec] at hx
  split at hx
  · obtain ⟨-, hs⟩ := Prod.mk.inj (Option.some.inj hx)
    exact ⟨_, by rw [← hs], rfl, trivial⟩
  · split at hx
    · obtain ⟨hr, -⟩ := Prod.mk.inj (Option.some.inj hx)
      exact absurd (hr.trans hlock) Bool.false_ne_true
    · cases hx

theorem stable_lock {b : Bool} {p : Tasks → Prop} :
    Stable (protocol G) n fun w => b = true → Writing n p w :=
  fun w e w' hn hi hg hr hf hi' h hb => stable_writing w e w' hn hi hg hr hf hi' (h hb)

/-- The row found, by either `SELECT`, is pending in the table it was read from. -/
theorem selectClaimable_outline {task_id : Option String} :
    Outline (protocol G) n o
      (Outcome (fun row => Writing n fun t => ∀ id, row = some id → Pending id t) fun _ _ => True)
      (selectClaimable task_id) (Writing n fun _ => True) := by
  unfold selectClaimable
  cases task_id.filter (· ≠ "") with
  | some id =>
    refine outline_op (fun x : Option String => Writing n fun t => ∀ id, x = some id → Pending id t)
      (fun _ => stable_writing) (establishes_read (fun i s => ⟨_, rfl, fun _ id' h => ?_⟩)
        fun _ => trivial) fun x w _ h => h
    obtain ⟨r, hr, h⟩ := Option.bind_eq_some_iff.mp h
    split at h
    · rename_i hst
      cases h
      exact ⟨r, by rw [Table.find?_key hr]; exact hr, hst⟩
    · cases h
  | none =>
    refine outline_op (fun x : Option String => Writing n fun t => ∀ id, x = some id → Pending id t)
      (fun _ => stable_writing) (establishes_read (fun i s => ⟨_, rfl, fun _ id' h => ?_⟩)
        fun _ => trivial) fun x w _ h => h
    obtain ⟨r, hr, rfl⟩ := Option.map_eq_some_iff.mp h
    exact pending_of_mem (List.mem_of_mem_head? hr)

theorem claim_outline {claimer : String} {task_id : Option String} {A : World system → Prop} :
    Outline (protocol G) n o (fun _ _ => True) (claim claimer task_id) A := by
  refine outline_closing (outline_cmd _ (fun _ => stable_lock) establishes_begin fun x => ?_)
  cases x with
  | false => exact outline_plain (rollbackRaise_plain _)
  | true =>
    refine outline_pre (fun w _ h => h rfl) (outline_bind (fun row => ?_) selectClaimable_outline)
    cases row with
    | none => exact outline_plain ⟨trivial, fun _ => trivial⟩
    | some id => exact outline_pre (fun w _ h => h.mono fun t ht => ht id rfl) claimRow_outline

/-- The loop keeps the transaction, so every row it was given is still pending. -/
theorem claimFirst_outline {caps : List String} {claimer : String} :
    ∀ {rows : List (String × String)}, Outline (protocol G) n o (fun _ _ => True)
      (claimFirst caps claimer rows) (Writing n fun t => ∀ r ∈ rows, Pending r.1 t)
  | [] => outline_plain ⟨trivial, fun _ => trivial⟩
  | (id, requires) :: rows => by
    unfold claimFirst
    split
    · split
      · exact outline_pre (fun w _ h => h.mono fun t ht => ht _ List.mem_cons_self) claimRow_outline
      · exact outline_pre (fun w _ h => h.mono fun t ht r hr => ht r (List.mem_cons_of_mem _ hr))
          claimFirst_outline
    · exact outline_plain trivial

theorem claimMatching_outline {caps : List String} {claimer : String} {A : World system → Prop} :
    Outline (protocol G) n o (fun _ _ => True) (claimMatching caps claimer) A := by
  refine outline_closing (outline_cmd _ (fun _ => stable_lock) establishes_begin fun x => ?_)
  cases x with
  | false => exact outline_plain (rollbackRaise_plain _)
  | true =>
    refine outline_pre (fun w _ h => h rfl) (outline_cmd _ (fun _ => stable_writing)
      (establishes_read (q := fun x t => ∀ r ∈ x, Pending r.1 t) (fun i s => ⟨_, rfl, ?_⟩)
        fun _ => trivial) fun rows => claimFirst_outline)
    intro _ p hp
    obtain ⟨r, hr, rfl⟩ := List.mem_map.mp hp
    exact pending_of_mem hr

/-! ## The other methods -/

theorem transition_plain {task_id : String} {s : TaskState} {validFrom : List TaskState}
    {set : List Assign} (hs : s ≠ .pending) (hc : .completed ∉ validFrom) :
    (transition task_id s validFrom set).Each Plain := by
  refine closing_plain ⟨fun _ => ⟨hs, hc⟩, fun x => ?_⟩
  cases x with
  | error e => trivial
  | ok k =>
    refine ⟨trivial, fun _ => ?_⟩
    by_cases hk : k = 0
    · simp only [hk, if_true]
      trivial
    · simp only [hk, if_false]
      exact ⟨trivial, fun _ => trivial⟩

theorem requeueEach_plain : ∀ (ids done : List String), (requeueEach ids done).Each Plain
  | [], _ => ⟨trivial, fun _ => trivial⟩
  | id :: ids, done => by
    refine ⟨fun _ => trivial, fun x => ?_⟩
    cases x with
    | error e => trivial
    | ok k => exact requeueEach_plain ids (done ++ [id])

theorem prog_outline (n : Nat) (o : Op) {A : World system → Prop} :
    Outline (protocol G) n o (fun _ _ => True) (prog o) A := by
  cases o with
  | claim claimer task_id => exact claim_outline
  | claimMatching caps claimer => exact claimMatching_outline
  | create =>
    refine outline_plain ⟨trivial, fun _ => ⟨trivial, fun _ => ⟨trivial, fun _ => ?_⟩⟩⟩
    refine closing_plain ⟨fun _ => trivial, fun x => ?_⟩
    cases x with
    | error e => trivial
    | ok k => exact ⟨trivial, fun _ => ⟨trivial, fun _ => trivial⟩⟩
  | start => exact outline_plain (transition_plain (by decide) (by decide))
  | complete =>
    exact outline_plain ⟨trivial, fun _ => transition_plain (by decide) (by decide)⟩
  | fail => exact outline_plain ⟨trivial, fun _ => transition_plain (by decide) (by decide)⟩
  | requeue =>
    refine outline_plain (closing_plain
      ⟨fun _ => trivial, fun x => ?_⟩)
    cases x with
    | error e => trivial
    | ok k => exact ⟨trivial, fun _ => ⟨trivial, fun _ => trivial⟩⟩
  | requeueStale =>
    exact outline_plain ⟨trivial, fun _ => closing_plain
      ⟨trivial, fun ids => requeueEach_plain ids []⟩⟩

/-- **Every statement of every run is allowed.** -/
theorem run_allowed {t : Tasks} {c : Config system} (h : Run G (opened t) c) :
    Run (fun w n o cmd => G w n o cmd ∧ Allowed w n o cmd) (opened t) c :=
  run_obeys (M := system) (D := protocol G) (K := Allowed) (fun _ _ h => h)
    (fun n o => prog_outline n o) trivial h

end ClaudeSwarm.Sqlite
