import ClaudeSwarm.Sqlite.Backend

/-!
# The methods, run alone

What the methods of the SQLite backend do to a database nobody is writing (`AtRest`): the table they
leave and the row they return. `runs_cmd` executes one command symbolically; the lemmas after it are
its instances for each kind of command, and `runs_transition`, `runs_requeue` and `runs_claim` the
specifications of the methods.
-/

namespace ClaudeSwarm.Sqlite

open Data
open Python (Time PyError)

variable {n : Nat} {s s' : Db} {α : Type} {r : Except PyError α}

/-- Nobody holds the write lock. -/
def AtRest (s : Db) : Prop := s.txn = none

/-- The table after an update. -/
def Stmt.update (st : Stmt) (t : Tasks) : Tasks := t.update st.selects st.assign st.assign_id

/-- The database after connection `n` committed statement `st`, which changed `k` rows. -/
def Db.committed (s : Db) (n : Nat) (st : Stmt) (k : Nat) (t : Tasks) : Db :=
  ⟨t, none, ⟨n, [⟨n, st, k⟩], t⟩ :: s.commits⟩

theorem AtRest.view (h : AtRest s) : s.view n = s.table := by
  have ht : s.txn = none := h
  simp [Db.view, ht]

/-- The database answers every command, if need be that it is locked. -/
theorem exists_runs (n : Nat) (p : P α) (s : Db) : ∃ x s', store.Runs n p s x s' := by
  refine store.exists_runs n (fun s c => ⟨⟨0, "", "", true⟩, ?_⟩) p s
  cases c with
  | beginImmediate =>
    simp only [exec, if_true]
    split <;> exact ⟨_, _, rfl⟩
  | execute =>
    simp only [exec, if_true]
    split
    · exact ⟨_, _, rfl⟩
    · split <;> exact ⟨_, _, rfl⟩
  | commit | rollback | close =>
    simp only [exec]
    split
    · split <;> exact ⟨_, _, rfl⟩
    · exact ⟨_, _, rfl⟩
  | _ => exact ⟨_, _, rfl⟩

/-! ## Commands -/

section Commands

variable {c : Cmd} {f : Resp c → P α}

/-- A command whose answer and effect do not depend on the outside. -/
theorem runs_cmd {x : Resp c} {s₁ : Db} (hx : ∀ i, exec n i s c = some (x, s₁)) :
    store.Runs n (cmd c >>= f) s r s' ↔ store.Runs n (f x) s₁ r s' := by
  constructor
  · rintro ⟨i, y, s₂, hy, h⟩
    obtain ⟨rfl, rfl⟩ := Prod.mk.inj (Option.some.inj ((hx i).symm.trans hy))
    exact h
  · exact fun h => ⟨⟨0, "", "", false⟩, x, s₁, hx _, h⟩

theorem closing_cmd : closing (cmd c >>= f) = cmd c >>= fun x => closing (f x) := rfl

end Commands

theorem runs_now {f : Time → P α} :
    store.Runs n (cmd .now >>= f) s r s' ↔ ∃ i : Env, store.Runs n (f i.now) s r s' := by
  constructor
  · rintro ⟨i, y, s₂, hy, h⟩
    cases hy
    exact ⟨i, h⟩
  · rintro ⟨i, h⟩
    exact ⟨i, _, _, rfl, h⟩

theorem runs_uuid {f : String → P α} :
    store.Runs n (cmd .uuid >>= f) s r s' ↔ ∃ i : Env, store.Runs n (f i.uuid) s r s' := by
  constructor
  · rintro ⟨i, y, s₂, hy, h⟩
    cases hy
    exact ⟨i, h⟩
  · rintro ⟨i, h⟩
    exact ⟨i, _, _, rfl, h⟩

theorem runs_selectRow {id : String} {f : Option Row → P α} :
    store.Runs n (cmd (.selectRow id) >>= f) s r s' ↔
      store.Runs n (f ((s.view n).find? id)) s r s' :=
  runs_cmd (c := .selectRow id) fun _ => rfl

theorem runs_close {f : Unit → P α} (h : AtRest s) :
    store.Runs n (cmd .close >>= f) s r s' ↔ store.Runs n (f ()) s r s' := by
  have ht : s.txn = none := h
  exact runs_cmd (c := .close) fun _ => by simp [exec, ht]

/-- The database after connection `n` opened a transaction. -/
def Db.begun (s : Db) (n : Nat) : Db := { s with txn := some ⟨n, s.table, []⟩ }

/-- A statement and its commit, whether or not the transaction was already begun. -/
theorem runs_write_commit {st : Stmt} {k : Nat} {t : Tasks} {f : Except PyError Nat → P α}
    {g : Unit → P α} {s₀ : Db} (h : s = s₀ ∧ AtRest s₀ ∨ s = s₀.begun n)
    (hst : st.run s₀.table = some (k, t)) (hf : f (.ok k) = cmd .commit >>= g) :
    store.Runs n (cmd (.execute st) >>= f) s r s' ↔
      store.Runs n (g ()) (s₀.committed n st k t) r s' := by
  have hexec : ∀ i, exec n i s (.execute st) =
      some (.ok k, { s₀ with txn := some ⟨n, t, [⟨n, st, k⟩]⟩ }) := by
    intro i
    rcases h with ⟨rfl, h⟩ | rfl
    · have ht : s.txn = none := h
      simp [exec, ht, Txn.execute, hst]
    · simp [exec, Db.begun, Txn.execute, hst]
  rw [runs_cmd hexec, hf]
  exact runs_cmd (c := .commit) fun _ => by simp [exec, Db.committed]

theorem atRest_committed {st : Stmt} {k : Nat} {t : Tasks} : AtRest (s.committed n st k t) := rfl

/-! ## Methods -/

/-- `get`. -/
theorem runs_get {id : String} {r : Except PyError (Option Row)} (h : AtRest s) :
    store.Runs n (get id) s r s' ↔ r = .ok (s.table.find? id) ∧ s' = s := by
  have hget : store.Runs n (get id) s r s' ↔ store.Runs n (.ret ((s.view n).find? id)) s r s' :=
    runs_selectRow (f := .ret)
  rw [h.view] at hget
  exact hget

/-- A method's last `get`. -/
theorem runs_closing_get {id : String} {r : Except PyError (Option Row)} (h : AtRest s) :
    store.Runs n (closing (get id)) s r s' ↔ r = .ok (s.table.find? id) ∧ s' = s := by
  have hget : store.Runs n (closing (get id)) s r s' ↔
      store.Runs n (cmd .close >>= fun _ => .ret ((s.view n).find? id)) s r s' :=
    runs_selectRow (f := fun row => cmd .close >>= fun _ => .ret row)
  rw [h.view, runs_close h] at hget
  exact hget

/-- `_transition`. -/
theorem runs_transition {id : String} {new : TaskState} {validFrom : List TaskState}
    {set : List Assign} {r : Except PyError (Option Row)} (h : AtRest s)
    (hr : store.Runs n (transition id new validFrom set) s r s') :
    AtRest s' ∧ s'.table = (Stmt.transition id new validFrom set).update s.table := by
  rw [transition, closing_cmd, runs_write_commit (Or.inl ⟨rfl, h⟩) rfl rfl] at hr
  simp only at hr
  split at hr
  · obtain ⟨-, rfl⟩ := (runs_close (f := fun _ => .ret none) atRest_committed).mp hr
    exact ⟨rfl, rfl⟩
  · obtain ⟨-, rfl⟩ := (runs_closing_get atRest_committed).mp hr
    exact ⟨rfl, rfl⟩

/-- `requeue`. -/
theorem runs_requeue {id : String} {r : Except PyError (Option Row)} (h : AtRest s)
    (hr : store.Runs n (requeue id) s r s') :
    AtRest s' ∧ s'.table = (Stmt.requeue id).update s.table := by
  rw [requeue, closing_cmd, runs_write_commit (Or.inl ⟨rfl, h⟩) rfl rfl] at hr
  obtain ⟨-, rfl⟩ := (runs_closing_get atRest_committed).mp hr
  exact ⟨rfl, rfl⟩

/-- The end of a claim. -/
theorem runs_claimRow {claimer id : String} {row : Row}
    (hr : store.Runs n (closing (claimRow claimer id)) (s.begun n) (.ok (some row)) s') :
    AtRest s' ∧ s'.table.find? row.id = some row := by
  obtain ⟨i, hr⟩ := runs_now.mp hr
  replace hr := (runs_write_commit (Or.inr rfl) rfl rfl).mp hr
  obtain ⟨hrow, rfl⟩ := (runs_closing_get atRest_committed).mp hr
  have hfind := (Except.ok.inj hrow).symm
  exact ⟨rfl, by rw [Table.find?_key hfind]; exact hfind⟩

/-- `claim`: a row it returns is the one in the table it leaves. -/
theorem runs_claim {claimer : String} {task_id : Option String} {row : Row} (h : AtRest s)
    (hr : store.Runs n (claim claimer task_id) s (.ok (some row)) s') :
    AtRest s' ∧ s'.table.find? row.id = some row := by
  have ht : s.txn = none := h
  have hbegin : ∀ i, exec n i s .beginImmediate = some (true, s.begun n) := fun _ => by
    simp [exec, ht, Db.begun]
  have hrollback : ∀ i, exec n i (s.begun n) .rollback = some ((), s) := fun _ => by
    simp [exec, Db.begun, ← ht]
  replace hr := (runs_cmd hbegin).mp hr
  have hsel : ∃ x, store.Runs n (closing (match x with
      | none => do cmd .rollback; return none
      | some id => claimRow claimer id)) (s.begun n) (.ok (some row)) s' := by
    simp only [selectClaimable] at hr
    split at hr
    · exact ⟨_, (runs_cmd (c := .selectPendingId _) fun _ => rfl).mp hr⟩
    · exact ⟨_, (runs_cmd (c := .selectNextPending) fun _ => rfl).mp hr⟩
  obtain ⟨x, hr⟩ := hsel
  cases x with
  | none =>
    replace hr := (runs_cmd hrollback).mp hr
    cases ((runs_close (f := fun _ => .ret none) h).mp hr).1
  | some id => exact runs_claimRow hr

end ClaudeSwarm.Sqlite
