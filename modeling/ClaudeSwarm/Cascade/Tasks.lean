import ClaudeSwarm.Cascade.Ledger

/-!
# The functions on tasks, run alone

What `task_write`, `task_read` and `task_list_by_state` do to a database that nobody else is using (`Alone`), and
what they answer.

* **`runs_taskWrite`**: the row of the task is replaced, and its row in `tasks_by_state` follows its state.
* `runs_onSqlite`: a function of `_SQLiteStore` called by the cascade.
-/

namespace ClaudeSwarm.Cascade.Sqlite

open Interleave Data
open Python (Time truncate)

/-- The tables after `task_write`. -/
def Tables.writeTask (t : Tables) (task_id : String) (state : TaskState) (text : String) (now : Int) : Tables :=
  let t₁ := match t.tasks task_id with
    | some old => if differs old.state (stateName state) then t.deleteByState old.state task_id else t
    | none => t
  let t₂ := t₁.insertTask task_id ⟨text, Json.dumps (.obj state.entries), now⟩
  if truthy (stateName state) then t₂.insertByState text task_id else t₂

/-- Connection `n` alone uses the database: what is committed, and what it sees. -/
structure Alone (n : Nat) (now : Time) (c t : Tables) (s : State) : Prop where
  now : s.now = now
  db : s.db = .at_ c ∧ t = c ∨ s.db = ⟨c, some (n, t)⟩

variable {real : String → Option String} {n : Nat} {now : Time} {c t : Tables} {s s' : State} {i : Env}

theorem alone_at (now : Time) (t : Tables) : Alone n now t t ⟨now, .at_ t⟩ := ⟨rfl, Or.inl ⟨rfl, rfl⟩⟩

theorem Alone.view (h : Alone n now c t s) : s.db.view n = t := by
  rcases h.db with ⟨hdb, rfl⟩ | hdb
  · rw [hdb, Database.view_at]
  · simp [hdb, Database.view]

theorem Alone.commit (h : Alone n now c t s) : (⟨s.now, s.db.commit n⟩ : State) = ⟨now, .at_ t⟩ := by
  rcases h.db with ⟨hdb, rfl⟩ | hdb
  · rw [hdb, Database.commit_at, h.now]
  · rw [hdb, Database.commit_own, h.now]

theorem Alone.rollback (h : Alone n now c t s) : (⟨s.now, s.db.rollback n⟩ : State) = ⟨now, .at_ c⟩ := by
  rcases h.db with ⟨hdb, rfl⟩ | hdb
  · rw [hdb, Database.rollback_at, h.now]
  · rw [hdb, Database.rollback_own, h.now]

/-- A write is not refused. -/
theorem Alone.change (h : Alone n now c t s) {f : Tables → Tables} {x : Except Exc Unit}
    (hx : change n i s f = some (x, s')) : x = .ok () ∧ Alone n now c (f t) s' := by
  rcases h.db with ⟨hdb, rfl⟩ | hdb
  · rw [Sqlite.change, hdb, Database.write_at] at hx
    cases hx
    exact ⟨rfl, h.now, Or.inr rfl⟩
  · rw [Sqlite.change, hdb, Database.write_own] at hx
    cases hx
    exact ⟨rfl, h.now, Or.inr rfl⟩

variable {α : Type} {p : P α} {a : α} {r : Except Exc α}

/-- A function that returned: its connection has committed. -/
theorem runs_method (h : (store real).Runs n (orElse (withConn p) a) s r s') :
    (∃ b s₁, (store real).Runs n p s (.ok b) s₁ ∧ r = .ok b ∧ s' = ⟨s₁.now, s₁.db.commit n⟩) ∨
    ∃ e s₁, (store real).Runs n p s (.error e) s₁ ∧ s' = ⟨s₁.now, s₁.db.rollback n⟩ ∧
      r = if e = .overflow then .error .overflow else .ok a := by
  have hconn : ∀ {r : Except Exc α} {s'}, (store real).Runs n (withConn p) s r s' →
      (∃ b s₁, (store real).Runs n p s (.ok b) s₁ ∧ r = .ok b ∧ s' = ⟨s₁.now, s₁.db.commit n⟩) ∨
      ∃ e s₁, (store real).Runs n p s (.error e) s₁ ∧ r = .error e ∧ s' = ⟨s₁.now, s₁.db.rollback n⟩ := by
    intro r s' h
    obtain ⟨b, s₁, hcatch, i, x, s₂, hx, rfl, rfl⟩ | ⟨e, hcatch, rfl⟩ := (Store.runs_bind _ n).mp h
    · cases hx
      obtain ⟨b', hb, hp⟩ | ⟨e, s₂, -, i', x, s₃, hx, he, -⟩ := (Store.runs_catch _ n).mp hcatch
      · cases hb
        exact Or.inl ⟨b, s₁, hp, rfl, rfl⟩
      · cases he
    · obtain ⟨b', hb, -⟩ | ⟨e', s₂, hp, i, x, s₃, hx, he, rfl⟩ := (Store.runs_catch _ n).mp hcatch
      · cases hb
      · cases he
        cases hx
        exact Or.inr ⟨e, s₂, hp, rfl, rfl⟩
  obtain ⟨b, rfl, hp⟩ | ⟨e, s₁, hp, hf⟩ := (Store.runs_catch _ n).mp h
  · obtain ⟨b', s₂, hp, hb, rfl⟩ | ⟨e, s₂, -, he, -⟩ := hconn hp
    · cases hb
      exact Or.inl ⟨b, s₂, hp, rfl, rfl⟩
    · cases he
  · obtain ⟨b, s₂, -, hb, -⟩ | ⟨e', s₂, hp, he, rfl⟩ := hconn hp
    · cases hb
    · cases he
      refine Or.inr ⟨e, s₂, hp, ?_⟩
      cases e with
      | sqlite msg =>
        obtain ⟨rfl, rfl⟩ := hf
        exact ⟨rfl, rfl⟩
      | overflow =>
        obtain ⟨rfl, rfl⟩ := hf
        exact ⟨rfl, rfl⟩

/-- What a method that only reads leaves. -/
theorem runs_reading {b : α} (h : (store real).Runs n (orElse (withConn p) a) ⟨now, .at_ t⟩ r s')
    (hp : ∀ r₁ s₁, (store real).Runs n p ⟨now, .at_ t⟩ r₁ s₁ → r₁ = .ok b ∧ s₁ = ⟨now, .at_ t⟩) :
    r = .ok b ∧ s' = ⟨now, .at_ t⟩ := by
  obtain ⟨b', s₁, hp₁, rfl, rfl⟩ | ⟨e, s₁, hp₁, -⟩ := runs_method h
  · obtain ⟨hb, rfl⟩ := hp _ _ hp₁
    exact ⟨hb, rfl⟩
  · cases (hp _ _ hp₁).1

theorem runs_taskRead {task_id : String} {r : Except Exc (Option Json)}
    (h : (store real).Runs n (taskRead task_id) ⟨now, .at_ t⟩ r s') :
    r = .ok ((t.tasks task_id).bind fun task => Json.loads task.data) ∧ s' = ⟨now, .at_ t⟩ := by
  refine runs_reading h fun r₁ s₁ ⟨i, x, s₂, hx, h₁⟩ => ?_
  cases hx
  cases htask : t.tasks task_id with
  | none =>
    simp only [Database.view_at, htask] at h₁
    exact h₁
  | some task =>
    simp only [Database.view_at, htask] at h₁
    exact h₁

theorem runs_taskListByState {state_name : String} {r : Except Exc (List Json)}
    (h : (store real).Runs n (taskListByState state_name) ⟨now, .at_ t⟩ r s') :
    r = .ok ((t.dataByState state_name).filterMap Json.loads) ∧ s' = ⟨now, .at_ t⟩ := by
  refine runs_reading h fun r₁ s₁ ⟨i, x, s₂, hx, h₁⟩ => ?_
  cases hx
  exact h₁

/-! ## Writing -/

/-- The tables after "Remove from old state index". -/
def Tables.removeOld (t : Tables) (task_id : String) (state_name : Json) : Tables :=
  match t.tasks task_id with
  | some old => if differs old.state state_name then t.deleteByState old.state task_id else t
  | none => t

theorem runs_removeOld {task_id : String} {state_name : Json} {r : Except Exc Unit} (ha : Alone n now c t s)
    (h : (store real).Runs n (removeOld task_id state_name) s r s') :
    r = .ok () ∧ Alone n now c (t.removeOld task_id state_name) s' := by
  obtain ⟨i, x, s₁, hx, h⟩ := h
  cases hx
  rw [ha.view] at h
  unfold Tables.removeOld
  cases htask : t.tasks task_id with
  | none =>
    rw [htask] at h
    obtain ⟨rfl, rfl⟩ := h
    exact ⟨rfl, ha⟩
  | some old =>
    rw [htask] at h
    change (store real).Runs n (if differs old.state state_name then _ else _) s r s' at h
    dsimp only
    split at h
    · rename_i hdiffers
      obtain ⟨i', x, s₂, hx, h⟩ := h
      obtain ⟨rfl, ha'⟩ := ha.change hx
      obtain ⟨rfl, rfl⟩ := h
      rw [if_pos hdiffers]
      exact ⟨rfl, ha'⟩
    · rename_i hdiffers
      obtain ⟨rfl, rfl⟩ := h
      rw [if_neg hdiffers]
      exact ⟨rfl, ha⟩

theorem Tables.writeTask_eq {task_id : String} {state : TaskState} {text : String} {now : Int} :
    t.writeTask task_id state text now =
      if truthy (stateName state) then
        ((t.removeOld task_id (stateName state)).insertTask task_id ⟨text, Json.dumps (.obj state.entries), now⟩).insertByState
          text task_id
      else
        (t.removeOld task_id (stateName state)).insertTask task_id ⟨text, Json.dumps (.obj state.entries), now⟩ := rfl

theorem Tables.tasks_removeOld {task_id : String} {state_name : Json} :
    (t.removeOld task_id state_name).tasks = t.tasks := by
  unfold Tables.removeOld
  split
  · split <;> rfl
  · rfl

/-- The rows of `tasks` after `task_write`. -/
theorem Tables.tasks_writeTask {task_id : String} {state : TaskState} {text : String} {now : Int} (k : String) :
    (t.writeTask task_id state text now).tasks k =
      if k = task_id then some ⟨text, Json.dumps (.obj state.entries), now⟩ else t.tasks k := by
  have hrow : (t.writeTask task_id state text now).tasks =
      Function.update t.tasks task_id (some ⟨text, Json.dumps (.obj state.entries), now⟩) := by
    rw [Tables.writeTask_eq, ← @Tables.tasks_removeOld t task_id (stateName state)]
    split <;> rfl
  rw [hrow, Function.update_apply]

/-- **`task_write`.** It answers `True` exactly when SQLite can store the state. -/
theorem runs_taskWrite {task_id : String} {state : TaskState} {r : Except Exc Bool}
    (h : (store real).Runs n (taskWrite task_id state) ⟨now, .at_ t⟩ r s') :
    (∃ text, bind real (stateName state) = .ok text ∧ r = .ok true ∧
      s' = ⟨now, .at_ (t.writeTask task_id state text (truncate now))⟩) ∨
    ∃ e, bind real (stateName state) = .error e ∧ r ≠ .ok true ∧ s' = ⟨now, .at_ t⟩ := by
  obtain ⟨i, x, s₀, hx, h⟩ := h
  cases hx
  have hbody : ∀ {r₁ s₁}, (store real).Runs n (do
      removeOld task_id (stateName state)
      Prog.ofExcept (← cmd (.insertTask task_id (stateName state) (Json.dumps (.obj state.entries)) (truncate now)))
      if truthy (stateName state) then Prog.ofExcept (← cmd (.insertByState (stateName state) task_id)) else pure ()
      return true : P Bool) ⟨now, .at_ t⟩ r₁ s₁ →
      (∃ text, bind real (stateName state) = .ok text ∧ r₁ = .ok true ∧
        Alone n now t (t.writeTask task_id state text (truncate now)) s₁) ∨
      ∃ e, bind real (stateName state) = .error e ∧ r₁ = .error e ∧ ∃ t', Alone n now t t' s₁ := by
    intro r₁ s₁ h
    obtain ⟨_, s₂, hold, h⟩ | ⟨e, hold, -⟩ := (Store.runs_bind _ n).mp h
    · obtain ⟨-, ha⟩ := runs_removeOld (alone_at now t) hold
      obtain ⟨i, x, s₃, hx, h⟩ := h
      cases hbind : bind real (stateName state) with
      | error e =>
        simp only [exec, hbind] at hx
        cases hx
        obtain ⟨rfl, rfl⟩ := h
        exact Or.inr ⟨e, rfl, rfl, _, ha⟩
      | ok text =>
        simp only [exec, hbind] at hx
        obtain ⟨rfl, ha'⟩ := ha.change hx
        refine Or.inl ⟨text, rfl, ?_⟩
        rw [Tables.writeTask_eq]
        cases htruthy : truthy (stateName state) with
        | false =>
          rw [htruthy] at h
          obtain ⟨rfl, rfl⟩ := h
          exact ⟨rfl, ha'⟩
        | true =>
          rw [htruthy] at h
          obtain ⟨i', x, s₄, hx', h⟩ := h
          simp only [exec, hbind] at hx'
          obtain ⟨rfl, ha''⟩ := ha'.change hx'
          obtain ⟨rfl, rfl⟩ := h
          exact ⟨rfl, ha''⟩
    · cases (runs_removeOld (alone_at now t) hold).1
  obtain ⟨b, s₁, hp, rfl, rfl⟩ | ⟨e, s₁, hp, rfl, rfl⟩ := runs_method h
  · obtain ⟨text, hbind, hb, ha⟩ | ⟨e, -, he, -⟩ := hbody hp
    · cases hb
      exact Or.inl ⟨text, hbind, rfl, ha.commit⟩
    · cases he
  · obtain ⟨text, -, hb, -⟩ | ⟨e', hbind, he, t', ha⟩ := hbody hp
    · cases hb
    · cases he
      refine Or.inr ⟨e, hbind, ?_, ha.rollback⟩
      split <;> simp

end ClaudeSwarm.Cascade.Sqlite

namespace ClaudeSwarm.Cascade.Ledger

open Interleave

variable {real : String → Option String} {n : Nat} {α : Type} {s s' : State} {r : Except Sqlite.Exc α}

theorem on_sqlite : ∀ p : Sqlite.P α, (sqlite real).on p = onSqlite p
  | .ret _ => rfl
  | .raise _ => rfl
  | .op c k => by
    have hk : (fun x => (sqlite real).on (k x)) = fun x => onSqlite (k x) := funext fun x => on_sqlite (k x)
    exact congrArg (@Prog.op sig Sqlite.Exc α (.sql c)) hk

/-- A function of `_SQLiteStore`. -/
theorem runs_onSqlite {p : Sqlite.P α} (h : (store real).Runs n (onSqlite p) s r s') :
    s' = { s with sqlite := s'.sqlite } ∧ (Sqlite.store real).Runs n p s.sqlite r s'.sqlite :=
  (sqlite real).runs_on (by rwa [on_sqlite])

end ClaudeSwarm.Cascade.Ledger
