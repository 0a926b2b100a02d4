import ClaudeSwarm.TaskQueue.Board
import ClaudeSwarm.TaskQueue.Persist

/-!
# The board in SQLite

A database at rest holds the board of its rows (`Holds`). `_save` has no method for a claimed task, so
the backend does not keep a board in the sense of `Serves`; what its calls do to the table is stated
for the rows.

* `runs_listByState`: a listing shows the first rows of a state by priority and creation.
* `runs_requeueStaleAt`: a sweep puts back every stale row.
* **`kept_of_call`**: a call leaves the rows of the table in place, each in one of the five states.
-/

namespace ClaudeSwarm.TaskQueue.Sqlite

open Interleave Data ClaudeSwarm.Sqlite
open Python (Time PyError FloatFmt)

variable {F : FloatFmt} {n : Nat} {s s' : Db} {α : Type}

/-! ## Holding a board -/

/-- The rows are tasks of the queue. -/
structure Sound (t : Tasks) : Prop where
  state : ∀ row ∈ t.rows, row.state ∈ allStates
  tier : ∀ row ∈ t.rows, 0 ≤ row.priority ∧ row.priority ≤ 5

/-- The board of a table. -/
def boardOf (t : Tasks) : Board :=
  ⟨t.rows.map taskOf, by
    rw [List.map_map]
    exact t.nodup⟩

/-- The database holds the board `l`. -/
structure Holds (s : Db) (l : Board) : Prop where
  rest : AtRest s
  board : l = boardOf s.table
  sound : Sound s.table

/-- The tasks a listing shows. -/
def shown (s : Db) (st : TaskState) (k : Nat) : List Task := ((inState s.table st).take k).map taskOf

theorem find?_boardOf (t : Tasks) (id : String) : (boardOf t).find? id = (t.find? id).map taskOf := by
  unfold boardOf Table.find?
  rw [List.find?_map]
  rfl

theorem Holds.mem {l : Board} (h : Holds s l) {t : Task} :
    t ∈ l.rows ↔ ∃ row ∈ s.table.rows, taskOf row = t := by
  rw [h.board]
  exact List.mem_map

/-- `_list_by_state`. -/
theorem runs_listByState {st : TaskState} {k : Nat} {x : Except PyError (List Task)} (h : AtRest s) :
    store.Runs n ((backend F).listByState st k) s x s' ↔ x = .ok (shown s st k) ∧ s' = s := by
  have hlist : ∀ y s₁, store.Runs n (ClaudeSwarm.Sqlite.listByState st k) s y s₁ ↔
      y = .ok ((inState s.table st).take k) ∧ s₁ = s := by
    intro y s₁
    have hsel : store.Runs n (ClaudeSwarm.Sqlite.listByState st k) s y s₁ ↔
        store.Runs n (.ret ((inState (s.view n) st).take k)) s y s₁ :=
      runs_cmd (c := .selectByState st k) (f := .ret) fun _ => rfl
    rw [h.view] at hsel
    exact hsel
  exact (Store.runs_bind_of store n hlist).trans runs_fromRows

/-! ## What calls keep -/

/-- The database is at rest again and has the same rows, in legal states. -/
structure Kept (s s' : Db) : Prop where
  rest : AtRest s'
  ids : s'.table.rows.map Row.id = s.table.rows.map Row.id
  sound : Sound s.table → Sound s'.table

theorem Kept.refl (h : AtRest s) : Kept s s := ⟨h, rfl, fun h => h⟩

theorem Kept.of_eq (h : AtRest s) (hs : s' = s) : Kept s s' := by
  subst hs
  exact .refl h

/-- A statement that leaves a row in a state of the queue. -/
def Legal : Stmt → Prop
  | .insert _ => False
  | .transition _ new _ _ => new ∈ allStates
  | _ => True

theorem foldl_assign_priority (set : List Assign) : ∀ r : Row,
    (set.foldl (fun r a => a.apply r) r).priority = r.priority := by
  induction set with
  | nil => exact fun _ => rfl
  | cons a set ih =>
    intro r
    rw [List.foldl_cons, ih]
    cases a <;> rfl

theorem Legal.assign {st : Stmt} (h : Legal st) (r : Row) :
    (st.assign r).state ∈ allStates ∧ (st.assign r).priority = r.priority := by
  cases st with
  | insert => exact h.elim
  | transition id new validFrom set =>
    refine ⟨?_, foldl_assign_priority set _⟩
    have hst := (foldl_assign set { r with state := new }).2.1
    exact hst ▸ h
  | _ => exact ⟨by simp [Stmt.assign, allStates], rfl⟩

theorem ids_update (st : Stmt) (t : Tasks) : (st.update t).rows.map Row.id = t.rows.map Row.id := by
  unfold Stmt.update Table.update
  rw [List.map_map]
  refine List.map_congr_left fun r _ => ?_
  by_cases h : st.selects r = true <;> simp [h, Stmt.assign_id]

theorem sound_update {st : Stmt} {t : Tasks} (hst : Legal st) (h : Sound t) : Sound (st.update t) := by
  refine ⟨fun row hrow => ?_, fun row hrow => ?_⟩ <;> obtain ⟨r, hr, rfl⟩ := List.mem_map.mp hrow
  · split
    · exact (hst.assign r).1
    · exact h.state r hr
  · split
    · rw [(hst.assign r).2]
      exact h.tier r hr
    · exact h.tier r hr

/-- An update, committed. -/
theorem kept_of_update {st : Stmt} (hst : Legal st) (hrest : AtRest s')
    (ht : s'.table = st.update s.table) : Kept s s' :=
  ⟨hrest, by rw [ht, ids_update], fun h => ht ▸ sound_update hst h⟩

/-- `_transition`. -/
theorem kept_of_transition {id : String} {new : TaskState} {validFrom : List TaskState}
    {set : List Assign} {x : Except PyError (Option Row)} (h : AtRest s) (hnew : new ∈ allStates)
    (hr : store.Runs n (transition id new validFrom set) s x s') : Kept s s' := by
  obtain ⟨hrest, ht⟩ := runs_transition h hr
  exact @kept_of_update _ _ (.transition id new validFrom set) hnew hrest ht

/-- A method of the backend whose answer is dropped. -/
theorem kept_of_dropped {p : P (Option Row)} {x : Except PyError Unit}
    (hp : ∀ {y s₁}, store.Runs n p s y s₁ → Kept s s₁)
    (hr : store.Runs n (p >>= fun _ => .ret ()) s x s') : Kept s s' := by
  rcases (Store.runs_bind store n).mp hr with ⟨row, s₁, hr, -, rfl⟩ | ⟨e, hr, -⟩
  · exact hp hr
  · exact hp hr

/-- `_save`. -/
theorem kept_of_save {t : Task} {x : Except PyError Unit} (h : AtRest s)
    (hr : store.Runs n (save t) s x s') : Kept s s' := by
  unfold save at hr
  cases hst : t.state with
  | completed =>
    rw [hst] at hr
    refine kept_of_dropped (fun {y s₁} hr => ?_) hr
    obtain ⟨i, hr⟩ := runs_now.mp hr
    exact kept_of_transition h (by decide) hr
  | failed =>
    rw [hst] at hr
    refine kept_of_dropped (fun {y s₁} hr => ?_) hr
    obtain ⟨i, hr⟩ := runs_now.mp hr
    exact kept_of_transition h (by decide) hr
  | running =>
    rw [hst] at hr
    exact kept_of_dropped (fun hr => kept_of_transition h (by decide) hr) hr
  | pending =>
    rw [hst] at hr
    refine kept_of_dropped (fun {y s₁} hr => ?_) hr
    obtain ⟨hrest, ht⟩ := runs_requeue h hr
    exact @kept_of_update _ _ (.requeue t.id) trivial hrest ht
  | claimed | other =>
    rw [hst] at hr
    exact .of_eq h hr.2

/-- The common end of the methods. -/
theorem kept_of_save_ret {t : Task} {x : Except PyError (Option Task)} (h : AtRest s)
    (hr : store.Runs n ((backend F).save t >>= fun _ => .ret (some t)) s x s') : Kept s s' := by
  rcases (Store.runs_bind store n).mp hr with ⟨_, s₁, hsave, -, rfl⟩ | ⟨e, hsave, -⟩
  · exact kept_of_save h hsave
  · exact kept_of_save h hsave

/-- The end of a claim. -/
theorem kept_of_claimRow {claimer id : String} {x : Except PyError (Option Row)}
    (hr : store.Runs n (closing (claimRow claimer id)) (s.begun n) x s') : Kept s s' := by
  obtain ⟨i, hr⟩ := runs_now.mp hr
  replace hr := (runs_write_commit (Or.inr rfl) rfl rfl).mp hr
  obtain ⟨-, rfl⟩ := (runs_closing_get atRest_committed).mp hr
  exact @kept_of_update _ _ (.claim claimer i.now id) trivial rfl rfl

/-- Nothing was selected. -/
theorem kept_of_none {x : Except PyError (Option Row)} (h : AtRest s)
    (hr : store.Runs n (closing (.ret none)) s x s') : Kept s s' := by
  obtain ⟨-, rfl⟩ := (runs_close (f := fun _ => .ret none) h).mp hr
  exact .refl h

/-- `claim` of the backend. -/
theorem kept_of_claim {claimer : String} {task_id : Option String} {x : Except PyError (Option Row)}
    (h : AtRest s) (hr : store.Runs n (ClaudeSwarm.Sqlite.claim claimer task_id) s x s') :
    Kept s s' := by
  have ht : s.txn = none := h
  have hbegin : ∀ i, exec n i s .beginImmediate = some (true, s.begun n) := fun _ => by
    simp [exec, ht, Db.begun]
  have hrollback : ∀ i, exec n i (s.begun n) .rollback = some ((), s) := fun _ => by
    simp [exec, Db.begun, ← ht]
  replace hr := (runs_cmd hbegin).mp hr
  simp only [selectClaimable] at hr
  split at hr
  · replace hr := (runs_cmd (c := .selectPendingId _) fun _ => rfl).mp hr
    generalize hy : Option.bind _ _ = y at hr
    cases y with
    | none => exact kept_of_none h ((runs_cmd hrollback).mp hr)
    | some id => exact kept_of_claimRow hr
  · replace hr := (runs_cmd (c := .selectNextPending) fun _ => rfl).mp hr
    generalize hy : Option.map _ _ = y at hr
    cases y with
    | none => exact kept_of_none h ((runs_cmd hrollback).mp hr)
    | some id => exact kept_of_claimRow hr

/-- A method that reads a task first. -/
theorem kept_of_get {id : String} {f : Option Task → P (Option Task)}
    {x : Except PyError (Option Task)} (h : AtRest s)
    (hr : store.Runs n ((backend F).get id >>= f) s x s') (hnone : f none = .ret none)
    (hsome : ∀ row, store.Runs n (f (some (taskOf row))) s x s' → Kept s s') : Kept s s' := by
  rw [runs_get_bind h] at hr
  cases hrow : s.table.find? id with
  | none =>
    rw [hrow, Option.map_none, hnone] at hr
    exact .of_eq h hr.2
  | some row =>
    rw [hrow] at hr
    exact hsome row hr

/-- **Calls.** Every call of the queue leaves the database at rest, its rows in place and each in one
of the five states. -/
theorem kept_of_call {o : Op} {x : Except PyError (Option Task)} (h : AtRest s)
    (hr : store.Runs n (prog F o) s x s') : Kept s s' := by
  cases o with
  | claim claimer task_id =>
    rcases (Store.runs_bind store n).mp hr with ⟨row, s₁, hclaim, hr⟩ | ⟨e, hclaim, -⟩
    · cases row with
      | none => exact hr.2 ▸ kept_of_claim h hclaim
      | some row =>
        rw [fromRow?, Store.runs_bind_of store n fun _ _ => runs_fromRow] at hr
        exact hr.2 ▸ kept_of_claim h hclaim
    · exact kept_of_claim h hclaim
  | claimMatching caps claimer => exact .of_eq h (runs_claimMatching h hr).1
  | start id =>
    refine kept_of_get h hr rfl fun row hr => ?_
    simp only at hr
    split at hr
    · exact .of_eq h hr.2
    · exact kept_of_save_ret h hr
  | complete id result =>
    refine kept_of_get h hr rfl fun row hr => ?_
    simp only at hr
    split at hr
    · exact .of_eq h hr.2
    · obtain ⟨i, hr⟩ := runs_now.mp hr
      exact kept_of_save_ret h hr
  | fail id error =>
    refine kept_of_get h hr rfl fun row hr => ?_
    simp only at hr
    split at hr
    · exact .of_eq h hr.2
    · obtain ⟨i, hr⟩ := runs_now.mp hr
      exact kept_of_save_ret h hr
  | requeue id =>
    refine kept_of_get h hr rfl fun row hr => ?_
    simp only at hr
    split at hr
    · exact .of_eq h hr.2
    · exact kept_of_save_ret h hr

/-! ## `create` -/

/-- The end of `create`. -/
theorem runs_insert {row : Row} {o : Option Row} {f : Except PyError Nat → P (Option Row)}
    (h : AtRest s) (hok : ∀ k, f (.ok k) = cmd .commit >>= fun _ => ClaudeSwarm.Sqlite.get row.id)
    (herr : ∀ e, f (.error e) = .raise e)
    (hr : store.Runs n (closing (cmd (.execute (.insert row)) >>= f)) s (.ok o) s') :
    o = some row ∧ s.table.insert row = some s'.table ∧ AtRest s' := by
  have ht : s.txn = none := h
  rw [closing_cmd] at hr
  cases hins : s.table.insert row with
  | none =>
    have hexec : ∀ i, exec n i s (.execute (.insert row)) =
        some (.error integrity, { s with txn := some ⟨n, s.table, []⟩ }) := fun i => by
      simp [exec, ht, Txn.execute, Stmt.run, hins]
    rw [runs_cmd hexec, herr] at hr
    obtain ⟨i, y, s₁, hy, hr⟩ := hr
    cases hr.1
  | some t =>
    have hst : (Stmt.insert row).run s.table = some (1, t) := by simp [Stmt.run, hins]
    have hf : closing (f (.ok 1)) = cmd .commit >>= fun _ =>
        closing (ClaudeSwarm.Sqlite.get row.id) := by
      rw [hok]
      rfl
    rw [runs_write_commit (Or.inl ⟨rfl, h⟩) hst hf] at hr
    obtain ⟨ho, rfl⟩ := (runs_closing_get atRest_committed).mp hr
    have hmem : row ∈ t.rows := by simp [Table.rows_insert hins]
    have hfind : t.find? row.id = some row := Table.find?_of_mem hmem
    exact ⟨(Except.ok.inj ho).trans hfind, rfl, rfl⟩

/-- `create` of a task, run alone: it inserts the row of the task it returns. -/
theorem runs_create {title description project createdBy : String} {priority : Val}
    {requires : List String} {estimated : Int} {task : Task} (h : AtRest s)
    (hr : store.Runs n (create F title description project priority requires estimated createdBy) s
      (.ok task) s') :
    ∃ row : Row, taskOf row = task ∧ row.state = .pending ∧
      row.priority = normalizePriority priority ∧ s.table.insert row = some s'.table ∧ AtRest s' := by
  rcases (Store.runs_bind store n).mp hr with ⟨data, s₁, hins, hr⟩ | ⟨e, -, he⟩
  · obtain ⟨i₁, hins⟩ := runs_uuid.mp hins
    obtain ⟨i₂, hins⟩ := runs_now.mp hins
    obtain ⟨i₃, nodename, s₂, hn, hins⟩ := hins
    cases hn
    obtain ⟨rfl, hins, hrest⟩ := runs_insert h (fun _ => rfl) (fun _ => rfl) hins
    obtain ⟨htask, rfl⟩ := runs_fromRow.mp hr
    exact ⟨_, (Except.ok.inj htask).symm, rfl, rfl, hins, hrest⟩
  · cases he

/-! ## `requeue_stale` -/

/-- `requeue_stale` after it has read the clock. -/
def requeueStaleAt (ttl : Int) (now : Time) : P (List String) :=
  closing do
    let rows ← cmd (.selectStale (now - ttl))
    requeueEach rows []

/-- The table after the `UPDATE`s of a sweep. -/
def swept (ids : List String) (t : Tasks) : Tasks :=
  ids.foldl (fun t id => (Stmt.requeueStale id).update t) t

/-- The row as put back. -/
def putBack (row : Row) : Row := { row with state := .pending, claimedBy := "", claimedAt := 0 }

theorem find?_swept (ids : List String) (t : Tasks) (id : String) :
    (swept ids t).find? id = (t.find? id).map fun row => if id ∈ ids then putBack row else row := by
  induction ids generalizing t with
  | nil => simp [swept]
  | cons id' ids ih =>
    have hstep : swept (id' :: ids) t = swept ids ((Stmt.requeueStale id').update t) := rfl
    rw [hstep, ih, Stmt.update, Table.find?_update, Option.map_map]
    cases hrow : t.find? id with
    | none => rfl
    | some row =>
      have hid : row.id = id := Table.find?_key hrow
      by_cases h : id = id'
      · subst h
        simp [Stmt.selects, hid, Stmt.assign, putBack]
      · simp [Stmt.selects, hid, h]

theorem kept_swept (ids : List String) (t : Tasks) :
    (swept ids t).rows.map Row.id = t.rows.map Row.id ∧ (Sound t → Sound (swept ids t)) := by
  induction ids generalizing t with
  | nil => exact ⟨rfl, fun h => h⟩
  | cons id ids ih =>
    obtain ⟨hids, hsound⟩ := ih ((Stmt.requeueStale id).update t)
    exact ⟨hids.trans (ids_update _ t), fun h => hsound (sound_update trivial h)⟩

/-- A write in the connection's transaction, which it opens if need be. -/
theorem exists_execute {st : Stmt} {k : Nat} {t' : Tasks} (hown : ∀ t, s.txn = some t → t.owner = n)
    (hst : st.run (s.view n) = some (k, t')) :
    ∃ s₁, (∀ i, exec n i s (.execute st) = some (.ok k, s₁)) ∧
      (∀ t, s₁.txn = some t → t.owner = n) ∧ s₁.view n = t' := by
  cases ht : s.txn with
  | none =>
    have hst : st.run s.table = some (k, t') := by simpa [Db.view, ht] using hst
    refine ⟨⟨s.table, some ⟨n, t', [⟨n, st, k⟩]⟩, s.commits⟩, fun i => ?_, ?_, by simp [Db.view]⟩
    · simp [exec, ht, Txn.execute, hst]
    · rintro t ⟨⟩
      rfl
  | some t =>
    have howner := hown t ht
    have hst : st.run t.view = some (k, t') := by simpa [Db.view, ht, howner] using hst
    refine ⟨⟨s.table, some ⟨n, t', ⟨n, st, k⟩ :: t.done⟩, s.commits⟩, fun i => ?_, ?_,
      by simp [Db.view]⟩
    · simp [exec, ht, Txn.execute, hst, howner]
    · rintro t ⟨⟩
      rfl

/-- The loop of `requeue_stale`, in a transaction or before it. -/
theorem runs_requeueEach {ids requeued : List String} {x : Except PyError (List String)}
    (hown : ∀ t, s.txn = some t → t.owner = n)
    (hr : store.Runs n (closing (requeueEach ids requeued)) s x s') :
    x = .ok (requeued ++ ids) ∧ AtRest s' ∧ s'.table = swept ids (s.view n) := by
  induction ids generalizing s requeued with
  | nil =>
    have hcommit : ∃ s₁, (∀ i, exec n i s .commit = some ((), s₁)) ∧ AtRest s₁ ∧
        s₁.table = s.view n := by
      cases ht : s.txn with
      | none => exact ⟨s, fun i => by simp [exec, ht], ht, (AtRest.view ht).symm⟩
      | some t =>
        have howner := hown t ht
        exact ⟨⟨t.view, none, ⟨n, t.done, t.view⟩ :: s.commits⟩, fun i => by simp [exec, ht, howner],
          rfl, by simp [Db.view, ht, howner]⟩
    obtain ⟨s₁, hexec, hrest, htable⟩ := hcommit
    rw [requeueEach, closing_cmd, runs_cmd hexec] at hr
    obtain ⟨rfl, rfl⟩ := (runs_close (f := fun _ => .ret requeued) hrest).mp hr
    exact ⟨by rw [List.append_nil], hrest, htable⟩
  | cons id ids ih =>
    obtain ⟨s₁, hexec, hown₁, hview⟩ := @exists_execute _ _ (.requeueStale id) _ _ hown rfl
    rw [requeueEach, closing_cmd, runs_cmd hexec] at hr
    obtain ⟨hx, hrest, htable⟩ := ih hown₁ hr
    refine ⟨by rw [hx, List.append_assoc]; rfl, hrest, ?_⟩
    rw [htable, hview]
    rfl

/-- The rows a sweep selects. -/
def staleRows (t : Tasks) (ttl : Int) (now : Time) : List String :=
  (t.rows.filter fun r => r.state = .claimed ∧ 0 < r.claimedAt ∧ r.claimedAt < now - ttl).map Row.id

/-- **Sweeps.** `requeue_stale` puts every stale row back. -/
theorem runs_requeueStaleAt {ttl : Int} {now : Time} {x : Except PyError (List String)}
    (h : AtRest s) (hr : store.Runs n (requeueStaleAt ttl now) s x s') :
    x = .ok (staleRows s.table ttl now) ∧ AtRest s' ∧
      s'.table = swept (staleRows s.table ttl now) s.table := by
  have hsel : ∀ i, exec n i s (.selectStale (now - ttl)) =
      some (staleRows s.table ttl now, s) := fun i => by
    simp only [exec, h.view, staleRows]
  rw [requeueStaleAt, closing_cmd, runs_cmd hsel] at hr
  have hown : ∀ t, s.txn = some t → t.owner = n := fun t ht => by
    cases (show s.txn = none from h).symm.trans ht
  obtain ⟨hx, hrest, htable⟩ := runs_requeueEach hown hr
  exact ⟨hx, hrest, h.view (n := n) ▸ htable⟩

theorem kept_of_requeueStale {ttl : Int} {x : Except PyError (List String)} (h : AtRest s)
    (hr : store.Runs n (requeueStale ttl) s x s') : Kept s s' := by
  obtain ⟨i, hr⟩ := runs_now.mp hr
  obtain ⟨-, hrest, htable⟩ := @runs_requeueStaleAt _ _ _ ttl i.now _ h hr
  obtain ⟨hids, hsound⟩ := kept_swept (staleRows s.table ttl i.now) s.table
  exact ⟨hrest, htable ▸ hids, htable ▸ hsound⟩

end ClaudeSwarm.TaskQueue.Sqlite
