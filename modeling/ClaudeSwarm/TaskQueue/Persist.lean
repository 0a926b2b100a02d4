import ClaudeSwarm.Sqlite.Solo
import ClaudeSwarm.TaskQueue.Sqlite

/-!
# What the SQLite queue returns and what it stores

`TaskQueue` changes a task in memory and saves it. On SQLite `_save` calls the backend method for
the task's new state, whose own `WHERE` clause admits the row, so the table holds what is returned;
but it has no method for `claimed`, and `claim_matching` leaves the table as it was.

* `runs_claimFirst`: the loop of `claim_matching` hands out the first match and writes nothing.
* **`persists_iff`**: a call's answer is what the table holds, unless it is a `claim_matching` that
  finds a match; and calls of `claim_matching` hand out a task as often as it is their first match.
-/

namespace ClaudeSwarm.TaskQueue.Sqlite

open Interleave Data ClaudeSwarm.Sqlite
open Python (PyError FloatFmt)

variable {F : FloatFmt} {n : Nat} {s s' : Db} {α : Type}

/-! ## Reading -/

/-- The task of a row. -/
def taskOf (r : Row) : Task where
  id := r.id
  title := r.title
  description := r.description
  project := r.project
  priority := clampPriority r.priority
  requires := r.requires
  state := r.state
  createdBy := r.createdBy
  createdAt := r.createdAt
  claimedBy := r.claimedBy
  claimedAt := r.claimedAt
  completedAt := r.completedAt
  result := r.result
  error := r.error
  estimatedMinutes := r.estimatedMinutes

theorem fromDict_rowToDict (uuid : String) (r : Row) :
    Task.fromDict F uuid ((rowToDict r).lookup ·) = .ok (taskOf r) := by
  have hreq : Json.loads r.requiresText = some (.arr (r.requires.map .str)) :=
    Json.loads_dumps_strings r.requires
  simp [Task.fromDict, rowToDict, hreq, Json.strings_map, List.lookup_cons, strOf, floatOf, intOf,
    requiresOf, normalizePriority, TaskState.ofStr_str, taskOf, bind, Except.bind, pure, Except.pure]

theorem runs_fromRow {row : Row} {x : Except PyError Task} :
    store.Runs n (fromRow F row) s x s' ↔ x = .ok (taskOf row) ∧ s' = s := by
  rw [fromRow, runs_uuid]
  simp only [fromDict_rowToDict]
  exact ⟨fun ⟨_, h⟩ => h, fun h => ⟨⟨0, "", "", false⟩, h⟩⟩

theorem runs_fromRows {rows : List Row} {x : Except PyError (List Task)} :
    store.Runs n (fromRows F rows) s x s' ↔ x = .ok (rows.map taskOf) ∧ s' = s := by
  induction rows generalizing x s' with
  | nil => rfl
  | cons row rows ih =>
    rw [fromRows, Store.runs_bind_of store n fun _ _ => runs_fromRow, Store.runs_bind_of store n fun _ _ => ih]
    rfl

/-- `get`. -/
theorem runs_get {id : String} {x : Except PyError (Option Task)} (h : AtRest s) :
    store.Runs n (get F id) s x s' ↔ x = .ok ((s.table.find? id).map taskOf) ∧ s' = s := by
  rw [get, Store.runs_bind_of store n fun _ _ => ClaudeSwarm.Sqlite.runs_get h]
  cases s.table.find? id with
  | none => rfl
  | some row =>
    rw [fromRow?, Store.runs_bind_of store n fun _ _ => runs_fromRow]
    rfl

/-- `list_pending`. -/
theorem runs_listPending {x : Except PyError (List Task)} (h : AtRest s) :
    store.Runs n (backend F).listPending s x s' ↔
      x = .ok (((inState s.table .pending).take 50).map taskOf) ∧ s' = s := by
  have hlist : ∀ y s₁, store.Runs n (ClaudeSwarm.Sqlite.listByState .pending 50) s y s₁ ↔
      y = .ok ((inState s.table .pending).take 50) ∧ s₁ = s := by
    intro y s₁
    have hsel : store.Runs n (ClaudeSwarm.Sqlite.listByState .pending 50) s y s₁ ↔
        store.Runs n (.ret ((inState (s.view n) .pending).take 50)) s y s₁ :=
      runs_cmd (c := .selectByState .pending 50) (f := .ret) fun _ => rfl
    rw [h.view] at hsel
    exact hsel
  exact (Store.runs_bind_of store n hlist).trans runs_fromRows

/-! ## Reading, changing and saving -/

/-- What a method that reads a task and then saves it returned: the task it saved. -/
theorem runs_saved {t t' : Task} {p : P Unit}
    (hr : store.Runs n (p >>= fun _ => .ret (some t)) s (.ok (some t')) s') :
    t' = t ∧ store.Runs n p s (.ok ()) s' := by
  rcases (Store.runs_bind store n).mp hr with ⟨_, s₁, hp, hret, rfl⟩ | ⟨e, -, he⟩
  · exact ⟨Option.some.inj (Except.ok.inj hret), hp⟩
  · cases he

/-- A method of the backend whose answer is dropped. -/
theorem runs_dropped {p : P (Option Row)}
    (hr : store.Runs n (p >>= fun _ => .ret ()) s (.ok ()) s') :
    ∃ row, store.Runs n p s (.ok row) s' := by
  rcases (Store.runs_bind store n).mp hr with ⟨row, s₁, hp, -, rfl⟩ | ⟨e, -, he⟩
  · exact ⟨row, hp⟩
  · cases he

/-- The states from which the backend method for `new` starts. -/
def Admits : TaskState → TaskState → Prop
  | .running, old => old = .claimed
  | .completed, old | .failed, old => old = .claimed ∨ old = .running
  | .pending, old => old ≠ .completed
  | _, _ => False

/-- The row of `id` after an update that selects it. -/
theorem find?_update_of {st : Stmt} {t : Tasks} {id : String} {row : Row}
    (hrow : t.find? id = some row) (hsel : st.selects row = true) :
    (st.update t).find? id = some (st.assign row) := by
  rw [Stmt.update, Table.find?_update, hrow, Option.map_some, if_pos hsel]

/-- `_transition` from a row it starts from. -/
theorem runs_transition_of {id : String} {new : TaskState} {validFrom : List TaskState}
    {set : List Assign} {row : Row} {x : Except PyError (Option Row)} (h : AtRest s)
    (hrow : s.table.find? id = some row) (hfrom : row.state ∈ validFrom)
    (hr : store.Runs n (transition id new validFrom set) s x s') :
    AtRest s' ∧ ∃ row', s'.table.find? id = some row' ∧ row'.state = new ∧
      row'.claimedBy = row.claimedBy := by
  obtain ⟨hs', ht⟩ := runs_transition h hr
  have hsel : (Stmt.transition id new validFrom set).selects row = true := by
    simp [Stmt.selects, Table.find?_key hrow, hfrom]
  refine ⟨hs', _, ht ▸ find?_update_of hrow hsel, ?_⟩
  obtain ⟨-, hstate, hclaimed⟩ := foldl_assign set { row with state := new }
  exact ⟨hstate, hclaimed⟩

/-- `_save` of a task whose row the method for its state starts from. -/
theorem runs_save {t : Task} {row : Row} (h : AtRest s) (hrow : s.table.find? t.id = some row)
    (hadm : Admits t.state row.state) (hr : store.Runs n (save t) s (.ok ()) s') :
    AtRest s' ∧ ∃ row', s'.table.find? t.id = some row' ∧ row'.state = t.state ∧
      row'.claimedBy = if t.state = .pending then "" else row.claimedBy := by
  unfold save at hr
  cases hst : t.state with
  | completed =>
    rw [hst] at hr hadm
    obtain ⟨row', hr⟩ := runs_dropped hr
    obtain ⟨i, hr⟩ := runs_now.mp hr
    exact runs_transition_of h hrow (by simpa [Admits] using hadm) hr
  | failed =>
    rw [hst] at hr hadm
    obtain ⟨row', hr⟩ := runs_dropped hr
    obtain ⟨i, hr⟩ := runs_now.mp hr
    exact runs_transition_of h hrow (by simpa [Admits] using hadm) hr
  | running =>
    rw [hst] at hr hadm
    obtain ⟨row', hr⟩ := runs_dropped hr
    exact runs_transition_of h hrow (by simpa [Admits] using hadm) hr
  | pending =>
    rw [hst] at hr hadm
    obtain ⟨row', hr⟩ := runs_dropped hr
    obtain ⟨hs', ht⟩ := runs_requeue h hr
    have hsel : (Stmt.requeue t.id).selects row = true := by
      simpa [Stmt.selects, Table.find?_key hrow] using show row.state ≠ .completed from hadm
    exact ⟨hs', _, ht ▸ find?_update_of hrow hsel, rfl, rfl⟩
  | claimed =>
    rw [hst] at hadm
    exact hadm.elim
  | other =>
    rw [hst] at hadm
    exact hadm.elim

/-- The table holds `t`, as far as its state and claimer go. -/
def Stored (s : Db) (t : Task) : Prop :=
  AtRest s ∧ ∃ row, s.table.find? t.id = some row ∧ row.state = t.state ∧
    row.claimedBy = t.claimedBy

/-- Reading a task, then going on with it. -/
theorem runs_get_bind {id : String} {f : Option Task → P α} {x : Except PyError α}
    (h : AtRest s) :
    store.Runs n ((backend F).get id >>= f) s x s' ↔
      store.Runs n (f ((s.table.find? id).map taskOf)) s x s' :=
  Store.runs_bind_of store n fun _ _ => runs_get h

/-- The common end of the methods: save what was read and changed, and return it. -/
theorem stored_of_save {id : String} {t t' : Task} {row : Row} (h : AtRest s)
    (hrow : s.table.find? id = some row) (hid : t.id = row.id) (hadm : Admits t.state row.state)
    (hclaimed : t.claimedBy = if t.state = .pending then "" else row.claimedBy)
    (hr : store.Runs n ((backend F).save t >>= fun _ => .ret (some t)) s (.ok (some t')) s') :
    Stored s' t' := by
  obtain ⟨rfl, hr⟩ := runs_saved hr
  have hrow' : s.table.find? t'.id = some row := by rw [hid, Table.find?_key hrow, hrow]
  obtain ⟨hs', row', hfind, hstate, hcl⟩ := runs_save h hrow' hadm hr
  exact ⟨hs', row', hfind, hstate, hcl.trans hclaimed.symm⟩

/-- A method that reads a task returned one only if there was a row. -/
theorem runs_get_some {id : String} {f : Option Task → P (Option Task)} {t : Task} (h : AtRest s)
    (hr : store.Runs n ((backend F).get id >>= f) s (.ok (some t)) s')
    (hnone : f none = .ret none) :
    ∃ row, s.table.find? id = some row ∧ store.Runs n (f (some (taskOf row))) s (.ok (some t)) s' := by
  rw [runs_get_bind h] at hr
  cases hrow : s.table.find? id with
  | none =>
    rw [hrow, Option.map_none, hnone] at hr
    cases hr.1
  | some row =>
    rw [hrow] at hr
    exact ⟨row, rfl, hr⟩

theorem stored_of_start {id : String} {t : Task} (h : AtRest s)
    (hr : store.Runs n ((backend F).start id) s (.ok (some t)) s') : Stored s' t := by
  obtain ⟨row, hrow, hr⟩ := runs_get_some h hr rfl
  simp only at hr
  split at hr
  · cases hr.1
  · rename_i hst
    refine stored_of_save h hrow rfl ?_ rfl hr
    exact not_not.mp hst

theorem stored_of_complete {id result : String} {t : Task} (h : AtRest s)
    (hr : store.Runs n ((backend F).complete id result) s (.ok (some t)) s') : Stored s' t := by
  obtain ⟨row, hrow, hr⟩ := runs_get_some h hr rfl
  simp only at hr
  split at hr
  · cases hr.1
  · rename_i hst
    obtain ⟨i, hr⟩ := runs_now.mp hr
    refine stored_of_save h hrow rfl ?_ rfl hr
    simpa [Admits, taskOf, or_iff_not_imp_left] using hst

theorem stored_of_fail {id error : String} {t : Task} (h : AtRest s)
    (hr : store.Runs n ((backend F).fail id error) s (.ok (some t)) s') : Stored s' t := by
  obtain ⟨row, hrow, hr⟩ := runs_get_some h hr rfl
  simp only at hr
  split at hr
  · cases hr.1
  · rename_i hst
    obtain ⟨i, hr⟩ := runs_now.mp hr
    refine stored_of_save h hrow rfl ?_ rfl hr
    simpa [Admits, taskOf, or_iff_not_imp_left] using hst

theorem stored_of_requeue {id : String} {t : Task} (h : AtRest s)
    (hr : store.Runs n ((backend F).requeue id) s (.ok (some t)) s') : Stored s' t := by
  obtain ⟨row, hrow, hr⟩ := runs_get_some h hr rfl
  simp only at hr
  split at hr
  · cases hr.1
  · rename_i hst
    refine stored_of_save h hrow rfl ?_ rfl hr
    exact hst

theorem stored_of_claim {claimer : String} {task_id : Option String} {t : Task} (h : AtRest s)
    (hr : store.Runs n (claim F claimer task_id) s (.ok (some t)) s') : Stored s' t := by
  rcases (Store.runs_bind store n).mp hr with ⟨row, s₁, hclaim, hr⟩ | ⟨e, -, he⟩
  · cases row with
    | none => cases hr.1
    | some row =>
      obtain ⟨hs₁, hrow⟩ := runs_claim h hclaim
      rw [fromRow?, Store.runs_bind_of store n fun _ _ => runs_fromRow] at hr
      obtain ⟨ht, rfl⟩ := hr
      cases ht
      exact ⟨hs₁, row, hrow, rfl, rfl⟩
  · cases he

/-! ## `claim_matching` -/

/-- The pending tasks in the order in which `claim_matching` tries them. -/
def candidates (t : Tasks) : List Task :=
  Backend.byPriority (((inState t .pending).take 50).map taskOf)

theorem candidate_pending {t : Tasks} {task : Task} (h : task ∈ candidates t) :
    ∃ row ∈ (inState t .pending).take 50, taskOf row = task :=
  List.mem_map.mp ((List.mem_insertionSort _).mp h)

/-- `_claim_specific` of a pending task hands it out and writes nothing. -/
theorem runs_claimSpecific {id claimer : String} {row : Row} {x : Except PyError (Option Task)}
    (h : AtRest s) (hrow : s.table.find? id = some row) (hp : row.state = .pending) :
    store.Runs n ((backend F).claimSpecific id claimer) s x s' ↔ s' = s ∧ ∃ now : Env,
      x = .ok (some
        { taskOf row with state := .claimed, claimedBy := claimer, claimedAt := now.now }) := by
  rw [Backend.claimSpecific, runs_get_bind h, hrow]
  have hst : ¬ (taskOf row).state ≠ .pending := not_not.mpr hp
  simp only [Option.map_some]
  rw [if_neg hst]
  constructor
  · intro hr
    obtain ⟨i, hr⟩ := runs_now.mp hr
    exact ⟨hr.2, i, hr.1⟩
  · rintro ⟨rfl, i, rfl⟩
    exact runs_now.mpr ⟨i, rfl, rfl⟩

/-- The loop hands out the first match, claimed in memory only. -/
theorem runs_claimFirst {caps : List String} {claimer : String} {tasks : List Task}
    {x : Except PyError (Option Task)} (h : AtRest s)
    (hall : ∀ t ∈ tasks, ∃ row, s.table.find? t.id = some row ∧ row.state = .pending)
    (hr : store.Runs n ((backend F).claimFirst caps claimer tasks) s x s') :
    s' = s ∧ ∃ o, x = .ok o ∧ o.map Task.id = (tasks.find? (Backend.matches_ caps)).map Task.id ∧
      ∀ t, o = some t → t.state = .claimed := by
  induction tasks with
  | nil => exact ⟨hr.2, none, hr.1, rfl, fun t ht => nomatch ht⟩
  | cons task tasks ih =>
    rw [Backend.claimFirst] at hr
    split at hr
    · rename_i hm
      obtain ⟨row, hrow, hp⟩ := hall task List.mem_cons_self
      rcases (Store.runs_bind store n).mp hr with ⟨y, s₁, hc, hr⟩ | ⟨e, hc, -⟩
      · obtain ⟨rfl, now, hy⟩ := (runs_claimSpecific h hrow hp).mp hc
        cases hy
        refine ⟨hr.2, _, hr.1, ?_, fun t ht => by cases ht; rfl⟩
        rw [List.find?_cons_of_pos hm]
        have hid : row.id = task.id := Table.find?_key hrow
        exact congrArg some hid
      · obtain ⟨-, now, hy⟩ := (runs_claimSpecific h hrow hp).mp hc
        cases hy
    · rename_i hm
      rw [List.find?_cons_of_neg hm]
      exact ih (fun t ht => hall t (List.mem_cons_of_mem _ ht)) hr

theorem runs_claimMatching {caps : List String} {claimer : String} {x : Except PyError (Option Task)}
    (h : AtRest s) (hr : store.Runs n ((backend F).claimMatching caps claimer) s x s') :
    s' = s ∧ ∃ o, x = .ok o ∧
      o.map Task.id = ((candidates s.table).find? (Backend.matches_ caps)).map Task.id ∧
      ∀ t, o = some t → t.state = .claimed := by
  rw [Backend.claimMatching, Store.runs_bind_of store n fun _ _ => runs_listPending h] at hr
  refine runs_claimFirst h (fun t ht => ?_) hr
  obtain ⟨row, hrow, rfl⟩ := candidate_pending ht
  obtain ⟨hmem, hp⟩ := mem_inState.mp (List.mem_of_mem_take hrow)
  exact ⟨row, Table.find?_of_mem hmem, hp⟩

/-- A client that calls `claim_matching` again and again and notes the tasks it is handed. -/
def claimMatchingAll (F : FloatFmt) : List (List String × String) → P (List String)
  | [] => return []
  | (caps, claimer) :: calls => do
    let task ← (backend F).claimMatching caps claimer
    let ids ← claimMatchingAll F calls
    return (task.map Task.id).toList ++ ids

/-- The first task that capabilities match. -/
def firstMatch (t : Tasks) (caps : List String) : Option String :=
  ((candidates t).find? (Backend.matches_ caps)).map Task.id

theorem runs_claimMatchingAll {calls : List (List String × String)}
    {x : Except PyError (List String)} (h : AtRest s)
    (hr : store.Runs n (claimMatchingAll F calls) s x s') :
    s' = s ∧ x = .ok (calls.filterMap fun call => firstMatch s.table call.1) := by
  induction calls generalizing x s' with
  | nil => exact ⟨hr.2, hr.1⟩
  | cons call calls ih =>
    rcases (Store.runs_bind store n).mp hr with ⟨o, s₁, hc, hrest⟩ | ⟨e, hc, -⟩
    · obtain ⟨rfl, o', ho, hid, -⟩ := runs_claimMatching h hc
      cases ho
      rcases (Store.runs_bind store n).mp hrest with ⟨ids, s₂, hcs, hret⟩ | ⟨e, hcs, -⟩
      · obtain ⟨rfl, hids⟩ := ih hcs
        cases hids
        refine ⟨hret.2, hret.1.trans ?_⟩
        rw [hid, List.filterMap_cons, firstMatch]
        cases (candidates _).find? (Backend.matches_ call.1) <;> rfl
      · cases (ih hcs).2
    · obtain ⟨-, o, ho, -⟩ := runs_claimMatching h hc
      cases ho

/-! ## What persists -/

/-- Whatever task a call returns, `get` finds it with that state and claimer. -/
def Persists (F : FloatFmt) (o : Op) (s : Db) : Prop :=
  ∀ n s₁ s₂ t x, store.Runs n (prog F o) s (.ok (some t)) s₁ → store.Runs n (get F t.id) s₁ x s₂ →
    ∃ t', x = .ok (some t') ∧ t'.state = t.state ∧ t'.claimedBy = t.claimedBy

/-- The call is no `claim_matching`, or none of the first fifty pending rows, by priority and age,
requires only what the caller has. -/
def NoMatch (s : Db) : Op → Prop
  | .claimMatching caps _ =>
    ∀ row ∈ (inState s.table .pending).take 50, ∃ req ∈ row.requires, req ∉ caps
  | _ => True

theorem persists_of_stored {t : Task} {x : Except PyError (Option Task)} (h : Stored s t)
    (hr : store.Runs n (get F t.id) s x s') :
    ∃ t', x = .ok (some t') ∧ t'.state = t.state ∧ t'.claimedBy = t.claimedBy := by
  obtain ⟨hs, row, hrow, hstate, hclaimed⟩ := h
  obtain ⟨rfl, -⟩ := (runs_get hs).mp hr
  exact ⟨taskOf row, by rw [hrow]; rfl, hstate, hclaimed⟩

theorem noMatch_iff {caps : List String} :
    (∀ row ∈ (inState s.table .pending).take 50, ∃ req ∈ row.requires, req ∉ caps) ↔
      (candidates s.table).find? (Backend.matches_ caps) = none := by
  rw [List.find?_eq_none]
  constructor
  · intro h t ht
    obtain ⟨row, hrow, rfl⟩ := candidate_pending ht
    obtain ⟨req, hreq, hn⟩ := h row hrow
    simp only [Backend.matches_, List.all_eq_true, List.contains_iff_mem, not_forall]
    exact ⟨req, hreq, hn⟩
  · intro h row hrow
    have := h (taskOf row) ((List.mem_insertionSort _).mpr (List.mem_map_of_mem hrow))
    simpa only [Backend.matches_, List.all_eq_true, List.contains_iff_mem, not_forall,
      exists_prop, taskOf] using this

/-- A call that hands out a match leaves it pending. -/
theorem noMatch_of_persists {caps : List String} {claimer : String} (h : AtRest s)
    (hp : Persists F (.claimMatching caps claimer) s) : NoMatch s (.claimMatching caps claimer) := by
  refine noMatch_iff.mpr ?_
  obtain ⟨x, s₁, hr⟩ := exists_runs 0 (prog F (.claimMatching caps claimer)) s
  obtain ⟨rfl, o, rfl, hid, hclaimed⟩ := runs_claimMatching h hr
  cases o with
  | none => exact Option.map_eq_none_iff.mp hid.symm
  | some t =>
    exfalso
    obtain ⟨y, s₂, hget⟩ := exists_runs 0 (get F t.id) s₁
    obtain ⟨t', ht', hstate, -⟩ := hp _ _ _ _ _ hr hget
    obtain ⟨hy, -⟩ := (runs_get h).mp hget
    obtain ⟨c, hc, hcid⟩ := Option.map_eq_some_iff.mp hid.symm
    obtain ⟨row, hrow, rfl⟩ := candidate_pending (List.mem_of_find?_eq_some hc)
    obtain ⟨hmem, hpend⟩ := mem_inState.mp (List.mem_of_mem_take hrow)
    have hfind : s₁.table.find? t.id = some row := hcid ▸ Table.find?_of_mem hmem
    rw [hy, hfind] at ht'
    cases ht'
    rw [hclaimed t rfl] at hstate
    exact absurd (hpend.symm.trans hstate) (by decide)

/-- **Persistence.** On a database at rest a call's answer is what the table holds if and only if the
call is no `claim_matching` that finds a match; and a sequence of `claim_matching` calls hands out no
task twice if and only if no two of them have the same first match. -/
theorem persists_iff (h : AtRest s) :
    (∀ o, Persists F o s ↔ NoMatch s o) ∧
    ∀ calls n ids s', store.Runs n (claimMatchingAll F calls) s (.ok ids) s' →
      (ids.Nodup ↔ (calls.filterMap fun call => firstMatch s.table call.1).Nodup) := by
  refine ⟨fun o => ⟨fun hp => ?_, fun hno n s₁ s₂ t x hr hget => ?_⟩, fun calls n ids s' hr => ?_⟩
  · cases o with
    | claimMatching caps claimer => exact noMatch_of_persists h hp
    | _ => trivial
  · cases o with
    | claim claimer task_id => exact persists_of_stored (stored_of_claim h hr) hget
    | claimMatching caps claimer =>
      obtain ⟨-, o, ho, hid, -⟩ := runs_claimMatching h hr
      cases ho
      rw [noMatch_iff.mp hno] at hid
      cases hid
    | start id => exact persists_of_stored (stored_of_start h hr) hget
    | complete id result => exact persists_of_stored (stored_of_complete h hr) hget
    | fail id error => exact persists_of_stored (stored_of_fail h hr) hget
    | requeue id => exact persists_of_stored (stored_of_requeue h hr) hget
  · obtain ⟨-, hids⟩ := runs_claimMatchingAll h hr
    cases hids
    rfl

/-- A database with one pending task. -/
def onePending : Db := .at_ ⟨[{ id := "a", title := "t" }], by decide⟩

theorem persists_iff_onePending :
    (∀ o, Persists Python.wholeSeconds o onePending ↔ NoMatch onePending o) ∧
    ∀ calls n ids s',
      store.Runs n (claimMatchingAll Python.wholeSeconds calls) onePending (.ok ids) s' →
        (ids.Nodup ↔ (calls.filterMap fun call => firstMatch onePending.table call.1).Nodup) :=
  persists_iff rfl

/-- The pending task is handed out as claimed and stays pending: to a second call it is handed out
again. -/
theorem claimMatching_not_persists :
    ¬ Persists Python.wholeSeconds (.claimMatching [] "w") onePending ∧
    ∃ ids s', store.Runs 0 (claimMatchingAll Python.wholeSeconds [([], "v"), ([], "w")]) onePending
      (.ok ids) s' ∧ ¬ ids.Nodup := by
  have hrest : AtRest onePending := rfl
  constructor
  · intro hp
    obtain ⟨req, hreq, -⟩ := noMatch_of_persists hrest hp { id := "a", title := "t" } (by decide)
    cases hreq
  · obtain ⟨x, s', hr⟩ := exists_runs 0
      (claimMatchingAll Python.wholeSeconds [([], "v"), ([], "w")]) onePending
    obtain ⟨-, rfl⟩ := runs_claimMatchingAll hrest hr
    exact ⟨_, s', hr, by decide⟩

end ClaudeSwarm.TaskQueue.Sqlite
