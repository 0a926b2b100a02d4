import ClaudeSwarm.SwarmLib.Yields
import ClaudeSwarm.SwarmLib.Remediations
import ClaudeSwarm.SwarmLib.Shutdown

/-!
# Requeued tasks

Tasks are moved from `claimed/` back to `pending/` by `cleanup_stale_nodes`, by the shutdown of a node, by
`requeue_task` and by `_auto_requeue_task` of `src/remote_session.py`, which is modelled here. Each has its own
copy of the code and counts in the task's `_retries`. A `Lifetime` is a sequence of calls of these and of
`claim_task`, one after the other, on a tree that begins with new tasks; it counts the moves of each task.

* `change_of_step`: what a call does to a task (`Change`).
* **`retryCap_of_spares`**: where no shutdown finds a claimed task with three retries, no task is moved more than
  three times, `_retries` is the number of its moves, and a task that has been moved three times stays claimed.
* `fourth_requeue`: a shutdown moves a task a fourth time. It is the one copy that compares with no maximum.
-/

namespace ClaudeSwarm.SwarmLib

open Interleave Data
open Python (PyError)

/-! ## `_auto_requeue_task` -/

/-- `task.get("_retries", 0)`; `none` is a `TypeError` when it is compared. -/
def retryCount (task : Doc) : Option Int :=
  match task.lookup "_retries" with
  | none => some 0
  | some (.int n) => some n
  | some (.bool b) => some (if b then 1 else 0)
  | some _ => none

/-- `_auto_requeue_task`, where the plan of the dispatch names the task `planned`. -/
def autoRequeueTask (fs : Files) (planned : Option String) (task_id : String) : Files × Bool :=
  let task_id := if task_id = "" then planned.getD "" else task_id
  if task_id = "" then (fs, false)
  else
    match content fs .claimed task_id with
    | none => (fs, false)
    | some task =>
      match retryCount task with
      | none => (fs, false)
      | some retries =>
        if 3 ≤ retries then (fs, false)
        else
          let task := popKey (popKey (setKeys task [("_retries", .int (retries + 1))]) "claimed_by") "claimed_at"
          (drop (put fs .pending task_id task) .claimed task_id, true)

/-! ## Lifetimes -/

/-- A call. -/
inductive Call where
  | claim (task_id : String)
  | cleanup
  | requeue (task_id : String)
  | autoRequeue (planned : Option String) (task_id : String)
  | shutdown

/-- `p`, run alone, may take the directories from `fs` to `fs'`. -/
def Leaves {α : Type} (p : P α) (fs fs' : Files) : Prop :=
  ∃ n s r s', s.files = fs ∧ store.Runs n p s r s' ∧ s'.files = fs'

/-- The call may take the directories from `fs` to `fs'`. No file operation of a shutdown fails. -/
def Step (fs fs' : Files) : Call → Prop
  | .claim task_id => Leaves (claimTask task_id) fs fs'
  | .cleanup => Leaves cleanupStaleNodes fs fs'
  | .requeue task_id => ∃ str, Leaves (requeueTask str task_id) fs fs'
  | .autoRequeue planned task_id => fs' = (autoRequeueTask fs planned task_id).1
  | .shutdown => fs' = (releaseClaimedTasks .calm fs).1

/-- Between `fs` and `fs'` the task is moved from `claimed/` to `pending/`. -/
def SentBack (fs fs' : Files) (id : String) : Prop :=
  (content fs .claimed id).isSome ∧ (content fs' .claimed id).isNone ∧ (content fs' .pending id).isSome

instance (fs fs' : Files) (id : String) : Decidable (SentBack fs fs' id) :=
  inferInstanceAs (Decidable (_ ∧ _ ∧ _))

/-- New tasks: each is in one stage, under its id, and has no retries yet. -/
structure Unretried (fs : Files) : Prop where
  single : ∀ id, content fs .pending id = none ∨ content fs .claimed id = none
  new : ∀ st id task, content fs st id = some task → idOf id task = id ∧ task.lookup "_retries" = none

/-- Calls that meet `G`, one after the other, take the directories from `fs₀` to `fs` and move each task as often
as `moves` says. -/
inductive Lifetime (G : Call → Files → Prop) (fs₀ : Files) : (moves : String → Nat) → (fs : Files) → Prop
  | new : Lifetime G fs₀ (fun _ => 0) fs₀
  | call {moves : String → Nat} {fs fs' : Files} {call : Call} (h : Lifetime G fs₀ moves fs) (hg : G call fs)
      (hs : Step fs fs' call) :
      Lifetime G fs₀ (fun id => if SentBack fs fs' id then moves id + 1 else moves id) fs'

/-- The task's `_retries` says that it has been requeued `k` times. -/
def Counted (task : Doc) (k : Nat) : Prop :=
  task.lookup "_retries" = none ∧ k = 0 ∨ task.lookup "_retries" = some (.int k)

/-- No task has been moved more than three times, and its `_retries` says how often it was. -/
structure Capped (moves : String → Nat) (fs : Files) : Prop where
  bound : ∀ id, moves id ≤ 3
  counted : ∀ st id task, st = .pending ∨ st = .claimed → content fs st id = some task → Counted task (moves id)

/-- In the lifetimes of calls that meet `G`, tasks are moved three times at most, and then stay claimed. -/
def RetryCap (G : Call → Files → Prop) : Prop :=
  ∀ fs₀, Unretried fs₀ → ∀ moves fs, Lifetime G fs₀ moves fs → Capped moves fs ∧
    ∀ call fs', G call fs → Step fs fs' call → ∀ id task, moves id = 3 →
      content fs .claimed id = some task → content fs' .claimed id = some task

/-- A shutdown finds no claimed task with three retries. -/
def Spares : Call → Files → Prop
  | .shutdown, fs => ∀ id task k, content fs .claimed id = some task → Counted task k → k < 3
  | _, _ => True

/-! ## What a call does to a task -/

/-- Between `fs` and `fs'` the task is left, or requeued and that is counted. -/
inductive Requeue (id : String) (fs fs' : Files) : Prop
  | same (hp : content fs' .pending id = content fs .pending id)
      (hc : content fs' .claimed id = content fs .claimed id)
  | requeued (task task' : Doc) (k : Nat) (h : content fs .claimed id = some task) (hk : Counted task k)
      (hlt : k < 3) (hc : content fs' .claimed id = none) (hp : content fs' .pending id = some task')
      (hk' : Counted task' (k + 1)) (hid : idOf id task' = idOf id task)

/-- Or it is claimed. -/
inductive Change (id : String) (fs fs' : Files) : Prop
  | requeue (h : Requeue id fs fs')
  | claimed (task task' : Doc) (h : content fs .pending id = some task) (hp : content fs' .pending id = none)
      (hc : content fs' .claimed id = some task') (hr : task'.lookup "_retries" = task.lookup "_retries")
      (hid : idOf id task' = idOf id task)

/-- The invariant of a task that has been moved `k` times. -/
structure Tidy (id : String) (k : Nat) (fs : Files) : Prop where
  bound : k ≤ 3
  single : content fs .pending id = none ∨ content fs .claimed id = none
  counted : ∀ st task, st = .pending ∨ st = .claimed → content fs st id = some task →
    Counted task k ∧ idOf id task = id

/-- What is claimed has been counted. -/
def AllCounted (fs : Files) : Prop := ∀ id task, content fs .claimed id = some task → ∃ k, Counted task k

section

variable {n : Nat} {fs fs' fs'' : Files} {id : String}

theorem Requeue.refl (id : String) (fs : Files) : Requeue id fs fs := .same rfl rfl

theorem Requeue.trans (h : Requeue id fs fs') (h' : Requeue id fs' fs'') : Requeue id fs fs'' := by
  cases h with
  | same hp hc =>
    cases h' with
    | same hp' hc' => exact .same (hp'.trans hp) (hc'.trans hc)
    | requeued task task' k h hk hlt hc' hp' hk' hid =>
      exact .requeued task task' k (hc ▸ h) hk hlt hc' hp' hk' hid
  | requeued task task' k h hk hlt hc hp hk' hid =>
    cases h' with
    | same hp' hc' => exact .requeued task task' k h hk hlt (hc'.trans hc) (hp'.trans hp) hk' hid
    | requeued _ _ _ h' =>
      rw [hc] at h'
      cases h'

theorem AllCounted.requeue (h : AllCounted fs) (hr : ∀ id, Requeue id fs fs') : AllCounted fs' := by
  intro id task htask
  cases hr id with
  | same _ hc => exact h id task (hc ▸ htask)
  | requeued _ _ _ _ _ _ hc =>
    rw [hc] at htask
    cases htask

/-- A task is written to `pending/` with one more retry, and removed from `claimed/`. -/
theorem requeue_of_move {task task' : Doc} {k : Nat} (h : content fs .claimed id = some task)
    (hk : Counted task k) (hlt : k < 3) (hk' : Counted task' (k + 1)) (hid : idOf id task' = idOf id task)
    (id' : String) : Requeue id' fs (drop (put fs .pending id task') .claimed id) := by
  by_cases he : id' = id
  · subst he
    refine .requeued task task' k h hk hlt ?_ ?_ hk' hid
    · rw [content_drop, if_pos ⟨rfl, rfl⟩]
    · rw [content_drop, if_neg (by simp), content_put, if_pos ⟨rfl, rfl⟩]
  · refine .same ?_ ?_
    · rw [content_drop, if_neg (by simp), content_put, if_neg fun h => he h.2]
    · rw [content_drop, if_neg fun h => he h.2, content_put, if_neg (by simp)]

theorem counted_setRetries {task : Doc} {k : Nat} :
    Counted (setKeys task [("_retries", .int ((k : Int) + 1))]) (k + 1) := by
  right
  rw [setKeys, List.foldl_cons, List.foldl_nil, lookup_setKey_self (f := ("_retries", _))]
  push_cast
  rfl

theorem counted_popKey {task : Doc} {k : Nat} {key : String} (hne : "_retries" ≠ key) (h : Counted task k) :
    Counted (popKey task key) k := by
  unfold Counted
  rw [lookup_popKey, if_neg hne]
  exact h

theorem Counted.retryCount {task : Doc} {k : Nat} (h : Counted task k) : retryCount task = some (k : Int) := by
  unfold SwarmLib.retryCount
  rcases h with ⟨h, rfl⟩ | h
  · rw [h]
    rfl
  · rw [h]

theorem Counted.bumped {task : Doc} {k : Nat} (h : Counted task k) : bumped task = some ((k : Int) + 1) := by
  unfold SwarmLib.bumped
  rcases h with ⟨h, rfl⟩ | h
  · rw [h]
    rfl
  · rw [h]

/-- What a requeued task keeps of its id. -/
theorem idOf_of_lookup {task task' : Doc} (h : task'.lookup "id" = task.lookup "id") :
    idOf id task' = idOf id task := by
  rw [idOf, idOf, getStr, getStr, h]

theorem lookup_setRetries {task : Doc} {v : Json} {key : String} (h : key ≠ "_retries") :
    (setKeys task [("_retries", v)]).lookup key = task.lookup key := by
  rw [setKeys, List.foldl_cons, List.foldl_nil, lookup_setKey h]

theorem nextRetries_of_counted {task : Doc} {k : Nat} (h : Counted task k) :
    nextRetries task = .ret ((k : Int) + 1) := by
  unfold nextRetries
  rcases h with ⟨h, rfl⟩ | h
  · rw [h]
    rfl
  · rw [h]
    rfl

theorem retriesOf_of_counted {task : Doc} {k : Nat} (h : Counted task k) :
    retriesOf task = .ret (k : Int) := by
  unfold retriesOf
  rcases h with ⟨h, rfl⟩ | h
  · rw [h]
    rfl
  · rw [h]
    rfl

/-- The loop of `cleanup_stale_nodes`. -/
theorem requeueOrphans_yields {cleaned : List String} : ∀ (ids : List String) (fs : Files), AllCounted fs →
    Yields n fs (requeueOrphans cleaned ids) fun _ fs' => ∀ id, Requeue id fs fs'
  | [], fs, _ => yields_ret fun id => .refl id fs
  | id :: ids, fs, hcounted => by
    refine yields_read (fun _ _ id => .refl id fs) fun task htask => ?_
    obtain ⟨k, hk⟩ := hcounted id task htask
    simp only
    split
    · rw [nextRetries_of_counted hk]
      simp only [Prog.ret_bind]
      split
      · rename_i hle
        have hpopped : Counted (setKeys (popKey (popKey task "claimed_by") "claimed_at")
            [("_retries", .int ((k : Int) + 1))]) (k + 1) := counted_setRetries
        have hid : idOf id (setKeys (popKey (popKey task "claimed_by") "claimed_at")
            [("_retries", .int ((k : Int) + 1))]) = idOf id task := by
          refine idOf_of_lookup ?_
          rw [lookup_setRetries (by decide), lookup_popKey, if_neg (by decide), lookup_popKey, if_neg (by decide)]
        have hmove := requeue_of_move htask hk (by omega) hpopped hid
        refine yields_move (by decide) (yields_withLock yields_write) (by rw [htask]; rfl) ?_
        refine yields_bind (requeueOrphans_yields ids _ (hcounted.requeue hmove)) (fun orphaned fs' h => ?_)
          fun e fs' h id => (hmove id).trans (h id)
        exact yields_ret fun id => (hmove id).trans (h id)
      · exact requeueOrphans_yields ids fs hcounted
    · exact requeueOrphans_yields ids fs hcounted

theorem cleanupStaleNodes_yields (hcounted : AllCounted fs) :
    Yields n fs cleanupStaleNodes fun _ fs' => ∀ id, Requeue id fs fs' := by
  refine yields_still (c := .stale) trivial fun cleaned => ?_
  split
  · exact yields_ret fun id => .refl id fs
  · refine yields_still (c := .glob .claimed) trivial fun ids => ?_
    refine yields_bind (requeueOrphans_yields ids fs hcounted) (fun orphaned fs' h => yields_ret h) fun e fs' h => h

theorem requeueTask_yields {str : PyError → String} (hcounted : AllCounted fs) :
    Yields n fs (requeueTask str id) fun _ fs' => ∀ id, Requeue id fs fs' := by
  unfold requeueTask
  split
  · exact yields_ret fun id => .refl id fs
  refine yields_catch (R := fun _ fs' => ∀ id, Requeue id fs fs') ?_ (fun _ _ h => h) fun e fs' h => yields_ret h
  refine yields_exists ?_
  cases hthere : (content fs .claimed id).isSome with
  | false => exact yields_ret fun id => .refl id fs
  | true =>
    refine yields_read (fun _ _ id => .refl id fs) fun task htask => ?_
    obtain ⟨k, hk⟩ := hcounted id task htask
    rw [retriesOf_of_counted hk]
    simp only [Prog.ret_bind]
    split
    · exact yields_ret fun id => .refl id fs
    · rename_i hlt
      refine yields_bind (Q := fun _ fs' => fs' = fs) ?_ (fun _ fs' h => ?_) fun e fs' h id => ?_
      · unfold killPid
        split
        · exact yields_ret rfl
        · split
          · split
            · exact yields_ret rfl
            · exact yields_raise rfl
          · exact yields_ret rfl
      · subst h
        have hcount : Counted (popKey (popKey (setKeys task [("_retries", .int ((k : Int) + 1))]) "claimed_by")
            "claimed_at") (k + 1) :=
          counted_popKey (by decide) (counted_popKey (by decide) counted_setRetries)
        have hid : idOf id (popKey (popKey (setKeys task [("_retries", .int ((k : Int) + 1))]) "claimed_by")
            "claimed_at") = idOf id task := by
          refine idOf_of_lookup ?_
          rw [lookup_popKey, if_neg (by decide), lookup_popKey, if_neg (by decide), lookup_setRetries (by decide)]
        have hmove := requeue_of_move htask hk (by omega) hcount hid
        refine yields_bind yields_write (fun _ fs₁ h => ?_) fun e fs₁ h => by cases h.1
        obtain ⟨-, rfl⟩ := h
        refine yields_remove (fun _ => yields_ret hmove) fun hgone => ?_
        rw [content_put, if_neg (by simp), htask] at hgone
        cases hgone
      · rw [h]
        exact .refl id fs

theorem autoRequeueTask_requeue {planned : Option String} {task_id : String} (hcounted : AllCounted fs) (id : String) :
    Requeue id fs (autoRequeueTask fs planned task_id).1 := by
  unfold autoRequeueTask
  simp only
  generalize (if task_id = "" then planned.getD "" else task_id) = task_id
  split
  · exact .refl id fs
  split
  · exact .refl id fs
  rename_i task htask
  obtain ⟨k, hk⟩ := hcounted task_id task htask
  rw [hk.retryCount]
  simp only
  split
  · exact .refl id fs
  · have hcount : Counted (popKey (popKey (setKeys task [("_retries", .int ((k : Int) + 1))]) "claimed_by")
        "claimed_at") (k + 1) :=
      counted_popKey (by decide) (counted_popKey (by decide) counted_setRetries)
    refine requeue_of_move htask hk (by omega) hcount (idOf_of_lookup ?_) id
    rw [lookup_popKey, if_neg (by decide), lookup_popKey, if_neg (by decide), lookup_setRetries (by decide)]

/-- Every claimed task is in the file of its id. -/
def AllNamed (fs : Files) : Prop := ∀ id task, content fs .claimed id = some task → idOf id task = id

/-- A shutdown that finds no task with three retries. -/
theorem releaseClaimedTasks_requeue (hcounted : AllCounted fs) (hnamed : AllNamed fs) (hspares : Spares .shutdown fs)
    (id : String) : Requeue id fs (releaseClaimedTasks .calm fs).1 := by
  have hswept : Swept .calm (stems fs .claimed) fs (releaseClaimedTasks .calm fs).1 := by
    rw [releaseClaimedTasks, if_pos (by rfl)]
    exact swept_releaseFiles rfl (Table.nodup _)
  have hdone : ∀ {stem task k}, Counted task k → Completes .calm stem task :=
    fun hk => ⟨rfl, rfl, by rw [hk.bumped]; rfl⟩
  cases hclaimed : content fs .claimed id with
  | none =>
    refine .same ?_ ?_
    · rcases hswept.pending id with ⟨stem, _, task, _, htask, -, -, hid, -⟩ | ⟨-, hsame⟩
      · rw [hnamed stem task htask] at hid
        rw [hid, hclaimed] at htask
        cases htask
      · exact hsame
    · refine hswept.kept id fun task _ htask => ?_
      rw [hclaimed] at htask
      cases htask
  | some task =>
    obtain ⟨k, hk⟩ := hcounted id task hclaimed
    have hmem : id ∈ stems fs .claimed := mem_stems.mpr (by rw [hclaimed]; rfl)
    have hgone := hswept.gone id hmem task hclaimed (hdone hk)
    rcases hswept.pending id with ⟨stem, _, task', retries, htask', hbumped, -, hid, hnew⟩ | ⟨hno, -⟩
    · rw [hnamed stem task' htask'] at hid
      subst hid
      rw [hclaimed, Option.some_inj] at htask'
      subst htask'
      rw [hk.bumped, Option.some_inj] at hbumped
      subst hbumped
      refine .requeued task _ k hclaimed hk (hspares stem task k hclaimed hk) hgone hnew counted_setRetries ?_
      refine idOf_of_lookup ?_
      rw [lookup_released (by decide), if_neg (by decide)]
    · exact absurd ⟨rfl, Or.inl rfl, by rw [hk.bumped]; rfl⟩ (hno id hmem task hclaimed (hnamed id task hclaimed))

/-- What a call does to a task. -/
theorem change_of_step {call : Call} (hcounted : AllCounted fs) (hnamed : AllNamed fs) (hspares : Spares call fs)
    (hs : Step fs fs' call) (id : String) : Change id fs fs' := by
  cases call with
  | claim task_id =>
    obtain ⟨n, s, r, s', hfs, hrun, rfl⟩ := hs
    rcases claimTask_yields.runs hfs hrun with ⟨task, hostname, claimed_at, htask, -, h⟩ | ⟨-, -, h⟩
    · rw [h]
      by_cases he : id = task_id
      · subst he
        refine .claimed task (claimedDoc task hostname claimed_at) htask ?_ ?_ ?_ (idOf_of_lookup ?_)
        · rw [content_drop, if_pos ⟨rfl, rfl⟩]
        · rw [content_drop, if_neg (by simp), content_put, if_pos ⟨rfl, rfl⟩]
        · exact lookup_claimedDoc (by decide) (by decide)
        · exact lookup_claimedDoc (by decide) (by decide)
      · refine .requeue (.same ?_ ?_)
        · rw [content_drop, if_neg fun h => he h.2, content_put, if_neg (by simp)]
        · rw [content_drop, if_neg (by simp), content_put, if_neg fun h => he h.2]
    · rw [h]
      exact .requeue (.refl id fs)
  | cleanup =>
    obtain ⟨n, s, r, s', hfs, hrun, rfl⟩ := hs
    exact .requeue ((cleanupStaleNodes_yields hcounted).runs hfs hrun id)
  | requeue task_id =>
    obtain ⟨str, n, s, r, s', hfs, hrun, rfl⟩ := hs
    exact .requeue ((requeueTask_yields hcounted).runs hfs hrun id)
  | autoRequeue planned task_id =>
    obtain rfl := hs
    exact .requeue (autoRequeueTask_requeue hcounted id)
  | shutdown =>
    obtain rfl := hs
    exact .requeue (releaseClaimedTasks_requeue hcounted hnamed hspares id)

/-- There is one count. -/
theorem Counted.unique {task : Doc} {k k' : Nat} (h : Counted task k) (h' : Counted task k') : k = k' := by
  rcases h with ⟨h, rfl⟩ | h <;> rcases h' with ⟨h', rfl⟩ | h' <;> rw [h] at h'
  · cases h'
  · cases h'
  · simpa using h'

/-- **A call.** A move is counted, and only a task with less than three is moved. -/
theorem tidy_of_change {k : Nat} (h : Tidy id k fs) (hc : Change id fs fs') :
    Tidy id (if SentBack fs fs' id then k + 1 else k) fs' := by
  cases hc with
  | requeue hr =>
    cases hr with
    | same hp hcl =>
      have hnot : ¬ SentBack fs fs' id := by
        rintro ⟨hsome, hnone, -⟩
        rw [hcl, Option.isNone_iff_eq_none] at hnone
        rw [hnone] at hsome
        cases hsome
      rw [if_neg hnot]
      refine ⟨h.bound, by rw [hp, hcl]; exact h.single, fun st task hst htask => h.counted st task hst ?_⟩
      rcases hst with rfl | rfl
      · exact hp ▸ htask
      · exact hcl ▸ htask
    | requeued task task' j htask hj hlt hcl hp hj' hid =>
      obtain ⟨hcounted, hnamed⟩ := h.counted .claimed task (Or.inr rfl) htask
      obtain rfl := hcounted.unique hj
      have hmoved : SentBack fs fs' id := by simp [SentBack, htask, hcl, hp]
      rw [if_pos hmoved]
      refine ⟨hlt, Or.inr hcl, fun st t hst ht => ?_⟩
      rcases hst with rfl | rfl
      · rw [hp, Option.some_inj] at ht
        exact ht ▸ ⟨hj', hid.trans hnamed⟩
      · rw [hcl] at ht
        cases ht
  | claimed task task' htask hp hcl hr hid =>
    obtain ⟨hcounted, hnamed⟩ := h.counted .pending task (Or.inl rfl) htask
    have hnot : ¬ SentBack fs fs' id := by simp [SentBack, hcl]
    rw [if_neg hnot]
    refine ⟨h.bound, Or.inl hp, fun st t hst ht => ?_⟩
    rcases hst with rfl | rfl
    · rw [hp] at ht
      cases ht
    · rw [hcl, Option.some_inj] at ht
      subst ht
      refine ⟨?_, hid.trans hnamed⟩
      rw [Counted, hr]
      exact hcounted

variable {moves : String → Nat}

theorem step_of_tidy {call : Call} (h : ∀ id, Tidy id (moves id) fs) (hspares : Spares call fs)
    (hs : Step fs fs' call) (id : String) : Change id fs fs' :=
  change_of_step (fun id task ht => ⟨moves id, ((h id).counted .claimed task (Or.inr rfl) ht).1⟩)
    (fun id task ht => ((h id).counted .claimed task (Or.inr rfl) ht).2) hspares hs id

/-- **A lifetime.** -/
theorem tidy_of_lifetime {fs₀ : Files} (hnew₀ : Unretried fs₀) (h : Lifetime Spares fs₀ moves fs) (id : String) :
    Tidy id (moves id) fs := by
  induction h generalizing id with
  | new =>
    refine ⟨Nat.zero_le 3, hnew₀.single id, fun st task _ htask => ?_⟩
    obtain ⟨hid, hnew⟩ := hnew₀.new st id task htask
    exact ⟨Or.inl ⟨hnew, rfl⟩, hid⟩
  | call _ hg hs ih => exact tidy_of_change (ih id) (step_of_tidy ih hg hs id)

/-- **Three retries, and not one more.** -/
theorem retryCap_of_spares {fs₀ fs : Files} (hnew₀ : Unretried fs₀) (h : Lifetime Spares fs₀ moves fs) :
    Capped moves fs ∧ ∀ call fs', Spares call fs → Step fs fs' call → ∀ id task, moves id = 3 →
      content fs .claimed id = some task → content fs' .claimed id = some task := by
  have htidy := tidy_of_lifetime hnew₀ h
  refine ⟨⟨fun id => (htidy id).bound, fun st id task hst ht => ((htidy id).counted st task hst ht).1⟩, ?_⟩
  intro call fs' hg hs id task hcap hclaimed
  cases step_of_tidy htidy hg hs id with
  | requeue hr =>
    cases hr with
    | same _ hc => rw [hc, hclaimed]
    | requeued task' _ k htask' hk hlt =>
      rw [hclaimed, Option.some_inj] at htask'
      subst htask'
      have hcount := ((htidy id).counted .claimed task (Or.inr rfl) hclaimed).1.unique hk
      omega
  | claimed _ _ hpending =>
    rcases (htidy id).single with hnone | hnone
    · rw [hpending] at hnone
      cases hnone
    · rw [hclaimed] at hnone
      cases hnone

end

/-! ## A fourth time -/

/-- A new task. -/
def newTask : Files := put (fun _ => .empty) .pending "task-001" [("id", .str "task-001")]

/-- A host claims it. -/
def claimAlone (fs : Files) : Option (Except PyError Doc × Tree) :=
  store.runWith 0 (claimTask "task-001") (List.replicate 20 ⟨"a", "1970-01-01T00:00:00Z", []⟩) (.ofFiles fs)

/-- The directories after that, and after the host has shut down. -/
def afterClaim (fs : Files) : Files := ((claimAlone fs).map fun p => p.2.files).getD fs

def afterShutdown (fs : Files) : Files := (releaseClaimedTasks .calm fs).1

theorem step_claimAlone {fs : Files} (h : (claimAlone fs).isSome) : Step fs (afterClaim fs) (.claim "task-001") := by
  obtain ⟨⟨r, s'⟩, hrun⟩ := Option.isSome_iff_exists.mp h
  refine ⟨0, _, r, s', rfl, Store.runs_of_runWith (T := store) 0 hrun, ?_⟩
  rw [afterClaim, hrun]
  rfl

theorem unretried_newTask : Unretried newTask := by
  have hcontent : ∀ st id, content newTask st id =
      if st = .pending ∧ id = "task-001" then some [("id", .str "task-001")] else none :=
    fun st id => content_put _ _ _ _ _ _
  refine ⟨fun id => Or.inr (by rw [hcontent, if_neg (by simp)]), fun st id task htask => ?_⟩
  rw [hcontent] at htask
  split at htask
  · rename_i he
    cases htask
    exact ⟨he.2.symm, rfl⟩
  · cases htask

/-- The host claims the task and shuts down. -/
def round (fs : Files) : Files := afterShutdown (afterClaim fs)

theorem lifetime_afterClaim (h : (claimAlone newTask).isSome) :
    ∃ moves, Lifetime Spares newTask moves (afterClaim newTask) ∧ ∀ id, moves id ≤ 1 := by
  refine ⟨_, @Lifetime.call _ _ _ _ _ (.claim "task-001") .new trivial (step_claimAlone h), fun id => ?_⟩
  split <;> decide

theorem spares_afterClaim (h : (claimAlone newTask).isSome) : Spares .shutdown (afterClaim newTask) := by
  intro id task k htask hk
  obtain ⟨moves, hclaimed, hle⟩ := lifetime_afterClaim h
  have hcount := ((tidy_of_lifetime unretried_newTask hclaimed id).counted .claimed task (Or.inr rfl) htask).1.unique hk
  have := hle id
  omega

/-- `retryCap_of_spares` of one such round. -/
theorem retryCap_of_spares_round : ∃ moves, Capped moves (round newTask) := by
  have h : (claimAlone newTask).isSome := by decide +kernel
  obtain ⟨moves, hclaimed, -⟩ := lifetime_afterClaim h
  have hround := @Lifetime.call _ _ _ _ (round newTask) .shutdown hclaimed (spares_afterClaim h) rfl
  exact ⟨_, (retryCap_of_spares unretried_newTask hround).1⟩

/-- A host claims the task and shuts down, four times. -/
theorem fourth_requeue : ¬ RetryCap fun _ _ => True := by
  intro hcap
  have h₁ : (claimAlone newTask).isSome := by decide +kernel
  have h₂ : (claimAlone (round newTask)).isSome := by decide +kernel
  have h₃ : (claimAlone (round (round newTask))).isSome := by decide +kernel
  have h₄ : (claimAlone (round (round (round newTask)))).isSome := by decide +kernel
  have hshutdown : ∀ fs, Step fs (afterShutdown fs) .shutdown := fun _ => rfl
  have hnew : Lifetime (fun _ _ => True) newTask (fun _ => 0) newTask := .new
  have hlife := ((((((hnew.call trivial (step_claimAlone h₁)).call trivial (hshutdown _)).call trivial
    (step_claimAlone h₂)).call trivial (hshutdown _)).call trivial (step_claimAlone h₃)).call trivial
    (hshutdown _)).call trivial
    (step_claimAlone h₄)
  exact absurd ((hcap newTask unretried_newTask _ _ (hlife.call trivial (hshutdown _))).1.bound "task-001")
    (by decide +kernel)

end ClaudeSwarm.SwarmLib
