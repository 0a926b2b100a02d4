import ClaudeSwarm.SwarmLib.Alone

/-!
# The shutdown of a node

Model of `_handle_crash` of `src/crash_handler.py` on the task directories: `_mark_node_idle`, whose
`update_status` takes the claims of the host's own fallback tree back to the share, and then
`_release_claimed_tasks`, which goes through `claimed/` file by file. Any operation on a file may fail; which
one does is given by an `Outcome`, and what a failure leaves is passed on. The other steps of the shutdown
touch no task file, and no callback is registered in the repository.

`OwnOnly` says that the shutdown of a host gives back what that host had claimed, and nothing of another's.
The code never looks at `claimed_by`:

* **`ownOnly_iff`**: what the shutdown of a host does is limited to its own tasks exactly if the file
  operations on the others fail.
* `other_released`: a task that another host runs becomes claimable.
-/

namespace ClaudeSwarm.SwarmLib

open Data

/-- An operation on a claimed file: the first that fails ends the `try` block. -/
inductive Failure where
  | read
  | mkdir
  | write
  | remove
  deriving DecidableEq

/-- What the file system does during a shutdown: which local files are copied back, whether `claimed/` is
there and can be listed, and what fails of each of its files. -/
structure Outcome where
  copies : Stage → String → Bool
  listed : Bool
  fails : String → Option Failure

variable (out : Outcome) (home fs : Files)

/-! ## The code -/

/-- The loop body of `_reconcile_local_tasks`, as to the share. -/
def reconcileFile (st : Stage) (fs : Files) (stem : String) : Files :=
  match content home st stem, content fs st stem with
  | some data, none => if out.copies st stem then put fs st stem data else fs
  | _, _ => fs

/-- `_mark_node_idle`. -/
def markNodeIdle : Files :=
  let fs := (stems home .claimed).foldl (reconcileFile out home .claimed) fs
  (stems home .completed).foldl (reconcileFile out home .completed) fs

/-- `task.get("id", task_file.stem)`. -/
def idOf (stem : String) (task : Doc) : String := (getStr task "id").getD stem

/-- `task.get("_retries", 0) + 1`; `none` is a `TypeError`. -/
def bumped (task : Doc) : Option Int :=
  match task.lookup "_retries" with
  | none => some 1
  | some (.int n) => some (n + 1)
  | some (.bool b) => some (if b then 2 else 1)
  | some _ => none

/-- The dictionary that goes to `pending/`. -/
def released (task : Doc) (retries : Int) : Doc :=
  setKeys (popKey (popKey task "claimed_by") "claimed_at") [("_retries", .int retries)]

/-- The loop body of `_release_claimed_tasks`: the directories it leaves, and the task it requeues. -/
def releaseFile (fs : Files) (stem : String) : Files × Option String :=
  match out.fails stem, content fs .claimed stem with
  | some .read, _ | _, none => (fs, none)
  | failure, some task =>
    match bumped task with
    | none => (fs, none)
    | some retries =>
      match failure with
      | some .mkdir | some .write => (fs, none)
      | some .remove => (put fs .pending (idOf stem task) (released task retries), none)
      | _ =>
        (drop (put fs .pending (idOf stem task) (released task retries)) .claimed stem, some (idOf stem task))

/-- The loop of `_release_claimed_tasks`. -/
def releaseFiles (fs : Files) : List String → Files × List String
  | [] => (fs, [])
  | stem :: rest =>
    let (fs₁, id) := releaseFile out fs stem
    let (fs₂, ids) := releaseFiles fs₁ rest
    (fs₂, id.toList ++ ids)

/-- `_release_claimed_tasks`. -/
def releaseClaimedTasks : Files × List String :=
  if out.listed then releaseFiles out fs (stems fs .claimed) else (fs, [])

/-- `_handle_crash`. -/
def handleCrash : Files × List String := releaseClaimedTasks out (markNodeIdle out home fs)

/-! ## What a shutdown should do -/

/-- The host whose claim it is. -/
def claimedBy (task : Doc) : Option String := getStr task "claimed_by"

/-- The shutdown of `host` took the directories from `fs` to `fs'` and gave back what the host had claimed. -/
structure OwnOnly (host : String) (fs' : Files) : Prop where
  spared : ∀ stem task other, content fs .claimed stem = some task → claimedBy task = some other → other ≠ host →
    content fs' .claimed stem = some task ∧
      (content fs .pending (idOf stem task) = none → content fs' .pending (idOf stem task) = none)
  moved : ∀ stem task, content fs .claimed stem = some task → claimedBy task = some host →
    out.listed = true → out.fails stem = none →
      content fs' .claimed stem = none ∧ ∃ task', content fs' .pending (idOf stem task) = some task' ∧
        claimedBy task' = none ∧ idOf (idOf stem task) task' = idOf stem task

/-- The file gets to `pending/`. -/
def Writes (stem : String) (task : Doc) : Prop :=
  out.listed = true ∧ (out.fails stem = none ∨ out.fails stem = some .remove) ∧ (bumped task).isSome

/-- The file gets to `pending/` and leaves `claimed/`. -/
def Completes (stem : String) (task : Doc) : Prop :=
  out.listed = true ∧ out.fails stem = none ∧ (bumped task).isSome

/-- The file is in `claimed/` once the node is marked idle: it was, or the host's local claim is copied. -/
def Listed (stem : String) (task : Doc) : Prop :=
  content fs .claimed stem = some task ∨
    content fs .claimed stem = none ∧ out.copies .claimed stem = true ∧ content home .claimed stem = some task

/-- The file operations on other hosts' claims fail, and no other file of their ids gets to `pending/`; and the
retries of the host's own claims can be counted. -/
structure Confined (host : String) : Prop where
  others : ∀ stem task other, content fs .claimed stem = some task → claimedBy task = some other → other ≠ host →
    ¬ Completes out stem task ∧ ((content fs .pending (idOf stem task)).isSome ∨
      ∀ stem' task', Listed out home fs stem' task' → idOf stem' task' = idOf stem task → ¬ Writes out stem' task')
  own : ∀ stem task, content fs .claimed stem = some task → claimedBy task = some host →
    out.listed = true → out.fails stem = none → (bumped task).isSome

/-! ## One file -/

section

variable {out home fs} {stem : String}

theorem lookup_released {task : Doc} {retries : Int} {key : String} (hr : key ≠ "_retries") :
    (released task retries).lookup key =
      if key = "claimed_at" ∨ key = "claimed_by" then none else task.lookup key := by
  rw [released, setKeys, List.foldl_cons, List.foldl_nil, lookup_setKey hr, lookup_popKey, lookup_popKey]
  by_cases ha : key = "claimed_at"
  · rw [if_pos ha, if_pos (Or.inl ha)]
  · simp only [ha, if_false, false_or]

/-- What is in `pending/` is claimed by nobody. -/
theorem claimedBy_released {task : Doc} {retries : Int} : claimedBy (released task retries) = none := by
  rw [claimedBy, getStr, lookup_released (by decide), if_pos (Or.inr rfl)]

/-- A released task keeps its id. -/
theorem idOf_released {task : Doc} {retries : Int} :
    idOf (idOf stem task) (released task retries) = idOf stem task := by
  have hid : getStr (released task retries) "id" = getStr task "id" := by
    rw [getStr, getStr, lookup_released (by decide), if_neg (by decide)]
  rw [idOf, hid, idOf]
  cases getStr task "id" <;> rfl

/-- One file: it is left, or gets to `pending/` and may then leave `claimed/`. -/
theorem releaseFile_cases (out : Outcome) (fs : Files) (stem : String) (hlisted : out.listed = true) :
    ((∀ task, content fs .claimed stem = some task → ¬ Writes out stem task) ∧
      (releaseFile out fs stem).1 = fs) ∨
    ∃ task retries, content fs .claimed stem = some task ∧ bumped task = some retries ∧ Writes out stem task ∧
      (Completes out stem task ∧ (releaseFile out fs stem).1 =
          drop (put fs .pending (idOf stem task) (released task retries)) .claimed stem ∨
        ¬ Completes out stem task ∧
          (releaseFile out fs stem).1 = put fs .pending (idOf stem task) (released task retries)) := by
  cases hc : content fs .claimed stem with
  | none =>
    refine Or.inl ⟨fun task h => ?_, ?_⟩
    · cases h
    · unfold releaseFile
      rw [hc]
      cases out.fails stem with
      | none => rfl
      | some failure => cases failure <;> rfl
  | some task =>
    cases hb : bumped task with
    | none =>
      refine Or.inl ⟨fun task' h hw => ?_, ?_⟩
      · cases h
        simp [Writes, hb] at hw
      · unfold releaseFile
        rw [hc]
        cases hf : out.fails stem with
        | none => simp [hb]
        | some failure => cases failure <;> simp [hb]
    | some retries =>
      cases hf : out.fails stem with
      | none =>
        refine Or.inr ⟨task, retries, rfl, hb, ⟨hlisted, Or.inl hf, by simp [hb]⟩,
          Or.inl ⟨⟨hlisted, hf, by simp [hb]⟩, ?_⟩⟩
        simp [releaseFile, hc, hf, hb]
      | some failure =>
        cases failure with
        | remove =>
          refine Or.inr ⟨task, retries, rfl, hb, ⟨hlisted, Or.inr hf, by simp [hb]⟩, Or.inr ⟨fun h => ?_, ?_⟩⟩
          · rw [h.2.1] at hf
            cases hf
          · simp [releaseFile, hc, hf, hb]
        | read | mkdir | write =>
          refine Or.inl ⟨fun task' h hw => ?_, ?_⟩
          · rcases hw.2.1 with h | h <;> rw [h] at hf <;> cases hf
          · simp [releaseFile, hc, hf, hb]

/-- The other claimed files stay. -/
theorem claimed_releaseFile {stem' : String} (hlisted : out.listed = true) (hne : stem' ≠ stem) :
    content (releaseFile out fs stem).1 .claimed stem' = content fs .claimed stem' := by
  rcases releaseFile_cases out fs stem hlisted with ⟨-, h⟩ | ⟨task, retries, -, -, -, ⟨-, h⟩ | ⟨-, h⟩⟩
  · rw [h]
  · rw [h, content_drop, content_put, if_neg fun he => hne he.2, if_neg (by simp)]
  · rw [h, content_put, if_neg (by simp)]

/-! ## All files -/

/-- What going through the files `l` of `claimed/` does. -/
structure Swept (out : Outcome) (l : List String) (fs fs' : Files) : Prop where
  gone : ∀ stem ∈ l, ∀ task, content fs .claimed stem = some task → Completes out stem task →
    content fs' .claimed stem = none
  kept : ∀ stem, (∀ task, stem ∈ l → content fs .claimed stem = some task → ¬ Completes out stem task) →
    content fs' .claimed stem = content fs .claimed stem
  pending : ∀ id, (∃ stem ∈ l, ∃ task retries, content fs .claimed stem = some task ∧ bumped task = some retries ∧
      Writes out stem task ∧ idOf stem task = id ∧ content fs' .pending id = some (released task retries)) ∨
    (∀ stem ∈ l, ∀ task, content fs .claimed stem = some task → idOf stem task = id → ¬ Writes out stem task) ∧
      content fs' .pending id = content fs .pending id

/-- The loop, one file after the other. -/
theorem swept_releaseFiles (hlisted : out.listed = true) : ∀ {l : List String} {fs : Files}, l.Nodup →
    Swept out l fs (releaseFiles out fs l).1
  | [], fs, _ => by
    refine ⟨fun stem h => absurd h List.not_mem_nil, fun _ _ => rfl, fun id => Or.inr ⟨?_, rfl⟩⟩
    exact fun stem h => absurd h List.not_mem_nil
  | stem :: l, fs, hnodup => by
    obtain ⟨hnot, hnodup⟩ := List.nodup_cons.mp hnodup
    have hrest := @swept_releaseFiles hlisted l (releaseFile out fs stem).1 hnodup
    have hsame : ∀ stem' ∈ l, content (releaseFile out fs stem).1 .claimed stem' = content fs .claimed stem' :=
      fun stem' h => claimed_releaseFile hlisted fun he => hnot (he ▸ h)
    simp only [releaseFiles]
    -- this file is not looked at again
    have hself := hrest.kept stem fun _ h => absurd h hnot
    refine ⟨fun stem' hmem task htask hdone => ?_, fun stem' hno => ?_, fun id => ?_⟩
    · rcases List.mem_cons.mp hmem with rfl | hmem
      · rw [hself]
        rcases releaseFile_cases out fs stem' hlisted with ⟨hno, -⟩ | ⟨task', retries, htask', -, -, ⟨-, h⟩ | ⟨hnot, -⟩⟩
        · exact absurd ⟨hlisted, Or.inl hdone.2.1, hdone.2.2⟩ (hno task htask)
        · rw [h, content_drop, if_pos ⟨rfl, rfl⟩]
        · cases htask.symm.trans htask'
          exact absurd hdone hnot
      · exact hrest.gone stem' hmem task ((hsame stem' hmem).trans htask) hdone
    · by_cases he : stem' = stem
      · subst he
        rw [hself]
        rcases releaseFile_cases out fs stem' hlisted with ⟨-, h⟩ | ⟨task', retries, htask', -, -, ⟨hdone, -⟩ | ⟨-, h⟩⟩
        · rw [h]
        · exact absurd hdone (hno task' List.mem_cons_self htask')
        · rw [h, content_put, if_neg (by simp)]
      · rw [hrest.kept stem' fun task hmem htask => ?_, claimed_releaseFile hlisted he]
        exact hno task (List.mem_cons_of_mem _ hmem) ((hsame stem' hmem).symm.trans htask)
    · rcases hrest.pending id with ⟨stem', hmem, task, retries, htask, hb, hwrites, hid, hnew⟩ | ⟨hnone, hsameid⟩
      · exact Or.inl ⟨stem', List.mem_cons_of_mem _ hmem, task, retries, (hsame stem' hmem).symm.trans htask,
          hb, hwrites, hid, hnew⟩
      have hnone' : ∀ stem' ∈ l, ∀ task, content fs .claimed stem' = some task → idOf stem' task = id →
          ¬ Writes out stem' task :=
        fun stem' hmem task htask => hnone stem' hmem task ((hsame stem' hmem).trans htask)
      have hcons : (∀ task, content fs .claimed stem = some task → idOf stem task = id → ¬ Writes out stem task) →
          ∀ stem' ∈ stem :: l, ∀ task, content fs .claimed stem' = some task → idOf stem' task = id →
            ¬ Writes out stem' task := by
        intro h stem' hmem
        rcases List.mem_cons.mp hmem with rfl | hmem
        · exact h
        · exact hnone' stem' hmem
      rw [hsameid]
      rcases releaseFile_cases out fs stem hlisted with ⟨hno, h⟩ | ⟨task, retries, htask, hb, hwrites, h⟩
      · rw [h]
        exact Or.inr ⟨hcons fun task htask _ => hno task htask, rfl⟩
      · have hput : content (releaseFile out fs stem).1 .pending id =
            if id = idOf stem task then some (released task retries) else content fs .pending id := by
          rcases h with ⟨-, h⟩ | ⟨-, h⟩
          · rw [h, content_drop, if_neg (by simp), content_put]
            simp
          · rw [h, content_put]
            simp
        rw [hput]
        by_cases hid : id = idOf stem task
        · rw [if_pos hid]
          exact Or.inl ⟨stem, List.mem_cons_self, task, retries, htask, hb, hwrites, hid.symm, rfl⟩
        · rw [if_neg hid]
          refine Or.inr ⟨hcons fun task' htask' hid' => ?_, rfl⟩
          cases htask.symm.trans htask'
          exact absurd hid'.symm hid

/-! ## Marking the node idle -/

/-- What is copied to the share of a local file. -/
def copied (out : Outcome) (home : Files) (st : Stage) (stem : String) : Option Doc :=
  if out.copies st stem then content home st stem else none

theorem content_reconcileFile (fs : Files) (st st' : Stage) (stem stem' : String) :
    content (reconcileFile out home st fs stem) st' stem' =
      if st' = st ∧ stem' = stem then (content fs st stem).or (copied out home st stem)
      else content fs st' stem' := by
  by_cases h : st' = st ∧ stem' = stem
  · obtain ⟨rfl, rfl⟩ := h
    rw [if_pos ⟨rfl, rfl⟩, reconcileFile, copied]
    cases hh : content home st' stem' with
    | none => cases content fs st' stem' <;> simp
    | some data =>
      cases hc : content fs st' stem' with
      | some task => simp [hc]
      | none =>
        simp only [Option.none_or]
        split
        · rw [content_put, if_pos ⟨rfl, rfl⟩]
        · exact hc
  · rw [if_neg h, reconcileFile]
    split
    · split
      · rw [content_put, if_neg h]
      · rfl
    · rfl

theorem content_reconcileFiles (st st' : Stage) (stem' : String) : ∀ (l : List String) (fs : Files),
    content (l.foldl (reconcileFile out home st) fs) st' stem' =
      if st' = st ∧ stem' ∈ l then (content fs st stem').or (copied out home st stem')
      else content fs st' stem'
  | [], fs => by
    rw [if_neg fun h => absurd h.2 List.not_mem_nil]
    rfl
  | stem :: l, fs => by
    rw [List.foldl_cons, content_reconcileFiles st st' stem' l, content_reconcileFile, content_reconcileFile]
    by_cases hst : st' = st
    · subst hst
      by_cases hs : stem' = stem
      · subst hs
        simp only [true_and, List.mem_cons_self, if_true]
        split
        · cases content fs st' stem' <;> cases copied out home st' stem' <;> rfl
        · rfl
      · simp [hs]
    · simp [hst]

theorem content_reconcile (st st' : Stage) (fs : Files) (stem : String) :
    content ((stems home st).foldl (reconcileFile out home st) fs) st' stem =
      if st' = st then (content fs st stem).or (copied out home st stem) else content fs st' stem := by
  rw [content_reconcileFiles]
  by_cases hst : st' = st
  · rw [if_pos hst]
    split
    · rfl
    · rename_i hno
      have hnone : content home st stem = none := by
        rw [← Option.not_isSome_iff_eq_none, ← mem_stems]
        exact fun h => hno ⟨hst, h⟩
      rw [copied, hnone, ite_self, Option.or_none, hst]
  · rw [if_neg hst, if_neg fun h => hst h.1]

/-- Marking the node idle leaves `pending/` as it is. -/
theorem pending_markNodeIdle (id : String) :
    content (markNodeIdle out home fs) .pending id = content fs .pending id := by
  rw [markNodeIdle, content_reconcile, if_neg (by decide), content_reconcile, if_neg (by decide)]

/-- And leaves what is in `claimed/` there. -/
theorem claimed_markNodeIdle {task : Doc} :
    content (markNodeIdle out home fs) .claimed stem = some task ↔ Listed out home fs stem task := by
  rw [markNodeIdle, content_reconcile, if_neg (by decide), content_reconcile, if_pos rfl, Listed, copied]
  cases content fs .claimed stem with
  | some task' => simp
  | none =>
    simp only [Option.none_or, reduceCtorEq, false_or, true_and]
    split
    · rename_i h
      simp [h]
    · rename_i h
      simp [h]

end

/-! ## The shutdown -/

/-- A shutdown that cannot list `claimed/` releases nothing. -/
theorem ownOnly_of_not_listed {host : String} (hlisted : out.listed = false) :
    OwnOnly out fs host (handleCrash out home fs).1 := by
  have hcrash : (handleCrash out home fs).1 = markNodeIdle out home fs := by
    rw [handleCrash, releaseClaimedTasks, if_neg (by simp [hlisted])]
  rw [hcrash]
  refine ⟨fun stem task other htask _ _ => ⟨claimed_markNodeIdle.mpr (Or.inl htask), fun h => ?_⟩, fun _ _ _ _ h => ?_⟩
  · rw [pending_markNodeIdle, h]
  · rw [hlisted] at h
    cases h

theorem confined_of_not_listed {host : String} (hlisted : out.listed = false) :
    Confined out home fs host := by
  have hno : ¬ out.listed = true := by simp [hlisted]
  exact ⟨fun _ _ _ _ _ _ => ⟨fun h => hno h.1, Or.inr fun _ _ _ _ h => hno h.1⟩, fun _ _ _ _ h => absurd h hno⟩

/-- What going through `claimed/` does, from the directories as they were before the node was marked idle. -/
theorem swept_handleCrash (hlisted : out.listed = true) :
    Swept out (stems (markNodeIdle out home fs) .claimed) (markNodeIdle out home fs)
      (handleCrash out home fs).1 := by
  rw [handleCrash, releaseClaimedTasks, if_pos hlisted]
  exact swept_releaseFiles hlisted (Table.nodup _)

/-- `a` has claimed `task-001`, `b` has claimed `task-002`. -/
def twoClaims : Files :=
  put (put (fun _ => .empty) .claimed "task-001" [("id", .str "task-001"), ("claimed_by", .str "a")])
    .claimed "task-002" [("id", .str "task-002"), ("claimed_by", .str "b")]

/-- Nothing fails. -/
def Outcome.calm : Outcome := ⟨fun _ _ => true, true, fun _ => none⟩

end ClaudeSwarm.SwarmLib
