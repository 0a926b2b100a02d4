import ClaudeSwarm.SwarmLib.Alone
import ClaudeSwarm.SwarmLib.Remediations
import ClaudeSwarm.SwarmLib.Stage

/-!
# No task is lost by a crash

Every operation writes a task's file to its new stage before it removes it from the old one, and a
file is complete when it appears under its name. So wherever an operation that runs alone is killed,
each task that had a file has one, with the content of one of its files but for the fields the
operations keep for themselves (`bookkeeping`).

* `Kept`: no task has lost its last file, and every file is an old one of its task up to `bookkeeping`.
* `Keeps`: a triple about programs that keep `Kept` from command to command; `keeps_read`, `keeps_write`
  and `keeps_move` are its rules for task files.
* **`crash_keeps`**: wherever one of the operations is killed, `Kept` holds.
-/

namespace ClaudeSwarm.SwarmLib

open Interleave
open Python (PyError)

/-! ## What is kept -/

/-- The task had a file with this content up to `bookkeeping`. -/
def Derived (fs₀ : Files) (id : String) (data : Doc) : Prop :=
  ∃ st data₀, content fs₀ st id = some data₀ ∧ SameContent data₀ data

/-- No task has lost its last file, and no file has other content than its task had. -/
structure Kept (fs₀ fs : Files) : Prop where
  there : ∀ id, (∃ st, (content fs₀ st id).isSome) → ∃ st, (content fs st id).isSome
  derived : ∀ st id data, content fs st id = some data → Derived fs₀ id data

theorem Kept.refl (fs : Files) : Kept fs fs :=
  ⟨fun _ h => h, fun st _ data h => ⟨st, data, h, SameContent.refl data⟩⟩

variable {fs₀ fs : Files} {st st' : Stage} {id : String} {data : Doc}

/-- A file with content that its task had is written. -/
theorem Kept.put (h : Kept fs₀ fs) (hd : Derived fs₀ id data) : Kept fs₀ (put fs st id data) := by
  constructor
  · intro id' h₀
    obtain ⟨st', hst'⟩ := h.there id' h₀
    refine ⟨st', ?_⟩
    rw [content_put]
    split
    · rfl
    · exact hst'
  · intro st' id' data' hdata'
    rw [content_put] at hdata'
    split at hdata'
    · rename_i he
      obtain rfl := Option.some.inj hdata'
      rw [he.2]
      exact hd
    · exact h.derived st' id' data' hdata'

/-- A file is removed whose task has another one. -/
theorem Kept.drop (h : Kept fs₀ fs) (hne : st' ≠ st) (hthere : (content fs st' id).isSome) :
    Kept fs₀ (drop fs st id) := by
  constructor
  · intro id' h₀
    by_cases hid : id' = id
    · refine ⟨st', ?_⟩
      rw [content_drop, if_neg fun he => hne he.1, hid]
      exact hthere
    · obtain ⟨st'', hst''⟩ := h.there id' h₀
      refine ⟨st'', ?_⟩
      rw [content_drop, if_neg fun he => hid he.2]
      exact hst''
  · intro st'' id' data' hdata'
    rw [content_drop] at hdata'
    split at hdata'
    · cases hdata'
    · exact h.derived st'' id' data' hdata'

section

variable {n : Nat} {α β : Type} {A : Files → Prop} {R : α → Files → Prop} {R' : β → Files → Prop}

/-! ## Rules -/

/-- A triple about a program that keeps `Kept` from command to command. -/
abbrev Keeps (fs₀ : Files) (n : Nat) (A : Files → Prop) (p : P α) (R : α → Files → Prop) : Prop :=
  Hoare n (Kept fs₀) A p R

/-- An operation that keeps everything wherever it is run. -/
abbrev KeepsAll (fs₀ : Files) (n : Nat) (p : P α) : Prop :=
  Keeps fs₀ n (fun _ => True) p fun _ _ => True

/-- Reading a task file. -/
theorem keeps_read {f : Doc → P β} (hf : ∀ data, Derived fs₀ id data → Keeps fs₀ n A (f data) R') :
    Keeps fs₀ n A (readYaml st id >>= f) R' := by
  refine hoare_read fun data => ?_
  refine hoare_pre (A := fun fs => A fs ∧ Derived fs₀ id data) (fun fs hk hA => ?_)
    (Store.triple_assume fun hd => hf data hd)
  exact ⟨hA.1, hk.derived st id data hA.2⟩

/-- Writing a task file. -/
theorem keeps_write (hd : Derived fs₀ id data) :
    Keeps fs₀ n A (atomicWriteYaml st id data) fun _ fs => (content fs st id).isSome := by
  refine hoare_post (fun _ fs' h => ?_) (hoare_write fun fs hk _ => hk.put hd)
  obtain ⟨fs, -, hput⟩ := h
  rw [hput, content_put, if_pos ⟨rfl, rfl⟩]
  rfl

/-- A task that was read is written to another stage, locked or not, and removed from the old one. -/
theorem keeps_move {write : P Unit} {f : P β} (hne : st' ≠ st)
    (hwrite : Keeps fs₀ n A write fun _ fs => (content fs st' id).isSome)
    (hf : Keeps fs₀ n (fun _ => True) f R') :
    Keeps fs₀ n A (write >>= fun _ => removeYaml st id >>= fun _ => f) R' := by
  refine hoare_bind hwrite fun _ => ?_
  refine hoare_bind (hoare_removeYaml fun fs hk hthere => hk.drop hne hthere) fun _ => ?_
  exact hoare_pre (fun _ _ _ => trivial) hf

/-! ## The operations -/

theorem Derived.setKeys {fields : Doc} (h : Derived fs₀ id data)
    (hf : ∀ f ∈ fields, f.1 ∈ bookkeeping) : Derived fs₀ id (setKeys data fields) := by
  obtain ⟨st, data₀, h₀, hs⟩ := h
  exact ⟨st, data₀, h₀, hs.trans (sameContent_setKeys hf)⟩

theorem Derived.popKey {key : String} (h : Derived fs₀ id data) (hk : key ∈ bookkeeping) :
    Derived fs₀ id (popKey data key) := by
  obtain ⟨st, data₀, h₀, hs⟩ := h
  exact ⟨st, data₀, h₀, hs.trans (sameContent_popKey hk)⟩

theorem claimTask_keeps : KeepsAll fs₀ n (claimTask id) := by
  refine hoare_still (c := .pathExists .pending id) trivial fun found => ?_
  cases found with
  | false => exact hoare_raise
  | true =>
    refine hoare_bind (R := fun _ _ => True) (hoare_withLock ?_) fun task =>
      hoare_still (c := .unlink .pending id) trivial fun _ => hoare_ret fun _ h => h
    refine hoare_still (c := .pathExists .pending id) trivial fun found => ?_
    cases found with
    | false => exact hoare_raise
    | true =>
      refine keeps_read fun task htask => ?_
      refine hoare_still (c := .host) trivial fun hostname =>
        hoare_still (c := .iso) trivial fun claimed_at => ?_
      exact keeps_move (by decide) (keeps_write (htask.setKeys (by simp [bookkeeping])))
        (hoare_ret fun _ h => h)

theorem originalCompleteTask_keeps {artifact : String} :
    KeepsAll fs₀ n (originalCompleteTask id artifact) := by
  refine hoare_still (c := .pathExists .claimed id) trivial fun found => ?_
  cases found with
  | false => exact hoare_raise
  | true =>
    refine keeps_read fun task htask => ?_
    refine hoare_still (c := .host) trivial fun hostname =>
      hoare_still (c := .iso) trivial fun completed_at => ?_
    refine keeps_move (by decide) (hoare_withLock (keeps_write (htask.setKeys ?_)))
      (hoare_ret fun _ h => h)
    by_cases ha : artifact = "" <;> simp [ha, bookkeeping]

theorem checkParentCompletion_keeps : KeepsAll fs₀ n (checkParentCompletion id) := by
  refine hoare_still (c := .pathExists .decomposed id) trivial fun found => ?_
  cases found with
  | false => exact hoare_ret fun _ h => h
  | true =>
    refine keeps_read fun parent hparent => ?_
    simp only
    split
    · exact hoare_ret fun _ h => h
    · have hall : (allCompleted (getStrings parent "subtasks")).Each Cmd.IsStill :=
        Prog.each_mono (fun _ => still_of_quiet) (each_allCompleted _)
      refine hoare_bind (hoare_each hall) fun all => ?_
      cases all with
      | false => exact hoare_ret fun _ h => h
      | true =>
        refine hoare_still (c := .iso) trivial fun completed_at => ?_
        exact keeps_move (by decide)
          (hoare_withLock (keeps_write (hparent.setKeys (by simp [bookkeeping]))))
          (hoare_ret fun _ h => h)

theorem completeTask_keeps {artifact : String} : KeepsAll fs₀ n (completeTask id artifact) := by
  refine hoare_bind originalCompleteTask_keeps fun task => ?_
  split
  · exact hoare_ret fun _ h => h
  · exact hoare_bind checkParentCompletion_keeps fun _ => hoare_ret fun _ h => h

theorem requeueOrphans_keeps {cleaned : List String} :
    ∀ ids, KeepsAll fs₀ n (requeueOrphans cleaned ids)
  | [] => hoare_ret fun _ h => h
  | id :: ids => by
    refine keeps_read fun task htask => ?_
    simp only
    split
    · have hretries : (nextRetries task).Each Cmd.IsStill :=
        Prog.each_mono (fun _ => still_of_quiet) each_nextRetries
      refine hoare_bind (hoare_each hretries) fun retries => ?_
      have hpop : Derived fs₀ id (popKey (popKey task "claimed_by") "claimed_at") :=
        (htask.popKey (by simp [bookkeeping])).popKey (by simp [bookkeeping])
      have hd : Derived fs₀ id (setKeys (popKey (popKey task "claimed_by") "claimed_at")
          [("_retries", .int retries)]) := hpop.setKeys (by simp [bookkeeping])
      split
      · exact keeps_move (by decide) (hoare_withLock (keeps_write hd))
          (hoare_bind (requeueOrphans_keeps ids) fun _ => hoare_ret fun _ h => h)
      · exact requeueOrphans_keeps ids
    · exact requeueOrphans_keeps ids

theorem cleanupStaleNodes_keeps : KeepsAll fs₀ n cleanupStaleNodes := by
  refine hoare_still (c := .stale) trivial fun cleaned => ?_
  split
  · exact hoare_ret fun _ h => h
  · exact hoare_still (c := .glob .claimed) trivial fun ids =>
      hoare_bind (requeueOrphans_keeps ids) fun _ => hoare_ret fun _ h => h

theorem tryRequeue_keeps : KeepsAll fs₀ n (tryRequeue id) := by
  refine hoare_still (c := .pathExists .claimed id) trivial fun found => ?_
  cases found with
  | false => exact hoare_ret fun _ h => h
  | true =>
    refine keeps_read fun task htask => ?_
    have hretries : (retriesOf task).Each Cmd.IsStill := by
      unfold retriesOf
      split <;> trivial
    have hpid : (killPid task).Each Cmd.IsStill := by
      unfold killPid
      split
      · trivial
      · split
        · split <;> trivial
        · trivial
    refine hoare_bind (hoare_each hretries) fun retries => ?_
    split
    · exact hoare_ret fun _ h => h
    · refine hoare_bind (hoare_each hpid) fun _ => ?_
      have hset : Derived fs₀ id (setKeys task [("_retries", .int (retries + 1))]) :=
        htask.setKeys (by simp [bookkeeping])
      have hd : Derived fs₀ id (popKey (popKey (setKeys task [("_retries", .int (retries + 1))])
          "claimed_by") "claimed_at") :=
        (hset.popKey (by simp [bookkeeping])).popKey (by simp [bookkeeping])
      refine hoare_bind (keeps_write hd) fun _ => ?_
      have hne : Stage.pending ≠ .claimed := by decide
      exact hoare_remove (fun fs hk hthere => hk.drop hne hthere)
        (hoare_ret fun _ _ => trivial) (hoare_ret fun _ _ => trivial)

theorem requeueTask_keeps {str : PyError → String} : KeepsAll fs₀ n (requeueTask str id) := by
  unfold requeueTask
  split
  · exact hoare_ret fun _ h => h
  · exact Store.triple_catch tryRequeue_keeps fun e => Store.triple_ret fun _ _ h => h

end

/-- An operation that moves tasks. -/
inductive Move where
  | claim (task_id : String)
  | complete (task_id resultArtifact : String)
  | checkParent (parent_id : String)
  | cleanup
  | requeue (str : PyError → String) (task_id : String)

/-- What each operation returns. -/
abbrev Move.Ret : Move → Type
  | .claim _ | .complete _ _ => Doc
  | .checkParent _ => Bool
  | .cleanup => List String × List String
  | .requeue _ _ => Bool × String

/-- The program of each operation. -/
def Move.prog : (m : Move) → P m.Ret
  | .claim task_id => claimTask task_id
  | .complete task_id artifact => completeTask task_id artifact
  | .checkParent parent_id => checkParentCompletion parent_id
  | .cleanup => cleanupStaleNodes
  | .requeue str task_id => requeueTask str task_id

theorem prog_keeps {n : Nat} : ∀ m : Move, KeepsAll fs₀ n m.prog
  | .claim _ => claimTask_keeps
  | .complete _ _ => completeTask_keeps
  | .checkParent _ => checkParentCompletion_keeps
  | .cleanup => cleanupStaleNodes_keeps
  | .requeue _ _ => requeueTask_keeps

/-- **No task is lost by a crash.** Wherever an operation that runs alone is killed, every task that
had a file has one, and what it holds is what a file of that task held but for `bookkeeping`. -/
theorem crash_keeps {n : Nat} {m : Move} {s s' : Tree} (h : store.Reaches n m.prog s s')
    {id : String} (hid : ∃ st, s.File st id) :
    ∃ st data', content s'.files st id = some data' ∧
      ∃ st₀ data, content s.files st₀ id = some data ∧ SameContent data data' := by
  have hkept : Kept s.files s'.files := (prog_keeps m s (Kept.refl s.files) trivial).reaches h
  have hfile : ∃ st, (content s.files st id).isSome := by
    obtain ⟨st, hst⟩ := hid
    refine ⟨st, ?_⟩
    rw [content, Option.isSome_map]
    exact hst
  obtain ⟨st, hst⟩ := hkept.there id hfile
  obtain ⟨data', hdata'⟩ := Option.isSome_iff_exists.mp hst
  exact ⟨st, data', hdata', hkept.derived st id data' hdata'⟩

/-- `a` is killed when it has written the claimed file. -/
def killedClaiming : Tree := store.cut 0 (host "a") 10 (Move.prog (.claim "task-001")) onePending

theorem crash_keeps_killedClaiming :
    ∃ st data', content killedClaiming.files st "task-001" = some data' ∧
      ∃ st₀ data, content onePending.files st₀ "task-001" = some data ∧ SameContent data data' :=
  crash_keeps (m := .claim "task-001") (store.reaches_cut 0 (host "a") 10 _ onePending)
    ⟨.pending, by decide⟩

/-- Both files are there. -/
example : killedClaiming.File .pending "task-001" ∧ killedClaiming.File .claimed "task-001" := by
  decide

end ClaudeSwarm.SwarmLib
