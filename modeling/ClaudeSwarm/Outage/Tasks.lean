import ClaudeSwarm.Outage.Tree

/-!
# The task operations when the share may fail

Model of `create_task`, `claim_task`, `complete_task`, `decompose_task` and `_reconcile_local_tasks` of
`src/swarm_lib.py` with their fallback. `claim_task` and `complete_task` write to the share first; an
`OSError` there, while the share is unhealthy, makes them write to the host's own tree instead, and an
`OSError` of the removal that follows is swallowed. `_reconcile_local_tasks` takes the files of the
host's tree back, stage by stage.

The dictionaries, ids and the scan for the next id are those of `SwarmLib`.
-/

namespace ClaudeSwarm.Outage

open Interleave
open Python (PyError)
open SwarmLib (Stage Doc Subtask setKeys getStr getStrings taskName maxNumber subtaskId inherited)

/-! ## Files -/

/-- A command on the share, or on a host's own tree. -/
def on (root : Root) (c : SwarmLib.Cmd) : P (SwarmLib.Resp c) := do
  match ← cmd (.on root c) with
  | some x => return x
  | none => .raise .osError

/-- The path of the directory. -/
def Place.str (p : Place) : String :=
  match p.root with
  | .share => p.stage.str
  | .home _ => ".swarm-tasks/" ++ p.stage.str

/-- The error of a file that is gone. -/
def notFound {α : Type} (p : Place) (id suffix : String) : P α :=
  .raise (.fileNotFound ("[Errno 2] No such file or directory: '" ++ p.str ++ "/" ++ id ++ suffix ++
    "'"))

/-- `except OSError` catches it. -/
def isOSError : PyError → Bool
  | .osError | .fileNotFound _ => true
  | _ => false

/-- `try: p except OSError as e: f e`. -/
def exceptOSError {α : Type} (p : P α) (f : PyError → P α) : P α :=
  p.catch_ fun e => if isOSError e then f e else .raise e

/-- `yaml.safe_load` of a task file that is there. -/
def readYaml (p : Place) (id : String) : P Doc := do
  match ← on p.root (.read p.stage id) with
  | some data => return data
  | none => notFound p id ".yaml"

/-- `os.remove` of a task file that is there. -/
def removeYaml (p : Place) (id : String) : P Unit := do
  if ← on p.root (.remove p.stage id) then return () else notFound p id ".yaml"

/-- `atomic_write_yaml`. -/
def atomicWriteYaml (p : Place) (id : String) (data : Doc) : P Unit := do
  on p.root (.writeTmp p.stage id data)
  if ← on p.root (.rename p.stage id) then return () else notFound p id ".tmp"

/-- `touch`, `open`, `flock`, and `try … finally` around what runs under the lock of a file on the
share. -/
def withLock {α : Type} (stage : Stage) (id : String) (body : P α) : P α := do
  on .share (.touch stage id)
  on .share (.openLock stage id)
  ((do
    on .share .flock
    body.finally_ (on .share .unlock)) : P α).finally_ (on .share .close)

/-- `_locked_write_yaml`. -/
def lockedWriteYaml (stage : Stage) (id : String) (data : Doc) : P Unit :=
  withLock stage id (atomicWriteYaml ⟨.share, stage⟩ id data)

/-! ## Creating tasks -/

/-- `_next_task_id`. -/
def nextTaskId : P String := do
  let pending ← on .share (.glob .pending)
  let claimed ← on .share (.glob .claimed)
  let completed ← on .share (.glob .completed)
  let max_id := maxNumber (maxNumber (maxNumber 0 pending) claimed) completed
  return taskName (max_id + 1).toNat

/-- `create_task`. -/
def createTask (host title description project priority : String) (requires : List String)
    (estimated_minutes : Int) : P Doc := do
  let task_id ← nextTaskId
  let created_by ← on (.home host) .host
  let created_at ← on (.home host) .iso
  let task : Doc := [("id", .str task_id), ("title", .str title),
    ("description", .str description), ("project", .str project), ("priority", .str priority),
    ("requires", .ofStrings requires), ("created_by", .str created_by),
    ("created_at", .str created_at), ("estimated_minutes", .int estimated_minutes)]
  lockedWriteYaml .pending task_id task
  return task

/-! ## Moving tasks, with the fallback -/

/-- `try: write; os.remove(src) except OSError`, and the fallback to `~/.swarm-tasks/<stage>/`. -/
def moveOrFallback (host : String) (src : Place) (stage : Stage) (task_id : String) (task : Doc)
    (write : P Unit) : P Unit :=
  exceptOSError (do
    write
    removeYaml src task_id) fun nfs_exc => do
      if !(← cmd .healthy) then do
        atomicWriteYaml ⟨.home host, stage⟩ task_id task
        exceptOSError (removeYaml src task_id) fun _ => return ()
      else .raise nfs_exc

/-- `claim_task`. -/
def claimTask (host task_id : String) : P Doc := do
  if !(← on .share (.pathExists .pending task_id)) then
    .raise (.fileNotFound ("Task " ++ task_id ++ " not found in pending/"))
  else do
    let task ← withLock .pending task_id do
      if !(← on .share (.pathExists .pending task_id)) then
        .raise (.fileNotFound ("Task " ++ task_id ++ " already claimed by another node"))
      else do
        let task ← readYaml ⟨.share, .pending⟩ task_id
        let hostname ← on (.home host) .host
        let claimed_at ← on (.home host) .iso
        let task := setKeys task [("claimed_by", .str hostname), ("claimed_at", .str claimed_at)]
        moveOrFallback host ⟨.share, .pending⟩ .claimed task_id task
          (atomicWriteYaml ⟨.share, .claimed⟩ task_id task)
        return task
    on .share (.unlink .pending task_id)
    return task

/-- Where `complete_task` looks for the task: on the share, or else in the host's own tree. -/
def claimedPlace (host task_id : String) : P Place := do
  if ← on .share (.pathExists .claimed task_id) then return ⟨.share, .claimed⟩
  else if ← on (.home host) (.pathExists .claimed task_id) then return ⟨.home host, .claimed⟩
  else return ⟨.share, .claimed⟩

/-- `complete_task` as it is first defined. -/
def originalCompleteTask (host task_id result_artifact : String) : P Doc := do
  let src ← claimedPlace host task_id
  if !(← on src.root (.pathExists src.stage task_id)) then
    .raise (.fileNotFound ("Task " ++ task_id ++ " not found in claimed/"))
  else do
    let task ← readYaml src task_id
    let hostname ← on (.home host) .host
    let completed_at ← on (.home host) .iso
    let task := setKeys task ([("completed_by", .str hostname), ("completed_at", .str completed_at)] ++
      if result_artifact = "" then [] else [("result_artifact", .str result_artifact)])
    moveOrFallback host src .completed task_id task (lockedWriteYaml .completed task_id task)
    return task

/-- The loop of `check_parent_completion`: all of the subtasks are completed. -/
def allCompleted : List String → P Bool
  | [] => return true
  | sub_id :: sub_ids => do
    if ← on .share (.pathExists .completed sub_id) then allCompleted sub_ids else return false

/-- `check_parent_completion`. -/
def checkParentCompletion (parent_id : String) : P Bool := do
  if !(← on .share (.pathExists .decomposed parent_id)) then return false
  else do
    let parent ← readYaml ⟨.share, .decomposed⟩ parent_id
    let subtask_ids := getStrings parent "subtasks"
    if subtask_ids = [] then return false
    else do
      if !(← allCompleted subtask_ids) then return false
      else do
        let completed_at ← on .share .iso
        let parent := setKeys parent [("completed_at", .str completed_at),
          ("completed_by", .str "auto"), ("state", .str "completed")]
        lockedWriteYaml .completed parent_id parent
        removeYaml ⟨.share, .decomposed⟩ parent_id
        return true

/-- `complete_task`. -/
def completeTask (host task_id result_artifact : String) : P Doc := do
  let task ← originalCompleteTask host task_id result_artifact
  match (getStr task "parent_id").filter (· ≠ "") with
  | none => return task
  | some parent_id => do
    let _ ← checkParentCompletion parent_id
    return task

/-! ## Taking the files back -/

/-- The body of the loop of `_reconcile_local_tasks`: one file. -/
def reconcileFile (host : String) (stage : Stage) (id : String) : P (List String) :=
  exceptOSError (do
    if !(← on .share (.pathExists stage id)) then do
      let data ← readYaml ⟨.home host, stage⟩ id
      atomicWriteYaml ⟨.share, stage⟩ id data
    removeYaml ⟨.home host, stage⟩ id
    return [id]) fun _ => return []

/-- The files of one directory. -/
def reconcileFiles (host : String) (stage : Stage) : List String → P (List String)
  | [] => return []
  | id :: ids => do
    let moved ← reconcileFile host stage id
    let rest ← reconcileFiles host stage ids
    return moved ++ rest

/-- `_reconcile_local_tasks`. -/
def reconcileLocalTasks (host : String) : P (List String) := do
  if !(← cmd .healthy) then return []
  else do
    let claimed ← cmd (.homeGlob host .claimed)
    let moved ← reconcileFiles host .claimed claimed
    let completed ← cmd (.homeGlob host .completed)
    let rest ← reconcileFiles host .completed completed
    return moved ++ rest

/-! ## Decomposing tasks -/

/-- The loop of `decompose_task`, from index `i`. -/
def createSubtasks (task_id : String) (parent : Doc) : Nat → List Subtask → P (List String)
  | _, [] => return []
  | i, sub :: subtasks => do
    let sub_id := subtaskId task_id i
    let created_by ← on .share .host
    let created_at ← on .share .iso
    let subtask_data : Doc := [("id", .str sub_id), ("parent_id", .str task_id),
      ("title", .str (sub.title.getD ("Subtask " ++ toString (i + 1)))),
      ("description", .str sub.description), ("project", inherited sub.project parent "project" ""),
      ("priority", inherited sub.priority parent "priority" "medium"),
      ("requires", .ofStrings sub.requires), ("created_by", .str created_by),
      ("created_at", .str created_at), ("estimated_minutes", .int sub.estimatedMinutes)]
    atomicWriteYaml ⟨.share, .pending⟩ sub_id subtask_data
    let sub_ids ← createSubtasks task_id parent (i + 1) subtasks
    return sub_id :: sub_ids

/-- `decompose_task`. -/
def decomposeTask (task_id : String) (subtasks : List Subtask) : P Doc := do
  if !(← on .share (.pathExists .pending task_id)) then
    .raise (.fileNotFound ("Task " ++ task_id ++ " not found in pending/"))
  else do
    let parent ← withLock .pending task_id do
      if !(← on .share (.pathExists .pending task_id)) then
        .raise (.fileNotFound ("Task " ++ task_id ++ " already moved by another node"))
      else do
        let parent ← readYaml ⟨.share, .pending⟩ task_id
        let subtask_ids ← createSubtasks task_id parent 0 subtasks
        let decomposed_at ← on .share .iso
        let decomposed_by ← on .share .host
        let parent := setKeys parent [("state", .str "decomposed"),
          ("subtasks", .ofStrings subtask_ids), ("decomposed_at", .str decomposed_at),
          ("decomposed_by", .str decomposed_by)]
        atomicWriteYaml ⟨.share, .decomposed⟩ task_id parent
        removeYaml ⟨.share, .pending⟩ task_id
        return parent
    on .share (.unlink .pending task_id)
    return parent

/-! ## The system -/

/-- A call of the module, on a host; or the weather. -/
inductive Op where
  | create (host title description project priority : String) (requires : List String)
      (estimatedMinutes : Int)
  | claim (host task_id : String)
  | complete (host task_id resultArtifact : String)
  | decompose (task_id : String) (subtasks : List Subtask)
  | reconcile (host : String)
  | weather (h : Health)

/-- What each operation returns. -/
abbrev Ret : Op → Type
  | .create .. | .claim .. | .complete .. | .decompose .. => Doc
  | .reconcile _ => List String
  | .weather _ => Unit

/-- The program of each operation. -/
def prog : (o : Op) → P (Ret o)
  | .create host title description project priority requires estimated =>
    createTask host title description project priority requires estimated
  | .claim host task_id => claimTask host task_id
  | .complete host task_id artifact => completeTask host task_id artifact
  | .decompose task_id subtasks => decomposeTask task_id subtasks
  | .reconcile host => reconcileLocalTasks host
  | .weather h => cmd (.weather h)

/-- Any number of hosts on one share. -/
abbrev system : System := ⟨sig, store, PyError, Op, Ret, prog⟩

end ClaudeSwarm.Outage
