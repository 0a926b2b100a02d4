import ClaudeSwarm.SwarmLib.Tree

/-!
# The task operations on the shared tree

Model of the task operations of `src/swarm_lib.py` on a healthy NFS: no local fallback is written, and
an `OSError` leaves the operation. A task file is a dictionary; the dictionaries the operations read
are those they and `create_task` write.
-/

namespace ClaudeSwarm.SwarmLib

open Interleave Data
open Python (PyError)

/-! ## Files -/

/-- The error of a file that is gone. -/
def notFound {α : Type} (stage : Stage) (id suffix : String) : P α :=
  .raise (.fileNotFound ("[Errno 2] No such file or directory: '" ++ stage.str ++ "/" ++ id ++
    suffix ++ "'"))

/-- `yaml.safe_load` of a task file that is there. -/
def readYaml (stage : Stage) (id : String) : P Doc := do
  match ← cmd (.read stage id) with
  | some data => return data
  | none => notFound stage id ".yaml"

/-- `os.remove` of a task file that is there. -/
def removeYaml (stage : Stage) (id : String) : P Unit := do
  if ← cmd (.remove stage id) then return () else notFound stage id ".yaml"

/-- `atomic_write_yaml`. -/
def atomicWriteYaml (stage : Stage) (id : String) (data : Doc) : P Unit := do
  cmd (.writeTmp stage id data)
  if ← cmd (.rename stage id) then return () else notFound stage id ".tmp"

/-- `touch`, `open`, `flock`, and `try … finally` around what runs under the lock. -/
def withLock {α : Type} (stage : Stage) (id : String) (body : P α) : P α := do
  cmd (.touch stage id)
  cmd (.openLock stage id)
  ((do
    cmd .flock
    body.finally_ (cmd .unlock)) : P α).finally_ (cmd .close)

/-- `_locked_write_yaml`. -/
def lockedWriteYaml (stage : Stage) (id : String) (data : Doc) : P Unit :=
  withLock stage id (atomicWriteYaml stage id data)

/-! ## Dictionaries -/

/-- `data[key] = value`, one after the other. -/
def setKeys (data : Doc) (fields : Doc) : Doc := fields.foldl Json.setKey data

/-- `data.pop(key, None)`. -/
def popKey (data : Doc) (key : String) : Doc := data.filter fun f => f.1 ≠ key

/-- `data.get(key)` of a field that holds a string. -/
def getStr (data : Doc) (key : String) : Option String :=
  match data.lookup key with
  | some (.str s) => some s
  | _ => none

/-- `data.get(key, [])` of a field that holds a list of strings. -/
def getStrings (data : Doc) (key : String) : List String :=
  match data.lookup key with
  | some (.arr l) => (Json.strings l).getD []
  | _ => []

/-! ## Creating tasks -/

/-- The number in a task id, `int(f.stem.split("-")[1])`; `none` is a `ValueError`. -/
def idNumber (id : String) : Option Int :=
  (id.toList.splitOn '-')[1]?.bind fun part => Python.int (.ofList part)

/-- `f"task-{n:03d}"`. -/
def taskName (n : Nat) : String :=
  "task-" ++ .ofList (List.replicate (3 - (toString n).length) '0') ++ toString n

/-- The inner loop of `_next_task_id`. -/
def maxNumber (max_id : Int) (ids : List String) : Int :=
  ids.foldl (fun max_id id => (idNumber id).elim max_id (max max_id)) max_id

/-- `_next_task_id`. -/
def nextTaskId : P String := do
  let pending ← cmd (.glob .pending)
  let claimed ← cmd (.glob .claimed)
  let completed ← cmd (.glob .completed)
  let max_id := maxNumber (maxNumber (maxNumber 0 pending) claimed) completed
  return taskName (max_id + 1).toNat

/-- `create_task`. -/
def createTask (title description project priority : String) (requires : List String)
    (estimated_minutes : Int) : P Doc := do
  let task_id ← nextTaskId
  let created_by ← cmd .host
  let created_at ← cmd .iso
  let task : Doc := [("id", .str task_id), ("title", .str title),
    ("description", .str description), ("project", .str project), ("priority", .str priority),
    ("requires", .ofStrings requires), ("created_by", .str created_by),
    ("created_at", .str created_at), ("estimated_minutes", .int estimated_minutes)]
  lockedWriteYaml .pending task_id task
  return task

/-! ## Moving tasks -/

/-- `claim_task`. -/
def claimTask (task_id : String) : P Doc := do
  if !(← cmd (.pathExists .pending task_id)) then
    .raise (.fileNotFound ("Task " ++ task_id ++ " not found in pending/"))
  else do
    let task ← withLock .pending task_id do
      if !(← cmd (.pathExists .pending task_id)) then
        .raise (.fileNotFound ("Task " ++ task_id ++ " already claimed by another node"))
      else do
        let task ← readYaml .pending task_id
        let hostname ← cmd .host
        let claimed_at ← cmd .iso
        let task := setKeys task [("claimed_by", .str hostname), ("claimed_at", .str claimed_at)]
        atomicWriteYaml .claimed task_id task
        removeYaml .pending task_id
        return task
    cmd (.unlink .pending task_id)
    return task

/-- `complete_task` as it is first defined. -/
def originalCompleteTask (task_id result_artifact : String) : P Doc := do
  if !(← cmd (.pathExists .claimed task_id)) then
    .raise (.fileNotFound ("Task " ++ task_id ++ " not found in claimed/"))
  else do
    let task ← readYaml .claimed task_id
    let hostname ← cmd .host
    let completed_at ← cmd .iso
    let task := setKeys task ([("completed_by", .str hostname), ("completed_at", .str completed_at)] ++
      if result_artifact = "" then [] else [("result_artifact", .str result_artifact)])
    lockedWriteYaml .completed task_id task
    removeYaml .claimed task_id
    return task

/-- The loop of `check_parent_completion`: all of the subtasks are completed. -/
def allCompleted : List String → P Bool
  | [] => return true
  | sub_id :: sub_ids => do
    if ← cmd (.pathExists .completed sub_id) then allCompleted sub_ids else return false

/-- `check_parent_completion`. -/
def checkParentCompletion (parent_id : String) : P Bool := do
  if !(← cmd (.pathExists .decomposed parent_id)) then return false
  else do
    let parent ← readYaml .decomposed parent_id
    let subtask_ids := getStrings parent "subtasks"
    if subtask_ids = [] then return false
    else do
      if !(← allCompleted subtask_ids) then return false
      else do
        let completed_at ← cmd .iso
        let parent := setKeys parent [("completed_at", .str completed_at),
          ("completed_by", .str "auto"), ("state", .str "completed")]
        lockedWriteYaml .completed parent_id parent
        removeYaml .decomposed parent_id
        return true

/-- `complete_task`. -/
def completeTask (task_id result_artifact : String) : P Doc := do
  let task ← originalCompleteTask task_id result_artifact
  match (getStr task "parent_id").filter (· ≠ "") with
  | none => return task
  | some parent_id => do
    let _ ← checkParentCompletion parent_id
    return task

/-! ## Decomposing tasks -/

/-- A subtask of `decompose_task`, as the caller gives it. -/
structure Subtask where
  title : Option String := none
  description : String := ""
  project : Option String := none
  priority : Option String := none
  requires : List String := []
  estimatedMinutes : Int := 0

/-- `f"{task_id}-{chr(97 + i)}"`. -/
def subtaskId (task_id : String) (i : Nat) : String := task_id ++ "-" ++ .singleton (.ofNat (97 + i))

/-- `sub.get(key, parent.get(key, default))`. -/
def inherited (sub : Option String) (parent : Doc) (key default : String) : Json :=
  (sub.map Json.str).getD ((parent.lookup key).getD (.str default))

/-- The loop of `decompose_task`, from index `i`. -/
def createSubtasks (task_id : String) (parent : Doc) : Nat → List Subtask → P (List String)
  | _, [] => return []
  | i, sub :: subtasks => do
    let sub_id := subtaskId task_id i
    let created_by ← cmd .host
    let created_at ← cmd .iso
    let subtask_data : Doc := [("id", .str sub_id), ("parent_id", .str task_id),
      ("title", .str (sub.title.getD ("Subtask " ++ toString (i + 1)))),
      ("description", .str sub.description), ("project", inherited sub.project parent "project" ""),
      ("priority", inherited sub.priority parent "priority" "medium"),
      ("requires", .ofStrings sub.requires), ("created_by", .str created_by),
      ("created_at", .str created_at), ("estimated_minutes", .int sub.estimatedMinutes)]
    atomicWriteYaml .pending sub_id subtask_data
    let sub_ids ← createSubtasks task_id parent (i + 1) subtasks
    return sub_id :: sub_ids

/-- `decompose_task`. -/
def decomposeTask (task_id : String) (subtasks : List Subtask) : P Doc := do
  if !(← cmd (.pathExists .pending task_id)) then
    .raise (.fileNotFound ("Task " ++ task_id ++ " not found in pending/"))
  else do
    let parent ← withLock .pending task_id do
      if !(← cmd (.pathExists .pending task_id)) then
        .raise (.fileNotFound ("Task " ++ task_id ++ " already moved by another node"))
      else do
        let parent ← readYaml .pending task_id
        let subtask_ids ← createSubtasks task_id parent 0 subtasks
        let decomposed_at ← cmd .iso
        let decomposed_by ← cmd .host
        let parent := setKeys parent [("state", .str "decomposed"),
          ("subtasks", .ofStrings subtask_ids), ("decomposed_at", .str decomposed_at),
          ("decomposed_by", .str decomposed_by)]
        atomicWriteYaml .decomposed task_id parent
        removeYaml .pending task_id
        return parent
    cmd (.unlink .pending task_id)
    return parent

/-! ## Requeuing tasks -/

/-- `task.get("_retries", 0) + 1`. -/
def nextRetries (task : Doc) : P Int :=
  match task.lookup "_retries" with
  | none => return 1
  | some (.int n) => return n + 1
  | some _ => .raise (.typeError "unsupported operand type(s) for +")

/-- The loop of `cleanup_stale_nodes` over the claimed tasks. -/
def requeueOrphans (cleaned : List String) : List String → P (List String)
  | [] => return []
  | id :: ids => do
    let task ← readYaml .claimed id
    if (getStr task "claimed_by").any (cleaned.contains ·) then do
      let retries ← nextRetries task
      let task := setKeys (popKey (popKey task "claimed_by") "claimed_at") [("_retries", .int retries)]
      if retries ≤ 3 then do
        lockedWriteYaml .pending id task
        removeYaml .claimed id
        let orphaned ← requeueOrphans cleaned ids
        return (getStr task "id").getD id :: orphaned
      else requeueOrphans cleaned ids
    else requeueOrphans cleaned ids

/-- `cleanup_stale_nodes`, once it is known which nodes are dead. -/
def cleanupStaleNodes : P (List String × List String) := do
  let cleaned ← cmd .stale
  if cleaned = [] then return ([], [])
  else do
    let ids ← cmd (.glob .claimed)
    let orphaned_tasks ← requeueOrphans cleaned ids
    return (cleaned, orphaned_tasks)

/-! ## The system -/

/-- A call of the module. -/
inductive Op where
  | create (title description project priority : String) (requires : List String)
      (estimatedMinutes : Int)
  | claim (task_id : String)
  | complete (task_id resultArtifact : String)
  | decompose (task_id : String) (subtasks : List Subtask)
  | checkParent (parent_id : String)
  | cleanup

/-- What each operation returns. -/
abbrev Ret : Op → Type
  | .create .. | .claim _ | .complete _ _ | .decompose _ _ => Doc
  | .checkParent _ => Bool
  | .cleanup => List String × List String

/-- The program of each operation. -/
def prog : (o : Op) → P (Ret o)
  | .create title description project priority requires estimated =>
    createTask title description project priority requires estimated
  | .claim task_id => claimTask task_id
  | .complete task_id artifact => completeTask task_id artifact
  | .decompose task_id subtasks => decomposeTask task_id subtasks
  | .checkParent parent_id => checkParentCompletion parent_id
  | .cleanup => cleanupStaleNodes

/-- Any number of hosts on one tree. -/
abbrev system : System := ⟨sig, store, PyError, Op, Ret, prog⟩

end ClaudeSwarm.SwarmLib
