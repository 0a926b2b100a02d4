import ClaudeSwarm.Redis.Client

/-!
# The swarm's tasks on Redis

Model of the task operations of `src/swarm_redis.py`, down to the single commands. A dictionary the
source returns is a `Json` object: the stored `data` with what the operation adds to it, or the hash
itself when it has no `data`.

The operations of one server are `Op`; `redis_client.claim_task`, which pops the same sorted set, is
one of them.
-/

namespace ClaudeSwarm.SwarmRedis

open Interleave Data Redis
open Python (PyError FloatFmt)

/-! ## Dictionaries -/

/-- A hash as the dictionary `hgetall` returns. -/
def hashDict (h : Hash) : Json := .obj (h.rows.map fun f => (f.1, .str f.2))

/-- `json.loads(task["data"])`, then `update` with `fields`; for a task without `data`, the hash. -/
def taskData (task : Hash) (fields : List (String × Json)) : P Json :=
  match task.get "data" with
  | none => return hashDict task
  | some text =>
    match Json.loads text with
    | some (.obj d) => return .obj (fields.foldl Json.setKey d)
    | some _ => .raise (.typeError "data is not an object")
    | none => .raise .jsonDecode

/-- `task.get(field, now_iso())`. -/
def getOrNow (task : Hash) (field : String) : P String := do
  let now ← cmd .iso
  return (task.get field).getD now

/-- A subtask of `decompose_task`, as the caller gives it. -/
structure Subtask where
  title : Option String := none
  description : String := ""
  project : String := ""
  priority : String := "medium"
  requires : List String := []

/-! ## The operations -/

variable (F : FloatFmt)

/-- The score of a named priority. -/
def priorityScore (priority : String) : Int :=
  ([("critical", 1), ("high", 3), ("medium", 5), ("low", 7)].lookup priority).getD 5

/-- `f"task-{n:04d}"`. -/
def taskName (n : Nat) : String :=
  "task-" ++ .ofList (List.replicate (4 - (toString n).length) '0') ++ toString n

/-- `create_task`. -/
def createTask (title description project priority : String) (requires : List String)
    (estimated_minutes : Int) : P Json := do
  let n ← cmd .incr
  let task_id := taskName n
  let created_by ← cmd .host
  let created_at ← cmd .iso
  let task_data : Json := .obj [("id", .str task_id), ("title", .str title),
    ("description", .str description), ("project", .str project), ("priority", .str priority),
    ("requires", .ofStrings requires), ("created_by", .str created_by),
    ("created_at", .str created_at), ("estimated_minutes", .int estimated_minutes)]
  let _ ← Client.createTask F task_id task_data (priorityScore priority)
  return task_data

/-- The pipeline of `claim_task`. -/
def claimWrites (task_id : String) (score : Int) (host claimed_at : String) : List Write :=
  [.zrem .pending task_id, .zadd .claimed task_id score,
    .hset task_id [("state", "claimed"), ("claimed_by", host), ("claimed_at", claimed_at)]]

/-- What both claims return: the task's data with who claimed it and when. -/
def claimedData (task : Hash) (host : String) : P Json :=
  if task.get "data" = none then return hashDict task
  else do
    let claimed_at ← getOrNow task "claimed_at"
    taskData task [("claimed_by", .str host), ("claimed_at", .str claimed_at)]

/-- `claim_task`. -/
def claimTask (task_id : String) : P Json := do
  let host ← cmd .host
  match ← cmd (.zscore .pending task_id) with
  | none => .raise (.fileNotFound ("Task " ++ task_id ++ " not found in pending"))
  | some score => do
    let claimed_at ← cmd .iso
    cmd (.exec (claimWrites task_id score host claimed_at))
    match ← Client.getTask task_id with
    | none => return .obj []
    | some task => claimedData task host

/-- `claim_next_task`. -/
def claimNextTask : P (Option Json) := do
  let host ← cmd .host
  match ← Client.claimTask F host with
  | none => return none
  | some task_id =>
    match ← Client.getTask task_id with
    | none => return none
    | some task => do
      let data ← claimedData task host
      return some data

/-- `complete_task`. -/
def completeTask (task_id result_artifact : String) : P Json := do
  let result_data : Option Json :=
    if result_artifact = "" then none else some (.obj [("artifact", .str result_artifact)])
  let _ ← Client.completeTask F task_id result_data
  match ← Client.getTask task_id with
  | none => return .obj []
  | some task =>
    if task.get "data" = none then return hashDict task
    let completed_at ← getOrNow task "completed_at"
    taskData task ([("completed_at", .str completed_at)] ++
      if result_artifact = "" then [] else [("result_artifact", .str result_artifact)])

/-- `f"{task_id}-{chr(97 + i)}"`. -/
def subtaskId (task_id : String) (i : Nat) : String := task_id ++ "-" ++ .singleton (.ofNat (97 + i))

/-- The loop of `decompose_task`, from index `i`. -/
def createSubtasks (task_id : String) : Nat → List Subtask → P (List Json)
  | _, [] => return []
  | i, sub :: subtasks => do
    let created_by ← cmd .host
    let created_at ← cmd .iso
    let sub_data : Json := .obj [("id", .str (subtaskId task_id i)), ("parent_id", .str task_id),
      ("title", .str (sub.title.getD ("Subtask " ++ toString (i + 1)))),
      ("description", .str sub.description), ("project", .str sub.project),
      ("priority", .str sub.priority), ("requires", .ofStrings sub.requires),
      ("created_by", .str created_by), ("created_at", .str created_at)]
    let _ ← Client.createTask F (subtaskId task_id i) sub_data (priorityScore sub.priority)
    let created ← createSubtasks task_id (i + 1) subtasks
    return sub_data :: created

/-- The hash fields of a decomposed task. -/
def decomposedFields (decomposed_at : String) (count : Nat) : List (String × String) :=
  [("state", "decomposed"), ("decomposed_at", decomposed_at), ("subtask_count", toString count)]

/-- `decompose_task`. -/
def decomposeTask (task_id : String) (subtasks : List Subtask) : P (List Json) := do
  cmd (.exec [.zrem .pending task_id])
  let decomposed_at ← cmd .iso
  cmd (.exec [.hset task_id (decomposedFields decomposed_at subtasks.length)])
  createSubtasks F task_id 0 subtasks

/-- The loop of `check_parent_completion`: how many of the subtasks from `i` on, `k` of them, are
completed. -/
def countCompleted (parent_id : String) : Nat → Nat → P Int
  | _, 0 => return 0
  | i, k + 1 => do
    let sub ← Client.getTask (subtaskId parent_id i)
    let rest ← countCompleted parent_id (i + 1) k
    return (if sub.bind (·.get "state") = some "completed" then 1 else 0) + rest

/-- The hash fields of a parent whose subtasks are complete. -/
def completedFields (completed_at : String) : List (String × String) :=
  [("state", "completed"), ("completed_at", completed_at), ("auto_completed", "true")]

/-- `check_parent_completion`. -/
def checkParentCompletion (parent_id : String) : P Bool := do
  match ← Client.getTask parent_id with
  | none => return false
  | some parent =>
    match Python.int ((parent.get "subtask_count").getD "0") with
    | none => .raise (.valueError "invalid literal for int()")
    | some subtask_count =>
      if subtask_count = 0 then return false
      let completed ← countCompleted parent_id 0 subtask_count.toNat
      if completed < subtask_count then return false
      let now ← cmd .now
      cmd (.exec [.zadd .completed parent_id (Python.truncate now)])
      let completed_at ← cmd .iso
      cmd (.exec [.hset parent_id (completedFields completed_at)])
      return true

/-! ## The system -/

/-- A call of the module, or of `redis_client.claim_task`. -/
inductive Op where
  | create (title description project priority : String) (requires : List String)
      (estimatedMinutes : Int)
  | claim (task_id : String)
  | claimNext
  | clientClaim (claimer : String)
  | complete (task_id resultArtifact : String)
  | decompose (task_id : String) (subtasks : List Subtask)
  | checkParent (parent_id : String)

/-- What each operation returns. -/
abbrev Ret : Op → Type
  | .create .. | .claim _ | .complete _ _ => Json
  | .claimNext => Option Json
  | .clientClaim _ => Option String
  | .decompose _ _ => List Json
  | .checkParent _ => Bool

/-- The program of each operation. -/
def prog : (o : Op) → P (Ret o)
  | .create title description project priority requires estimated =>
    createTask F title description project priority requires estimated
  | .claim task_id => claimTask task_id
  | .claimNext => claimNextTask F
  | .clientClaim claimer => Client.claimTask F claimer
  | .complete task_id artifact => completeTask F task_id artifact
  | .decompose task_id subtasks => decomposeTask F task_id subtasks
  | .checkParent parent_id => checkParentCompletion parent_id

/-- Any number of clients on one server. -/
abbrev system : System := ⟨sig, store, PyError, Op, Ret, prog F⟩

end ClaudeSwarm.SwarmRedis
