import ClaudeSwarm.Redis.Client
import ClaudeSwarm.TaskQueue.Queue

/-!
# The task queue on Redis

Model of the Redis backend of `TaskQueue` (`src/task_queue.py`). A task is the hash `task:{id}`, its
fields flattened to text (`hashFields`) and read back by `Task.from_dict` (`dictOf`), and a member
of the sorted set of its state. `_save` writes the hash and then moves the member, one command at a
time.
-/

namespace ClaudeSwarm.TaskQueue.Redis

open Interleave Data ClaudeSwarm.Redis
open Python (PyError FloatFmt)

variable (F : FloatFmt)

/-! ## Tasks as hashes -/

/-- `json.dumps(v) if isinstance(v, (list, dict)) else str(v)`. -/
def text : Val → String
  | .str s => s
  | .int i => toString i
  | .float t => F.str t
  | .list l => Json.dumps (.ofStrings l)

/-- The mapping `_redis_create` and `_redis_save` store. -/
def hashFields (t : Task) : List (String × String) := t.toDict.map fun p => (p.1, text F p.2)

/-- `requires`, parsed; a text that is not JSON stays. What is JSON but neither a string nor a list
of strings no writer stores, and `Task` has no place for it. -/
def parseRequires (s : String) : Val :=
  match Json.loads s with
  | some (.arr l) => (Json.strings l).elim (.int 0) .list
  | some (.str s) => .str s
  | some _ => .int 0
  | none => .str s

/-- The dictionary `_redis_get` builds from a hash. -/
def dictOf (h : Hash) (key : String) : Option Val :=
  if key = "requires" then (h.get key).map parseRequires else (h.get key).map .str

/-- `tasks:{state}` scores. -/
def scoreOf (t : Task) : Int := t.priority * 1000 + Python.truncate t.createdAt

/-! ## The backend -/

/-- `_redis_create`. -/
def redisCreate (task : Task) : P Unit :=
  cmd (.exec [.hset task.id (hashFields F task), .zadd .pending task.id (scoreOf task)])

/-- Rebuild a task from its hash. -/
def fromHash (h : Hash) : P Task := do
  let uuid ← cmd .uuid
  Prog.ofExcept (Task.fromDict F uuid (dictOf h))

/-- Rebuilding a task, run alone. -/
theorem runs_fromHash {F : FloatFmt} {n : Nat} {h : Hash} {s s' : Keys} {r : Except PyError Task}
    (hr : store.Runs n (fromHash F h) s r s') :
    ∃ uuid, r = Task.fromDict F uuid (dictOf h) ∧ s' = s := by
  obtain ⟨i, x, s₁, hx, hr⟩ := hr
  cases hx
  exact ⟨i.uuid, (Store.runs_ofExcept store n _ _ _ _).mp hr⟩

/-- `_redis_get`. -/
def redisGet (task_id : String) : P (Option Task) := do
  match ← Client.getTask task_id with
  | none => return none
  | some data =>
    let task ← fromHash F data
    return some task

/-- `_redis_save`. -/
def redisSave (task : Task) : P Unit := cmd (.exec [.hset task.id (hashFields F task)])

/-- `_redis_claim`. -/
def redisClaim (claimer : String) : P (Option Task) := do
  match ← Client.claimTask F claimer with
  | none => return none
  | some task_id =>
    if task_id = "" then return none
    match ← redisGet F task_id with
    | none => return none
    | some task =>
      let now ← cmd .now
      let task := { task with state := .claimed, claimedBy := claimer, claimedAt := now }
      redisSave F task
      return some task

/-- `_save`. -/
def save (task : Task) : P Unit := do
  redisSave F task
  cmd (.exec [.zrem .pending task.id])
  cmd (.exec [.zrem .claimed task.id])
  cmd (.exec [.zrem .completed task.id])
  if task.state = .pending ∨ task.state = .claimed ∨ task.state = .completed then
    cmd (.exec [.zadd task.state task.id (scoreOf task)])

/-- Rebuild a list of tasks. -/
def fromHashes : List Hash → P (List Task)
  | [] => return []
  | h :: hs => do
    let task ← fromHash F h
    let tasks ← fromHashes hs
    return task :: tasks

/-- `_list_by_state`. -/
def listByState (state : TaskState) (limit : Nat) : P (List Task) := do
  let raw ← Client.listTasks state limit
  fromHashes F raw

/-- What `TaskQueue` runs on. -/
def backend : Backend sig where
  get := redisGet F
  save := save F
  listByState := listByState F
  claimNext := redisClaim F
  now := cmd .now

/-- `create`. -/
def create (title description project : String) (priority : Val) (requires : List String)
    (estimated_minutes : Int) (created_by : String) : P Task := do
  let uuid ← cmd .uuid
  let nodename ← cmd .host
  let now ← cmd .now
  let task : Task := {
    id := "task-" ++ uuid, title, description, project
    priority := normalizePriority priority, requires, state := .pending
    createdBy := if created_by = "" then nodename else created_by
    createdAt := now, estimatedMinutes := estimated_minutes }
  redisCreate F task
  return task

/-- Any number of clients on one server. -/
abbrev system : System := (backend F).system store

end ClaudeSwarm.TaskQueue.Redis
