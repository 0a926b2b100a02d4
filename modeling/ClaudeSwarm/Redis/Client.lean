import ClaudeSwarm.Redis.Store

/-!
# The Redis client

Model of the task operations of `src/redis_client.py`. Every operation names its keys through
`Store.lean`; times are stored as text (`FloatFmt.str`).
-/

namespace ClaudeSwarm.Redis

open Data
open Python (Time PyError FloatFmt)

variable (F : FloatFmt)

namespace Client

/-- The pipeline of `create_task`; the clock is read for the score and again for `created_at`. -/
def createWrites (task_id : String) (data : Json) (priority : Int) (now created_at : Time) :
    List Write :=
  [.hset task_id [("id", task_id), ("state", "pending"), ("priority", toString priority),
      ("created_at", F.str created_at), ("data", Json.dumps data)],
    .zadd .pending task_id (priority * 1000 + Python.truncate now)]

/-- `create_task`. -/
def createTask (task_id : String) (data : Json) (priority : Int) : P Bool := do
  let now ← cmd .now
  let created_at ← cmd .now
  cmd (.exec (createWrites F task_id data priority now created_at))
  return true

/-- `claim_task`. -/
def claimTask (claimer : String) : P (Option String) := do
  let now ← cmd .now
  cmd (.evalClaim (F.str now) claimer)

/-- The pipeline of `complete_task`; an empty `result_data` counts as none. -/
def completeWrites (task_id : String) (result_data : Option Json) (now completed_at : Time) :
    List Write :=
  [.zrem .claimed task_id,
    .zadd .completed task_id (Python.truncate now),
    .hset task_id ([("state", "completed"), ("completed_at", F.str completed_at)] ++
      (result_data.map fun v => ("result", Json.dumps v)).toList)]

/-- `complete_task`. -/
def completeTask (task_id : String) (result_data : Option Json) : P Bool := do
  let now ← cmd .now
  let completed_at ← cmd .now
  cmd (.exec (completeWrites F task_id result_data now completed_at))
  return true

/-- `get_task`. -/
def getTask (task_id : String) : P (Option Hash) := do
  let data ← cmd (.hgetall task_id)
  return if data.rows = [] then none else some data

/-- `claim_task`, run alone. -/
theorem runs_claimTask {n : Nat} {claimer : String} {r : Except PyError (Option String)}
    {s s' : Keys} (hr : store.Runs n (claimTask F claimer) s r s') :
    ∃ now id, r = .ok id ∧ claimScript now claimer s = (id, s') := by
  obtain ⟨i₁, x₁, s₁, h₁, i₂, x₂, s₂, h₂, rfl, rfl⟩ := hr
  cases h₁
  exact ⟨_, x₂, rfl, Option.some.inj h₂⟩

/-- `get_task`, run alone. -/
theorem runs_getTask {n : Nat} {id : String} {s s' : Keys} {r : Except PyError (Option Hash)}
    (h : store.Runs n (getTask id) s r s') :
    r = .ok (if (s.task id).rows = [] then none else some (s.task id)) ∧ s' = s := by
  obtain ⟨i, x, s₁, hx, h⟩ := h
  cases hx
  exact h

/-- `list_tasks`. -/
def listTasks (state : TaskState) (limit : Int) : P (List Hash) := do
  let task_ids ← cmd (.zrange state (limit - 1))
  if task_ids = [] then return []
  let tasks ← cmd (.hgetalls task_ids)
  return tasks.filter fun t => t.rows ≠ []

end Client

end ClaudeSwarm.Redis
