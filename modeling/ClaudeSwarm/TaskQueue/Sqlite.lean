import ClaudeSwarm.Sqlite.Backend
import ClaudeSwarm.TaskQueue.Queue

/-!
# The task queue on SQLite

Model of `TaskQueue` (`src/task_queue.py`) opened on the SQLite backend. `claim` is the backend's
own; the other methods change a task in memory and `_save` it, which here means to call the backend
method that leads to the task's state. A claimed task has no such method.
-/

namespace ClaudeSwarm.TaskQueue.Sqlite

open Interleave ClaudeSwarm.Sqlite
open Python (FloatFmt)

variable (F : FloatFmt)

/-! ## Rows as tasks -/

/-- `Task.from_dict` of a row. -/
def fromRow (r : Row) : P Task := do
  let uuid ← cmd .uuid
  Prog.ofExcept (Task.fromDict F uuid ((rowToDict r).lookup ·))

/-- The task of a row, if there is one. -/
def fromRow? : Option Row → P (Option Task)
  | none => return none
  | some r => do
    let task ← fromRow F r
    return some task

/-- The tasks of a list of rows. -/
def fromRows : List Row → P (List Task)
  | [] => return []
  | r :: rs => do
    let task ← fromRow F r
    let tasks ← fromRows rs
    return task :: tasks

/-! ## The backend -/

/-- `get`. -/
def get (task_id : String) : P (Option Task) := do
  let data ← ClaudeSwarm.Sqlite.get task_id
  fromRow? F data

/-- `_save`: the answer of the backend method is dropped. -/
def save (task : Task) : P Unit := do
  match task.state with
  | .completed => do
    let _ ← ClaudeSwarm.Sqlite.complete task.id task.result
    return ()
  | .failed => do
    let _ ← ClaudeSwarm.Sqlite.fail task.id task.error
    return ()
  | .pending => do
    let _ ← ClaudeSwarm.Sqlite.requeue task.id
    return ()
  | .running => do
    let _ ← ClaudeSwarm.Sqlite.start task.id
    return ()
  | _ => return ()

/-- `_list_by_state`. -/
def listByState (state : TaskState) (limit : Nat) : P (List Task) := do
  let rows ← ClaudeSwarm.Sqlite.listByState state limit
  fromRows F rows

/-- `claim`. -/
def claim (claimer : String) (task_id : Option String) : P (Option Task) := do
  let data ← ClaudeSwarm.Sqlite.claim claimer task_id
  fromRow? F data

/-- What `TaskQueue` runs on. -/
def backend : Backend sig where
  get := get F
  save := save
  listByState := listByState F
  claimNext claimer := claim F claimer none
  now := cmd .now

/-- The program of each call. -/
def prog : Op → P (Option Task)
  | .claim claimer task_id => claim F claimer task_id
  | o => o.prog (backend F)

end ClaudeSwarm.TaskQueue.Sqlite
