import ClaudeSwarm.Interleave.System
import ClaudeSwarm.Task
import Mathlib.Data.List.Sort

/-!
# The task queue

Model of the methods of `TaskQueue` (`src/task_queue.py`) that its backends share. A `Backend` is
what they call: `get`, `_save`, `_list_by_state`, the claim of the next task and the clock. The
methods read a task, change it in memory and `_save` it. The backends are `Sqlite.lean`,
`Redis.lean` and `Filesystem.lean`.
-/

namespace ClaudeSwarm.TaskQueue

open Interleave
open Python (Time PyError)

/-- The operations of `TaskQueue` that depend on its backend. -/
structure Backend (S : Sig) where
  get : String → Prog S PyError (Option Task)
  save : Task → Prog S PyError Unit
  listByState : TaskState → Nat → Prog S PyError (List Task)
  claimNext : String → Prog S PyError (Option Task)
  now : Prog S PyError Time

namespace Backend

variable {S : Sig} (B : Backend S)

/-- `_claim_specific`. -/
def claimSpecific (task_id claimer : String) : Prog S PyError (Option Task) := do
  match ← B.get task_id with
  | none => return none
  | some task =>
    if task.state ≠ .pending then return none
    let now ← B.now
    let task := { task with state := .claimed, claimedBy := claimer, claimedAt := now }
    B.save task
    return some task

/-- `claim`, on a backend without a claim of its own. -/
def claim (claimer : String) (task_id : Option String) : Prog S PyError (Option Task) :=
  match task_id.filter (· ≠ "") with
  | some task_id => B.claimSpecific task_id claimer
  | none => B.claimNext claimer

/-- The requirements of `task` are among the capabilities. -/
def matches_ (cap_set : List String) (task : Task) : Bool :=
  task.requires.all fun r => cap_set.contains r

/-- The loop of `claim_matching`. -/
def claimFirst (cap_set : List String) (claimer : String) :
    List Task → Prog S PyError (Option Task)
  | [] => return none
  | task :: tasks =>
    if matches_ cap_set task then do
      match ← B.claimSpecific task.id claimer with
      | some claimed => return some claimed
      | none => claimFirst cap_set claimer tasks
    else claimFirst cap_set claimer tasks

/-- `list_pending`. -/
def listPending : Prog S PyError (List Task) := B.listByState .pending 50

/-- `pending.sort(key=lambda t: t.priority)`. -/
def byPriority (tasks : List Task) : List Task :=
  tasks.insertionSort fun a b => a.priority ≤ b.priority

/-- `claim_matching`. -/
def claimMatching (cap_set : List String) (claimer : String) : Prog S PyError (Option Task) := do
  let pending ← B.listPending
  B.claimFirst cap_set claimer (byPriority pending)

/-- `start`. -/
def start (task_id : String) : Prog S PyError (Option Task) := do
  match ← B.get task_id with
  | none => return none
  | some task =>
    if task.state ≠ .claimed then return none
    let task := { task with state := .running }
    B.save task
    return some task

/-- `complete`. -/
def complete (task_id result : String) : Prog S PyError (Option Task) := do
  match ← B.get task_id with
  | none => return none
  | some task =>
    if task.state ≠ .claimed ∧ task.state ≠ .running then return none
    let now ← B.now
    let task := { task with state := .completed, completedAt := now, result := result }
    B.save task
    return some task

/-- `fail`. -/
def fail (task_id error : String) : Prog S PyError (Option Task) := do
  match ← B.get task_id with
  | none => return none
  | some task =>
    if task.state ≠ .claimed ∧ task.state ≠ .running then return none
    let now ← B.now
    let task := { task with state := .failed, completedAt := now, error := error }
    B.save task
    return some task

/-- `requeue`. -/
def requeue (task_id : String) : Prog S PyError (Option Task) := do
  match ← B.get task_id with
  | none => return none
  | some task =>
    if task.state = .completed then return none
    let task := { task with state := .pending, claimedBy := "", claimedAt := 0, error := "" }
    B.save task
    return some task

end Backend

/-! ## Calls -/

/-- A call of the queue on a task. -/
inductive Op where
  | claim (claimer : String) (task_id : Option String)
  | claimMatching (capabilities : List String) (claimer : String)
  | start (task_id : String)
  | complete (task_id result : String)
  | fail (task_id error : String)
  | requeue (task_id : String)
  deriving DecidableEq

/-- The program of each call. -/
def Op.prog {S : Sig} (B : Backend S) : Op → Prog S PyError (Option Task)
  | claim claimer task_id => B.claim claimer task_id
  | claimMatching capabilities claimer => B.claimMatching capabilities claimer
  | start task_id => B.start task_id
  | complete task_id result => B.complete task_id result
  | fail task_id error => B.fail task_id error
  | requeue task_id => B.requeue task_id

/-- Any number of clients of one queue. -/
abbrev Backend.system {S : Sig} (B : Backend S) (T : Store S) : System :=
  ⟨S, T, PyError, Op, fun _ => Option Task, Op.prog B⟩

end ClaudeSwarm.TaskQueue
