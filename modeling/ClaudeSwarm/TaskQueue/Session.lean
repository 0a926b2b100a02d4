import ClaudeSwarm.TaskQueue.Filesystem
import ClaudeSwarm.TaskQueue.Redis
import ClaudeSwarm.TaskQueue.Sqlite

/-!
# Sessions of one client

The methods of `TaskQueue` (`src/task_queue.py`) that sweep or list, and `create`, on each backend.
An `Api` is `TaskQueue` on one backend; `Session Q s₀ s created` says that one client called its
methods one after the other on a store that was `s₀`, that the store is `s` now, and which tasks
`create` has returned.

Identifiers are drawn by `uuid4`: a session is one in which no draw repeats an earlier one.
-/

namespace ClaudeSwarm.TaskQueue

open Interleave
open Python (Time PyError FloatFmt)

/-! ## Sweeps and listings -/

/-- `task.claimed_at > 0 and (now - task.claimed_at) > ttl`. -/
def Stale (now : Time) (ttl : Int) (task : Task) : Prop :=
  0 < task.claimedAt ∧ (ttl : Time) < now - task.claimedAt

instance (now : Time) (ttl : Int) : DecidablePred (Stale now ttl) := fun task => by
  unfold Stale
  infer_instance

/-- `PREEMPT_SOURCE_MAX`, `PREEMPT_TARGET_MIN` and `PREEMPT_GAP`. -/
def preemptSourceMax : Int := 2

def preemptTargetMin : Int := 4

def preemptGap : Int := 2

/-- The states in the order of `list_all`. -/
def allStates : List TaskState := [.pending, .claimed, .running, .completed, .failed]

namespace Backend

variable {S : Sig} (B : Backend S)

/-- `list_claimed`. -/
def listClaimed : Prog S PyError (List Task) := B.listByState .claimed 50

/-- `find_preemptable`. -/
def findPreemptable (new_priority : Int) : Prog S PyError (List Task) :=
  if preemptSourceMax < new_priority then return []
  else do
    let claimed ← B.listClaimed
    return claimed.filter fun task =>
      decide (preemptTargetMin ≤ task.priority ∧ preemptGap ≤ task.priority - new_priority)

/-- The loop of `requeue_stale`; the answer of `requeue` is not looked at. -/
def requeueEach (now : Time) (ttl : Int) : List Task → Prog S PyError (List String)
  | [] => return []
  | task :: tasks =>
    if Stale now ttl task then do
      let _ ← B.requeue task.id
      let requeued ← requeueEach now ttl tasks
      return task.id :: requeued
    else requeueEach now ttl tasks

/-- `requeue_stale` after it has read the clock. -/
def requeueStaleAt (ttl : Int) (now : Time) : Prog S PyError (List String) := do
  let tasks ← B.listClaimed
  B.requeueEach now ttl tasks

/-- `requeue_stale`. -/
def requeueStale (ttl : Int) : Prog S PyError (List String) := do
  let now ← B.now
  B.requeueStaleAt ttl now

/-- The loop of `list_all`. -/
def listStates (limit : Nat) : List TaskState → Prog S PyError (List Task)
  | [] => return []
  | state :: states => do
    let tasks ← B.listByState state limit
    let more ← listStates limit states
    return tasks ++ more

/-- `list_all`. -/
def listAll (limit : Nat) : Prog S PyError (List Task) := do
  let tasks ← B.listStates limit allStates
  return tasks.take limit

end Backend

/-! ## `create` on the other backends -/

namespace Filesystem

/-- `_fs_create`. -/
def fsCreate (task : Task) : P Unit := cmd (.write .pending (fileName task.id) task.toDict)

/-- `create`, on a host named `nodename`. -/
def create (nodename : String) (title description project : String) (priority : Val)
    (requires : List String) (estimated_minutes : Int) (created_by : String) : P Task := do
  let uuid ← cmd .uuid
  let now ← cmd .now
  let task : Task := {
    id := "task-" ++ uuid, title, description, project
    priority := normalizePriority priority, requires, state := .pending
    createdBy := if created_by = "" then nodename else created_by
    createdAt := now, estimatedMinutes := estimated_minutes }
  fsCreate task
  return task

end Filesystem

namespace Sqlite

/-- `create`. The row is read back after its insertion; no row is `get`'s `None`, of which
`Task.from_dict` makes a task without any field. -/
def create (F : FloatFmt) (title description project : String) (priority : Val)
    (requires : List String) (estimated_minutes : Int) (created_by : String) :
    ClaudeSwarm.Sqlite.P Task := do
  let data ← ClaudeSwarm.Sqlite.create title description project (normalizePriority priority)
    requires estimated_minutes created_by
  match data with
  | some row => fromRow F row
  | none => do
    let uuid ← ClaudeSwarm.Sqlite.cmd .uuid
    Prog.ofExcept (Task.fromDict F uuid fun _ => none)

end Sqlite

/-! ## The interface -/

/-- `TaskQueue` on one backend. -/
structure Api (S : Sig) where
  create : String → String → String → Val → List String → Int → String → Prog S PyError Task
  call : Op → Prog S PyError (Option Task)
  requeueStale : Int → Prog S PyError (List String)
  get : String → Prog S PyError (Option Task)
  listAll : Nat → Prog S PyError (List Task)

/-- On the filesystem, on a host named `nodename`. -/
def Filesystem.api (F : FloatFmt) (nodename : String) : Api Filesystem.sig where
  create := create nodename
  call o := o.prog (backend F)
  requeueStale := (backend F).requeueStale
  get := fsGet F
  listAll := (backend F).listAll

/-- On Redis. -/
def Redis.api (F : FloatFmt) : Api ClaudeSwarm.Redis.sig where
  create := create F
  call o := o.prog (backend F)
  requeueStale := (backend F).requeueStale
  get := redisGet F
  listAll := (backend F).listAll

/-- On SQLite; `requeue_stale` is the backend's own. -/
def Sqlite.api (F : FloatFmt) : Api ClaudeSwarm.Sqlite.sig where
  create := create F
  call := prog F
  requeueStale := ClaudeSwarm.Sqlite.requeueStale
  get := get F
  listAll := (backend F).listAll

/-! ## Sessions -/

/-- One call of `Q`, from `s` to `s'`; `new` is the task it created. -/
inductive Called {S : Sig} (T : Store S) (Q : Api S) (s s' : T.State) : Option Task → Prop
  | create {n : Nat} {title description project : String} {priority : Val}
      {requires : List String} {estimated : Int} {createdBy : String} {task : Task}
      (hr : T.Runs n (Q.create title description project priority requires estimated createdBy) s
        (.ok task) s') : Called T Q s s' (some task)
  | call {n : Nat} {o : Op} {r : Except PyError (Option Task)} (hr : T.Runs n (Q.call o) s r s') :
      Called T Q s s' none
  | requeueStale {n : Nat} {ttl : Int} {r : Except PyError (List String)}
      (hr : T.Runs n (Q.requeueStale ttl) s r s') : Called T Q s s' none

/-- The identifier of `new` was not drawn before. -/
def Fresh (created : List Task) (new : Option Task) : Prop :=
  ∀ task ∈ new, ∀ t ∈ created, t.id ≠ task.id

/-- One client called the methods of `Q` one after the other, from `s₀` to `s`; `created` are the
tasks `create` returned. -/
inductive Session {S : Sig} (T : Store S) (Q : Api S) (s₀ : T.State) : T.State → List Task → Prop
  | start : Session T Q s₀ s₀ []
  | next {s s' : T.State} {created : List Task} {new : Option Task}
      (h : Session T Q s₀ s created) (hc : Called T Q s s' new) (hnew : Fresh created new) :
      Session T Q s₀ s' (created ++ new.toList)

/-- What every call keeps holds after a session. -/
theorem session_induction {S : Sig} {T : Store S} {Q : Api S} {s₀ s : T.State} {created : List Task}
    {P : T.State → List Task → Prop} (h : Session T Q s₀ s created) (h₀ : P s₀ [])
    (hstep : ∀ {s s' created new}, P s created → Called T Q s s' new → Fresh created new →
      P s' (created ++ new.toList)) : P s created := by
  induction h with
  | start => exact h₀
  | next _ hc hnew ih => exact hstep ih hc hnew

end ClaudeSwarm.TaskQueue
