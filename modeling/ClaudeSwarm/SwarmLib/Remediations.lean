import ClaudeSwarm.SwarmLib.Tasks

/-!
# Requeuing a task by hand

Model of `requeue_task` of `src/remediations.py`, on the same tree as the operations of
`src/swarm_lib.py`. It writes the pending file first and then removes the claimed one, under no lock.
Killing the hung process runs over SSH and touches no file; only the number it is given is read here.
`str` is the text of an exception.
-/

namespace ClaudeSwarm.SwarmLib

open Python (PyError)

/-- `task.get("_retries", 0)`, compared with the maximum. -/
def retriesOf (task : Doc) : P Int :=
  match task.lookup "_retries" with
  | none => return 0
  | some (.int n) => return n
  | some _ => .raise (.typeError "'>=' not supported between instances")

/-- `if claimed_by and claimed_pid: … int(claimed_pid) …`. -/
def killPid (task : Doc) : P Unit :=
  if (getStr task "claimed_by").getD "" = "" then return ()
  else
    match task.lookup "pid" with
    | some (.str s) =>
      if s = "" ∨ (Python.int s).isSome then return ()
      else .raise (.valueError ("invalid literal for int() with base 10: '" ++ s ++ "'"))
    | _ => return ()

/-- The `try` block of `requeue_task`. -/
def tryRequeue (task_id : String) : P (Bool × String) := do
  if !(← cmd (.pathExists .claimed task_id)) then
    return (false, "Task " ++ task_id ++ " not found in claimed/")
  else do
    let task ← readYaml .claimed task_id
    let retries ← retriesOf task
    if 3 ≤ retries then
      return (false, "Task " ++ task_id ++
        " exceeded max retries (3). Manual intervention needed.")
    else do
      killPid task
      let task := popKey (popKey (setKeys task [("_retries", .int (retries + 1))]) "claimed_by")
        "claimed_at"
      atomicWriteYaml .pending task_id task
      let _ ← cmd (.remove .claimed task_id)
      return (true, "Task " ++ task_id ++ " requeued to pending (retry " ++
        toString (retries + 1) ++ "/3)")

/-- `requeue_task`. -/
def requeueTask (str : PyError → String) (task_id : String) : P (Bool × String) :=
  if task_id = "" then return (false, "No task_id provided")
  else (tryRequeue task_id).catch_ fun exc => .ret (false, "requeue_task failed: " ++ str exc)

end ClaudeSwarm.SwarmLib
