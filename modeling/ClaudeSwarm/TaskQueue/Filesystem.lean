import ClaudeSwarm.Data.Table
import ClaudeSwarm.TaskQueue.Queue

/-!
# The task queue on the filesystem

Model of the filesystem backend of `TaskQueue` (`src/task_queue.py`): one directory for each state,
one YAML file for each task, whose content is the task's dictionary. Every test, read, write and
removal of a file and every listing of a directory is a command of its own; a directory that does not
exist yet counts as empty.
-/

namespace ClaudeSwarm.TaskQueue.Filesystem

open Interleave Data
open Python (Time PyError FloatFmt)

/-! ## The store -/

/-- A directory: file names and the dictionaries in the files. -/
abbrev Dir := Table (Prod.fst : String × List (String × Val) → String)

/-- The directories below `_tasks_dir`. -/
abbrev Dirs := TaskState → Dir

/-- What a command reads from outside: the clock and a fresh identifier. -/
structure Env where
  now : Time
  uuid : String

/-- A command. -/
inductive Cmd where
  | now
  | uuid
  | pathExists (dir : TaskState) (name : String)
  | read (dir : TaskState) (name : String)
  | remove (dir : TaskState) (name : String)
  | write (dir : TaskState) (name : String) (data : List (String × Val))
  | listdir (dir : TaskState)

/-- The answer of each command; `none` and `false` are `FileNotFoundError`. -/
abbrev Resp : Cmd → Type
  | .now => Time
  | .uuid => String
  | .pathExists _ _ | .remove _ _ => Bool
  | .read _ _ => Option (List (String × Val))
  | .write _ _ _ => Unit
  | .listdir _ => List String

abbrev sig : Sig := ⟨Cmd, Resp⟩

/-- Execute a command. -/
def exec (_ : Nat) (i : Env) (s : Dirs) : (c : Cmd) → Option (Resp c × Dirs)
  | .now => some (i.now, s)
  | .uuid => some (i.uuid, s)
  | .pathExists dir name => some (((s dir).find? name).isSome, s)
  | .read dir name => some (((s dir).find? name).map Prod.snd, s)
  | .remove dir name =>
    some (((s dir).find? name).isSome, Function.update s dir ((s dir).erase name))
  | .write dir name data => some ((), Function.update s dir ((s dir).put (name, data)))
  | .listdir dir => some ((s dir).rows.map Prod.fst, s)

/-- The filesystem as a store. -/
abbrev store : Store sig := ⟨Dirs, Env, exec⟩

abbrev P (α : Type) := Prog sig PyError α

/-- Issue one command. -/
def cmd (c : Cmd) : P (Resp c) := @Prog.cmd sig PyError c

/-! ## The backend -/

variable (F : FloatFmt)

/-- `f"{task_id}.yaml"`. -/
def fileName (task_id : String) : String := task_id ++ ".yaml"

/-- The error of a file that is gone. -/
def notFound {α : Type} (dir : TaskState) (name : String) : P α :=
  .raise (.fileNotFound ("[Errno 2] No such file or directory: '" ++ dir.str ++ "/" ++ name ++ "'"))

/-- Read a file; the task is in the state its directory names. -/
def readTask (dir : TaskState) (name : String) : P Task := do
  match ← cmd (.read dir name) with
  | none => notFound dir name
  | some data =>
    let uuid ← cmd .uuid
    Prog.ofExcept (Task.fromDict F uuid
      fun key => if key = "state" then some (.str dir.str) else data.lookup key)

/-- The directories in the order in which they are searched. -/
def stateDirs : List TaskState := [.pending, .claimed, .completed, .failed, .running]

/-- The loop of `_fs_get`. -/
def getFrom (task_id : String) : List TaskState → P (Option Task)
  | [] => return none
  | dir :: dirs => do
    if ← cmd (.pathExists dir (fileName task_id)) then
      let task ← readTask F dir (fileName task_id)
      return some task
    else getFrom task_id dirs

/-- `_fs_get`. -/
def fsGet (task_id : String) : P (Option Task) := getFrom F task_id stateDirs

/-- The loop of `_fs_list`. -/
def readAll (dir : TaskState) : List String → P (List Task)
  | [] => return []
  | name :: names =>
    if name.endsWith ".yaml" then do
      let task ← readTask F dir name
      let tasks ← readAll dir names
      return task :: tasks
    else readAll dir names

/-- `_fs_list`. -/
def fsList (state : TaskState) (limit : Nat) : P (List Task) := do
  let names ← cmd (.listdir state)
  readAll F state ((names.insertionSort (· ≤ ·)).take limit)

/-- The loop of `_fs_save`: remove the task's file from the directories of other states. -/
def removeOld (task : Task) : List TaskState → P Unit
  | [] => return ()
  | dir :: dirs => do
    if (← cmd (.pathExists dir (fileName task.id))) ∧ dir ≠ task.state then
      if ← cmd (.remove dir (fileName task.id)) then removeOld task dirs
      else notFound dir (fileName task.id)
    else removeOld task dirs

/-- `_fs_save`. -/
def fsSave (task : Task) : P Unit := do
  removeOld task stateDirs
  cmd (.write task.state (fileName task.id) task.toDict)

/-- What `TaskQueue` runs on, but for its claim of the next task. -/
def files : Backend sig where
  get := fsGet F
  save := fsSave
  listByState := fsList F
  claimNext _ := return none
  now := cmd .now

/-- `_fs_claim`. -/
def fsClaim (claimer : String) : P (Option Task) := do
  let pending ← fsList F .pending 50
  match Backend.byPriority pending with
  | [] => return none
  | task :: _ => (files F).claimSpecific task.id claimer

/-- What `TaskQueue` runs on. -/
def backend : Backend sig := { files F with claimNext := fsClaim F }

/-- Any number of clients of one tree. -/
abbrev system : System := (backend F).system store

end ClaudeSwarm.TaskQueue.Filesystem
