import ClaudeSwarm.Data.Database
import ClaudeSwarm.Gpu.Scheduler

/-!
# The GPU database, statement by statement

Model of the functions of `src/gpu_discovery.py` on the database, one SQL statement at a time, and of
`GpuScheduler.schedule` over them. Python's default isolation opens a transaction before an `INSERT`
or `UPDATE`, not before a `SELECT`. Each function opens a connection of its own, one after the other,
so a connection is named by its call. A write that finds another connection writing waits, or raises
when the busy timeout runs out (`Env.busy`).

`INSERT` answers the number of its row (`lastrowid`), which the source does not read.
-/

namespace ClaudeSwarm.Gpu

open Interleave Data
open Python (Time PyError)

/-- What a command reads from outside: the clock, what probing a host finds, and whether a wait for
the write lock times out. -/
structure Env where
  now : Time
  probed : HostGpuInventory
  busy : Bool

/-- A statement or call of a connection. -/
inductive Cmd where
  | time
  | probe (host : String)
  | saveRow (gpu : GpuInfo)
  | selectAvailable (min_vram_mb : Int)
  | selectActive (slot : Slot)
  | insert (r : Allocations.Request)
  | release (slot : Slot) (released_at : Time)
  | commit
  | close

/-- The answer of each command. -/
abbrev Resp : Cmd → Type
  | .time => Time
  | .probe _ => HostGpuInventory
  | .saveRow _ => Except PyError Unit
  | .selectAvailable _ => List GpuInfo
  | .selectActive _ => Option Nat
  | .insert _ => Except PyError Nat
  | .release _ _ => Except PyError Unit
  | .commit | .close => Unit

abbrev sig : Sig := ⟨Cmd, Resp⟩

/-- The error of a statement that cannot get the write lock. -/
def locked : PyError := .sqlite "database is locked"

/-- Connection `n` changes the tables by `f` and is answered `x`. -/
def change {α : Type} (n : Nat) (i : Env) (s : Database Tables) (x : α) (f : Tables → Tables) :
    Option (Except PyError α × Database Tables) :=
  match s.write n f with
  | some s' => some (.ok x, s')
  | none => if i.busy then some (.error locked, s) else none

/-- Connection `n` executes a command. -/
def exec (n : Nat) (i : Env) (s : Database Tables) : (c : Cmd) → Option (Resp c × Database Tables)
  | .time => some (i.now, s)
  | .probe _ => some (i.probed, s)
  | .saveRow gpu => change n i s () fun t => t.saveRow gpu
  | .selectAvailable min_vram_mb => some ((s.view n).available min_vram_mb, s)
  | .selectActive slot => some (((s.view n).allocations.active slot).head?.map Allocation.id, s)
  | .insert r => change n i s ((s.view n).allocations.sequence + 1) fun t => t.insert r
  | .release slot released_at => change n i s () fun t => t.release slot released_at
  | .commit => some ((), s.commit n)
  | .close => some ((), s.rollback n)

/-- The database as a store. -/
abbrev store : Store sig := ⟨Database Tables, Env, exec⟩

abbrev P (α : Type) := Prog sig PyError α

/-- Issue one command. -/
def cmd (c : Cmd) : P (Resp c) := @Prog.cmd sig PyError c

/-- `finally: conn.close()`. -/
def closing {α : Type} (p : P α) : P α := Prog.finally_ p (cmd .close)

/-- The loop of `save_inventory`. -/
def saveEach : List GpuInfo → P Unit
  | [] => cmd .commit
  | gpu :: gpus => do
    match ← cmd (.saveRow gpu) with
    | .error e => .raise e
    | .ok _ => saveEach gpus

/-- `save_inventory`. -/
def saveInventory (inventories : List HostGpuInventory) : P Unit :=
  closing (saveEach (savedRows inventories))

/-- `get_available_gpus`. -/
def getAvailableGpus (T : Text) (min_vram_mb : Int) (exclude_hosts : List String) :
    P (List GpuInfo) :=
  closing do
    let rows ← cmd (.selectAvailable min_vram_mb)
    return admitted T exclude_hosts rows

/-- `allocate_gpu`. -/
def allocateGpu (host : String) (gpu_index : Int) (task_id model_name : String)
    (vram_required_mb : Int) : P Bool :=
  closing do
    match ← cmd (.selectActive ⟨host, gpu_index⟩) with
    | some _ => return false
    | none =>
      let now ← cmd .time
      match ← cmd (.insert ⟨⟨host, gpu_index⟩, task_id, model_name, vram_required_mb, now⟩) with
      | .error e => .raise e
      | .ok _ => do
        cmd .commit
        return true

/-- `release_gpu`. -/
def releaseGpu (host : String) (gpu_index : Int) : P Unit :=
  closing do
    let now ← cmd .time
    match ← cmd (.release ⟨host, gpu_index⟩ now) with
    | .error e => .raise e
    | .ok _ => cmd .commit

/-- The functions of `gpu_discovery`. -/
def api (T : Text) : Api sig :=
  ⟨cmd .time, fun host => cmd (.probe host), saveInventory, getAvailableGpus T, allocateGpu,
    releaseGpu⟩

/-- A call of a process. -/
inductive Op where
  | allocate (host : String) (gpu_index : Int) (task_id model_name : String)
      (vram_required_mb : Int)
  | release (host : String) (gpu_index : Int)
  | schedule (self : Scheduler) (q : Request)

/-- What each call returns. -/
abbrev Ret : Op → Type
  | .allocate .. => Bool
  | .release .. => Unit
  | .schedule .. => ScheduleResult

/-- The program of each call. -/
def prog (T : Text) : (o : Op) → P (Ret o)
  | .allocate host gpu_index task_id model_name vram =>
    allocateGpu host gpu_index task_id model_name vram
  | .release host gpu_index => releaseGpu host gpu_index
  | .schedule self q => schedule (api T) T self q

/-- Any number of processes on one database file. -/
abbrev system (T : Text) : System := ⟨sig, store, PyError, Op, Ret, prog T⟩

end ClaudeSwarm.Gpu
