import Mathlib.Data.List.Infix
import ClaudeSwarm.Gpu.Atomic
import ClaudeSwarm.Hydra.Identity

/-!
# A dispatch and what it uses

Model of `dispatch` (`src/hydra_dispatch.py`): it obtains GPUs from the scheduler and a worktree from
`src/worktree_dispatch.py`, writes its record, starts the session, and then, in the foreground after the session
and in the background at once, gives the GPUs back and merges the worktree.

The store has the GPU database, where the functions of `src/gpu_discovery.py` are atomic (`Gpu/Atomic.lean`), the
worktrees, the records and the sessions. A call starts one process, which is named by the call, and makes one
worktree. Whether git and the warm-model lookup succeed, and when a session ends, comes from outside. Worker
context and model router are parameters; performance ratings, messages, events and costs are left out.
-/

namespace ClaudeSwarm.Hydra.Dispatch

open Interleave Data
open Python (PyError)
open Gpu (ScheduleResult Scheduler)

/-- `WorktreeInfo` on its host, whether its branch has been merged, and the call it was made for. -/
structure Worktree where
  host : String
  path : String
  repoPath : String
  branch : String
  call : Nat
  merged : Bool
  deriving DecidableEq

/-- No two worktrees of a host have the same path. -/
abbrev Worktree.key (t : Worktree) : String × String := (t.host, t.path)

/-- The process a call has started: what its command line gives it, and whether it has ended. -/
structure Session where
  call : Nat
  dispatchId : String
  background : Bool
  gpus : List Gpu.Slot
  worktree : Option (String × String)
  ended : Bool
  deriving DecidableEq

/-- The store. -/
structure State where
  gpu : Gpu.Tables
  worktrees : Table Worktree.key
  records : String → Option String
  sessions : Table Session.call

/-- What a command gets from outside: the clock and the hosts' answers, whether git succeeds, whether a local directory
is there, the host where a model is warm, and the exit code of a session, unless it runs out of time. -/
structure Input where
  gpu : Gpu.Env
  git : Bool
  isDir : Bool
  warm : Option String
  exitCode : Option Int

/-- A command. -/
inductive Cmd where
  | gpu (c : Gpu.Atomic.Cmd)
  | warmHost (model : String)
  | addWorktree (host path repo_path branch : String)
  | isdir (path : String)
  | merge (key : String × String)
  | cleanup (key : String × String)
  | record (dispatch_id status : String)
  | popen (dispatch_id : String) (background : Bool) (gpus : List Gpu.Slot) (worktree : Option (String × String))
  | wait
  | exit (call : Nat)

/-- The answer of each command; that of `wait` is an exit code, or none when the time is out. -/
abbrev Resp : Cmd → Type
  | .gpu c => Gpu.Atomic.Resp c
  | .warmHost _ => Option String
  | .addWorktree .. | .isdir _ | .merge _ => Bool
  | .wait => Option Int
  | .cleanup _ | .record .. | .popen .. | .exit _ => Unit

abbrev sig : Sig := ⟨Cmd, Resp⟩

/-- The session of the call has ended. -/
def State.finish (s : State) (call : Nat) : State :=
  { s with
    sessions := s.sessions.update (fun sess => sess.call == call) (fun sess => { sess with ended := true })
      (fun _ => rfl) }

/-- Execute a command for call `n`. -/
def exec (T : Gpu.Text) (n : Nat) (i : Input) (s : State) : (c : Cmd) → Option (Resp c × State)
  | .gpu c => (Gpu.Atomic.exec T n i.gpu s.gpu c).map fun p => (p.1, { s with gpu := p.2 })
  | .warmHost _ => some (i.warm, s)
  | .addWorktree host path repo_path branch =>
    if i.git ∧ s.worktrees.find? (host, path) = none then
      some (true, { s with worktrees := s.worktrees.put ⟨host, path, repo_path, branch, n, false⟩ })
    else some (false, s)
  | .isdir _ => some (i.isDir, s)
  | .merge key =>
    if i.git then
      some (true, { s with
        worktrees := s.worktrees.update (fun t => t.key == key) (fun t => { t with merged := true }) (fun _ => rfl) })
    else some (false, s)
  | .cleanup key => some ((), if i.git then { s with worktrees := s.worktrees.erase key } else s)
  | .record dispatch_id status =>
    some ((), { s with records := Function.update s.records dispatch_id (some status) })
  | .popen dispatch_id background gpus worktree =>
    some ((), { s with sessions := s.sessions.put ⟨n, dispatch_id, background, gpus, worktree, false⟩ })
  | .wait =>
    match s.sessions.find? n with
    | some sess =>
      match sess.ended, i.exitCode with
      | true, some code => some (some code, s)
      | _, none => some (none, s.finish n)
      | false, some _ => none
    | none => none
  | .exit call => some ((), s.finish call)

/-- The store of all of them. -/
abbrev store (T : Gpu.Text) : Store sig := ⟨State, Input, exec T⟩

abbrev P (α : Type) := Prog sig PyError α

/-- Issue one command. -/
def cmd (c : Cmd) : P (Resp c) := @Prog.cmd sig PyError c

/-- The functions of `gpu_discovery`. -/
def api : Gpu.Api sig where
  time := cmd (.gpu .time)
  probeHost host := cmd (.gpu (.probeHost host))
  saveInventory inventories := cmd (.gpu (.saveInventory inventories))
  getAvailableGpus min exclude := cmd (.gpu (.getAvailableGpus min exclude))
  allocateGpu host gpu_index task_id model_name vram := do
    let id ← cmd (.gpu (.allocateGpu ⟨host, gpu_index⟩ task_id model_name vram))
    return Option.isSome id
  releaseGpu host gpu_index := cmd (.gpu (.releaseGpu ⟨host, gpu_index⟩))

/-! ## The parts of `dispatch` -/

/-- The fleet, `_is_localhost`, the text functions, `SWARM_EXCLUDE_HOSTS`, `_assemble_worker_context` and the
model router. -/
structure Setup where
  fleet : Fleet
  isLocalhost : String → Bool
  text : Gpu.Text
  excludeHosts : List String
  assemble : String → Option String → String
  route : String → String

variable (S : Setup)

/-- `needle in text.lower()`. -/
def Setup.mentions (text needle : String) : Bool := decide (needle.toList <:+: (S.fleet.lower text).toList)

/-- `model_needs_gpu`. -/
def Setup.modelNeedsGpu (model : String) : Bool :=
  ["qwen", "devstral", "deepseek", "llama", "project-a"].any fun kw => S.mentions model kw

/-- The GPUs that are allocated for the dispatch; without any when the scheduler raises. -/
def Setup.allocate (dispatch_id host model task : String) : P (Option ScheduleResult) :=
  if S.modelNeedsGpu model || S.mentions task "gpu" || S.mentions task "inference" then
    ((do
      let warm_host ← cmd (.warmHost model)
      let prefer := (Option.filter (· ≠ "") warm_host).getD host
      let result ← Gpu.schedule api S.text ⟨S.excludeHosts, 300, 0⟩
        ⟨dispatch_id, if S.modelNeedsGpu model then model else "", 0, prefer⟩
      return some result) : P (Option ScheduleResult)).catch_ fun _ => return none
  else return none

/-- `if gpu_allocation and gpu_allocation.success`. -/
def granted (gpu_allocation : Option ScheduleResult) : Option ScheduleResult := gpu_allocation.filter (·.success)

/-- The GPUs of an allocation. -/
def slotsOf (result : ScheduleResult) : List Gpu.Slot := result.gpuIndices.map (Gpu.Slot.mk (result.host.getD ""))

/-- The GPUs that a dispatch has for its process. -/
def gpusOf (gpu_allocation : Option ScheduleResult) : List Gpu.Slot := ((granted gpu_allocation).map slotsOf).getD []

/-- "Route to the host with the allocated GPU". -/
def Setup.rerouted (host : String) (gpu_allocation : Option ScheduleResult) : String :=
  match (granted gpu_allocation).bind ScheduleResult.host with
  | some gpu_host => if gpu_host ∈ S.fleet.dispatchHosts then gpu_host else host
  | none => host

/-- `dispatch_id.replace("/", "-").replace(" ", "-")[:60]`. -/
def safeId (dispatch_id : String) : String :=
  .ofList ((dispatch_id.toList.map fun c => if c = '/' ∨ c = ' ' then '-' else c).take 60)

/-- The worktree of the dispatch, where there is one to work in. -/
def Setup.isolate (dispatch_id host : String) (project_dir : Option String) : P (Option (String × String)) :=
  match project_dir.filter (· ≠ "") with
  | none => return none
  | some repo_path => do
    let path := "/tmp/swarm-worktrees/" ++ safeId dispatch_id
    if ← cmd (.addWorktree host path repo_path ("swarm/" ++ safeId dispatch_id)) then
      if S.isLocalhost host then do
        if ← cmd (.isdir path) then return some (host, path) else return none
      else return some (host, path)
    else return none

/-- The status of a dispatch that has run in the foreground. -/
def waitFor : P String := do
  match ← cmd .wait with
  | some code => return if code = 0 then "completed" else "failed"
  | none => return "failed"

/-- "Release GPU allocation". -/
def releaseGpus (gpu_allocation : Option ScheduleResult) : P Unit :=
  match granted gpu_allocation with
  | some result => (Gpu.releaseEach api (result.host.getD "") result.gpuIndices).catch_ fun _ => return ()
  | none => return ()

/-- "Merge worktree on completion", with `merge_worktree`. -/
def mergeWorktree (worktree_info : Option (String × String)) : P Unit :=
  match worktree_info with
  | some key => do
    if ← cmd (.merge key) then cmd (.cleanup key) else return ()
  | none => return ()

/-- `DispatchResult`, as far as it is read. -/
structure DispatchResult where
  dispatchId : String
  host : String
  task : String
  model : String
  status : String

/-- `dispatch`. -/
def Setup.dispatch (host task : String) (model project_dir : Option String) (background : Bool) :
    P DispatchResult :=
  match resolveHostKey S.fleet host with
  | none => .raise (.valueError ("Unknown host: " ++ host ++ ". Available: " ++ S.text.repr S.fleet.dispatchHosts))
  | some host => do
    let now ← cmd (.gpu .time)
    let dispatch_id := dispatchId ⟨.dispatch, Python.truncate now, host⟩
    let task := S.assemble task project_dir
    let model := model.getD (S.route task)
    let gpu_allocation ← S.allocate dispatch_id host model task
    let host := S.rerouted host gpu_allocation
    let worktree_info ← S.isolate dispatch_id host project_dir
    cmd (.record dispatch_id "running")
    cmd (.popen dispatch_id background (gpusOf gpu_allocation) worktree_info)
    let status ← (if background then return "running" else waitFor : P String)
    releaseGpus gpu_allocation
    mergeWorktree worktree_info
    cmd (.record dispatch_id status)
    return ⟨dispatch_id, host, task, model, status⟩

/-! ## The system -/

/-- A dispatch, a call of the scheduler by somebody else, or the end of a session. -/
inductive Op where
  | dispatch (host task : String) (model project_dir : Option String) (background : Bool)
  | schedule (self : Scheduler) (q : Gpu.Request)
  | exit (call : Nat)

/-- What each operation returns. -/
abbrev Ret : Op → Type
  | .dispatch .. => DispatchResult
  | .schedule .. => ScheduleResult
  | .exit _ => Unit

/-- The program of each operation. -/
def prog : (o : Op) → P (Ret o)
  | .dispatch host task model project_dir background => S.dispatch host task model project_dir background
  | .schedule self q => Gpu.schedule api S.text self q
  | .exit call => cmd (.exit call)

/-- Any number of dispatches on one fleet. -/
abbrev system : System := ⟨sig, store S.text, PyError, Op, Ret, prog S⟩

end ClaudeSwarm.Hydra.Dispatch
