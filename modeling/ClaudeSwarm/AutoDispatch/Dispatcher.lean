import ClaudeSwarm.Interleave.Part
import ClaudeSwarm.SwarmLib.Schema

/-!
# The auto-dispatcher

Model of `process_pending_tasks` and `interrupt_for_priority` of `src/auto_dispatch.py`, with what they call in
that module, over the task tree of `src/swarm_lib.py`. The store adds to the tree the directory `preempted/`,
the clock, the failures and quarantines that the dispatcher keeps for each host, and the history of what it
dispatched. Which host is best, whether the dead-man switch is satisfied and how a dispatch ends comes from
outside; time may pass at every command. The command for a dispatch names the task; the call of the source does not,
and nothing the store does depends on it. The model router is a parameter, `route`; messages are left out.
-/

namespace ClaudeSwarm.AutoDispatch

open Interleave Data
open Python (Time PyError)
open SwarmLib (Tree Doc Dir Stage getStr getStrings)

/-- What has happened: a dispatch returned, or the quarantine of a host was found to be over. -/
inductive Mark where
  | sent (host model : String) (at_ : Time) (failed : Bool)
  | expired (host : String)
  deriving DecidableEq

/-- The tree, the clock, the dispatcher's dictionaries and the history, newest first. -/
structure State where
  now : Time
  tree : Tree
  preempted : Dir
  failures : String → Option Int
  quarantineUntil : String → Option Time
  log : List Mark

/-- `DispatchResult`, as far as it is read. -/
structure DispatchResult where
  dispatch_id : String
  status : String
  deriving DecidableEq

/-- The history after a dispatch, which has returned or raised. -/
def logged (host model : String) (at_ : Time) : Except PyError DispatchResult → List Mark → List Mark
  | .ok result, log => .sent host model at_ (result.status == "failed") :: log
  | .error _, log => log

/-- What a command gets from outside. -/
structure Input where
  now : Time
  tree : SwarmLib.Env
  alive : Bool
  best : Option String
  result : Except PyError DispatchResult

/-- A command: one on the tree, `shutil.move` to `preempted/`, a question to the outside, a dispatch, or a
statement on the dispatcher's dictionaries. -/
inductive Cmd where
  | tree (c : SwarmLib.Cmd)
  | move (id : String)
  | alive
  | bestHost (requires : List String)
  | time
  | dispatch (task_id host task model : String) (project_dir : Option String)
  | getFailures (host : String)
  | setFailures (host : String) (n : Int)
  | getUntil (host : String)
  | setUntil (host : String) (t : Time)
  | expire (host : String)
  | reset (host : String)

/-- The answer of each command. -/
abbrev Resp : Cmd → Type
  | .tree c => SwarmLib.Resp c
  | .move _ | .alive => Bool
  | .bestHost _ => Option String
  | .time => Time
  | .dispatch .. => Except PyError DispatchResult
  | .getFailures _ => Option Int
  | .getUntil _ => Option Time
  | .setFailures _ _ | .setUntil _ _ | .expire _ | .reset _ => Unit

abbrev sig : Sig := ⟨Cmd, Resp⟩

/-- A command, executed at the time that the clock shows. -/
def perform (n : Nat) (i : Input) (s : State) : (c : Cmd) → Option (Resp c × State)
  | .tree c => (SwarmLib.exec n i.tree s.tree c).map fun p => (p.1, { s with tree := p.2 })
  | .move id =>
    match (s.tree.files .claimed).find? id with
    | some file =>
      some (true,
        { s with
          tree := { s.tree with files := SwarmLib.drop s.tree.files .claimed id }
          preempted := s.preempted.put file })
    | none => some (false, s)
  | .alive => some (i.alive, s)
  | .bestHost _ => some (i.best, s)
  | .time => some (s.now, s)
  | .dispatch _ host _ model _ =>
    some (i.result, { s with log := logged host model s.now i.result s.log })
  | .getFailures host => some (s.failures host, s)
  | .setFailures host n => some ((), { s with failures := Function.update s.failures host (some n) })
  | .getUntil host => some (s.quarantineUntil host, s)
  | .setUntil host t =>
    some ((), { s with quarantineUntil := Function.update s.quarantineUntil host (some t) })
  | .expire host =>
    some ((), { s with
      failures := Function.update s.failures host none
      quarantineUntil := Function.update s.quarantineUntil host none
      log := .expired host :: s.log })
  | .reset host =>
    some ((), { s with
      failures := Function.update s.failures host none
      quarantineUntil := Function.update s.quarantineUntil host none })

/-- Time passes, and a command is executed. -/
def exec (n : Nat) (i : Input) (s : State) (c : Cmd) : Option (Resp c × State) :=
  if s.now ≤ i.now then perform n i { s with now := i.now } c else none

abbrev store : Store sig := ⟨State, Input, exec⟩

abbrev P (α : Type) := Prog sig PyError α

/-- Issue one command. -/
def cmd (c : Cmd) : P (Resp c) := @Prog.cmd sig PyError c

/-! ## The tree -/

/-- What the operations of `swarm_lib` leave as it is. -/
structure Beside (s s' : State) : Prop where
  now : s.now ≤ s'.now
  preempted : s'.preempted = s.preempted
  failures : s'.failures = s.failures
  quarantineUntil : s'.quarantineUntil = s.quarantineUntil
  log : s'.log = s.log

/-- The task tree as a part of the store. -/
def onTree : Part SwarmLib.store store where
  cmd := .tree
  resp _ x := x
  get s := s.tree
  Beside := Beside
  refl _ := ⟨le_rfl, rfl, rfl, rfl, rfl⟩
  trans h h' := ⟨h.now.trans h'.now, h'.preempted.trans h.preempted, h'.failures.trans h.failures,
    h'.quarantineUntil.trans h.quarantineUntil, h'.log.trans h.log⟩
  exec {n i s c x s₁} hx := by
    simp only [store, exec] at hx
    split at hx
    · rename_i hnow
      obtain ⟨p, hp, he⟩ := Option.map_eq_some_iff.mp hx
      cases he
      exact ⟨⟨hnow, rfl, rfl, rfl, rfl⟩, i.tree, hp⟩
    · cases hx

/-- `swarm.list_tasks`, of one stage or of those it goes through without one. -/
def listTasks : Option Stage → P (List Doc)
  | some stage => onTree.on (SwarmLib.listStage stage)
  | none => do
    let pending ← onTree.on (SwarmLib.listStage .pending)
    let claimed ← onTree.on (SwarmLib.listStage .claimed)
    let completed ← onTree.on (SwarmLib.listStage .completed)
    let decomposed ← onTree.on (SwarmLib.listStage .decomposed)
    return pending ++ claimed ++ completed ++ decomposed

/-- `task["id"]`. -/
def taskId (task : Doc) : P String :=
  match getStr task "id" with
  | some id => return id
  | none => .raise (.keyError "id")

/-! ## Models -/

/-- `needle in text`. -/
def contains (text needle : List Char) : Bool := decide (needle <:+: text)

/-- `_tier_of`. -/
def tierOf (model : String) : String :=
  let low := Python.lower model.toList
  if contains low "haiku".toList then "haiku"
  else if contains low "sonnet".toList then "sonnet"
  else if contains low "opus".toList then "opus"
  else .ofList low

/-- `MODE_ALLOWED_MODELS`, and nothing for another mode. -/
def modeAllowedModels : String → List String
  | "haiku_only" => ["haiku"]
  | "sonnet" => ["haiku", "sonnet"]
  | "full" => ["haiku", "sonnet", "opus"]
  | _ => []

/-- The configuration, and the model router. -/
structure AutoDispatcher where
  mode : String
  maxConcurrent : Int
  route : String → String

/-- `is_model_allowed`. -/
def AutoDispatcher.isModelAllowed (d : AutoDispatcher) (model : String) : Bool :=
  (modeAllowedModels d.mode).contains (tierOf model)

/-- `_infer_model`. -/
def AutoDispatcher.inferModel (d : AutoDispatcher) (task : Doc) : String :=
  let suggested := (getStr task "suggested_model").getD ""
  if ["haiku", "sonnet", "opus"].contains suggested then suggested
  else d.route ((getStr task "title").getD "" ++ " " ++ (getStr task "description").getD "")

/-! ## Safety rails -/

/-- `_is_host_quarantined`. -/
def isHostQuarantined (host : String) : P Bool := do
  let until_ := (← cmd (.getUntil host)).getD 0
  let now ← cmd .time
  if now < until_ then return true
  else
    match ← cmd (.getUntil host) with
    | some _ =>
      cmd (.expire host)
      return false
    | none => return false

/-- `QUARANTINE_FAILURE_THRESHOLD` and `QUARANTINE_DURATION_SECONDS`. -/
def quarantineFailureThreshold : Int := 3

def quarantineDurationSeconds : Time := 3600

/-- `_record_host_failure`. -/
def recordHostFailure (host : String) : P Unit := do
  let failures := (← cmd (.getFailures host)).getD 0 + 1
  cmd (.setFailures host failures)
  if quarantineFailureThreshold ≤ failures then
    let now ← cmd .time
    cmd (.setUntil host (now + quarantineDurationSeconds))
  else return ()

/-- `_record_host_success`. -/
def recordHostSuccess (host : String) : P Unit := cmd (.reset host)

/-! ## Priorities -/

/-- The tiers of `P0` to `P5`. -/
def priorityOrder : String → Option Int
  | "P0" => some 0
  | "P1" => some 1
  | "P2" => some 2
  | "P3" => some 3
  | "P4" => some 4
  | "P5" => some 5
  | _ => none

/-- `PRIORITY_TIERS` of `src/task_queue.py`. -/
def priorityTiers : String → Option Int
  | "production" => some 0
  | "cicd" => some 1
  | "lead" => some 2
  | "standard" => some 3
  | "batch" => some 4
  | "sandbox" => some 5
  | _ => none

/-- `max(0, min(5, priority))` of what is an `int`, a `bool` too. -/
def clamped : Json → Option Int
  | .int i => some (max 0 (min 5 i))
  | .bool b => some (if b then 1 else 0)
  | _ => none

/-- The key of `rerank_tasks`. -/
def sortKey (task : Doc) : Int × String :=
  let priority := (task.lookup "priority").getD (.str "P5")
  let tier := match clamped priority, priority with
    | some tier, _ => tier
    | none, .str p => (priorityOrder p).getD 5
    | none, _ => 5
  (tier, (getStr task "created_at").getD "")

/-- The order of `rerank_tasks`. -/
def before (a b : Doc) : Prop :=
  (sortKey a).1 < (sortKey b).1 ∨ (sortKey a).1 = (sortKey b).1 ∧ ¬ (sortKey b).2 < (sortKey a).2

instance (a b : Doc) : Decidable (before a b) := inferInstanceAs (Decidable (_ ∨ _ ∧ ¬ _))

/-- `rerank_tasks`. -/
def rerankTasks : P (List Doc) := do
  let pending ← listTasks (some .pending)
  return pending.insertionSort before

/-- `_priority_value`. -/
def priorityValue (priority : Json) : Int :=
  match clamped priority, priority with
  | some value, _ => value
  | none, .str p =>
    let s := Python.strip p.toList
    ((priorityOrder (.ofList s)).or (priorityTiers (.ofList (Python.lower s)))).getD 5
  | none, _ => 5

/-- `_priority_value(task.get("priority", "P5"))`. -/
def valueOf (task : Doc) : Int := priorityValue ((task.lookup "priority").getD (.str "P5"))

/-- `_preempt_task`. -/
def preemptTask (task_id : String) : P Unit := do
  if ← onTree.on (SwarmLib.cmd (.pathExists .claimed task_id)) then
    if ← cmd (.move task_id) then return ()
    else .raise (.fileNotFound ("[Errno 2] No such file or directory: 'claimed/" ++ task_id ++ ".yaml'"))
  else return ()

/-- The loop of `interrupt_for_priority`. -/
def preemptTasks (new_priority_val : Int) : List Doc → P Bool
  | [] => return false
  | task :: rest => do
    if 2 ≤ valueOf task - new_priority_val then
      preemptTask (← taskId task)
      let _ ← preemptTasks new_priority_val rest
      return true
    else preemptTasks new_priority_val rest

/-- `interrupt_for_priority`. -/
def interruptForPriority (task_id : String) : P Bool := do
  let all_tasks ← listTasks none
  match all_tasks.find? fun t => getStr t "id" == some task_id with
  | none => return false
  | some new_task =>
    if 2 < valueOf new_task then return false
    else preemptTasks (valueOf new_task) (← listTasks (some .claimed))

/-! ## Dispatching -/

/-- An entry of the list that `process_pending_tasks` returns. -/
structure Dispatched where
  task_id : String
  host : String
  model : String
  dispatch_id : String
  mode : String

/-- `_build_prompt`. -/
def buildPrompt (task : Doc) : String :=
  "You have a swarm task to complete:\n\n" ++
  "Title: " ++ (getStr task "title").getD "" ++ "\n" ++
  "Description: " ++ (getStr task "description").getD "" ++ "\n" ++
  "Project: " ++ (getStr task "project").getD "" ++ "\n\n" ++
  "Complete this task. When done, report what you did."

/-- The loop in which P0 tasks preempt. -/
def interruptAll : List Doc → P Unit
  | [] => return ()
  | task :: rest => do
    if getStr task "priority" = some "P0" then
      let _ ← interruptForPriority (← taskId task)
      interruptAll rest
    else interruptAll rest

/-- `try: swarm.claim_task(…)`; `false` is the `FileNotFoundError` that the loop passes over. -/
def tryClaim (task_id : String) : P Bool :=
  ((do
    let _ ← onTree.on (SwarmLib.claimTask task_id)
    return true) : P Bool).catch_ fun e => match e with
    | .fileNotFound _ => return false
    | e => .raise e

/-- Dispatching one claimed task. -/
def AutoDispatcher.send (d : AutoDispatcher) (task : Doc) (task_id host model : String) : P Dispatched := do
  match ← cmd (.dispatch task_id host (buildPrompt task) model ((getStr task "project").filter (· ≠ ""))) with
  | .error e => .raise e
  | .ok result =>
    if result.status = "failed" then recordHostFailure host else recordHostSuccess host
    return ⟨task_id, host, model, result.dispatch_id, d.mode⟩

/-- The dispatching loop, with `active_count` tasks claimed. -/
def AutoDispatcher.dispatchTasks (d : AutoDispatcher) : Int → List Doc → P (List Dispatched)
  | _, [] => return []
  | active_count, task :: rest => do
    if d.maxConcurrent ≤ active_count then return []
    else
      let model := d.inferModel task
      if !d.isModelAllowed model then d.dispatchTasks active_count rest
      else
        match (← cmd (.bestHost (getStrings task "requires"))).filter (· ≠ "") with
        | none => d.dispatchTasks active_count rest
        | some host =>
          if ← isHostQuarantined host then d.dispatchTasks active_count rest
          else
            let task_id ← taskId task
            if ← tryClaim task_id then
              let sent ← d.send task task_id host model
              let dispatched ← d.dispatchTasks (active_count + 1) rest
              return sent :: dispatched
            else d.dispatchTasks active_count rest

/-- `process_pending_tasks`. -/
def AutoDispatcher.processPendingTasks (d : AutoDispatcher) : P (List Dispatched) := do
  if d.mode = "off" then return []
  else
    if !(← cmd .alive) then return []
    else
      let pending ← rerankTasks
      interruptAll pending
      let claimed ← listTasks (some .claimed)
      let active_count : Int := claimed.length
      if d.maxConcurrent ≤ active_count then return []
      else d.dispatchTasks active_count pending

end ClaudeSwarm.AutoDispatch
