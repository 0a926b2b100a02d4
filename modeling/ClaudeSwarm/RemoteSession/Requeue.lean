import ClaudeSwarm.RemoteSession.Mention
import ClaudeSwarm.SwarmLib.Retries

/-!
# Dispatches that fail

Model of `execute_plan` and `check_dispatch_status` of `src/remote_session.py`, on the directory of dispatches and the
task directories. What the SSH command that is run gives is part of the call, and what `psutil` says of a process is
part of the check; the command's text, the times and `max_turns`, which is only in that text, are left out.

A `World` keeps, beside the files, what was dispatched: the task each dispatch was made for, and how its process ended.
Calls happen one after the other, and others change the task files and the outputs in between.

* `searchTask`, in `Mention`: which task `execute_plan` takes the dispatch to be for.
* `noted_after`: the files of a dispatch. No plan that is written has a `task_id`, so a check requeues nothing.
* **`right_iff`**: a call does what it should exactly if the first task that a failed prompt mentions is its own or cannot
  be requeued, and no process that a check finds gone has ended with 0.
* `parent_requeued`: a call that does not.
-/

namespace ClaudeSwarm.RemoteSession

open SwarmLib

/-! ## The code -/

/-- `ExecutionStrategy`. -/
inductive ExecutionStrategy where
  | localRun
  | remoteDispatch
  | remoteSession
  | collaborative
  deriving DecidableEq

/-- `strategy.value`. -/
def ExecutionStrategy.value : ExecutionStrategy → String
  | localRun => "local"
  | remoteDispatch => "remote_dispatch"
  | remoteSession => "remote_session"
  | collaborative => "collaborative"

/-- `ExecutionPlan`; of the complexity, its value. -/
structure ExecutionPlan where
  strategy : ExecutionStrategy
  host : String
  model : String
  reasoning : String
  complexity : String
  estimated_minutes : Int
  project_dir : String
  prompt : String

/-- `SessionResult`. -/
structure SessionResult where
  dispatch_id : String
  host : String
  strategy : String
  model : String
  status : String
  exit_code : Int
  output : String
  output_file : String
  error : String
  pid : Nat
  deriving DecidableEq

/-- The keys of `FLEET`. -/
def fleet : List String := ["node_primary", "node_gpu"]

/-- How the command that is run ends. -/
inductive Outcome where
  | returned (returncode : Int) (stdout stderr : String)
  | timeoutExpired
  deriving DecidableEq

/-- `background`, and what `subprocess` gives: `none` is an exception. -/
inductive Launch where
  | background (pid : Option Nat)
  | foreground (outcome : Option Outcome)

/-- An exception that leaves `execute_plan`. -/
inductive Raised where
  | subprocess
  | indexError
  deriving DecidableEq

/-- The task directories, and the files of `DISPATCH_DIR` by their dispatch. -/
structure Disk where
  files : Files
  plans : String → Option Doc
  pids : String → Option String
  outputs : String → Option String

/-- The name of a dispatch. -/
def dispatchId (now : Int) (plan : ExecutionPlan) : String := "session-" ++ toString now ++ "-" ++ plan.host

/-- The output file of a dispatch. -/
def outputFile (dispatch_id : String) : String := "/opt/swarm/artifacts/dispatches/" ++ dispatch_id ++ ".output"

/-- The first `n` characters. -/
def clip (n : Nat) (s : String) : String := .ofList (s.toList.take n)

/-- The plan file. -/
def planRecord (dispatch_id : String) (plan : ExecutionPlan) (cost : String) : Doc :=
  [("dispatch_id", .str dispatch_id), ("strategy", .str plan.strategy.value), ("host", .str plan.host),
    ("model", .str plan.model), ("complexity", .str plan.complexity), ("reasoning", .str plan.reasoning),
    ("project_dir", .str plan.project_dir), ("estimated_minutes", .int plan.estimated_minutes),
    ("prompt", .str (clip 500 plan.prompt)), ("estimated_cost_usd", .float cost)]

/-- The task id in the plan file of a dispatch. -/
def plannedTask (d : Disk) (dispatch_id : String) : Option String :=
  (d.plans dispatch_id).bind fun plan_data => getStr plan_data "task_id"

/-- A prompt of white space only: it has no last word. -/
def isBlank (prompt : String) : Bool := !prompt.toList.isEmpty && prompt.toList.all Python.isSpace

variable (estimateCost : String → Nat → String)

/-- The plan file and the result after the command was run in the foreground. `estimateCost` is the text of
`_estimate_cost`. -/
def afterRun (plan : ExecutionPlan) (d : Disk) (result : SessionResult) : Outcome → Disk × SessionResult
  | .returned returncode stdout stderr =>
    ({ d with
        plans := Function.update d.plans result.dispatch_id
          (some (planRecord result.dispatch_id plan (estimateCost plan.model stdout.length))) },
      { result with
        exit_code := returncode
        status := if returncode = 0 then "completed" else "failed"
        output := stdout
        error := if returncode ≠ 0 then clip 500 stderr else "" })
  | .timeoutExpired =>
    (d, { result with
      status := "timeout"
      error := "Timeout after " ++ toString (plan.estimated_minutes * 2) ++ " minutes" })

/-- The requeue at the end of `execute_plan`. -/
def requeueMentioned (plan : ExecutionPlan) (d : Disk) (result : SessionResult) : Disk × Except Raised SessionResult :=
  if result.status ∈ ["failed", "timeout"] then
    if isBlank plan.prompt then (d, .error .indexError)
    else
      match searchTask plan.prompt.toList with
      | none => (d, .ok result)
      | some task_id =>
        let (files, requeued) := autoRequeueTask d.files (plannedTask d result.dispatch_id) (.ofList task_id)
        ({ d with files },
          .ok (if requeued then { result with error := result.error ++ " [auto-requeued]" } else result))
  else (d, .ok result)

/-- `execute_plan`. -/
def executePlan (now : Int) (plan : ExecutionPlan) (launch : Launch) (d : Disk) :
    Disk × Except Raised SessionResult :=
  let dispatch_id := dispatchId now plan
  let result : SessionResult :=
    ⟨dispatch_id, plan.host, plan.strategy.value, plan.model, "pending", -1, "", outputFile dispatch_id, "", 0⟩
  if plan.strategy = .localRun then (d, .ok { result with status := "local" })
  else if plan.host ∉ fleet then
    (d, .ok { result with status := "failed", error := "Unknown host: " ++ plan.host })
  else
    let d := { d with plans := Function.update d.plans dispatch_id (some (planRecord dispatch_id plan "0.0")) }
    match launch with
    | .background pid =>
      let d := { d with outputs := Function.update d.outputs dispatch_id (some "") }
      match pid with
      | none => (d, .error .subprocess)
      | some pid =>
        ({ d with pids := Function.update d.pids dispatch_id (some (toString pid)) },
          .ok { result with status := "running", pid })
    | .foreground none => (d, .error .subprocess)
    | .foreground (some outcome) =>
      let (d, result) := afterRun estimateCost plan d result outcome
      requeueMentioned plan d result

/-- What `psutil` says of a process. -/
inductive Answer where
  | running
  | ended
  | noSuchProcess
  | accessDenied
  deriving DecidableEq

/-- `check_dispatch_status`. -/
def checkDispatchStatus (dispatch_id : String) (psutil : Int → Answer) (d : Disk) : Disk × Option SessionResult :=
  match d.pids dispatch_id with
  | none => (d, none)
  | some text =>
    match Python.int text with
    | none => (d, none)
    | some pid =>
      if psutil pid = .running then (d, none)
      else
        let result : SessionResult :=
          ⟨dispatch_id, "", "", "", "failed", 1, (d.outputs dispatch_id).getD "", outputFile dispatch_id,
            "Process terminated unexpectedly", 0⟩
        match d.plans dispatch_id with
        | none => (d, some result)
        | some plan_data =>
          let task_id := (getStr plan_data "task_id").getD ""
          ({ d with files := (autoRequeueTask d.files (plannedTask d dispatch_id) task_id).1 }, some result)

/-! ## Dispatches -/

/-- A dispatch: the task it was made for, its process if it has one in the background, and how that ended. -/
structure Dispatch where
  dispatch_id : String
  owner : Option String
  pid : Option Nat
  ended : Option Int

/-- The files, and the dispatches, the latest first. -/
structure World where
  disk : Disk
  dispatches : List Dispatch

/-- What happens. -/
inductive Event where
  /-- `execute_plan`, called for the task `owner`. -/
  | execute (owner : Option String) (now : Int) (plan : ExecutionPlan) (launch : Launch)
  | check (dispatch_id : String) (psutil : Int → Answer)
  /-- The process of the dispatch at place `i` ends. -/
  | ends (i : Nat) (returncode : Int)
  | others (files : Files) (outputs : String → Option String)

/-- The plan is for another host, and that is known. -/
def Remote (plan : ExecutionPlan) : Prop := plan.strategy ≠ .localRun ∧ plan.host ∈ fleet

instance : DecidablePred Remote := fun _ => inferInstanceAs (Decidable (_ ∧ _))

/-- The process that `execute_plan` leaves in the background. -/
def launched (plan : ExecutionPlan) : Launch → Option Nat
  | .background pid => if Remote plan then pid else none
  | .foreground _ => none

/-- A process ends once. -/
def Dispatch.finish (returncode : Int) (m : Dispatch) : Dispatch :=
  if m.ended = none then { m with ended := some returncode } else m

/-- One event. -/
def World.step (w : World) : Event → World
  | .execute owner now plan launch =>
    ⟨(executePlan estimateCost now plan launch w.disk).1,
      ⟨dispatchId now plan, owner, launched plan launch, none⟩ :: w.dispatches⟩
  | .check dispatch_id psutil => { w with disk := (checkDispatchStatus dispatch_id psutil w.disk).1 }
  | .ends i returncode => { w with dispatches := w.dispatches.modify i (Dispatch.finish returncode) }
  | .others files outputs => { w with disk := { w.disk with files, outputs } }

/-- After a history, the last event first; nothing was dispatched before. -/
def after (files : Files) (outputs : String → Option String) : List Event → World
  | [] => ⟨⟨files, fun _ => none, fun _ => none, outputs⟩, []⟩
  | event :: older => (after files outputs older).step estimateCost event

/-- The dispatch whose process is in the `.pid` file: the last of that name that has one. -/
def World.latest (w : World) (dispatch_id : String) : Option Dispatch :=
  w.dispatches.find? fun m => m.dispatch_id = dispatch_id ∧ m.pid.isSome

/-! ## What a call should do -/

/-- Only the files of the tasks in `owners` may differ. -/
def OnlyOf (owners : Option String → Prop) (fs fs' : Files) : Prop :=
  ∀ st id, ¬ owners (some id) → content fs' st id = content fs st id

/-- A call requeues at most the task its dispatch was made for, and a check reports a failure only for a background
dispatch whose process did not finish successfully. -/
def Right (w : World) : Event → Prop
  | .execute owner now plan launch =>
    OnlyOf (· = owner) w.disk.files (executePlan estimateCost now plan launch w.disk).1.files
  | .check dispatch_id psutil =>
    OnlyOf (fun owner => ∃ m ∈ w.dispatches, m.dispatch_id = dispatch_id ∧ m.owner = owner) w.disk.files
        (checkDispatchStatus dispatch_id psutil w.disk).1.files ∧
      ∀ result, (checkDispatchStatus dispatch_id psutil w.disk).2 = some result → result.status = "failed" →
        ∃ m, w.latest dispatch_id = some m ∧ m.ended ≠ some 0
  | _ => True

/-- The task is claimed, and has retries left. -/
def Requeueable (fs : Files) (id : String) : Prop :=
  ∃ task retries, content fs .claimed id = some task ∧ retryCount task = some retries ∧ retries < 3

/-- The command fails, or takes too long. -/
def Outcome.Fails : Outcome → Prop
  | .returned returncode _ _ => returncode ≠ 0
  | .timeoutExpired => True

/-- The first task that the prompt of a failed foreground dispatch mentions is its own, if it can be requeued; and a
process that a check does not find has not ended with 0. -/
def Spared (w : World) : Event → Prop
  | .execute owner _ plan launch => ∀ outcome, launch = .foreground (some outcome) → outcome.Fails → Remote plan →
      ∀ id, Mentions plan.prompt.toList id → Requeueable w.disk.files (.ofList id) → owner = some (.ofList id)
  | .check dispatch_id psutil => ∀ m pid, w.latest dispatch_id = some m → m.pid = some pid →
      psutil pid ≠ .running → m.ended ≠ some 0
  | _ => True

variable {estimateCost} {d : Disk} {plan : ExecutionPlan} {result : SessionResult}

/-! ## The requeue -/

/-- `_auto_requeue_task` of a task that can be requeued. -/
theorem autoRequeueTask_of_requeueable {fs : Files} {planned : Option String} {id : String} (hid : id ≠ "")
    (h : Requeueable fs id) : content (autoRequeueTask fs planned id).1 .claimed id = none := by
  obtain ⟨task, retries, hcontent, hretries, hlt⟩ := h
  unfold autoRequeueTask
  simp only [if_neg hid, hcontent, hretries, if_neg (not_le.mpr hlt)]
  rw [content_drop, if_pos ⟨rfl, rfl⟩]

/-- It touches no other. -/
theorem autoRequeueTask_other {fs : Files} {planned : Option String} {id id' : String} (hid : id ≠ "") (st : Stage)
    (hne : id' ≠ id) : content (autoRequeueTask fs planned id).1 st id' = content fs st id' := by
  unfold autoRequeueTask
  simp only [if_neg hid]
  split
  · rfl
  split
  · rfl
  split
  · rfl
  · rw [content_drop, if_neg fun h => hne h.2, content_put, if_neg fun h => hne h.2]

/-- And none that cannot be requeued. -/
theorem autoRequeueTask_of_not {fs : Files} {planned : Option String} {id : String} (hid : id ≠ "")
    (h : ¬ Requeueable fs id) : (autoRequeueTask fs planned id).1 = fs := by
  unfold autoRequeueTask
  simp only [if_neg hid]
  split
  · rfl
  rename_i task htask
  split
  · rfl
  rename_i retries hretries
  split
  · rfl
  · rename_i hlt
    exact absurd ⟨task, retries, htask, hretries, not_le.mp hlt⟩ h

theorem ofList_ne_empty {id : List Char} (h : IsTaskId id) : String.ofList id ≠ "" := by
  obtain ⟨ds, -, -, rfl⟩ := h
  intro he
  have hlist := congrArg String.toList he
  rw [String.toList_ofList] at hlist
  cases hlist

theorem Mentions.isTaskId {text id : List Char} (h : Mentions text id) : IsTaskId id := by
  obtain ⟨_, _, _, hstart, -⟩ := h
  exact hstart.1

/-- A blank prompt mentions nothing. -/
theorem Mentions.not_blank {prompt : String} {id : List Char} (h : Mentions prompt.toList id) :
    isBlank prompt = false := by
  obtain ⟨before, rest, hsplit, ⟨⟨ds, -, -, rfl⟩, tail, rfl, -⟩, -⟩ := h
  have hmem : 't' ∈ prompt.toList := by
    rw [hsplit]
    exact List.mem_append_right _ List.mem_cons_self
  rw [isBlank, Bool.and_eq_false_iff]
  refine .inr (Bool.eq_false_iff.mpr fun hall => ?_)
  exact absurd (List.all_eq_true.mp hall _ hmem) (by decide)

/-- The requeue at the end of `execute_plan`, on the task directories. -/
theorem files_requeueMentioned : (requeueMentioned plan d result).1.files =
    if result.status ∈ ["failed", "timeout"] then
      (searchTask plan.prompt.toList).elim d.files fun id =>
        (autoRequeueTask d.files (plannedTask d result.dispatch_id) (.ofList id)).1
    else d.files := by
  unfold requeueMentioned
  by_cases hstatus : result.status ∈ ["failed", "timeout"]
  · rw [if_pos hstatus, if_pos hstatus]
    cases hsearch : searchTask plan.prompt.toList with
    | none =>
      split <;> rfl
    | some id =>
      rw [(searchTask_eq_some_iff.mp hsearch).not_blank]
      rfl
  · rw [if_neg hstatus, if_neg hstatus]

/-! ## What the calls leave -/

instance : DecidablePred Outcome.Fails
  | .returned returncode _ _ => inferInstanceAs (Decidable (returncode ≠ 0))
  | .timeoutExpired => .isTrue trivial

/-- The task that `execute_plan` asks to requeue. -/
def asked (plan : ExecutionPlan) : Launch → Option (List Char)
  | .foreground (some outcome) =>
    if Remote plan ∧ outcome.Fails then searchTask plan.prompt.toList else none
  | _ => none

theorem asked_eq_some_iff {launch : Launch} {id : List Char} : asked plan launch = some id ↔
    ∃ outcome, launch = .foreground (some outcome) ∧ outcome.Fails ∧ Remote plan ∧
      Mentions plan.prompt.toList id := by
  rw [← searchTask_eq_some_iff]
  rcases launch with _ | _ | outcome
  · simp [asked]
  · simp [asked]
  · simp [asked]
    tauto

variable {now : Int} {launch : Launch}

/-- A plan that is not executed. -/
theorem executePlan_of_not_remote (h : ¬ Remote plan) : (executePlan estimateCost now plan launch d).1 = d := by
  unfold executePlan
  by_cases hstrategy : plan.strategy = .localRun
  · simp only [if_pos hstrategy]
  · have hhost : plan.host ∉ fleet := fun hhost => h ⟨hstrategy, hhost⟩
    simp only [if_neg hstrategy, if_pos hhost]

/-- A command that is run in the background. -/
theorem executePlan_background (h : Remote plan) (pid : Option Nat) :
    (executePlan estimateCost now plan (.background pid) d).1.files = d.files ∧
      (executePlan estimateCost now plan (.background pid) d).1.pids =
        pid.elim d.pids fun pid => Function.update d.pids (dispatchId now plan) (some (toString pid)) := by
  unfold executePlan
  simp only [if_neg h.1, if_neg (not_not.mpr h.2)]
  cases pid <;> exact ⟨rfl, rfl⟩

/-- The end of a command that is run in the foreground. -/
theorem afterRun_spec (outcome : Outcome) :
    (afterRun estimateCost plan d result outcome).1.files = d.files ∧
      (afterRun estimateCost plan d result outcome).1.pids = d.pids ∧
      ((afterRun estimateCost plan d result outcome).2.status ∈ ["failed", "timeout"] ↔ outcome.Fails) := by
  cases outcome with
  | returned returncode stdout stderr => by_cases h : returncode = 0 <;> simp [afterRun, Outcome.Fails, h]
  | timeoutExpired => simp [afterRun, Outcome.Fails]

theorem requeueMentioned_rest : (requeueMentioned plan d result).1.pids = d.pids ∧
    (requeueMentioned plan d result).1.plans = d.plans := by
  unfold requeueMentioned
  split
  · split
    · exact ⟨rfl, rfl⟩
    · split <;> exact ⟨rfl, rfl⟩
  · exact ⟨rfl, rfl⟩

theorem executePlan_foreground (h : Remote plan) (outcome : Option Outcome) :
    (∃ planned, (executePlan estimateCost now plan (.foreground outcome) d).1.files =
      (asked plan (.foreground outcome)).elim d.files fun id => (autoRequeueTask d.files planned (.ofList id)).1) ∧
      (executePlan estimateCost now plan (.foreground outcome) d).1.pids = d.pids := by
  unfold executePlan asked
  simp only [if_neg h.1, if_neg (not_not.mpr h.2)]
  cases outcome with
  | none => exact ⟨⟨none, rfl⟩, rfl⟩
  | some outcome =>
    simp only [requeueMentioned_rest, files_requeueMentioned, afterRun_spec, h, true_and, and_true]
    by_cases hfails : outcome.Fails
    · simp only [if_pos hfails]
      exact ⟨_, rfl⟩
    · simp only [if_neg hfails]
      exact ⟨none, rfl⟩

/-- The task directories after `execute_plan`. -/
theorem files_executePlan : ∃ planned, (executePlan estimateCost now plan launch d).1.files =
    (asked plan launch).elim d.files fun id => (autoRequeueTask d.files planned (.ofList id)).1 := by
  by_cases hremote : Remote plan
  · cases launch with
    | background pid => exact ⟨none, (executePlan_background hremote pid).1⟩
    | foreground outcome => exact (executePlan_foreground hremote outcome).1
  · have hasked : asked plan launch = none := by
      rw [Option.eq_none_iff_forall_ne_some]
      intro id h
      obtain ⟨-, -, -, hremote', -⟩ := asked_eq_some_iff.mp h
      exact hremote hremote'
    rw [executePlan_of_not_remote hremote, hasked]
    exact ⟨none, rfl⟩

/-- The `.pid` files after `execute_plan`. -/
theorem pids_executePlan : (executePlan estimateCost now plan launch d).1.pids =
    (launched plan launch).elim d.pids fun pid =>
      Function.update d.pids (dispatchId now plan) (some (toString pid)) := by
  unfold launched
  by_cases hremote : Remote plan
  · cases launch with
    | background pid =>
      rw [(executePlan_background hremote pid).2]
      simp only [if_pos hremote]
    | foreground outcome => exact (executePlan_foreground hremote outcome).2
  · rw [executePlan_of_not_remote hremote]
    cases launch with
    | background pid =>
      simp only [if_neg hremote]
      rfl
    | foreground outcome => rfl

/-- The plan files are as before, or as `execute_plan` writes them. -/
def Plans (d d' : Disk) : Prop :=
  ∀ dispatch_id plan_data, d'.plans dispatch_id = some plan_data →
    d.plans dispatch_id = some plan_data ∨ ∃ name plan cost, plan_data = planRecord name plan cost

theorem plans_update {d d' : Disk} {name : String} {cost : String} {key : String}
    (h : d'.plans = Function.update d.plans key (some (planRecord name plan cost))) : Plans d d' := by
  intro dispatch_id plan_data hplan
  rw [h, Function.update_apply] at hplan
  split at hplan
  · exact .inr ⟨_, _, _, (Option.some.inj hplan).symm⟩
  · exact .inl hplan

theorem Plans.trans {d d' d'' : Disk} (h : Plans d d') (h' : Plans d' d'') : Plans d d'' := by
  intro dispatch_id plan_data hplan
  rcases h' dispatch_id plan_data hplan with hplan | hnew
  · exact h dispatch_id plan_data hplan
  · exact .inr hnew

theorem plans_afterRun (outcome : Outcome) :
    Plans d (afterRun estimateCost plan d result outcome).1 := by
  cases outcome with
  | returned returncode stdout stderr => exact plans_update rfl
  | timeoutExpired => exact fun _ _ => .inl

theorem plans_executePlan : Plans d (executePlan estimateCost now plan launch d).1 := by
  by_cases hremote : Remote plan
  · unfold executePlan
    simp only [if_neg hremote.1, if_neg (not_not.mpr hremote.2)]
    rcases launch with pid | outcome
    · cases pid <;> exact plans_update rfl
    · rcases outcome with _ | outcome
      · exact plans_update rfl
      · intro dispatch_id plan_data hplan
        rw [requeueMentioned_rest.2] at hplan
        exact (plans_update rfl).trans (plans_afterRun outcome) dispatch_id plan_data hplan
  · rw [executePlan_of_not_remote hremote]
    exact fun _ _ => .inl

/-! ## Histories -/

variable {w : World} {files : Files} {outputs : String → Option String} {history : List Event} {event : Event}

/-- What the files of the dispatches say: no plan names a task, and the `.pid` file of a name holds the process of the
latest dispatch of that name. -/
structure Noted (w : World) : Prop where
  plans : ∀ dispatch_id plan_data, w.disk.plans dispatch_id = some plan_data → getStr plan_data "task_id" = none
  pids : ∀ dispatch_id, w.disk.pids dispatch_id =
    ((w.latest dispatch_id).bind Dispatch.pid).map fun pid : Nat => toString pid

theorem getStr_planRecord (name cost : String) : getStr (planRecord name plan cost) "task_id" = none := by
  simp [getStr, planRecord, List.lookup_cons]

theorem latest_cons {m : Dispatch} {ms : List Dispatch} {disk : Disk} {dispatch_id : String} :
    (World.mk disk (m :: ms)).latest dispatch_id =
      if m.dispatch_id = dispatch_id ∧ m.pid.isSome then some m else (World.mk disk ms).latest dispatch_id := by
  unfold World.latest
  rw [List.find?_cons]
  by_cases h : m.dispatch_id = dispatch_id ∧ m.pid.isSome <;> simp [h]

/-- The process of the latest dispatch is the same after another has ended. -/
theorem pid_latest_finish {disk : Disk} {dispatch_id : String} {returncode : Int} :
    ∀ {ms : List Dispatch} {i : Nat},
      ((World.mk disk (ms.modify i (Dispatch.finish returncode))).latest dispatch_id).bind Dispatch.pid =
        ((World.mk disk ms).latest dispatch_id).bind Dispatch.pid
  | [], i => by rw [List.modify_nil]
  | m :: ms, 0 => by
    rw [List.modify_zero_cons, latest_cons, latest_cons]
    have hsame : (m.finish returncode).dispatch_id = m.dispatch_id ∧ (m.finish returncode).pid = m.pid := by
      unfold Dispatch.finish
      split <;> exact ⟨rfl, rfl⟩
    rw [hsame.1, hsame.2]
    split
    · exact hsame.2
    · rfl
  | m :: ms, i + 1 => by
    rw [List.modify_succ_cons, latest_cons, latest_cons]
    split
    · rfl
    · exact pid_latest_finish

/-- A check of a dispatch leaves all files, and reports a failure if its process is not found. -/
theorem checkDispatchStatus_of_noted (h : Noted w) (dispatch_id : String) (psutil : Int → Answer) :
    (checkDispatchStatus dispatch_id psutil w.disk).1 = w.disk ∧
      ((∃ result, (checkDispatchStatus dispatch_id psutil w.disk).2 = some result ∧ result.status = "failed") ↔
        ∃ m pid, w.latest dispatch_id = some m ∧ m.pid = some pid ∧ psutil pid ≠ .running) := by
  unfold checkDispatchStatus
  rw [h.pids dispatch_id]
  cases hlatest : w.latest dispatch_id with
  | none => simp
  | some m =>
    cases hpid : m.pid with
    | none => simp [hpid]
    | some pid =>
      have hint : Python.int (toString pid) = some (pid : Int) := Python.int_str pid
      simp only [Option.bind_some, hpid, Option.map_some, hint]
      by_cases hrunning : psutil pid = .running
      · simp [hrunning, hpid]
      · simp only [if_neg hrunning]
        refine ⟨?_, fun _ => ⟨m, pid, rfl, hpid, hrunning⟩, fun _ => ?_⟩
        · cases hplan : w.disk.plans dispatch_id with
          | none => rfl
          | some plan_data =>
            have hnone := h.plans dispatch_id plan_data hplan
            simp [autoRequeueTask, plannedTask, hplan, hnone]
        · cases w.disk.plans dispatch_id <;> exact ⟨_, rfl, rfl⟩

/-- One event. -/
theorem Noted.step (h : Noted w) (event : Event) : Noted (w.step estimateCost event) := by
  cases event with
  | execute owner now plan launch =>
    refine ⟨fun dispatch_id plan_data hplan => ?_, fun dispatch_id => ?_⟩
    · rcases plans_executePlan dispatch_id plan_data hplan with hplan | ⟨name, plan, cost, rfl⟩
      · exact h.plans dispatch_id plan_data hplan
      · exact getStr_planRecord name cost
    · rw [World.step, latest_cons]
      dsimp only
      rw [pids_executePlan]
      cases hlaunched : launched plan launch with
      | none =>
        rw [if_neg fun h => absurd h.2 (by decide)]
        exact h.pids dispatch_id
      | some pid =>
        rw [Option.elim_some, Function.update_apply]
        by_cases hid : dispatch_id = dispatchId now plan
        · simp [hid]
        · rw [if_neg hid, if_neg fun h => hid h.1.symm]
          exact h.pids dispatch_id
  | check dispatch_id psutil =>
    rw [World.step, (checkDispatchStatus_of_noted h dispatch_id psutil).1]
    exact h
  | ends i returncode =>
    refine ⟨h.plans, fun dispatch_id => ?_⟩
    rw [World.step, pid_latest_finish]
    exact h.pids dispatch_id
  | others files outputs => exact ⟨h.plans, h.pids⟩

/-- The whole history. -/
theorem noted_after : Noted (after estimateCost files outputs history) := by
  induction history with
  | nil =>
    refine ⟨fun dispatch_id plan_data hplan => ?_, fun dispatch_id => rfl⟩
    cases hplan
  | cons event older ih => exact ih.step event

/-! ## When a call is right -/

theorem right_execute_iff {owner : Option String} :
    Right estimateCost w (.execute owner now plan launch) ↔ Spared w (.execute owner now plan launch) := by
  obtain ⟨planned, hfiles⟩ := @files_executePlan estimateCost w.disk plan now launch
  simp only [Right, Spared, OnlyOf]
  rw [hfiles]
  constructor
  · intro h outcome hlaunch hfails hremote id hmentions hrequeueable
    have hasked : asked plan launch = some id :=
      asked_eq_some_iff.mpr ⟨outcome, hlaunch, hfails, hremote, hmentions⟩
    by_contra hother
    have hsame := h .claimed (.ofList id) fun h => hother h.symm
    rw [hasked, Option.elim_some,
      autoRequeueTask_of_requeueable (ofList_ne_empty hmentions.isTaskId) hrequeueable] at hsame
    obtain ⟨task, -, hcontent, -⟩ := hrequeueable
    rw [hcontent] at hsame
    cases hsame
  · intro h st id hother
    cases hasked : asked plan launch with
    | none => rfl
    | some found =>
      obtain ⟨outcome, hlaunch, hfails, hremote, hmentions⟩ := asked_eq_some_iff.mp hasked
      have hne := ofList_ne_empty hmentions.isTaskId
      rw [Option.elim_some]
      by_cases hrequeueable : Requeueable w.disk.files (.ofList found)
      · have howner := h outcome hlaunch hfails hremote found hmentions hrequeueable
        exact autoRequeueTask_other hne st fun hid => hother (by rw [howner, hid])
      · rw [autoRequeueTask_of_not hne hrequeueable]

theorem right_check_iff (hnoted : Noted w) {dispatch_id : String} {psutil : Int → Answer} :
    Right estimateCost w (.check dispatch_id psutil) ↔ Spared w (.check dispatch_id psutil) := by
  obtain ⟨hdisk, hfailed⟩ := checkDispatchStatus_of_noted hnoted dispatch_id psutil
  unfold Right Spared
  constructor
  · rintro ⟨-, h⟩ m pid hlatest hpid hnot
    obtain ⟨result, hresult, hstatus⟩ := hfailed.mpr ⟨m, pid, hlatest, hpid, hnot⟩
    obtain ⟨m', hlatest', hended⟩ := h result hresult hstatus
    rw [hlatest] at hlatest'
    cases hlatest'
    exact hended
  · intro h
    refine ⟨fun st id _ => by rw [hdisk], fun result hresult hstatus => ?_⟩
    obtain ⟨m, pid, hlatest, hpid, hnot⟩ := hfailed.mp ⟨result, hresult, hstatus⟩
    exact ⟨m, hlatest, h m pid hlatest hpid hnot⟩

/-- Whatever has happened, a call does what it should exactly if it is `Spared`. -/
theorem right_iff (estimateCost : String → Nat → String) (files : Files) (outputs : String → Option String)
    (history : List Event) (event : Event) :
    Right estimateCost (after estimateCost files outputs history) event ↔
      Spared (after estimateCost files outputs history) event := by
  cases event with
  | execute owner now plan launch => exact right_execute_iff
  | check dispatch_id psutil => exact right_check_iff noted_after
  | ends i returncode => exact Iff.rfl
  | others files outputs => exact Iff.rfl

/-- A plan for a subtask. -/
def subtaskPlan : ExecutionPlan :=
  ⟨.remoteDispatch, "node_gpu", "haiku", "One-shot", "simple", 15, "", "Please finish task-001-a"⟩

/-- Its parent is claimed. -/
def parentClaimed : Files := put (fun _ => .empty) .claimed "task-001" [("id", .str "task-001")]

/-- The dispatch for the subtask fails, and its parent is requeued. -/
theorem parent_requeued :
    ¬ Right (fun _ _ => "0.0") (after (fun _ _ => "0.0") parentClaimed (fun _ => none) [])
      (.execute (some "task-001-a") 0 subtaskPlan (.foreground (some (.returned 255 "" "")))) := by
  rw [right_execute_iff]
  intro h
  have hmentions : Mentions subtaskPlan.prompt.toList "task-001".toList :=
    searchTask_eq_some_iff.mp (by decide +kernel)
  have hclaimed : content parentClaimed .claimed "task-001" = some [("id", .str "task-001")] := by
    rw [parentClaimed, content_put, if_pos ⟨rfl, rfl⟩]
  have howner := h _ rfl (by decide) (by decide) _ hmentions ⟨_, 0, hclaimed, rfl, by decide⟩
  exact absurd howner (by decide)

end ClaudeSwarm.RemoteSession
