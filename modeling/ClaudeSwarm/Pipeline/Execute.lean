import ClaudeSwarm.Interleave.Parallel
import ClaudeSwarm.Pipeline.Context

/-!
# The pipeline executor

Model of `PipelineExecutor.execute` and `execute_stage` (`src/pipeline.py`) as programs over the outputs that the
threads share. What the fleet answers (the best host, a dispatch, a recall) and which thread goes on is given from
outside. A command about a stage names the stage; the commands of the source do not, and nothing the store does
depends on it.

`executeStage` is one execution; the stages of a batch of several are threads (`Prog.par`), each of at most six
commands. Times, the files of the results and the messages to other services are left out.
-/

namespace ClaudeSwarm.Pipeline

open Data Interleave Python

/-- The status of a stage or of a pipeline. -/
inductive Status where
  | running
  | completed
  | failed
  deriving DecidableEq, Repr

/-- `StageResult`, but for its times. -/
structure StageResult where
  stage_name : String
  status : Status
  host : String := ""
  model : String := ""
  output : String := ""
  error : String := ""
  dispatch_id : String := ""
  deriving DecidableEq

/-- `PipelineResult`, but for its id and times. -/
structure PipelineResult where
  pipeline_name : String
  status : Status
  stage_results : Dict String StageResult := .empty
  error : String := ""

/-- What is used of a `DispatchResult`. -/
structure DispatchResult where
  dispatch_id : String
  status : String
  error : String := ""
  deriving DecidableEq

inductive Cmd where
  /-- `_save_stage_result`. -/
  | saveStage (stage : Stage) (sr : StageResult)
  /-- `_find_best_host(stage.requires)`. -/
  | findBestHost (stage : Stage)
  /-- Read `context.outputs`. -/
  | outputs
  /-- `dispatch`, with the stage's model and timeout; an exception is given by its text. -/
  | dispatch (stage : Stage) (host prompt : String) (project : Option Value)
  /-- `recall(dispatch_id)`. -/
  | recall (stage : Stage) (dispatch_id : String)
  /-- `context.add_output`. -/
  | addOutput (stage_name output : String)
  /-- "Loop iteration …: re-running `target` after `stage` failed". -/
  | info (iteration : Int) (stage target : Stage)
  /-- Which thread goes on. -/
  | next

abbrev Resp : Cmd → Type
  | .saveStage _ _ => Unit
  | .findBestHost _ => Option String
  | .outputs => Outputs
  | .dispatch _ _ _ _ => Except String DispatchResult
  | .recall _ _ => Except String String
  | .addOutput _ _ => Unit
  | .info _ _ _ => Unit
  | .next => Nat

abbrev sig : Sig := ⟨Cmd, Resp⟩

/-- What one command is answered from outside. -/
structure Answer where
  host : Option String := none
  dispatched : Except String DispatchResult := .error ""
  recalled : Except String String := .error ""
  pick : Nat := 0

/-- One command on the shared outputs. -/
def exec (_ : Nat) (i : Answer) (s : Outputs) : (c : Cmd) → Option (Resp c × Outputs)
  | .saveStage _ _ => some ((), s)
  | .findBestHost _ => some (i.host, s)
  | .outputs => some (s, s)
  | .dispatch _ _ _ _ => some (i.dispatched, s)
  | .recall _ _ => some (i.recalled, s)
  | .addOutput stage_name output => some ((), s.set stage_name output)
  | .info _ _ _ => some ((), s)
  | .next => some (i.pick, s)

abbrev store : Store sig := ⟨Outputs, Answer, exec⟩

abbrev P (α : Type) := Prog sig PyError α

/-- Issue one command. -/
def cmd (c : Cmd) : P (Resp c) := @Prog.cmd sig PyError c

/-! ## One stage -/

variable (u : Unicode)

/-- "Resolve host": the stage's own or the best one; no host and the empty name are the same. -/
def resolveHost (stage : Stage) : P String := do
  if stage.host.getD "" = "" then
    let host ← cmd (.findBestHost stage)
    return host.getD ""
  else return stage.host.getD ""

/-- Dispatch and wait for the output: `sr` with the outcome. -/
def dispatchStage (stage : Stage) (host prompt : String) (project : Option Value) (sr : StageResult) :
    P StageResult := do
  match ← cmd (.dispatch stage host prompt project) with
  | .error exc => return { sr with status := .failed, error := exc }
  | .ok result =>
    let sr := { sr with dispatch_id := result.dispatch_id }
    if result.status = "completed" then
      match ← cmd (.recall stage result.dispatch_id) with
      | .ok output => return { sr with status := .completed, output := output }
      | .error exc => return { sr with status := .failed, error := exc }
    else
      return { sr with
        status := .failed
        error := if result.error = "" then "Dispatch status: " ++ result.status else result.error }

/-- `execute_stage`; `context` is the `input_data` of the context. -/
def executeStage (stage : Stage) (context input_data : Input) : P StageResult := do
  let sr : StageResult :=
    { stage_name := stage.name, status := .running, model := stage.model, host := stage.host.getD "" }
  cmd (.saveStage stage sr)
  let host ← resolveHost stage
  if host = "" then
    let sr := { sr with
      status := .failed
      error := "No host satisfies requirements: " ++ reprList u stage.requires }
    cmd (.saveStage stage sr)
    return sr
  else
    let outputs ← cmd .outputs
    let prompt := renderPrompt u context outputs stage.promptTemplate
    let sr ← dispatchStage stage host prompt (input_data.get? "project") { sr with host := host }
    cmd (.saveStage stage sr)
    return sr

/-! ## The generator-verifier loop -/

/-- The stage a stage loops to: the first of that name. -/
def loopTarget (p : Pipeline) (stage : Stage) : Option Stage :=
  match stage.loopTo with
  | some name => if name = "" then none else p.stages.find? fun s => s.name = name
  | none => none

/-- `augmented_input`. -/
def augmentedInput (input_data : Input) (sr : StageResult) (iteration : Int) : Input :=
  let error_context := "\n\nPrevious attempt failed:\n" ++ if sr.error = "" then sr.output else sr.error
  (input_data.set "_loop_error" (.str error_context)).set "_loop_iteration" (.other (toString iteration))

/-- A result under the name of its iteration. -/
def PipelineResult.addIteration (pr : PipelineResult) (sr : StageResult) (iteration : Int) : PipelineResult :=
  { pr with stage_results := pr.stage_results.set (sr.stage_name ++ "_iter" ++ toString iteration) sr }

/-- `while sr.status == "failed" and iteration < stage.max_iterations`; `fuel` is what is left of the iterations. -/
def rerun (stage loop_target : Stage) (input_data : Input) :
    (fuel : Nat) → (iteration : Int) → PipelineResult → StageResult → P (PipelineResult × StageResult)
  | 0, _, pr, sr => return (pr, sr)
  | fuel + 1, iteration, pr, sr => do
    if sr.status = .failed ∧ iteration < stage.maxIterations then
      cmd (.info iteration stage loop_target)
      let augmented_input := augmentedInput input_data sr iteration
      let gen_sr ← executeStage u loop_target input_data augmented_input
      cmd (.addOutput gen_sr.stage_name gen_sr.output)
      let pr := pr.addIteration gen_sr iteration
      let sr ← executeStage u stage input_data augmented_input
      cmd (.addOutput sr.stage_name sr.output)
      let pr := pr.addIteration sr iteration
      rerun stage loop_target input_data fuel (iteration + 1) pr sr
    else return (pr, sr)

/-- A batch of one stage. -/
def runAlone (p : Pipeline) (stage : Stage) (input_data : Input) (pr : PipelineResult) :
    P (PipelineResult × StageResult) := do
  let sr ← executeStage u stage input_data input_data
  cmd (.addOutput sr.stage_name sr.output)
  let pr := { pr with stage_results := pr.stage_results.set sr.stage_name sr }
  match loopTarget p stage with
  | some loop_target =>
    if sr.status = .failed then
      rerun u stage loop_target input_data (stage.maxIterations - 1).toNat 1 pr sr
    else return (pr, sr)
  | none => return (pr, sr)

/-! ## Batches -/

/-- The pipeline failed because of a stage. -/
def PipelineResult.fail (pr : PipelineResult) (sr : StageResult) : PipelineResult :=
  { pr with status := .failed, error := "Stage '" ++ sr.stage_name ++ "' failed: " ++ sr.error }

/-- One result of a batch of several stages. -/
def collect (b : PipelineResult × Bool) (_ : Stage) (sr : StageResult) : P (PipelineResult × Bool) := do
  cmd (.addOutput sr.stage_name sr.output)
  let pr := { b.1 with stage_results := b.1.stage_results.set sr.stage_name sr }
  if sr.status = .failed then return (pr.fail sr, true) else return (pr, b.2)

/-- A batch of several stages: each in a thread, its result collected as it ends. -/
def runTogether (batch : List Stage) (input_data : Input) (pr : PipelineResult) : P (PipelineResult × Bool) :=
  Prog.par (cmd .next) collect (7 * batch.length)
    (batch.map fun stage => (stage, executeStage u stage input_data input_data)) (pr, false)

/-- The batches that are left, in their order. -/
def runBatches (p : Pipeline) (input_data : Input) : List (List Stage) → PipelineResult → P PipelineResult
  | [], pr => return { pr with status := .completed }
  | [stage] :: batches, pr => do
    let (pr, sr) ← runAlone u p stage input_data pr
    if sr.status = .failed then return pr.fail sr
    else runBatches p input_data batches pr
  | batch :: batches, pr => do
    let (pr, failed) ← runTogether u batch input_data pr
    if failed then return pr
    else runBatches p input_data batches pr

/-- `execute`. -/
def execute (p : Pipeline) (input_data : Input) : P PipelineResult := do
  if p.validate ≠ [] then .raise (.valueError ("Pipeline validation failed: " ++ reprList u p.validate))
  else runBatches u p input_data p.topologicalOrder { pipeline_name := p.name, status := .running }

end ClaudeSwarm.Pipeline
