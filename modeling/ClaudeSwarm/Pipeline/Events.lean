import ClaudeSwarm.Pipeline.Execute

/-!
# What happens in a pipeline

The events of a run of `execute`: a stage begins, a stage ends, a stage is looped. `Run` says, of the batches of a
pipeline and without the code, which events may happen and how the pipeline may end: a stage alone in its batch
loops until it passes or its iterations are spent (`Reruns`), the stages of a larger batch run once each, in any
interleaving.

* **`run_of_goes`**: every run of `execute` is one of these.
* `Executed`: what one `execute_stage` does.
-/

namespace ClaudeSwarm.Pipeline

open Interleave Interleave.Prog Python

/-- An event of a run. -/
inductive Event where
  /-- An execution of the stage begins. -/
  | began (stage : Stage)
  /-- An execution of the stage ends, completed or not. -/
  | ended (stage : Stage) (ok : Bool)
  /-- The loop of the stage begins an iteration. -/
  | looped (stage target : Stage)
  deriving DecidableEq

/-- The stage an event is of. -/
def Event.stage : Event → Stage
  | .began stage => stage
  | .ended stage _ => stage
  | .looped stage _ => stage

/-- The event that a command is. -/
def event : Entry sig → Option Event
  | ⟨.saveStage stage sr, _⟩ =>
    some (if sr.status = .running then .began stage else .ended stage (decide (sr.status = .completed)))
  | ⟨.info _ stage target, _⟩ => some (.looped stage target)
  | _ => none

/-- The events of a trace. -/
def events (l : List (Entry sig)) : List Event := l.filterMap event

/-! ## The events of a pipeline -/

/-- Iterations of the loop of `stage`, of which `n` are left. -/
inductive Reruns (stage target : Stage) : (n : Nat) → List Event → (ok : Bool) → Prop
  | spent : Reruns stage target 0 [] false
  | passed {n : Nat} (a : Bool) : Reruns stage target (n + 1)
    [.looped stage target, .began target, .ended target a, .began stage, .ended stage true] true
  | again {n : Nat} {es : List Event} {ok : Bool} (a : Bool) (h : Reruns stage target n es ok) :
    Reruns stage target (n + 1)
      ([.looped stage target, .began target, .ended target a, .began stage, .ended stage false] ++ es) ok

/-- A stage alone in its batch. -/
inductive AloneRun (p : Pipeline) (stage : Stage) : List Event → (ok : Bool) → Prop
  | passed : AloneRun p stage [.began stage, .ended stage true] true
  | failed (h : loopTarget p stage = none) : AloneRun p stage [.began stage, .ended stage false] false
  | looped {target : Stage} {es : List Event} {ok : Bool} (h : loopTarget p stage = some target)
    (hes : Reruns stage target (stage.maxIterations - 1).toNat es ok) :
    AloneRun p stage ([.began stage, .ended stage false] ++ es) ok

/-- The stages of a batch in threads. -/
structure TogetherRun (batch : List Stage) (es : List Event) (ok : Bool) : Prop where
  once : ∀ stage ∈ batch, ∃ b, part Event.stage stage es = [.began stage, .ended stage b] ∧ (ok = true → b = true)
  only : ∀ e ∈ es, e.stage ∈ batch
  failed : ok = false → ∃ stage ∈ batch, .ended stage false ∈ es

/-- A batch. -/
def BatchRun (p : Pipeline) : List Stage → List Event → Bool → Prop
  | [stage], es, ok => AloneRun p stage es ok
  | batch, es, ok => TogetherRun batch es ok

/-- The batches of a pipeline, until one fails. -/
inductive Run (p : Pipeline) : List (List Stage) → List Event → (ok : Bool) → Prop
  | done : Run p [] [] true
  | stopped {batch : List Stage} {batches : List (List Stage)} {es : List Event} (h : BatchRun p batch es false) :
    Run p (batch :: batches) es false
  | next {batch : List Stage} {batches : List (List Stage)} {es es' : List Event} {ok : Bool}
    (h : BatchRun p batch es true) (hnext : Run p batches es' ok) : Run p (batch :: batches) (es ++ es') ok

/-! ## One execution -/

/-- What `dispatchStage` does. -/
inductive Dispatched (stage : Stage) (host prompt : String) (project : Option Value) (sr : StageResult) :
    List (Entry sig) → StageResult → Prop
  | raised (exc : String) : Dispatched stage host prompt project sr
    [⟨.dispatch stage host prompt project, .error exc⟩] { sr with status := .failed, error := exc }
  | unfinished (result : DispatchResult) (h : result.status ≠ "completed") : Dispatched stage host prompt project sr
    [⟨.dispatch stage host prompt project, .ok result⟩]
    { sr with
      dispatch_id := result.dispatch_id
      status := .failed
      error := if result.error = "" then "Dispatch status: " ++ result.status else result.error }
  | recalled (result : DispatchResult) (h : result.status = "completed") (output : String) :
    Dispatched stage host prompt project sr
    [⟨.dispatch stage host prompt project, .ok result⟩, ⟨.recall stage result.dispatch_id, .ok output⟩]
    { sr with dispatch_id := result.dispatch_id, status := .completed, output := output }
  | unread (result : DispatchResult) (h : result.status = "completed") (exc : String) :
    Dispatched stage host prompt project sr
    [⟨.dispatch stage host prompt project, .ok result⟩, ⟨.recall stage result.dispatch_id, .error exc⟩]
    { sr with dispatch_id := result.dispatch_id, status := .failed, error := exc }

/-- What `execute_stage` does: `lh` resolves the host. -/
inductive Executed (u : Unicode) (stage : Stage) (context input_data : Input) : List (Entry sig) → StageResult → Prop
  | noHost {lh : List (Entry sig)} (hlh : ∀ e ∈ lh, e.1 = .findBestHost stage) (sr sr' : StageResult)
    (h : sr.status = .running) (h' : sr'.status = .failed ∧ sr'.stage_name = stage.name ∧ sr'.output = "") :
    Executed u stage context input_data (⟨.saveStage stage sr, ()⟩ :: lh ++ [⟨.saveStage stage sr', ()⟩]) sr'
  | ran {lh ld : List (Entry sig)} (hlh : ∀ e ∈ lh, e.1 = .findBestHost stage) {host : String} {outputs : Outputs}
    (sr : StageResult) {sr' : StageResult}
    (h : sr.status = .running ∧ sr.stage_name = stage.name ∧ sr.output = "")
    (hld : Dispatched stage host (renderPrompt u context outputs stage.promptTemplate) (input_data.get? "project")
      { sr with host := host } ld sr') :
    Executed u stage context input_data
      (⟨.saveStage stage sr, ()⟩ :: lh ++ ⟨.outputs, outputs⟩ :: ld ++ [⟨.saveStage stage sr', ()⟩]) sr'

variable {u : Unicode} {stage target : Stage} {context input_data : Input} {l : List (Entry sig)}

theorem goes_dispatchStage {host prompt : String} {project : Option Value} {sr : StageResult}
    {r : Except PyError StageResult} (h : (dispatchStage stage host prompt project sr).Goes l r) :
    ∃ sr', r = .ok sr' ∧ Dispatched stage host prompt project sr l sr' := by
  obtain ⟨x, l₁, rfl, h₁⟩ := goes_cmd.mp h
  cases x with
  | error exc =>
    obtain ⟨rfl, rfl⟩ := h₁
    exact ⟨_, rfl, .raised exc⟩
  | ok result =>
    dsimp only at h₁
    split at h₁
    · rename_i hstatus
      obtain ⟨x, l₂, rfl, h₂⟩ := goes_cmd.mp h₁
      cases x with
      | ok output =>
        obtain ⟨rfl, rfl⟩ := h₂
        exact ⟨_, rfl, .recalled result hstatus output⟩
      | error exc =>
        obtain ⟨rfl, rfl⟩ := h₂
        exact ⟨_, rfl, .unread result hstatus exc⟩
    · rename_i hstatus
      obtain ⟨rfl, rfl⟩ := h₁
      exact ⟨_, rfl, .unfinished result hstatus⟩

theorem goes_resolveHost {r : Except PyError String} (h : (resolveHost stage).Goes l r) :
    ∃ host, r = .ok host ∧ ∀ e ∈ l, e.1 = .findBestHost stage := by
  unfold resolveHost at h
  split at h
  · obtain ⟨x, l₁, rfl, rfl, rfl⟩ := goes_cmd.mp h
    exact ⟨_, rfl, by simp⟩
  · obtain ⟨rfl, rfl⟩ := h
    exact ⟨_, rfl, by simp⟩

/-- **One execution.** -/
theorem goes_executeStage {r : Except PyError StageResult} (h : (executeStage u stage context input_data).Goes l r) :
    ∃ sr, r = .ok sr ∧ Executed u stage context input_data l sr := by
  unfold executeStage at h
  obtain ⟨-, l₁, rfl, h₁⟩ := goes_cmd.mp h
  obtain ⟨host, lh, l₂, rfl, hh, h₂⟩ | ⟨e, he, -⟩ := goes_bind.mp h₁
  · obtain ⟨_, -, hlh⟩ := goes_resolveHost hh
    split at h₂
    · obtain ⟨-, l₃, rfl, rfl, rfl⟩ := goes_cmd.mp h₂
      exact ⟨_, rfl, .noHost hlh _ _ rfl ⟨rfl, rfl, rfl⟩⟩
    · obtain ⟨outputs, l₃, rfl, h₃⟩ := goes_cmd.mp h₂
      obtain ⟨sr', ld, l₄, rfl, hd, h₄⟩ | ⟨e, he, -⟩ := goes_bind.mp h₃
      · obtain ⟨sr'', hsr, hld⟩ := goes_dispatchStage hd
        cases hsr
        obtain ⟨-, l₅, rfl, rfl, rfl⟩ := goes_cmd.mp h₄
        refine ⟨_, rfl, ?_⟩
        have hran := @Executed.ran u _ context input_data _ _ hlh _ _ _ _ ⟨rfl, rfl, rfl⟩ hld
        simpa using hran
      · obtain ⟨sr', hsr, -⟩ := goes_dispatchStage he
        cases hsr
  · obtain ⟨host, hhost, -⟩ := goes_resolveHost he
    cases hhost

/-- The stage completed. -/
def StageResult.ok (sr : StageResult) : Bool := decide (sr.status = .completed)

variable {sr : StageResult} {p : Pipeline} {pr : PipelineResult}

theorem StageResult.failed_iff (h : sr.status ≠ .running) : sr.status = .failed ↔ sr.ok = false := by
  unfold StageResult.ok
  cases hs : sr.status with
  | running => exact absurd hs h
  | completed => simp
  | failed => simp

@[simp] theorem events_append {l' : List (Entry sig)} : events (l ++ l') = events l ++ events l' :=
  List.filterMap_append

theorem events_hosts (h : ∀ e ∈ l, e.1 = .findBestHost stage) : events l = [] := by
  refine List.filterMap_eq_nil_iff.mpr fun e he => ?_
  obtain ⟨c, x⟩ := e
  obtain rfl : c = .findBestHost stage := h _ he
  rfl

theorem events_began (h : sr.status = .running) :
    events (⟨.saveStage stage sr, ()⟩ :: l) = .began stage :: events l := by
  simp [events, event, h]

theorem events_ended (h : sr.status ≠ .running) : events [⟨.saveStage stage sr, ()⟩] = [.ended stage sr.ok] := by
  simp [events, event, h, StageResult.ok]

@[simp] theorem events_output {name output : String} : events (⟨.addOutput name output, ()⟩ :: l) = events l := rfl

theorem Dispatched.spec {host prompt : String} {project : Option Value} {sr' : StageResult}
    (h : Dispatched stage host prompt project sr l sr') :
    events l = [] ∧ sr'.status ≠ .running ∧ sr'.stage_name = sr.stage_name ∧
      (sr'.status = .failed → sr'.output = sr.output) := by
  cases h <;> exact ⟨rfl, by simp, rfl, by simp⟩

theorem Executed.spec (h : Executed u stage context input_data l sr) :
    events l = [.began stage, .ended stage sr.ok] ∧ sr.status ≠ .running ∧ sr.stage_name = stage.name ∧
      (sr.status = .failed → sr.output = "") := by
  cases h with
  | noHost hlh sr₀ _ h h' =>
    have hend : sr.status ≠ .running := by simp [h'.1]
    rw [List.cons_append, events_began h, events_append, events_hosts hlh, events_ended hend]
    exact ⟨rfl, hend, h'.2.1, fun _ => h'.2.2⟩
  | @ran lh ld hlh host outputs sr₀ _ h hld =>
    obtain ⟨hev, hend, hname, hout⟩ := hld.spec
    have hsplit : ∀ x, ⟨.saveStage stage sr₀, ()⟩ :: lh ++ ⟨.outputs, outputs⟩ :: ld ++ [x] =
        ⟨.saveStage stage sr₀, ()⟩ :: (lh ++ ([⟨.outputs, outputs⟩] ++ ld ++ [x])) := by simp
    rw [hsplit, events_began h.1, events_append, events_hosts hlh, events_append, events_append, hev, events_ended hend]
    exact ⟨rfl, hend, hname.trans h.2.1, fun hs => (hout hs).trans h.2.2⟩

/-! ## The batches -/

theorem goes_rerun : ∀ {fuel : Nat} {iteration : Int} {pr : PipelineResult} {sr : StageResult}
    {l : List (Entry sig)} {r : Except PyError (PipelineResult × StageResult)}, sr.status = .failed →
    fuel = (stage.maxIterations - iteration).toNat →
    (rerun u stage target input_data fuel iteration pr sr).Goes l r →
    ∃ pr' sr', r = .ok (pr', sr') ∧ sr'.status ≠ .running ∧ Reruns stage target fuel (events l) sr'.ok
  | 0, iteration, pr, sr, l, r, hsr, _, h => by
    obtain ⟨rfl, rfl⟩ := h
    refine ⟨pr, sr, rfl, by simp [hsr], ?_⟩
    have hok : sr.ok = false := by simp [StageResult.ok, hsr]
    rw [hok]
    exact .spent
  | fuel + 1, iteration, pr, sr, l, r, hsr, hfuel, h => by
    rw [rerun, if_pos ⟨hsr, by omega⟩] at h
    obtain ⟨-, l₁, rfl, h₁⟩ := goes_cmd.mp h
    obtain ⟨gen_sr, lg, l₂, rfl, hg, h₂⟩ | ⟨e, he, -⟩ := goes_bind.mp h₁
    · obtain ⟨gen_sr', hgen, hexec⟩ := goes_executeStage hg
      cases hgen
      obtain ⟨-, l₃, rfl, h₃⟩ := goes_cmd.mp h₂
      obtain ⟨sr', lv, l₄, rfl, hv, h₄⟩ | ⟨e, he, -⟩ := goes_bind.mp h₃
      · obtain ⟨sr'', hsr'', hexec'⟩ := goes_executeStage hv
        cases hsr''
        obtain ⟨-, l₅, rfl, h₅⟩ := goes_cmd.mp h₄
        obtain ⟨hevg, -⟩ := hexec.spec
        obtain ⟨hevv, hend, -⟩ := hexec'.spec
        have hevents : events (⟨.info iteration stage target, ()⟩ ::
            (lg ++ ⟨.addOutput gen_sr.stage_name gen_sr.output, ()⟩ ::
              (lv ++ ⟨.addOutput sr'.stage_name sr'.output, ()⟩ :: l₅))) =
            [.looped stage target, .began target, .ended target gen_sr.ok, .began stage, .ended stage sr'.ok] ++
              events l₅ := by
          have hlooped : ∀ l, events (⟨.info iteration stage target, ()⟩ :: l) = .looped stage target :: events l :=
            fun _ => rfl
          rw [hlooped, events_append, hevg, events_output, events_append, hevv, events_output]
          rfl
        by_cases hstatus : sr'.status = .failed
        · obtain ⟨pr', sr₁, rfl, hend', hre⟩ := goes_rerun hstatus (by omega) h₅
          refine ⟨pr', sr₁, rfl, hend', ?_⟩
          rw [hevents, (sr'.failed_iff hend).mp hstatus]
          exact .again _ hre
        · have hstop : l₅ = [] ∧ ∃ pr', r = .ok (pr', sr') := by
            cases fuel with
            | zero =>
              obtain ⟨rfl, rfl⟩ := h₅
              exact ⟨rfl, _, rfl⟩
            | succ fuel =>
              rw [rerun, if_neg fun hc => hstatus hc.1] at h₅
              obtain ⟨rfl, rfl⟩ := h₅
              exact ⟨rfl, _, rfl⟩
          obtain ⟨rfl, pr', rfl⟩ := hstop
          have hok : sr'.ok = true := by simpa using mt (sr'.failed_iff hend).mpr hstatus
          refine ⟨pr', sr', rfl, hend, ?_⟩
          rw [hevents, hok]
          exact .passed _
      · obtain ⟨_, hx, -⟩ := goes_executeStage he
        cases hx
    · obtain ⟨_, hx, -⟩ := goes_executeStage he
      cases hx

theorem goes_runAlone {r : Except PyError (PipelineResult × StageResult)}
    (h : (runAlone u p stage input_data pr).Goes l r) :
    ∃ pr' sr, r = .ok (pr', sr) ∧ sr.status ≠ .running ∧ AloneRun p stage (events l) sr.ok := by
  unfold runAlone at h
  obtain ⟨sr, le, l₁, rfl, he, h₁⟩ | ⟨e, he, -⟩ := goes_bind.mp h
  · obtain ⟨sr', hsr, hexec⟩ := goes_executeStage he
    cases hsr
    obtain ⟨hev, hend, -⟩ := hexec.spec
    obtain ⟨-, l₂, rfl, h₂⟩ := goes_cmd.mp h₁
    rw [events_append, hev, events_output]
    cases htarget : loopTarget p stage with
    | none =>
      rw [htarget] at h₂
      obtain ⟨rfl, rfl⟩ := h₂
      refine ⟨_, _, rfl, hend, ?_⟩
      cases hok : sr.ok with
      | true => exact .passed
      | false => exact .failed htarget
    | some target =>
      rw [htarget] at h₂
      dsimp only at h₂
      split at h₂
      · rename_i hstatus
        obtain ⟨pr', sr', rfl, hend', hre⟩ := goes_rerun hstatus rfl h₂
        rw [(sr.failed_iff hend).mp hstatus]
        exact ⟨pr', sr', rfl, hend', .looped htarget hre⟩
      · rename_i hstatus
        obtain ⟨rfl, rfl⟩ := h₂
        have hok : sr.ok = true := by simpa using mt (sr.failed_iff hend).mpr hstatus
        refine ⟨_, _, rfl, hend, ?_⟩
        rw [hok]
        exact .passed
  · obtain ⟨_, hx, -⟩ := goes_executeStage he
    cases hx

/-- An execution is at most six commands. -/
theorem within_executeStage : (executeStage u stage context input_data).Within 6 := by
  have hresolve : (resolveHost stage).Within 1 := by
    unfold resolveHost
    split
    · exact within_cmd fun _ => within_ret
    · exact within_ret
  have hdispatch : ∀ host prompt project sr, (dispatchStage stage host prompt project sr).Within 2 := by
    intro host prompt project sr
    refine within_cmd fun x => ?_
    cases x with
    | error exc => exact within_ret
    | ok result =>
      dsimp only
      split
      · refine within_cmd fun x => ?_
        cases x <;> exact within_ret
      · exact within_ret
  refine within_cmd (n := 5) fun _ => within_bind (m := 1) (n := 4) hresolve fun host => ?_
  split
  · exact (within_cmd (n := 0) fun _ => within_ret).mono (by decide)
  · exact within_cmd (n := 3) fun outputs => within_bind (m := 2) (n := 1) (hdispatch _ _ _ _) fun sr =>
      within_cmd (n := 0) fun _ => within_ret

/-- The threads of a batch. -/
theorem names_batch {batch : List Stage} :
    (batch.map fun stage => (stage, executeStage u stage context input_data)).map Prod.fst = batch := by
  rw [List.map_map]
  exact List.map_id batch

theorem fits_batch {batch : List Stage} :
    Fits (7 * batch.length) (batch.map fun stage => (stage, executeStage u stage context input_data)) := by
  have hfits := @fits_of_forall _ _ _ _ 6 (batch.map fun stage => (stage, executeStage u stage context input_data))
    fun t ht => by
      obtain ⟨stage, -, rfl⟩ := List.mem_map.mp ht
      exact within_executeStage
  rwa [List.length_map] at hfits

/-- The stage a command is about. -/
def Cmd.stage? : Cmd → Option Stage
  | .saveStage stage _ => some stage
  | .findBestHost stage => some stage
  | .dispatch stage _ _ _ => some stage
  | .recall stage _ => some stage
  | .info _ stage _ => some stage
  | _ => none

/-- The command is not about another stage. -/
def Cmd.About (stage : Stage) (c : Cmd) : Prop := c.stage? = some stage ∨ c.stage? = none

/-- Its commands are about its stage, or read the outputs. -/
theorem each_executeStage : (executeStage u stage context input_data).Each (Cmd.About stage) := by
  have hresolve : (resolveHost stage).Each (Cmd.About stage) := by
    unfold resolveHost
    split
    · exact each_cmd_bind (Or.inl rfl) fun _ => trivial
    · trivial
  have hdispatch : ∀ host prompt project sr,
      (dispatchStage stage host prompt project sr).Each (Cmd.About stage) := by
    intro host prompt project sr
    refine each_cmd_bind (Or.inl rfl) fun x => ?_
    cases x with
    | error exc => trivial
    | ok result =>
      dsimp only
      split
      · refine each_cmd_bind (Or.inl rfl) fun x => ?_
        cases x <;> trivial
      · trivial
  refine each_cmd_bind (Or.inl rfl) fun _ => each_bind (fun host => ?_) hresolve
  split
  · exact each_cmd_bind (Or.inl rfl) fun _ => trivial
  · exact each_cmd_bind (Or.inr rfl) fun _ => each_bind
      (fun sr => each_cmd_bind (Or.inl rfl) fun _ => each_ret sr) (hdispatch _ _ _ _)

/-- What is observed of an execution is of its stage. -/
theorem of_executeStage {O : Type} {obs : Entry sig → Option O} {key : O → Stage}
    (hobs : ∀ c x o, obs ⟨c, x⟩ = some o → c.stage? = some (key o)) :
    Of obs key stage (executeStage u stage context input_data) := by
  refine each_mono (fun c hc x o ho => ?_) each_executeStage
  rw [Cmd.About, hobs c x o ho] at hc
  exact hc.elim Option.some.inj fun h => nomatch h

theorem stage_event (c : Cmd) (x : Resp c) (e : Event) (h : event ⟨c, x⟩ = some e) : c.stage? = some e.stage := by
  cases c with
  | saveStage stage sr =>
    cases Option.some.inj h
    simp only [Cmd.stage?]
    split <;> rfl
  | info iteration stage target =>
    cases Option.some.inj h
    rfl
  | _ => cases h

/-- What a batch in threads has collected. -/
structure Collected (done : List (Stage × StageResult)) (b : PipelineResult × Bool) : Prop where
  failed : b.2 = true ↔ ∃ d ∈ done, d.2.status = .failed
  status : b.2 = true → b.1.status = .failed

theorem collected_collect {done : List (Stage × StageResult)} {b b' : PipelineResult × Bool}
    (hb : Collected done b) (h : (collect b stage sr).Goes l (.ok b')) : Collected (done ++ [(stage, sr)]) b' := by
  obtain ⟨-, l₁, rfl, h₁⟩ := goes_cmd.mp h
  dsimp only at h₁
  split at h₁
  · rename_i hsr
    obtain ⟨-, hb'⟩ := h₁
    cases hb'
    exact ⟨⟨fun _ => ⟨(stage, sr), by simp, hsr⟩, fun _ => rfl⟩, fun _ => rfl⟩
  · rename_i hsr
    obtain ⟨-, hb'⟩ := h₁
    cases hb'
    refine ⟨hb.failed.trans ?_, hb.status⟩
    simp [hsr]

/-- A batch in threads: what it has collected, and what is observed of each stage. -/
theorem goes_threads {O : Type} {obs : Entry sig → Option O} {key : O → Stage}
    (hobs : ∀ c x o, obs ⟨c, x⟩ = some o → c.stage? = some (key o)) {batch : List Stage} {b : PipelineResult × Bool}
    (hnodup : batch.Nodup) (h : (runTogether u batch input_data pr).Goes l (.ok b)) :
    ∃ done, Collected done b ∧ (done.map Prod.fst).Perm batch ∧ (∀ o ∈ l.filterMap obs, key o ∈ batch) ∧
      ∀ stage ∈ batch, ∃ sr lt, (stage, sr) ∈ done ∧ Executed u stage input_data input_data lt sr ∧
        part key stage (l.filterMap obs) = lt.filterMap obs := by
  have hnone : ∀ (c : Cmd), c.stage? = none → ∀ x, obs ⟨c, x⟩ = none := by
    intro c hc x
    cases ho : obs ⟨c, x⟩ with
    | none => rfl
    | some o =>
      have hsome := hobs c x o ho
      rw [hc] at hsome
      cases hsome
  have hpick : Unseen obs (cmd .next) := each_cmd.mpr (hnone _ rfl)
  have hcollect : ∀ (b : PipelineResult × Bool) (stage : Stage) (sr : StageResult),
      Unseen obs (collect b stage sr) := by
    intro b stage sr
    refine each_cmd_bind (hnone _ rfl) fun _ => ?_
    dsimp only
    split <;> trivial
  have hnil : Collected [] (pr, false) := ⟨by simp, by simp⟩
  obtain ⟨done, hcollected, hperm, hkeys, hparts⟩ := @goes_par _ _ _ _ _ _ obs key _ _ _ Collected
    hpick hcollect collected_collect _ _ _ _ _ _ (by rwa [names_batch]) fits_batch
    (fun t ht => by
      obtain ⟨stage, -, rfl⟩ := List.mem_map.mp ht
      exact of_executeStage hobs)
    hnil h
  rw [names_batch] at hperm hkeys
  refine ⟨done, hcollected, hperm, hkeys, fun stage hstage => ?_⟩
  obtain ⟨a, lt, hin, hgo, hpart⟩ := hparts _ (List.mem_map_of_mem hstage)
  obtain ⟨sr, hsr, hexec⟩ := goes_executeStage hgo
  cases hsr
  exact ⟨_, lt, hin, hexec, hpart⟩

theorem goes_runTogether {batch : List Stage} {b : PipelineResult × Bool} (hnodup : batch.Nodup)
    (h : (runTogether u batch input_data pr).Goes l (.ok b)) :
    TogetherRun batch (events l) (!b.2) ∧ (b.2 = true → b.1.status = .failed) := by
  obtain ⟨more, hcollected, hperm, hkeys, hparts⟩ := goes_threads stage_event hnodup h
  have hdone : ∀ stage ∈ batch, ∃ sr, (stage, sr) ∈ more ∧ sr.status ≠ .running ∧
      part Event.stage stage (events l) = [.began stage, .ended stage sr.ok] := by
    intro stage hstage
    obtain ⟨sr, lt, hin, hexec, hpart⟩ := hparts stage hstage
    obtain ⟨hev, hend, -⟩ := hexec.spec
    exact ⟨sr, hin, hend, hpart.trans hev⟩
  have hunique : ∀ {stage sr sr'}, (stage, sr) ∈ more → (stage, sr') ∈ more → sr = sr' := by
    intro stage sr sr' h h'
    have heq := List.inj_on_of_nodup_map (hperm.nodup_iff.mpr hnodup) h h' rfl
    exact (Prod.mk.inj heq).2
  refine ⟨⟨fun stage hstage => ?_, hkeys, fun hok => ?_⟩, hcollected.status⟩
  · obtain ⟨sr, hin, hend, hpart⟩ := hdone stage hstage
    refine ⟨sr.ok, hpart, fun hok => ?_⟩
    by_contra hne
    have hfailed := (sr.failed_iff hend).mpr (by simpa using hne)
    have hb : b.2 = true := hcollected.failed.mpr ⟨(stage, sr), hin, hfailed⟩
    simp [hb] at hok
  · obtain ⟨⟨stage, sr⟩, hin, hstatus⟩ := hcollected.failed.mp (by simpa using hok)
    have hstage : stage ∈ batch := hperm.mem_iff.mp (List.mem_map_of_mem hin)
    obtain ⟨sr', hin', hend, hpart⟩ := hdone stage hstage
    obtain rfl := hunique hin hin'
    refine ⟨stage, hstage, ?_⟩
    have hmem : Event.ended stage sr.ok ∈ part Event.stage stage (events l) := by
      rw [hpart]
      simp
    rw [(sr.failed_iff hend).mp hstatus] at hmem
    exact (List.mem_filter.mp hmem).1

/-- The status of a pipeline that has ended. -/
def statusOf (ok : Bool) : Status := if ok then .completed else .failed

/-- A batch in threads, and what follows it. -/
theorem run_of_threads {batch : List Stage} {batches : List (List Stage)} {pr' : PipelineResult}
    {next : PipelineResult → P PipelineResult} (hnodup : batch.Nodup)
    (hbatch : ∀ es ok, TogetherRun batch es ok → BatchRun p batch es ok)
    (hnext : ∀ pr l, (next pr).Goes l (.ok pr') → ∃ ok, Run p batches (events l) ok ∧ pr'.status = statusOf ok)
    (h : (runTogether u batch input_data pr >>= fun b => if b.2 then .ret b.1 else next b.1).Goes l (.ok pr')) :
    ∃ ok, Run p (batch :: batches) (events l) ok ∧ pr'.status = statusOf ok := by
  obtain ⟨b, l₁, l₂, rfl, ht, h₁⟩ | ⟨e, -, he⟩ := goes_bind.mp h
  · obtain ⟨htogether, hstatus⟩ := goes_runTogether hnodup ht
    split at h₁
    · rename_i hb
      obtain ⟨rfl, hpr⟩ := h₁
      cases hpr
      rw [hb] at htogether
      rw [List.append_nil]
      exact ⟨false, .stopped (hbatch _ _ htogether), hstatus hb⟩
    · rename_i hb
      rw [Bool.not_eq_true] at hb
      rw [hb] at htogether
      obtain ⟨ok, hrun, hpr⟩ := hnext b.1 l₂ h₁
      rw [events_append]
      exact ⟨ok, .next (hbatch _ _ htogether) hrun, hpr⟩
  · cases he

theorem goes_runBatches : ∀ {batches : List (List Stage)} {pr pr' : PipelineResult} {l : List (Entry sig)},
    (∀ batch ∈ batches, batch.Nodup) → (runBatches u p input_data batches pr).Goes l (.ok pr') →
    ∃ ok, Run p batches (events l) ok ∧ pr'.status = statusOf ok
  | [], pr, pr', l, _, h => by
    obtain ⟨rfl, hpr⟩ := h
    cases hpr
    exact ⟨true, .done, rfl⟩
  | [stage] :: batches, pr, pr', l, hnodup, h => by
    rw [runBatches] at h
    obtain ⟨x, l₁, l₂, rfl, ha, h₁⟩ | ⟨e, -, he⟩ := goes_bind.mp h
    · obtain ⟨pr₁, sr, hx, hend, halone⟩ := goes_runAlone ha
      cases hx
      dsimp only at h₁
      split at h₁
      · rename_i hstatus
        obtain ⟨rfl, hpr⟩ := h₁
        cases hpr
        rw [(sr.failed_iff hend).mp hstatus] at halone
        rw [List.append_nil]
        exact ⟨false, .stopped halone, rfl⟩
      · rename_i hstatus
        have hok : sr.ok = true := by simpa using mt (sr.failed_iff hend).mpr hstatus
        rw [hok] at halone
        obtain ⟨ok, hrun, hpr⟩ := goes_runBatches (fun b hb => hnodup b (List.mem_cons_of_mem _ hb)) h₁
        rw [events_append]
        exact ⟨ok, .next halone hrun, hpr⟩
    · cases he
  | [] :: batches, pr, pr', l, hnodup, h => by
    have h' : (runTogether u [] input_data pr >>= fun b =>
      if b.2 then .ret b.1 else runBatches u p input_data batches b.1).Goes l (.ok pr') := h
    refine run_of_threads (hnodup _ List.mem_cons_self) (fun _ _ h => h) (fun _ _ hnext => ?_) h'
    exact goes_runBatches (fun b hb => hnodup b (List.mem_cons_of_mem _ hb)) hnext
  | (s :: s' :: rest) :: batches, pr, pr', l, hnodup, h => by
    have h' : (runTogether u (s :: s' :: rest) input_data pr >>= fun b =>
      if b.2 then .ret b.1 else runBatches u p input_data batches b.1).Goes l (.ok pr') := h
    refine run_of_threads (hnodup _ List.mem_cons_self) (fun _ _ h => h) (fun _ _ hnext => ?_) h'
    exact goes_runBatches (fun b hb => hnodup b (List.mem_cons_of_mem _ hb)) hnext

theorem nodup_batch {batch : List Stage} (h : batch ∈ p.topologicalOrder) : batch.Nodup := by
  have hnames : (batch.map Stage.name).Nodup := by
    have hall := p.nodup_topologicalOrder
    rw [names_flatten] at hall
    exact (List.nodup_flatten.mp hall).1 _ (List.mem_map_of_mem h)
  exact hnames.of_map

/-- **Runs.** -/
theorem run_of_goes {pr' : PipelineResult} (h : (execute u p input_data).Goes l (.ok pr')) :
    p.validate = [] ∧ ∃ ok, Run p p.topologicalOrder (events l) ok ∧ pr'.status = statusOf ok := by
  unfold execute at h
  split at h
  · cases h.2
  · rename_i hvalid
    exact ⟨not_not.mp hvalid, goes_runBatches (fun _ hb => nodup_batch hb) h⟩

end ClaudeSwarm.Pipeline
