import Mathlib.Data.List.Infix
import ClaudeSwarm.Pipeline.Completion

/-!
# Success patterns

`success_pattern` stands on a stage ("regex: if output matches, stage succeeded") and no code reads it: an execution
completes when its dispatch completed. `search` is `re.search`, whatever patterns and texts it takes to match.

* `Traced`: what is true of every execution and every batch is true of a run.
* `paired_of_goes`: the outputs of the executions that completed are the texts that were recalled.
* **`success_decides_iff`**: success patterns decide exactly when every text recalled for a stage with a pattern
  matches it.
* `unmatched_completes`: a completed pipeline whose verifier reported failures.
-/

namespace ClaudeSwarm.Pipeline

open Interleave Interleave.Prog Python

/-- The output is what the stage's pattern, if it has one, asks for. -/
def Matches (search : String → String → Bool) (stage : Stage) (output : String) : Prop :=
  ∀ pattern, stage.successPattern = some pattern → search pattern output = true

/-- Every text that was recalled matches. -/
def AllMatch (search : String → String → Bool) (l : List (Entry sig)) : Prop :=
  ∀ stage dispatch_id output, ⟨.recall stage dispatch_id, .ok output⟩ ∈ l → Matches search stage output

/-- The dispatch of the stage completed. -/
def DispatchCompleted (stage : Stage) (l : List (Entry sig)) : Prop :=
  ∃ host prompt project result, ⟨.dispatch stage host prompt project, .ok result⟩ ∈ l ∧ result.status = "completed"

/-- The last output of the stage is one of a completed execution, and matches. -/
def LastMatches (search : String → String → Bool) (stage : Stage) (l : List (Entry sig)) : Prop :=
  ∃ l₁ sr l₂, l = l₁ ++ ⟨.saveStage stage sr, ()⟩ :: l₂ ∧ sr.status = .completed ∧ Matches search stage sr.output ∧
    ∀ sr', ⟨.saveStage stage sr', ()⟩ ∈ l₂ → sr'.status = .running

/-- What the pattern of a stage promises of an execution. -/
def Decides (search : String → String → Bool) (stage : Stage) (l : List (Entry sig)) (sr : StageResult) : Prop :=
  sr.status = .completed → DispatchCompleted stage l ∧ Matches search stage sr.output

/-- What the patterns of its stages promise of a pipeline: of every result that is saved, and, of a completed
pipeline, of the last output of every stage to which no other loops. -/
def PipelineDecides (search : String → String → Bool) (p : Pipeline) (l : List (Entry sig)) (pr : PipelineResult) :
    Prop :=
  (∀ stage sr, ⟨.saveStage stage sr, ()⟩ ∈ l → sr.status = .completed → Matches search stage sr.output) ∧
    (pr.status = .completed → ∀ stage ∈ p.topologicalOrder.flatten, (∀ s ∈ p.stages, s.loopTo ≠ some stage.name) →
      LastMatches search stage l)

/-- What a trace shows of a stage's output. -/
inductive Outcome where
  | recalled (stage : Stage) (output : String)
  | saved (stage : Stage) (output : String)
  deriving DecidableEq

/-- The stage of it. -/
def Outcome.stage : Outcome → Stage
  | .recalled stage _ => stage
  | .saved stage _ => stage

/-- A text that was recalled, or a completed result that was saved. -/
def outcome : Entry sig → Option Outcome
  | ⟨.saveStage stage sr, _⟩ => if sr.status = .completed then some (.saved stage sr.output) else none
  | ⟨.recall stage _, .ok output⟩ => some (.recalled stage output)
  | _ => none

/-- The outputs saved are the texts recalled. -/
def Paired (os : List Outcome) : Prop := ∀ stage output, .recalled stage output ∈ os ↔ .saved stage output ∈ os

variable {u : Unicode} {p : Pipeline} {stage target : Stage} {context input_data : Input} {l : List (Entry sig)}
  {sr : StageResult} {pr : PipelineResult} {search : String → String → Bool}

/-! ## What is true of every execution -/

/-- A property of traces that joining keeps and that executions, batches in threads and the rest have. -/
structure Traced (u : Unicode) (Q : List (Entry sig) → Prop) : Prop where
  nil : Q []
  append : ∀ {l l'}, Q l → Q l' → Q (l ++ l')
  addOutput : ∀ name output, Q [⟨.addOutput name output, ()⟩]
  info : ∀ iteration stage target, Q [⟨.info iteration stage target, ()⟩]
  executed : ∀ {stage context input_data l sr}, Executed u stage context input_data l sr → Q l
  together : ∀ {batch input_data pr l b}, batch.Nodup → (runTogether u batch input_data pr).Goes l (.ok b) → Q l

namespace Traced

variable {Q : List (Entry sig) → Prop} (hQ : Traced u Q)

include hQ

theorem cons_output {name output : String} (h : Q l) : Q (⟨.addOutput name output, ()⟩ :: l) :=
  hQ.append (hQ.addOutput name output) h

theorem executeStage {x : StageResult} (h : (executeStage u stage context input_data).Goes l (.ok x)) : Q l := by
  obtain ⟨_, -, hexec⟩ := goes_executeStage h
  exact hQ.executed hexec

theorem rerun : ∀ {fuel : Nat} {iteration : Int} {pr : PipelineResult} {sr : StageResult} {l : List (Entry sig)}
    {x : PipelineResult × StageResult},
    (rerun u stage target input_data fuel iteration pr sr).Goes l (.ok x) → Q l
  | 0, _, _, _, _, _, h => h.1 ▸ hQ.nil
  | fuel + 1, iteration, pr, sr, l, x, h => by
    rw [Pipeline.rerun] at h
    split at h
    · obtain ⟨-, l₁, rfl, h₁⟩ := goes_cmd.mp h
      obtain ⟨gen_sr, lg, l₂, rfl, hg, h₂⟩ | ⟨e, -, he⟩ := goes_bind.mp h₁
      · obtain ⟨-, l₃, rfl, h₃⟩ := goes_cmd.mp h₂
        obtain ⟨sr', lv, l₄, rfl, hv, h₄⟩ | ⟨e, -, he⟩ := goes_bind.mp h₃
        · obtain ⟨-, l₅, rfl, h₅⟩ := goes_cmd.mp h₄
          exact hQ.append (hQ.info iteration stage target) (hQ.append (hQ.executeStage hg)
            (hQ.cons_output (hQ.append (hQ.executeStage hv) (hQ.cons_output (rerun h₅)))))
        · cases he
      · cases he
    · exact h.1 ▸ hQ.nil

theorem runAlone {x : PipelineResult × StageResult} (h : (runAlone u p stage input_data pr).Goes l (.ok x)) : Q l := by
  obtain ⟨sr, le, l₁, rfl, he, h₁⟩ | ⟨e, -, he⟩ := goes_bind.mp h
  · obtain ⟨-, l₂, rfl, h₂⟩ := goes_cmd.mp h₁
    refine hQ.append (hQ.executeStage he) (hQ.cons_output ?_)
    dsimp only at h₂
    split at h₂
    · split at h₂
      · exact hQ.rerun h₂
      · exact h₂.1 ▸ hQ.nil
    · exact h₂.1 ▸ hQ.nil
  · cases he

theorem threads {batch : List Stage} {pr' : PipelineResult} {next : PipelineResult → P PipelineResult}
    (hnodup : batch.Nodup) (hnext : ∀ {pr l}, (next pr).Goes l (.ok pr') → Q l)
    (h : (runTogether u batch input_data pr >>= fun b => if b.2 then .ret b.1 else next b.1).Goes l (.ok pr')) :
    Q l := by
  obtain ⟨b, l₁, l₂, rfl, ht, h₁⟩ | ⟨e, -, he⟩ := goes_bind.mp h
  · refine hQ.append (hQ.together hnodup ht) ?_
    split at h₁
    · exact h₁.1 ▸ hQ.nil
    · exact hnext h₁
  · cases he

theorem runBatches : ∀ {batches : List (List Stage)} {pr pr' : PipelineResult} {l : List (Entry sig)},
    (∀ batch ∈ batches, batch.Nodup) → (runBatches u p input_data batches pr).Goes l (.ok pr') → Q l
  | [], _, _, _, _, h => h.1 ▸ hQ.nil
  | [stage] :: batches, pr, pr', l, hnodup, h => by
    rw [Pipeline.runBatches] at h
    obtain ⟨x, l₁, l₂, rfl, ha, h₁⟩ | ⟨e, -, he⟩ := goes_bind.mp h
    · refine hQ.append (hQ.runAlone ha) ?_
      dsimp only at h₁
      split at h₁
      · exact h₁.1 ▸ hQ.nil
      · exact runBatches (fun b hb => hnodup b (List.mem_cons_of_mem _ hb)) h₁
    · cases he
  | [] :: batches, pr, pr', l, hnodup, h => by
    have h' : (runTogether u [] input_data pr >>= fun b =>
      if b.2 then .ret b.1 else Pipeline.runBatches u p input_data batches b.1).Goes l (.ok pr') := h
    refine hQ.threads (hnodup _ List.mem_cons_self) (fun hnext => ?_) h'
    exact runBatches (fun b hb => hnodup b (List.mem_cons_of_mem _ hb)) hnext
  | (s :: s' :: rest) :: batches, pr, pr', l, hnodup, h => by
    have h' : (runTogether u (s :: s' :: rest) input_data pr >>= fun b =>
      if b.2 then .ret b.1 else Pipeline.runBatches u p input_data batches b.1).Goes l (.ok pr') := h
    refine hQ.threads (hnodup _ List.mem_cons_self) (fun hnext => ?_) h'
    exact runBatches (fun b hb => hnodup b (List.mem_cons_of_mem _ hb)) hnext

/-- **Runs.** -/
theorem execute (h : (execute u p input_data).Goes l (.ok pr)) : Q l := by
  unfold Pipeline.execute at h
  split at h
  · cases h.2
  · exact hQ.runBatches (fun _ hb => nodup_batch hb) h

end Traced

/-! ## Texts and results -/

theorem stage_outcome (c : Cmd) (x : Resp c) (o : Outcome) (h : outcome ⟨c, x⟩ = some o) :
    c.stage? = some o.stage := by
  cases c with
  | saveStage stage sr =>
    simp only [outcome] at h
    split at h
    · cases h
      rfl
    · cases h
  | «recall» stage dispatch_id =>
    cases x with
    | error exc => cases h
    | ok output =>
      cases h
      rfl
  | _ => cases h

theorem saved_mem {output : String} (h : .saved stage output ∈ l.filterMap outcome) :
    ∃ sr, ⟨.saveStage stage sr, ()⟩ ∈ l ∧ sr.status = .completed ∧ sr.output = output := by
  obtain ⟨⟨c, x⟩, he, ho⟩ := List.mem_filterMap.mp h
  cases c with
  | saveStage stage sr =>
    simp only [outcome] at ho
    split at ho
    · rename_i hstatus
      cases ho
      exact ⟨sr, he, hstatus, rfl⟩
    · cases ho
  | «recall» stage dispatch_id => cases x <;> cases ho
  | _ => cases ho

theorem mem_saved (h : ⟨.saveStage stage sr, ()⟩ ∈ l) (hstatus : sr.status = .completed) :
    .saved stage sr.output ∈ l.filterMap outcome :=
  List.mem_filterMap.mpr ⟨_, h, by simp [outcome, hstatus]⟩

theorem recalled_mem {output : String} (h : .recalled stage output ∈ l.filterMap outcome) :
    ∃ dispatch_id, ⟨.recall stage dispatch_id, .ok output⟩ ∈ l := by
  obtain ⟨⟨c, x⟩, he, ho⟩ := List.mem_filterMap.mp h
  cases c with
  | saveStage stage sr =>
    simp only [outcome] at ho
    split at ho <;> cases ho
  | «recall» stage dispatch_id =>
    cases x with
    | error exc => cases ho
    | ok output =>
      cases ho
      exact ⟨dispatch_id, he⟩
  | _ => cases ho

theorem mem_recalled {dispatch_id output : String} (h : ⟨.recall stage dispatch_id, .ok output⟩ ∈ l) :
    .recalled stage output ∈ l.filterMap outcome :=
  List.mem_filterMap.mpr ⟨_, h, rfl⟩

/-- One execution recalls a text and saves it, or neither. -/
theorem Executed.outcomes (h : Executed u stage context input_data l sr) :
    sr.status = .completed ∧ l.filterMap outcome = [.recalled stage sr.output, .saved stage sr.output] ∨
      sr.status ≠ .completed ∧ l.filterMap outcome = [] := by
  have hhosts : ∀ {lh : List (Entry sig)}, (∀ e ∈ lh, e.1 = .findBestHost stage) → lh.filterMap outcome = [] := by
    intro lh hlh
    refine List.filterMap_eq_nil_iff.mpr fun e he => ?_
    obtain ⟨c, x⟩ := e
    obtain rfl : c = .findBestHost stage := hlh _ he
    rfl
  cases h with
  | noHost hlh sr₀ _ h h' =>
    refine Or.inr ⟨by simp [h'.1], ?_⟩
    rw [List.filterMap_append, List.filterMap_cons_none (by simp [outcome, h]), hhosts hlh]
    simp [outcome, h'.1]
  | @ran lh ld hlh host outputs sr₀ _ h hld =>
    have hsave : ∀ {ld : List (Entry sig)} {sr' : StageResult},
        (⟨.saveStage stage sr₀, ()⟩ :: lh ++ ⟨.outputs, outputs⟩ :: ld ++ [⟨.saveStage stage sr', ()⟩] :
          List (Entry sig)).filterMap outcome =
            ld.filterMap outcome ++ [(⟨.saveStage stage sr', ()⟩ : Entry sig)].filterMap outcome := by
      intro ld sr'
      rw [List.filterMap_append, List.filterMap_append, List.filterMap_cons_none (by simp [outcome, h.1]),
        hhosts hlh, List.filterMap_cons_none rfl, List.nil_append]
    rw [hsave]
    cases hld with
    | recalled result hstatus output => exact Or.inl ⟨rfl, rfl⟩
    | raised exc => exact Or.inr ⟨by simp, rfl⟩
    | unfinished result hstatus => exact Or.inr ⟨by simp, rfl⟩
    | unread result hstatus exc => exact Or.inr ⟨by simp, rfl⟩

theorem paired_executed (h : Executed u stage context input_data l sr) : Paired (l.filterMap outcome) := by
  intro s output
  rcases h.outcomes with ⟨-, hl⟩ | ⟨-, hl⟩
  · rw [hl]
    simp
  · rw [hl]
    simp

theorem paired_together {batch : List Stage} {b : PipelineResult × Bool} (hnodup : batch.Nodup)
    (h : (runTogether u batch input_data pr).Goes l (.ok b)) : Paired (l.filterMap outcome) := by
  obtain ⟨_, -, -, hkeys, hparts⟩ := goes_threads stage_outcome hnodup h
  have hpart : ∀ {o : Outcome} {s : Stage}, o.stage = s →
      (o ∈ l.filterMap outcome ↔ o ∈ part Outcome.stage s (l.filterMap outcome)) := by
    intro o s ho
    simp [part, ho]
  intro s output
  by_cases hs : s ∈ batch
  · obtain ⟨sr, lt, -, hexec, heq⟩ := hparts s hs
    have hrecalled := hpart (o := .recalled s output) (s := s) rfl
    have hsaved := hpart (o := .saved s output) (s := s) rfl
    rw [hrecalled, hsaved, heq]
    exact paired_executed hexec s output
  · exact ⟨fun ho => absurd (hkeys _ ho) hs, fun ho => absurd (hkeys _ ho) hs⟩

theorem traced_paired : Traced u fun l => Paired (l.filterMap outcome) where
  nil := fun _ _ => by simp
  append h h' := fun s output => by
    rw [List.filterMap_append, List.mem_append, List.mem_append, h s output, h' s output]
  addOutput _ _ := fun _ _ => by simp [outcome]
  info _ _ _ := fun _ _ => by simp [outcome]
  executed := paired_executed
  together := paired_together

theorem paired_of_goes (h : (execute u p input_data).Goes l (.ok pr)) : Paired (l.filterMap outcome) :=
  traced_paired.execute h

/-! ## Patterns -/

/-- A completed execution had a completed dispatch. -/
theorem Executed.dispatched (h : Executed u stage context input_data l sr) (hstatus : sr.status = .completed) :
    DispatchCompleted stage l := by
  cases h with
  | noHost hlh sr₀ _ h h' =>
    rw [h'.1] at hstatus
    cases hstatus
  | @ran lh ld hlh host outputs sr₀ _ h hld =>
    cases hld with
    | recalled result hresult output =>
      refine ⟨host, renderPrompt u context outputs stage.promptTemplate, input_data.get? "project", result, ?_, hresult⟩
      exact List.mem_append_left _ (List.mem_append_right _ (List.mem_cons_of_mem _ List.mem_cons_self))
    | raised exc => cases hstatus
    | unfinished result hresult => cases hstatus
    | unread result hresult exc => cases hstatus

theorem decides_iff (h : Executed u stage context input_data l sr) : Decides search stage l sr ↔ AllMatch search l := by
  have hpaired := paired_executed h
  constructor
  · intro hdecides s dispatch_id output hmem
    have hin := mem_recalled hmem
    rcases h.outcomes with ⟨hstatus, hl⟩ | ⟨-, hl⟩
    · rw [hl] at hin
      obtain ⟨rfl, rfl⟩ : s = stage ∧ output = sr.output := by simpa using hin
      exact (hdecides hstatus).2
    · rw [hl] at hin
      cases hin
  · intro hall hstatus
    refine ⟨h.dispatched hstatus, ?_⟩
    rcases h.outcomes with ⟨-, hl⟩ | ⟨hne, -⟩
    · have hin : Outcome.recalled stage sr.output ∈ l.filterMap outcome := by
        rw [hl]
        simp
      obtain ⟨dispatch_id, hmem⟩ := recalled_mem hin
      exact hall stage dispatch_id sr.output hmem
    · exact absurd hstatus hne

/-- The end of an execution in the trace. -/
theorem exists_save {es₁ es₂ : List Event} (h : events l = es₁ ++ .ended stage true :: es₂) :
    ∃ l₁ sr l₂, l = l₁ ++ ⟨.saveStage stage sr, ()⟩ :: l₂ ∧ sr.status = .completed ∧ events l₂ = es₂ := by
  obtain ⟨l₁, l', rfl, -, hl'⟩ := List.filterMap_eq_append_iff.mp h
  obtain ⟨l₂, ⟨c, x⟩, l₃, rfl, -, he, hl₃⟩ := List.filterMap_eq_cons_iff.mp hl'
  cases c with
  | saveStage s sr =>
    have hevent : (if sr.status = .running then Event.began s else .ended s (decide (sr.status = .completed))) =
        .ended stage true := Option.some.inj he
    split at hevent
    · cases hevent
    · obtain ⟨rfl, hstatus⟩ := Event.ended.inj hevent
      exact ⟨l₁ ++ l₂, sr, l₃, (List.append_assoc ..).symm, of_decide_eq_true hstatus, hl₃⟩
  | info iteration s target => cases he
  | _ => cases he

/-- The last execution of a stage to which no other loops, in a completed pipeline. -/
theorem done_of_completed (h : (execute u p input_data).Goes l (.ok pr)) (hcompleted : pr.status = .completed)
    (hstage : stage ∈ p.topologicalOrder.flatten) (hfree : ∀ s ∈ p.stages, s.loopTo ≠ some stage.name) :
    Done stage (events l) := by
  obtain ⟨-, ok, hrun, hstatus⟩ := run_of_goes h
  have hok : ok = true := by
    cases ok with
    | true => rfl
    | false => rw [hcompleted] at hstatus; cases hstatus
  subst hok
  obtain ⟨before, batch, after, hsplit, hmem⟩ := exists_batch hstage
  have hnotafter := (not_mem_of_split hsplit hmem).2
  rw [hsplit] at hrun
  obtain ⟨es₁, e, es₂, hevents, -, hbatch, hafter⟩ := run_split hrun
  have hno : ∀ pre s a rest, es₂ = pre ++ iteration s stage a true ++ rest → loopTarget p s = some stage →
      s ≠ stage → a = true ∨ ∃ b, .ended stage b ∈ rest := by
    intro pre s a rest he htarget _
    have hs : s ∈ after.flatten := @stage_of_looped _ _ stage _ _ _ hafter (by rw [he]; simp [iteration])
    exact absurd (mem_of_loopTarget htarget).2 (hfree s (mem_stages (by rw [hsplit]; simp [hs])))
  rw [hevents]
  rcases done_or_absent hafter hnotafter hno with hdone | habsent
  · exact hdone.append_left
  · exact (batchRun_own hbatch hmem).1.append_left.append_right habsent

theorem pipelineDecides_iff (h : (execute u p input_data).Goes l (.ok pr)) :
    PipelineDecides search p l pr ↔ AllMatch search l := by
  have hpaired := paired_of_goes h
  have hsaves : (∀ stage sr, ⟨.saveStage stage sr, ()⟩ ∈ l → sr.status = .completed → Matches search stage sr.output) ↔
      AllMatch search l := by
    constructor
    · intro hmatch stage dispatch_id output hmem
      obtain ⟨sr, hsave, hstatus, rfl⟩ := saved_mem ((hpaired stage output).mp (mem_recalled hmem))
      exact hmatch stage sr hsave hstatus
    · intro hall stage sr hsave hstatus
      obtain ⟨dispatch_id, hmem⟩ := recalled_mem ((hpaired stage sr.output).mpr (mem_saved hsave hstatus))
      exact hall stage dispatch_id sr.output hmem
  refine ⟨fun hdecides => hsaves.mp hdecides.1, fun hall => ⟨hsaves.mpr hall, ?_⟩⟩
  intro hcompleted stage hstage hfree
  obtain ⟨es₁, es₂, hevents, hlast⟩ := done_of_completed h hcompleted hstage hfree
  obtain ⟨l₁, sr, l₂, hl, hstatus, hl₂⟩ := exists_save hevents
  refine ⟨l₁, sr, l₂, hl, hstatus, hsaves.mpr hall stage sr (by rw [hl]; simp) hstatus, fun sr' hmem => ?_⟩
  by_contra hrunning
  refine hlast (decide (sr'.status = .completed)) ?_
  rw [← hl₂]
  exact List.mem_filterMap.mpr ⟨_, hmem, by simp [event, hrunning]⟩

/-- **Success patterns.** Whatever matching is, an execution and a pipeline keep to the patterns of their stages
exactly when every text that was recalled matches. -/
theorem success_decides_iff (search : String → String → Bool) :
    (∀ u stage context input_data l sr, (executeStage u stage context input_data).Goes l (.ok sr) →
      (Decides search stage l sr ↔ AllMatch search l)) ∧
    ∀ u p input_data l pr, (execute u p input_data).Goes l (.ok pr) →
      (PipelineDecides search p l pr ↔ AllMatch search l) := by
  refine ⟨fun u stage context input_data l sr h => ?_, fun u p input_data l pr h => pipelineDecides_iff h⟩
  obtain ⟨sr', hsr, hexec⟩ := goes_executeStage h
  cases hsr
  exact decides_iff hexec

/-! ## A verifier that reports failures -/

/-- A verifier that asks for `SUCCESS`. -/
def strict : Stage := { verify with successPattern := some "SUCCESS" }

def strictPipeline : Pipeline := ⟨"gen_verify_loop", [generate, strict]⟩

/-- `re.search` of a text without special characters. -/
def searchLiteral (pattern text : String) : Bool := decide (pattern.toList <:+: text.toList)

/-- Both dispatches complete, and the verifier says that two tests failed. -/
def unmatched : Option (List (Entry sig) × Except PyError PipelineResult × Outputs) :=
  store.play 0 (execute .ascii strictPipeline .empty)
    (answers true ++ List.replicate 6 { dispatched := .ok ⟨"d", "completed", ""⟩, recalled := .ok "2 failed" }) .empty

theorem outcomes_unmatched :
    unmatched.map (fun q => (q.2.1.toOption.map PipelineResult.status, q.1.filterMap outcome)) = some (some .completed,
      [.recalled generate "", .saved generate "", .recalled strict "2 failed", .saved strict "2 failed"]) := by
  decide +kernel

/-- **A completed pipeline whose verifier did not succeed.** -/
theorem unmatched_completes : ¬ ∀ (u : Unicode) (p : Pipeline) (input_data : Input) (l : List (Entry sig))
    (pr : PipelineResult) (s : Outputs), (execute u p input_data).Goes l (.ok pr) → store.Plays 0 .empty l s →
    PipelineDecides searchLiteral p l pr := by
  intro h
  obtain ⟨⟨l, r, s⟩, hq, he⟩ := Option.map_eq_some_iff.mp outcomes_unmatched
  obtain ⟨hstatus, houtcomes⟩ := Prod.mk.inj he
  rw [unmatched] at hq
  obtain ⟨hgoes, hplays⟩ := store.goes_of_play 0 hq
  cases r with
  | error e => cases hstatus
  | ok pr =>
    have hall := (pipelineDecides_iff hgoes).mp (h .ascii strictPipeline .empty l pr s hgoes hplays)
    have hmem : Outcome.recalled strict "2 failed" ∈ l.filterMap outcome := by
      rw [houtcomes]
      simp
    obtain ⟨dispatch_id, hin⟩ := recalled_mem hmem
    have hmatch : searchLiteral "SUCCESS" "2 failed" = true := hall strict dispatch_id "2 failed" hin "SUCCESS" rfl
    have hno : searchLiteral "SUCCESS" "2 failed" = false := by decide +kernel
    rw [hno] at hmatch
    cases hmatch

end ClaudeSwarm.Pipeline
