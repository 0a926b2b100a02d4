import ClaudeSwarm.Interleave.Alike
import ClaudeSwarm.Pipeline.Completion

/-!
# What a retry knows

The loop of `execute` puts the error of the failed stage into `augmented_input` under `_loop_error`, and
`execute_stage` takes that dictionary as its `input_data`. The prompt is rendered by the context, which holds the
dictionary the pipeline was started with; of `input_data` only `project` is used. So two runs that are answered the
same but for the texts of errors render the same prompts.

* `same_execute`: what a run does does not depend on the texts of errors, but for the results it saves.
* **`retry_uninformed`**: the prompts of the re-runs do not differ.
* `same_prompts`: two such runs of a generator that asks for `{input._loop_error}`.
-/

namespace ClaudeSwarm.Pipeline

open Data Interleave Interleave.Prog Python

/-- A result but for its error text. -/
def StageResult.blank (sr : StageResult) : StageResult := { sr with error := "" }

/-- A command but for the error text in it. -/
def Cmd.blank : Cmd → Cmd
  | .saveStage stage sr => .saveStage stage sr.blank
  | c => c

/-- A reply but for the error text in it. -/
inductive View where
  | host (host : Option String)
  | outputs (outputs : Outputs)
  | dispatched (dispatch_id status : String)
  | raised
  | recalled (output : String)
  | unread
  | next (i : Nat)
  | done
  deriving DecidableEq

/-- What is seen of a reply. -/
def view : Entry sig → View
  | ⟨.findBestHost _, host⟩ => .host host
  | ⟨.outputs, outputs⟩ => .outputs outputs
  | ⟨.dispatch _ _ _ _, .ok result⟩ => .dispatched result.dispatch_id result.status
  | ⟨.dispatch _ _ _ _, .error _⟩ => .raised
  | ⟨.recall _ _, .ok output⟩ => .recalled output
  | ⟨.recall _ _, .error _⟩ => .unread
  | ⟨.next, i⟩ => .next i
  | _ => .done

/-- What is seen of an answer from outside. -/
def answer : Entry sig → View
  | ⟨.outputs, _⟩ => .done
  | e => view e

/-- The loop begins an iteration. -/
def Cmd.isInfo : Cmd → Bool
  | .info _ _ _ => true
  | _ => false

/-- The prompt of a dispatch. -/
def Cmd.prompt? : Cmd → Option String
  | .dispatch _ _ prompt _ => some prompt
  | _ => none

/-- The prompts that are dispatched once the loop has begun. -/
def promptsAfter (cs : List Cmd) : List String := (cs.dropWhile fun c => !c.isInfo).filterMap Cmd.prompt?

/-- The prompts of the re-runs. -/
def retryPrompts (l : List (Entry sig)) : List String := promptsAfter (l.map Sigma.fst)

/-- The re-runs of two runs can be told apart by their prompts. -/
def Informed (l l' : List (Entry sig)) : Prop := retryPrompts l ≠ retryPrompts l'

variable {u : Unicode} {p : Pipeline} {stage target : Stage} {context input_data input_data' : Input}
  {l l' : List (Entry sig)} {sr sr' : StageResult} {pr pr' : PipelineResult}

/-- The programs do the same but for error texts. -/
abbrev Same {α β : Type} (R : α → β → Prop) (p : P α) (q : P β) : Prop := Alike Cmd.blank view R p q

/-- Results that are the same but for their error texts. -/
def SameResult (sr sr' : StageResult) : Prop := sr.blank = sr'.blank

theorem SameResult.fields (h : SameResult sr sr') :
    sr.stage_name = sr'.stage_name ∧ sr.status = sr'.status ∧ sr.output = sr'.output := by
  unfold SameResult StageResult.blank at h
  injection h with h₁ h₂ h₃ h₄ h₅ h₆ h₇
  exact ⟨h₁, h₂, h₅⟩

theorem same_save {α β : Type} {R : α → β → Prop} {f : Unit → P α} {g : Unit → P β} (h : SameResult sr sr')
    (hf : Same R (f ()) (g ())) : Same R (cmd (.saveStage stage sr) >>= f) (cmd (.saveStage stage sr') >>= g) :=
  alike_cmd (congrArg (Cmd.saveStage stage) h) fun _ _ _ => hf

theorem same_resolveHost : Same (· = ·) (resolveHost stage) (resolveHost stage) := by
  unfold resolveHost
  split
  · exact alike_cmd rfl fun x x' hx => .ret (congrArg (Option.getD · "") (View.host.inj hx))
  · exact .ret rfl

theorem same_dispatchStage {host prompt : String} {project : Option Value} (h : SameResult sr sr') :
    Same SameResult (dispatchStage stage host prompt project sr) (dispatchStage stage host prompt project sr') := by
  have hwith : ∀ {id id' output output' error error' : String} {status : Status}, id = id' → output = output' →
      SameResult { sr with dispatch_id := id, status := status, output := output, error := error }
        { sr' with dispatch_id := id', status := status, output := output', error := error' } := by
    rintro id id' output output' error error' status rfl rfl
    unfold SameResult StageResult.blank at h ⊢
    injection h with h₁ h₂ h₃ h₄ h₅ h₆ h₇
    rw [h₁, h₃, h₄]
  have hid : sr.dispatch_id = sr'.dispatch_id := by
    unfold SameResult StageResult.blank at h
    injection h
  have hout := h.fields.2.2
  refine alike_cmd rfl fun x x' hx => ?_
  cases x with
  | error exc =>
    cases x' with
    | error exc' => exact .ret (hwith hid hout)
    | ok result' => cases hx
  | ok result =>
    cases x' with
    | error exc' => cases hx
    | ok result' =>
      obtain ⟨hdispatch, hstatus⟩ := View.dispatched.inj hx
      dsimp only
      rw [hstatus, hdispatch]
      split
      · refine alike_cmd rfl fun x x' hx => ?_
        cases x with
        | ok output =>
          cases x' with
          | ok output' =>
            exact .ret (hwith rfl (View.recalled.inj hx))
          | error exc' => cases hx
        | error exc =>
          cases x' with
          | ok output' => cases hx
          | error exc' => exact .ret (hwith rfl hout)
      · exact .ret (hwith rfl hout)

theorem same_executeStage (h : input_data.get? "project" = input_data'.get? "project") :
    Same SameResult (executeStage u stage context input_data) (executeStage u stage context input_data') := by
  refine same_save rfl (alike_bind same_resolveHost fun host host' hhost => ?_)
  subst hhost
  split
  · exact same_save rfl (.ret rfl)
  · refine alike_cmd rfl fun outputs outputs' houtputs => ?_
    obtain rfl : outputs = outputs' := View.outputs.inj houtputs
    rw [h]
    exact alike_bind (same_dispatchStage rfl) fun sr sr' hsr => same_save hsr (.ret hsr)

theorem same_addOutput {α β : Type} {R : α → β → Prop} {f : Unit → P α} {g : Unit → P β} (h : SameResult sr sr')
    (hf : Same R (f ()) (g ())) :
    Same R (cmd (.addOutput sr.stage_name sr.output) >>= f) (cmd (.addOutput sr'.stage_name sr'.output) >>= g) :=
  alike_cmd (by rw [h.fields.1, h.fields.2.2]) fun _ _ _ => hf

theorem project_augmentedInput {iteration : Int} :
    (augmentedInput input_data sr iteration).get? "project" = input_data.get? "project" := by
  unfold augmentedInput
  rw [Dict.get?_set, if_neg (by decide), Dict.get?_set, if_neg (by decide)]

/-- Outcomes whose stage results are the same but for their error texts. -/
abbrev SameSecond (x x' : PipelineResult × StageResult) : Prop := SameResult x.2 x'.2

theorem same_rerun : ∀ {fuel : Nat} {iteration : Int} {pr pr' : PipelineResult} {sr sr' : StageResult},
    SameResult sr sr' → Same SameSecond (rerun u stage target input_data fuel iteration pr sr)
      (rerun u stage target input_data fuel iteration pr' sr')
  | 0, _, _, _, _, _, h => .ret h
  | fuel + 1, iteration, pr, pr', sr, sr', h => by
    rw [rerun, rerun, h.fields.2.1]
    split
    · refine alike_cmd rfl fun _ _ _ => ?_
      have hproject : (augmentedInput input_data sr iteration).get? "project" =
          (augmentedInput input_data sr' iteration).get? "project" := by
        rw [project_augmentedInput, project_augmentedInput]
      refine alike_bind (same_executeStage hproject) fun gen_sr gen_sr' hgen => same_addOutput hgen ?_
      exact alike_bind (same_executeStage hproject) fun sr sr' hsr => same_addOutput hsr (same_rerun hsr)
    · exact .ret h

theorem same_runAlone :
    Same SameSecond (runAlone u p stage input_data pr) (runAlone u p stage input_data pr') := by
  refine alike_bind (same_executeStage rfl) fun sr sr' hsr => same_addOutput hsr ?_
  dsimp only
  cases loopTarget p stage with
  | none => exact .ret hsr
  | some target =>
    dsimp only
    rw [hsr.fields.2.1]
    split
    · exact same_rerun hsr
    · exact .ret hsr

theorem same_runTogether {batch : List Stage} : Same (fun b b' : PipelineResult × Bool => b.2 = b'.2)
    (runTogether u batch input_data pr) (runTogether u batch input_data pr') := by
  refine alike_par (R := SameResult) (alike_cmd rfl fun i i' hi => .ret (View.next.inj hi)) ?_ ?_ rfl
  · intro b b' stage sr sr' hb hsr
    refine same_addOutput hsr ?_
    dsimp only
    rw [hsr.fields.2.1]
    split
    · exact .ret rfl
    · exact .ret hb
  · refine List.forall₂_map_left_iff.mpr (List.forall₂_map_right_iff.mpr (List.forall₂_same.mpr fun stage _ => ?_))
    exact ⟨rfl, same_executeStage rfl⟩

theorem same_threads {batch : List Stage} {next : PipelineResult → P PipelineResult}
    (hnext : ∀ pr pr', Same (fun _ _ => True) (next pr) (next pr')) : Same (fun _ _ => True)
      (runTogether u batch input_data pr >>= fun b => if b.2 then .ret b.1 else next b.1)
      (runTogether u batch input_data pr' >>= fun b => if b.2 then .ret b.1 else next b.1) := by
  refine alike_bind same_runTogether fun b b' hb => ?_
  rw [hb]
  split
  · exact .ret trivial
  · exact hnext b.1 b'.1

theorem same_runBatches : ∀ {batches : List (List Stage)} {pr pr' : PipelineResult},
    Same (fun _ _ => True) (runBatches u p input_data batches pr) (runBatches u p input_data batches pr')
  | [], _, _ => .ret trivial
  | [stage] :: batches, pr, pr' => by
    rw [runBatches, runBatches]
    refine alike_bind same_runAlone fun x x' hx => ?_
    have hstatus : x.2.status = x'.2.status := (SameResult.fields hx).2.1
    dsimp only
    rw [hstatus]
    split
    · exact .ret trivial
    · exact same_runBatches
  | [] :: _, _, _ => same_threads fun _ _ => same_runBatches
  | (_ :: _ :: _) :: _, _, _ => same_threads fun _ _ => same_runBatches

/-- **Two runs.** -/
theorem same_execute : Same (fun _ _ => True) (execute u p input_data) (execute u p input_data) := by
  unfold execute
  split
  · exact .raise _
  · exact same_runBatches

/-- From one state and with answers that look alike one command leads to one state. -/
theorem same_step {c c' : Cmd} {i i' : Answer} {s s₁ s₁' : Outputs} {x : Resp c} {x' : Resp c'}
    (hc : c.blank = c'.blank) (hx : exec 0 i s c = some (x, s₁)) (hx' : exec 0 i' s c' = some (x', s₁'))
    (hans : answer ⟨c, x⟩ = answer ⟨c', x'⟩) : view ⟨c, x⟩ = view ⟨c', x'⟩ ∧ s₁ = s₁' := by
  cases c with
  | saveStage stage sr =>
    cases c' with
    | saveStage stage' sr' =>
      cases hx
      cases hx'
      exact ⟨rfl, rfl⟩
    | _ => cases hc
  | outputs =>
    cases c' with
    | outputs =>
      cases hx
      cases hx'
      exact ⟨rfl, rfl⟩
    | _ => cases hc
  | _ =>
    -- every other command is the same, and what is seen of its reply is the answer
    cases c' <;> cases hc
    cases hx
    cases hx'
    exact ⟨hans, rfl⟩

theorem promptsAfter_blank (cs : List Cmd) : promptsAfter (cs.map Cmd.blank) = promptsAfter cs := by
  have hinfo : (fun c => !Cmd.isInfo c) ∘ Cmd.blank = fun c => !c.isInfo := by
    funext c
    cases c <;> rfl
  have hprompt : Cmd.prompt? ∘ Cmd.blank = Cmd.prompt? := by
    funext c
    cases c <;> rfl
  rw [promptsAfter, List.dropWhile_map, List.filterMap_map, hinfo, hprompt]
  rfl

/-- Two runs that are answered the same but for the texts of errors dispatch the same prompts. -/
theorem retryPrompts_eq (h : (execute u p input_data).Goes l (.ok pr)) (h' : (execute u p input_data).Goes l' (.ok pr'))
    {s s' : Outputs} (hp : store.Plays 0 .empty l s) (hp' : store.Plays 0 .empty l' s')
    (halike : l.map answer = l'.map answer) : retryPrompts l = retryPrompts l' := by
  have hcmds : l.map (fun e => Cmd.blank e.1) = l'.map fun e => Cmd.blank e.1 :=
    same_execute.goes (T := store) same_step h h' hp hp' halike
  have hmap : ∀ l : List (Entry sig), l.map (fun e => Cmd.blank e.1) = (l.map Sigma.fst).map Cmd.blank := fun l => by
    rw [List.map_map]
    rfl
  rw [hmap, hmap] at hcmds
  rw [retryPrompts, ← promptsAfter_blank, hcmds, promptsAfter_blank, retryPrompts]

/-- **Retries.** The prompts of the re-runs never show why the stage failed. -/
theorem retry_uninformed (h : (execute u p input_data).Goes l (.ok pr))
    (h' : (execute u p input_data).Goes l' (.ok pr')) {s s' : Outputs} (hp : store.Plays 0 .empty l s)
    (hp' : store.Plays 0 .empty l' s') (halike : l.map answer = l'.map answer) : ¬ Informed l l' :=
  fun hne => hne (retryPrompts_eq h h' hp hp' halike)

/-! ## A generator that asks for the error -/

/-- The template has one of the documented tokens of the loop. -/
def AsksForError (template : String) : Prop :=
  "\x7binput._loop_error\x7d".toList <:+: template.toList ∨ "\x7b_loop_error\x7d".toList <:+: template.toList

/-- The errors a trace shows. -/
def failures (l : List (Entry sig)) : List String :=
  l.filterMap fun e => match e with
    | ⟨.dispatch _ _ _ _, .ok result⟩ => some result.error
    | _ => none

def asking : Stage := { generate with promptTemplate := "\x7binput._loop_error\x7d" }

def askingPipeline : Pipeline := ⟨"gen_verify_loop", [asking, verify]⟩

/-- The verifier fails with the error text `error`, and passes after a re-run of the generator. -/
def failsWith (error : String) : Option (List (Entry sig) × Except PyError PipelineResult × Outputs) :=
  store.play 0 (execute .ascii askingPipeline .empty) (answers true ++
    List.replicate 5 { dispatched := .ok ⟨"d", "failed", error⟩ } ++ [{ pick := 0 }] ++ answers true ++ answers true)
    .empty

/-- What a run with its trace shows, but for the texts of errors. -/
def shown (q : List (Entry sig) × Except PyError PipelineResult × Outputs) :
    Option Status × List Event × List View :=
  (q.2.1.toOption.map PipelineResult.status, events q.1, q.1.map answer)

/-- The run of `failsWith`: its errors and what it shows. -/
theorem shown_failsWith : (failsWith "a").map shown = (failsWith "b").map shown ∧
    (failsWith "a").map (fun q => (failures q.1, q.2.1.toOption.map PipelineResult.status, events q.1)) =
      some (["", "a", "", ""], some .completed, [.began asking, .ended asking true, .began verify,
        .ended verify false] ++ iteration verify asking true true) ∧
    (failsWith "b").map (fun q => failures q.1) = some ["", "b", "", ""] := by
  decide +kernel

theorem exists_failsWith : ∃ l l' pr pr' s s', (execute .ascii askingPipeline .empty).Goes l (.ok pr) ∧
    (execute .ascii askingPipeline .empty).Goes l' (.ok pr') ∧ store.Plays 0 .empty l s ∧
    store.Plays 0 .empty l' s' ∧ l.map answer = l'.map answer ∧ failures l ≠ failures l' ∧
    .looped verify asking ∈ events l := by
  obtain ⟨hshown, ha, hb⟩ := shown_failsWith
  obtain ⟨⟨l, r, s⟩, hq, he⟩ := Option.map_eq_some_iff.mp ha
  obtain ⟨⟨l', r', s'⟩, hq', he'⟩ := Option.map_eq_some_iff.mp hb
  rw [hq, hq', Option.map_some, Option.map_some, Option.some.injEq] at hshown
  obtain ⟨hstatus, hviews⟩ := Prod.mk.inj hshown
  obtain ⟨hfailures, he⟩ := Prod.mk.inj he
  obtain ⟨hcompleted, hevents⟩ := Prod.mk.inj he
  rw [failsWith] at hq hq'
  obtain ⟨hgoes, hplays⟩ := store.goes_of_play 0 hq
  obtain ⟨hgoes', hplays'⟩ := store.goes_of_play 0 hq'
  cases r with
  | error e => cases hcompleted
  | ok pr =>
    cases r' with
    | error e => cases hstatus
    | ok pr' =>
      refine ⟨l, l', pr, pr', s, s', hgoes, hgoes', hplays, hplays', (Prod.mk.inj hviews).2, ?_, ?_⟩
      · rw [hfailures, he']
        decide
      · rw [hevents]
        decide

/-- `retry_uninformed` of two runs. -/
theorem retry_uninformed_failsWith : ∃ l l', failures l ≠ failures l' ∧ .looped verify asking ∈ events l ∧
    ¬ Informed l l' := by
  obtain ⟨l, l', pr, pr', s, s', h, h', hp, hp', halike, hne, hlooped⟩ := exists_failsWith
  exact ⟨l, l', hne, hlooped, retry_uninformed h h' hp hp' halike⟩

/-- **Two different errors, one prompt.** -/
theorem same_prompts : ¬ ∀ (u : Unicode) (p : Pipeline) (input_data : Input) (l l' : List (Entry sig))
    (pr pr' : PipelineResult) (s s' : Outputs), (execute u p input_data).Goes l (.ok pr) →
    (execute u p input_data).Goes l' (.ok pr') → store.Plays 0 .empty l s → store.Plays 0 .empty l' s' →
    l.map answer = l'.map answer → failures l ≠ failures l' →
    (∃ stage target, .looped stage target ∈ events l ∧ AsksForError target.promptTemplate) → Informed l l' := by
  intro hclaim
  obtain ⟨l, l', pr, pr', s, s', h, h', hp, hp', halike, hne, hlooped⟩ := exists_failsWith
  have hasks : AsksForError asking.promptTemplate := Or.inl (List.infix_refl _)
  exact hclaim .ascii askingPipeline .empty l l' pr pr' s s' h h' hp hp' halike hne ⟨verify, asking, hlooped, hasks⟩
    (retryPrompts_eq h h' hp hp' halike)

end ClaudeSwarm.Pipeline
