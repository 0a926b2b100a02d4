import ClaudeSwarm.Pipeline.Completion

/-!
# Runs that exist

The converse of `run_of_goes`, for runs in which the threads of a batch go one after the other: what `Turn` allows
happens in some run of `execute`, whatever the input.

* **`can_execute`**: a run of `execute` with given events.
* `turn_passes`: every stage may complete.
-/

namespace ClaudeSwarm.Pipeline

open Interleave Interleave.Prog Interleave.Store Python

/-- One execution. -/
def once (stage : Stage) (ok : Bool) : List Event := [.began stage, .ended stage ok]

/-- The executions of a batch in turn. -/
def inTurn (f : Stage → Bool) (batch : List Stage) : List Event := batch.flatMap fun stage => once stage (f stage)

/-- The batches of a pipeline, until one fails; the stages of a batch go in turn. -/
inductive Turn (p : Pipeline) : List (List Stage) → List Event → (ok : Bool) → Prop
  | done : Turn p [] [] true
  | aloneStopped {stage : Stage} {batches : List (List Stage)} {es : List Event} (h : AloneRun p stage es false) :
    Turn p ([stage] :: batches) es false
  | alone {stage : Stage} {batches : List (List Stage)} {es es' : List Event} {ok : Bool}
    (h : AloneRun p stage es true) (hnext : Turn p batches es' ok) : Turn p ([stage] :: batches) (es ++ es') ok
  | batchStopped {batch : List Stage} {batches : List (List Stage)} {f : Stage → Bool}
    (hmany : ∀ stage, batch ≠ [stage]) (h : batch.all f = false) : Turn p (batch :: batches) (inTurn f batch) false
  | batch {batch : List Stage} {batches : List (List Stage)} {es' : List Event} {f : Stage → Bool} {ok : Bool}
    (hmany : ∀ stage, batch ≠ [stage]) (h : batch.all f = true) (hnext : Turn p batches es' ok) :
    Turn p (batch :: batches) (inTurn f batch ++ es') ok

variable {u : Unicode} {p : Pipeline} {stage target : Stage} {context input_data : Input} {sr : StageResult}
  {pr : PipelineResult} {es : List Event} {ok : Bool} {batch : List Stage} {batches : List (List Stage)}

/-- A program with a run has one that is a trace of it. -/
theorem can_goes {α : Type} {q : P α} {R : α → List (Entry sig) → Prop} (h : store.Can 0 q R) :
    store.Can 0 q fun a l => q.Goes l (.ok a) ∧ R a l := by
  intro s
  obtain ⟨a, l, s', hg, hp, hr⟩ := h s
  exact ⟨a, l, s', hg, hp, hg, hr⟩

theorem can_save {α : Type} {sr : StageResult} {f : Unit → P α} {R : α → List (Entry sig) → Prop}
    (hf : store.Can 0 (f ()) fun a l => R a (⟨.saveStage stage sr, ()⟩ :: l)) :
    store.Can 0 (cmd (.saveStage stage sr) >>= f) R :=
  can_cmd (P := fun _ => True) (fun s => ⟨{ pick := 0 }, (), s, rfl, trivial⟩) fun _ _ => hf

theorem can_addOutput {α : Type} {name output : String} {f : Unit → P α} {R : α → List (Entry sig) → Prop}
    (hf : store.Can 0 (f ()) fun a l => R a (⟨.addOutput name output, ()⟩ :: l)) :
    store.Can 0 (cmd (.addOutput name output) >>= f) R :=
  can_cmd (P := fun _ => True) (fun s => ⟨{ pick := 0 }, (), s.set name output, rfl, trivial⟩) fun _ _ => hf

theorem can_resolveHost : store.Can 0 (resolveHost stage) fun host _ => host ≠ "" := by
  unfold resolveHost
  split
  · exact can_cmd (P := fun host => host = some "h") (fun s => ⟨{ host := some "h" }, _, s, rfl, rfl⟩)
      fun host hhost => can_ret (by rw [hhost]; decide)
  · exact can_ret ‹_›

theorem can_dispatchStage {host prompt : String} {project : Option Value} (ok : Bool) :
    store.Can 0 (dispatchStage stage host prompt project sr) fun sr' _ => sr'.ok = ok := by
  cases ok with
  | false =>
    exact can_cmd (P := fun x => x = .error "") (fun s => ⟨{ pick := 0 }, _, s, rfl, rfl⟩)
      fun x hx => by
        rw [hx]
        exact can_ret rfl
  | true =>
    refine can_cmd (P := fun x => x = .ok ⟨"d", "completed", ""⟩)
      (fun s => ⟨{ dispatched := .ok ⟨"d", "completed", ""⟩ }, _, s, rfl, rfl⟩) fun x hx => ?_
    rw [hx]
    exact can_cmd (P := fun x => x = .ok "") (fun s => ⟨{ recalled := .ok "" }, _, s, rfl, rfl⟩)
      fun x hx => by
        rw [hx]
        exact can_ret rfl

/-- An execution may complete and may fail. -/
theorem can_executeStage (ok : Bool) : store.Can 0 (executeStage u stage context input_data) fun sr l =>
    events l = once stage ok ∧ sr.ok = ok ∧ sr.status ≠ .running := by
  have hcan : store.Can 0 (executeStage u stage context input_data) fun sr _ => sr.ok = ok := by
    refine can_save (can_bind can_resolveHost fun host _ hhost => ?_)
    rw [if_neg hhost]
    refine can_cmd (P := fun _ => True) (fun s => ⟨{ pick := 0 }, s, s, rfl, trivial⟩) fun outputs _ => ?_
    exact can_bind (can_dispatchStage ok) fun sr _ hsr => can_save (can_ret hsr)
  refine can_mono (can_goes hcan) fun sr l h => ?_
  obtain ⟨sr', hsr, hexec⟩ := goes_executeStage h.1
  cases hsr
  obtain ⟨hevents, hend, -⟩ := hexec.spec
  rw [hevents, ← h.2]
  exact ⟨rfl, rfl, hend⟩

theorem can_rerun {n : Nat} (h : Reruns stage target n es ok) : ∀ {iteration : Int} {pr : PipelineResult}
    {sr : StageResult}, sr.status = .failed → n = (stage.maxIterations - iteration).toNat →
    store.Can 0 (rerun u stage target input_data n iteration pr sr) fun x l =>
      events l = es ∧ x.2.ok = ok ∧ x.2.status ≠ .running := by
  have hround : ∀ {n : Nat} {iteration : Int} {pr : PipelineResult} {sr : StageResult} {es : List Event}
      {a b ok : Bool}, sr.status = .failed → n + 1 = (stage.maxIterations - iteration).toNat →
      (∀ pr sr, sr.ok = b → sr.status ≠ .running →
        store.Can 0 (rerun u stage target input_data n (iteration + 1) pr sr) fun x l =>
          events l = es ∧ x.2.ok = ok ∧ x.2.status ≠ .running) →
      store.Can 0 (rerun u stage target input_data (n + 1) iteration pr sr) fun x l =>
        events l = Pipeline.iteration stage target a b ++ es ∧ x.2.ok = ok ∧ x.2.status ≠ .running := by
    intro n iteration pr sr es a b ok hsr hn hnext
    rw [rerun, if_pos ⟨hsr, by omega⟩]
    refine can_cmd (P := fun _ => True) (fun s => ⟨{ pick := 0 }, (), s, rfl, trivial⟩) fun _ _ => ?_
    refine can_bind (can_executeStage a) fun gen_sr lg hgen => can_addOutput ?_
    refine can_bind (can_executeStage b) fun sr' lv hsr' => can_addOutput ?_
    refine can_mono (hnext _ sr' hsr'.2.1 hsr'.2.2) fun x l hx => ⟨?_, hx.2⟩
    have hlooped : ∀ l, events (⟨.info iteration stage target, ()⟩ :: l) = .looped stage target :: events l :=
      fun _ => rfl
    rw [hlooped, events_append, hgen.1, events_output, events_append, hsr'.1, events_output, hx.1]
    rfl
  induction h with
  | spent =>
    intro iteration pr sr hsr hn
    refine can_ret ⟨rfl, ?_, ?_⟩
    · simp [StageResult.ok, hsr]
    · simp [hsr]
  | @passed n a =>
    intro iteration pr sr hsr hn
    refine @hround _ _ _ _ [] a true _ hsr hn fun pr sr hok hend => ?_
    have hne : sr.status ≠ .failed := by
      rw [Ne, sr.failed_iff hend, hok]
      decide
    cases n with
    | zero => exact can_ret ⟨rfl, hok, hend⟩
    | succ n =>
      rw [rerun, if_neg fun hc => hne hc.1]
      exact can_ret ⟨rfl, hok, hend⟩
  | again a h ih =>
    intro iteration pr sr hsr hn
    exact hround (a := a) (b := false) hsr hn fun pr sr hok hend => ih ((sr.failed_iff hend).mpr hok) (by omega)

theorem can_runAlone (h : AloneRun p stage es ok) : store.Can 0 (runAlone u p stage input_data pr) fun x l =>
    events l = es ∧ x.2.ok = ok ∧ x.2.status ≠ .running := by
  cases h with
  | passed =>
    refine can_bind (can_executeStage true) fun sr l hsr => can_addOutput ?_
    dsimp only
    have hne : sr.status ≠ .failed := by
      rw [Ne, sr.failed_iff hsr.2.2, hsr.2.1]
      decide
    cases loopTarget p stage with
    | none =>
      refine can_ret ⟨?_, hsr.2⟩
      rw [events_append, hsr.1]
      rfl
    | some target =>
      dsimp only
      rw [if_neg hne]
      refine can_ret ⟨?_, hsr.2⟩
      rw [events_append, hsr.1]
      rfl
  | failed h =>
    refine can_bind (can_executeStage false) fun sr l hsr => can_addOutput ?_
    dsimp only
    rw [h]
    refine can_ret ⟨?_, hsr.2⟩
    rw [events_append, hsr.1]
    rfl
  | looped h hes =>
    refine can_bind (can_executeStage false) fun sr l hsr => can_addOutput ?_
    dsimp only
    have hfailed := (sr.failed_iff hsr.2.2).mpr hsr.2.1
    rw [h]
    dsimp only
    rw [if_pos hfailed]
    refine can_mono (can_rerun hes hfailed rfl) fun x l' hx => ⟨?_, hx.2⟩
    rw [events_append, hsr.1, events_output, hx.1]
    rfl

/-- An execution with a given outcome and its events. -/
def Ended (f : Stage → Bool) (stage : Stage) (sr : StageResult) (os : List Event) : Prop :=
  os = once stage (f stage) ∧ sr.ok = f stage ∧ sr.status ≠ .running

/-- A result is collected. -/
def Counted (b : PipelineResult × Bool) (_ : Stage) (sr : StageResult) (b' : PipelineResult × Bool) : Prop :=
  sr.status ≠ .running → b'.2 = (b.2 || !sr.ok)

theorem can_collect (b : PipelineResult × Bool) (stage : Stage) (sr : StageResult) :
    store.Can 0 (collect b stage sr) fun b' l => Counted b stage sr b' ∧ events l = [] := by
  refine can_addOutput ?_
  dsimp only
  split
  · rename_i hsr
    refine can_ret ⟨fun hend => ?_, rfl⟩
    rw [(sr.failed_iff hend).mp hsr]
    simp
  · rename_i hsr
    refine can_ret ⟨fun hend => ?_, rfl⟩
    have hok : sr.ok = true := by simpa using mt (sr.failed_iff hend).mpr hsr
    rw [hok]
    simp

theorem counted_inTurn {f : Stage → Bool} : ∀ {batch : List Stage} {b b' : PipelineResult × Bool} {os : List Event},
    InTurn (Ended f) Counted batch b b' os → os = inTurn f batch ∧ b'.2 = (b.2 || !batch.all f)
  | [], b, b', os, h => by
    obtain ⟨rfl, rfl⟩ := h
    simp [inTurn]
  | stage :: batch, b, b', os, ⟨sr, b₁, os₁, os₂, ⟨hos, hok, hend⟩, hcounted, hrest, he⟩ => by
    obtain ⟨hos₂, hb'⟩ := counted_inTurn hrest
    refine ⟨?_, ?_⟩
    · rw [he, hos, hos₂, inTurn, inTurn, List.flatMap_cons]
    · rw [hb', hcounted hend, hok, List.all_cons, Bool.not_and, Bool.or_assoc]

theorem can_runTogether (f : Stage → Bool) : store.Can 0 (runTogether u batch input_data pr) fun b l =>
    events l = inTurn f batch ∧ b.2 = !batch.all f := by
  have hpick : ∀ s : Outputs, ∃ l, (cmd .next).Goes l (.ok 0) ∧ store.Plays 0 s l s ∧ l.filterMap event = [] :=
    fun s => ⟨[⟨.next, 0⟩], ⟨0, [], rfl, rfl, rfl⟩, ⟨{ pick := 0 }, s, rfl, rfl⟩, rfl⟩
  have hcan := @can_par _ _ _ _ _ _ event _ _ _ collect (Ended f) Counted hpick can_collect _ _ (pr, false)
    (@fits_batch u input_data input_data batch) fun t ht => by
      obtain ⟨stage, -, rfl⟩ := List.mem_map.mp ht
      exact can_executeStage (f stage)
  refine can_mono hcan fun b l hturn => ?_
  rw [names_batch] at hturn
  obtain ⟨hevents, hb⟩ := counted_inTurn hturn
  exact ⟨hevents, by rw [hb, Bool.false_or]⟩

/-- A batch in threads, and what follows it. -/
theorem can_threads {f : Stage → Bool} {next : PipelineResult → P PipelineResult} (hnodup : batch.Nodup)
    (hstop : batch.all f = false → es = [] ∧ ok = false)
    (hnext : batch.all f = true → ∀ pr, store.Can 0 (next pr) fun pr' l => events l = es ∧ pr'.status = statusOf ok) :
    store.Can 0 (runTogether u batch input_data pr >>= fun b => if b.2 then .ret b.1 else next b.1) fun pr' l =>
      events l = inTurn f batch ++ es ∧ pr'.status = statusOf ok := by
  refine can_bind (can_goes (can_runTogether f)) fun b l₁ hb => ?_
  obtain ⟨hgoes, hevents, hfailed⟩ := hb
  cases hall : batch.all f with
  | false =>
    obtain ⟨rfl, rfl⟩ := hstop hall
    rw [hfailed, hall]
    refine can_ret ⟨?_, (goes_runTogether hnodup hgoes).2 (by rw [hfailed, hall]; rfl)⟩
    rw [events_append, hevents]
    rfl
  | true =>
    rw [hfailed, hall]
    refine can_mono (hnext hall b.1) fun pr' l h => ⟨?_, h.2⟩
    rw [events_append, hevents, h.1]

theorem runBatches_many {batch : List Stage} (hmany : ∀ stage, batch ≠ [stage]) :
    runBatches u p input_data (batch :: batches) pr = (runTogether u batch input_data pr >>= fun b =>
      if b.2 then .ret b.1 else runBatches u p input_data batches b.1) := by
  match batch, hmany with
  | [], _ => rfl
  | [stage], hmany => exact absurd rfl (hmany stage)
  | _ :: _ :: _, _ => rfl

theorem can_runBatches (h : Turn p batches es ok) : (∀ batch ∈ batches, batch.Nodup) → ∀ pr,
    store.Can 0 (runBatches u p input_data batches pr) fun pr' l => events l = es ∧ pr'.status = statusOf ok := by
  induction h with
  | done => exact fun _ pr => can_ret ⟨rfl, rfl⟩
  | aloneStopped h =>
    intro _ pr
    rw [runBatches]
    refine can_bind (can_runAlone h) fun x l hx => ?_
    obtain ⟨pr₁, sr⟩ := x
    dsimp only at hx ⊢
    rw [if_pos ((sr.failed_iff hx.2.2).mpr hx.2.1)]
    refine can_ret ⟨?_, rfl⟩
    rw [List.append_nil, hx.1]
  | alone h _ ih =>
    intro hnodup pr
    rw [runBatches]
    refine can_bind (can_runAlone h) fun x l hx => ?_
    obtain ⟨pr₁, sr⟩ := x
    dsimp only at hx ⊢
    have hne : sr.status ≠ .failed := by
      rw [Ne, sr.failed_iff hx.2.2, hx.2.1]
      decide
    rw [if_neg hne]
    refine can_mono (ih (fun b hb => hnodup b (List.mem_cons_of_mem _ hb)) pr₁) fun pr' l' h => ⟨?_, h.2⟩
    rw [events_append, hx.1, h.1]
  | @batchStopped batch batches f hmany h =>
    intro hnodup pr
    rw [runBatches_many hmany, ← List.append_nil (inTurn f batch)]
    exact can_threads (hnodup _ List.mem_cons_self) (fun _ => ⟨rfl, rfl⟩) fun hall => by
      rw [h] at hall
      cases hall
  | @batch batch batches es' f ok hmany h _ ih =>
    intro hnodup pr
    rw [runBatches_many hmany]
    refine can_threads (hnodup _ List.mem_cons_self) (fun hall => ?_) fun _ =>
      ih fun b hb => hnodup b (List.mem_cons_of_mem _ hb)
    rw [h] at hall
    cases hall

/-- **Runs.** -/
theorem can_execute (hvalid : p.validate = []) (h : Turn p p.topologicalOrder es ok) :
    store.Can 0 (execute u p input_data) fun pr l => events l = es ∧ pr.status = statusOf ok := by
  unfold execute
  rw [if_neg (not_not.mpr hvalid)]
  exact can_runBatches h (fun _ hb => nodup_batch hb) _

/-- Every stage of the batches completes at once. -/
def passes (batches : List (List Stage)) : List Event := batches.flatMap (inTurn fun _ => true)

/-- Every stage may complete, and then the rest goes on. -/
theorem turn_passes {after : List (List Stage)} (h : Turn p after es ok) :
    ∀ {before : List (List Stage)}, Turn p (before ++ after) (passes before ++ es) ok
  | [] => h
  | batch :: before => by
    have hrest := @turn_passes after h before
    rw [passes, List.flatMap_cons, List.append_assoc, List.cons_append]
    by_cases hone : ∃ stage, batch = [stage]
    · obtain ⟨stage, rfl⟩ := hone
      exact .alone .passed hrest
    · exact .batch (fun stage he => hone ⟨stage, he⟩) (by simp) hrest

end ClaudeSwarm.Pipeline
