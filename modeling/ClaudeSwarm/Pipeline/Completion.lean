import ClaudeSwarm.Pipeline.Events

/-!
# Completed pipelines

When `execute` returns `completed`, the last execution of a stage need not have completed, and a stage need not
have run after what it depends on: the loop of a stage re-runs its target and looks only at the stage itself.

`ReallyCompleted` is what a completed pipeline promises. `LoopsMend` is about the loops that end well: the re-run of
the target completed too, or the target runs again later; and every other stage that depends on the target runs
later.

* `done_or_absent`, `after_or_absent`: what the later batches may do to an earlier stage.
* **`really_completed_iff`**: a completed pipeline really completed exactly when its loops mend.
* `generator_failed`: a completed pipeline whose generator failed last.
-/

namespace ClaudeSwarm.Pipeline

open Interleave Interleave.Prog Python

/-- The last execution of the stage completed. -/
def Done (stage : Stage) (es : List Event) : Prop :=
  ∃ es₁ es₂, es = es₁ ++ .ended stage true :: es₂ ∧ ∀ b, .ended stage b ∉ es₂

/-- The last execution of the stage began after the last one of `dep` had ended. -/
def After (stage dep : Stage) (es : List Event) : Prop :=
  ∃ es₁ es₂, es = es₁ ++ .began stage :: es₂ ∧ .began stage ∉ es₂ ∧ ∀ b, .ended dep b ∉ es₂

/-- What a completed pipeline promises. -/
def ReallyCompleted (p : Pipeline) (es : List Event) : Prop :=
  ∀ stage ∈ p.stages, Done stage es ∧ ∀ dep ∈ p.stages, dep.name ∈ stage.dependsOn → After stage dep es

/-- An iteration of the loop of `stage`. -/
def iteration (stage target : Stage) (a ok : Bool) : List Event :=
  [.looped stage target, .began target, .ended target a, .began stage, .ended stage ok]

/-- After a loop that ends well its target has completed or runs again, and what depends on the target runs. -/
def LoopsMend (p : Pipeline) (es : List Event) : Prop :=
  ∀ pre stage target a rest, es = pre ++ iteration stage target a true ++ rest → target ≠ stage →
    (a = true ∨ ∃ b, .ended target b ∈ rest) ∧
      ∀ s ∈ p.stages, target.name ∈ s.dependsOn → s ≠ stage → .began s ∈ rest

variable {p : Pipeline} {s dep stage target : Stage} {es es' : List Event} {batch : List Stage}
  {batches : List (List Stage)} {ok : Bool}

theorem Done.append_left (h : Done s es) : Done s (es' ++ es) := by
  obtain ⟨es₁, es₂, rfl, hlast⟩ := h
  exact ⟨es' ++ es₁, es₂, (List.append_assoc ..).symm, hlast⟩

theorem Done.append_right (h : Done s es) (habsent : ∀ b, .ended s b ∉ es') : Done s (es ++ es') := by
  obtain ⟨es₁, es₂, rfl, hlast⟩ := h
  refine ⟨es₁, es₂ ++ es', by simp, fun b hb => ?_⟩
  exact (List.mem_append.mp hb).elim (hlast b) (habsent b)

theorem After.append_left (h : After s dep es) : After s dep (es' ++ es) := by
  obtain ⟨es₁, es₂, rfl, hlast⟩ := h
  exact ⟨es' ++ es₁, es₂, (List.append_assoc ..).symm, hlast⟩

theorem After.append_right (h : After s dep es) (hbegan : .began s ∉ es') (hended : ∀ b, .ended dep b ∉ es') :
    After s dep (es ++ es') := by
  obtain ⟨es₁, es₂, rfl, hlast, hdep⟩ := h
  refine ⟨es₁, es₂ ++ es', by simp, fun hb => ?_, fun b hb => ?_⟩
  · exact (List.mem_append.mp hb).elim hlast hbegan
  · exact (List.mem_append.mp hb).elim (hdep b) (hended b)

/-! ## One batch -/

/-- A loop that ends well ends with an iteration in which its stage completes. -/
theorem reruns_passed {n : Nat} (h : Reruns stage target n es true) :
    ∃ es₁ a, es = es₁ ++ iteration stage target a true ∧ ∀ e ∈ es₁, e.stage = stage ∨ e.stage = target := by
  generalize hok : true = ok at h
  induction h with
  | spent => cases hok
  | passed a => exact ⟨[], a, rfl, by simp⟩
  | again a h ih =>
    obtain ⟨es₁, a', rfl, hes⟩ := ih hok
    refine ⟨_ ++ es₁, a', (List.append_assoc ..).symm, fun e he => ?_⟩
    rcases List.mem_append.mp he with he | he
    · rcases (by simpa using he : e = _ ∨ e = _ ∨ e = _ ∨ e = _ ∨ e = _) with rfl | rfl | rfl | rfl | rfl
      · exact Or.inl rfl
      · exact Or.inr rfl
      · exact Or.inr rfl
      · exact Or.inl rfl
      · exact Or.inl rfl
    · exact hes e he

theorem aloneRun_passed (h : AloneRun p stage es true) :
    es = [.began stage, .ended stage true] ∨ ∃ target es₁ a, loopTarget p stage = some target ∧
      es = es₁ ++ iteration stage target a true ∧ ∀ e ∈ es₁, e.stage = stage ∨ e.stage = target := by
  generalize hok : true = ok at h
  cases h with
  | passed => exact Or.inl rfl
  | failed h => cases hok
  | looped htarget hes =>
    cases hok
    obtain ⟨es₁, a, rfl, hes₁⟩ := reruns_passed hes
    refine Or.inr
      ⟨_, [.began stage, .ended stage false] ++ es₁, a, htarget, (List.append_assoc ..).symm, fun e he => ?_⟩
    rcases List.mem_append.mp he with he | he
    · rcases (by simpa using he : e = _ ∨ e = _) with rfl | rfl
      · exact Or.inl rfl
      · exact Or.inl rfl
    · exact hes₁ e he

theorem batchRun_cases (h : BatchRun p batch es ok) :
    (∃ stage, batch = [stage] ∧ AloneRun p stage es ok) ∨
      (∀ stage, batch ≠ [stage]) ∧ TogetherRun batch es ok := by
  match batch, h with
  | [], h => exact Or.inr ⟨by simp, h⟩
  | [stage], h => exact Or.inl ⟨stage, rfl, h⟩
  | _ :: _ :: _, h => exact Or.inr ⟨by simp, h⟩

/-- The own batch of a stage. -/
theorem batchRun_own (h : BatchRun p batch es true) (hs : s ∈ batch) :
    Done s es ∧ ∀ dep, dep ∉ batch → After s dep es := by
  rcases batchRun_cases h with ⟨stage, rfl, halone⟩ | ⟨-, htogether⟩
  · obtain rfl := List.mem_singleton.mp hs
    rcases aloneRun_passed halone with rfl | ⟨target, es₁, a, -, rfl, -⟩
    · refine ⟨⟨[.began s], [], rfl, by simp⟩, fun dep hdep => ⟨[], _, rfl, by simp, ?_⟩⟩
      simpa using hdep
    · refine ⟨⟨es₁ ++ [.looped s target, .began target, .ended target a, .began s], [], by simp [iteration], by simp⟩,
        fun dep hdep => ⟨es₁ ++ [.looped s target, .began target, .ended target a], [.ended s true],
          by simp [iteration], by simp, ?_⟩⟩
      simpa using hdep
  · obtain ⟨b, hpart, hb⟩ := htogether.once s hs
    rw [hb rfl] at hpart
    obtain ⟨es₁, es₂, rfl, -, hbegan, hrest⟩ := List.filter_eq_cons_iff.mp hpart
    obtain ⟨es₃, es₄, rfl, -, -, hnil⟩ := List.filter_eq_cons_iff.mp hrest
    have hlast : ∀ e ∈ es₄, e.stage ≠ s := by simpa using List.filter_eq_nil_iff.mp hnil
    refine ⟨⟨es₁ ++ .began s :: es₃, es₄, by simp, fun b hb => hlast _ hb rfl⟩, fun dep hdep =>
      ⟨es₁, es₃ ++ .ended s true :: es₄, rfl, ?_, fun b hb => ?_⟩⟩
    · intro hmem
      have hin : Event.began s ∈ [Event.ended s true] := by
        rw [← hrest]
        exact List.mem_filter.mpr ⟨hmem, by simp [Event.stage]⟩
      simp at hin
    · exact hdep (htogether.only (.ended dep b) (List.mem_append_right _ (List.mem_cons_of_mem _ hb)))

/-- A batch and a stage that is not in it: the stage does nothing, or it is the target of a loop that ends well. -/
theorem batchRun_other (h : BatchRun p batch es true) (hs : s ∉ batch) :
    (∀ e ∈ es, e.stage ≠ s) ∨ ∃ stage es₁ a, batch = [stage] ∧ loopTarget p stage = some s ∧
      es = es₁ ++ iteration stage s a true ∧ ∀ e ∈ es₁, e.stage = stage ∨ e.stage = s := by
  rcases batchRun_cases h with ⟨stage, rfl, halone⟩ | ⟨-, htogether⟩
  · have hne : stage ≠ s := fun he => hs (he ▸ List.mem_singleton_self _)
    rcases aloneRun_passed halone with rfl | ⟨target, es₁, a, htarget, rfl, hes₁⟩
    · refine Or.inl fun e he => ?_
      rcases (by simpa using he : e = _ ∨ e = _) with rfl | rfl <;> exact hne
    · by_cases htargets : target = s
      · subst htargets
        exact Or.inr ⟨stage, es₁, a, rfl, htarget, rfl, hes₁⟩
      · refine Or.inl fun e he => ?_
        rcases List.mem_append.mp he with he | he
        · exact (hes₁ e he).elim (fun h => h ▸ hne) fun h => h ▸ htargets
        · rcases (by simpa [iteration] using he : e = _ ∨ e = _ ∨ e = _ ∨ e = _ ∨ e = _) with
            rfl | rfl | rfl | rfl | rfl
          · exact hne
          · exact htargets
          · exact htargets
          · exact hne
          · exact hne
  · exact Or.inl fun e he hes => hs (hes ▸ htogether.only e he)

/-! ## The later batches -/

/-- The later batches leave an earlier stage alone, or its last execution completes there. -/
theorem done_or_absent (h : Run p batches es true) (hs : s ∉ batches.flatten)
    (hloops : ∀ pre stage a rest, es = pre ++ iteration stage s a true ++ rest → loopTarget p stage = some s →
      stage ≠ s → a = true ∨ ∃ b, .ended s b ∈ rest) :
    Done s es ∨ ∀ b, .ended s b ∉ es := by
  generalize hok : true = ok at h
  induction h with
  | done => exact Or.inr fun b hb => absurd hb List.not_mem_nil
  | stopped h => cases hok
  | @next batch batches es es' ok h hnext ih =>
    rw [List.flatten_cons, List.mem_append, not_or] at hs
    have hrest := ih hs.2 (fun pre stage a rest he ht hne => hloops (es ++ pre) stage a rest (by simp [he]) ht hne) hok
    rcases hrest with hdone | habsent
    · exact Or.inl hdone.append_left
    · rcases batchRun_other h hs.1 with hother | ⟨stage, es₁, a, rfl, htarget, rfl, -⟩
      · refine Or.inr fun b hb => ?_
        exact (List.mem_append.mp hb).elim (fun h => hother _ h rfl) (habsent b)
      · have hne : stage ≠ s := fun he => hs.1 (he ▸ List.mem_singleton_self _)
        rcases hloops es₁ stage a es' rfl htarget hne with rfl | ⟨b, hb⟩
        · refine Or.inl (Done.append_right ⟨es₁ ++ [.looped stage s, .began s], [.began stage, .ended stage true],
            by simp [iteration], by simp [Ne.symm hne]⟩ habsent)
        · exact absurd hb (habsent b)

/-- The later batches leave two earlier stages alone, or the first begins there after the second has ended. -/
theorem after_or_absent (h : Run p batches es true) (hs : s ∉ batches.flatten) (hdep : dep ∉ batches.flatten)
    (hne : dep ≠ s) (hloops : ∀ pre stage a rest, es = pre ++ iteration stage dep a true ++ rest → stage ≠ s →
      stage ≠ dep → .began s ∈ rest) :
    After s dep es ∨ .began s ∉ es ∧ ∀ b, .ended dep b ∉ es := by
  generalize hok : true = ok at h
  induction h with
  | done => exact Or.inr ⟨List.not_mem_nil, fun b => List.not_mem_nil⟩
  | stopped h => cases hok
  | @next batch batches es es' ok h hnext ih =>
    rw [List.flatten_cons, List.mem_append, not_or] at hs hdep
    have hrest := ih hs.2 hdep.2
      (fun pre stage a rest he h₁ h₂ => hloops (es ++ pre) stage a rest (by simp [he]) h₁ h₂) hok
    rcases hrest with hafter | ⟨hbegan, hended⟩
    · exact Or.inl hafter.append_left
    · -- nothing of the two in the rest: `dep` is no target of this batch
      have hdepes : ∀ e ∈ es, e.stage ≠ dep := by
        rcases batchRun_other h hdep.1 with hother | ⟨stage, es₁, a, rfl, -, rfl, -⟩
        · exact hother
        · have hstage : stage ≠ s := fun he => hs.1 (he ▸ List.mem_singleton_self _)
          have hstage' : stage ≠ dep := fun he => hdep.1 (he ▸ List.mem_singleton_self _)
          exact absurd (hloops es₁ stage a es' rfl hstage hstage') hbegan
      rcases batchRun_other h hs.1 with hother | ⟨stage, es₁, a, rfl, -, rfl, -⟩
      · refine Or.inr ⟨fun hb => ?_, fun b hb => ?_⟩
        · exact (List.mem_append.mp hb).elim (fun h => hother _ h rfl) hbegan
        · exact (List.mem_append.mp hb).elim (fun h => hdepes _ h rfl) (hended b)
      · have hstage : stage ≠ s := fun he => hs.1 (he ▸ List.mem_singleton_self _)
        have hstage' : stage ≠ dep := fun he => hdep.1 (he ▸ List.mem_singleton_self _)
        refine Or.inl (After.append_right ⟨es₁ ++ [.looped stage s],
          [.ended s a, .began stage, .ended stage true], by simp [iteration], ?_, ?_⟩ hbegan hended)
        · simpa using Ne.symm hstage
        · simp [hne, Ne.symm hstage']

/-- The run of a batch in the run of all. -/
theorem run_split {before after : List (List Stage)} (h : Run p (before ++ batch :: after) es true) :
    ∃ es₁ e es₂, es = es₁ ++ e ++ es₂ ∧ Run p before es₁ true ∧ BatchRun p batch e true ∧ Run p after es₂ true := by
  induction before generalizing es with
  | nil =>
    generalize hok : true = ok at h
    cases h with
    | stopped h => cases hok
    | next h hnext =>
      cases hok
      exact ⟨[], _, _, rfl, .done, h, hnext⟩
  | cons b before ih =>
    generalize hok : true = ok at h
    cases h with
    | stopped h => cases hok
    | next h hnext =>
      cases hok
      obtain ⟨es₁, e, es₂, rfl, h₁, h₂, h₃⟩ := ih hnext
      exact ⟨_ ++ es₁, e, es₂, by simp, .next h h₁, h₂, h₃⟩

/-! ## The whole pipeline -/

/-- A stage is in one batch. -/
theorem not_mem_of_split {before after : List (List Stage)} (h : p.topologicalOrder = before ++ batch :: after)
    (hs : s ∈ batch) : s ∉ before.flatten ∧ s ∉ after.flatten := by
  have hnodup : (p.topologicalOrder.flatten).Nodup := p.nodup_topologicalOrder.of_map
  rw [h, List.flatten_append, List.flatten_cons, List.nodup_append, List.nodup_append] at hnodup
  obtain ⟨-, ⟨-, -, hafter⟩, hbefore⟩ := hnodup
  exact ⟨fun hb => hbefore s hb s (List.mem_append_left _ hs) rfl, fun ha => hafter s hs s ha rfl⟩

theorem exists_batch (h : s ∈ p.topologicalOrder.flatten) :
    ∃ before batch after, p.topologicalOrder = before ++ batch :: after ∧ s ∈ batch := by
  obtain ⟨batch, hbatch, hs⟩ := List.mem_flatten.mp h
  obtain ⟨before, after, hsplit⟩ := List.append_of_mem hbatch
  exact ⟨before, batch, after, hsplit, hs⟩

/-- A dependency is in an earlier batch. -/
theorem dep_before {before after : List (List Stage)} (hnames : (p.stages.map Stage.name).Nodup)
    (h : p.topologicalOrder = before ++ batch :: after) (hs : s ∈ batch) (hdep : dep ∈ p.stages)
    (hdeps : dep.name ∈ s.dependsOn) : dep ∈ before.flatten := by
  obtain ⟨d, hd, hname⟩ := List.mem_map.mp (deps_before h hs dep.name hdeps)
  have hmem : d ∈ p.stages := mem_stages (by rw [h]; simp [hd])
  rwa [← List.inj_on_of_nodup_map hnames hmem hdep hname]

/-- The target of a loop is a stage of the pipeline. -/
theorem mem_of_loopTarget (h : loopTarget p stage = some target) :
    target ∈ p.stages ∧ stage.loopTo = some target.name := by
  unfold loopTarget at h
  split at h
  · rename_i name hname
    split at h
    · cases h
    · have heq := List.find?_some h
      exact ⟨List.mem_of_find?_eq_some h, by rw [hname, ← of_decide_eq_true heq]⟩
  · cases h

theorem target_of_reruns {n : Nat} (h : Reruns stage target n es ok) {s t : Stage} (hmem : .looped s t ∈ es) :
    s = stage ∧ t = target := by
  induction h with
  | spent => exact absurd hmem List.not_mem_nil
  | passed a => simpa using hmem
  | again a h ih =>
    rcases List.mem_append.mp hmem with hmem | hmem
    · simpa using hmem
    · exact ih hmem

theorem looped_of_batchRun (h : BatchRun p batch es ok) (hmem : .looped stage target ∈ es) :
    stage ∈ batch ∧ loopTarget p stage = some target := by
  rcases batchRun_cases h with ⟨s, rfl, halone⟩ | ⟨-, htogether⟩
  · cases halone with
    | passed => simp at hmem
    | failed _ => simp at hmem
    | looped htarget hes =>
      rcases List.mem_append.mp hmem with hmem | hmem
      · simp at hmem
      · obtain ⟨rfl, rfl⟩ := target_of_reruns hes hmem
        exact ⟨List.mem_singleton_self _, htarget⟩
  · obtain ⟨b, hpart, -⟩ := htogether.once stage (htogether.only _ hmem)
    have hin : Event.looped stage target ∈ part Event.stage stage es :=
      List.mem_filter.mpr ⟨hmem, by simp [Event.stage]⟩
    rw [hpart] at hin
    simp at hin

/-- A stage that is looped is looped to its target. -/
theorem target_of_looped (h : Run p batches es ok) (hmem : .looped stage target ∈ es) :
    loopTarget p stage = some target := by
  induction h with
  | done => exact absurd hmem List.not_mem_nil
  | stopped h => exact (looped_of_batchRun h hmem).2
  | next h _ ih => exact (List.mem_append.mp hmem).elim (fun hmem => (looped_of_batchRun h hmem).2) ih

theorem stage_of_looped (h : Run p batches es ok) (hmem : .looped stage target ∈ es) : stage ∈ batches.flatten := by
  induction h with
  | done => exact absurd hmem List.not_mem_nil
  | stopped h => exact List.mem_append_left _ (looped_of_batchRun h hmem).1
  | next h _ ih =>
    exact (List.mem_append.mp hmem).elim (fun hmem => List.mem_append_left _ (looped_of_batchRun h hmem).1)
      fun hmem => List.mem_append_right _ (ih hmem)

/-- The last element with a property. -/
theorem last_unique {A : Type} {q : A → Prop} {a b : A} {l₁ l₂ m₁ m₂ : List A} (h : l₁ ++ a :: l₂ = m₁ ++ b :: m₂)
    (ha : q a) (hb : q b) (hl : ∀ e ∈ l₂, ¬ q e) (hm : ∀ e ∈ m₂, ¬ q e) : a = b := by
  rcases List.append_eq_append_iff.mp h with ⟨c, -, hc⟩ | ⟨c, -, hc⟩
  · cases c with
    | nil => exact (List.cons.inj hc).1
    | cons x c =>
      obtain ⟨-, rfl⟩ := List.cons.inj hc
      exact absurd hb (hl b (by simp))
  · cases c with
    | nil => exact (List.cons.inj hc).1.symm
    | cons x c =>
      obtain ⟨-, rfl⟩ := List.cons.inj hc
      exact absurd ha (hm a (by simp))

/-- **Completion.** A completed pipeline really completed exactly when its loops mend. -/
theorem really_completed_iff {u : Unicode} {input_data : Input} {l : List (Entry sig)} {pr : PipelineResult}
    (hnames : (p.stages.map Stage.name).Nodup) (h : (execute u p input_data).Goes l (.ok pr))
    (hcompleted : pr.status = .completed) : ReallyCompleted p (events l) ↔ LoopsMend p (events l) := by
  obtain ⟨hvalid, ok, hrun, hstatus⟩ := run_of_goes h
  have hok : ok = true := by
    cases ok with
    | true => rfl
    | false => rw [hcompleted] at hstatus; cases hstatus
  subst hok
  have hself : ∀ s ∈ p.stages, s.name ∉ s.dependsOn := by
    intro s hs hdep
    obtain ⟨before, batch, after, hsplit, hmem⟩ := exists_batch (mem_topologicalOrder hnames hvalid hs)
    exact (not_mem_of_split hsplit hmem).1 (dep_before hnames hsplit hmem hs hdep)
  constructor
  · intro hreally pre stage target a rest hes hne
    have htarget : target ∈ p.stages := by
      refine (@mem_of_loopTarget _ stage _ (target_of_looped hrun ?_)).1
      rw [hes]
      simp [iteration]
    have hsplit : events l = (pre ++ [.looped stage target, .began target]) ++
        .ended target a :: ([.began stage, .ended stage true] ++ rest) := by
      rw [hes]
      simp [iteration]
    constructor
    · by_contra hnot
      rw [not_or, not_exists] at hnot
      obtain ⟨es₁, es₂, hdone, hlast⟩ := (hreally target htarget).1
      have hend := last_unique (q := fun e => ∃ b, e = .ended target b) (hdone.symm.trans hsplit) ⟨_, rfl⟩ ⟨_, rfl⟩
        (fun e he ⟨b, hb⟩ => hlast b (hb ▸ he)) fun e he ⟨b, hb⟩ => by
          subst hb
          simp [hnot.2 b, hne] at he
      cases hend
      exact hnot.1 rfl
    · intro s hs hdeps hstage
      obtain ⟨es₁, es₂, hafter, hbegan, hended⟩ := (hreally s hs).2 target htarget hdeps
      have hst : s ≠ target := fun he => hself s hs (he ▸ hdeps)
      rw [hafter, List.append_cons] at hsplit
      rcases List.append_eq_append_iff.mp hsplit with ⟨c, hc, hc'⟩ | ⟨c, hc, hc'⟩
      · -- the last beginning of `s` before the re-run of its dependency
        exact absurd (hc' ▸ List.mem_append_right _ List.mem_cons_self) (hended a)
      · cases c with
        | nil =>
          rw [List.nil_append] at hc'
          exact absurd (hc' ▸ List.mem_cons_self) (hended a)
        | cons x c =>
          obtain ⟨rfl, hrest⟩ := List.cons.inj hc'
          have hmem : Event.began s ∈ Event.ended target a :: c := by
            have hlast := congrArg List.getLast? hc
            rw [List.getLast?_concat, List.getLast?_append_of_ne_nil _ (List.cons_ne_nil _ _)] at hlast
            exact List.mem_of_getLast? hlast.symm
          have hin : Event.began s ∈ [.began stage, .ended stage true] ++ rest :=
            hrest ▸ List.mem_append_left _ ((List.mem_cons.mp hmem).resolve_left (by simp))
          simpa [hstage] using hin
  · intro hmend s hs
    obtain ⟨before, batch, after, hsplit, hmem⟩ := exists_batch (mem_topologicalOrder hnames hvalid hs)
    obtain ⟨hnotbefore, hnotafter⟩ := not_mem_of_split hsplit hmem
    rw [hsplit] at hrun
    obtain ⟨es₁, e, es₂, hevents, -, hbatch, hafter⟩ := run_split hrun
    rw [hevents] at hmend ⊢
    obtain ⟨hdone, hown⟩ := batchRun_own hbatch hmem
    constructor
    · have hloops : ∀ pre stage a rest, es₂ = pre ++ iteration stage s a true ++ rest → loopTarget p stage = some s →
          stage ≠ s → a = true ∨ ∃ b, .ended s b ∈ rest := fun pre stage a rest he _ hne =>
        (hmend (es₁ ++ e ++ pre) stage s a rest (by simp [he]) (Ne.symm hne)).1
      rcases done_or_absent hafter hnotafter hloops with hdone' | habsent
      · exact hdone'.append_left
      · exact hdone.append_left.append_right habsent
    · intro dep hdep hdeps
      have hdepbefore := dep_before hnames hsplit hmem hdep hdeps
      obtain ⟨b, c, d, hsplit', hmem'⟩ := exists_batch (mem_topologicalOrder hnames hvalid hdep)
      have hnodup : (p.topologicalOrder.flatten).Nodup := p.nodup_topologicalOrder.of_map
      rw [hsplit, List.flatten_append, List.flatten_cons, List.nodup_append] at hnodup
      have hdepbatch : dep ∉ batch := fun hb => hnodup.2.2 dep hdepbefore dep (List.mem_append_left _ hb) rfl
      have hdepafter : dep ∉ after.flatten := fun hb =>
        hnodup.2.2 dep hdepbefore dep (List.mem_append_right _ hb) rfl
      have hne : dep ≠ s := fun he => hdepbatch (he ▸ hmem)
      have hafterown := hown dep hdepbatch
      have hloops : ∀ pre stage a rest, es₂ = pre ++ iteration stage dep a true ++ rest → stage ≠ s → stage ≠ dep →
          .began s ∈ rest := fun pre stage a rest he hstage hstage' =>
        (hmend (es₁ ++ e ++ pre) stage dep a rest (by simp [he]) (Ne.symm hstage')).2 s hs hdeps (Ne.symm hstage)
      rcases after_or_absent hafter hnotafter hdepafter hne hloops with hafter' | ⟨hbegan, hended⟩
      · exact hafter'.append_left
      · exact hafterown.append_left.append_right hbegan hended

/-! ## A generator that fails last -/

/-- Two stages on a host of their own. -/
def generate : Stage := { name := "generate", model := "sonnet", promptTemplate := "", host := some "h" }

def verify : Stage :=
  { name := "verify", model := "haiku", promptTemplate := "", host := some "h", dependsOn := ["generate"],
    loopTo := some "generate" }

def genVerify : Pipeline := ⟨"gen_verify_loop", [generate, verify]⟩

/-- The answers to the commands of an execution and of recording its output. -/
def answers (ok : Bool) : List Answer :=
  if ok then List.replicate 6 { dispatched := .ok ⟨"d", "completed", ""⟩, recalled := .ok "" }
  else List.replicate 5 { dispatched := .ok ⟨"d", "failed", ""⟩ }

/-- The generator passes, the verifier fails; in the loop the generator fails and the verifier passes. -/
def generatorFails : Option (List (Entry sig) × Except PyError PipelineResult × Outputs) :=
  store.play 0 (execute .ascii genVerify .empty)
    (answers true ++ answers false ++ [{ pick := 0 }] ++ answers false ++ answers true)
    .empty

theorem events_generatorFails : generatorFails.map (fun q => (q.2.1.toOption.map PipelineResult.status, events q.1)) =
    some (some .completed, [.began generate, .ended generate true, .began verify, .ended verify false] ++
      iteration verify generate false true) := by
  decide +kernel

theorem exists_generatorFails : ∃ l pr s, (execute .ascii genVerify .empty).Goes l (.ok pr) ∧
    store.Plays 0 .empty l s ∧ pr.status = .completed ∧
    events l = [.began generate, .ended generate true, .began verify, .ended verify false] ++
      iteration verify generate false true := by
  obtain ⟨⟨l, r, s⟩, hq, he⟩ := Option.map_eq_some_iff.mp events_generatorFails
  obtain ⟨hstatus, hevents⟩ := Prod.mk.inj he
  rw [generatorFails] at hq
  obtain ⟨hgoes, hplays⟩ := store.goes_of_play 0 hq
  cases r with
  | error e => cases hstatus
  | ok pr => exact ⟨l, pr, s, hgoes, hplays, Option.some.inj hstatus, hevents⟩

/-- `really_completed_iff` of a run. -/
theorem really_completed_generatorFails : ∃ l pr, (execute .ascii genVerify .empty).Goes l (.ok pr) ∧
    (ReallyCompleted genVerify (events l) ↔ LoopsMend genVerify (events l)) := by
  obtain ⟨l, pr, s, hgoes, -, hstatus, -⟩ := exists_generatorFails
  exact ⟨l, pr, hgoes, really_completed_iff (by decide) hgoes hstatus⟩

/-- **A completed pipeline whose generator failed last.** -/
theorem generator_failed : ¬ ∀ (u : Unicode) (p : Pipeline) (input_data : Input) (l : List (Entry sig))
    (pr : PipelineResult) (s : Outputs), (p.stages.map Stage.name).Nodup → (execute u p input_data).Goes l (.ok pr) →
    store.Plays 0 .empty l s → pr.status = .completed → ReallyCompleted p (events l) := by
  intro h
  obtain ⟨l, pr, s, hgoes, hplays, hstatus, hevents⟩ := exists_generatorFails
  obtain ⟨es₁, es₂, hdone, hlast⟩ :=
    (h .ascii genVerify .empty l pr s (by decide) hgoes hplays hstatus generate (by decide)).1
  have heq := @last_unique _ (fun e => ∃ b, e = .ended generate b) _ (.ended generate false) _ _
    [.began generate, .ended generate true, .began verify, .ended verify false, .looped verify generate,
      .began generate]
    [.began verify, .ended verify true] (hdone.symm.trans hevents) ⟨_, rfl⟩ ⟨_, rfl⟩
    (fun e he ⟨b, hb⟩ => hlast b (hb ▸ he)) (by decide)
  cases heq

end ClaudeSwarm.Pipeline
