import ClaudeSwarm.Pipeline.Completion

/-!
# What `validate` lets through

`validate` (`src/pipeline.py`) searches for a cycle by nested calls of `has_cycle`; `validateWithin` bounds the
nesting. The interpreter's own limit of it is left out. A pipeline that passes is put into batches, in which a name
that is given twice has one stage.

* **`reports_cycle_iff`**: with distinct names the calls end, and a cycle is reported exactly where there is one.
* **`ordered_iff`**: the batches of a pipeline that passes have each of its stages once, after what it depends on,
  exactly when the names are distinct.
* `stage_vanishes`: a pipeline that passes and loses one of its stages.
-/

namespace ClaudeSwarm.Pipeline

open Data Interleave Python

variable {p : Pipeline}

/-! ## Cycles -/

/-- "Dependency cycle detected involving stage …". -/
def cycleMessage (name : String) : String := "Dependency cycle detected involving stage '" ++ name ++ "'"

/-- `validate`, or `none` where the calls of `has_cycle` are nested deeper than `depth`. -/
def validateWithin (p : Pipeline) (depth : Nat) : Option (List String) :=
  (Digraph.searchFirst p.deps depth (p.stages.map Stage.name) ⟨[], []⟩).map fun found =>
    p.unknownDeps ++ (found.map cycleMessage).toList ++ p.modelErrors

/-- A stage of the first name depends on the second. -/
def DependsOn (p : Pipeline) (a b : String) : Prop := ∃ stage ∈ p.stages, stage.name = a ∧ b ∈ stage.dependsOn

theorem cycleErrors_eq : p.cycleErrors =
    ((Digraph.firstCycle p.deps (p.stages.length + 1) (p.stages.map Stage.name) ⟨[], []⟩).map cycleMessage).toList := by
  unfold cycleErrors
  split
  · rename_i name h
    rw [h]
    rfl
  · rename_i h
    rw [h]
    rfl

/-- What has dependencies is a stage's name. -/
theorem mem_names_of_deps {name : String} (h : p.deps name ≠ []) : name ∈ p.stages.map Stage.name := by
  rw [← mem_keys_depsMap, Dict.mem_keys_iff]
  cases hget : p.depsMap.get? name with
  | none => exact absurd (by rw [deps, hget]; rfl) h
  | some ds => exact ⟨ds, rfl⟩

/-- With distinct names the graph searched is that of the stages. -/
theorem mem_deps_iff (hdistinct : (p.stages.map Stage.name).Nodup) {a b : String} :
    b ∈ p.deps a ↔ p.DependsOn a b := by
  constructor
  · intro h
    obtain ⟨stage, hstage⟩ := exists_stage (mem_keys_depsMap.mpr (mem_names_of_deps (List.ne_nil_of_mem h)))
    refine ⟨stage, (get?_nameToStage hstage).1, (get?_nameToStage hstage).2, ?_⟩
    rwa [deps_of_stage hstage] at h
  · rintro ⟨stage, hmem, rfl, hdep⟩
    obtain ⟨stage', hstage⟩ := exists_stage (mem_keys_depsMap.mpr (List.mem_map_of_mem hmem))
    obtain ⟨hmem', hname⟩ := get?_nameToStage hstage
    rw [deps_of_stage hstage, List.inj_on_of_nodup_map hdistinct hmem' hmem hname]
    exact hdep

/-- The messages about cycles are those that say so. -/
theorem cycleMessage_mem_iff {name : String} : cycleMessage name ∈ p.validate ↔ cycleMessage name ∈ p.cycleErrors := by
  have hne : ∀ a b : String, cycleMessage a ≠ "Stage '" ++ b := by
    intro a b he
    have hcycle : (cycleMessage a).toList.head? = some 'D' := by
      unfold cycleMessage
      simp
    have hstage : ("Stage '" ++ b).toList.head? = some 'S' := by simp
    rw [he, hstage] at hcycle
    cases hcycle
  unfold validate
  rw [List.mem_append, List.mem_append]
  constructor
  · rintro ((hunknown | hcycle) | hmodel)
    · simp only [unknownDeps, List.mem_flatMap, List.mem_map] at hunknown
      obtain ⟨stage, -, dep, -, he⟩ := hunknown
      simp only [String.append_assoc] at he
      exact absurd he.symm (hne name _)
    · exact hcycle
    · simp only [modelErrors, List.mem_map] at hmodel
      obtain ⟨stage, -, he⟩ := hmodel
      simp only [String.append_assoc] at he
      exact absurd he.symm (hne name _)
  · exact fun h => Or.inl (Or.inr h)

/-- **Cycle detection is exact.** -/
theorem reports_cycle_iff (p : Pipeline) (hdistinct : (p.stages.map Stage.name).Nodup) :
    (∀ depth, p.stages.length < depth → p.validateWithin depth = some p.validate) ∧
      ((∃ name, cycleMessage name ∈ p.validate) ↔ ∃ name, Relation.TransGen p.DependsOn name name) := by
  have hkeys : ∀ k, p.deps k ≠ [] → k ∈ p.stages.map Stage.name := fun k => mem_names_of_deps
  have hlength : ∀ {depth}, p.stages.length < depth → (p.stages.map Stage.name).length < depth := by simp
  constructor
  · intro depth hdepth
    have hunvisited : Digraph.unvisited (p.stages.map Stage.name) [] < p.stages.length + 1 :=
      Digraph.unvisited_lt (hlength (Nat.lt_succ_self _))
    have hstable := @Digraph.firstCycle_stable _ _ _ _ hkeys (p.stages.map Stage.name) ⟨[], []⟩ _ _ hunvisited hdepth
    rw [validateWithin, Digraph.searchFirst_eq hkeys (Digraph.unvisited_lt (hlength hdepth)), hstable, Option.map_some,
      validate, cycleErrors_eq]
  · have hedge : Digraph.Edge p.deps = p.DependsOn := by
      funext a b
      exact propext (mem_deps_iff hdistinct)
    have hnone := Digraph.firstCycle_eq_none_iff hkeys (hlength (Nat.lt_succ_self p.stages.length))
    rw [hedge] at hnone
    have hfound : (∃ name, cycleMessage name ∈ p.validate) ↔
        Digraph.firstCycle p.deps (p.stages.length + 1) (p.stages.map Stage.name) ⟨[], []⟩ ≠ none := by
      simp only [cycleMessage_mem_iff, cycleErrors_eq]
      cases Digraph.firstCycle p.deps (p.stages.length + 1) (p.stages.map Stage.name) ⟨[], []⟩ with
      | none => simp
      | some name => simp
    rw [hfound, ne_eq, hnone, not_forall_not]

/-- Two stages that depend on each other, and a third on itself and on what is not there. -/
def knot : Pipeline :=
  ⟨"knot", [{ name := "a", model := "opus", promptTemplate := "", dependsOn := ["b", "b"] },
    { name := "b", model := "opus", promptTemplate := "", dependsOn := ["a"] },
    { name := "c", model := "opus", promptTemplate := "", dependsOn := ["c", "d"] }]⟩

theorem reports_cycle_knot : ∃ name, Relation.TransGen knot.DependsOn name name :=
  (reports_cycle_iff knot (by decide)).2.mp ⟨"a", by decide⟩

/-! ## Batches -/

/-- `topological_order`, at most `rounds` times around its loop. -/
def topologicalOrderWithin (p : Pipeline) (rounds : Nat) : List (List Stage) :=
  (Digraph.layers p.deps p.depsMap.keys p.stages.length rounds []).map fun ready =>
    ready.filterMap p.nameToStage.get?

/-- The batches end, have every stage once and after what it depends on, and a run that completes runs them all. -/
structure Ordered (p : Pipeline) : Prop where
  ends : ∀ rounds, p.stages.length ≤ rounds → p.topologicalOrderWithin rounds = p.topologicalOrder
  once : p.topologicalOrder.flatten.Perm p.stages
  after : ∀ before batch rest, p.topologicalOrder = before ++ batch :: rest → ∀ stage ∈ batch,
    ∀ dep ∈ p.stages, dep.name ∈ stage.dependsOn → dep ∈ before.flatten
  run : ∀ (u : Unicode) (input_data : Input) (l : List (Entry sig)) (pr : PipelineResult),
    (execute u p input_data).Goes l (.ok pr) → pr.status = .completed →
      ∀ stage ∈ p.stages, .ended stage true ∈ events l

theorem ends_topologicalOrder {rounds : Nat} (h : p.stages.length ≤ rounds) :
    p.topologicalOrderWithin rounds = p.topologicalOrder := by
  induction h with
  | refl => rfl
  | step h ih => rw [← ih, topologicalOrderWithin, Digraph.layers_stable (by simpa using h), topologicalOrderWithin]

/-- In a run that completes, so does every stage of the batches. -/
theorem ended_of_completed {u : Unicode} {input_data : Input} {l : List (Entry sig)} {pr : PipelineResult}
    (h : (execute u p input_data).Goes l (.ok pr)) (hcompleted : pr.status = .completed) {stage : Stage}
    (hstage : stage ∈ p.topologicalOrder.flatten) : .ended stage true ∈ events l := by
  obtain ⟨-, ok, hrun, hstatus⟩ := run_of_goes h
  have hok : ok = true := by
    cases ok with
    | true => rfl
    | false => cases hstatus.symm.trans hcompleted
  subst hok
  obtain ⟨before, batch, rest, hsplit, hmem⟩ := exists_batch hstage
  rw [hsplit] at hrun
  obtain ⟨es₁, e, es₂, he, -, hbatch, -⟩ := run_split hrun
  obtain ⟨⟨before', after, hdone, -⟩, -⟩ := batchRun_own hbatch hmem
  rw [he, hdone]
  simp

/-- **Fully ordered.** -/
theorem ordered_iff (p : Pipeline) (hvalid : p.validate = []) :
    p.Ordered ↔ (p.stages.map Stage.name).Nodup := by
  constructor
  · intro h
    exact (h.once.map Stage.name).nodup_iff.mp nodup_topologicalOrder
  · intro hdistinct
    refine ⟨fun rounds => ends_topologicalOrder, ?_, ?_, ?_⟩
    · refine (List.perm_ext_iff_of_nodup nodup_topologicalOrder.of_map hdistinct.of_map).mpr fun stage => ?_
      exact ⟨mem_stages, mem_topologicalOrder hdistinct hvalid⟩
    · exact fun before batch rest hsplit stage hs dep hdep hdeps => dep_before hdistinct hsplit hs hdep hdeps
    · exact fun u input_data l pr h hcompleted stage hs =>
        ended_of_completed h hcompleted (mem_topologicalOrder hdistinct hvalid hs)

theorem ordered_genVerify : genVerify.Ordered := (ordered_iff genVerify (by decide)).mpr (by decide)

/-- Two stages of one name. -/
def reviews : Pipeline :=
  ⟨"reviews", [{ name := "review", model := "opus", promptTemplate := "{input}" },
    { name := "review", model := "haiku", promptTemplate := "{input}" }]⟩

/-- **A pipeline that passes and never runs its first stage.** -/
theorem stage_vanishes : ¬ ∀ p : Pipeline, p.validate = [] → p.Ordered := by
  intro h
  have hlength := (h reviews (by decide)).once.length_eq
  exact absurd hlength (by decide)

end ClaudeSwarm.Pipeline
