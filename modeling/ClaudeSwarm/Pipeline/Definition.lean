import ClaudeSwarm.Data.Dict
import ClaudeSwarm.Data.Digraph

/-!
# Pipelines

Model of `PipelineStage`, `Pipeline.validate` and `Pipeline.topological_order` (`src/pipeline.py`). A stage name
that is given twice stands in `deps_map` and `name_to_stage` for the stage given last.

* `deps_before`: a stage's dependencies are in earlier batches.
* **`mem_topologicalOrder`**: where the names are distinct and `validate` has no errors, every stage is in a batch.
-/

namespace ClaudeSwarm.Pipeline

/-- `PipelineStage`, but for its role. -/
structure Stage where
  name : String
  model : String
  promptTemplate : String
  host : Option String := none
  requires : List String := []
  dependsOn : List String := []
  timeoutMinutes : Int := 30
  loopTo : Option String := none
  maxIterations : Int := 3
  successPattern : Option String := none
  deriving DecidableEq

end Pipeline

/-- `Pipeline`, but for its description. -/
structure Pipeline where
  name : String
  stages : List Pipeline.Stage

namespace Pipeline

open Data

variable (p : Pipeline)

/-- `deps_map`. -/
def depsMap : Dict String (List String) := .ofList (p.stages.map fun s => (s.name, s.dependsOn))

/-- `deps_map.get(name, [])`. -/
def deps (name : String) : List String := (p.depsMap.get? name).getD []

/-- `name_to_stage`. -/
def nameToStage : Dict String Stage := .ofList (p.stages.map fun s => (s.name, s))

/-- `valid_models`, and its text when sorted. -/
def validModels : List String := ["opus", "sonnet", "haiku"]

/-- "Check depends_on references exist". -/
def unknownDeps : List String :=
  p.stages.flatMap fun stage =>
    (stage.dependsOn.filter fun dep => dep ∉ p.stages.map Stage.name).map fun dep =>
      "Stage '" ++ stage.name ++ "' depends on unknown stage '" ++ dep ++ "'"

/-- "Cycle detection via DFS". -/
def cycleErrors : List String :=
  match Digraph.firstCycle p.deps (p.stages.length + 1) (p.stages.map Stage.name) ⟨[], []⟩ with
  | some name => ["Dependency cycle detected involving stage '" ++ name ++ "'"]
  | none => []

/-- "Validate model names". -/
def modelErrors : List String :=
  (p.stages.filter fun stage => stage.model ∉ validModels).map fun stage =>
    "Stage '" ++ stage.name ++ "' has invalid model '" ++ stage.model
      ++ "'. Must be one of: ['haiku', 'opus', 'sonnet']"

/-- `validate`. -/
def validate : List String := p.unknownDeps ++ p.cycleErrors ++ p.modelErrors

/-- `topological_order`. -/
def topologicalOrder : List (List Stage) :=
  (Digraph.layers p.deps p.depsMap.keys p.stages.length p.stages.length []).map fun ready =>
    ready.filterMap p.nameToStage.get?

/-! ## The batches -/

variable {p}

theorem mem_keys_depsMap {name : String} : name ∈ p.depsMap.keys ↔ name ∈ p.stages.map Stage.name := by
  rw [depsMap, Dict.mem_keys_ofList, List.map_map]
  rfl

/-- The stage of a name has that name. -/
theorem get?_nameToStage {name : String} {stage : Stage} (h : p.nameToStage.get? name = some stage) :
    stage ∈ p.stages ∧ stage.name = name := by
  obtain ⟨s, hs, he⟩ := List.mem_map.mp (Dict.mem_of_get?_ofList h)
  cases he
  exact ⟨hs, rfl⟩

theorem exists_stage {name : String} (h : name ∈ p.depsMap.keys) :
    ∃ stage, p.nameToStage.get? name = some stage := by
  rw [← Dict.mem_keys_iff, nameToStage, Dict.mem_keys_ofList, List.map_map]
  exact mem_keys_depsMap.mp h

/-- The names of a batch are the keys that were ready. -/
theorem map_name_filterMap : ∀ {ready : List String}, ready ⊆ p.depsMap.keys →
    (ready.filterMap p.nameToStage.get?).map Stage.name = ready
  | [], _ => rfl
  | name :: ready, h => by
    obtain ⟨stage, hs⟩ := exists_stage (h List.mem_cons_self)
    rw [List.filterMap_cons_some hs, List.map_cons, (get?_nameToStage hs).2,
      map_name_filterMap fun a ha => h (List.mem_cons_of_mem _ ha)]

/-- The names of the batches are the layers. -/
theorem names_topologicalOrder : p.topologicalOrder.map (fun batch => batch.map Stage.name) =
    Digraph.layers p.deps p.depsMap.keys p.stages.length p.stages.length [] := by
  unfold topologicalOrder
  rw [List.map_map]
  conv_rhs => rw [← List.map_id (Digraph.layers _ _ _ _ _)]
  refine List.map_congr_left fun ready hready => map_name_filterMap fun name hname => ?_
  obtain ⟨before, after, hsplit⟩ := List.append_of_mem hready
  exact (Digraph.deps_of_layers hsplit name hname).1

theorem names_flatten (batches : List (List Stage)) :
    batches.flatten.map Stage.name = (batches.map fun batch => batch.map Stage.name).flatten := by
  rw [List.map_flatten]

theorem mem_stages {stage : Stage} (h : stage ∈ p.topologicalOrder.flatten) : stage ∈ p.stages := by
  obtain ⟨batch, hbatch, hmem⟩ := List.mem_flatten.mp h
  obtain ⟨ready, -, rfl⟩ := List.mem_map.mp hbatch
  obtain ⟨name, -, hs⟩ := List.mem_filterMap.mp hmem
  exact (get?_nameToStage hs).1

/-- No name is in the batches twice. -/
theorem nodup_topologicalOrder : (p.topologicalOrder.flatten.map Stage.name).Nodup := by
  rw [names_flatten, names_topologicalOrder]
  exact Digraph.nodup_layers p.depsMap.nodup

/-- What a name depends on is what its stage does. -/
theorem deps_of_stage {name : String} {stage : Stage} (h : p.nameToStage.get? name = some stage) :
    p.deps name = stage.dependsOn := by
  have hmap := Dict.get?_ofList_map Stage.dependsOn (p.stages.map fun s => (s.name, s)) name
  rw [List.map_map] at hmap
  have hdeps : p.depsMap.get? name = some stage.dependsOn :=
    hmap.trans (congrArg (Option.map Stage.dependsOn) h)
  rw [deps, hdeps, Option.getD_some]

/-- The stages of a batch have what their name stands for. -/
theorem deps_eq {stage : Stage} (h : stage ∈ p.topologicalOrder.flatten) :
    p.deps stage.name = stage.dependsOn := by
  obtain ⟨batch, hbatch, hmem⟩ := List.mem_flatten.mp h
  obtain ⟨ready, -, rfl⟩ := List.mem_map.mp hbatch
  obtain ⟨name, -, hs⟩ := List.mem_filterMap.mp hmem
  rw [(get?_nameToStage hs).2, deps_of_stage hs]

/-- **Order.** What a stage depends on is in the batches before its own. -/
theorem deps_before {before after : List (List Stage)} {batch : List Stage}
    (h : p.topologicalOrder = before ++ batch :: after) {stage : Stage} (hs : stage ∈ batch) :
    ∀ dep ∈ stage.dependsOn, dep ∈ before.flatten.map Stage.name := by
  have hnames := names_topologicalOrder (p := p)
  rw [h, List.map_append, List.map_cons] at hnames
  have hdeps := (Digraph.deps_of_layers hnames.symm stage.name (List.mem_map_of_mem hs)).2.2
  rw [deps_eq (by rw [h]; simp [hs]), List.nil_append, ← names_flatten] at hdeps
  exact hdeps

/-- **Coverage.** With distinct names and no errors every stage is in a batch. -/
theorem mem_topologicalOrder (hdistinct : (p.stages.map Stage.name).Nodup) (hvalid : p.validate = [])
    {stage : Stage} (h : stage ∈ p.stages) : stage ∈ p.topologicalOrder.flatten := by
  rw [validate, List.append_eq_nil_iff, List.append_eq_nil_iff] at hvalid
  obtain ⟨⟨hunknown, hcycle⟩, -⟩ := hvalid
  have hdeps : ∀ k ∈ p.depsMap.keys, ∀ d ∈ p.deps k, d ∈ p.depsMap.keys := by
    intro k hk d hd
    obtain ⟨ds, hds⟩ := Dict.mem_keys_iff.mp hk
    rw [deps, hds, Option.getD_some] at hd
    obtain ⟨s, hs, he⟩ := List.mem_map.mp (Dict.mem_of_get?_ofList hds)
    cases he
    by_contra hnot
    have hnone := List.flatMap_eq_nil_iff.mp hunknown s hs
    rw [List.map_eq_nil_iff, List.filter_eq_nil_iff] at hnone
    exact hnone d hd (by simpa [mem_keys_depsMap] using hnot)
  have hfirst : Digraph.firstCycle p.deps (p.stages.length + 1) (p.stages.map Stage.name) ⟨[], []⟩ = none := by
    unfold cycleErrors at hcycle
    split at hcycle
    · cases hcycle
    · assumption
  obtain ⟨order, hpost, -, horder⟩ := Digraph.firstCycle_spec hfirst trivial
  have hsize : p.depsMap.keys.length ≤ p.stages.length := by
    have hle : p.depsMap.keys.length ≤ (p.stages.map Stage.name).length :=
      p.depsMap.nodup.length_le_of_subset fun k hk => mem_keys_depsMap.mp hk
    rwa [List.length_map] at hle
  have hnodup : p.depsMap.keys.Nodup := p.depsMap.nodup
  have hmem := Digraph.mem_layers hnodup hsize hdeps hpost (fun k hk => horder k (mem_keys_depsMap.mp hk))
    List.nodup_nil (List.nil_subset _) (Nat.le_trans (List.length_filter_le _ _) hsize) stage.name
    (mem_keys_depsMap.mpr (List.mem_map_of_mem h))
  rw [List.nil_append, ← names_topologicalOrder, ← names_flatten] at hmem
  obtain ⟨s, hs, hname⟩ := List.mem_map.mp hmem
  rwa [← List.inj_on_of_nodup_map hdistinct (mem_stages hs) h hname]

end Pipeline

end ClaudeSwarm
