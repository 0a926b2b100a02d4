import ClaudeSwarm.Gpu.Inventory
import ClaudeSwarm.Interleave.Outline

/-!
# The GPU scheduler

Model of `GpuScheduler.schedule` and what it calls (`src/gpu_scheduler_v2.py`), over the functions of
`src/gpu_discovery.py` it imports (`Api`). These run as single SQL statements in `Discovery.lean`
and as atomic steps in `Contention.lean`; `schedule` is the same text over both.

* `_last_refresh` of the scheduler object is an argument of the call, of which nothing is assumed.
* `by_host` is a dictionary in insertion order: an association list.
* `Text` are the text built-ins on which nothing here depends.
-/

namespace ClaudeSwarm.Gpu

open Interleave
open Python (Time PyError)

/-- `str.upper`, and the text of a list of strings. -/
structure Text where
  upper : String → String
  repr : List String → String

/-- `Text` on lists of plain names. -/
def ascii : Text where
  upper s := s.map Char.toUpper
  repr l := "[" ++ ", ".intercalate (l.map fun s => "'" ++ s ++ "'") ++ "]"

/-- `HostGpuInventory`. -/
structure HostGpuInventory where
  host : String
  gpus : List GpuInfo
  reachable : Bool
  error : Option String

/-- `DEFAULT_GPU_HOSTS`. -/
def defaultGpuHosts : List String :=
  ["node_gpu", "node_reserve1", "node_reserve2", "node_mongo", "node_primary"]

/-- `MODEL_VRAM_REQUIREMENTS`. -/
def modelVramRequirements : List (String × Int) :=
  [("qwen3:8b", 6000), ("qwen3:14b", 10000), ("qwen3:32b", 20000), ("devstral:latest", 14000),
    ("deepseek-r1:32b", 20000), ("llama3.3:70b", 42000), ("project-a-14b", 10000),
    ("nomic-embed-text", 1000)]

/-- The functions of `gpu_discovery` the scheduler calls. -/
structure Api (S : Sig) where
  time : Prog S PyError Time
  probeHost : String → Prog S PyError HostGpuInventory
  saveInventory : List HostGpuInventory → Prog S PyError Unit
  getAvailableGpus : Int → List String → Prog S PyError (List GpuInfo)
  allocateGpu : String → Int → String → String → Int → Prog S PyError Bool
  releaseGpu : String → Int → Prog S PyError Unit

/-- The rows `save_inventory` writes. -/
def savedRows (inventories : List HostGpuInventory) : List GpuInfo :=
  (inventories.filter fun inv => inv.reachable ∧ (inv.error.getD "") = "").flatMap
    HostGpuInventory.gpus

/-- The GPUs of hosts that are not excluded. -/
def admitted (T : Text) (exclude_hosts : List String) (gpus : List GpuInfo) : List GpuInfo :=
  gpus.filter fun g => T.upper g.host ∉ exclude_hosts.map T.upper

/-- `ScheduleResult`. -/
structure ScheduleResult where
  success : Bool
  host : Option String := none
  gpuIndices : List Int := []
  modelName : Option String := none
  vramAllocatedMb : Int := 0
  reason : String := ""
  deriving DecidableEq

/-- The fields of a `GpuScheduler`. -/
structure Scheduler where
  excludeHosts : List String
  autoRefreshInterval : Int
  lastRefresh : Time
  deriving DecidableEq

/-- The arguments of `schedule`. -/
structure Request where
  taskId : String
  modelName : String
  requiredVramMb : Int
  preferHost : String
  deriving DecidableEq

/-- The VRAM requirement `schedule` determines. -/
def Request.vram (q : Request) : Int :=
  let required :=
    if q.requiredVramMb ≤ 0 ∧ q.modelName ≠ "" then
      (modelVramRequirements.lookup q.modelName).getD 8000
    else q.requiredVramMb
  if required ≤ 0 then 8000 else required

theorem Request.vram_pos (q : Request) : 0 < q.vram := by
  unfold Request.vram
  simp only
  split
  · omega
  · omega

/-- `by_host.setdefault(gpu.host, []).append(gpu)`. -/
def addTo (by_host : List (String × List GpuInfo)) (gpu : GpuInfo) : List (String × List GpuInfo) :=
  if by_host.any (fun p => p.1 = gpu.host) then
    by_host.map fun p => if p.1 = gpu.host then (p.1, p.2 ++ [gpu]) else p
  else by_host ++ [(gpu.host, [gpu])]

/-- The GPUs of each host, hosts in the order in which they first occur. -/
def byHost (gpus : List GpuInfo) : List (String × List GpuInfo) := gpus.foldl addTo []

/-- `sum(g.vram_free_mb for g in gpus)`. -/
def freeSum (gpus : List GpuInfo) : Int := (gpus.map GpuInfo.vramFreeMb).sum

/-- A host with two GPUs or more whose combined free VRAM meets the requirement. -/
def Fits (required_vram_mb : Int) (gpus : List GpuInfo) : Prop :=
  required_vram_mb ≤ freeSum gpus ∧ 2 ≤ gpus.length

instance (v : Int) (gpus : List GpuInfo) : Decidable (Fits v gpus) :=
  inferInstanceAs (Decidable (_ ∧ _))

section

variable {S : Sig} (A : Api S) (T : Text) (self : Scheduler) (q : Request)

/-- The hosts of `discover_fleet` that are not excluded. -/
def fleet (exclude_hosts : List String) : List String :=
  defaultGpuHosts.filter fun host => T.upper host ∉ exclude_hosts.map T.upper

/-- Probe one host after the other. -/
def probeAll : List String → Prog S PyError (List HostGpuInventory)
  | [] => return []
  | host :: hosts => do
    let inv ← A.probeHost host
    let invs ← probeAll hosts
    return inv :: invs

/-- `discover_fleet`. -/
def discoverFleet (exclude_hosts : List String) : Prog S PyError (List HostGpuInventory) :=
  probeAll A (fleet T exclude_hosts)

/-- `refresh_inventory`. -/
def refreshInventory : Prog S PyError Unit := do
  let now ← A.time
  if now - self.lastRefresh < self.autoRefreshInterval then return ()
  else do
    let inventories ← discoverFleet A T self.excludeHosts
    A.saveInventory inventories

/-- The allocation of one GPU in full, and the result it gives. -/
def allocateOne (gpu : GpuInfo) (reason : String) : Prog S PyError (Option ScheduleResult) := do
  if ← A.allocateGpu gpu.host gpu.gpuIndex q.taskId q.modelName q.vram then
    return some {
      success := true, host := some gpu.host, gpuIndices := [gpu.gpuIndex]
      modelName := some q.modelName, vramAllocatedMb := q.vram, reason }
  else return none

/-- "Try preferred host first". -/
def tryPreferred : Prog S PyError (Option ScheduleResult) :=
  if q.preferHost ≠ "" then do
    let available ← A.getAvailableGpus q.vram self.excludeHosts
    let preferred := available.filter fun g => T.upper g.host = T.upper q.preferHost
    match preferred with
    | [] => return none
    | gpu :: _ => allocateOne A q gpu ("Allocated on preferred host " ++ gpu.host)
  else return none

/-- `available.sort(key=lambda g: g.vram_free_mb)`. -/
def tightest (available : List GpuInfo) : List GpuInfo :=
  available.insertionSort fun a b => a.vramFreeMb ≤ b.vramFreeMb

/-- "Find best GPU across fleet". -/
def tryBestFit : Prog S PyError (Option ScheduleResult) := do
  let available ← A.getAvailableGpus q.vram self.excludeHosts
  match tightest available with
  | [] => return none
  | gpu :: _ =>
    allocateOne A q gpu ("Best-fit allocation on " ++ gpu.host ++ " GPU " ++ toString gpu.gpuIndex
      ++ " (" ++ toString gpu.vramFreeMb ++ "MB free)")

/-- "Allocate all GPUs on this host": `share` of the VRAM on each; the indices obtained. -/
def allocateEach (host : String) (share : Int) : List GpuInfo → Prog S PyError (List Int)
  | [] => return []
  | gpu :: gpus => do
    let ok ← A.allocateGpu host gpu.gpuIndex q.taskId q.modelName share
    let indices ← allocateEach host share gpus
    return if ok then gpu.gpuIndex :: indices else indices

/-- "Rollback partial allocation". -/
def releaseEach (host : String) : List Int → Prog S PyError Unit
  | [] => return ()
  | idx :: indices => do
    A.releaseGpu host idx
    releaseEach host indices

/-- "Find a host where combined VRAM meets requirement". -/
def tryHosts : List (String × List GpuInfo) → Prog S PyError ScheduleResult
  | [] => return { success := false, reason := "No host has enough combined VRAM for multi-GPU" }
  | (host, gpus) :: hosts =>
    if Fits q.vram gpus then do
      let allocated_indices ← allocateEach A q host (q.vram / gpus.length) gpus
      if 2 ≤ allocated_indices.length then
        return {
          success := true, host := some host, gpuIndices := allocated_indices
          modelName := some q.modelName, vramAllocatedMb := freeSum gpus
          reason := "Multi-GPU on " ++ host ++ ": " ++ toString allocated_indices.length
            ++ " GPUs, " ++ toString (freeSum gpus) ++ "MB combined" }
      else do
        releaseEach A host allocated_indices
        tryHosts hosts
    else tryHosts hosts

/-- `_try_multi_gpu`. -/
def tryMultiGpu : Prog S PyError ScheduleResult := do
  let all_gpus ← A.getAvailableGpus 0 self.excludeHosts
  tryHosts A q (byHost all_gpus)

/-- The result of `schedule` when nothing was allocated. -/
def refusal : ScheduleResult where
  success := false
  reason := "No GPU available with " ++ toString q.vram ++ "MB VRAM (excluded: "
    ++ T.repr self.excludeHosts ++ ")"

/-- The end of `schedule`: several GPUs for a large model, or none. -/
def lastResort : Prog S PyError ScheduleResult :=
  if 16000 < q.vram then do
    let result ← tryMultiGpu A self q
    if result.success then return result else return refusal T self q
  else return refusal T self q

/-- `schedule`, the inventory being fresh. -/
def place : Prog S PyError ScheduleResult := do
  match ← tryPreferred A T self q with
  | some result => return result
  | none =>
    match ← tryBestFit A self q with
    | some result => return result
    | none => lastResort A T self q

/-- `schedule`. -/
def schedule : Prog S PyError ScheduleResult := do
  refreshInventory A T self
  place A T self q

end

/-! ## What the functions of the database have in common, `schedule` has -/

section

variable {S : Sig} {A : Api S} {C : (α : Type) → Prog S PyError α → Prop}

/-- Every function of the interface has the property. -/
structure Api.All (A : Api S) (C : (α : Type) → Prog S PyError α → Prop) : Prop where
  time : C _ A.time
  probeHost : ∀ host, C _ (A.probeHost host)
  saveInventory : ∀ invs, C _ (A.saveInventory invs)
  getAvailableGpus : ∀ min exclude, C _ (A.getAvailableGpus min exclude)
  allocateGpu : ∀ host idx task model vram, C _ (A.allocateGpu host idx task model vram)
  releaseGpu : ∀ host idx, C _ (A.releaseGpu host idx)

variable (hC : Prog.Compositional C) (hA : A.All C) (T : Text) (self : Scheduler) (q : Request)

include hC

/-- Refreshing the inventory calls three of the functions. -/
theorem refreshInventory_all (htime : C _ A.time) (hprobe : ∀ host, C _ (A.probeHost host))
    (hsave : ∀ invs, C _ (A.saveInventory invs)) : C _ (refreshInventory A T self) := by
  have hall : ∀ hosts, C _ (probeAll A hosts) := by
    intro hosts
    induction hosts with
    | nil => exact hC.ret []
    | cons host hosts ih =>
      refine hC.bind (hprobe host) fun inv => ?_
      exact hC.bind ih fun invs => hC.ret (inv :: invs)
  refine hC.bind htime fun now => ?_
  split
  · exact hC.ret ()
  · exact hC.bind (hall _) fun invs => hsave invs

include hA

theorem allocateOne_all (gpu : GpuInfo) (reason : String) :
    C _ (allocateOne A q gpu reason) := by
  refine hC.bind (hA.allocateGpu _ _ _ _ _) fun ok => ?_
  split
  · exact hC.ret _
  · exact hC.ret none

theorem tryPreferred_all : C _ (tryPreferred A T self q) := by
  unfold tryPreferred
  split
  · refine hC.bind (hA.getAvailableGpus _ _) fun available => ?_
    simp only
    split
    · exact hC.ret none
    · exact allocateOne_all hC hA q _ _
  · exact hC.ret none

theorem tryBestFit_all : C _ (tryBestFit A self q) := by
  refine hC.bind (hA.getAvailableGpus _ _) fun available => ?_
  split
  · exact hC.ret none
  · exact allocateOne_all hC hA q _ _

theorem allocateEach_all (host : String) (share : Int) :
    ∀ gpus, C _ (allocateEach A q host share gpus)
  | [] => hC.ret []
  | gpu :: gpus => by
    refine hC.bind (hA.allocateGpu _ _ _ _ _) fun ok => ?_
    exact hC.bind (allocateEach_all host share gpus) fun indices => hC.ret _

theorem releaseEach_all (host : String) : ∀ indices, C _ (releaseEach A host indices)
  | [] => hC.ret ()
  | idx :: indices => hC.bind (hA.releaseGpu host idx) fun _ => releaseEach_all host indices

theorem tryHosts_all : ∀ hosts, C _ (tryHosts A q hosts)
  | [] => hC.ret _
  | (host, gpus) :: hosts => by
    unfold tryHosts
    split
    · refine hC.bind (allocateEach_all hC hA q host _ gpus) fun indices => ?_
      split
      · exact hC.ret _
      · exact hC.bind (releaseEach_all hC hA host indices) fun _ => tryHosts_all hosts
    · exact tryHosts_all hosts

theorem lastResort_all : C _ (lastResort A T self q) := by
  unfold lastResort
  split
  · refine hC.bind ?_ fun result => ?_
    · exact hC.bind (hA.getAvailableGpus _ _) fun gpus => tryHosts_all hC hA q _
    · split
      · exact hC.ret _
      · exact hC.ret _
  · exact hC.ret _

theorem schedule_all : C _ (schedule A T self q) := by
  have hrefresh := refreshInventory_all hC T self hA.time hA.probeHost hA.saveInventory
  refine hC.bind hrefresh fun _ => ?_
  refine hC.bind (tryPreferred_all hC hA T self q) fun preferred => ?_
  split
  · exact hC.ret _
  · refine hC.bind (tryBestFit_all hC hA self q) fun best => ?_
    split
    · exact hC.ret _
    · exact lastResort_all hC hA T self q

end

/-! ## The functions, run alone -/

/-- The rows of an inventory written one after the other. -/
def Tables.saveAll (t : Tables) (gpus : List GpuInfo) : Tables := gpus.foldl Tables.saveRow t

/-- What the functions of `gpu_discovery` do to tables that nobody else is using; `rest t` is the
store holding `t`. -/
structure Lawful {S : Sig} (A : Api S) (T : Text) (K : Store S) (rest : Tables → K.State)
    (n : Nat) : Prop where
  time : ∀ {t r s'}, K.Runs n A.time (rest t) r s' → ∃ now, r = .ok now ∧ s' = rest t
  probeHost : ∀ {host t r s'}, K.Runs n (A.probeHost host) (rest t) r s' →
    ∃ inv, r = .ok inv ∧ s' = rest t
  saveInventory : ∀ {invs t r s'}, K.Runs n (A.saveInventory invs) (rest t) r s' →
    r = .ok () ∧ s' = rest (t.saveAll (savedRows invs))
  getAvailableGpus : ∀ {min exclude t r s'},
    K.Runs n (A.getAvailableGpus min exclude) (rest t) r s' →
      r = .ok (admitted T exclude (t.available min)) ∧ s' = rest t
  allocateGpu : ∀ {host idx task model vram t r s'},
    K.Runs n (A.allocateGpu host idx task model vram) (rest t) r s' →
      t.Free ⟨host, idx⟩ ∧ r = .ok true ∧
        (∃ now, s' = rest (t.insert ⟨⟨host, idx⟩, task, model, vram, now⟩)) ∨
      ¬ t.Free ⟨host, idx⟩ ∧ r = .ok false ∧ s' = rest t
  releaseGpu : ∀ {host idx t r s'}, K.Runs n (A.releaseGpu host idx) (rest t) r s' →
    r = .ok () ∧ ∃ now, s' = rest (t.release ⟨host, idx⟩ now)

/-! ## GPUs by host -/

/-- The list of a host. -/
theorem mem_addTo {d : List (String × List GpuInfo)} {seen : List GpuInfo} {gpu : GpuInfo}
    (h : ∀ p ∈ d, p.2 = seen.filter fun g => g.host = p.1)
    (hall : ∀ g ∈ seen, ∃ p ∈ d, p.1 = g.host) :
    (∀ p ∈ addTo d gpu, p.2 = (seen ++ [gpu]).filter fun g => g.host = p.1) ∧
      ∀ g ∈ seen ++ [gpu], ∃ p ∈ addTo d gpu, p.1 = g.host := by
  unfold addTo
  split
  · rename_i hany
    constructor
    · intro p hp
      obtain ⟨p', hp', rfl⟩ := List.mem_map.mp hp
      by_cases he : p'.1 = gpu.host
      · simp [he, h p' hp', List.filter_append]
      · simp [he, h p' hp', List.filter_append, Ne.symm he]
    · have hkeep : ∀ p ∈ d, ∃ p' ∈ d.map fun p => if p.1 = gpu.host then (p.1, p.2 ++ [gpu]) else p,
          p'.1 = p.1 := by
        intro p hp
        refine ⟨_, List.mem_map.mpr ⟨p, hp, rfl⟩, ?_⟩
        split <;> rfl
      intro g hg
      rw [List.mem_append, List.mem_singleton] at hg
      rcases hg with hg | rfl
      · obtain ⟨p, hp, he⟩ := hall g hg
        obtain ⟨p', hp', he'⟩ := hkeep p hp
        exact ⟨p', hp', he'.trans he⟩
      · obtain ⟨p, hp, he⟩ := List.any_eq_true.mp hany
        obtain ⟨p', hp', he'⟩ := hkeep p hp
        exact ⟨p', hp', he'.trans (by simpa using he)⟩
  · rename_i hany
    constructor
    · intro p hp
      rw [List.mem_append, List.mem_singleton] at hp
      rcases hp with hp | rfl
      · have hne : gpu.host ≠ p.1 := by
          intro he
          exact hany (List.any_eq_true.mpr ⟨p, hp, by simp [he]⟩)
        simp [h p hp, List.filter_append, hne]
      · have hnone : seen.filter (fun g => g.host = gpu.host) = [] := by
          rw [List.filter_eq_nil_iff]
          intro g hg he
          obtain ⟨p, hp, hph⟩ := hall g hg
          exact hany (List.any_eq_true.mpr ⟨p, hp, by simp_all⟩)
        simp [List.filter_append, hnone]
    · intro g hg
      rw [List.mem_append, List.mem_singleton] at hg
      rcases hg with hg | rfl
      · obtain ⟨p, hp, he⟩ := hall g hg
        exact ⟨p, List.mem_append_left _ hp, he⟩
      · exact ⟨_, List.mem_append_right _ (List.mem_singleton.mpr rfl), rfl⟩

theorem foldl_addTo : ∀ (gpus seen : List GpuInfo) (d : List (String × List GpuInfo)),
    (∀ p ∈ d, p.2 = seen.filter fun g => g.host = p.1) → (∀ g ∈ seen, ∃ p ∈ d, p.1 = g.host) →
      (∀ p ∈ gpus.foldl addTo d, p.2 = (seen ++ gpus).filter fun g => g.host = p.1) ∧
        ∀ g ∈ seen ++ gpus, ∃ p ∈ gpus.foldl addTo d, p.1 = g.host
  | [], seen, d, h, hall => by
    rw [List.append_nil]
    exact ⟨h, hall⟩
  | gpu :: gpus, seen, d, h, hall => by
    obtain ⟨h', hall'⟩ := @mem_addTo _ _ gpu h hall
    have hfold := foldl_addTo gpus (seen ++ [gpu]) (addTo d gpu) h' hall'
    rw [List.append_assoc, List.singleton_append] at hfold
    exact hfold

/-- `by_host` has the GPUs of a host in their order, and every host. -/
theorem byHost_spec (gpus : List GpuInfo) :
    (∀ p ∈ byHost gpus, p.2 = gpus.filter fun g => g.host = p.1) ∧
      ∀ g ∈ gpus, ∃ p ∈ byHost gpus, p.1 = g.host := by
  have h := foldl_addTo gpus [] [] (fun p hp => absurd hp List.not_mem_nil)
    fun g hg => absurd hg List.not_mem_nil
  rw [List.nil_append] at h
  exact h

end ClaudeSwarm.Gpu
