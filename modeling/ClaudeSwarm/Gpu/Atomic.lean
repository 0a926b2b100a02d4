import ClaudeSwarm.Gpu.Discovery

/-!
# The GPU database, call by call

The functions of `src/gpu_discovery.py` as atomic steps on the tables, and `GpuScheduler.schedule` over
them. `api_lawful` is the same specification that the statement-level functions meet when nobody else
is using the database (`Grants.lean`): an atomic step does what its function does alone.
-/

namespace ClaudeSwarm.Gpu.Atomic

open Interleave
open Python (Time PyError)

/-- A call of one of the functions, or of the clock or a host. -/
inductive Cmd where
  | time
  | probeHost (host : String)
  | saveInventory (inventories : List HostGpuInventory)
  | getAvailableGpus (min_vram_mb : Int) (exclude_hosts : List String)
  | allocateGpu (slot : Slot) (task_id model_name : String) (vram_required_mb : Int)
  | releaseGpu (slot : Slot)

/-- The answer of each call; an allocation answers the number of the row it inserted. -/
abbrev Resp : Cmd → Type
  | .time => Time
  | .probeHost _ => HostGpuInventory
  | .saveInventory _ => Unit
  | .getAvailableGpus _ _ => List GpuInfo
  | .allocateGpu .. => Option Nat
  | .releaseGpu _ => Unit

abbrev sig : Sig := ⟨Cmd, Resp⟩

/-- Execute a call. -/
def exec (T : Text) (_ : Nat) (i : Env) (t : Tables) : (c : Cmd) → Option (Resp c × Tables)
  | .time => some (i.now, t)
  | .probeHost _ => some (i.probed, t)
  | .saveInventory inventories => some ((), t.saveAll (savedRows inventories))
  | .getAvailableGpus min exclude => some (admitted T exclude (t.available min), t)
  | .allocateGpu slot task_id model_name vram =>
    if t.Free slot then
      some (some (t.allocations.sequence + 1), t.insert ⟨slot, task_id, model_name, vram, i.now⟩)
    else some (none, t)
  | .releaseGpu slot => some ((), t.release slot i.now)

/-- The row a call inserted. -/
def insertedBy : (c : Cmd) → Resp c → Option Nat
  | .allocateGpu .., x => x
  | _, _ => none

theorem allocations_saveAll : ∀ (gpus : List GpuInfo) (t : Tables), (t.saveAll gpus).allocations = t.allocations
  | [], _ => rfl
  | gpu :: gpus, t => allocations_saveAll gpus (t.saveRow gpu)

/-- **Calls.** The allocations stay as they are, a GPU that was free is allocated, or one is released. -/
theorem exec_cases {T : Text} {n : Nat} {i : Env} {t t' : Tables} {c : Cmd} {x : Resp c}
    (h : exec T n i t c = some (x, t')) :
    (t'.allocations = t.allocations ∧ insertedBy c x = none ∧ ∀ slot, c ≠ .releaseGpu slot) ∨
    (∃ r : Allocations.Request, t.Free r.slot ∧ t' = t.insert r ∧
      c = .allocateGpu r.slot r.taskId r.modelName r.vramRequiredMb ∧
      insertedBy c x = some (t.allocations.sequence + 1)) ∨
    ∃ slot time, c = .releaseGpu slot ∧ t' = t.release slot time ∧ insertedBy c x = none := by
  cases c with
  | time | probeHost | getAvailableGpus =>
    cases h
    exact Or.inl ⟨rfl, rfl, by simp⟩
  | saveInventory invs =>
    cases h
    exact Or.inl ⟨allocations_saveAll _ _, rfl, by simp⟩
  | allocateGpu slot task model vram =>
    simp only [exec] at h
    split at h <;> cases h
    · rename_i hfree
      exact Or.inr (Or.inl ⟨⟨slot, task, model, vram, i.now⟩, hfree, rfl, rfl, rfl⟩)
    · exact Or.inl ⟨rfl, rfl, by simp⟩
  | releaseGpu slot =>
    cases h
    exact Or.inr (Or.inr ⟨slot, i.now, rfl, rfl, rfl⟩)

/-- The tables as a store. -/
abbrev store (T : Text) : Store sig := ⟨Tables, Env, exec T⟩

abbrev P (α : Type) := Prog sig PyError α

/-- Issue one call. -/
def cmd (c : Cmd) : P (Resp c) := @Prog.cmd sig PyError c

/-- `allocate_gpu`. -/
def allocateGpu (host : String) (gpu_index : Int) (task_id model_name : String)
    (vram_required_mb : Int) : P Bool := do
  let id ← cmd (.allocateGpu ⟨host, gpu_index⟩ task_id model_name vram_required_mb)
  return id.isSome

/-- The functions of `gpu_discovery`. -/
def api : Api sig where
  time := cmd .time
  probeHost host := cmd (.probeHost host)
  saveInventory inventories := cmd (.saveInventory inventories)
  getAvailableGpus min exclude := cmd (.getAvailableGpus min exclude)
  allocateGpu := allocateGpu
  releaseGpu host gpu_index := cmd (.releaseGpu ⟨host, gpu_index⟩)

/-- The program of each call. -/
def prog (T : Text) : (o : Op) → P (Ret o)
  | .allocate host gpu_index task_id model_name vram =>
    allocateGpu host gpu_index task_id model_name vram
  | .release host gpu_index => cmd (.releaseGpu ⟨host, gpu_index⟩)
  | .schedule self q => schedule api T self q

/-- Any number of processes on one database. -/
abbrev system (T : Text) : System := ⟨sig, store T, PyError, Op, Ret, prog T⟩

/-- An atomic step does what the function does alone. -/
theorem api_lawful (T : Text) (n : Nat) : Lawful api T (store T) id n where
  time := by
    rintro t r s' ⟨i, x, s₁, hx, rfl, rfl⟩
    cases hx
    exact ⟨i.now, rfl, rfl⟩
  probeHost := by
    rintro host t r s' ⟨i, x, s₁, hx, rfl, rfl⟩
    cases hx
    exact ⟨i.probed, rfl, rfl⟩
  saveInventory := by
    rintro invs t r s' ⟨i, x, s₁, hx, rfl, rfl⟩
    cases hx
    exact ⟨rfl, rfl⟩
  getAvailableGpus := by
    rintro min exclude t r s' ⟨i, x, s₁, hx, rfl, rfl⟩
    cases hx
    exact ⟨rfl, rfl⟩
  allocateGpu := by
    rintro host idx task model vram t r s' ⟨i, x, s₁, hx, rfl, rfl⟩
    simp only [exec] at hx
    split at hx <;> cases hx
    · rename_i hfree
      exact Or.inl ⟨hfree, rfl, i.now, rfl⟩
    · rename_i hfree
      exact Or.inr ⟨hfree, rfl, rfl⟩
  releaseGpu := by
    rintro host idx t r s' ⟨i, x, s₁, hx, rfl, rfl⟩
    cases hx
    exact ⟨rfl, i.now, rfl⟩

end ClaudeSwarm.Gpu.Atomic
