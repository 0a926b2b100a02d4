import ClaudeSwarm.Data.Table
import ClaudeSwarm.Python
import Mathlib.Data.List.Sort

/-!
# The GPU database

The tables of `src/gpu_discovery.py` and the queries on them. `gpu_inventory` has one row for each
GPU, `(host, gpu_index)` its primary key. `gpu_allocations` has a row for each allocation ever made;
one whose `released_at` is NULL is active. Nothing in the schema keeps two active rows of a GPU
apart; `Exclusive` says that there are none.

Rows of equal `ORDER BY` keys come in insertion order. Foreign keys are not enforced (SQLite's
default), so a row may name a GPU the inventory does not have.
-/

namespace ClaudeSwarm.Gpu

open Data
open Python (Time)

/-- A GPU of the fleet. -/
structure Slot where
  host : String
  gpuIndex : Int
  deriving DecidableEq

/-- `GpuInfo`, a row of `gpu_inventory`. -/
structure GpuInfo where
  host : String
  gpuIndex : Int
  gpuModel : String
  vramTotalMb : Int
  vramFreeMb : Int
  vramUsedMb : Int
  utilizationPct : Int
  discoveredAt : Time
  deriving DecidableEq

/-- The GPU a row of the inventory is about. -/
def GpuInfo.slot (g : GpuInfo) : Slot := ⟨g.host, g.gpuIndex⟩

/-- `gpu_inventory`. -/
abbrev Inventory := Table GpuInfo.slot

/-- A row of `gpu_allocations`. -/
structure Allocation where
  id : Nat
  slot : Slot
  taskId : String
  modelName : String
  vramRequiredMb : Int
  allocatedAt : Time
  releasedAt : Option Time
  deriving DecidableEq

/-- `gpu_allocations`, and the last number its `AUTOINCREMENT` key has given out. -/
structure Allocations where
  rows : List Allocation
  sequence : Nat
  nodup : (rows.map Allocation.id).Nodup
  given : ∀ a ∈ rows, a.id ≤ sequence

/-- The row is an active allocation of the GPU. -/
def Allocation.ActiveOn (a : Allocation) (slot : Slot) : Prop :=
  a.slot = slot ∧ a.releasedAt = none

instance (a : Allocation) (slot : Slot) : Decidable (a.ActiveOn slot) :=
  inferInstanceAs (Decidable (_ ∧ _))

theorem Allocation.ActiveOn.unique {a : Allocation} {slot slot' : Slot} (h : a.ActiveOn slot)
    (h' : a.ActiveOn slot') : slot = slot' := h.1.symm.trans h'.1

namespace Allocations

/-- The table without rows. -/
def empty : Allocations := ⟨[], 0, List.nodup_nil, fun _ h => absurd h List.not_mem_nil⟩

/-- The active rows of a GPU. -/
def active (t : Allocations) (slot : Slot) : List Allocation :=
  t.rows.filter fun a => a.ActiveOn slot

/-- The columns `INSERT` is given. -/
structure Request where
  slot : Slot
  taskId : String
  modelName : String
  vramRequiredMb : Int
  allocatedAt : Time
  deriving DecidableEq

/-- The row of a request. -/
def Request.row (r : Request) (id : Nat) : Allocation :=
  ⟨id, r.slot, r.taskId, r.modelName, r.vramRequiredMb, r.allocatedAt, none⟩

/-- `INSERT INTO gpu_allocations`. -/
def insert (t : Allocations) (r : Request) : Allocations where
  rows := t.rows ++ [r.row (t.sequence + 1)]
  sequence := t.sequence + 1
  nodup := by
    rw [List.map_append, List.map_singleton, List.nodup_append]
    refine ⟨t.nodup, List.nodup_singleton _, fun id hid id' hid' he => ?_⟩
    obtain ⟨a, ha, rfl⟩ := List.mem_map.mp hid
    rw [List.mem_singleton.mp hid'] at he
    have hle := t.given a ha
    simp only [Request.row] at he
    omega
  given a ha := by
    rw [List.mem_append, List.mem_singleton] at ha
    rcases ha with ha | rfl
    · exact Nat.le_succ_of_le (t.given a ha)
    · exact Nat.le_refl _

/-- `SET released_at = ? WHERE host = ? AND gpu_index = ? AND released_at IS NULL`, for one row. -/
def free (slot : Slot) (released_at : Time) (a : Allocation) : Allocation :=
  if a.ActiveOn slot then { a with releasedAt := some released_at } else a

theorem free_id (slot : Slot) (t : Time) (a : Allocation) : (free slot t a).id = a.id := by
  unfold free
  split <;> rfl

/-- `UPDATE gpu_allocations SET released_at`. -/
def release (t : Allocations) (slot : Slot) (released_at : Time) : Allocations where
  rows := t.rows.map (free slot released_at)
  sequence := t.sequence
  nodup := by
    rw [List.map_map]
    have hid : Allocation.id ∘ free slot released_at = Allocation.id := by
      funext a
      exact free_id slot released_at a
    rw [hid]
    exact t.nodup
  given a ha := by
    obtain ⟨b, hb, rfl⟩ := List.mem_map.mp ha
    rw [free_id]
    exact t.given b hb

variable {t : Allocations} {slot slot' : Slot} {a : Allocation}

theorem mem_active : a ∈ t.active slot ↔ a ∈ t.rows ∧ a.ActiveOn slot := by
  simp [active]

/-- A new row is active on its GPU. -/
theorem active_insert (r : Request) (slot : Slot) :
    (t.insert r).active slot =
      t.active slot ++ if r.slot = slot then [r.row (t.sequence + 1)] else [] := by
  unfold active insert
  rw [List.filter_append]
  by_cases h : r.slot = slot
  · simp [h, Allocation.ActiveOn, Request.row]
  · simp [h, Allocation.ActiveOn, Request.row]

/-- A release frees its GPU and leaves the others alone. -/
theorem active_release (slot slot' : Slot) (time : Time) :
    (t.release slot' time).active slot = if slot' = slot then [] else t.active slot := by
  unfold active release
  simp only
  have hfree : ∀ a : Allocation, (free slot' time a).ActiveOn slot ↔
      a.ActiveOn slot ∧ slot' ≠ slot := by
    intro a
    unfold free
    by_cases hact : a.ActiveOn slot'
    · rw [if_pos hact]
      constructor
      · rintro ⟨-, h⟩
        cases h
      · rintro ⟨h, hne⟩
        exact absurd (hact.unique h) hne
    · rw [if_neg hact]
      constructor
      · refine fun h => ⟨h, fun he => hact ?_⟩
        rw [he]
        exact h
      · exact And.left
  have hkeep : ∀ a : Allocation, slot' ≠ slot → a.ActiveOn slot → free slot' time a = a := by
    intro a hne h
    unfold free
    rw [if_neg fun h' => hne (h'.unique h)]
  by_cases h : slot' = slot
  · rw [if_pos h, List.filter_eq_nil_iff]
    intro a ha
    obtain ⟨b, -, rfl⟩ := List.mem_map.mp ha
    rw [decide_eq_true_eq, hfree]
    exact fun hb => hb.2 h
  · rw [if_neg h, List.filter_map]
    have hp : ((fun a : Allocation => decide (a.ActiveOn slot)) ∘ free slot' time) =
        fun a => decide (a.ActiveOn slot) := by
      funext a
      simp [hfree, h]
    rw [hp]
    conv_rhs => rw [← List.map_id (t.rows.filter _)]
    refine List.map_congr_left fun a ha => ?_
    exact hkeep a h (by simpa using (List.mem_filter.mp ha).2)

end Allocations

/-- The database file. -/
structure Tables where
  inventory : Inventory
  allocations : Allocations

namespace Tables

/-- No GPU has two active allocations. -/
def Exclusive (t : Tables) : Prop := ∀ slot, (t.allocations.active slot).length ≤ 1

/-- The GPU has no active allocation. -/
def Free (t : Tables) (slot : Slot) : Prop := t.allocations.active slot = []

instance (t : Tables) (slot : Slot) : Decidable (t.Free slot) :=
  inferInstanceAs (Decidable (_ = _))

/-- The query of `get_available_gpus`: GPUs without an active allocation and with enough free VRAM,
`ORDER BY vram_free_mb DESC`. -/
def available (t : Tables) (min_vram_mb : Int) : List GpuInfo :=
  (t.inventory.rows.filter fun g => t.Free g.slot ∧ min_vram_mb ≤ g.vramFreeMb).insertionSort
    fun a b => b.vramFreeMb ≤ a.vramFreeMb

/-- `INSERT OR REPLACE INTO gpu_inventory`. -/
def saveRow (t : Tables) (gpu : GpuInfo) : Tables := { t with inventory := t.inventory.put gpu }

/-- `INSERT INTO gpu_allocations`. -/
def insert (t : Tables) (r : Allocations.Request) : Tables :=
  { t with allocations := t.allocations.insert r }

/-- `UPDATE gpu_allocations SET released_at`. -/
def release (t : Tables) (slot : Slot) (released_at : Time) : Tables :=
  { t with allocations := t.allocations.release slot released_at }

variable {t : Tables} {slot : Slot}

theorem mem_available {min_vram_mb : Int} {g : GpuInfo} :
    g ∈ t.available min_vram_mb ↔
      g ∈ t.inventory.rows ∧ t.Free g.slot ∧ min_vram_mb ≤ g.vramFreeMb := by
  simp [available, List.mem_insertionSort]

theorem nodup_available (t : Tables) (min_vram_mb : Int) :
    ((t.available min_vram_mb).map GpuInfo.slot).Nodup := by
  unfold available
  refine ((List.perm_insertionSort _ _).map _).nodup_iff.mpr ?_
  exact t.inventory.nodup.sublist (List.filter_sublist.map _)

theorem Exclusive.saveRow (h : t.Exclusive) (gpu : GpuInfo) : (t.saveRow gpu).Exclusive := h

theorem Exclusive.release (h : t.Exclusive) (slot : Slot) (time : Time) :
    (t.release slot time).Exclusive := by
  intro slot'
  unfold Tables.release
  rw [Allocations.active_release]
  split
  · exact Nat.zero_le _
  · exact h slot'

/-- An allocation of a GPU that has none. -/
theorem Exclusive.insert {r : Allocations.Request} (h : t.Exclusive) (hr : t.Free r.slot) :
    (t.insert r).Exclusive := by
  intro slot
  unfold Tables.insert
  rw [Allocations.active_insert]
  split
  · rename_i hs
    rw [← hs, show t.allocations.active r.slot = [] from hr]
    exact Nat.le_refl _
  · rw [List.append_nil]
    exact h slot

end Tables

end ClaudeSwarm.Gpu
