import ClaudeSwarm.Gpu.Discovery

/-!
# What a grant covers

`schedule` run with no concurrent client. On a preferred host, or as the best fit, one GPU is asked
for the whole requirement and has it free. Several GPUs are asked for `required // len(gpus)` each,
which need not add up to the requirement, and of which a small GPU may have less free
(`uneven_grant`).

* `api_lawful`: what each function of the database does alone.
* `Balanced`: the requirement divides evenly among the GPUs of the host that is tried, and each has
  its share free.
* **`schedule_covers_iff`**: a grant covers the request exactly when the multi-GPU path, if it is taken, is
  balanced.
-/

namespace ClaudeSwarm.Gpu

open Interleave Data
open Python (Time PyError)

variable {T : Text} {n : Nat}

/-! ## The functions of the database -/

/-- Closing a connection that has no transaction open. -/
theorem runs_closing {α : Type} {p : P α} {s s' : Database Tables} {r : Except PyError α}
    (h : store.Runs n (closing p) s r s') :
    ∃ s₁, store.Runs n p s r s₁ ∧ s' = s₁.rollback n := by
  obtain ⟨r₁, s₁, hp, hclose⟩ := (store.runs_finally n).mp h
  rcases hclose with ⟨⟨i, x, s₂, hx, -, hs⟩, rfl⟩ | ⟨e, ⟨i, x, s₂, hx, he, -⟩, -⟩
  · cases hx
    exact ⟨s₁, hp, hs⟩
  · cases he

theorem runs_saveEach : ∀ {gpus : List GpuInfo} {c t : Tables} {r : Except PyError Unit}
    {s' : Database Tables} {s : Database Tables},
    s = Database.at_ t ∨ s = ⟨c, some (n, t)⟩ → store.Runs n (saveEach gpus) s r s' →
      r = .ok () ∧ s' = Database.at_ (t.saveAll gpus)
  | [], c, t, r, s', s, hs, h => by
    obtain ⟨i, x, s₁, hx, hr, rfl⟩ := h
    rcases hs with rfl | rfl
    · cases hx
      exact ⟨hr, rfl⟩
    · have hcommit : exec n i ⟨c, some (n, t)⟩ .commit = some ((), Database.at_ t) := by
        simp [exec]
      rw [show store.exec n i _ _ = _ from hcommit] at hx
      cases hx
      exact ⟨hr, rfl⟩
  | gpu :: gpus, c, t, r, s', s, hs, h => by
    obtain ⟨i, x, s₁, hx, h⟩ := h
    have hsave : exec n i s (.saveRow gpu) =
        some (.ok (), ⟨s.committed, some (n, t.saveRow gpu)⟩) := by
      rcases hs with rfl | rfl
      · rfl
      · simp [exec, change]
    rw [show store.exec n i _ _ = _ from hsave] at hx
    cases hx
    have hrest : store.Runs n (saveEach gpus) ⟨s.committed, some (n, t.saveRow gpu)⟩ r s' := h
    have hend := runs_saveEach (s := ⟨s.committed, some (n, t.saveRow gpu)⟩) (Or.inr rfl) hrest
    exact hend

theorem runs_allocateGpu {host task model : String} {idx vram : Int} {t : Tables}
    {r : Except PyError Bool} {s' : Database Tables}
    (h : store.Runs n (allocateGpu host idx task model vram) (Database.at_ t) r s') :
    t.Free ⟨host, idx⟩ ∧ r = .ok true ∧
        (∃ now, s' = Database.at_ (t.insert ⟨⟨host, idx⟩, task, model, vram, now⟩)) ∨
      ¬ t.Free ⟨host, idx⟩ ∧ r = .ok false ∧ s' = Database.at_ t := by
  obtain ⟨s₁, ⟨i, x, s₂, hx, h⟩, rfl⟩ := runs_closing h
  obtain ⟨hread, rfl⟩ := Prod.mk.inj (Option.some.inj hx)
  rw [Database.view_at] at hread
  cases x with
  | some id =>
    obtain ⟨rfl, rfl⟩ := h
    refine Or.inr ⟨fun hfree => ?_, rfl, rfl⟩
    rw [show t.allocations.active ⟨host, idx⟩ = [] from hfree] at hread
    cases hread
  | none =>
    have hfree : t.Free ⟨host, idx⟩ := List.head?_eq_none_iff.mp (Option.map_eq_none_iff.mp hread)
    obtain ⟨i, now, s₂, hx, h⟩ := h
    cases hx
    obtain ⟨i', x, s₂, hx, h⟩ := h
    cases hx
    obtain ⟨i', x, s₂, hx, rfl, rfl⟩ := h
    obtain ⟨-, rfl⟩ := Prod.mk.inj (Option.some.inj hx)
    exact Or.inl ⟨hfree, rfl, i.now, by simp⟩

theorem runs_releaseGpu {host : String} {idx : Int} {t : Tables} {r : Except PyError Unit}
    {s' : Database Tables} (h : store.Runs n (releaseGpu host idx) (Database.at_ t) r s') :
    r = .ok () ∧ ∃ now, s' = Database.at_ (t.release ⟨host, idx⟩ now) := by
  obtain ⟨s₁, ⟨i, now, s₂, hx, h⟩, rfl⟩ := runs_closing h
  cases hx
  obtain ⟨i', x, s₂, hx, h⟩ := h
  cases hx
  obtain ⟨i', x, s₂, hx, rfl, rfl⟩ := h
  obtain ⟨-, rfl⟩ := Prod.mk.inj (Option.some.inj hx)
  exact ⟨rfl, i.now, by simp⟩

/-- **What the functions do alone.** -/
theorem api_lawful (T : Text) (n : Nat) : Lawful (api T) T store Database.at_ n where
  time := by
    rintro t r s' ⟨i, x, s₁, hx, rfl, rfl⟩
    cases hx
    exact ⟨i.now, rfl, rfl⟩
  probeHost := by
    rintro host t r s' ⟨i, x, s₁, hx, rfl, rfl⟩
    cases hx
    exact ⟨i.probed, rfl, rfl⟩
  saveInventory := by
    intro invs t r s' h
    obtain ⟨s₁, hsave, rfl⟩ := runs_closing h
    obtain ⟨rfl, rfl⟩ := runs_saveEach (c := t) (Or.inl rfl) hsave
    exact ⟨rfl, rfl⟩
  getAvailableGpus := by
    intro min exclude t r s' h
    obtain ⟨s₁, ⟨i, x, s₂, hx, rfl, rfl⟩, rfl⟩ := runs_closing h
    cases hx
    exact ⟨rfl, rfl⟩
  allocateGpu := runs_allocateGpu
  releaseGpu := runs_releaseGpu

/-! ## Requests and the rows they make -/

/-- Several requests inserted one after the other. -/
def Tables.insertAll (t : Tables) (rs : List Allocations.Request) : Tables :=
  rs.foldl Tables.insert t

/-- The rows of `t'` that come after those of `t`. -/
def added (t t' : Tables) : List Allocation :=
  t'.allocations.rows.drop t.allocations.rows.length

/-- What a row asks for, and whether it is active. -/
def Allocation.ask (a : Allocation) : Slot × Int × Option Time :=
  (a.slot, a.vramRequiredMb, a.releasedAt)

theorem insertAll_inventory (rs : List Allocations.Request) :
    ∀ t : Tables, (t.insertAll rs).inventory = t.inventory := by
  induction rs with
  | nil => exact fun t => rfl
  | cons r rs ih => exact fun t => ih (t.insert r)

theorem insertAll_rows (rs : List Allocations.Request) : ∀ t : Tables, ∃ l,
    (t.insertAll rs).allocations.rows = t.allocations.rows ++ l ∧
      l.map Allocation.ask = rs.map fun r => (r.slot, r.vramRequiredMb, none) := by
  induction rs with
  | nil => exact fun t => ⟨[], (List.append_nil _).symm, rfl⟩
  | cons r rs ih =>
    intro t
    obtain ⟨l, hl, hask⟩ := ih (t.insert r)
    refine ⟨r.row (t.allocations.sequence + 1) :: l, ?_, ?_⟩
    · rw [show t.insertAll (r :: rs) = (t.insert r).insertAll rs from rfl, hl]
      simp [Tables.insert, Allocations.insert]
    · rw [List.map_cons, List.map_cons, hask]
      rfl

theorem added_insertAll (t : Tables) (rs : List Allocations.Request) :
    (added t (t.insertAll rs)).map Allocation.ask =
      rs.map fun r => (r.slot, r.vramRequiredMb, none) := by
  obtain ⟨l, hl, hask⟩ := insertAll_rows rs t
  rw [added, hl, List.drop_left, hask]

theorem Tables.free_insert {t : Tables} {r : Allocations.Request} {slot : Slot}
    (h : r.slot ≠ slot) : (t.insert r).Free slot ↔ t.Free slot := by
  unfold Tables.Free Tables.insert
  rw [Allocations.active_insert, if_neg h, List.append_nil]

/-- `gpus` of `host` were each asked for `share`. -/
structure Granted (t t' : Tables) (result : ScheduleResult) (host : String)
    (gpus : List GpuInfo) (share : Int) : Prop where
  success : result.success = true
  named : result.host = some host
  indices : result.gpuIndices = gpus.map GpuInfo.gpuIndex
  onHost : ∀ g ∈ gpus, g.host = host
  asked : ∃ rs : List Allocations.Request, t' = t.insertAll rs ∧
    rs.map (fun r => (r.slot, r.vramRequiredMb)) = gpus.map fun g => (g.slot, share)

/-- What a grant is to cover: the rows it added are on GPUs of one host that is not excluded, which
had no allocation; each asks for no more than its GPU has free, together for the requirement. -/
structure Covers (T : Text) (scheduler : Scheduler) (q : Request) (t t' : Tables)
    (result : ScheduleResult) : Prop where
  host : ∃ host, result.host = some host ∧ T.upper host ∉ scheduler.excludeHosts.map T.upper ∧
    (added t t').map Allocation.slot = result.gpuIndices.map (Slot.mk host)
  free : ∀ a ∈ added t t', t.Free a.slot
  fits : ∀ a ∈ added t t', a.releasedAt = none →
    ∃ g ∈ t'.inventory.rows, g.slot = a.slot ∧ a.vramRequiredMb ≤ g.vramFreeMb
  sum : q.vram ≤ ((added t t').map Allocation.vramRequiredMb).sum

/-- The rows of a grant. -/
theorem Granted.rows {t t' : Tables} {result : ScheduleResult} {host : String}
    {gpus : List GpuInfo} {share : Int} (h : Granted t t' result host gpus share) :
    (added t t').map Allocation.ask = gpus.map fun g => (g.slot, share, none) := by
  obtain ⟨rs, rfl, hrs⟩ := h.asked
  rw [added_insertAll]
  have hmap := congrArg (List.map fun p : Slot × Int => (p.1, p.2, (none : Option Time))) hrs
  rw [List.map_map, List.map_map] at hmap
  exact hmap

theorem mem_admitted {exclude_hosts : List String} {gpus : List GpuInfo} {g : GpuInfo} :
    g ∈ admitted T exclude_hosts gpus ↔
      g ∈ gpus ∧ T.upper g.host ∉ exclude_hosts.map T.upper := by
  unfold admitted
  rw [List.mem_filter, decide_eq_true_eq]

/-- A grant of available GPUs covers the request if each has its share free and the shares make up
the requirement. -/
theorem Granted.covers_iff {t t' : Tables} {self : Scheduler} {q : Request}
    {result : ScheduleResult} {host : String} {gpus : List GpuInfo} {share : Int} (min : Int)
    (h : Granted t t' result host gpus share) (hne : gpus ≠ [])
    (hgpus : ∀ g ∈ gpus, g ∈ admitted T self.excludeHosts (t.available min)) :
    Covers T self q t t' result ↔
      (∀ g ∈ gpus, share ≤ g.vramFreeMb) ∧ q.vram ≤ gpus.length * share := by
  have hadded := h.rows
  have hslots : (Gpu.added t t').map Allocation.slot = gpus.map GpuInfo.slot := by
    have hmap := congrArg (List.map Prod.fst) hadded
    rw [List.map_map, List.map_map] at hmap
    exact hmap
  have hsum : ((Gpu.added t t').map Allocation.vramRequiredMb).sum = gpus.length * share := by
    have hmap := congrArg (List.map fun p : Slot × Int × Option Time => p.2.1) hadded
    rw [List.map_map, List.map_map] at hmap
    rw [show (Gpu.added t t').map Allocation.vramRequiredMb = gpus.map fun _ => share from hmap]
    simp [List.map_const']
  have hrow : ∀ a ∈ Gpu.added t t', ∃ g ∈ gpus, a.slot = g.slot ∧ a.vramRequiredMb = share := by
    intro a ha
    have hmem : a.ask ∈ gpus.map fun g => (g.slot, share, (none : Option Time)) :=
      hadded ▸ List.mem_map_of_mem ha
    obtain ⟨g, hg, he⟩ := List.mem_map.mp hmem
    simp only [Allocation.ask, Prod.mk.injEq] at he
    exact ⟨g, hg, he.1.symm, he.2.1.symm⟩
  have hback : ∀ g ∈ gpus, ∃ a ∈ Gpu.added t t', a.ask = (g.slot, share, none) := by
    intro g hg
    have hmem : (g.slot, share, (none : Option Time)) ∈ (Gpu.added t t').map Allocation.ask :=
      hadded ▸ List.mem_map.mpr ⟨g, hg, rfl⟩
    exact List.mem_map.mp hmem
  have hinv : t'.inventory = t.inventory := by
    obtain ⟨rs, rfl, -⟩ := h.asked
    exact insertAll_inventory rs t
  have hrows : ∀ g ∈ gpus, g ∈ t.inventory.rows ∧ t.Free g.slot := by
    intro g hg
    have := Tables.mem_available.mp (mem_admitted.mp (hgpus g hg)).1
    exact ⟨this.1, this.2.1⟩
  constructor
  · intro hc
    refine ⟨fun g hg => ?_, hsum ▸ hc.sum⟩
    obtain ⟨a, ha, hask⟩ := hback g hg
    simp only [Allocation.ask, Prod.mk.injEq] at hask
    obtain ⟨g', hg', hslot, hle⟩ := hc.fits a ha hask.2.2
    rw [hinv] at hg'
    have hsame : g' = g := List.inj_on_of_nodup_map t.inventory.nodup hg' (hrows g hg).1
      (hslot.trans hask.1)
    rw [← hsame, ← hask.2.1]
    exact hle
  · rintro ⟨hfits, hle⟩
    refine ⟨⟨host, h.named, ?_, ?_⟩, fun a ha => ?_, fun a ha _ => ?_, hsum ▸ hle⟩
    · obtain ⟨g, hg⟩ := List.exists_mem_of_ne_nil gpus hne
      have hadm := (mem_admitted.mp (hgpus g hg)).2
      rwa [h.onHost g hg] at hadm
    · rw [hslots, h.indices, List.map_map]
      refine List.map_congr_left fun g hg => ?_
      rw [Function.comp_apply, ← h.onHost g hg]
      rfl
    · obtain ⟨g, hg, hslot, -⟩ := hrow a ha
      rw [hslot]
      exact (hrows g hg).2
    · obtain ⟨g, hg, hslot, hv⟩ := hrow a ha
      rw [hinv, hv]
      exact ⟨g, (hrows g hg).1, hslot.symm, hfits g hg⟩

/-- The requirement divides evenly among the GPUs, and each has its share free. -/
def Shared (v : Int) (gpus : List GpuInfo) : Prop :=
  (gpus.length : Int) ∣ v ∧ ∀ g ∈ gpus, v / gpus.length ≤ g.vramFreeMb

/-- Equal shares, rounded down, make up the requirement if it divides evenly. -/
theorem shares_iff {v k : Int} (hk : 0 < k) : v ≤ k * (v / k) ↔ k ∣ v := by
  have hle := Int.mul_ediv_self_le (x := v) (k := k) (by omega)
  rw [Int.dvd_iff_emod_eq_zero]
  have hdiv := Int.mul_ediv_add_emod v k
  have hmod := Int.emod_nonneg v (b := k) (by omega)
  omega

/-- The multi-GPU path is balanced if it is taken: where no admitted GPU has the requirement free,
the first host whose GPUs have it together can share it out. -/
def Balanced (T : Text) (self : Scheduler) (q : Request) (t : Tables) : Prop :=
  admitted T self.excludeHosts (t.available q.vram) = [] → 16000 < q.vram →
    ∀ p, (byHost (admitted T self.excludeHosts (t.available 0))).find?
      (fun p => Fits q.vram p.2) = some p → Shared q.vram p.2

/-- What is known of each host of `by_host`. -/
theorem byHost_available (t : Tables) (self : Scheduler) :
    ∀ p ∈ byHost (admitted T self.excludeHosts (t.available 0)),
      (∀ g ∈ p.2, g ∈ admitted T self.excludeHosts (t.available 0) ∧ g.host = p.1) ∧
        (p.2.map GpuInfo.slot).Nodup := by
  intro p hp
  have hgpus := (byHost_spec (admitted T self.excludeHosts (t.available 0))).1 p hp
  rw [hgpus]
  constructor
  · intro g hg
    have := List.mem_filter.mp hg
    exact ⟨this.1, by simpa using this.2⟩
  · refine (t.nodup_available 0).sublist ?_
    exact (List.filter_sublist.trans List.filter_sublist).map _

/-- One GPU that has the requirement free covers it, and the multi-GPU path is not taken. -/
theorem granted_one {self : Scheduler} {q : Request} {t t' : Tables} {result : ScheduleResult}
    {gpu : GpuInfo}
    (hgpu : gpu ∈ admitted T self.excludeHosts (t.available q.vram))
    (h : Granted t t' result gpu.host [gpu] q.vram) :
    (result.success = true → Covers T self q t t' result) ↔ Balanced T self q t := by
  have hvram := (Tables.mem_available.mp (mem_admitted.mp hgpu).1).2.2
  have hcovers : Covers T self q t t' result := by
    refine (h.covers_iff q.vram (List.cons_ne_nil _ _) ?_).mpr ⟨?_, ?_⟩
    · intro g hg
      rw [List.mem_singleton.mp hg]
      exact hgpu
    · exact fun g hg => List.mem_singleton.mp hg ▸ hvram
    · simp
  constructor
  · intro _ hnil
    rw [hnil] at hgpu
    exact absurd hgpu List.not_mem_nil
  · exact fun _ _ => hcovers

/-- A result without success promises nothing, and then no host fits. -/
theorem refused {self : Scheduler} {q : Request} {t t' : Tables} {result : ScheduleResult}
    (hr : result.success = false)
    (h : 16000 < q.vram → (byHost (admitted T self.excludeHosts (t.available 0))).find?
      (fun p => Fits q.vram p.2) = none) :
    (result.success = true → Covers T self q t t' result) ↔ Balanced T self q t := by
  constructor
  · intro _ _ hv p hp
    rw [h hv] at hp
    cases hp
  · intro _ hs
    rw [hr] at hs
    cases hs

/-! ## The paths of `schedule` -/

section

variable {S : Sig} {A : Api S} {K : Store S} {rest : Tables → K.State} (hA : Lawful A T K rest n)
  {self : Scheduler} {q : Request} {t : Tables} {s' : K.State}

include hA

/-- Refreshing the inventory leaves the allocations alone. -/
theorem runs_refresh {r : Except PyError Unit}
    (h : K.Runs n (refreshInventory A T self) (rest t) r s') :
    ∃ inventory, r = .ok () ∧ s' = rest { t with inventory } := by
  have hsaved : ∀ (gpus : List GpuInfo) (t : Tables),
      (t.saveAll gpus) = { t with inventory := (t.saveAll gpus).inventory } := by
    intro gpus
    induction gpus with
    | nil => exact fun t => rfl
    | cons gpu gpus ih => exact fun t => ih (t.saveRow gpu)
  have hprobe : ∀ {hosts : List String} {r : Except PyError (List HostGpuInventory)} {s'},
      K.Runs n (probeAll A hosts) (rest t) r s' → ∃ invs, r = .ok invs ∧ s' = rest t := by
    intro hosts
    induction hosts with
    | nil =>
      rintro r s' ⟨rfl, rfl⟩
      exact ⟨[], rfl, rfl⟩
    | cons host hosts ih =>
      intro r s' h
      rcases (K.runs_bind n).mp h with ⟨inv, s₁, hp, h⟩ | ⟨e, hp, rfl⟩
      · obtain ⟨-, -, rfl⟩ := hA.probeHost hp
        rcases (K.runs_bind n).mp h with ⟨invs, s₂, hp, rfl, rfl⟩ | ⟨e, hp, rfl⟩
        · obtain ⟨-, -, rfl⟩ := ih hp
          exact ⟨_, rfl, rfl⟩
        · obtain ⟨invs, he, -⟩ := ih hp
          cases he
      · obtain ⟨inv, he, -⟩ := hA.probeHost hp
        cases he
  rcases (K.runs_bind n).mp h with ⟨now, s₁, htime, h⟩ | ⟨e, htime, rfl⟩
  · obtain ⟨-, -, rfl⟩ := hA.time htime
    split at h
    · obtain ⟨rfl, rfl⟩ := h
      exact ⟨t.inventory, rfl, rfl⟩
    · rcases (K.runs_bind n).mp h with ⟨invs, s₂, hp, h⟩ | ⟨e, hp, rfl⟩
      · obtain ⟨-, -, rfl⟩ := hprobe hp
        obtain ⟨rfl, rfl⟩ := hA.saveInventory h
        exact ⟨(t.saveAll (savedRows invs)).inventory, rfl, congrArg rest (hsaved _ _)⟩
      · obtain ⟨invs, he, -⟩ := hprobe hp
        cases he
  · obtain ⟨now, he, -⟩ := hA.time htime
    cases he

/-- The allocation of a GPU that is free. -/
theorem runs_allocateOne {gpu : GpuInfo} {reason : String}
    {r : Except PyError (Option ScheduleResult)} (hfree : t.Free gpu.slot)
    (h : K.Runs n (allocateOne A q gpu reason) (rest t) r s') :
    ∃ result t', r = .ok (some result) ∧ s' = rest t' ∧
      Granted t t' result gpu.host [gpu] q.vram := by
  rcases (K.runs_bind n).mp h with ⟨ok, s₁, ha, h⟩ | ⟨e, ha, rfl⟩
  · rcases hA.allocateGpu ha with ⟨-, hok, now, rfl⟩ | ⟨hnot, -, -⟩
    · cases hok
      obtain ⟨rfl, rfl⟩ := h
      refine ⟨_, _, rfl, rfl, rfl, rfl, rfl, by simp, ?_⟩
      exact ⟨[⟨gpu.slot, q.taskId, q.modelName, q.vram, now⟩], rfl, rfl⟩
    · exact absurd hfree hnot
  · rcases hA.allocateGpu ha with ⟨-, he, -⟩ | ⟨-, he, -⟩ <;> cases he

/-- A path that gives one GPU in full, or nothing. -/
def OneOrNone (T : Text) (rest : Tables → K.State) (self : Scheduler) (q : Request) (t : Tables)
    (r : Except PyError (Option ScheduleResult)) (s' : K.State) : Prop :=
  (r = .ok none ∧ s' = rest t) ∨ ∃ gpu ∈ admitted T self.excludeHosts (t.available q.vram),
    ∃ result t', r = .ok (some result) ∧ s' = rest t' ∧
      Granted t t' result gpu.host [gpu] q.vram

/-- A GPU that was read as available is allocated. -/
theorem runs_allocateOne_of_available {gpu : GpuInfo} {reason : String}
    {r : Except PyError (Option ScheduleResult)}
    (hgpu : gpu ∈ admitted T self.excludeHosts (t.available q.vram))
    (h : K.Runs n (allocateOne A q gpu reason) (rest t) r s') :
    OneOrNone T rest self q t r s' := by
  have hfree := (Tables.mem_available.mp (mem_admitted.mp hgpu).1).2.1
  exact Or.inr ⟨gpu, hgpu, runs_allocateOne hA hfree h⟩

theorem runs_tryPreferred {r : Except PyError (Option ScheduleResult)}
    (h : K.Runs n (tryPreferred A T self q) (rest t) r s') : OneOrNone T rest self q t r s' := by
  unfold tryPreferred at h
  split at h
  · rcases (K.runs_bind n).mp h with ⟨available, s₁, hget, h⟩ | ⟨e, hget, rfl⟩
    · obtain ⟨hav, rfl⟩ := hA.getAvailableGpus hget
      cases hav
      simp only at h
      split at h
      · exact Or.inl h
      · rename_i gpu gpus hpreferred
        have hgpu := List.mem_of_mem_filter (hpreferred ▸ List.mem_cons_self)
        exact runs_allocateOne_of_available hA hgpu h
    · cases (hA.getAvailableGpus hget).1
  · exact Or.inl h

/-- The best fit is found if any GPU is available. -/
theorem runs_tryBestFit {r : Except PyError (Option ScheduleResult)}
    (h : K.Runs n (tryBestFit A self q) (rest t) r s') : OneOrNone T rest self q t r s' ∧
      (r = .ok none → admitted T self.excludeHosts (t.available q.vram) = []) := by
  rcases (K.runs_bind n).mp h with ⟨available, s₁, hget, h⟩ | ⟨e, hget, rfl⟩
  · obtain ⟨hav, rfl⟩ := hA.getAvailableGpus hget
    cases hav
    have hperm : (tightest (admitted T self.excludeHosts (t.available q.vram))).Perm
        (admitted T self.excludeHosts (t.available q.vram)) := List.perm_insertionSort _ _
    split at h
    · rename_i hnil
      rw [hnil] at hperm
      exact ⟨Or.inl h, fun _ => hperm.symm.eq_nil⟩
    · rename_i gpu gpus hcons
      have hgpu := hperm.mem_iff.mp (hcons ▸ List.mem_cons_self)
      have hone := runs_allocateOne_of_available hA hgpu h
      refine ⟨hone, fun hnone => ?_⟩
      have hfree := (Tables.mem_available.mp (mem_admitted.mp hgpu).1).2.1
      obtain ⟨result, t', hr, -⟩ := runs_allocateOne hA hfree h
      rw [hnone] at hr
      cases hr
  · cases (hA.getAvailableGpus hget).1

/-- Free GPUs of a host, no two the same, are all obtained. -/
theorem runs_allocateEach {host : String} {share : Int} : ∀ {gpus : List GpuInfo} {t : Tables}
    {r : Except PyError (List Int)} {s' : K.State}, (∀ g ∈ gpus, g.host = host ∧ t.Free g.slot) →
      (gpus.map GpuInfo.slot).Nodup → K.Runs n (allocateEach A q host share gpus) (rest t) r s' →
        r = .ok (gpus.map GpuInfo.gpuIndex) ∧ ∃ rs : List Allocations.Request,
          s' = rest (t.insertAll rs) ∧
            rs.map (fun r => (r.slot, r.vramRequiredMb)) = gpus.map fun g => (g.slot, share)
  | [], t, r, s', _, _, h => by
    obtain ⟨rfl, rfl⟩ := h
    exact ⟨rfl, [], rfl, rfl⟩
  | gpu :: gpus, t, r, s', hfree, hnodup, h => by
    obtain ⟨rfl, hgpu⟩ := hfree gpu List.mem_cons_self
    rw [List.map_cons, List.nodup_cons] at hnodup
    rcases (K.runs_bind n).mp h with ⟨ok, s₁, ha, h⟩ | ⟨e, ha, rfl⟩
    · rcases hA.allocateGpu ha with ⟨-, hok, now, rfl⟩ | ⟨hnot, -, -⟩
      · cases hok
        have hrest : ∀ g ∈ gpus, g.host = gpu.host ∧
            (t.insert ⟨gpu.slot, q.taskId, q.modelName, share, now⟩).Free g.slot := by
          intro g hg
          have hne : gpu.slot ≠ g.slot := by
            intro he
            exact hnodup.1 (he ▸ List.mem_map_of_mem hg)
          obtain ⟨hhost, hfree⟩ := hfree g (List.mem_cons_of_mem gpu hg)
          exact ⟨hhost, (Tables.free_insert hne).mpr hfree⟩
        rcases (K.runs_bind n).mp h with ⟨indices, s₂, heach, hr, rfl⟩ | ⟨e, heach, rfl⟩
        · obtain ⟨hind, rs, rfl, hrs⟩ := runs_allocateEach hrest hnodup.2 heach
          cases hind
          refine ⟨hr, ⟨gpu.slot, q.taskId, q.modelName, share, now⟩ :: rs, rfl, ?_⟩
          rw [List.map_cons, List.map_cons, hrs]
        · cases (runs_allocateEach hrest hnodup.2 heach).1
      · exact absurd hgpu hnot
    · rcases hA.allocateGpu ha with ⟨-, he, -⟩ | ⟨-, he, -⟩ <;> cases he

/-- The first host that fits is granted. -/
theorem runs_tryHosts : ∀ {hosts : List (String × List GpuInfo)} {t : Tables}
    {r : Except PyError ScheduleResult} {s' : K.State},
    (∀ p ∈ hosts, (∀ g ∈ p.2, g.host = p.1 ∧ t.Free g.slot) ∧ (p.2.map GpuInfo.slot).Nodup) →
      K.Runs n (tryHosts A q hosts) (rest t) r s' →
        ∃ result t', r = .ok result ∧ s' = rest t' ∧
          ((hosts.find? (fun p => Fits q.vram p.2) = none ∧ result.success = false ∧ t' = t) ∨
            ∃ p, hosts.find? (fun p => Fits q.vram p.2) = some p ∧
              Granted t t' result p.1 p.2 (q.vram / p.2.length))
  | [], t, r, s', _, h => by
    obtain ⟨rfl, rfl⟩ := h
    exact ⟨_, t, rfl, rfl, Or.inl ⟨rfl, rfl, rfl⟩⟩
  | (host, gpus) :: hosts, t, r, s', hhosts, h => by
    unfold tryHosts at h
    split at h
    · rename_i hfits
      obtain ⟨hfree, hnodup⟩ := hhosts (host, gpus) List.mem_cons_self
      rcases (K.runs_bind n).mp h with ⟨indices, s₁, heach, h⟩ | ⟨e, heach, rfl⟩
      · obtain ⟨hind, rs, rfl, hrs⟩ := runs_allocateEach hA hfree hnodup heach
        cases hind
        have hlen : 2 ≤ (gpus.map GpuInfo.gpuIndex).length := by
          rw [List.length_map]
          exact hfits.2
        rw [if_pos hlen] at h
        obtain ⟨rfl, rfl⟩ := h
        refine ⟨_, _, rfl, rfl, Or.inr ⟨(host, gpus), ?_, ?_⟩⟩
        · rw [List.find?_cons_of_pos (by simpa using hfits)]
        · exact ⟨rfl, rfl, rfl, fun g hg => (hfree g hg).1, rs, rfl, hrs⟩
      · cases (runs_allocateEach hA hfree hnodup heach).1
    · rename_i hfits
      have hrest := runs_tryHosts (fun p hp => hhosts p (List.mem_cons_of_mem _ hp)) h
      rw [List.find?_cons_of_neg (by simpa using hfits)]
      exact hrest

theorem runs_lastResort {r : Except PyError ScheduleResult}
    (hnone : admitted T self.excludeHosts (t.available q.vram) = [])
    (h : K.Runs n (lastResort A T self q) (rest t) r s') :
    ∃ result t', r = .ok result ∧ s' = rest t' ∧ t'.inventory = t.inventory ∧
      ((result.success = true → Covers T self q t t' result) ↔ Balanced T self q t) := by
  unfold lastResort at h
  split at h
  · rename_i hv
    have hmulti : ∀ {r s'}, K.Runs n (tryMultiGpu A self q) (rest t) r s' →
        ∃ result t', r = .ok result ∧ s' = rest t' ∧
          (((byHost (admitted T self.excludeHosts (t.available 0))).find?
              (fun p => Fits q.vram p.2) = none ∧ result.success = false ∧ t' = t) ∨
            ∃ p, (byHost (admitted T self.excludeHosts (t.available 0))).find?
              (fun p => Fits q.vram p.2) = some p ∧
                Granted t t' result p.1 p.2 (q.vram / p.2.length)) := by
      intro r s' h
      rcases (K.runs_bind n).mp h with ⟨gpus, s₁, hget, h⟩ | ⟨e, hget, rfl⟩
      · obtain ⟨hav, rfl⟩ := hA.getAvailableGpus hget
        cases hav
        refine runs_tryHosts hA (fun p hp => ⟨fun g hg => ?_, (byHost_available t self p hp).2⟩) h
        obtain ⟨hadm, hhost⟩ := (byHost_available t self p hp).1 g hg
        exact ⟨hhost, (Tables.mem_available.mp (mem_admitted.mp hadm).1).2.1⟩
      · cases (hA.getAvailableGpus hget).1
    rcases (K.runs_bind n).mp h with ⟨result, s₁, hrun, hend⟩ | ⟨e, hrun, rfl⟩
    · obtain ⟨result', t', hr, rfl, hcase⟩ := hmulti hrun
      cases hr
      rcases hcase with ⟨hfind, hs, rfl⟩ | ⟨p, hfind, hgranted⟩
      · rw [hs] at hend
        obtain ⟨rfl, rfl⟩ := hend
        exact ⟨_, t', rfl, rfl, rfl, refused rfl fun _ => hfind⟩
      · rw [hgranted.success] at hend
        obtain ⟨rfl, rfl⟩ := hend
        have hp := byHost_available t self p (List.mem_of_find?_eq_some hfind)
        have hfits : Fits q.vram p.2 := by simpa using List.find?_some hfind
        have hne : p.2 ≠ [] := by
          intro hnil
          rw [hnil] at hfits
          exact absurd hfits.2 (by decide)
        have hk : (0 : Int) < p.2.length := by
          have := hfits.2
          omega
        refine ⟨result, t', rfl, rfl, ?_, ?_⟩
        · obtain ⟨rs, rfl, -⟩ := hgranted.asked
          exact insertAll_inventory rs t
        · rw [hgranted.covers_iff 0 hne fun g hg => (hp.1 g hg).1, shares_iff hk]
          constructor
          · intro hc _ _ p' hp'
            obtain rfl := Option.some.inj (hfind.symm.trans hp')
            exact (hc hgranted.success).symm
          · exact fun hb _ => (hb hnone hv p hfind).symm
    · obtain ⟨result', t', hr, -⟩ := hmulti hrun
      cases hr
  · rename_i hv
    obtain ⟨rfl, rfl⟩ := h
    exact ⟨_, t, rfl, rfl, rfl, refused rfl fun hv' => absurd hv' hv⟩

theorem runs_place {r : Except PyError ScheduleResult}
    (h : K.Runs n (place A T self q) (rest t) r s') :
    ∃ result t', r = .ok result ∧ s' = rest t' ∧ t'.inventory = t.inventory ∧
      ((result.success = true → Covers T self q t t' result) ↔ Balanced T self q t) := by
  have hgrant : ∀ {gpu result t'}, gpu ∈ admitted T self.excludeHosts (t.available q.vram) →
      Granted t t' result gpu.host [gpu] q.vram → t'.inventory = t.inventory ∧
        ((result.success = true → Covers T self q t t' result) ↔ Balanced T self q t) := by
    intro gpu result t' hgpu hgranted
    refine ⟨?_, granted_one hgpu hgranted⟩
    obtain ⟨rs, rfl, -⟩ := hgranted.asked
    exact insertAll_inventory rs t
  rcases (K.runs_bind n).mp h with ⟨preferred, s₁, hrun, h⟩ | ⟨e, hrun, rfl⟩
  · rcases runs_tryPreferred hA hrun with ⟨hr, rfl⟩ | ⟨gpu, hgpu, result, t', hr, rfl, hg⟩
    · cases hr
      rcases (K.runs_bind n).mp h with ⟨best, s₂, hrun, h⟩ | ⟨e, hrun, rfl⟩
      · obtain ⟨hone, hnone⟩ := runs_tryBestFit hA hrun
        rcases hone with ⟨hr, rfl⟩ | ⟨gpu, hgpu, result, t', hr, rfl, hg⟩
        · cases hr
          exact runs_lastResort hA (hnone rfl) h
        · cases hr
          obtain ⟨rfl, rfl⟩ := h
          exact ⟨result, t', rfl, rfl, hgrant hgpu hg⟩
      · rcases (runs_tryBestFit hA hrun).1 with ⟨hr, -⟩ | ⟨gpu, -, result, t', hr, -⟩ <;> cases hr
    · cases hr
      obtain ⟨rfl, rfl⟩ := h
      exact ⟨result, t', rfl, rfl, hgrant hgpu hg⟩
  · rcases runs_tryPreferred hA hrun with ⟨hr, -⟩ | ⟨gpu, -, result, t', hr, -⟩ <;> cases hr

end

/-- **Every grant covers the request exactly when it is balanced.** The inventory is the one
`schedule` works on: as refreshed, which is how it leaves it. -/
theorem schedule_covers_iff {self : Scheduler} {q : Request} {t : Tables} {result : ScheduleResult}
    {s' : Database Tables}
    (h : store.Runs n (prog T (.schedule self q)) (Database.at_ t) (.ok result) s') :
    (result.success = true → Covers T self q { t with inventory := s'.committed.inventory }
        s'.committed result) ↔
      Balanced T self q { t with inventory := s'.committed.inventory } := by
  have hA := api_lawful T n
  rcases (store.runs_bind n).mp h with ⟨_, s₁, hrefresh, h⟩ | ⟨e, -, he⟩
  · obtain ⟨inventory, -, rfl⟩ := runs_refresh hA hrefresh
    obtain ⟨result', t', hr, rfl, hinv, hiff⟩ := runs_place hA h
    cases hr
    rw [Database.committed_at, hinv]
    exact hiff
  · cases he

/-! ## A grant that falls short -/

/-- A GPU of host `h`. -/
def gpuWith (idx free : Int) : GpuInfo := ⟨"h", idx, "", free, free, 0, 0, 0⟩

/-- Two GPUs, neither with the VRAM of the task. -/
def twoGpus : Tables :=
  ⟨⟨[gpuWith 0 10001, gpuWith 1 10000], by decide⟩, Allocations.empty⟩

/-- A scheduler that has just refreshed the inventory. -/
def fresh : Scheduler := ⟨[], 300, 1⟩

/-- A task that requires `v` MB. -/
def taskOf (v : Int) : Request := ⟨"t", "", v, ""⟩

/-- The clock is at one second. -/
def second : Env := ⟨1, ⟨"h", [], true, none⟩, false⟩

/-- `schedule` on the two GPUs. -/
def scheduled (v : Int) : Option (Except PyError ScheduleResult × Database Tables) :=
  store.runWith 0 (prog ascii (.schedule fresh (taskOf v))) (List.replicate 20 second)
    (Database.at_ twoGpus)

theorem scheduled_isSome : (scheduled 20001).isSome ∧ (scheduled 20000).isSome := by
  decide +kernel

theorem uneven_grant : ∃ result s', store.Runs 0 (prog ascii (.schedule fresh (taskOf 20001)))
    (Database.at_ twoGpus) (.ok result) s' ∧ result.success = true ∧
      ¬ Covers ascii fresh (taskOf 20001) { twoGpus with inventory := s'.committed.inventory }
        s'.committed result := by
  obtain ⟨⟨r, s'⟩, hrun⟩ := Option.isSome_iff_exists.mp scheduled_isSome.1
  have hr : (scheduled 20001).map Prod.fst = some (.ok {
      success := true, host := some "h", gpuIndices := [0, 1], modelName := some ""
      vramAllocatedMb := 20001, reason := "Multi-GPU on h: 2 GPUs, 20001MB combined" }) := by
    decide +kernel
  have hsum : (scheduled 20001).map (fun x =>
      ((added twoGpus x.2.committed).map Allocation.vramRequiredMb).sum) = some 20000 := by
    decide +kernel
  rw [hrun] at hr hsum
  obtain rfl := Option.some.inj hr
  refine ⟨_, s', store.runs_of_runWith 0 hrun, rfl, fun hc => ?_⟩
  have hle := hc.sum
  rw [show ((added { twoGpus with inventory := s'.committed.inventory } s'.committed).map
    Allocation.vramRequiredMb).sum = 20000 from Option.some.inj hsum] at hle
  exact absurd hle (by decide)

theorem schedule_covers_iff_even : ∃ result s',
    store.Runs 0 (prog ascii (.schedule fresh (taskOf 20000))) (Database.at_ twoGpus)
      (.ok result) s' ∧
    ((result.success = true → Covers ascii fresh (taskOf 20000)
        { twoGpus with inventory := s'.committed.inventory } s'.committed result) ↔
      Balanced ascii fresh (taskOf 20000) { twoGpus with inventory := s'.committed.inventory }) := by
  obtain ⟨⟨r, s'⟩, hrun⟩ := Option.isSome_iff_exists.mp scheduled_isSome.2
  have hr : (scheduled 20000).map Prod.fst = some (.ok {
      success := true, host := some "h", gpuIndices := [0, 1], modelName := some ""
      vramAllocatedMb := 20001, reason := "Multi-GPU on h: 2 GPUs, 20001MB combined" }) := by
    decide +kernel
  rw [hrun] at hr
  obtain rfl := Option.some.inj hr
  have hruns := store.runs_of_runWith 0 hrun
  exact ⟨_, s', hruns, schedule_covers_iff hruns⟩

end ClaudeSwarm.Gpu
