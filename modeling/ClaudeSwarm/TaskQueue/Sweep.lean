import ClaudeSwarm.TaskQueue.FilesystemBoard
import ClaudeSwarm.TaskQueue.RedisBoard
import ClaudeSwarm.TaskQueue.SqliteBoard

/-!
# Sweeps of stale claims

`requeue_stale` puts back the claimed tasks whose claim is older than `ttl`. The SQLite backend selects
them all; the other two look at the fifty tasks that `list_claimed` shows, by file name or by score.

* `Serves.sweepsAll_iff`: such a sweep is complete exactly when every stale task is shown.
* **`requeue_stale_iff`**: when `requeue_stale` is complete, on each backend;
  `requeue_stale_misses_task` is a tree of fifty-one stale tasks.
-/

namespace ClaudeSwarm.TaskQueue

open Interleave Data
open Python (Time PyError FloatFmt)

/-- What a complete sweep that returns `ids` makes of board `l`, when the clock reads `now`: no stale
claim is left, the tasks `ids` are pending without a claimer, and these are the tasks that moved. -/
structure Swept (now : Time) (ttl : Int) (l l' : Board) (ids : List String) : Prop where
  complete : ∀ t ∈ l.rows, t.state = .claimed → Stale now ttl t →
    ∀ t', l'.find? t.id = some t' → t'.state ≠ .claimed
  requeued : ∀ id ∈ ids, ∃ t, l'.find? id = some t ∧ t.state = .pending ∧ t.claimedBy = ""
  moved : ∀ id, id ∈ ids ↔ (l'.find? id).map Task.state ≠ (l.find? id).map Task.state
  nodup : ids.Nodup

/-- The sweep `p`, when the clock reads `now`, is complete on a store that holds `l`. -/
def SweepsAll {S : Sig} (T : Store S) (Holds : T.State → Board → Prop)
    (p : Prog S PyError (List String)) (s : T.State) (l : Board) (now : Time) (ttl : Int) : Prop :=
  ∀ n x s', T.Runs n p s x s' → ∃ ids l', x = .ok ids ∧ Holds s' l' ∧ Swept now ttl l l' ids

/-! ## Sweeps of what is shown -/

namespace Serves

variable {S : Sig} {B : Backend S} {T : Store S} {Holds : T.State → Board → Prop}
  {tier : Task → Int} {shown : T.State → Board → TaskState → Nat → List Task}
  (hB : Serves B T Holds tier shown) {s : T.State} {l : Board} {now : Time} {ttl : Int}
include hB

/-- Every stale claimed task is shown. -/
def StaleShown (shown : T.State → Board → TaskState → Nat → List Task) (s : T.State) (l : Board)
    (now : Time) (ttl : Int) : Prop :=
  ∀ t ∈ l.rows, t.state = .claimed → Stale now ttl t → t.id ∈ (shown s l .claimed 50).map Task.id

/-- A store holds a task in one state. -/
theorem state_unique {l₁ l₂ : Board} (h₁ : Holds s l₁) (h₂ : Holds s l₂) (id : String) :
    (l₁.find? id).map Task.state = (l₂.find? id).map Task.state := by
  have hread : (l₁.find? id).map (Task.read tier) = (l₂.find? id).map (Task.read tier) :=
    Except.ok.inj ((hB.get (n := 0) h₂).mp ((hB.get h₁).mpr ⟨rfl, rfl⟩)).1
  have hstate : ∀ o : Option Task, o.map Task.state = (o.map (Task.read tier)).map Task.state := by
    intro o
    cases o <;> rfl
  rw [hstate, hstate (l₂.find? id), hread]

/-- What a sweep of the tasks shown makes of the board. -/
theorem swept_of_shown {l' : Board} (h : Holds s l) (hall : StaleShown shown s l now ttl)
    (hl' : ∀ id, l'.find? id = sweep tier (staleIds now ttl (shown s l .claimed 50)) l id) :
    Swept now ttl l l' (staleIds now ttl (shown s l .claimed 50)) := by
  -- the tasks swept were claimed
  have hmem : ∀ {id}, id ∈ staleIds now ttl (shown s l .claimed 50) →
      ∃ t, l.find? id = some t ∧ t.state = .claimed := by
    intro id hid
    obtain ⟨t, ht, rfl⟩ := List.mem_map.mp hid
    obtain ⟨t₀, hfind, -, hst⟩ := hB.mem_shown h (List.mem_filter.mp ht).1
    exact ⟨t₀, hfind, hst⟩
  refine ⟨fun t ht hc hs t' ht' => ?_, fun id hid => ?_, fun id => ⟨fun hid => ?_, fun hne => ?_⟩, ?_⟩
  · obtain ⟨t₁, ht₁, hid⟩ := List.mem_map.mp (hall t ht hc hs)
    obtain ⟨t₀, hfind, rfl, -⟩ := hB.mem_shown h ht₁
    rw [hid, Table.find?_of_mem ht] at hfind
    obtain rfl := Option.some.inj hfind
    have hin : t.id ∈ staleIds now ttl (shown s l .claimed 50) :=
      List.mem_map.mpr ⟨t.read tier, List.mem_filter.mpr ⟨ht₁, decide_eq_true hs⟩, rfl⟩
    rw [hl', sweep, if_pos hin, Table.find?_of_mem ht] at ht'
    cases ht'
    simp [Task.requeue]
  · obtain ⟨t, ht, -⟩ := hmem hid
    exact ⟨_, by rw [hl', sweep, if_pos hid, ht]; rfl, rfl, rfl⟩
  · obtain ⟨t, ht, hst⟩ := hmem hid
    rw [hl', sweep, if_pos hid, ht]
    simp [Task.requeue, hst]
  · by_contra hid
    rw [hl', sweep, if_neg hid] at hne
    exact hne rfl
  · exact (hB.nodup_shown h).sublist (List.filter_sublist.map Task.id)

/-- **Sweeps.** A sweep of the tasks shown is complete exactly when every stale one is shown. -/
theorem sweepsAll_iff (h : Holds s l)
    (hruns : ∃ x s', T.Runs 0 (B.requeueStaleAt ttl now) s x s') :
    SweepsAll T Holds (B.requeueStaleAt ttl now) s l now ttl ↔ StaleShown shown s l now ttl := by
  constructor
  · intro hw t ht hc hs
    obtain ⟨x, s', hr⟩ := hruns
    obtain ⟨ids, l₁, -, hl₁, hswept⟩ := hw 0 x s' hr
    obtain ⟨-, l₂, hl₂, hfind⟩ := hB.runs_requeueStaleAt h hr
    by_contra hnot
    have hout : t.id ∉ staleIds now ttl (shown s l .claimed 50) := fun hin =>
      hnot (List.map_subset _ List.filter_sublist.subset hin)
    have hstate := hB.state_unique hl₁ hl₂ t.id
    rw [hfind, sweep, if_neg hout, Table.find?_of_mem ht, Option.map_some, hc] at hstate
    obtain ⟨t', ht', hc'⟩ := Option.map_eq_some_iff.mp hstate
    exact hswept.complete t ht hc hs t' ht' hc'
  · intro hall n x s' hr
    obtain ⟨rfl, l', hl', hfind⟩ := hB.runs_requeueStaleAt h hr
    exact ⟨_, l', rfl, hl', hB.swept_of_shown h hall hfind⟩

end Serves

/-! ## SQLite -/

namespace Sqlite

open ClaudeSwarm.Sqlite

variable {s : Db} {l : Board} {now : Time} {ttl : Int}

theorem stale_taskOf {row : Row} :
    Stale now ttl (taskOf row) ↔ 0 < row.claimedAt ∧ row.claimedAt < now - ttl :=
  and_congr_right fun _ => lt_sub_comm

theorem mem_staleRows {t : Tasks} {id : String} : id ∈ staleRows t ttl now ↔
    ∃ row, t.find? id = some row ∧ row.state = .claimed ∧ Stale now ttl (taskOf row) := by
  simp only [staleRows, List.mem_map, List.mem_filter, decide_eq_true_iff, stale_taskOf]
  constructor
  · rintro ⟨row, ⟨hrow, hs⟩, rfl⟩
    exact ⟨row, Table.find?_of_mem hrow, hs⟩
  · rintro ⟨row, hrow, hs⟩
    exact ⟨row, ⟨Table.find?_mem hrow, hs⟩, Table.find?_key hrow⟩

/-- The sweep of the SQLite backend is complete. -/
theorem sweepsAll (h : Holds s l) : SweepsAll store Holds (requeueStaleAt ttl now) s l now ttl := by
  intro n x s' hr
  obtain ⟨rfl, hrest, htable⟩ := runs_requeueStaleAt h.rest hr
  obtain ⟨-, hsound⟩ := kept_swept (staleRows s.table ttl now) s.table
  obtain rfl := h.board
  have hin : ∀ {id row}, id ∈ staleRows s.table ttl now → s.table.find? id = some row →
      (boardOf s'.table).find? id = some (taskOf (putBack row)) := by
    intro id row hid hrow
    rw [find?_boardOf, htable, find?_swept, hrow, Option.map_some, if_pos hid, Option.map_some]
  have hout : ∀ {id}, id ∉ staleRows s.table ttl now →
      (boardOf s'.table).find? id = (boardOf s.table).find? id := by
    intro id hid
    rw [find?_boardOf, find?_boardOf, htable, find?_swept]
    simp only [hid, if_false, Option.map_id']
  refine ⟨_, boardOf s'.table, rfl, ⟨hrest, rfl, htable ▸ hsound h.sound⟩,
    ⟨fun t ht hc hs t' ht' => ?_, fun id hid => ?_, fun id => ⟨fun hid => ?_, fun hne => ?_⟩, ?_⟩⟩
  · obtain ⟨row, hrow, rfl⟩ := h.mem.mp ht
    have hrow' : s.table.find? (taskOf row).id = some row := Table.find?_of_mem hrow
    rw [hin (mem_staleRows.mpr ⟨row, hrow', hc, hs⟩) hrow'] at ht'
    cases ht'
    simp [taskOf, putBack]
  · obtain ⟨row, hrow, -⟩ := mem_staleRows.mp hid
    exact ⟨taskOf (putBack row), hin hid hrow, rfl, rfl⟩
  · obtain ⟨row, hrow, hc, -⟩ := mem_staleRows.mp hid
    rw [hin hid hrow, find?_boardOf, hrow]
    simp [taskOf, putBack, hc]
  · by_contra hid
    exact hne (congrArg (Option.map Task.state) (hout hid))
  · exact s.table.nodup.sublist (List.filter_sublist.map Row.id)

end Sqlite

/-! ## The filesystem -/

namespace Filesystem

variable {F : FloatFmt} {s : Dirs} {l : Board} {now : Time} {ttl : Int}

/-- Every stale claimed task has its file among the first fifty names of `claimed/`. -/
def StaleListed (s : Dirs) (l : Board) (now : Time) (ttl : Int) : Prop :=
  ∀ t ∈ l.rows, t.state = .claimed → Stale now ttl t → fileName t.id ∈ listed s .claimed 50

theorem sweepsAll_iff (h : Holds s l) :
    SweepsAll store Holds ((backend F).requeueStaleAt ttl now) s l now ttl ↔
      StaleListed s l now ttl := by
  rw [(serves_backend F).sweepsAll_iff h (exists_runs 0 _ s)]
  refine forall_congr' fun t => forall_congr' fun ht => forall_congr' fun hc =>
    forall_congr' fun _ => ⟨fun hin => ?_, fun hname => ?_⟩
  · obtain ⟨t', ht', hid⟩ := List.mem_map.mp hin
    exact hid ▸ (mem_shown.mp ht').2.2
  · exact List.mem_map.mpr ⟨t, mem_shown.mpr ⟨Table.find?_of_mem ht, hc, hname⟩, rfl⟩

end Filesystem

/-! ## Redis -/

namespace Redis

open ClaudeSwarm.Redis

variable {F : FloatFmt} {s : Keys} {l : Board} {now : Time} {ttl : Int}

/-- Every stale claimed task is among the first fifty members of `tasks:claimed`. -/
def StaleListed (s : Keys) (l : Board) (now : Time) (ttl : Int) : Prop :=
  ∀ t ∈ l.rows, t.state = .claimed → Stale now ttl t → t.id ∈ (s.tasks .claimed).range 49

theorem sweepsAll_iff (hF : F.RoundTrips) (h : Holds F s l) :
    SweepsAll store (Holds F) ((backend F).requeueStaleAt ttl now) s l now ttl ↔
      StaleListed s l now ttl := by
  rw [(serves hF).sweepsAll_iff h (exists_runs 0 _ s)]
  refine forall_congr' fun t => forall_congr' fun ht => forall_congr' fun _ =>
    forall_congr' fun _ => ⟨fun hin => ?_, fun hid => ?_⟩
  · obtain ⟨t', ht', hid⟩ := List.mem_map.mp hin
    obtain ⟨id, hrange, hfind⟩ := List.mem_filterMap.mp ht'
    obtain ⟨t₀, hfind₀, rfl⟩ := Option.map_eq_some_iff.mp hfind
    have hkey : t₀.id = id := Table.find?_key hfind₀
    have heq : id = t.id := hkey.symm.trans hid
    exact heq ▸ hrange
  · refine List.mem_map.mpr ⟨t.read lostTier, List.mem_filterMap.mpr ⟨t.id, hid, ?_⟩, rfl⟩
    rw [Table.find?_of_mem ht]
    rfl

end Redis

/-! ## The claim -/

/-- **`requeue_stale`.** For every board a backend can hold, every `ttl` and whatever the clock reads,
`requeue_stale` puts back all stale tasks and no other and returns their identifiers: on SQLite always,
on the other backends if and only if every stale task is among the fifty claimed ones they look at. -/
theorem requeue_stale_iff {F : FloatFmt} (hF : F.RoundTrips) (now : Time) (ttl : Int) :
    (∀ s l, Sqlite.Holds s l →
      SweepsAll ClaudeSwarm.Sqlite.store Sqlite.Holds (Sqlite.requeueStaleAt ttl now) s l now ttl) ∧
    (∀ s l, Filesystem.Holds s l →
      (SweepsAll Filesystem.store Filesystem.Holds
          ((Filesystem.backend F).requeueStaleAt ttl now) s l now ttl ↔
        Filesystem.StaleListed s l now ttl)) ∧
    ∀ s l, Redis.Holds F s l →
      (SweepsAll ClaudeSwarm.Redis.store (Redis.Holds F) ((Redis.backend F).requeueStaleAt ttl now)
          s l now ttl ↔ Redis.StaleListed s l now ttl) :=
  ⟨fun _ _ h => Sqlite.sweepsAll h, fun _ _ h => Filesystem.sweepsAll_iff h,
    fun _ _ h => Redis.sweepsAll_iff hF h⟩

/-! ### Fifty-one stale tasks -/

/-- A task claimed at the first second. -/
def staleTask (i : Nat) : Task :=
  { id := "task-" ++ toString i, title := "t", state := .claimed, claimedBy := "w", claimedAt := 1 }

theorem nodup_staleTask : (((List.range 51).map staleTask).map Task.id).Nodup := by decide +kernel

/-- A board with fifty-one of them. -/
def manyStale : Board := ⟨(List.range 51).map staleTask, nodup_staleTask⟩

theorem holds_manyStale : Filesystem.Holds (Filesystem.treeOf manyStale) manyStale := by
  refine Filesystem.holds_treeOf (fun t ht => ?_) fun t ht => ?_ <;>
    obtain ⟨i, -, rfl⟩ := List.mem_map.mp ht
  · exact (by decide : TaskState.claimed ∈ allStates)
  · exact (by decide : (0 : Int) ≤ 3 ∧ (3 : Int) ≤ 5)

/-- The names of fifty-one files do not fit into fifty. -/
theorem not_staleListed :
    ¬ Filesystem.StaleListed (Filesystem.treeOf manyStale) manyStale 1000 600 := by
  intro h
  have hstale : ∀ i, Stale 1000 600 (staleTask i) := fun i =>
    ⟨(by decide : (0 : Time) < 1), (by decide +kernel : ((600 : Int) : Time) < 1000 - 1)⟩
  have hnames : (manyStale.rows.map fun t => Filesystem.fileName t.id) ⊆
      Filesystem.listed (Filesystem.treeOf manyStale) .claimed 50 := by
    intro name hname
    obtain ⟨t, ht, rfl⟩ := List.mem_map.mp hname
    obtain ⟨i, -, rfl⟩ := List.mem_map.mp ht
    exact h _ ht rfl (hstale i)
  have hnodup : (manyStale.rows.map fun t => Filesystem.fileName t.id).Nodup := by
    rw [← Function.comp_def Filesystem.fileName Task.id, ← List.map_map]
    exact manyStale.nodup.map fun _ _ => Filesystem.fileName_injective
  have hle := (List.subperm_of_subset hnodup hnames).length_le
  have hlen : (manyStale.rows.map fun t => Filesystem.fileName t.id).length = 51 := by
    simp [manyStale]
  have hcut : (Filesystem.listed (Filesystem.treeOf manyStale) .claimed 50).length ≤ 50 :=
    List.length_take_le 50 _
  omega

theorem requeue_stale_iff_examples :
    (SweepsAll Filesystem.store Filesystem.Holds
        ((Filesystem.backend Python.exact).requeueStaleAt 600 1000) (Filesystem.treeOf manyStale)
        manyStale 1000 600 ↔
      Filesystem.StaleListed (Filesystem.treeOf manyStale) manyStale 1000 600) ∧
    (SweepsAll ClaudeSwarm.Redis.store (Redis.Holds Python.exact)
        ((Redis.backend Python.exact).requeueStaleAt 600 1000) .empty .empty 1000 600 ↔
      Redis.StaleListed .empty .empty 1000 600) := by
  obtain ⟨-, hfiles, hredis⟩ := requeue_stale_iff Python.float_str_exact 1000 600
  exact ⟨hfiles _ _ holds_manyStale, hredis _ _ Redis.holds_empty⟩

/-- Of fifty-one stale tasks one stays claimed. -/
theorem requeue_stale_misses_task :
    ¬ SweepsAll Filesystem.store Filesystem.Holds
      ((Filesystem.backend Python.exact).requeueStaleAt 600 1000) (Filesystem.treeOf manyStale)
      manyStale 1000 600 := fun h =>
  not_staleListed ((Filesystem.sweepsAll_iff holds_manyStale).mp h)

end ClaudeSwarm.TaskQueue
