import ClaudeSwarm.TaskQueue.Lifecycle
import ClaudeSwarm.TaskQueue.SqliteBoard

/-!
# What `list_all` shows

`list_all(limit)` lists the five states one after the other. On SQLite and on the filesystem every
task is listed under its state. On Redis a listing goes through a sorted set, and a task that runs or
has failed is in none.

* `Lists.perm_iff`: listings that show every task of their state show the board once.
* **`list_all_iff`**: after any session of at most `limit` tasks `list_all(limit)` shows every task, on
  Redis if and only if none is running or has failed; `started_invisible` is such a session.
-/

namespace ClaudeSwarm.TaskQueue

open Interleave Data
open Python (PyError FloatFmt)

/-- `list_all(limit)` shows each task of `created` once, in the state in which `get` finds it. -/
def AllVisible {S : Sig} (T : Store S) (Q : Api S) (s : T.State) (created : List Task)
    (limit : Nat) : Prop :=
  ∀ n x s', T.Runs n (Q.listAll limit) s x s' → ∃ tasks, x = .ok tasks ∧
    (tasks.map Task.id).Perm (created.map Task.id) ∧
    ∀ t ∈ tasks, ∀ n' y s'', T.Runs n' (Q.get t.id) s' y s'' →
      ∃ t', y = .ok (some t') ∧ t'.state = t.state

/-! ## Listings of a board -/

section Listed

variable {l : Board} {listed : TaskState → List Task}

/-- Every listed task is one of the board's in that state, and none is listed twice. -/
structure Lists (l : Board) (listed : TaskState → List Task) : Prop where
  mem : ∀ {st t}, st ∈ allStates → t ∈ listed st →
    t.state = st ∧ ∃ t₀, l.find? t.id = some t₀ ∧ t₀.state = st
  nodup : ∀ st, ((listed st).map Task.id).Nodup
  state : ∀ t ∈ l.rows, t.state ∈ allStates

/-- Every task of the board is listed. -/
def ListsAll (l : Board) (listed : TaskState → List Task) : Prop :=
  ∀ t ∈ l.rows, t.id ∈ (listed t.state).map Task.id

theorem Lists.mem_flatMap (h : Lists l listed) {t : Task} (ht : t ∈ allStates.flatMap listed) :
    ∃ t₀, l.find? t.id = some t₀ ∧ t₀.state = t.state ∧ t ∈ listed t.state := by
  obtain ⟨st, hst, ht⟩ := List.mem_flatMap.mp ht
  obtain ⟨rfl, t₀, hfind, hstate⟩ := h.mem hst ht
  exact ⟨t₀, hfind, hstate, ht⟩

/-- No task is listed twice. -/
theorem Lists.nodup_flatMap (h : Lists l listed) :
    ((allStates.flatMap listed).map Task.id).Nodup := by
  rw [List.map_flatMap, List.nodup_flatMap]
  refine ⟨fun st _ => h.nodup st, ?_⟩
  have hne : allStates.Pairwise (· ≠ ·) := by decide
  refine hne.imp_of_mem fun {a b} ha hb hab => ?_
  rw [Function.onFun_apply, List.disjoint_left]
  intro id hida hidb
  obtain ⟨t, ht, rfl⟩ := List.mem_map.mp hida
  obtain ⟨t', ht', hid⟩ := List.mem_map.mp hidb
  obtain ⟨-, t₀, hfind, hst⟩ := h.mem ha ht
  obtain ⟨-, t₁, hfind', hst'⟩ := h.mem hb ht'
  rw [hid, hfind] at hfind'
  cases hfind'
  exact hab (hst.symm.trans hst')

/-- The tasks listed are those of the board exactly when every task of the board is listed. -/
theorem Lists.perm_iff (h : Lists l listed) :
    ((allStates.flatMap listed).map Task.id).Perm (l.rows.map Task.id) ↔ ListsAll l listed := by
  rw [List.perm_ext_iff_of_nodup h.nodup_flatMap l.nodup]
  constructor
  · intro hiff t ht
    obtain ⟨t', ht', hid⟩ := List.mem_map.mp ((hiff t.id).mpr (List.mem_map_of_mem ht))
    obtain ⟨t₀, hfind, hst, hmem⟩ := h.mem_flatMap ht'
    rw [hid, Table.find?_of_mem ht] at hfind
    cases hfind
    exact List.mem_map.mpr ⟨t', hst ▸ hmem, hid⟩
  · intro hall id
    constructor
    · intro hid
      obtain ⟨t, ht, rfl⟩ := List.mem_map.mp hid
      obtain ⟨t₀, hfind, -, -⟩ := h.mem_flatMap ht
      exact List.mem_map.mpr ⟨t₀, Table.find?_mem hfind, Table.find?_key hfind⟩
    · intro hid
      obtain ⟨t, ht, rfl⟩ := List.mem_map.mp hid
      obtain ⟨t', ht', hid'⟩ := List.mem_map.mp (hall t ht)
      exact List.mem_map.mpr
        ⟨t', List.mem_flatMap.mpr ⟨t.state, h.state t ht, ht'⟩, hid'⟩

/-- A limit that is no less than the board's size cuts nothing. -/
theorem Lists.take_eq (h : Lists l listed) {limit : Nat} (hle : l.rows.length ≤ limit) :
    (allStates.flatMap listed).take limit = allStates.flatMap listed := by
  refine List.take_of_length_le (le_trans ?_ hle)
  have hsub : (allStates.flatMap listed).map Task.id ⊆ l.rows.map Task.id := by
    intro id hid
    obtain ⟨t, ht, rfl⟩ := List.mem_map.mp hid
    obtain ⟨t₀, hfind, -, -⟩ := h.mem_flatMap ht
    exact List.mem_map.mpr ⟨t₀, Table.find?_mem hfind, Table.find?_key hfind⟩
  have hlen := (List.subperm_of_subset h.nodup_flatMap hsub).length_le
  simpa only [List.length_map] using hlen

end Listed

/-! ## Sessions on a backend -/

section Backends

variable {S : Sig} {T : Store S} {Q : Api S} {s : T.State} {l : Board} {created : List Task}
  {limit : Nat} {listed : TaskState → List Task}

/-- What `list_all` shows of a board that carries the created tasks. -/
theorem allVisible_iff (hids : (l.rows.map Task.id).Perm (created.map Task.id))
    (hle : created.length ≤ limit) (hl : Lists l listed)
    (hlist : ∀ n x s', T.Runs n (Q.listAll limit) s x s' ↔
      x = .ok ((allStates.flatMap listed).take limit) ∧ s' = s)
    (hget : ∀ n id x s', T.Runs n (Q.get id) s x s' →
      ∀ t, l.find? id = some t → ∃ t', x = .ok (some t') ∧ t'.state = t.state) :
    AllVisible T Q s created limit ↔ ListsAll l listed := by
  have hlen : l.rows.length ≤ limit := by
    have := hids.length_eq
    simp only [List.length_map] at this
    omega
  rw [← hl.perm_iff]
  constructor
  · intro hv
    obtain ⟨tasks, hx, hperm, -⟩ := hv 0 _ s ((hlist 0 _ s).mpr ⟨rfl, rfl⟩)
    cases hx
    rw [hl.take_eq hlen] at hperm
    exact hperm.trans hids.symm
  · intro hperm n x s' hr
    obtain ⟨rfl, rfl⟩ := (hlist n x s').mp hr
    rw [hl.take_eq hlen]
    refine ⟨_, rfl, hperm.trans hids, fun t ht n' y s'' hy => ?_⟩
    obtain ⟨t₀, hfind, hst, -⟩ := hl.mem_flatMap ht
    obtain ⟨t', ht', hst'⟩ := hget n' t.id y s'' hy t₀ hfind
    exact ⟨t', ht', hst'.trans hst⟩

/-- A board that carries the created tasks has their identifiers. -/
theorem Carries.perm {R : Task → Task → Prop} (h : Carries R l created) :
    (l.rows.map Task.id).Perm (created.map Task.id) := by
  refine (List.perm_ext_iff_of_nodup l.nodup h.nodup).mpr fun id => ⟨fun hid => ?_, fun hid => ?_⟩
  · obtain ⟨t, ht, rfl⟩ := List.mem_map.mp hid
    obtain ⟨task, htask, heq⟩ := h.only (by rw [Table.find?_of_mem ht]; rfl)
    exact List.mem_map.mpr ⟨task, htask, heq⟩
  · obtain ⟨task, htask, rfl⟩ := List.mem_map.mp hid
    obtain ⟨t, ht, -⟩ := h.kept task htask
    exact List.mem_map.mpr ⟨t, Table.find?_mem ht, Table.find?_key ht⟩

end Backends

/-! ## The filesystem -/

namespace Filesystem

variable {F : FloatFmt} {nodename : String} {s s' : Dirs} {l : Board} {created : List Task}
  {limit : Nat}

/-- The directories hold the board, and no file but those of tasks. -/
structure TidyHolds (s : Dirs) (l : Board) : Prop where
  holds : Holds s l
  tidy : ∀ dir, ∀ f ∈ (s dir).rows, ∃ id, f.1 = fileName id

theorem serves_tidy (F : FloatFmt) : Serves (files F) store TidyHolds ownTier shown where
  get := fun h => (serves F).get h.holds
  save := by
    intro n s l t₀ t x s' h hfind hm hr
    obtain ⟨hx, hs'⟩ := (serves F).save h.holds hfind hm hr
    obtain ⟨-, hdirs⟩ := runs_fsSave hr
    refine ⟨hx, hs', fun dir f hf => ?_⟩
    rw [hdirs] at hf
    split at hf
    · rcases Table.mem_put.mp hf with ⟨hmem, -⟩ | rfl
      · exact h.tidy dir f hmem
      · exact ⟨t.id, rfl⟩
    · split at hf
      · exact h.tidy dir f (Table.mem_erase.mp hf).1
      · exact h.tidy dir f hf
  now := (serves F).now
  list := fun h => (serves F).list h.holds
  mem_shown := fun h => (serves F).mem_shown h.holds
  nodup_shown := fun h => (serves F).nodup_shown h.holds

theorem keeps_tidy (F : FloatFmt) (nodename : String) :
    Keeps store (api F nodename) TidyHolds ownTier := by
  intro s s' new l hl hc hnew
  cases hc with
  | create hr =>
    obtain ⟨task, hx, -, -, hp, hst, rfl⟩ := runs_create hr
    cases hx
    have hfree := hnew _ rfl
    refine ⟨_, ⟨hl.holds.create hfree hst (hp ▸ normalizePriority_tier _), fun dir f hf => ?_⟩,
      follows_create hfree⟩
    by_cases hd : dir = .pending
    · subst hd
      rw [Function.update_self] at hf
      rcases Table.mem_put.mp hf with ⟨hmem, -⟩ | rfl
      · exact hl.tidy _ f hmem
      · exact ⟨_, rfl⟩
    · rw [Function.update_of_ne hd] at hf
      exact hl.tidy dir f hf
  | call hr => exact (changed_of_call_of (serves_tidy F) hl hr).follows hl
  | requeueStale hr => exact (serves_backend_of (serves_tidy F)).follows_of_requeueStale hl hr

theorem lists (h : Holds s l) (limit : Nat) : Lists l fun st => shown s l st limit where
  mem _ ht := by
    obtain ⟨hfind, hst, -⟩ := mem_shown.mp ht
    exact ⟨hst, _, hfind, hst⟩
  nodup st := nodup_shown st limit
  state := h.state

/-- A listing that may show as many files as there are tasks shows every task. -/
theorem listsAll (h : TidyHolds s l) (hle : l.rows.length ≤ limit) :
    ListsAll l fun st => shown s l st limit := by
  intro t ht
  have hdir := h.holds.state t ht
  have hfile := h.holds.file_of (Table.find?_of_mem ht)
  have hsub : ((s t.state).rows.map Prod.fst) ⊆ l.rows.map fun t => fileName t.id := by
    intro name hname
    obtain ⟨f, hf, rfl⟩ := List.mem_map.mp hname
    obtain ⟨id, hid⟩ := h.tidy t.state f hf
    obtain ⟨t', ht', -, rfl⟩ := h.holds.find? hdir (hid ▸ Table.find?_of_mem hf)
    have hkey : t'.id = id := Table.find?_key ht'
    exact List.mem_map.mpr ⟨t', Table.find?_mem ht', by rw [hkey]⟩
  have hlen := (List.subperm_of_subset (s t.state).nodup hsub).length_le
  simp only [List.length_map] at hlen
  have hall : listed s t.state limit =
      ((s t.state).rows.map Prod.fst).insertionSort (· ≤ ·) := by
    refine List.take_of_length_le ?_
    rw [List.length_insertionSort, List.length_map]
    omega
  refine List.mem_map.mpr ⟨t, mem_shown.mpr ⟨Table.find?_of_mem ht, rfl, ?_⟩, rfl⟩
  rw [hall, List.mem_insertionSort]
  exact List.mem_map.mpr ⟨_, Table.find?_mem hfile, rfl⟩

/-- On the filesystem every task is visible. -/
theorem allVisible (h : Session store (api F nodename) (fun _ => .empty) s created)
    (hle : created.length ≤ limit) : AllVisible store (api F nodename) s created limit := by
  obtain ⟨l, hl, hcarry⟩ := carries_of_session (keeps_tidy F nodename) (R := fun _ _ => True)
    (fun _ => trivial) (fun _ _ => trivial) ⟨holds_empty, fun _ _ h => absurd h List.not_mem_nil⟩ h
  have hids := hcarry.perm
  have hlen : l.rows.length = created.length := by simpa using hids.length_eq
  refine (@allVisible_iff _ _ _ _ _ _ _ (fun st => shown s l st limit) hids hle (lists hl.holds limit)
    (fun n x s' => runs_listAll fun st hst _ _ => (serves_backend F).list hl.holds hst)
    fun n id x s' hr t ht => ?_).mpr (listsAll hl (hlen ▸ hle))
  obtain ⟨rfl, -⟩ := (runs_fsGet hl.holds).mp hr
  exact ⟨t, by rw [ht], rfl⟩

end Filesystem

/-! ## SQLite -/

namespace Sqlite

open ClaudeSwarm.Sqlite

variable {F : FloatFmt} {s : Db} {created : List Task} {limit : Nat}

/-- After a session the rows are those of the created tasks. -/
theorem rows_of_session (h : Session store (api F) (.at_ .empty) s created) :
    AtRest s ∧ Sound s.table ∧ s.table.rows.map Row.id = created.map Task.id := by
  refine session_induction (P := fun (s : Db) created => AtRest s ∧ Sound s.table ∧
      s.table.rows.map Row.id = created.map Task.id) h
    ⟨rfl, ⟨fun _ h => absurd h List.not_mem_nil, fun _ h => absurd h List.not_mem_nil⟩, rfl⟩ ?_
  rintro s s' created new ⟨hrest, hsound, hids⟩ hc -
  cases hc with
  | create hr =>
    obtain ⟨row, rfl, hst, hp, hins, hrest'⟩ := runs_create hrest hr
    have hrows := Table.rows_insert hins
    refine ⟨hrest', ⟨fun r hr => ?_, fun r hr => ?_⟩, ?_⟩
    · rw [hrows] at hr
      rcases List.mem_append.mp hr with hr | hr
      · exact hsound.state r hr
      · rw [List.mem_singleton.mp hr, hst]
        decide
    · rw [hrows] at hr
      rcases List.mem_append.mp hr with hr | hr
      · exact hsound.tier r hr
      · rw [List.mem_singleton.mp hr, hp]
        exact normalizePriority_tier _
    · rw [hrows, List.map_append, hids, List.map_append]
      rfl
  | call hr =>
    have hk := kept_of_call hrest hr
    exact ⟨hk.rest, hk.sound hsound, by simpa using hk.ids.trans hids⟩
  | requeueStale hr =>
    have hk := kept_of_requeueStale hrest hr
    exact ⟨hk.rest, hk.sound hsound, by simpa using hk.ids.trans hids⟩

theorem mem_boardOf {t : Tasks} {row : Row} (h : row ∈ t.rows) :
    (boardOf t).find? row.id = some (taskOf row) := by
  rw [find?_boardOf, Table.find?_of_mem h]
  rfl

theorem lists (h : Sound s.table) (limit : Nat) :
    Lists (boardOf s.table) fun st => shown s st limit where
  mem {st t} _ ht := by
    obtain ⟨row, hrow, rfl⟩ := List.mem_map.mp ht
    obtain ⟨hmem, hst⟩ := mem_inState.mp (List.mem_of_mem_take hrow)
    exact ⟨hst, taskOf row, mem_boardOf hmem, hst⟩
  nodup st := by
    have hperm : (inState s.table st).Perm (s.table.rows.filter fun r => r.state == st) :=
      List.perm_insertionSort _ _
    have hnodup : ((inState s.table st).map Row.id).Nodup :=
      (hperm.map Row.id).nodup_iff.mpr (s.table.nodup.sublist (List.filter_sublist.map Row.id))
    have hids : (shown s st limit).map Task.id = ((inState s.table st).take limit).map Row.id :=
      List.map_map
    rw [hids]
    exact hnodup.sublist ((List.take_sublist _ _).map Row.id)
  state t ht := by
    obtain ⟨row, hrow, rfl⟩ := List.mem_map.mp ht
    exact h.state row hrow

theorem listsAll (hle : s.table.rows.length ≤ limit) :
    ListsAll (boardOf s.table) fun st => shown s st limit := by
  intro t ht
  obtain ⟨row, hrow, rfl⟩ := List.mem_map.mp ht
  have hlen : (inState s.table row.state).length ≤ limit := by
    rw [inState, List.length_insertionSort]
    exact (List.length_filter_le _ _).trans hle
  have hmem : row ∈ (inState s.table row.state).take limit := by
    rw [List.take_of_length_le hlen]
    exact mem_inState.mpr ⟨hrow, rfl⟩
  exact List.mem_map.mpr ⟨taskOf row, List.mem_map_of_mem hmem, rfl⟩

/-- On SQLite every task is visible. -/
theorem allVisible (h : Session store (api F) (.at_ .empty) s created)
    (hle : created.length ≤ limit) : AllVisible store (api F) s created limit := by
  obtain ⟨hrest, hsound, hids⟩ := rows_of_session h
  have hboard : (boardOf s.table).rows.map Task.id = created.map Task.id := by
    rw [← hids]
    exact List.map_map
  have hlen : s.table.rows.length = created.length := by simpa using congrArg List.length hids
  refine (@allVisible_iff _ _ _ _ _ _ _ (fun st => shown s st limit) (hboard ▸ .refl _) hle (lists hsound limit)
    (fun n x s' => runs_listAll fun st _ _ _ => runs_listByState hrest)
    fun n id x s' hr t ht => ?_).mpr (listsAll (hlen ▸ hle))
  obtain ⟨rfl, -⟩ := (runs_get hrest).mp hr
  rw [find?_boardOf] at ht
  exact ⟨t, by rw [ht], rfl⟩

end Sqlite

/-! ## Redis -/

namespace Redis

open ClaudeSwarm.Redis

variable {F : FloatFmt} {s : Keys} {l : Board} {created : List Task} {limit : Nat}

/-- No created task is running or has failed. -/
def NoneActive (s : Keys) (created : List Task) : Prop :=
  ∀ task ∈ created, hashState s task.id ≠ some "running" ∧ hashState s task.id ≠ some "failed"

theorem lists (hF : F.RoundTrips) (h : Holds F s l) (limit : Nat) :
    Lists l fun st => shown s l st limit where
  mem {st t} _ ht := by
    obtain ⟨t₀, hfind, rfl, hst⟩ := (serves hF).mem_shown h ht
    exact ⟨hst, t₀, hfind, hst⟩
  nodup st := (serves hF).nodup_shown h
  state := h.state

theorem mem_of_member {st : TaskState} (h : Holds F s l) {e : String × Int}
    (he : e ∈ (s.tasks st).rows) : e.1 ∈ l.rows.map Task.id := by
  have hmem : Member s st e.1 := by
    rw [Member, ZSet.score_of_mem he]
    rfl
  obtain ⟨-, t, ht, -⟩ := h.index.mp hmem
  exact List.mem_map.mpr ⟨t, Table.find?_mem ht, Table.find?_key ht⟩

/-- A listing that may show as many tasks as there are shows those whose state has a sorted set. -/
theorem mem_shown_iff (h : Holds F s l) (hle : l.rows.length ≤ limit) {t : Task} (ht : t ∈ l.rows) :
    t.id ∈ (shown s l t.state limit).map Task.id ↔ t.state ∈ indexed := by
  have hfind := Table.find?_of_mem ht
  constructor
  · intro hid
    obtain ⟨t', ht', hid⟩ := List.mem_map.mp hid
    obtain ⟨id, hrange, -⟩ := List.mem_filterMap.mp ht'
    exact (h.index.mp (mem_range hrange)).1
  · intro hst
    -- the sorted set has no more members than there are tasks
    have hlen : (s.tasks t.state).rows.length ≤ limit := by
      have hsub : (s.tasks t.state).rows.map Prod.fst ⊆ l.rows.map Task.id := by
        intro id hid
        obtain ⟨e, he, rfl⟩ := List.mem_map.mp hid
        exact mem_of_member h he
      have := (List.subperm_of_subset (s.tasks t.state).nodup hsub).length_le
      simp only [List.length_map] at this
      omega
    have hpos : 0 < limit := (List.length_pos_of_mem ht).trans_le hle
    obtain ⟨x, hx⟩ := Option.isSome_iff_exists.mp (h.index.mpr ⟨hst, t, hfind, rfl⟩)
    have hrange : t.id ∈ (s.tasks t.state).range ((limit : Int) - 1) := by
      have hnot : ¬ (limit : Int) - 1 < 0 := by omega
      have hcut : ((limit : Int) - 1 + 1).toNat = limit := by omega
      have hsorted : (s.tasks t.state).sorted.length ≤ limit := by
        rw [ZSet.sorted, List.length_insertionSort]
        exact hlen
      unfold ZSet.range
      rw [if_neg hnot, hcut, List.take_of_length_le hsorted]
      exact List.mem_map.mpr ⟨_, ZSet.mem_sorted.mpr (ZSet.mem_of_score hx), rfl⟩
    refine List.mem_map.mpr ⟨t.read lostTier, List.mem_filterMap.mpr ⟨t.id, hrange, ?_⟩, rfl⟩
    rw [hfind]
    rfl

/-- The state in the hash of a task. -/
theorem hashState_of_stores {id : String} {t : Task} (h : Holds F s l)
    (ht : l.find? id = some t) : hashState s id = some t.state.str := by
  refine h.hash ht "state" t.state.str ?_
  rw [lookup_hashFields]
  simp [Task.toDict, List.lookup_cons, text]

/-- Every task is listed exactly when none is running or has failed. -/
theorem listsAll_iff {R : Task → Task → Prop} (h : Holds F s l) (hcarry : Carries R l created)
    (hle : l.rows.length ≤ limit) :
    (ListsAll l fun st => shown s l st limit) ↔ NoneActive s created := by
  have hactive : ∀ {t : Task}, t ∈ l.rows → (t.state ∈ indexed ↔
      hashState s t.id ≠ some "running" ∧ hashState s t.id ≠ some "failed") := by
    intro t ht
    rw [hashState_of_stores h (Table.find?_of_mem ht)]
    have hst := h.state t ht
    cases hs : t.state with
    | other => simp [allStates, hs] at hst
    | _ => simp [indexed, TaskState.str]
  constructor
  · intro hall task htask
    obtain ⟨t, ht, -⟩ := hcarry.kept task htask
    have hrow := Table.find?_mem ht
    have hid : t.id = task.id := Table.find?_key ht
    exact hid ▸ (hactive hrow).mp ((mem_shown_iff h hle hrow).mp (hall t hrow))
  · intro hnone t ht
    obtain ⟨task, htask, hid⟩ := hcarry.only (by rw [Table.find?_of_mem ht]; rfl)
    exact (mem_shown_iff h hle ht).mpr ((hactive ht).mpr (hid ▸ hnone task htask))

/-- On Redis every task is visible exactly when none is running or has failed. -/
theorem allVisible_iff (hF : F.RoundTrips) (h : Session store (api F) .empty s created)
    (hle : created.length ≤ limit) :
    AllVisible store (api F) s created limit ↔ NoneActive s created := by
  obtain ⟨l, hl, hcarry⟩ := carries_of_session (keeps hF) (R := fun _ _ => True)
    (fun _ => trivial) (fun _ _ => trivial) holds_empty h
  have hids := hcarry.perm
  have hlen : l.rows.length = created.length := by simpa using hids.length_eq
  rw [← listsAll_iff hl hcarry (hlen ▸ hle)]
  refine TaskQueue.allVisible_iff hids hle (lists hF hl limit)
    (fun n x s' => runs_listAll fun st hst _ _ => (serves hF).list hl hst)
    fun n id x s' hr t ht => ?_
  obtain ⟨rfl, -⟩ := (runs_redisGet hF hl).mp hr
  exact ⟨t.read lostTier, by rw [ht]; rfl, rfl⟩

/-- `start` of a claimed task. -/
theorem runs_start {n : Nat} {s' : Keys} {id : String} {t : Task} {x : Except PyError (Option Task)}
    (hF : F.RoundTrips) (h : Holds F s l) (ht : l.find? id = some t) (hst : t.state = .claimed)
    (hr : store.Runs n ((backend F).start id) s x s') :
    Holds F s' (l.put { t.read lostTier with state := .running }) := by
  rw [Backend.start, (serves hF).get_bind h, ht] at hr
  have hclaimed : ¬ (t.read lostTier).state ≠ .claimed := not_not.mpr hst
  simp only [Option.map_some] at hr
  rw [if_neg hclaimed] at hr
  have hid : t.id = id := Table.find?_key ht
  exact ((serves hF).save_ret h (hid ▸ ht) (.start hst) hr).2

/-- A task. -/
def started : Task := newTask ⟨0, "", "a", "h"⟩ 3

/-- A session that creates the task, claims it and starts it. -/
theorem session_started : ∃ s, Session store (api Python.exact) .empty s [started] ∧
    hashState s started.id = some "running" := by
  have hF := Python.float_str_exact
  have hcreate := runs_withTask .empty ⟨0, "", "a", "h"⟩ 3
  have h₀ := (holds_empty (F := Python.exact)).create rfl hcreate
  obtain ⟨x, s₁, hclaim⟩ := exists_runs 0
    ((backend Python.exact).claimSpecific started.id "w") (withTask .empty ⟨0, "", "a", "h"⟩ 3)
  obtain ⟨now, -, h₁⟩ := @Serves.runs_claimSpecific _ _ _ _ _ _ (serves hF) _ _ _ _ _ _ started _ h₀ rfl rfl hclaim
  obtain ⟨y, s₂, hstart⟩ := exists_runs 0 ((backend Python.exact).start started.id) s₁
  have h₂ := runs_start hF h₁ (t := (started.read lostTier).claim "w" now) rfl rfl hstart
  have hc₁ : Called store (api Python.exact) _ s₁ none :=
    .call (o := .claim "w" (some started.id)) hclaim
  have hc₂ : Called store (api Python.exact) s₁ s₂ none := .call (o := .start started.id) hstart
  have hsession := ((Session.start.next (.create hcreate)
    fun _ _ _ ht => absurd ht List.not_mem_nil).next hc₁ fun _ ht => by cases ht).next hc₂
      fun _ ht => by cases ht
  exact ⟨s₂, hsession, @hashState_of_stores _ _ _ started.id _ h₂ rfl⟩

theorem not_noneActive {s : Keys} (h : hashState s started.id = some "running") :
    ¬ NoneActive s [started] := fun hnone => (hnone started List.mem_cons_self).1 h

end Redis

/-! ## The claim -/

/-- **`list_all`.** After any sequence of calls of one client on an empty queue, `list_all(limit)` shows
every task once, in the state `get` reports, for every limit that is no less than the number of tasks
created: on SQLite and on the filesystem always, on Redis if and only if no task is running or has
failed. -/
theorem list_all_iff {F : FloatFmt} (hF : F.RoundTrips) :
    (∀ s created limit, Session ClaudeSwarm.Sqlite.store (Sqlite.api F) (.at_ .empty) s created →
      created.length ≤ limit →
        AllVisible ClaudeSwarm.Sqlite.store (Sqlite.api F) s created limit) ∧
    (∀ nodename s created limit,
      Session Filesystem.store (Filesystem.api F nodename) (fun _ => .empty) s created →
        created.length ≤ limit →
          AllVisible Filesystem.store (Filesystem.api F nodename) s created limit) ∧
    ∀ s created limit, Session ClaudeSwarm.Redis.store (Redis.api F) .empty s created →
      created.length ≤ limit →
        (AllVisible ClaudeSwarm.Redis.store (Redis.api F) s created limit ↔
          Redis.NoneActive s created) :=
  ⟨fun _ _ _ h hle => Sqlite.allVisible h hle, fun _ _ _ _ h hle => Filesystem.allVisible h hle,
    fun _ _ _ h hle => Redis.allVisible_iff hF h hle⟩

theorem list_all_iff_started : ∃ s,
    AllVisible ClaudeSwarm.Redis.store (Redis.api Python.exact) s [Redis.started] 100 ↔
      Redis.NoneActive s [Redis.started] := by
  obtain ⟨s, h, -⟩ := Redis.session_started
  obtain ⟨-, -, hredis⟩ := list_all_iff Python.float_str_exact
  exact ⟨s, hredis s _ 100 h (by decide)⟩

/-- On Redis a task that was started is in no listing. -/
theorem started_invisible : ∃ s,
    Session ClaudeSwarm.Redis.store (Redis.api Python.exact) .empty s [Redis.started] ∧
      ¬ AllVisible ClaudeSwarm.Redis.store (Redis.api Python.exact) s [Redis.started] 100 := by
  obtain ⟨s, h, hrunning⟩ := Redis.session_started
  refine ⟨s, h, fun hv => Redis.not_noneActive hrunning ?_⟩
  exact (Redis.allVisible_iff Python.float_str_exact h (by decide)).mp hv

end ClaudeSwarm.TaskQueue
