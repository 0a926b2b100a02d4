import ClaudeSwarm.SwarmLib.Yields
import ClaudeSwarm.TaskQueue.FilesystemBoard

/-!
# One tree, two schemas

`swarm_lib` and the filesystem backend of `TaskQueue` keep their tasks in the same directories. Both
write a task's `created_at` and `claimed_at`: `swarm_lib` as the text of `now_iso()`, `TaskQueue` as
seconds, and `Task.from_dict` converts what it reads with `float`.

* `Shows F fs d`: the directories `d`, as `TaskQueue` reads them, have the task files `fs`.
* `IsIso`: the texts `now_iso` returns. `float` reads none of them (`float_iso_exact`, for
  `Python.exact`).
* `unreadable_of_text`: `get`, and the listings that come to it, raise on a task file with such a time.
* `claimTask_total`, `scan_total`: `claim_task` and `list_tasks` raise nothing on a file that is there,
  whatever is in it. `Total` is the judgement for that: `From` without exceptions.
* **`shared_tree`**: `create_task`, `claim_task` and `decompose_task` write files that `TaskQueue` raises
  on; `list_tasks` and `claim_task` accept the files of `TaskQueue`. `firstTask_unreadable` is the
  first task of a tree.
-/

namespace ClaudeSwarm.SwarmLib

open Interleave Data
open Python (PyError FloatFmt)
open TaskQueue.Filesystem (Dirs fileName fsGet fsList readTask readAll getFrom listed)

/-! ## The texts of `now_iso` -/

/-- A digit, whichever it is. -/
def mask (c : Char) : Char := if c.isDigit then '0' else c

/-- A text that `strftime("%Y-%m-%dT%H:%M:%SZ")` returns. -/
def IsIso (x : String) : Prop := x.toList.map mask = "0000-00-00T00:00:00Z".toList

instance (x : String) : Decidable (IsIso x) := by
  unfold IsIso
  infer_instance

theorem isNumeral_mask (c : Char) : Python.isNumeral (mask c) = Python.isNumeral c := by
  unfold mask
  split
  · rename_i hc
    rw [Python.isNumeral, Python.isNumeral, hc]
    rfl
  · rfl

theorem mask_eq {c d : Char} (hd : d.isDigit = false) (h : mask c = d) : c = d := by
  unfold mask at h
  split at h
  · rw [← h] at hd
    cases hd
  · exact h

theorem map_takeWhile_mask (l : List Char) :
    (l.takeWhile Python.isNumeral).map mask = (l.map mask).takeWhile Python.isNumeral := by
  induction l with
  | nil => rfl
  | cons c l ih =>
    rw [List.map_cons, List.takeWhile_cons, List.takeWhile_cons, isNumeral_mask]
    split
    · rw [List.map_cons, ih]
    · rfl

theorem isSpace_of_isNumeral {c : Char} (h : Python.isNumeral c = true) :
    Python.isSpace c = false := by
  rw [Python.isNumeral, Bool.or_eq_true] at h
  rcases h with h | h
  · exact Python.isSpace_of_isDigit h
  · rw [eq_of_beq h]
    decide

/-- `float` does not read the texts of `now_iso`. -/
theorem float_iso_exact {x : String} (h : IsIso x) : Python.exact.float x = none := by
  have hmask : (x.toList.takeWhile Python.isNumeral).map mask = "0000-00-00".toList := by
    rw [map_takeWhile_mask, h]
    decide
  have hstrip : Python.strip (x.toList.takeWhile Python.isNumeral) =
      x.toList.takeWhile Python.isNumeral :=
    Python.strip_eq_self fun c hc =>
      isSpace_of_isNumeral (List.all_eq_true.mp List.all_takeWhile c hc)
  have hint : Python.int (.ofList (x.toList.takeWhile Python.isNumeral)) = none := by
    unfold Python.int
    rw [String.toList_ofList, hstrip]
    generalize x.toList.takeWhile Python.isNumeral = w at hmask
    have hminus : '-' ∈ w := by
      have hmem : '-' ∈ w.map mask := by
        rw [hmask]
        decide
      obtain ⟨c, hc, he⟩ := List.mem_map.mp hmem
      exact mask_eq (by decide) he ▸ hc
    have hfirst : ∀ c v, w = c :: v → c.isDigit = true := by
      rintro c v rfl
      rw [List.map_cons] at hmask
      by_contra hc
      have hzero := (List.cons.inj hmask).1
      rw [mask, if_neg hc] at hzero
      exact hc (hzero ▸ by decide)
    split
    · rename_i v
      exact absurd (hfirst _ _ rfl) (by decide)
    · rename_i v
      exact absurd (hfirst _ _ rfl) (by decide)
    · rw [Python.digits, if_neg, Option.map_none]
      rintro ⟨-, hall⟩
      exact absurd (List.all_eq_true.mp hall '-' hminus) (by decide)
  simp only [Python.exact, hint]
  rfl

/-! ## The tree as `TaskQueue` reads it -/

/-- The directory of a stage; `TaskQueue` does not look into `decomposed/`. -/
def Stage.state : Stage → TaskState
  | pending => .pending
  | claimed => .claimed
  | completed => .completed
  | decomposed => .other "decomposed" (by decide)

variable (F : FloatFmt)

/-- A value of a task file, as `Task.from_dict` has it. -/
def valOf : Json → Option Val
  | .str s => some (.str s)
  | .int i => some (.int i)
  | .float text => (F.float text).map .float
  | .arr l => (Json.strings l).map .list
  | _ => none

/-- The dictionary of a task file, as `Task.from_dict` has it. -/
def dictView (data : Doc) : List (String × Val) :=
  data.filterMap fun f => (valOf F f.2).map fun v => (f.1, v)

/-- The directories have the task files `fs`; they may have other files besides. -/
def Shows (fs : Files) (d : Dirs) : Prop :=
  ∀ st id, (d st.state).find? (fileName id) =
    (content fs st id).map fun data => (fileName id, dictView F data)

/-- A stage directory, as `TaskQueue` reads it. -/
def dirOf (dir : Dir) : TaskQueue.Filesystem.Dir :=
  ⟨dir.rows.map fun f => (fileName f.1, dictView F f.2), by
    rw [List.map_map]
    have hnodup := dir.nodup.map fun _ _ => TaskQueue.Filesystem.fileName_injective
    rwa [List.map_map] at hnodup⟩

/-- The directories with these task files and no others. -/
def view (fs : Files) : Dirs
  | .pending => dirOf F (fs .pending)
  | .claimed => dirOf F (fs .claimed)
  | .completed => dirOf F (fs .completed)
  | .other s _ => if s = "decomposed" then dirOf F (fs .decomposed) else .empty
  | _ => .empty

theorem find?_dirOf (dir : Dir) (id : String) : (dirOf F dir).find? (fileName id) =
    ((dir.find? id).map Prod.snd).map fun data => (fileName id, dictView F data) := by
  have hkey : ((fun g : String × List (String × Val) => g.1 == fileName id) ∘
      fun f : String × Doc => (fileName f.1, dictView F f.2)) = fun f => f.1 == id := by
    funext f
    rw [Function.comp, Bool.eq_iff_iff, beq_iff_eq, beq_iff_eq]
    exact ⟨TaskQueue.Filesystem.fileName_injective, fun h => by rw [h]⟩
  rw [Table.find?, dirOf, List.find?_map, hkey]
  cases hf : dir.find? id with
  | none =>
    rw [Table.find?] at hf
    rw [hf]
    rfl
  | some f =>
    obtain rfl : f.1 = id := Table.find?_key hf
    rw [Table.find?] at hf
    rw [hf]
    rfl

theorem shows_view (fs : Files) : Shows F fs (view F fs) := fun st id => by
  cases st <;> exact find?_dirOf F _ id

/-- `get` raises, and so do the listings that come to the file. -/
def Unreadable (fs : Files) (st : Stage) (id : String) : Prop :=
  ∀ d, Shows F fs d → ∀ n,
    (∀ r d', TaskQueue.Filesystem.store.Runs n (fsGet F id) d r d' → ∃ e, r = .error e) ∧
    ∀ limit r d', fileName id ∈ listed d st.state limit →
      TaskQueue.Filesystem.store.Runs n (fsList F st.state limit) d r d' → ∃ e, r = .error e

variable {F} {fs : Files} {d d' : Dirs} {n : Nat} {st : Stage} {id key : String} {data : Doc}

theorem lookup_dictView {j : Json} {v : Val} (hj : valOf F j = some v) :
    ∀ {data : Doc}, data.lookup key = some j → (dictView F data).lookup key = some v
  | f :: data, h => by
    rw [List.lookup_cons] at h
    cases hkey : key == f.1 with
    | true =>
      rw [hkey] at h
      cases h
      rw [dictView, List.filterMap_cons, hj, Option.map_some]
      simp only [List.lookup_cons, hkey]
    | false =>
      rw [hkey] at h
      have ih := @lookup_dictView j v hj data h
      rw [dictView, List.filterMap_cons]
      cases valOf F f.2 with
      | none => exact ih
      | some w =>
        rw [Option.map_some]
        simp only [List.lookup_cons, hkey]
        exact ih

/-- Reading a file changes nothing. -/
theorem readTask_same {dir : TaskState} {name : String} {r : Except PyError Task}
    (hr : TaskQueue.Filesystem.store.Runs n (readTask F dir name) d r d') : d' = d := by
  obtain ⟨i, y, d₁, hy, hr⟩ := hr
  obtain ⟨rfl, rfl⟩ := Prod.mk.inj (Option.some.inj hy)
  cases hfile : (d dir).find? name with
  | none =>
    rw [hfile] at hr
    exact hr.2
  | some f =>
    rw [hfile] at hr
    obtain ⟨i, uuid, d₂, hu, hr⟩ := hr
    cases hu
    exact ((Store.runs_ofExcept TaskQueue.Filesystem.store n _ _ _ _).mp hr).2

/-- Reading a file with a time that is no number. -/
theorem readTask_raises {dir : TaskState} {name : String} {dict : List (String × Val)} {x : String}
    {r : Except PyError Task} (hfile : (d dir).find? name = some (name, dict))
    (hkey : key ∈ ["created_at", "claimed_at", "completed_at"])
    (hx : dict.lookup key = some (.str x)) (hfloat : F.float x = none)
    (hr : TaskQueue.Filesystem.store.Runs n (readTask F dir name) d r d') : ∃ e, r = .error e := by
  obtain ⟨i, y, d₁, hy, hr⟩ := hr
  cases hy
  rw [hfile] at hr
  obtain ⟨i, uuid, d₂, hu, hr⟩ := hr
  cases hu
  obtain ⟨rfl, -⟩ := (Store.runs_ofExcept TaskQueue.Filesystem.store n _ _ _ _).mp hr
  cases htask : Task.fromDict F i.uuid
      (fun key => if key = "state" then some (.str dir.str) else dict.lookup key) with
  | error e => exact ⟨e, rfl⟩
  | ok t =>
    obtain ⟨y, hy⟩ := Task.fromDict_times htask hkey
    have hne : key ≠ "state" := by
      rintro rfl
      revert hkey
      decide
    simp only [if_neg hne, hx, Option.getD_some, floatOf, hfloat, Option.elim_none] at hy
    cases hy

/-- The loop of `_fs_get`, which comes to such a file. -/
theorem getFrom_raises {dir : TaskState} {dict : List (String × Val)} {x : String}
    (hfile : (d dir).find? (fileName id) = some (fileName id, dict))
    (hkey : key ∈ ["created_at", "claimed_at", "completed_at"])
    (hx : dict.lookup key = some (.str x)) (hfloat : F.float x = none) {rest : List TaskState} :
    ∀ {before : List TaskState} {r : Except PyError (Option Task)},
      (∀ dir' ∈ before, (d dir').find? (fileName id) = none) →
      TaskQueue.Filesystem.store.Runs n (getFrom F id (before ++ dir :: rest)) d r d' →
      ∃ e, r = .error e
  | [], r, _, hr => by
    have hexists : ∀ i, TaskQueue.Filesystem.exec n i d (.pathExists dir (fileName id)) =
        some (true, d) := fun i => by simp [TaskQueue.Filesystem.exec, hfile]
    rw [List.nil_append, getFrom, TaskQueue.Filesystem.runs_cmd hexists, if_pos rfl] at hr
    rcases (Store.runs_bind TaskQueue.Filesystem.store n).mp hr with ⟨t, d₂, hread, -⟩ | ⟨e, -, he⟩
    · obtain ⟨e, he⟩ := readTask_raises hfile hkey hx hfloat hread
      cases he
    · exact ⟨e, he⟩
  | dir' :: before, r, hnone, hr => by
    have hexists : ∀ i, TaskQueue.Filesystem.exec n i d (.pathExists dir' (fileName id)) =
        some (false, d) := fun i => by
      simp [TaskQueue.Filesystem.exec, hnone dir' List.mem_cons_self]
    rw [List.cons_append, getFrom, TaskQueue.Filesystem.runs_cmd hexists,
      if_neg Bool.false_ne_true] at hr
    exact getFrom_raises hfile hkey hx hfloat
      (fun dir hdir => hnone dir (List.mem_cons_of_mem _ hdir)) hr

/-- The loop of `_fs_list`, over names with such a file among them. -/
theorem readAll_raises {dir : TaskState} {dict : List (String × Val)} {x : String}
    (hfile : (d dir).find? (fileName id) = some (fileName id, dict))
    (hkey : key ∈ ["created_at", "claimed_at", "completed_at"])
    (hx : dict.lookup key = some (.str x)) (hfloat : F.float x = none) :
    ∀ {names : List String} {r : Except PyError (List Task)}, fileName id ∈ names →
      TaskQueue.Filesystem.store.Runs n (readAll F dir names) d r d' → ∃ e, r = .error e
  | name :: names, r, hmem, hr => by
    have hrest : ∀ {r'}, name ≠ fileName id →
        TaskQueue.Filesystem.store.Runs n (readAll F dir names) d r' d' → ∃ e, r' = .error e :=
      fun hne h => readAll_raises hfile hkey hx hfloat
        ((List.mem_cons.mp hmem).resolve_left fun he => hne he.symm) h
    rw [readAll] at hr
    by_cases hyaml : name.endsWith ".yaml" = true
    · rw [if_pos hyaml] at hr
      by_cases hname : name = fileName id
      · subst hname
        rcases (Store.runs_bind TaskQueue.Filesystem.store n).mp hr with
          ⟨t, d₁, hread, -⟩ | ⟨e, -, he⟩
        · obtain ⟨e, he⟩ := readTask_raises hfile hkey hx hfloat hread
          cases he
        · exact ⟨e, he⟩
      · rcases (Store.runs_bind TaskQueue.Filesystem.store n).mp hr with
          ⟨t, d₁, hread, hr⟩ | ⟨e, -, he⟩
        · rw [readTask_same hread] at hr
          rcases (Store.runs_bind TaskQueue.Filesystem.store n).mp hr with
            ⟨tasks, d₂, hall, hr⟩ | ⟨e, -, he⟩
          · obtain ⟨rfl, rfl⟩ := hr
            obtain ⟨e, he⟩ := hrest hname hall
            cases he
          · exact ⟨e, he⟩
        · exact ⟨e, he⟩
    · rw [if_neg hyaml] at hr
      exact hrest (fun he => hyaml (he ▸ TaskQueue.Filesystem.endsWith_fileName id)) hr

/-- **A task file whose time is the text of `now_iso`.** -/
theorem unreadable_of_text {x : String}
    (hst : st = .pending ∨ st = .claimed ∧ content fs .pending id = none)
    (hdata : content fs st id = some data)
    (hkey : key ∈ ["created_at", "claimed_at", "completed_at"])
    (hx : data.lookup key = some (.str x)) (hfloat : F.float x = none) : Unreadable F fs st id := by
  intro d hd n
  have hfile : (d st.state).find? (fileName id) = some (fileName id, dictView F data) := by
    rw [hd st id, hdata]
    rfl
  have hx' := lookup_dictView (F := F) (v := .str x) rfl hx
  refine ⟨fun r d' hr => ?_, fun limit r d' hmem hr => ?_⟩
  · rcases hst with rfl | ⟨rfl, hnone⟩
    · exact @getFrom_raises _ _ _ _ _ _ _ _ _ hfile hkey hx' hfloat _ [] _ (by simp) hr
    · refine @getFrom_raises _ _ _ _ _ _ _ _ _ hfile hkey hx' hfloat _ [.pending] _ (fun dir hdir => ?_) hr
      rw [List.mem_singleton.mp hdir]
      exact (hd .pending id).trans (by rw [hnone]; rfl)
  · obtain ⟨i, names, d₁, hy, hr⟩ := hr
    obtain ⟨rfl, rfl⟩ := Prod.mk.inj (Option.some.inj hy)
    exact readAll_raises hfile hkey hx' hfloat hmem hr

/-! ## What the operations write -/

/-- The file of `id` in `st` has the text `x` as its `key`. -/
def HasTime (fs : Files) (st : Stage) (id key x : String) : Prop :=
  ∃ data, content fs st id = some data ∧ data.lookup key = some (.str x)

theorem createTask_written {title description project priority : String} {requires : List String}
    {estimated : Int} :
    From n fs (createTask title description project priority requires estimated) fun data fs' =>
      ∃ id x, data.lookup "id" = some (.str id) ∧ content fs' .pending id = some data ∧
        data.lookup "created_at" = some (.str x) := by
  have hid : From n fs nextTaskId fun _ fs' => fs' = fs :=
    from_still (c := .glob .pending) trivial fun _ => from_still (c := .glob .claimed) trivial fun _ =>
      from_still (c := .glob .completed) trivial fun _ => from_ret rfl
  refine from_bind hid fun task_id fs₁ hfs₁ => from_still (c := .host) trivial fun created_by =>
    from_still (c := .iso) trivial fun created_at => from_bind from_lockedWrite fun _ fs' hfs' => ?_
  refine from_ret ⟨task_id, created_at, by simp, ?_, by simp [List.lookup_cons]⟩
  rw [hfs', content_put, if_pos ⟨rfl, rfl⟩]

theorem claimTask_written : From n fs (claimTask id) fun data fs' =>
    ∃ x, content fs' .claimed id = some data ∧ content fs' .pending id = none ∧
      data.lookup "claimed_at" = some (.str x) := by
  refine from_taken fun task htask => ?_
  refine from_still (c := .host) trivial fun hostname =>
    from_still (c := .iso) trivial fun claimed_at => ?_
  refine from_move from_write (from_ret ⟨claimed_at, ?_, ?_, ?_⟩)
  · rw [content_drop, if_neg (by simp), content_put, if_pos ⟨rfl, rfl⟩]
  · rw [content_drop, if_pos ⟨rfl, rfl⟩]
  · exact lookup_setKey_self (f := ("claimed_at", _))

/-- The files of subtasks, and of the tasks `S` before them, have a time. -/
theorem createSubtasks_written {parent : Doc} : ∀ (subtasks : List Subtask) (i : Nat) (fs : Files)
    (S : Set String), (∀ c ∈ S, ∃ x, HasTime fs .pending c "created_at" x) →
    From n fs (createSubtasks id parent i subtasks) fun ids fs' =>
      ids = subtaskIds id i subtasks.length ∧
        ∀ c, c ∈ S ∨ c ∈ ids → ∃ x, HasTime fs' .pending c "created_at" x
  | [], i, fs, S, hS => from_ret ⟨rfl, fun c hc => hS c (hc.resolve_right List.not_mem_nil)⟩
  | sub :: subtasks, i, fs, S, hS => by
    refine from_still (c := .host) trivial fun created_by =>
      from_still (c := .iso) trivial fun created_at => ?_
    refine from_bind from_write fun _ fs₁ hfs₁ => ?_
    have hS₁ : ∀ c ∈ insert (subtaskId id i) S, ∃ x, HasTime fs₁ .pending c "created_at" x := by
      intro c hc
      unfold HasTime
      rw [hfs₁, content_put]
      by_cases he : c = subtaskId id i
      · rw [if_pos ⟨rfl, he⟩]
        exact ⟨created_at, _, rfl, by simp [List.lookup_cons]⟩
      · rw [if_neg fun h => he h.2]
        exact hS c (hc.resolve_left he)
    refine from_bind (createSubtasks_written subtasks (i + 1) fs₁ _ hS₁) fun ids fs' h => ?_
    obtain ⟨rfl, hall⟩ := h
    refine from_ret ⟨rfl, fun c hc => hall c ?_⟩
    rcases hc with hc | hc
    · exact Or.inl (Or.inr hc)
    · exact (List.mem_cons.mp hc).imp Or.inl fun h => h

theorem subtaskId_ne {task_id : String} {i : Nat} : subtaskId task_id i ≠ task_id := by
  intro h
  have hlen := congrArg String.length h
  simp only [subtaskId, String.length_append, String.length_singleton] at hlen
  omega

theorem decomposeTask_written {subtasks : List Subtask} :
    From n fs (decomposeTask id subtasks) fun _ fs' =>
      ∀ i < subtasks.length, ∃ x, HasTime fs' .pending (subtaskId id i) "created_at" x := by
  refine from_taken fun data hdata => ?_
  refine from_bind (createSubtasks_written subtasks 0 fs ∅ fun c hc => hc.elim) fun ids fs₁ h => ?_
  obtain ⟨rfl, hall⟩ := h
  refine from_still (c := .iso) trivial fun decomposed_at =>
    from_still (c := .host) trivial fun decomposed_by => ?_
  refine from_move from_write (from_ret fun i hi => ?_)
  have hmem : subtaskId id i ∈ subtaskIds id 0 subtasks.length :=
    List.mem_map_of_mem (List.mem_range'_1.mpr ⟨Nat.zero_le i, by omega⟩)
  obtain ⟨x, sub, hsub, hx⟩ := hall _ (Or.inr hmem)
  refine ⟨x, sub, ?_, hx⟩
  rw [content_drop, if_neg fun h => subtaskId_ne h.2, content_put, if_neg (by simp), hsub]

/-! ## What the operations accept -/

/-- A value as `yaml.safe_dump` writes it. -/
def jsonOf (F : FloatFmt) : Val → Json
  | .str s => .str s
  | .int i => .int i
  | .float t => .float (F.str t)
  | .list l => .ofStrings l

/-- The file `TaskQueue` writes for a task. -/
def docOf (F : FloatFmt) (t : Task) : Doc := t.toDict.map fun p => (p.1, jsonOf F p.2)

/-- The loop of `TaskIndex.list_tasks`; a file that cannot be read is left out. -/
def scan (stage : Stage) : List String → P (List Doc)
  | [] => return []
  | id :: ids => do
    let found ← ((do
      let task ← readYaml stage id
      return [setKeys task [("_stage", .str stage.str),
        ("_file", .str (stage.str ++ "/" ++ id ++ ".yaml"))]]) : P (List Doc)).catch_ fun _ => return []
    let tasks ← scan stage ids
    return found ++ tasks

/-- `TaskIndex.list_tasks` of a stage that is not in the cache. -/
def listStage (stage : Stage) : P (List Doc) := do
  let ids ← cmd (.glob stage)
  scan stage (ids.insertionSort fun a b => fileName a ≤ fileName b)

theorem each_scan {stage : Stage} : ∀ ids, (scan stage ids).Each Cmd.IsStill
  | [] => trivial
  | id :: ids => by
    refine Prog.each_bind (fun found => Prog.each_bind (fun tasks => Prog.each_ret _) (each_scan ids))
      (Prog.each_catch (fun _ => Prog.each_ret _) ?_)
    refine each_cmd (c := .read stage id) trivial fun (x : Option Doc) => ?_
    cases x <;> trivial

/-- `list_tasks` moves no file. -/
theorem each_listStage (stage : Stage) : (listStage stage).Each Cmd.IsStill :=
  each_cmd (c := .glob stage) trivial fun _ => each_scan _

/-- What `p`, run alone from the directories `fs`, returns satisfies `R`, and it raises nothing. -/
def Total {α : Type} (n : Nat) (fs : Files) (p : P α) (R : α → Files → Prop) : Prop :=
  ∀ s : Tree, s.files = fs → store.Safe n (fun _ => True) (fun r s => match r with
    | .ok a => R a s.files
    | .error _ => False) p s

section Total

variable {α β : Type} {R : α → Files → Prop} {R' : β → Files → Prop}

theorem Total.runs {p : P α} {s s' : Tree} {r : Except PyError α} (h : Total n s.files p R)
    (hr : store.Runs n p s r s') : ∃ a, r = .ok a ∧ R a s'.files := by
  have hout := Store.Safe.runs (h s rfl) hr
  cases r with
  | ok a => exact ⟨a, rfl, hout⟩
  | error e => exact hout.elim

theorem Total.yields {p : P α} (h : Total n fs p R) : Yields n fs p fun r fs' => ∃ a, r = .ok a ∧ R a fs' := by
  intro s _ hs
  refine Store.safe_mono (fun r s' _ hr => ?_) (h s hs)
  cases r with
  | ok a => exact ⟨a, rfl, hr⟩
  | error e => exact hr.elim

theorem total_ret {a : α} (h : R a fs) : Total n fs (.ret a) R := by
  rintro s rfl
  exact ⟨trivial, h⟩

theorem total_bind {p : P α} {f : α → P β} (hp : Total n fs p R)
    (hf : ∀ a fs', R a fs' → Total n fs' (f a) R') : Total n fs (p >>= f) R' := by
  intro s hs
  refine Store.safe_bind (Store.safe_mono (fun r s' _ hr => ?_) (hp s hs))
  cases r with
  | ok a => exact hf a s'.files hr s' rfl
  | error e => exact hr

theorem total_still {c : Cmd} {f : Resp c → P β} (hc : c.IsStill)
    (hf : ∀ x, Total n fs (f x) R') : Total n fs (cmd c >>= f) R' :=
  fun _ hs => ⟨trivial, fun _ x s₁ hx => hf x s₁ ((files_of_still hc hx).trans hs)⟩

theorem total_exists {f : Bool → P β} (hf : Total n fs (f (content fs st id).isSome) R') :
    Total n fs (cmd (.pathExists st id) >>= f) R' := by
  intro s hs
  refine ⟨trivial, fun i x s₁ hx => ?_⟩
  obtain ⟨rfl, rfl⟩ := Prod.mk.inj (Option.some.inj hx)
  have hb : decide (s.File st id) = (content fs st id).isSome := by
    rw [Bool.eq_iff_iff, decide_eq_true_iff, file_iff_content, hs]
  exact hb ▸ hf s hs

theorem total_read {f : Doc → P β} (hd : content fs st id = some data)
    (hf : Total n fs (f data) R') : Total n fs (readYaml st id >>= f) R' := by
  intro s hs
  refine ⟨trivial, fun i x s₁ hx => ?_⟩
  obtain ⟨rfl, rfl⟩ := Prod.mk.inj (Option.some.inj hx)
  have hx : ((s.files st).find? id).map Prod.snd = some data := hs ▸ hd
  simp only [hx]
  exact hf s hs

theorem total_write : Total n fs (atomicWriteYaml st id data) fun _ fs' => fs' = put fs st id data := by
  intro s hs
  refine ⟨trivial, fun i x s₁ hx => ?_⟩
  cases hx
  refine ⟨trivial, fun i x s₂ hx => ?_⟩
  simp only [exec, Function.update_self, Table.find?_put, if_true] at hx
  cases hx
  refine ⟨trivial, ?_⟩
  rw [← hs]
  rfl

theorem total_remove (hd : (content fs st id).isSome) :
    Total n fs (removeYaml st id) fun _ fs' => fs' = drop fs st id := by
  intro s hs
  have hfile : s.File st id := file_iff_content.mpr (hs ▸ hd)
  refine ⟨trivial, fun i x s₁ hx => ?_⟩
  simp only [exec, if_pos hfile] at hx
  cases hx
  refine ⟨trivial, ?_⟩
  rw [← hs]
  rfl

theorem total_cmd {c : Cmd} (hc : c.IsStill) :
    Total n fs (cmd c : P (Resp c)) fun _ fs' => fs' = fs :=
  fun _ hs => ⟨trivial, fun _ _ _ hx => ⟨trivial, (files_of_still hc hx).trans hs⟩⟩

theorem total_finally {p : P α} {q : P Unit} (hq : ∀ fs, Total n fs q fun _ fs' => fs' = fs)
    (hp : Total n fs p R) : Total n fs (p.finally_ q) R := by
  intro s hs
  refine Store.safe_finally (fun r s' _ hr => ?_) (hp s hs)
  refine Store.safe_mono (fun r' s'' _ hr' => ?_) (hq s'.files s' rfl)
  cases r' with
  | error e => exact hr'.elim
  | ok _ =>
    cases r with
    | error e => exact hr.elim
    | ok a => exact hr' ▸ hr

theorem total_withLock {body : P α} (h : Total n fs body R) : Total n fs (withLock st id body) R :=
  total_still (c := .touch st id) trivial fun _ => total_still (c := .openLock st id) trivial fun _ =>
    total_finally (fun _ => total_cmd (c := .close) trivial)
      (total_still (c := .flock) trivial fun _ =>
        total_finally (fun _ => total_cmd (c := .unlock) trivial) h)

end Total

/-- `claim_task` of a file that is there. -/
theorem claimTask_total (hd : content fs .pending id = some data) :
    Total n fs (claimTask id) fun task fs' =>
      SameContent data task ∧ content fs' .claimed id = some task := by
  have hthere : (content fs .pending id).isSome = true := by rw [hd]; rfl
  refine total_exists ?_
  rw [hthere]
  refine total_bind (R := fun task fs' => SameContent data task ∧ content fs' .claimed id = some task)
    (total_withLock (total_exists ?_)) fun task fs' h =>
      total_still (c := .unlink .pending id) trivial fun _ => total_ret h
  rw [hthere]
  refine total_read hd (total_still (c := .host) trivial fun hostname =>
    total_still (c := .iso) trivial fun claimed_at => total_bind total_write fun _ fs₁ hfs₁ => ?_)
  subst hfs₁
  refine total_bind (total_remove ?_) fun _ fs' hfs' => total_ret ⟨?_, ?_⟩
  · rw [content_put, if_neg (by simp), hd]
    rfl
  · exact sameContent_setKeys (by simp [bookkeeping])
  · rw [hfs', content_drop, if_neg (by simp), content_put, if_pos ⟨rfl, rfl⟩]

/-- What `list_tasks` makes of a file: the same dictionary, but for the two fields it adds. -/
def ListedAs (data task : Doc) : Prop :=
  ∀ key, key ≠ "_stage" → key ≠ "_file" → task.lookup key = data.lookup key

/-- The loop of `list_tasks` over files that are there. -/
theorem scan_total : ∀ {ids : List String}, (∀ id ∈ ids, (content fs st id).isSome) →
    Total n fs (scan st ids) fun tasks fs' => fs' = fs ∧
      List.Forall₂ (fun id task => ∃ data, content fs st id = some data ∧ ListedAs data task) ids tasks
  | [], _ => total_ret ⟨rfl, .nil⟩
  | id :: ids, hthere => by
    obtain ⟨data, hd⟩ := Option.isSome_iff_exists.mp (hthere id List.mem_cons_self)
    have hread : Total n fs ((do
        let task ← readYaml st id
        return [setKeys task [("_stage", .str st.str),
          ("_file", .str (st.str ++ "/" ++ id ++ ".yaml"))]]) : P (List Doc))
        fun found fs' => fs' = fs ∧ ∃ task, found = [task] ∧ ListedAs data task := by
      refine total_read hd (total_ret ⟨rfl, _, rfl, fun key hstage hfile => ?_⟩)
      rw [setKeys, List.foldl_cons, List.foldl_cons, List.foldl_nil, lookup_setKey hfile,
        lookup_setKey hstage]
    refine total_bind (R := fun found fs' => fs' = fs ∧ ∃ task, found = [task] ∧ ListedAs data task)
      (fun s hs => Store.safe_catch (Store.safe_mono (fun r s' _ hr => ?_) (hread s hs)))
      fun found fs₁ h => ?_
    · cases r with
      | ok found => exact hr
      | error e => exact hr.elim
    obtain ⟨hfs₁, task, hfound, hkeys⟩ := h
    rw [hfs₁]
    refine total_bind (scan_total fun c hc => hthere c (List.mem_cons_of_mem _ hc)) fun tasks fs' h =>
      total_ret ⟨h.1, ?_⟩
    rw [hfound]
    exact .cons ⟨data, hd, hkeys⟩ h.2

/-- `list_tasks` of a stage returns a task for each of its files, and raises nothing. -/
theorem listStage_total : Total n fs (listStage st) fun tasks fs' => fs' = fs ∧ ∃ ids,
    ids.Perm ((stems fs st).filter (·.startsWith "task-")) ∧
      List.Forall₂ (fun id task => ∃ data, content fs st id = some data ∧ ListedAs data task) ids tasks := by
  rintro s rfl
  refine ⟨trivial, fun i ids s₁ hx => ?_⟩
  obtain ⟨rfl, rfl⟩ := Prod.mk.inj (Option.some.inj hx)
  have hperm := List.perm_insertionSort (fun a b => fileName a ≤ fileName b)
    ((stems s.files st).filter (·.startsWith "task-"))
  refine Store.safe_mono (fun r s' _ h => ?_) (scan_total (fun id hid => ?_) s rfl)
  · cases r with
    | ok tasks => exact ⟨h.1, _, hperm, h.2⟩
    | error e => exact h
  · exact mem_stems.mp (List.mem_of_mem_filter (hperm.mem_iff.mp hid))

/-! ## Both directions -/

variable (F) in
/-- The file of `id` has the text of a clock as its `key`, and `TaskQueue` cannot read it if that text
is one of `now_iso`. -/
def Stamped (fs : Files) (st : Stage) (id key : String) : Prop :=
  ∃ x, HasTime fs st id key x ∧ (IsIso x → Unreadable F fs st id)

variable (F) in
/-- `list_tasks` and `claim_task`, run alone, accept the file of `t`. -/
def Accepted (n : Nat) (s : Tree) (st : Stage) (t : Task) : Prop :=
  (∀ r s', store.Runs n (listStage st) s r s' →
    ∃ tasks, r = .ok tasks ∧ ∃ task ∈ tasks, ListedAs (docOf F t) task) ∧
  (st = .pending → ∀ r s', store.Runs n (claimTask t.id) s r s' →
    ∃ task, r = .ok task ∧ SameContent (docOf F t) task ∧ content s'.files .claimed t.id = some task)

variable {s s' : Tree}

theorem exists_of_forall₂ {α β : Type} {R : α → β → Prop} : ∀ {l : List α} {l' : List β}, List.Forall₂ R l l' →
    ∀ {a : α}, a ∈ l → ∃ b ∈ l', R a b
  | _, _, .cons h hs, a, ha => by
    rcases List.mem_cons.mp ha with rfl | ha
    · exact ⟨_, List.mem_cons_self, h⟩
    · obtain ⟨b, hb, hab⟩ := exists_of_forall₂ hs ha
      exact ⟨b, List.mem_cons_of_mem _ hb, hab⟩

theorem stamped_of_hasTime {x : String} (hF : ∀ x, IsIso x → F.float x = none)
    (hst : st = .pending ∨ st = .claimed ∧ content fs .pending id = none)
    (hkey : key ∈ ["created_at", "claimed_at", "completed_at"]) (hx : HasTime fs st id key x) :
    Stamped F fs st id key := by
  refine ⟨x, hx, fun hiso => ?_⟩
  obtain ⟨data, hdata, hx⟩ := hx
  exact unreadable_of_text hst hdata hkey hx (hF x hiso)

theorem accepted_of_file {t : Task} (hid : t.id.startsWith "task-" = true)
    (hd : content s.files st t.id = some (docOf F t)) : Accepted F n s st t := by
  refine ⟨fun r s' hr => ?_, fun hst r s' hr => ?_⟩
  · obtain ⟨tasks, hok, -, ids, hperm, htasks⟩ := listStage_total.runs hr
    have hmem : t.id ∈ ids :=
      hperm.mem_iff.mpr (List.mem_filter.mpr ⟨mem_stems.mpr (by rw [hd, Option.isSome_some]), hid⟩)
    obtain ⟨task, htask, data, hdata, hkeys⟩ := exists_of_forall₂ htasks hmem
    obtain rfl := Option.some.inj (hd.symm.trans hdata)
    exact ⟨tasks, hok, task, htask, hkeys⟩
  · subst hst
    exact (claimTask_total hd).runs hr

/-- **Two schemas.** Whatever `create_task`, `claim_task` and `decompose_task` write, `TaskQueue` raises
on it; `list_tasks` and `claim_task` accept what `TaskQueue` writes. -/
theorem shared_tree (hF : ∀ x, IsIso x → F.float x = none) (n : Nat) (s s' : Tree) :
    (∀ title description project priority requires estimated data,
      store.Runs n (createTask title description project priority requires estimated) s (.ok data) s' →
      ∃ id, data.lookup "id" = some (.str id) ∧ content s'.files .pending id = some data ∧
        Stamped F s'.files .pending id "created_at") ∧
    (∀ id data, store.Runs n (claimTask id) s (.ok data) s' →
      content s'.files .claimed id = some data ∧ Stamped F s'.files .claimed id "claimed_at") ∧
    (∀ id subtasks data, store.Runs n (decomposeTask id subtasks) s (.ok data) s' →
      ∀ i < subtasks.length, Stamped F s'.files .pending (subtaskId id i) "created_at") ∧
    ∀ st (t : Task), t.id.startsWith "task-" = true → content s.files st t.id = some (docOf F t) →
      Accepted F n s st t := by
  refine ⟨fun title description project priority requires estimated data hr => ?_,
    fun id data hr => ?_, fun id subtasks data hr i hi => ?_, fun st t hid hd => accepted_of_file hid hd⟩
  · obtain ⟨id, x, hid, hdata, hx⟩ := (@createTask_written s.files _ _ _ _ _ _ _).runs trivial rfl hr
    exact ⟨id, hid, hdata, stamped_of_hasTime hF (Or.inl rfl) (by simp) ⟨data, hdata, hx⟩⟩
  · obtain ⟨x, hdata, hnone, hx⟩ := (@claimTask_written s.files _ _).runs trivial rfl hr
    exact ⟨hdata, stamped_of_hasTime hF (Or.inr ⟨rfl, hnone⟩) (by simp) ⟨data, hdata, hx⟩⟩
  · obtain ⟨x, hx⟩ := (@decomposeTask_written s.files _ _ _).runs trivial rfl hr i hi
    exact stamped_of_hasTime hF (Or.inl rfl) (by simp) hx

/-! ## The first task of a tree -/

/-- Host `a` at the turn of a year. -/
def newYear : Env := ⟨"a", "2026-01-01T00:00:00Z", []⟩

/-- `create_task("t")` on an empty tree. -/
def firstTask : Option (Except PyError Doc × Tree) :=
  store.runWith 0 (createTask "t" "" "" "medium" [] 0) (List.replicate 12 newYear)
    (.ofFiles fun _ => .empty)

theorem lookup_of_getStr {x : String} (h : getStr data key = some x) :
    data.lookup key = some (.str x) := by
  unfold getStr at h
  split at h
  · rename_i y hy
    cases h
    exact hy
  · cases h

theorem exists_firstTask : ∃ data s',
    store.Runs 0 (createTask "t" "" "" "medium" [] 0) (.ofFiles fun _ => .empty) (.ok data) s' ∧
      HasTime s'.files .pending "task-001" "created_at" newYear.iso := by
  have hplay : firstTask.any (fun p => p.1.isOk &&
      decide ((content p.2.files .pending "task-001").bind (getStr · "created_at") =
        some newYear.iso)) = true := by
    decide +kernel
  obtain ⟨⟨r, s'⟩, hrun, hp⟩ := (Option.any_eq_true _ _).mp hplay
  rw [Bool.and_eq_true, decide_eq_true_iff] at hp
  obtain ⟨data, hdata, hx⟩ := Option.bind_eq_some_iff.mp hp.2
  cases r with
  | error e => exact absurd hp.1 Bool.false_ne_true
  | ok doc => exact ⟨doc, s', store.runs_of_runWith 0 hrun, data, hdata, lookup_of_getStr hx⟩

theorem shared_tree_firstTask : ∃ data s',
    store.Runs 0 (createTask "t" "" "" "medium" [] 0) (.ofFiles fun _ => .empty) (.ok data) s' ∧
      ∃ id, data.lookup "id" = some (.str id) ∧ content s'.files .pending id = some data ∧
        Stamped Python.exact s'.files .pending id "created_at" := by
  obtain ⟨data, s', hr, -⟩ := exists_firstTask
  refine ⟨data, s', hr, ?_⟩
  exact (shared_tree (fun _ => float_iso_exact) 0 _ s').1 "t" "" "" "medium" [] 0 data hr

/-- `TaskQueue` cannot get the first task that `create_task` wrote. -/
theorem firstTask_unreadable : ∃ data s' d r d',
    store.Runs 0 (createTask "t" "" "" "medium" [] 0) (.ofFiles fun _ => .empty) (.ok data) s' ∧
      Shows Python.exact s'.files d ∧
      TaskQueue.Filesystem.store.Runs 0 (fsGet Python.exact "task-001") d r d' ∧ ∃ e, r = .error e := by
  obtain ⟨data, s', hr, file, hfile, hx⟩ := exists_firstTask
  have hunreadable : Unreadable Python.exact s'.files .pending "task-001" :=
    unreadable_of_text (Or.inl rfl) hfile (by simp) hx (float_iso_exact (by decide))
  obtain ⟨r, d', hget⟩ := TaskQueue.Filesystem.exists_runs 0 (fsGet Python.exact "task-001")
    (view Python.exact s'.files)
  have hshows := shows_view Python.exact s'.files
  exact ⟨data, s', _, r, d', hr, hshows, hget, (hunreadable _ hshows 0).1 r d' hget⟩

end ClaudeSwarm.SwarmLib
