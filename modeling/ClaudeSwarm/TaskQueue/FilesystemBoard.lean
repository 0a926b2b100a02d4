import ClaudeSwarm.TaskQueue.Board

/-!
# The board on the filesystem

The directories hold a board when the file of each task, with the task's own dictionary, is in the
directory of its state and in no other (`Holds`). Files whose name does not end in `.yaml` are nobody's
business; they only count against the limit of a listing.

* `Holds.save`: `_fs_save` moves the file of a task.
* **`serves`**: the filesystem backend keeps the board.
-/

namespace ClaudeSwarm.TaskQueue.Filesystem

open Interleave Data
open Python (PyError FloatFmt)

/-! ## File names -/

theorem endsWith_iff {s pat : String} : s.endsWith pat = true ↔ pat.toList <:+ s.toList := by
  rw [← String.endsWith_toSlice, String.Slice.endsWith_string_iff, String.copy_toSlice]

theorem endsWith_fileName (id : String) : (fileName id).endsWith ".yaml" = true := by
  rw [endsWith_iff, fileName, String.toList_append]
  exact List.suffix_append _ _

theorem exists_fileName {name : String} (h : name.endsWith ".yaml" = true) :
    ∃ id, name = fileName id := by
  obtain ⟨l, hl⟩ := endsWith_iff.mp h
  refine ⟨.ofList l, String.toList_injective ?_⟩
  rw [fileName, String.toList_append, String.toList_ofList, hl]

theorem fileName_injective {a b : String} (h : fileName a = fileName b) : a = b := by
  simpa [fileName] using h

/-! ## Holding a board -/

/-- The file of a task, if it is in state `dir`. -/
def fileIn (dir : TaskState) (t : Task) : Option (String × List (String × Val)) :=
  if t.state = dir then some (fileName t.id, t.toDict) else none

/-- The directories hold the board `l`. -/
structure Holds (s : Dirs) (l : Board) : Prop where
  file : ∀ dir ∈ allStates, ∀ id, (s dir).find? (fileName id) = (l.find? id).bind (fileIn dir)
  state : ∀ t ∈ l.rows, t.state ∈ allStates
  tier : ∀ t ∈ l.rows, 0 ≤ t.priority ∧ t.priority ≤ 5

/-- The task in `dir` whose file is `name`. -/
def taskAt (l : Board) (dir : TaskState) (name : String) : Option Task :=
  l.rows.find? fun t => t.state == dir && fileName t.id == name

/-- The names of the files in `dir` that a listing looks at. -/
def listed (s : Dirs) (dir : TaskState) (limit : Nat) : List String :=
  (((s dir).rows.map Prod.fst).insertionSort (· ≤ ·)).take limit

/-- The tasks a listing shows. -/
def shown (s : Dirs) (l : Board) (dir : TaskState) (limit : Nat) : List Task :=
  (listed s dir limit).filterMap (taskAt l dir)

variable {F : FloatFmt} {n : Nat} {s s' : Dirs} {l : Board} {α : Type}

theorem taskAt_eq_some {dir : TaskState} {name : String} {t : Task} :
    taskAt l dir name = some t ↔ l.find? t.id = some t ∧ t.state = dir ∧ fileName t.id = name := by
  unfold taskAt
  constructor
  · intro h
    have hp := List.find?_some h
    simp only [Bool.and_eq_true, beq_iff_eq] at hp
    exact ⟨Table.find?_of_mem (List.mem_of_find?_eq_some h), hp⟩
  · rintro ⟨hfind, rfl, rfl⟩
    cases h : l.rows.find? fun t' => t'.state == t.state && fileName t'.id == fileName t.id with
    | none =>
      have := List.find?_eq_none.mp h t (Table.find?_mem hfind)
      simp at this
    | some t' =>
      have hp := List.find?_some h
      simp only [Bool.and_eq_true, beq_iff_eq] at hp
      have hid := fileName_injective hp.2
      have h' := Table.find?_of_mem (List.mem_of_find?_eq_some h)
      rw [hid, hfind] at h'
      exact h'.symm

theorem Holds.find? (h : Holds s l) {dir : TaskState} (hdir : dir ∈ allStates) {id : String}
    {f : String × List (String × Val)} (hf : (s dir).find? (fileName id) = some f) :
    ∃ t, l.find? id = some t ∧ t.state = dir ∧ f = (fileName id, t.toDict) := by
  rw [h.file dir hdir] at hf
  obtain ⟨t, ht, hf⟩ := Option.bind_eq_some_iff.mp hf
  unfold fileIn at hf
  split at hf
  · rename_i hst
    have hid : t.id = id := Table.find?_key ht
    cases hf
    exact ⟨t, ht, hst, by rw [hid]⟩
  · cases hf

theorem Holds.file_of (h : Holds s l) {id : String} {t : Task} (ht : l.find? id = some t) :
    (s t.state).find? (fileName id) = some (fileName id, t.toDict) := by
  have hid : t.id = id := Table.find?_key ht
  rw [h.file t.state (h.state t (Table.find?_mem ht)), ht, ← hid]
  exact if_pos rfl

/-! ## The tree of a board -/

/-- The directories with the files of the tasks. -/
def treeOf (l : Board) : Dirs := fun dir =>
  ⟨(l.rows.filter fun t => t.state == dir).map fun t => (fileName t.id, t.toDict), by
    rw [List.map_map]
    have hnodup := l.nodup.map fun _ _ => fileName_injective
    rw [List.map_map] at hnodup
    exact hnodup.sublist (List.filter_sublist.map _)⟩

theorem holds_treeOf (hstate : ∀ t ∈ l.rows, t.state ∈ allStates)
    (htier : ∀ t ∈ l.rows, 0 ≤ t.priority ∧ t.priority ≤ 5) : Holds (treeOf l) l := by
  refine ⟨fun dir _ id => ?_, hstate, htier⟩
  cases hid : l.find? id with
  | none =>
    cases hfile : (treeOf l dir).find? (fileName id) with
    | none => rfl
    | some f =>
      obtain ⟨t, ht, rfl⟩ := List.mem_map.mp (Table.find?_mem hfile)
      have hkey := Table.find?_key hfile
      have hname : fileName t.id = fileName id := hkey
      have hrow := Table.find?_of_mem (List.mem_filter.mp ht).1
      rw [fileName_injective hname, hid] at hrow
      cases hrow
  | some t =>
    have hkey : t.id = id := Table.find?_key hid
    subst hkey
    rw [Option.bind_some, fileIn]
    by_cases hst : t.state = dir
    · rw [if_pos hst]
      have hmem : (fileName t.id, t.toDict) ∈ (treeOf l dir).rows :=
        List.mem_map_of_mem (List.mem_filter.mpr ⟨Table.find?_mem hid, by simp [hst]⟩)
      exact Table.find?_of_mem hmem
    · rw [if_neg hst]
      cases hfile : (treeOf l dir).find? (fileName t.id) with
      | none => rfl
      | some f =>
        obtain ⟨t', ht', rfl⟩ := List.mem_map.mp (Table.find?_mem hfile)
        have hkey := Table.find?_key hfile
        have hname : fileName t'.id = fileName t.id := hkey
        obtain ⟨hrow', hdir⟩ := List.mem_filter.mp ht'
        have hrow := Table.find?_of_mem hrow'
        rw [fileName_injective hname, hid] at hrow
        cases hrow
        exact absurd (by simpa using hdir) hst

/-! ## Reading -/

/-- A command whose answer and effect do not depend on the outside. -/
theorem runs_cmd {c : Cmd} {f : Resp c → P α} {x : Resp c} {s₁ : Dirs} {r : Except PyError α}
    (hx : ∀ i, exec n i s c = some (x, s₁)) :
    store.Runs n (cmd c >>= f) s r s' ↔ store.Runs n (f x) s₁ r s' := by
  constructor
  · rintro ⟨i, y, s₂, hy, h⟩
    obtain ⟨rfl, rfl⟩ := Prod.mk.inj (Option.some.inj ((hx i).symm.trans hy))
    exact h
  · exact fun h => ⟨⟨0, ""⟩, x, s₁, hx _, h⟩

/-- The filesystem answers every command. -/
theorem exists_runs {α : Type} (n : Nat) (p : P α) (s : Dirs) :
    ∃ r s', store.Runs n p s r s' := by
  refine store.exists_runs n (fun s c => ⟨⟨0, ""⟩, ?_⟩) p s
  cases c <;> exact ⟨_, _, rfl⟩

theorem clampPriority_eq {p : Int} (h : 0 ≤ p ∧ p ≤ 5) : clampPriority p = p := by
  unfold clampPriority
  omega

/-- A task's own file reads back as the task. -/
theorem runs_readTask {t : Task} {name : String} {r : Except PyError Task}
    (hfile : (s t.state).find? name = some (name, t.toDict))
    (htier : 0 ≤ t.priority ∧ t.priority ≤ 5) :
    store.Runs n (readTask F t.state name) s r s' ↔ r = .ok t ∧ s' = s := by
  have hread : ∀ i, exec n i s (.read t.state name) = some (some t.toDict, s) := fun i => by
    simp [exec, hfile]
  have hdata : (fun key => if key = "state" then some (Val.str t.state.str) else t.toDict.lookup key)
      = fun key => t.toDict.lookup key := by
    funext key
    split
    · rename_i hkey
      subst hkey
      simp [Task.toDict, List.lookup_cons]
    · rfl
  have hdict : ∀ uuid, (Prog.ofExcept (Task.fromDict F uuid fun key =>
      if key = "state" then some (Val.str t.state.str) else t.toDict.lookup key) : P Task) = .ret t :=
    fun uuid => by rw [hdata, Task.fromDict_toDict, clampPriority_eq htier]; rfl
  rw [readTask, runs_cmd hread]
  simp only [hdict]
  constructor
  · rintro ⟨i, uuid, s₁, hu, hr⟩
    cases hu
    exact hr
  · exact fun hr => ⟨⟨0, ""⟩, "", s, rfl, hr⟩

/-- The loop of `_fs_get`. -/
theorem runs_getFrom (h : Holds s l) {id : String} {r : Except PyError (Option Task)} :
    ∀ {dirs : List TaskState}, (∀ dir ∈ dirs, dir ∈ allStates) →
      (store.Runs n (getFrom F id dirs) s r s' ↔
        r = .ok ((l.find? id).filter fun t => t.state ∈ dirs) ∧ s' = s)
  | [], _ => by
    have hnone : (l.find? id).filter (fun t => decide (t.state ∈ [])) = none := by
      cases l.find? id <;> rfl
    rw [hnone]
    rfl
  | dir :: dirs, hdirs => by
    have hdir := hdirs dir List.mem_cons_self
    have hrest := fun d hd => hdirs d (List.mem_cons_of_mem _ hd)
    have hexists : ∀ i, exec n i s (.pathExists dir (fileName id)) =
        some (((s dir).find? (fileName id)).isSome, s) := fun _ => rfl
    rw [getFrom, runs_cmd hexists]
    cases hf : (s dir).find? (fileName id) with
    | none =>
      have hne : ∀ t, l.find? id = some t → t.state ≠ dir := by
        rintro t ht rfl
        rw [h.file_of ht] at hf
        cases hf
      have hfilter : (l.find? id).filter (fun t => decide (t.state ∈ dir :: dirs)) =
          (l.find? id).filter fun t => decide (t.state ∈ dirs) := by
        cases ht : l.find? id with
        | none => rfl
        | some t => simp [Option.filter, hne t ht]
      rw [hfilter]
      exact runs_getFrom h hrest
    | some f =>
      obtain ⟨t, ht, hst, rfl⟩ := h.find? hdir hf
      subst hst
      have hread := fun x s₁ => @runs_readTask F n _ s₁ _ _ x (h.file_of ht) (h.tier t (Table.find?_mem ht))
      have hfilter : (l.find? id).filter (fun t' => decide (t'.state ∈ t.state :: dirs)) = some t := by
        simp [ht, Option.filter]
      rw [hfilter, Option.isSome_some, if_pos rfl, Store.runs_bind_of store n hread]
      rfl

/-- `_fs_get`. -/
theorem runs_fsGet (h : Holds s l) {id : String} {r : Except PyError (Option Task)} :
    store.Runs n (fsGet F id) s r s' ↔ r = .ok (l.find? id) ∧ s' = s := by
  have hfilter : (l.find? id).filter (fun t => decide (t.state ∈ stateDirs)) = l.find? id := by
    cases ht : l.find? id with
    | none => rfl
    | some t =>
      have hst : t.state ∈ stateDirs := by
        have := h.state t (Table.find?_mem ht)
        revert this
        simp only [allStates, stateDirs, List.mem_cons]
        tauto
      simp [Option.filter, hst]
  rw [fsGet, runs_getFrom h (by decide), hfilter]

/-- The names in a directory. -/
theorem exists_file_of_listed {dir : TaskState} {k : Nat} {name : String}
    (h : name ∈ listed s dir k) : ∃ f, (s dir).find? name = some f := by
  have hmem := (List.mem_insertionSort _).mp (List.mem_of_mem_take h)
  obtain ⟨f, hf, rfl⟩ := List.mem_map.mp hmem
  exact ⟨f, Table.find?_of_mem hf⟩

/-- The loop of `_fs_list`. -/
theorem runs_readAll (h : Holds s l) {dir : TaskState} (hdir : dir ∈ allStates)
    {names : List String} {r : Except PyError (List Task)}
    (hnames : ∀ name ∈ names, ∃ f, (s dir).find? name = some f) :
    store.Runs n (readAll F dir names) s r s' ↔
      r = .ok (names.filterMap (taskAt l dir)) ∧ s' = s := by
  induction names generalizing r s' with
  | nil => rfl
  | cons name names ih =>
    have ih := fun r s' => @ih s' r fun name' hn => hnames name' (List.mem_cons_of_mem _ hn)
    rw [readAll]
    by_cases hyaml : name.endsWith ".yaml" = true
    · obtain ⟨id, rfl⟩ := exists_fileName hyaml
      obtain ⟨f, hf⟩ := hnames _ List.mem_cons_self
      obtain ⟨t, ht, rfl, rfl⟩ := h.find? hdir hf
      have hid : t.id = id := Table.find?_key ht
      have hat : taskAt l t.state (fileName id) = some t :=
        taskAt_eq_some.mpr ⟨hid ▸ ht, rfl, by rw [hid]⟩
      have hread := fun x s₁ => @runs_readTask F n _ s₁ _ _ x (h.file_of ht) (h.tier t (Table.find?_mem ht))
      rw [if_pos hyaml, Store.runs_bind_of store n hread, Store.runs_bind_of store n ih,
        List.filterMap_cons_some hat]
      rfl
    · have hat : taskAt l dir name = none := by
        cases hat : taskAt l dir name with
        | none => rfl
        | some t =>
          obtain ⟨-, -, hname⟩ := taskAt_eq_some.mp hat
          exact absurd (hname ▸ endsWith_fileName t.id) hyaml
      rw [if_neg hyaml, List.filterMap_cons_none hat]
      exact ih r s'

/-- `_fs_list`. -/
theorem runs_fsList (h : Holds s l) {dir : TaskState} (hdir : dir ∈ allStates) {k : Nat}
    {r : Except PyError (List Task)} :
    store.Runs n (fsList F dir k) s r s' ↔ r = .ok (shown s l dir k) ∧ s' = s := by
  have hlist : ∀ i, exec n i s (.listdir dir) = some ((s dir).rows.map Prod.fst, s) := fun _ => rfl
  rw [fsList, runs_cmd hlist]
  exact runs_readAll h hdir fun name hn => exists_file_of_listed (k := k) hn

theorem mem_shown {dir : TaskState} {k : Nat} {t : Task} :
    t ∈ shown s l dir k ↔
      l.find? t.id = some t ∧ t.state = dir ∧ fileName t.id ∈ listed s dir k := by
  unfold shown
  rw [List.mem_filterMap]
  constructor
  · rintro ⟨name, hname, hat⟩
    obtain ⟨hfind, hst, rfl⟩ := taskAt_eq_some.mp hat
    exact ⟨hfind, hst, hname⟩
  · rintro ⟨hfind, hst, hname⟩
    exact ⟨_, hname, taskAt_eq_some.mpr ⟨hfind, hst, rfl⟩⟩

theorem nodup_listed (s : Dirs) (dir : TaskState) (k : Nat) : (listed s dir k).Nodup :=
  (((List.perm_insertionSort _ _).nodup_iff.mpr (s dir).nodup)).sublist (List.take_sublist _ _)

theorem pairwise_listed (s : Dirs) (dir : TaskState) (k : Nat) :
    (listed s dir k).Pairwise (· ≤ ·) :=
  (List.pairwise_insertionSort _ _).sublist (List.take_sublist _ _)

/-- The shown tasks come in the order of their files. -/
theorem fileNames_shown (dir : TaskState) (k : Nat) :
    ((shown s l dir k).map fun t => fileName t.id).Sublist (listed s dir k) := by
  unfold shown
  induction listed s dir k with
  | nil => exact List.Sublist.refl _
  | cons name names ih =>
    cases hat : taskAt l dir name with
    | none =>
      rw [List.filterMap_cons_none hat]
      exact ih.cons name
    | some t =>
      rw [List.filterMap_cons_some hat, List.map_cons, (taskAt_eq_some.mp hat).2.2]
      exact ih.cons_cons name

theorem nodup_shown (dir : TaskState) (k : Nat) : ((shown s l dir k).map Task.id).Nodup := by
  have hnames := (nodup_listed s dir k).sublist (fileNames_shown (l := l) dir k)
  rw [← Function.comp_def fileName Task.id, ← List.map_map] at hnames
  exact hnames.of_map fileName

/-! ## Writing -/

/-- What `removeOld` leaves. -/
theorem runs_removeOld {task : Task} {dirs : List TaskState} {r : Except PyError Unit}
    (hr : store.Runs n (removeOld task dirs) s r s') :
    r = .ok () ∧ ∀ dir, s' dir =
      if dir ∈ dirs ∧ dir ≠ task.state then (s dir).erase (fileName task.id) else s dir := by
  induction dirs generalizing s with
  | nil =>
    obtain ⟨rfl, rfl⟩ := hr
    exact ⟨rfl, fun dir => by simp⟩
  | cons d dirs ih =>
    have hexists : ∀ i, exec n i s (.pathExists d (fileName task.id)) =
        some (((s d).find? (fileName task.id)).isSome, s) := fun _ => rfl
    have hremove : ∀ i, exec n i s (.remove d (fileName task.id)) =
        some (((s d).find? (fileName task.id)).isSome,
          Function.update s d ((s d).erase (fileName task.id))) := fun _ => rfl
    rw [removeOld, runs_cmd hexists] at hr
    by_cases hd : ((s d).find? (fileName task.id)).isSome = true ∧ d ≠ task.state
    · rw [if_pos hd, runs_cmd hremove, if_pos hd.1] at hr
      obtain ⟨rfl, hs⟩ := ih hr
      refine ⟨rfl, fun dir => ?_⟩
      rw [hs]
      by_cases hdir : dir = d
      · subst hdir
        simp only [Function.update_self, List.mem_cons, true_or, hd.2, ne_eq, not_false_eq_true,
          and_true, if_true]
        split
        · exact Table.erase_erase _ _
        · rfl
      · simp [hdir]
    · rw [if_neg hd] at hr
      obtain ⟨rfl, hs⟩ := ih hr
      refine ⟨rfl, fun dir => ?_⟩
      rw [hs]
      by_cases hdir : dir = d
      · subst hdir
        by_cases hst : dir = task.state
        · simp [hst]
        · have hnone : (s dir).find? (fileName task.id) = none := by
            simpa [hst] using hd
          simp only [List.mem_cons, true_or, ne_eq, hst, not_false_eq_true, and_true, if_true]
          rw [Table.erase_of_none hnone]
          split <;> rfl
      · simp [hdir]

/-- A write, run alone. -/
theorem runs_write {dir : TaskState} {name : String} {data : List (String × Val)}
    {r : Except PyError Unit} :
    store.Runs n (cmd (.write dir name data)) s r s' ↔
      r = .ok () ∧ s' = Function.update s dir ((s dir).put (name, data)) := by
  constructor
  · rintro ⟨i, x, s₁, hx, rfl, rfl⟩
    cases hx
    exact ⟨rfl, rfl⟩
  · rintro ⟨rfl, rfl⟩
    exact ⟨⟨0, ""⟩, (), _, rfl, rfl, rfl⟩

/-- A task put on the board, where its file is written and no other file of it is left. -/
theorem Holds.put {t : Task} (h : Holds s l) (hst : t.state ∈ allStates)
    (htier : 0 ≤ t.priority ∧ t.priority ≤ 5)
    (hs : ∀ dir ∈ allStates, ∀ name, (s' dir).find? name =
      if name = fileName t.id then (if dir = t.state then some (name, t.toDict) else none)
      else (s dir).find? name) : Holds s' (l.put t) := by
  refine ⟨fun dir hdir id => ?_, fun t' ht' => ?_, fun t' ht' => ?_⟩
  · rw [hs dir hdir, Table.find?_put]
    by_cases hid : id = t.id
    · subst hid
      rw [if_pos rfl, if_pos rfl, Option.bind_some, fileIn]
      by_cases hd : dir = t.state
      · rw [if_pos hd, if_pos hd.symm]
      · rw [if_neg hd, if_neg (Ne.symm hd)]
    · rw [if_neg (fun he => hid (fileName_injective he)), if_neg hid]
      exact h.file dir hdir id
  · rcases Table.mem_put.mp ht' with ⟨hmem, -⟩ | rfl
    · exact h.state t' hmem
    · exact hst
  · rcases Table.mem_put.mp ht' with ⟨hmem, -⟩ | rfl
    · exact h.tier t' hmem
    · exact htier

/-- The directories after `_fs_save`. -/
theorem runs_fsSave {t : Task} {r : Except PyError Unit}
    (hr : store.Runs n (fsSave t) s r s') : r = .ok () ∧ ∀ dir, s' dir =
      if dir = t.state then (s dir).put (fileName t.id, t.toDict)
      else if dir ∈ stateDirs then (s dir).erase (fileName t.id) else s dir := by
  rcases (Store.runs_bind store n).mp hr with ⟨_, s₁, hold, hwrite⟩ | ⟨e, hold, -⟩
  · obtain ⟨-, hs₁⟩ := runs_removeOld hold
    obtain ⟨rfl, rfl⟩ := runs_write.mp hwrite
    refine ⟨rfl, fun dir => ?_⟩
    by_cases hdir : dir = t.state
    · subst hdir
      rw [Function.update_self, hs₁, if_pos rfl, if_neg (fun h => h.2 rfl)]
    · rw [Function.update_of_ne hdir, hs₁, if_neg hdir]
      simp [hdir]
  · cases (runs_removeOld hold).1

theorem mem_stateDirs {dir : TaskState} (h : dir ∈ allStates) : dir ∈ stateDirs := by
  revert h
  simp only [allStates, stateDirs, List.mem_cons]
  tauto

/-- `_fs_save` moves the file of a task. -/
theorem Holds.save {t : Task} {r : Except PyError Unit} (h : Holds s l)
    (hst : t.state ∈ allStates) (htier : 0 ≤ t.priority ∧ t.priority ≤ 5)
    (hr : store.Runs n (fsSave t) s r s') : r = .ok () ∧ Holds s' (l.put t) := by
  obtain ⟨rfl, hs⟩ := runs_fsSave hr
  refine ⟨rfl, h.put hst htier fun dir hdir name => ?_⟩
  rw [hs]
  by_cases hd : dir = t.state
  · rw [if_pos hd, Table.find?_put]
    by_cases hname : name = fileName t.id
    · simp [hname, hd]
    · simp [hname]
  · rw [if_neg hd, if_pos (mem_stateDirs hdir), Table.find?_erase]
    by_cases hname : name = fileName t.id
    · simp [hname, hd]
    · simp [hname]

/-- The priority a task is read with: its own. -/
abbrev ownTier (t : Task) : Int := t.priority

/-- **The filesystem backend keeps the board.** -/
theorem serves (F : FloatFmt) : Serves (files F) store Holds ownTier shown where
  get := by
    intro n s l id x s' h
    have hmap : (l.find? id).map (Task.read ownTier) = l.find? id := by
      cases l.find? id <;> rfl
    rw [hmap]
    exact runs_fsGet h
  save := by
    intro n s l t₀ t x s' h hfind hm hr
    refine h.save hm.state_mem ?_ hr
    rw [hm.priority]
    exact h.tier t₀ (Table.find?_mem hfind)
  now := by
    rintro n s x s' ⟨i, y, s₁, hy, rfl, rfl⟩
    cases hy
    exact ⟨i.now, rfl, rfl⟩
  list := fun h hst => runs_fsList h hst
  mem_shown := by
    intro s l st k t _ ht
    obtain ⟨hfind, hst, -⟩ := mem_shown.mp ht
    exact ⟨t, hfind, rfl, hst⟩
  nodup_shown := fun _ => nodup_shown _ _

section Claims

variable {H : Dirs → Board → Prop} (hB : Serves (files F) store H ownTier shown)
include hB

/-- The claim of the next task aside, the backend is `files`. -/
theorem serves_backend_of : Serves (backend F) store H ownTier shown where
  get := hB.get
  save := hB.save
  now := hB.now
  list := hB.list
  mem_shown := hB.mem_shown
  nodup_shown := hB.nodup_shown

/-- `_fs_claim`: the first of the listed tasks by priority. -/
theorem runs_fsClaim_of {claimer : String} {x : Except PyError (Option Task)} (h : H s l)
    (hr : store.Runs n (fsClaim F claimer) s x s') :
    (Backend.byPriority (shown s l .pending 50) = [] ∧ x = .ok none ∧ s' = s) ∨
      ∃ t ts now, Backend.byPriority (shown s l .pending 50) = t :: ts ∧
        x = .ok (some (t.claim claimer now)) ∧ H s' (l.put (t.claim claimer now)) := by
  have hlist : ∀ y s₁, store.Runs n (fsList F .pending 50) s y s₁ ↔
      y = .ok (shown s l .pending 50) ∧ s₁ = s := fun _ _ => hB.list h (by decide)
  rw [fsClaim, Store.runs_bind_of store n hlist] at hr
  cases hts : Backend.byPriority (shown s l .pending 50) with
  | nil =>
    rw [hts] at hr
    exact Or.inl ⟨rfl, hr⟩
  | cons t ts =>
    rw [hts] at hr
    obtain ⟨t₀, hfind, rfl, hp⟩ := hB.mem_shown h (mem_byPriority.mp (hts ▸ List.mem_cons_self))
    obtain ⟨now, hx, hs⟩ := hB.runs_claimSpecific h hfind hp hr
    exact Or.inr ⟨_, ts, now, rfl, hx, hs⟩

/-- Every call of the queue changes nothing or moves one task. -/
theorem changed_of_call_of {o : Op} {x : Except PyError (Option Task)} (h : H s l)
    (hr : store.Runs n (o.prog (backend F)) s x s') : Changed H ownTier l s s' x := by
  refine (serves_backend_of hB).changed_of_op (fun {claimer x} hr => ?_) h hr
  rcases runs_fsClaim_of hB h hr with ⟨-, rfl, rfl⟩ | ⟨t, ts, now, hts, rfl, hs⟩
  · exact .nothing rfl
  · obtain ⟨t₀, hfind, rfl, hp⟩ := hB.mem_shown h (mem_byPriority.mp (hts ▸ List.mem_cons_self))
    exact .moved hfind (.claim claimer now hp) hs

end Claims

theorem serves_backend (F : FloatFmt) : Serves (backend F) store Holds ownTier shown :=
  serves_backend_of (serves F)

theorem runs_fsClaim {claimer : String} {x : Except PyError (Option Task)} (h : Holds s l)
    (hr : store.Runs n (fsClaim F claimer) s x s') :
    (Backend.byPriority (shown s l .pending 50) = [] ∧ x = .ok none ∧ s' = s) ∨
      ∃ t ts now, Backend.byPriority (shown s l .pending 50) = t :: ts ∧
        x = .ok (some (t.claim claimer now)) ∧ Holds s' (l.put (t.claim claimer now)) :=
  runs_fsClaim_of (serves F) h hr

theorem changed_of_call {o : Op} {x : Except PyError (Option Task)} (h : Holds s l)
    (hr : store.Runs n (o.prog (backend F)) s x s') : Changed Holds ownTier l s s' x :=
  changed_of_call_of (serves F) h hr

/-- `create`. -/
theorem runs_create {nodename title description project createdBy : String} {priority : Val}
    {requires : List String} {estimated : Int} {x : Except PyError Task}
    (hr : store.Runs n
      (create nodename title description project priority requires estimated createdBy) s x s') :
    ∃ task : Task, x = .ok task ∧ task.title = title ∧ task.requires = requires ∧
      task.priority = normalizePriority priority ∧ task.state = .pending ∧
      s' = Function.update s .pending ((s .pending).put (fileName task.id, task.toDict)) := by
  obtain ⟨i₁, x₁, s₁, h₁, i₂, x₂, s₂, h₂, i₃, x₃, s₃, h₃, rfl, rfl⟩ := hr
  cases h₁
  cases h₂
  cases h₃
  exact ⟨_, rfl, rfl, rfl, rfl, rfl, rfl⟩

/-- A task with a fresh identifier enters the board. -/
theorem Holds.create {task : Task} (h : Holds s l) (hnew : l.find? task.id = none)
    (hst : task.state = .pending) (htier : 0 ≤ task.priority ∧ task.priority ≤ 5) :
    Holds (Function.update s .pending ((s .pending).put (fileName task.id, task.toDict)))
      (l.put task) := by
  refine h.put (by rw [hst]; decide) htier fun dir hdir name => ?_
  rw [hst]
  by_cases hd : dir = .pending
  · subst hd
    rw [Function.update_self, Table.find?_put]
    by_cases hname : name = fileName task.id
    · simp [hname]
    · simp [hname]
  · rw [Function.update_of_ne hd]
    by_cases hname : name = fileName task.id
    · subst hname
      rw [if_pos rfl, if_neg hd, h.file dir hdir, hnew]
      rfl
    · rw [if_neg hname]

end ClaudeSwarm.TaskQueue.Filesystem
