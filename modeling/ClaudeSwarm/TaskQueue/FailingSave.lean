import ClaudeSwarm.Interleave.Alone
import ClaudeSwarm.TaskQueue.FilesystemBoard
import ClaudeSwarm.TaskQueue.FilesystemClaims

/-!
# Saves that fail

The filesystem backend (`src/task_queue.py`) on a disk whose operations may raise `OSError`. A removal that fails
leaves the file; `open(new_path, "w")` and the dump after it leave the file as it was, or cut off with what has been
written of it so far. Nothing follows the write in any call of the queue, so that the answer of a write that has
failed is not told from that of one that has not. A process that stops is one that goes no further: `Reaches`.

* `reaches_fsSave`: the trees that `_fs_save` goes through are those at its `Point`s. `saved_of_op`: a call of the
  queue goes through no other.
* `kept_iff_copies`: when `_fs_get` finds a task, in one of two states.
* **`kept_iff`**: at which points the task is still found.
* `claim_loses`: a claim whose write fails has removed the only file of the task.
-/

namespace ClaudeSwarm.TaskQueue.Filesystem

open Interleave Data
open Python (Time PyError FloatFmt)

/-! ## A disk that fails -/

/-- What a file holds: a dictionary, or what cannot be read as one. -/
abbrev Content := Option (List (String × Val))

/-- The directories below `_tasks_dir`. -/
abbrev Tree := TaskState → Table (Prod.fst : String × Content → String)

/-- How an operation fails: without effect, or with a file that was opened for writing. -/
inductive Fault where
  | refused
  | partly (left : Content)

/-- What a command reads from outside. -/
structure Chance extends Env where
  fault : Option Fault

/-- Execute a command. A removal that fails answers as one of a file that is gone: both raise `OSError`. -/
def execFailing (_ : Nat) (i : Chance) (s : Tree) : (c : Cmd) → Option (Resp c × Tree)
  | .now => some (i.now, s)
  | .uuid => some (i.uuid, s)
  | .pathExists dir name => some (((s dir).find? name).isSome, s)
  | .read dir name => some (((s dir).find? name).bind Prod.snd, s)
  | .remove dir name =>
    match i.fault with
    | none => some (((s dir).find? name).isSome, Function.update s dir ((s dir).erase name))
    | some _ => some (false, s)
  | .write dir name data =>
    match i.fault with
    | none => some ((), Function.update s dir ((s dir).put (name, some data)))
    | some .refused => some ((), s)
    | some (.partly left) => some ((), Function.update s dir ((s dir).put (name, left)))
  | .listdir dir => some ((s dir).rows.map Prod.fst, s)

/-- The disk as a store. -/
abbrev disk : Store sig := ⟨Tree, Chance, execFailing⟩

/-- No fault, at time `now`. -/
def calm (now : Time) : Chance := ⟨⟨now, ""⟩, none⟩

/-- The files of a task, in the order in which `_fs_get` looks for them. -/
def copies (s : Tree) (id : String) : List (TaskState × Content) :=
  stateDirs.filterMap fun dir => ((s dir).find? (fileName id)).map fun f => (dir, f.2)

/-- The task in a file that is read. -/
def asTask (F : FloatFmt) (uuid : String) (dir : TaskState) (data : List (String × Val)) : Except PyError Task :=
  Task.fromDict F uuid fun key => if key = "state" then some (.str dir.str) else data.lookup key

/-- Whatever identifier is drawn, the file reads as task `id`. -/
def Readable (F : FloatFmt) (id : String) (e : TaskState × Content) : Prop :=
  ∃ data, e.2 = some data ∧ ∀ uuid, ∃ t, asTask F uuid e.1 data = .ok t ∧ t.id = id

/-- The task is in the tree: `_fs_get` returns it. -/
def InTree (F : FloatFmt) (n : Nat) (s : Tree) (t : Task) : Prop :=
  ∀ x s', disk.Runs n (fsGet F t.id) s x s' → x = .ok (some t)

/-- `_fs_get` finds the task, in one of two states. -/
def Kept (F : FloatFmt) (n : Nat) (s : Tree) (id : String) (a b : TaskState) : Prop :=
  ∀ x s', disk.Runs n (fsGet F id) s x s' → ∃ t, x = .ok (some t) ∧ t.id = id ∧ (t.state = a ∨ t.state = b)

/-- Where `_fs_save` is left: the files in the first `k` directories have been removed, or the new one has been opened
and holds `left`. -/
inductive Point where
  | removing (k : Nat)
  | writing (left : Content)

/-- The file of the task removed from the directories of other states. -/
def erased (s : Tree) (t : Task) (dirs : List TaskState) : Tree := fun dir =>
  if dir ∈ dirs ∧ dir ≠ t.state then (s dir).erase (fileName t.id) else s dir

/-- The tree at a point of `_fs_save`. -/
def after (s : Tree) (t : Task) : Point → Tree
  | .removing k => erased s t (stateDirs.take k)
  | .writing left => fun dir =>
    if dir = t.state then (s dir).put (fileName t.id, left) else erased s t stateDirs dir

/-- The point leaves a file of the task where it is found. While files are removed: its own is not among them, or the
first that is left is one in the new directory. -/
def Survives (F : FloatFmt) (s : Tree) (t t' : Task) : Point → Prop
  | .removing k => t.state = t'.state ∨ t.state ∉ stateDirs.take k ∨
    ∃ e, ((copies s t.id).filter fun e => e.1 ∉ stateDirs.take k ∨ e.1 = t'.state).head? = some e ∧
      e.1 = t'.state ∧ Readable F t.id e
  | .writing left => Readable F t.id (t'.state, left)

variable {F : FloatFmt} {n : Nat} {s s₁ s' : Tree} {t t' : Task} {id : String} {α : Type}

/-! ## Reading -/

/-- A command that only reads, and answers the same whatever comes from outside. -/
theorem disk_runs_cmd {c : Cmd} {f : Resp c → P α} {x : Resp c} {r : Except PyError α}
    (hx : ∀ i, execFailing n i s c = some (x, s)) : disk.Runs n (cmd c >>= f) s r s' ↔ disk.Runs n (f x) s r s' := by
  constructor
  · rintro ⟨i, y, s₂, hy, h⟩
    obtain ⟨rfl, rfl⟩ := Prod.mk.inj (Option.some.inj ((hx i).symm.trans hy))
    exact h
  · exact fun h => ⟨calm 0, x, s, hx _, h⟩

theorem disk_reaches_cmd {c : Cmd} {f : Resp c → P α} {x : Resp c}
    (hx : ∀ i, execFailing n i s c = some (x, s)) : disk.Reaches n (cmd c >>= f) s s' ↔ disk.Reaches n (f x) s s' := by
  constructor
  · rintro (rfl | ⟨i, y, s₂, hy, h⟩)
    · exact disk.reaches_refl n (f x) s'
    · obtain ⟨rfl, rfl⟩ := Prod.mk.inj (Option.some.inj ((hx i).symm.trans hy))
      exact h
  · exact fun h => Or.inr ⟨calm 0, x, s, hx _, h⟩

/-- A read leaves the tree as it is. -/
theorem safe_of_reads {p : P α} (h : p.Each Cmd.IsRead) : disk.Safe n (· = s) (fun _ _ => True) p s := by
  have hends := Store.ends_each (T := disk) (n := n) (I := (· = s)) (A := fun _ => True) (p := p)
    (fun c hc i s₁ x s₂ hs _ hx => by
      subst hs
      refine ⟨?_, trivial⟩
      cases c with
      | remove | write => exact hc.elim
      | _ =>
        cases hx
        rfl) h
  exact Store.safe_mono (fun _ _ _ _ => trivial) (hends s rfl trivial)

theorem state_of_reads {p : P α} (h : p.Each Cmd.IsRead) {x : Except PyError α} (hr : disk.Runs n p s x s') : s' = s :=
  (safe_of_reads h).reaches (disk.reaches_of_runs n hr)

theorem each_fsGet {id : String} : (fsGet F id).Each Cmd.IsRead := each_getFrom (fun _ h => h) stateDirs

/-- The disk answers every command. -/
theorem disk_exists_runs (p : P α) (s : Tree) : ∃ r s', disk.Runs n p s r s' := by
  refine disk.exists_runs n (fun s c => ⟨calm 0, ?_⟩) p s
  cases c <;> exact ⟨_, _, rfl⟩

theorem asTask_state {uuid : String} {dir : TaskState} {data : List (String × Val)}
    (h : asTask F uuid dir data = .ok t) : t.state = dir := by
  unfold asTask Task.fromDict at h
  obtain ⟨state, hstate, h⟩ := exists_of_bind_ok h
  obtain rfl : dir.str = state := by simpa [strOf] using hstate
  iterate 13 obtain ⟨_, -, h⟩ := exists_of_bind_ok h
  cases h
  exact TaskState.ofStr_str dir

/-- `_fs_get` where the task has no file. -/
theorem runs_getFrom_nil {x : Except PyError (Option Task)} : ∀ {dirs : List TaskState},
    (dirs.filterMap fun dir => ((s dir).find? (fileName id)).map fun f => (dir, f.2)) = [] →
      disk.Runs n (getFrom F id dirs) s x s' → x = .ok none
  | [], _, h => h.1
  | dir :: dirs, hnil, h => by
    cases hf : (s dir).find? (fileName id) with
    | some f => simp [hf] at hnil
    | none =>
      rw [getFrom, disk_runs_cmd (x := false) (fun i => by simp [execFailing, hf])] at h
      exact runs_getFrom_nil (by simpa [hf] using hnil) h

/-- The first file is read. -/
theorem runs_getFrom_cons {e : TaskState × Content} : ∀ {dirs : List TaskState},
    (dirs.filterMap fun dir => ((s dir).find? (fileName id)).map fun f => (dir, f.2)).head? = some e →
      ((s e.1).find? (fileName id)).bind Prod.snd = e.2 ∧ ∀ x s',
        (disk.Runs n (getFrom F id dirs) s x s' ↔
          disk.Runs n (readTask F e.1 (fileName id) >>= fun task => .ret (some task)) s x s')
  | [], h => by cases h
  | dir :: dirs, h => by
    cases hf : (s dir).find? (fileName id) with
    | none =>
      have hrest : (dirs.filterMap fun dir => ((s dir).find? (fileName id)).map fun f => (dir, f.2)).head? = some e := by
        simpa [hf] using h
      obtain ⟨hfile, hruns⟩ := runs_getFrom_cons hrest
      refine ⟨hfile, fun x s' => ?_⟩
      rw [getFrom, disk_runs_cmd (x := false) (fun i => by simp [execFailing, hf])]
      exact hruns x s'
    | some f =>
      have he : (dir, f.2) = e := by simpa [hf] using h
      subst he
      refine ⟨by rw [hf]; rfl, fun x s' => ?_⟩
      rw [getFrom, disk_runs_cmd (x := true) (fun i => by simp [execFailing, hf])]
      rfl

/-- `_fs_get` of a task whose first file is a dictionary. -/
theorem runs_fsGet_some {e : TaskState × Content} {data : List (String × Val)} (h : (copies s id).head? = some e)
    (hdata : e.2 = some data) {x : Except PyError (Option Task)} :
    disk.Runs n (fsGet F id) s x s' ↔ (∃ uuid, x = (asTask F uuid e.1 data).map some) ∧ s' = s := by
  obtain ⟨hfile, hruns⟩ := runs_getFrom_cons (n := n) (F := F) h
  rw [hdata] at hfile
  have hread : ∀ i, execFailing n i s (.read e.1 (fileName id)) = some (some data, s) := fun i => by
    rw [execFailing, hfile]
  rw [fsGet, hruns, readTask, Prog.bind_assoc, disk_runs_cmd hread]
  have hend : ∀ uuid, disk.Runs n ((Prog.ofExcept (asTask F uuid e.1 data) : P Task) >>= fun task => .ret (some task))
      s x s' ↔ x = (asTask F uuid e.1 data).map some ∧ s' = s := fun uuid => by
    cases asTask F uuid e.1 data <;> rfl
  constructor
  · rintro ⟨i, uuid, s₂, hu, hr⟩
    cases hu
    obtain ⟨hx, hs⟩ := (hend i.uuid).mp hr
    exact ⟨⟨i.uuid, hx⟩, hs⟩
  · rintro ⟨⟨uuid, hx⟩, hs⟩
    exact ⟨⟨⟨0, uuid⟩, none⟩, uuid, s, rfl, (hend uuid).mpr ⟨hx, hs⟩⟩

/-- Where it cannot be read as one, `_fs_get` raises. -/
theorem runs_fsGet_none {e : TaskState × Content} (h : (copies s id).head? = some e) (hdata : e.2 = none)
    {x : Except PyError (Option Task)} (hr : disk.Runs n (fsGet F id) s x s') : ∃ err, x = .error err := by
  obtain ⟨hfile, hruns⟩ := runs_getFrom_cons (n := n) (F := F) h
  rw [hdata] at hfile
  have hread : ∀ i, execFailing n i s (.read e.1 (fileName id)) = some (none, s) := fun i => by
    rw [execFailing, hfile]
  rw [fsGet, hruns, readTask, Prog.bind_assoc, disk_runs_cmd hread] at hr
  exact ⟨_, hr.1⟩

/-- **When a task is found**: the first of its files reads as the task, and is in a directory of the two states. -/
theorem kept_iff_copies {a b : TaskState} : Kept F n s id a b ↔
    ∃ e, (copies s id).head? = some e ∧ Readable F id e ∧ (e.1 = a ∨ e.1 = b) := by
  constructor
  · intro h
    obtain ⟨x, s', hr⟩ := disk_exists_runs (n := n) (fsGet F id) s
    obtain ⟨t, rfl, -⟩ := h x s' hr
    cases hcopies : (copies s id).head? with
    | none => cases runs_getFrom_nil (List.head?_eq_none_iff.mp hcopies) hr
    | some e =>
      cases hdata : e.2 with
      | none =>
        obtain ⟨_, herr⟩ := runs_fsGet_none hcopies hdata hr
        cases herr
      | some data =>
        have hfound : ∀ uuid, ∃ t, asTask F uuid e.1 data = .ok t ∧ t.id = id ∧ (e.1 = a ∨ e.1 = b) := fun uuid => by
          obtain ⟨t, hx, hid, hstate⟩ := h _ s ((runs_fsGet_some hcopies hdata).mpr ⟨⟨uuid, rfl⟩, rfl⟩)
          cases htask : asTask F uuid e.1 data with
          | error err =>
            rw [htask] at hx
            cases hx
          | ok t' =>
            rw [htask] at hx
            cases hx
            rw [asTask_state htask] at hstate
            exact ⟨t, rfl, hid, hstate⟩
        obtain ⟨_, -, -, hstate⟩ := hfound ""
        refine ⟨e, rfl, ⟨data, hdata, fun uuid => ?_⟩, hstate⟩
        obtain ⟨t, ht, hid, -⟩ := hfound uuid
        exact ⟨t, ht, hid⟩
  · rintro ⟨e, hhead, ⟨data, hdata, hreads⟩, hstate⟩ x s' hr
    obtain ⟨⟨uuid, rfl⟩, -⟩ := (runs_fsGet_some hhead hdata).mp hr
    obtain ⟨t, ht, hid⟩ := hreads uuid
    rw [ht]
    refine ⟨t, rfl, hid, ?_⟩
    rw [asTask_state ht]
    exact hstate

/-- A task in the tree is found in its own state. -/
theorem InTree.head (h : InTree F n s t) : ∃ e, (copies s t.id).head? = some e ∧ Readable F t.id e ∧ e.1 = t.state := by
  have hkept : Kept F n s t.id t.state t.state := fun x s' hr => ⟨t, h x s' hr, rfl, Or.inl rfl⟩
  obtain ⟨e, hhead, hreads, hstate⟩ := kept_iff_copies.mp hkept
  exact ⟨e, hhead, hreads, hstate.elim (fun h => h) fun h => h⟩

/-- `_fs_get` of a task in the tree. -/
theorem InTree.runs (h : InTree F n s t) : disk.Runs n (fsGet F t.id) s (.ok (some t)) s := by
  obtain ⟨x, s', hr⟩ := disk_exists_runs (n := n) (fsGet F t.id) s
  obtain rfl := h x s' hr
  obtain rfl := state_of_reads each_fsGet hr
  exact hr

/-- A task's own dictionary. -/
theorem asTask_toDict {uuid : String} (htier : 0 ≤ t.priority ∧ t.priority ≤ 5) :
    asTask F uuid t.state t.toDict = .ok t := by
  have hdata : (fun key => if key = "state" then some (Val.str t.state.str) else t.toDict.lookup key)
      = fun key => t.toDict.lookup key := by
    funext key
    split
    · rename_i hkey
      subst hkey
      simp [Task.toDict, List.lookup_cons]
    · rfl
  rw [asTask, hdata, Task.fromDict_toDict, clampPriority_eq htier]

theorem inTree_of_copies (h : (copies s t.id).head? = some (t.state, some t.toDict))
    (htier : 0 ≤ t.priority ∧ t.priority ≤ 5) : InTree F n s t := by
  intro x s' hr
  obtain ⟨⟨uuid, rfl⟩, -⟩ := (runs_fsGet_some h rfl).mp hr
  rw [asTask_toDict htier]
  rfl

/-! ## The points of `_fs_save` -/

theorem erased_nil : erased s t [] = s := by
  funext dir
  exact if_neg fun h => List.not_mem_nil h.1

theorem erased_cons {dir : TaskState} {dirs : List TaskState} :
    erased (erased s t [dir]) t dirs = erased s t (dir :: dirs) := by
  funext d
  by_cases hst : d = t.state
  · simp [erased, hst]
  by_cases hd : d = dir
  · subst hd
    by_cases hmem : d ∈ dirs
    · simp [erased, hst, hmem, Table.erase_erase]
    · simp [erased, hst, hmem]
  · simp [erased, hst, hd]

/-- One turn of the loop. -/
theorem erased_single {dir : TaskState} : erased s t [dir] =
    if ((s dir).find? (fileName t.id)).isSome = true ∧ dir ≠ t.state then
      Function.update s dir ((s dir).erase (fileName t.id))
    else s := by
  funext d
  split
  · rename_i h
    by_cases hd : d = dir
    · subst hd
      simp [erased, h.2]
    · simp [erased, hd]
  · rename_i h
    by_cases hd : d = dir
    · subst hd
      by_cases hst : d = t.state
      · simp [erased, hst]
      · have hnone : (s d).find? (fileName t.id) = none := by simpa [hst] using h
        simp [erased, hst, Table.erase_of_none hnone]
    · simp [erased, hd]

/-- The loop of `_fs_save` goes through the trees in which the files in the first directories are removed. -/
theorem reaches_removeOld : ∀ {dirs : List TaskState} {s : Tree},
    disk.Reaches n (removeOld t dirs) s s' ↔ ∃ k, s' = erased s t (dirs.take k)
  | [], s => by
    simp only [List.take_nil, erased_nil, exists_const]
    rfl
  | dir :: dirs, s => by
    have hexists : ∀ i, execFailing n i s (.pathExists dir (fileName t.id)) =
        some (((s dir).find? (fileName t.id)).isSome, s) := fun _ => rfl
    have hturn : (∃ k, s' = erased s t ((dir :: dirs).take k)) ↔
        s' = s ∨ disk.Reaches n (removeOld t dirs) (erased s t [dir]) s' := by
      rw [reaches_removeOld]
      constructor
      · rintro ⟨k, rfl⟩
        cases k with
        | zero => exact Or.inl erased_nil
        | succ k => exact Or.inr ⟨k, erased_cons.symm⟩
      · rintro (rfl | ⟨k, rfl⟩)
        · exact ⟨0, erased_nil.symm⟩
        · exact ⟨k + 1, erased_cons⟩
    rw [hturn, removeOld, disk_reaches_cmd hexists, erased_single]
    by_cases hd : ((s dir).find? (fileName t.id)).isSome = true ∧ dir ≠ t.state
    · rw [if_pos hd, if_pos hd]
      constructor
      · rintro (rfl | ⟨i, x, s₂, hx, hr⟩)
        · exact Or.inl rfl
        · have hexec : execFailing n i s (.remove dir (fileName t.id)) = some (x, s₂) := hx
          unfold execFailing at hexec
          cases hfault : i.fault with
          | some fault =>
            simp only [hfault] at hexec
            cases hexec
            exact Or.inl hr
          | none =>
            simp only [hfault, hd.1] at hexec
            cases hexec
            exact Or.inr hr
      · rintro (rfl | hr)
        · exact Or.inl rfl
        · refine Or.inr ⟨calm 0, true, _, ?_, hr⟩
          rw [← hd.1]
          rfl
    · rw [if_neg hd, if_neg hd]
      constructor
      · exact Or.inr
      · rintro (rfl | hr)
        · exact disk.reaches_refl n _ s'
        · exact hr

/-- When the loop ends, they all are. -/
theorem runs_removeOld_ok : ∀ {dirs : List TaskState} {s : Tree},
    disk.Runs n (removeOld t dirs) s (.ok ()) s' ↔ s' = erased s t dirs
  | [], s => by
    rw [erased_nil]
    exact and_iff_right rfl
  | dir :: dirs, s => by
    have hexists : ∀ i, execFailing n i s (.pathExists dir (fileName t.id)) =
        some (((s dir).find? (fileName t.id)).isSome, s) := fun _ => rfl
    rw [removeOld, disk_runs_cmd hexists, ← erased_cons, ← runs_removeOld_ok, erased_single]
    by_cases hd : ((s dir).find? (fileName t.id)).isSome = true ∧ dir ≠ t.state
    · rw [if_pos hd, if_pos hd]
      constructor
      · rintro ⟨i, x, s₂, hx, hr⟩
        have hexec : execFailing n i s (.remove dir (fileName t.id)) = some (x, s₂) := hx
        unfold execFailing at hexec
        cases hfault : i.fault with
        | some fault =>
          simp only [hfault] at hexec
          cases hexec
          cases hr.1
        | none =>
          simp only [hfault, hd.1] at hexec
          cases hexec
          exact hr
      · intro hr
        refine ⟨calm 0, true, _, ?_, hr⟩
        rw [← hd.1]
        rfl
    · rw [if_neg hd, if_neg hd]

theorem after_writing {left : Content} : after s t (.writing left) =
    Function.update (erased s t stateDirs) t.state ((erased s t stateDirs t.state).put (fileName t.id, left)) := by
  funext dir
  by_cases hdir : dir = t.state
  · subst hdir
    simp [after, erased]
  · simp [after, hdir]

/-- **The points of `_fs_save`.** -/
theorem reaches_fsSave : disk.Reaches n (fsSave t) s s' ↔ ∃ p, s' = after s t p := by
  have hall : after s t (.removing 5) = erased s t stateDirs := rfl
  rw [fsSave, Store.reaches_bind, reaches_removeOld]
  constructor
  · rintro (⟨k, rfl⟩ | ⟨⟨⟩, s₁, hold, hwrite⟩)
    · exact ⟨.removing k, rfl⟩
    · obtain rfl := runs_removeOld_ok.mp hold
      rcases hwrite with rfl | ⟨i, x, s₂, hx, rfl⟩
      · exact ⟨.removing 5, hall.symm⟩
      · have hexec : execFailing n i (erased s t stateDirs) (.write t.state (fileName t.id) t.toDict) = some (x, s') := hx
        unfold execFailing at hexec
        cases hfault : i.fault with
        | none =>
          simp only [hfault] at hexec
          cases hexec
          exact ⟨.writing (some t.toDict), after_writing.symm⟩
        | some fault =>
          cases fault with
          | refused =>
            simp only [hfault] at hexec
            cases hexec
            exact ⟨.removing 5, hall.symm⟩
          | partly left =>
            simp only [hfault] at hexec
            cases hexec
            exact ⟨.writing left, after_writing.symm⟩
  · rintro ⟨p, rfl⟩
    cases p with
    | removing k => exact Or.inl ⟨k, rfl⟩
    | writing left =>
      refine Or.inr ⟨(), _, runs_removeOld_ok.mpr rfl, Or.inr ⟨⟨⟨0, ""⟩, some (.partly left)⟩, (), _, ?_, rfl⟩⟩
      rw [after_writing]
      rfl

/-! ### The files at a point -/

/-- The files of the task while files are removed. -/
theorem copies_removing {k : Nat} : copies (after s t (.removing k)) t.id =
    (copies s t.id).filter fun e => e.1 ∉ stateDirs.take k ∨ e.1 = t.state := by
  unfold copies
  rw [List.filter_filterMap]
  congr 1
  funext dir
  rw [after, erased]
  by_cases hdir : dir ∈ stateDirs.take k ∧ dir ≠ t.state
  · rw [if_pos hdir, Table.find?_erase]
    cases hf : (s dir).find? (fileName t.id) with
    | none => simp
    | some f => simp [Option.filter, hdir]
  · rw [if_neg hdir]
    cases hf : (s dir).find? (fileName t.id) with
    | none => rfl
    | some f =>
      have hleft : dir ∉ stateDirs.take k ∨ dir = t.state := by tauto
      simp [Option.filter, hleft]

/-- Once the new file has been opened it is the only one. -/
theorem copies_writing {left : Content} (hst : t.state ∈ stateDirs) :
    copies (after s t (.writing left)) t.id = [(t.state, left)] := by
  have hfile : ∀ dir ∈ stateDirs, (((after s t (.writing left)) dir).find? (fileName t.id)).map (fun f => (dir, f.2)) =
      if dir = t.state then some (dir, left) else none := by
    intro dir hdir
    by_cases hd : dir = t.state
    · simp [after, hd, Table.find?_put]
    · simp [after, erased, hd, hdir, Table.find?_erase]
  rw [copies, List.filterMap_congr hfile]
  generalize t.state = st at hst
  simp only [stateDirs, List.mem_cons, List.not_mem_nil, or_false] at hst
  rcases hst with rfl | rfl | rfl | rfl | rfl <;> rfl

/-! ## The calls of the queue -/

/-- The tree is as it was, or on the way of saving what a method has made of a task it got. -/
def Saved (F : FloatFmt) (n : Nat) (s s' : Tree) : Prop :=
  s' = s ∨ ∃ id t t', disk.Runs n (fsGet F id) s (.ok (some t)) s ∧ Moved t t' ∧ disk.Reaches n (fsSave t') s s'

/-- What follows a program that only reads. -/
theorem saved_of_reads {β : Type} {p : P α} {f : α → P β} (hp : p.Each Cmd.IsRead)
    (hf : ∀ a, disk.Runs n p s (.ok a) s → disk.Reaches n (f a) s s' → Saved F n s s')
    (hr : disk.Reaches n (p >>= f) s s') : Saved F n s s' := by
  rcases (disk.reaches_bind n).mp hr with hr | ⟨a, s₁, hrun, hnext⟩
  · exact Or.inl ((safe_of_reads hp).reaches hr)
  · obtain rfl := state_of_reads hp hrun
    exact hf a hrun hnext

/-- The end of a method. -/
theorem saved_of_save (hget : disk.Runs n (fsGet F id) s (.ok (some t)) s) (hm : Moved t t')
    (hr : disk.Reaches n (fsSave t' >>= fun _ => (.ret (some t') : P (Option Task))) s s') : Saved F n s s' := by
  refine Or.inr ⟨id, t, t', hget, hm, ?_⟩
  rcases (disk.reaches_bind n).mp hr with hr | ⟨_, s₁, hrun, rfl⟩
  · exact hr
  · exact disk.reaches_of_runs n hrun

theorem each_now : (backend F).now.Each Cmd.IsRead := ⟨trivial, fun _ => trivial⟩

theorem saved_of_claimSpecific {claimer : String}
    (hr : disk.Reaches n ((files F).claimSpecific id claimer) s s') : Saved F n s s' := by
  refine saved_of_reads each_fsGet (fun a hget hr => ?_) hr
  cases a with
  | none => exact Or.inl hr
  | some t =>
    dsimp only at hr
    split at hr
    · exact Or.inl hr
    · rename_i hst
      exact saved_of_reads (each_now (F := F)) (fun now _ hr =>
        saved_of_save hget (.claim claimer now (not_not.mp hst)) hr) hr

/-- A claim that returns nothing has changed nothing. -/
theorem state_of_claimSpecific {claimer : String}
    (hr : disk.Runs n ((files F).claimSpecific id claimer) s (.ok none) s') : s' = s := by
  rcases (Store.runs_bind disk n).mp hr with ⟨a, s₁, hget, hr⟩ | ⟨err, -, herr⟩
  · obtain rfl := state_of_reads each_fsGet hget
    cases a with
    | none => exact hr.2
    | some t =>
      dsimp only at hr
      split at hr
      · exact hr.2
      · rcases (Store.runs_bind disk n).mp hr with ⟨now, s₂, -, hr⟩ | ⟨err, -, herr⟩
        · rcases (Store.runs_bind disk n).mp hr with ⟨_, s₃, -, hret, -⟩ | ⟨err, -, herr⟩
          · cases hret
          · cases herr
        · cases herr
  · cases herr

theorem saved_of_claimFirst {caps : List String} {claimer : String} : ∀ {tasks : List Task},
    disk.Reaches n ((backend F).claimFirst caps claimer tasks) s s' → Saved F n s s'
  | [], hr => Or.inl hr
  | task :: tasks, hr => by
    rw [Backend.claimFirst] at hr
    split at hr
    · rcases (disk.reaches_bind n).mp hr with hr | ⟨a, s₁, hrun, hnext⟩
      · exact saved_of_claimSpecific hr
      · cases a with
        | some claimed =>
          obtain rfl : s' = s₁ := hnext
          exact saved_of_claimSpecific (disk.reaches_of_runs n hrun)
        | none =>
          rw [state_of_claimSpecific hrun] at hnext
          exact saved_of_claimFirst hnext
    · exact saved_of_claimFirst hr

theorem each_list {dir : TaskState} {limit : Nat} : (fsList F dir limit).Each Cmd.IsRead := each_fsList fun _ h => h

/-- **A call of the queue** goes through no tree but those of the saves of what it makes of a task. -/
theorem saved_of_op {o : Op} (hr : disk.Reaches n (o.prog (backend F)) s s') : Saved F n s s' := by
  cases o with
  | claim claimer task_id =>
    rw [Op.prog, Backend.claim] at hr
    split at hr
    · exact saved_of_claimSpecific hr
    · refine saved_of_reads each_list (fun pending _ hr => ?_) hr
      split at hr
      · exact Or.inl hr
      · exact saved_of_claimSpecific hr
  | claimMatching capabilities claimer => exact saved_of_reads each_list (fun _ _ hr => saved_of_claimFirst hr) hr
  | start task_id =>
    refine saved_of_reads each_fsGet (fun a hget hr => ?_) hr
    cases a with
    | none => exact Or.inl hr
    | some t =>
      dsimp only at hr
      split at hr
      · exact Or.inl hr
      · rename_i hst
        exact saved_of_save hget (.start (not_not.mp hst)) hr
  | complete task_id result =>
    refine saved_of_reads each_fsGet (fun a hget hr => ?_) hr
    cases a with
    | none => exact Or.inl hr
    | some t =>
      dsimp only at hr
      split at hr
      · exact Or.inl hr
      · rename_i hst
        exact saved_of_reads (each_now (F := F)) (fun now _ hr =>
          saved_of_save hget (.complete now result (by simpa [or_iff_not_imp_left] using hst)) hr) hr
  | fail task_id error =>
    refine saved_of_reads each_fsGet (fun a hget hr => ?_) hr
    cases a with
    | none => exact Or.inl hr
    | some t =>
      dsimp only at hr
      split at hr
      · exact Or.inl hr
      · rename_i hst
        exact saved_of_reads (each_now (F := F)) (fun now _ hr =>
          saved_of_save hget (.fail now error (by simpa [or_iff_not_imp_left] using hst)) hr) hr
  | requeue task_id =>
    refine saved_of_reads each_fsGet (fun a hget hr => ?_) hr
    cases a with
    | none => exact Or.inl hr
    | some t =>
      dsimp only at hr
      split at hr
      · exact Or.inl hr
      · rename_i hst
        exact saved_of_save hget (.requeue hst) hr

/-- What follows the reading of a task in the tree. -/
theorem InTree.reaches {f : Option Task → P α} (h : InTree F n s t) (hr : disk.Reaches n (f (some t)) s s') :
    disk.Reaches n (fsGet F t.id >>= f) s s' :=
  (disk.reaches_bind n).mpr (Or.inr ⟨_, s, h.runs, hr⟩)

theorem reaches_save_ret (hr : disk.Reaches n (fsSave t') s s') :
    disk.Reaches n (fsSave t' >>= fun _ => (.ret (some t') : P (Option Task))) s s' :=
  (disk.reaches_bind n).mpr (Or.inl hr)

theorem reaches_now {f : Time → P α} (now : Time) (hr : disk.Reaches n (f now) s s') :
    disk.Reaches n ((backend F).now >>= f) s s' :=
  Or.inr ⟨calm now, now, s, rfl, hr⟩

/-- Each move is made by a call that goes through every point of its save. -/
theorem InTree.exists_op (h : InTree F n s t) (hid : t.id ≠ "") (hm : Moved t t') :
    ∃ o : Op, ∀ s', disk.Reaches n (fsSave t') s s' → disk.Reaches n (o.prog (backend F)) s s' := by
  cases hm with
  | claim claimer now hst =>
    refine ⟨.claim claimer (some t.id), fun s' hr => ?_⟩
    rw [Op.prog, Backend.claim]
    have hfilter : (some t.id).filter (fun x => decide (x ≠ "")) = some t.id := by simp [Option.filter, hid]
    rw [hfilter]
    refine h.reaches ?_
    dsimp only
    rw [if_neg (not_not.mpr hst)]
    exact reaches_now (F := F) now (reaches_save_ret hr)
  | start hst =>
    refine ⟨.start t.id, fun s' hr => h.reaches ?_⟩
    dsimp only
    rw [if_neg (not_not.mpr hst)]
    exact reaches_save_ret hr
  | complete now result hst =>
    refine ⟨.complete t.id result, fun s' hr => h.reaches ?_⟩
    dsimp only
    rw [if_neg (by tauto)]
    exact reaches_now (F := F) now (reaches_save_ret hr)
  | fail now error hst =>
    refine ⟨.fail t.id error, fun s' hr => h.reaches ?_⟩
    dsimp only
    rw [if_neg (by tauto)]
    exact reaches_now (F := F) now (reaches_save_ret hr)
  | requeue hst =>
    refine ⟨.requeue t.id, fun s' hr => h.reaches ?_⟩
    dsimp only
    rw [if_neg hst]
    exact reaches_save_ret hr

/-! ## Where a task is kept -/

/-- A task in the tree is kept at a point iff it survives there. -/
theorem InTree.kept_iff_survives (h : InTree F n s t) (hm : Moved t t') {p : Point} :
    Kept F n (after s t' p) t.id t.state t'.state ↔ Survives F s t t' p := by
  have hid : t'.id = t.id := hm.sameWork.id
  have hst : t'.state ∈ stateDirs := mem_stateDirs hm.state_mem
  rw [kept_iff_copies]
  cases p with
  | writing left =>
    rw [← hid, copies_writing hst, hid]
    constructor
    · rintro ⟨e, he, hreads, -⟩
      obtain rfl := Option.some.inj he
      exact hreads
    · exact fun hreads => ⟨_, rfl, hreads, Or.inr rfl⟩
  | removing k =>
    rw [← hid, copies_removing, hid]
    constructor
    · rintro ⟨e, he, hreads, hstate⟩
      have hleft := (List.mem_filter.mp (List.mem_of_mem_head? he)).2
      rcases hstate with hstate | hstate
      · rw [decide_eq_true_eq, hstate] at hleft
        rcases hleft with hleft | hleft
        · exact Or.inr (Or.inl hleft)
        · exact Or.inl hleft
      · exact Or.inr (Or.inr ⟨e, he, hstate, hreads⟩)
    · intro hsurvives
      obtain ⟨e, hhead, hreads, hstate⟩ := h.head
      obtain ⟨rest, hcopies⟩ := List.head?_eq_some_iff.mp hhead
      have hfirst : t.state ∉ stateDirs.take k ∨ t.state = t'.state →
          ((copies s t.id).filter fun e => e.1 ∉ stateDirs.take k ∨ e.1 = t'.state).head? = some e := fun hleft => by
        rw [← hstate] at hleft
        rw [hcopies, List.filter_cons_of_pos (by simpa using hleft)]
        rfl
      rcases hsurvives with hsame | hfar | ⟨e', he', hstate', hreads'⟩
      · exact ⟨e, hfirst (Or.inr hsame), hreads, Or.inl hstate⟩
      · exact ⟨e, hfirst (Or.inl hfar), hreads, Or.inl hstate⟩
      · exact ⟨e', he', hreads', Or.inr hstate'⟩

/-- **Saves that fail.** The trees that a call goes through are those at the points of a save; and at which of these
the task is still found. -/
theorem kept_iff (F : FloatFmt) (n : Nat) (s : Tree) :
    (∀ (o : Op) s', disk.Reaches n (o.prog (backend F)) s s' → s' = s ∨
      ∃ id t t' p, disk.Runs n (fsGet F id) s (.ok (some t)) s ∧ Moved t t' ∧ s' = after s t' p) ∧
    ∀ t t', InTree F n s t → Moved t t' →
      (t.id ≠ "" → ∃ o : Op, ∀ p, disk.Reaches n (o.prog (backend F)) s (after s t' p)) ∧
      ∀ p, Kept F n (after s t' p) t.id t.state t'.state ↔ Survives F s t t' p := by
  refine ⟨fun o s' hr => ?_, fun t t' ht hm => ⟨fun hid => ?_, fun p => ht.kept_iff_survives hm⟩⟩
  · rcases saved_of_op hr with rfl | ⟨id, t, t', hget, hm, hsave⟩
    · exact Or.inl rfl
    · obtain ⟨p, rfl⟩ := reaches_fsSave.mp hsave
      exact Or.inr ⟨id, t, t', p, hget, hm, rfl⟩
  · obtain ⟨o, ho⟩ := ht.exists_op hid hm
    exact ⟨o, fun p => ho _ (reaches_fsSave.mpr ⟨p, rfl⟩)⟩

/-- A task that waits, and the tree with its file. -/
def waiting : Task := { id := "task-1", title := "write the tests" }

def oneWaiting : Tree := fun dir =>
  if dir = .pending then Table.empty.put (fileName "task-1", some waiting.toDict) else .empty

theorem inTree_waiting : InTree F n oneWaiting waiting := inTree_of_copies (by decide +kernel) (by decide)

/-- A save that does not fail. -/
theorem kept_iff_waiting : Kept Python.wholeSeconds 0
    (after oneWaiting (waiting.claim "agent" 5) (.writing (some (waiting.claim "agent" 5).toDict)))
    "task-1" .pending .claimed :=
  (((kept_iff Python.wholeSeconds 0 oneWaiting).2 waiting (waiting.claim "agent" 5) inTree_waiting
    (.claim "agent" 5 rfl)).2 _).mpr
      ⟨_, rfl, fun _ => ⟨waiting.claim "agent" 5, asTask_toDict (by decide), rfl⟩⟩

/-- **A claim whose write fails** has removed the only file of the task. -/
theorem claim_loses : ¬ ∀ (F : FloatFmt) (n : Nat) (s s' : Tree) (o : Op),
    disk.Reaches n (o.prog (backend F)) s s' → ∀ t, InTree F n s t → ∃ st, Kept F n s' t.id t.state st := by
  intro h
  obtain ⟨o, ho⟩ := (inTree_waiting (F := Python.wholeSeconds) (n := 0)).exists_op (by decide) (.claim "agent" 5 rfl)
  obtain ⟨st, hkept⟩ := h Python.wholeSeconds 0 oneWaiting _ o (ho _ (reaches_fsSave.mpr ⟨.removing 1, rfl⟩)) waiting
    inTree_waiting
  obtain ⟨e, he, -⟩ := kept_iff_copies.mp hkept
  have hgone : copies (after oneWaiting (waiting.claim "agent" 5) (.removing 1)) waiting.id = [] := by decide +kernel
  rw [hgone] at he
  cases he

end ClaudeSwarm.TaskQueue.Filesystem
