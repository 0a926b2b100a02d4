import ClaudeSwarm.TaskQueue.FilesystemBoard

/-!
# The order of claims on the filesystem

`_fs_claim` sorts what `_fs_list` shows by priority and takes the first. The listing is cut at fifty
file names, of whatever files, before anything is read; and among equals the order is that of the file
names, which are random identifiers.

* `head_byPriority`: sorting by priority is stable.
* **`claim_next_iff`**: a claim takes the next task exactly when that is among the first fifty names
  and before those of its priority; `claim_misses_task` is a directory in which it finds nothing.
-/

namespace ClaudeSwarm.TaskQueue.Filesystem

open Data
open Python (FloatFmt)

variable {F : FloatFmt} {s : Dirs} {l : Board}

/-- `a` is no later than `b`, by priority and then by creation. -/
def NoLater (a b : Task) : Prop :=
  a.priority < b.priority ∨ a.priority = b.priority ∧ a.createdAt ≤ b.createdAt

/-- `t` is pending, and no later than any pending task. -/
abbrev NextTask (l : Board) : Task → Prop := First NoLater (fun t => t.state = .pending) l.rows

/-- `claim` without an id returns the next task, or `None` when no task is pending. -/
def ClaimsNext (F : FloatFmt) (s : Dirs) (l : Board) (claimer : String) : Prop :=
  ∀ n x s', store.Runs n ((backend F).claim claimer none) s x s' →
    (∃ m t, NextTask l m ∧ x = .ok (some t) ∧ t.id = m.id) ∨
      x = .ok none ∧ ∀ t ∈ l.rows, t.state ≠ .pending

/-- No task is pending; or a next one has its file among the first fifty names of `pending/`, before
the files of its priority there. -/
def NextIsListed (s : Dirs) (l : Board) : Prop :=
  (∀ t ∈ l.rows, t.state ≠ .pending) ∨
    ∃ m, NextTask l m ∧ fileName m.id ∈ listed s .pending 50 ∧
      ∀ t ∈ l.rows, t.state = .pending → t.priority = m.priority →
        fileName t.id ∈ listed s .pending 50 → fileName m.id ≤ fileName t.id

instance : Std.Total fun a b : Task => a.priority ≤ b.priority :=
  ⟨fun a b => le_total a.priority b.priority⟩

instance : IsTrans Task fun a b => a.priority ≤ b.priority := ⟨fun _ _ _ h h' => le_trans h h'⟩

/-- The first by priority of a sorted list is the first of its priority. -/
theorem head_byPriority {tasks rest : List Task} {t : Task} {before : Task → Task → Prop}
    (hs : tasks.Pairwise before) (hrefl : before t t)
    (h : Backend.byPriority tasks = t :: rest) :
    t ∈ tasks ∧ ∀ t' ∈ tasks, t.priority ≤ t'.priority ∧
      (t'.priority ≤ t.priority → before t t') := by
  have hsorted := pairwise_insertionSort_stable (r := fun a b : Task => a.priority ≤ b.priority) hs
  rw [← Backend.byPriority, h] at hsorted
  refine ⟨mem_byPriority.mp (h ▸ List.mem_cons_self), fun t' ht' => ?_⟩
  rcases List.mem_cons.mp (h ▸ mem_byPriority.mpr ht') with rfl | ht'
  · exact ⟨le_refl _, fun _ => hrefl⟩
  · exact (List.pairwise_cons.mp hsorted).1 t' ht'

/-- The tasks shown come in the order of their file names. -/
theorem pairwise_shown (dir : TaskState) (k : Nat) :
    (shown s l dir k).Pairwise fun a b => fileName a.id ≤ fileName b.id :=
  List.pairwise_map.mp ((pairwise_listed s dir k).sublist (fileNames_shown dir k))

/-- Tasks of the board with one identifier are one task. -/
theorem eq_of_id {t t' : Task} (ht : t ∈ l.rows) (ht' : t' ∈ l.rows) (h : t.id = t'.id) : t = t' :=
  Option.some.inj (by rw [← Table.find?_of_mem ht, ← Table.find?_of_mem ht', h])

/-- **Claim order.** On a tree that holds board `l`, a claim takes the next task if and only if that
is listed. -/
theorem claim_next_iff (h : Holds s l) (claimer : String) :
    ClaimsNext F s l claimer ↔ NextIsListed s l := by
  have hhead : ∀ {t rest}, Backend.byPriority (shown s l .pending 50) = t :: rest →
      t ∈ shown s l .pending 50 ∧ ∀ t' ∈ shown s l .pending 50, t.priority ≤ t'.priority ∧
        (t'.priority ≤ t.priority → fileName t.id ≤ fileName t'.id) :=
    fun hts => head_byPriority (pairwise_shown .pending 50) (String.le_refl _) hts
  have hshown : ∀ t ∈ l.rows, t.state = .pending → fileName t.id ∈ listed s .pending 50 →
      t ∈ shown s l .pending 50 :=
    fun t ht hp hname => mem_shown.mpr ⟨Table.find?_of_mem ht, hp, hname⟩
  constructor
  · intro hclaim
    obtain ⟨x, s', hr⟩ := exists_runs 0 ((backend F).claim claimer none) s
    have hx := hclaim 0 x s' hr
    rcases runs_fsClaim h hr with ⟨-, rfl, -⟩ | ⟨t, rest, now, hts, rfl, -⟩
    · rcases hx with ⟨m, t, -, hx, -⟩ | ⟨-, hnone⟩
      · cases hx
      · exact Or.inl hnone
    · obtain ⟨ht, hfirst⟩ := hhead hts
      obtain ⟨hfind, hp, hname⟩ := mem_shown.mp ht
      rcases hx with ⟨m, t', hm, hx, hid⟩ | ⟨hx, -⟩
      · cases hx
        obtain rfl : t = m := eq_of_id (Table.find?_mem hfind) hm.mem hid
        refine Or.inr ⟨t, hm, hname, fun t' ht' hp' hprio hname' => ?_⟩
        exact (hfirst t' (hshown t' ht' hp' hname')).2 hprio.le
      · cases hx
  · intro hcond n x s' hr
    rcases runs_fsClaim h hr with ⟨hnil, rfl, -⟩ | ⟨t, rest, now, hts, rfl, -⟩
    · refine Or.inr ⟨rfl, ?_⟩
      rcases hcond with hnone | ⟨m, hm, hname, -⟩
      · exact hnone
      · have hmem := (List.mem_insertionSort fun a b : Task => a.priority ≤ b.priority).mpr
          (hshown m hm.mem hm.holds hname)
        rw [show (shown s l .pending 50).insertionSort _ = [] from hnil] at hmem
        exact absurd hmem List.not_mem_nil
    · obtain ⟨ht, hfirst⟩ := hhead hts
      obtain ⟨hfind, hp, hname⟩ := mem_shown.mp ht
      rcases hcond with hnone | ⟨m, hm, hmname, hmfirst⟩
      · exact absurd hp (hnone t (Table.find?_mem hfind))
      · -- both come first by priority, and each has its file before the other's
        obtain ⟨hle, hnames⟩ := hfirst m (hshown m hm.mem hm.holds hmname)
        have hprio : t.priority = m.priority := by
          rcases hm.le t (Table.find?_mem hfind) hp with hlt | ⟨heq, -⟩
          · exact absurd hlt (not_lt.mpr hle)
          · exact heq.symm
        have hle' := hmfirst t (Table.find?_mem hfind) hp hprio hname
        have hid := fileName_injective (String.le_antisymm (hnames hprio.ge) hle')
        exact Or.inl ⟨m, _, hm, rfl, hid⟩

/-! ## Other files in the directory -/

/-- A pending task. -/
def oneTask : Task := { id := "task-1", title := "t" }

/-- The board with that task only. -/
def oneTaskBoard : Board := ⟨[oneTask], by decide⟩

/-- `pending/` with `k` files that an NFS client leaves behind, and the task's file. -/
def leftovers (k : Nat) : List (String × List (String × Val)) :=
  (List.range k).map (fun i => (".nfs" ++ toString i, [])) ++ [(fileName "task-1", oneTask.toDict)]

/-- A tree with the one task, and `k` leftovers beside it. -/
def crowded (k : Nat) (h : ((leftovers k).map Prod.fst).Nodup) : Dirs :=
  Function.update (fun _ => .empty) .pending ⟨leftovers k, h⟩

theorem nfs_ne_fileName (i : Nat) (id : String) : ".nfs" ++ toString i ≠ fileName id := by
  intro he
  -- the last character is a digit, or the `s` of the prefix is the last one
  have hl := congrArg (fun s => s.toList.getLast?) he
  have hdigits : (toString i).toList = Nat.toDigits 10 i := Nat.toList_repr
  simp only [fileName, String.toList_append, hdigits] at hl
  have hne : Nat.toDigits 10 i ≠ [] := by
    intro h
    have := Nat.repr_ne_empty (n := i)
    rw [Nat.repr_eq_ofList_toDigits, h] at this
    exact this rfl
  rw [List.getLast?_append_of_ne_nil _ hne, List.getLast?_append_of_ne_nil _ (by decide),
    List.getLast?_eq_getLast_of_ne_nil hne] at hl
  have hlast : (Nat.toDigits 10 i).getLast hne = 'l' := Option.some.inj hl
  have hdigit := Nat.isDigit_of_mem_toDigits (by decide) (by decide)
    (hlast ▸ List.getLast_mem hne : 'l' ∈ Nat.toDigits 10 i)
  exact absurd hdigit (by decide)

theorem holds_crowded {k : Nat} (h : ((leftovers k).map Prod.fst).Nodup) :
    Holds (crowded k h) oneTaskBoard := by
  refine ⟨fun dir hdir id => ?_, fun t ht => ?_, fun t ht => ?_⟩
  · have hboard : oneTaskBoard.find? id = if id = "task-1" then some oneTask else none := by
      by_cases hid : id = "task-1"
      · subst hid
        rfl
      · have hne : ("task-1" == id) = false := by simpa using Ne.symm hid
        simp [Table.find?, oneTaskBoard, oneTask, hid, hne]
    rw [hboard]
    unfold crowded
    by_cases hd : dir = .pending
    · subst hd
      have hnone : (List.range k).find? (fun i => ".nfs" ++ toString i == fileName id) = none := by
        rw [List.find?_eq_none]
        intro i _
        simpa using nfs_ne_fileName i id
      rw [Function.update_self]
      simp only [Table.find?, leftovers, List.find?_append, List.find?_map, Function.comp_def, hnone,
        Option.map_none, Option.none_or]
      by_cases hid : id = "task-1"
      · subst hid
        rfl
      · have hne : (fileName "task-1" == fileName id) = false := by
          simpa using fun he => hid (fileName_injective he).symm
        simp [hne, hid]
    · rw [Function.update_of_ne hd]
      split
      · exact (if_neg (fun he : TaskState.pending = dir => hd he.symm)).symm
      · rfl
  · rw [List.mem_singleton.mp ht]
    decide
  · rw [List.mem_singleton.mp ht]
    decide

theorem nodup_leftovers : ((leftovers 49).map Prod.fst).Nodup ∧ ((leftovers 50).map Prod.fst).Nodup := by
  decide +kernel

theorem claim_next_iff_crowded :
    ClaimsNext Python.wholeSeconds (crowded 49 nodup_leftovers.1) oneTaskBoard "w" ↔
      NextIsListed (crowded 49 nodup_leftovers.1) oneTaskBoard :=
  claim_next_iff (holds_crowded _) "w"

/-- Behind fifty leftovers a pending task is not found. -/
theorem claim_misses_task : ∃ s l, Holds s l ∧ ¬ ClaimsNext Python.wholeSeconds s l "w" := by
  have h := holds_crowded nodup_leftovers.2
  refine ⟨_, _, h, fun hclaim => ?_⟩
  have hunlisted : fileName "task-1" ∉ listed (crowded 50 nodup_leftovers.2) .pending 50 := by
    decide +kernel
  obtain ⟨x, s', hr⟩ := exists_runs 0 ((backend Python.wholeSeconds).claim "w" none)
    (crowded 50 nodup_leftovers.2)
  have hpending : oneTask ∈ oneTaskBoard.rows := List.mem_cons_self
  rcases runs_fsClaim h hr with ⟨-, rfl, -⟩ | ⟨t, rest, now, hts, rfl, -⟩
  · rcases hclaim 0 _ s' hr with ⟨m, t, -, hx, -⟩ | ⟨-, hnone⟩
    · cases hx
    · exact hnone oneTask hpending rfl
  · have hmem : t ∈ shown (crowded 50 nodup_leftovers.2) oneTaskBoard .pending 50 :=
      mem_byPriority.mp (hts ▸ List.mem_cons_self)
    obtain ⟨hfind, -, hname⟩ := mem_shown.mp hmem
    rw [List.mem_singleton.mp (Table.find?_mem hfind)] at hname
    exact hunlisted hname

end ClaudeSwarm.TaskQueue.Filesystem
