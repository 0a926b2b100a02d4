import ClaudeSwarm.Data.Dict
import ClaudeSwarm.Interleave.Moment
import ClaudeSwarm.SwarmLib.Tasks
import Mathlib.Data.List.Sort

/-!
# The task index

Model of `TaskIndex` (`src/swarm_lib.py`), the listings of the stage directories that the threads of a process share. A
listing is kept under the modification time its directory had before it was scanned. That time is read before the lock is
taken: by the time of the scan the directory may have changed, and a thread that comes with an older time replaces a
newer listing. The steps of `list_tasks` are the reading of the time, the lock, the comparison, the scan and the storing;
beside them files of the directories are created, renamed and removed. Directories exist, and a change gives a directory
a modification time it never had (`exec`).

What the directories were at each moment is read off the history (`dirsAt`).

* `eq_of_mtime`: a directory with the modification time it had at an earlier moment is what it was between.
* `outline_listTasks`: a thread's listing is what a scan gave at a moment of its own call, or at one before it with the
  directory's modification time.
* **`task_index_transparent`**: a listing is that of a fresh scan at some moment of the call.
-/

namespace ClaudeSwarm.TaskIndex

open Interleave Data
open Python (Time PyError)
open SwarmLib (Doc setKeys)

/-! ## The stage directories -/

/-- The files of a directory by name, with the dictionary in each; `none`: reading it as one fails. -/
abbrev Listing := Dict String (Option Doc)

/-- A directory: its files, its modification time and those it had before, newest first. -/
structure Directory where
  files : Listing
  mtime : Time
  earlier : List Time

/-- All the modification times of a directory, newest first. -/
def Directory.times (d : Directory) : List Time := d.mtime :: d.earlier

/-- `task-*.yaml`. -/
def isTaskFile (name : String) : Bool := "task-".toList.isPrefixOf name.toList && ".yaml".toList.isSuffixOf name.toList

/-- `str(stage_dir / name)`. -/
def filePath (root stage name : String) : String := root ++ "/tasks/" ++ stage ++ "/" ++ name

/-- A listing: the task files in the order of their names; what cannot be read is passed over. -/
def scanned (root stage : String) (files : Listing) : List Doc :=
  ((files.keys.filter isTaskFile).insertionSort (· ≤ ·)).filterMap fun name =>
    ((files.get? name).getD none).map fun task =>
      setKeys task [("_stage", .str stage), ("_file", .str (filePath root stage name))]

theorem mem_scanned {root stage : String} {files : Listing} {task : Doc} : task ∈ scanned root stage files ↔
    ∃ name data, isTaskFile name = true ∧ files.get? name = some (some data) ∧
      task = setKeys data [("_stage", .str stage), ("_file", .str (filePath root stage name))] := by
  unfold scanned
  rw [List.mem_filterMap]
  constructor
  · rintro ⟨name, hname, htask⟩
    obtain ⟨data, hdata, rfl⟩ := Option.map_eq_some_iff.mp htask
    rw [List.mem_insertionSort, List.mem_filter] at hname
    obtain ⟨content, hcontent⟩ := Dict.mem_keys_iff.mp hname.1
    rw [hcontent, Option.getD_some] at hdata
    exact ⟨name, data, hname.2, hcontent.trans (congrArg some hdata), rfl⟩
  · rintro ⟨name, data, hname, hdata, rfl⟩
    refine ⟨name, ?_, by rw [hdata]; rfl⟩
    rw [List.mem_insertionSort, List.mem_filter]
    exact ⟨Dict.mem_keys_iff.mpr ⟨_, hdata⟩, hname⟩

/-- A change of the stage directories. -/
inductive Change where
  | create (stage name : String) (data : Option Doc)
  | remove (stage name : String)
  | rename (stage name stage' name' : String)

/-- The files of the directories a change is made to; `none` is an `OSError`. -/
def Change.writes (files : String → Listing) : Change → Option (List (String × Listing))
  | .create stage name data =>
    if name ∈ (files stage).keys then none else some [(stage, (files stage).set name data)]
  | .remove stage name =>
    if name ∈ (files stage).keys then some [(stage, (files stage).erase name)] else none
  | .rename stage name stage' name' =>
    ((files stage).get? name).map fun data =>
      if stage = stage' then [(stage, ((files stage).erase name).set name' data)]
      else [(stage, (files stage).erase name), (stage', (files stage').set name' data)]

/-- The directories with their new files, at modification times `mtime`. -/
def rewritten (dirs : String → Directory) (writes : List (String × Listing)) (mtime : String → Time)
    (stage : String) : Directory :=
  (writes.lookup stage).elim (dirs stage) fun files => ⟨files, mtime stage, (dirs stage).times⟩

/-! ## The index -/

/-- The directories, and the index: its two dictionaries and who has its lock. -/
structure Shared where
  dirs : String → Directory
  cache : Dict String (List Doc)
  mtimes : Dict String Time
  lock : Option Nat

/-- An index after `__init__`, over directories that have not changed yet. -/
def Shared.init (files : String → Listing) (mtime : String → Time) : Shared :=
  ⟨fun stage => ⟨files stage, mtime stage, []⟩, .empty, .empty, none⟩

/-- The steps of the methods, and the changes of the directories. -/
inductive Cmd where
  | stat (stage : String)
  | acquire
  | compare (stage : String) (current_mtime : Time)
  | scan (stage : String)
  | store (stage : String) (tasks : List Doc) (current_mtime : Time)
  | forget (stage : Option String)
  | release
  | change (c : Change)

/-- The answer to a step; that to a change is the modification times, for the history, or `none` for an `OSError`. -/
abbrev Resp : Cmd → Type
  | .stat _ => Time
  | .compare _ _ => Option (List Doc)
  | .scan _ => List Doc
  | .change _ => Option (String → Time)
  | .acquire | .store _ _ _ | .forget _ | .release => Unit

abbrev sig : Sig := ⟨Cmd, Resp⟩

variable (root : String)

/-- One step of call `n`; `mtime` is the time a change gives each directory, which it never had. -/
def exec (n : Nat) (mtime : String → Time) (s : Shared) : (c : Cmd) → Option (Resp c × Shared)
  | .stat stage => some ((s.dirs stage).mtime, s)
  | .acquire => if s.lock.isNone then some ((), { s with lock := some n }) else none
  | .compare stage current_mtime =>
    some (if s.mtimes.get? stage = some current_mtime then some ((s.cache.get? stage).getD []) else none, s)
  | .scan stage => some (scanned root stage (s.dirs stage).files, s)
  | .store stage tasks current_mtime =>
    some ((), { s with cache := s.cache.set stage tasks, mtimes := s.mtimes.set stage current_mtime })
  | .forget (some stage) => some ((), { s with cache := s.cache.erase stage, mtimes := s.mtimes.erase stage })
  | .forget none => some ((), { s with cache := .empty, mtimes := .empty })
  | .release => some ((), { s with lock := none })
  | .change c =>
    match c.writes fun stage => (s.dirs stage).files with
    | none => some (none, s)
    | some writes =>
      if ∀ w ∈ writes, mtime w.1 ∉ (s.dirs w.1).times then
        some (some mtime, { s with dirs := rewritten s.dirs writes mtime })
      else none

abbrev store : Store sig := ⟨Shared, String → Time, exec root⟩

/-- What a thread runs. -/
abbrev P := Prog sig PyError

/-- Issue one step. -/
abbrev cmd (c : Cmd) : P (Resp c) := Prog.cmd (S := sig) c

/-- `with self._lock`. -/
def withLock {α : Type} (body : P α) : P α := do
  cmd .acquire
  body.finally_ (cmd .release)

/-- The scan of a directory, and the storing of its listing. -/
def rescan (stage : String) (current_mtime : Time) : P (List Doc) := do
  let tasks ← cmd (.scan stage)
  cmd (.store stage tasks current_mtime)
  return tasks

/-- `list_tasks` of the index. -/
def listTasks (stage : String) : P (List Doc) := do
  let current_mtime ← cmd (.stat stage)
  withLock do
    match ← cmd (.compare stage current_mtime) with
    | some tasks => return tasks
    | none => rescan stage current_mtime

/-- `invalidate`; an empty name is no name. -/
def invalidate (stage : Option String) : P Unit := withLock (cmd (.forget (stage.filter (· ≠ ""))))

/-- The stages `list_tasks` of the module goes through. -/
def stagesOf (stage : Option String) : List String :=
  match stage.filter (· ≠ "") with
  | some stage => [stage]
  | none => ["pending", "claimed", "completed", "decomposed"]

/-- The loop of `list_tasks` of the module. -/
def listStages (results : List Doc) : List String → P (List Doc)
  | [] => return results
  | stage :: stages => do
    let tasks ← listTasks stage
    listStages (results ++ tasks) stages

/-- `list_tasks` of the module. -/
def listAll (stage : Option String) : P (List Doc) := listStages [] (stagesOf stage)

/-- The methods of the index, `list_tasks` of the module, and the changes. -/
inductive Op where
  | listTasks (stage : String)
  | invalidate (stage : Option String)
  | listAll (stage : Option String)
  | change (c : Change)

abbrev Ret : Op → Type
  | .listTasks _ | .listAll _ => List Doc
  | .invalidate _ => Unit
  | .change _ => Bool

/-- The program of each. -/
abbrev prog : (o : Op) → P (Ret o)
  | .listTasks stage => listTasks stage
  | .invalidate stage => invalidate stage
  | .listAll stage => listAll stage
  | .change c => do
    let done ← cmd (.change c)
    return done.isSome

abbrev system : System := ⟨sig, store root, PyError, Op, Ret, prog⟩

/-! ## The directories of a moment -/

section

variable {root}

/-- What a step does to the directories. -/
def effect : (c : Cmd) → Resp c → (String → Directory) → String → Directory
  | .change c, some mtime, dirs =>
    (c.writes fun stage => (dirs stage).files).elim dirs fun writes => rewritten dirs writes mtime
  | _, _, dirs => dirs

/-- The directories after a history. -/
def dirsAt (dirs₀ : String → Directory) : List (Event (system root)) → String → Directory
  | [] => dirs₀
  | e :: l => effect e.cmd e.resp (dirsAt dirs₀ l)

/-- `d'` is `d`, or came after it. -/
def Leads (d d' : Directory) : Prop := d' = d ∨ d.times <:+ d'.earlier

variable {dirs dirs₀ : String → Directory} {d d' d'' : Directory} {stage : String} {n : Nat}

theorem Leads.trans (h : Leads d d') (h' : Leads d' d'') : Leads d d'' := by
  rcases h with rfl | h
  · exact h'
  · rcases h' with rfl | h'
    · exact .inr h
    · exact .inr (h.trans ((List.suffix_cons _ _).trans h'))

theorem Leads.mtime_mem (h : Leads d d') : d.mtime ∈ d'.times := by
  rcases h with rfl | h
  · exact List.mem_cons_self
  · exact List.mem_cons_of_mem _ (h.subset List.mem_cons_self)

/-- A directory with the modification time it had at an earlier moment is what it was between. -/
theorem eq_of_mtime (h : Leads d d') (h' : Leads d' d'') (hnew : d''.times.Nodup) (hmtime : d.mtime = d''.mtime) :
    d' = d'' := by
  rcases h' with rfl | h'
  · rfl
  · have hmem : d''.mtime ∈ d''.earlier := hmtime ▸ h'.subset h.mtime_mem
    exact absurd hmem (List.nodup_cons.mp hnew).1

theorem mem_of_lookup {writes : List (String × Listing)} {files : Listing} (h : writes.lookup stage = some files) :
    (stage, files) ∈ writes := by
  rw [List.lookup_eq_some_iff] at h
  obtain ⟨l₁, l₂, rfl, -⟩ := h
  simp

/-- A directory after a change: as it was, or changed at the time given to it. -/
theorem rewritten_cases (dirs : String → Directory) (writes : List (String × Listing)) (mtime : String → Time)
    (stage : String) : rewritten dirs writes mtime stage = dirs stage ∨
      ∃ files, (stage, files) ∈ writes ∧ rewritten dirs writes mtime stage = ⟨files, mtime stage, (dirs stage).times⟩ := by
  unfold rewritten
  cases h : writes.lookup stage with
  | none => exact .inl rfl
  | some files => exact .inr ⟨files, mem_of_lookup h, rfl⟩

section

variable {mtime : String → Time} {s s' : Shared} {c : Cmd} {x : Resp c}

/-- A change that is answered. -/
theorem exec_change {change : Change} {x : Option (String → Time)}
    (h : exec root n mtime s (.change change) = some (x, s')) : (x = none ∧ s' = s) ∨
      ∃ writes, (change.writes fun stage => (s.dirs stage).files) = some writes ∧
        (∀ w ∈ writes, mtime w.1 ∉ (s.dirs w.1).times) ∧ x = some mtime ∧
        s' = { s with dirs := rewritten s.dirs writes mtime } := by
  unfold exec at h
  dsimp only at h
  split at h
  · cases h
    exact .inl ⟨rfl, rfl⟩
  · rename_i writes hwrites
    split at h
    · rename_i hnew
      cases h
      exact .inr ⟨writes, hwrites, hnew, rfl, rfl⟩
    · cases h

theorem exec_acquire {x : Unit} (h : exec root n mtime s .acquire = some (x, s')) :
    s' = { s with lock := some n } := by
  unfold exec at h
  dsimp only at h
  split at h <;> cases h
  rfl

/-- Only changes have an effect on the directories. -/
theorem exec_effect (h : exec root n mtime s c = some (x, s')) : s'.dirs = effect c x s.dirs := by
  cases c with
  | change c =>
    rcases exec_change h with ⟨rfl, rfl⟩ | ⟨writes, hwrites, -, rfl, rfl⟩
    · rfl
    · simp [effect, hwrites]
  | acquire =>
    rw [exec_acquire h]
    rfl
  | forget stage => cases stage <;> cases h <;> rfl
  | stat _ | compare _ _ | scan _ | store _ _ _ | release =>
    cases h
    rfl

/-- A step leaves a directory as it was, or changes it with a modification time it never had. -/
theorem exec_leads (h : exec root n mtime s c = some (x, s')) (stage : String) :
    Leads (s.dirs stage) (s'.dirs stage) ∧ ((s.dirs stage).times.Nodup → (s'.dirs stage).times.Nodup) := by
  cases c with
  | change c =>
    rcases exec_change h with ⟨rfl, rfl⟩ | ⟨writes, -, hnew, rfl, rfl⟩
    · exact ⟨.inl rfl, id⟩
    · rcases rewritten_cases s.dirs writes mtime stage with hsame | ⟨files, hmem, hnow⟩
      · dsimp only
        rw [hsame]
        exact ⟨.inl rfl, id⟩
      · dsimp only
        rw [hnow]
        exact ⟨.inr List.suffix_rfl, fun hnodup => List.nodup_cons.mpr ⟨hnew _ hmem, hnodup⟩⟩
  | stat _ | acquire | compare _ _ | scan _ | store _ _ _ | forget _ | release =>
    rw [exec_effect h]
    exact ⟨.inl rfl, id⟩

/-- A listing that is kept was kept before, or is being stored. -/
theorem exec_cached (h : exec root n mtime s c = some (x, s')) {m : Time} (hm : s'.mtimes.get? stage = some m) :
    (s.mtimes.get? stage = some m ∧ s'.cache.get? stage = s.cache.get? stage) ∨
      c = .store stage ((s'.cache.get? stage).getD []) m := by
  cases c with
  | change c =>
    rcases exec_change h with ⟨rfl, rfl⟩ | ⟨writes, -, -, rfl, rfl⟩
    · exact .inl ⟨hm, rfl⟩
    · exact .inl ⟨hm, rfl⟩
  | acquire =>
    rw [exec_acquire h] at hm ⊢
    exact .inl ⟨hm, rfl⟩
  | forget stage' =>
    cases stage' with
    | none =>
      cases h
      cases hm
    | some stage' =>
      cases h
      dsimp only at hm ⊢
      rw [Dict.get?_erase] at hm ⊢
      split at hm
      · cases hm
      · rename_i hne
        rw [if_neg hne]
        exact .inl ⟨hm, rfl⟩
  | store stage' tasks m' =>
    cases h
    dsimp only at hm ⊢
    rw [Dict.get?_set] at hm ⊢
    split at hm
    · rename_i heq
      subst heq
      cases hm
      exact .inr (by rw [if_pos rfl]; rfl)
    · rename_i hne
      rw [if_neg hne]
      exact .inl ⟨hm, rfl⟩
  | stat _ | compare _ _ | scan _ | release =>
    cases h
    exact .inl ⟨hm, rfl⟩

end

end

/-! ## The history of the index -/

variable (dirs₀ : String → Directory)

/-- The listing was that of the directory at some moment, not before one at which it had modification time `m`. -/
def Listed (stage : String) (m : Time) (tasks : List Doc) (w : World (system root)) : Prop :=
  ∃ l₀ l₁, l₀ <:+ l₁ ∧ l₁ <:+ w.trace ∧ (dirsAt dirs₀ l₀ stage).mtime = m ∧
    tasks = scanned root stage (dirsAt dirs₀ l₁ stage).files

/-- The directories are those of the history, one after the other, and what is kept was listed. -/
structure Consistent (w : World (system root)) : Prop where
  dirs : w.state.dirs = dirsAt dirs₀ w.trace
  new : ∀ l, l <:+ w.trace → ∀ stage, (dirsAt dirs₀ l stage).times.Nodup
  leads : ∀ l l', l <:+ l' → l' <:+ w.trace → ∀ stage, Leads (dirsAt dirs₀ l stage) (dirsAt dirs₀ l' stage)
  cached : ∀ stage m, w.state.mtimes.get? stage = some m →
    Listed root dirs₀ stage m ((w.state.cache.get? stage).getD []) w

variable {root dirs₀} {n : Nat} {o : Op} {stage : String}

theorem consistent_init (files : String → Listing) (mtime : String → Time) :
    Consistent root (Shared.init files mtime).dirs ⟨.init files mtime, []⟩ where
  dirs := rfl
  new l hl stage := by
    rw [List.suffix_nil.mp hl]
    exact List.nodup_singleton _
  leads l l' h hl' stage := by
    obtain rfl := List.suffix_nil.mp hl'
    rw [List.suffix_nil.mp h]
    exact .inl rfl
  cached stage m h := by cases h

theorem lasting_listed {m : Time} {tasks : List Doc} : Lasting (Listed root dirs₀ stage m tasks) := by
  rintro w e w' hf ⟨l₀, l₁, h, hpast, hm, htasks⟩
  exact ⟨l₀, l₁, h, lasting_suffix w e w' hf hpast, hm, htasks⟩

/-- Every step keeps the index consistent, if what it stores was listed. -/
theorem Consistent.step {w w' : World (system root)} {e : Event (system root)} (h : Consistent root dirs₀ w)
    (hf : Fires w e w')
    (hstore : ∀ stage tasks m, e.cmd = .store stage tasks m → Listed root dirs₀ stage m tasks w) :
    Consistent root dirs₀ w' := by
  obtain ⟨⟨mtime, hx⟩, htrace⟩ := hf
  have hdirs : w'.state.dirs = dirsAt dirs₀ w'.trace := by
    rw [htrace, exec_effect hx, h.dirs]
    rfl
  have hstep : ∀ stage, Leads (dirsAt dirs₀ w.trace stage) (dirsAt dirs₀ w'.trace stage) ∧
      (dirsAt dirs₀ w'.trace stage).times.Nodup := by
    intro stage
    obtain ⟨hleads, hnew⟩ := exec_leads hx stage
    rw [← hdirs, ← h.dirs]
    refine ⟨hleads, hnew ?_⟩
    rw [h.dirs]
    exact h.new _ List.suffix_rfl stage
  refine ⟨hdirs, fun l hl stage => ?_, fun l l' hll' hl' stage => ?_, fun stage m hm => ?_⟩
  · rw [htrace, List.suffix_cons_iff, ← htrace] at hl
    rcases hl with rfl | hl
    · exact (hstep stage).2
    · exact h.new l hl stage
  · rw [htrace, List.suffix_cons_iff, ← htrace] at hl'
    rcases hl' with rfl | hl'
    · rw [htrace, List.suffix_cons_iff, ← htrace] at hll'
      rcases hll' with rfl | hl
      · exact .inl rfl
      · exact (h.leads l w.trace hl List.suffix_rfl stage).trans (hstep stage).1
    · exact h.leads l l' hll' hl' stage
  · rcases exec_cached hx hm with ⟨hbefore, hcache⟩ | hcmd
    · rw [hcache]
      exact lasting_listed w e w' ⟨⟨mtime, hx⟩, htrace⟩ (h.cached stage m hbefore)
    · exact lasting_listed w e w' ⟨⟨mtime, hx⟩, htrace⟩ (hstore _ _ _ hcmd)

/-- The runs of the index: any thread, any change, any order. -/
def threads (root : String) (dirs₀ : String → Directory) : Discipline (system root) :=
  keeping Free (Consistent root dirs₀)

/-- A step that stores nothing. -/
theorem establishes {P : World (system root) → Prop} {c : Cmd} {P' : Resp c → World (system root) → Prop}
    (hc : ∀ stage tasks m, c ≠ .store stage tasks m)
    (h : ∀ w x w', Consistent root dirs₀ w → Consistent root dirs₀ w' → P w → Fires w ⟨n, o, c, x⟩ w' → P' x w') :
    Establishes (threads root dirs₀) n o P c P' := by
  intro w x w' hinv hP _ hf
  have hinv' : Consistent root dirs₀ w' := hinv.step hf fun stage tasks m hcmd => absurd hcmd (hc stage tasks m)
  exact ⟨trivial, hinv', h w x w' hinv hinv' hP hf⟩

/-- Since the call began the directory had modification time `m`. -/
def Dated (dirs₀ : String → Directory) (n : Nat) (stage : String) (m : Time) (w : World (system root)) : Prop :=
  ∃ l, Since n l w ∧ (dirsAt dirs₀ l stage).mtime = m

/-- Since the call began a scan would have given `tasks`. -/
def Current (dirs₀ : String → Directory) (n : Nat) (stage : String) (tasks : List Doc) (w : World (system root)) :
    Prop :=
  ∃ l, Since n l w ∧ tasks = scanned root stage (dirsAt dirs₀ l stage).files

/-- At a moment of the call a scan would have given `tasks`. -/
def Answered (dirs₀ : String → Directory) (n : Nat) (stage : String) (tasks : List Doc) (w : World (system root)) :
    Prop :=
  ∃ l, During n l w ∧ tasks = scanned root stage (dirsAt dirs₀ l stage).files

theorem lasting_dated {m : Time} : Lasting fun w : World (system root) => Dated dirs₀ n stage m w :=
  fun w e w' hf ⟨l, hl, hm⟩ => ⟨l, lasting_since w e w' hf hl, hm⟩

theorem lasting_current {tasks : List Doc} : Lasting fun w : World (system root) => Current dirs₀ n stage tasks w :=
  fun w e w' hf ⟨l, hl, ht⟩ => ⟨l, lasting_since w e w' hf hl, ht⟩

theorem lasting_answered {tasks : List Doc} : Lasting fun w : World (system root) => Answered dirs₀ n stage tasks w :=
  fun w e w' hf ⟨l, hl, ht⟩ => ⟨l, lasting_during w e w' hf hl, ht⟩

/-! ## Programs -/

theorem outline_withLock {α : Type} {body : P α} {P : World (system root) → Prop} {R R' : α → World (system root) → Prop}
    (hP : Lasting P) (hR' : ∀ a, Lasting (R' a))
    (hR : ∀ a w w', R a w → Fires w ⟨n, o, .release, ()⟩ w' → R' a w')
    (hbody : Outline (threads root dirs₀) n o (Outcome R fun _ _ => False) body P) :
    Outline (threads root dirs₀) n o (Outcome R' fun _ _ => False) (withLock body) P := by
  refine outline_cmd (fun _ => P) (fun _ => hP.stable) ?_ fun _ => ?_
  · exact establishes (by simp) fun w x w' _ _ h hf => hP _ _ _ hf h
  · refine outline_finally (fun r => ?_) hbody
    cases r with
    | ok a =>
      refine outline_op (fun _ => R' a) (fun _ => (hR' a).stable) ?_ fun _ => outline_ret fun w _ h => h
      exact establishes (by simp) fun w x w' _ _ h hf => hR a w w' h hf
    | error e => exact outline_false

/-- What is kept under a modification time the directory had since the call began was, or is, its listing then. -/
theorem current_of_cached {m : Time} {tasks : List Doc} {w : World (system root)} (h : Consistent root dirs₀ w)
    (hlisted : Listed root dirs₀ stage m tasks w) (hdated : Dated dirs₀ n stage m w) :
    Current dirs₀ n stage tasks w := by
  obtain ⟨l₀, l₁, hl, hpast, hm₀, rfl⟩ := hlisted
  obtain ⟨l, hsince, hm⟩ := hdated
  rcases List.suffix_or_suffix_of_suffix hpast hsince.past with hbefore | hafter
  · -- scanned before the time was read: from before the scan until then nothing has changed
    have hsame : dirsAt dirs₀ l₁ stage = dirsAt dirs₀ l stage :=
      eq_of_mtime (h.leads l₀ l₁ hl hpast stage) (h.leads l₁ l hbefore hsince.past stage) (h.new l hsince.past stage)
        (hm₀.trans hm.symm)
    exact ⟨l, hsince, by rw [hsame]⟩
  · exact ⟨l₁, hsince.mono hafter hpast, rfl⟩

/-- What a step that only looks answers. -/
theorem fires_looks {w w' : World (system root)} {c : Cmd} {x y : Resp c} (hf : Fires w ⟨n, o, c, x⟩ w')
    (h : ∀ mtime, exec root n mtime w.state c = some (y, w.state)) : x = y ∧ w'.state = w.state := by
  obtain ⟨⟨mtime, hx⟩, -⟩ := hf
  have hboth : (y, w.state) = (x, w'.state) := Option.some.inj ((h mtime).symm.trans hx)
  exact ⟨(congrArg Prod.fst hboth).symm, (congrArg Prod.snd hboth).symm⟩

/-- The scan, and the storing of what it gave under the time that was read before it. -/
theorem outline_rescan {m : Time} : Outline (threads root dirs₀) n o (Outcome (Current dirs₀ n stage) fun _ _ => False)
    (rescan stage m) (Dated dirs₀ n stage m) := by
  refine outline_cmd (fun tasks w => Current dirs₀ n stage tasks w ∧ Listed root dirs₀ stage m tasks w)
    (fun tasks => (lasting_current.and lasting_listed).stable) ?_ fun tasks => ?_
  · refine establishes (by simp) fun w tasks w' hinv hinv' hdated hf => ?_
    obtain ⟨rfl, hstate⟩ := fires_looks hf fun _ => rfl
    have hnow : scanned root stage (w.state.dirs stage).files = scanned root stage (dirsAt dirs₀ w'.trace stage).files := by
      rw [← hinv'.dirs, hstate]
    obtain ⟨l, hsince, hm⟩ := lasting_dated _ _ _ hf hdated
    exact ⟨⟨w'.trace, since_now hf rfl, hnow⟩, l, w'.trace, hsince.past, List.suffix_rfl, hm, hnow⟩
  · refine outline_cmd (fun _ => Current dirs₀ n stage tasks) (fun _ => lasting_current.stable) ?_
      fun _ => outline_ret fun w _ h => h
    intro w x w' hinv ⟨hcurrent, hlisted⟩ _ hf
    refine ⟨trivial, hinv.step hf fun stage' tasks' m' hcmd => ?_, lasting_current _ _ _ hf hcurrent⟩
    cases hcmd
    exact hlisted

/-- **A listing.** It is what a scan would have given at a moment of the call. -/
theorem outline_listTasks {P : World (system root) → Prop} : Outline (threads root dirs₀) n o
    (Outcome (Answered dirs₀ n stage) fun _ _ => False) (listTasks stage) P := by
  refine outline_cmd (fun m => Dated dirs₀ n stage m) (fun m => lasting_dated.stable) ?_ fun m => ?_
  · refine establishes (by simp) fun w m w' hinv hinv' _ hf => ?_
    obtain ⟨rfl, hstate⟩ := fires_looks hf fun _ => rfl
    exact ⟨w'.trace, since_now hf rfl, by rw [← hinv'.dirs, hstate]⟩
  · refine outline_withLock lasting_dated (fun tasks => lasting_answered) (R := Current dirs₀ n stage) ?_ ?_
    · rintro tasks w w' ⟨l, hl, htasks⟩ hf
      exact ⟨l, hl.own hf rfl, htasks⟩
    · refine outline_cmd
        (fun kept w => Dated dirs₀ n stage m w ∧ ∀ tasks, kept = some tasks → Current dirs₀ n stage tasks w)
        (fun kept => ?_) ?_ fun kept => ?_
      · have hkeeps : Lasting fun w : World (system root) => ∀ tasks, kept = some tasks → Current dirs₀ n stage tasks w :=
          fun w e w' hf h tasks hkept => lasting_current w e w' hf (h tasks hkept)
        exact (lasting_dated.and hkeeps).stable
      · refine establishes (by simp) fun w kept w' hinv hinv' hdated hf => ?_
        obtain ⟨rfl, hstate⟩ := fires_looks hf fun _ => rfl
        refine ⟨lasting_dated _ _ _ hf hdated, fun tasks hkept => lasting_current _ _ _ hf ?_⟩
        split at hkept
        · rename_i hm
          cases hkept
          exact current_of_cached hinv (hinv.cached stage m hm) hdated
        · cases hkept
      · cases kept with
        | some tasks => exact outline_ret fun w _ h => h.2 tasks rfl
        | none => exact outline_pre (fun _ _ h => h.1) outline_rescan

/-- For each of `stages` a scan would have given its part of `results` at a moment of the call. -/
def Gathered (dirs₀ : String → Directory) (n : Nat) (stages : List String) (results : List Doc)
    (w : World (system root)) : Prop :=
  ∃ listings : List (List Doc), results = listings.flatten ∧
    List.Forall₂ (fun stage tasks => Answered dirs₀ n stage tasks w) stages listings

theorem lasting_gathered {stages : List String} {results : List Doc} :
    Lasting fun w : World (system root) => Gathered dirs₀ n stages results w := by
  rintro w e w' hf ⟨listings, hresults, hall⟩
  exact ⟨listings, hresults, hall.imp fun stage tasks h => lasting_answered w e w' hf h⟩

theorem outline_listStages : ∀ (stages before : List String) (results : List Doc), Outline (threads root dirs₀) n o
    (Outcome (Gathered dirs₀ n (before ++ stages)) fun _ _ => False) (listStages results stages)
    (Gathered dirs₀ n before results)
  | [], before, results => by
    rw [List.append_nil]
    exact outline_ret fun w _ h => h
  | stage :: stages, before, results => by
    refine outline_bind (R := fun tasks w => Answered dirs₀ n stage tasks w ∧ Gathered dirs₀ n before results w)
      (fun tasks => ?_) ?_
    · have hrest := outline_listStages stages (before ++ [stage]) (results ++ tasks)
      rw [List.append_assoc] at hrest
      refine outline_pre (fun w _ h => ?_) hrest
      obtain ⟨htasks, listings, rfl, hall⟩ := h
      exact ⟨listings ++ [tasks], by simp, List.rel_append hall (.cons htasks .nil)⟩
    · refine outline_mono (fun w _ h => ⟨trivial, h⟩) (fun r w _ h => ?_)
        (outline_frame lasting_gathered (outline_listTasks (P := fun _ => True)))
      cases r with
      | ok tasks => exact h
      | error e => exact h.1

/-- What is known of a call's outcome. -/
def Answers (dirs₀ : String → Directory) (n : Nat) :
    (o : Op) → Except PyError (Ret o) → World (system root) → Prop
  | .listTasks stage => Outcome (Answered dirs₀ n stage) fun _ _ => False
  | .listAll stage => Outcome (Gathered dirs₀ n (stagesOf stage)) fun _ _ => False
  | .invalidate _ => fun _ _ => True
  | .change _ => fun _ _ => True

/-- A program that stores no listing. -/
theorem outline_of_plain {α : Type} {p : P α} {P : World (system root) → Prop}
    (hp : p.Each fun c => ∀ stage tasks m, c ≠ Cmd.store stage tasks m) :
    Outline (threads root dirs₀) n o (fun _ _ => True) p P :=
  outline_pre (fun _ _ _ => trivial)
    (outline_of_each stable_true (fun _ hc => establishes hc fun _ _ _ _ _ _ _ => trivial) hp)

theorem outline_prog (n : Nat) (o : Op) :
    Outline (threads root dirs₀) n o (Answers dirs₀ n o) (prog o) (Untouched n) := by
  cases o with
  | listTasks stage => exact outline_listTasks
  | listAll stage => exact outline_pre (fun w _ _ => ⟨[], rfl, .nil⟩) (outline_listStages (stagesOf stage) [] [])
  | invalidate stage =>
    exact outline_of_plain ⟨by simp, fun _ => ⟨by simp, fun _ => ⟨by simp, fun _ => trivial⟩⟩⟩
  | change c => exact outline_of_plain ⟨by simp, fun _ => trivial⟩

/-! ## Every listing is that of a fresh scan -/

/-- The start of a run: no call was made, and the index is as after `__init__`. -/
abbrev fresh (root : String) (files : String → Listing) (mtime : String → Time) : Config (system root) :=
  .init (M := system root) (Shared.init files mtime)

/-- On the way to `c` the run went through `a`: call `n` was in progress, and a scan gives `tasks`. -/
structure ScanAt (n : Nat) (stage : String) (tasks : List Doc) (init c a : Config (system root)) : Prop where
  before : Run Free init a
  after : Run Free a c
  running : ∃ o cmd k, a.proc n = some ⟨o, .op cmd k⟩
  scan : tasks = scanned root stage (a.world.state.dirs stage).files

variable {files : String → Listing} {mtime : String → Time} {c : Config (system root)} {tasks : List Doc}

theorem sound_of_run (h : Run Free (fresh root files mtime) c) :
    Sound (threads root (Shared.init files mtime).dirs) (Answers (Shared.init files mtime).dirs) c :=
  run_sound outline_prog (consistent_init files mtime) h

theorem exists_scan (h : Run Free (fresh root files mtime) c)
    (ha : Answered (Shared.init files mtime).dirs n stage tasks c.world) :
    ∃ a, ScanAt n stage tasks (fresh root files mtime) c a := by
  obtain ⟨l, hduring, rfl⟩ := ha
  obtain ⟨a, hbefore, hafter, rfl, hrunning⟩ := exists_config_of_during h hduring
  exact ⟨a, hbefore, hafter, hrunning, by rw [(sound_of_run hbefore).inv.dirs]⟩

/-- **The task index is transparent.** In every run, whatever `list_tasks` of the index returned a fresh scan gives at
some moment between the call and its return. -/
theorem task_index_transparent (h : Run Free (fresh root files mtime) c)
    (hr : c.Returned n (.listTasks stage) tasks) : ∃ a, ScanAt n stage tasks (fresh root files mtime) c a :=
  exists_scan h ((sound_of_run h).returned hr)

/-- A file is created, a thread lists it, and another that read the time before that lists it again. -/
def twoListings : List (Act (system "swarm")) :=
  [.start 0 (.change (.create "pending" "task-001.yaml" (some [("id", .str "task-001")]))),
    .start 1 (.listTasks "pending"), .start 2 (.listTasks "pending"), .step 2 fun _ => 0, .step 0 fun _ => 1] ++
    List.replicate 6 (.step 1 fun _ => 0) ++ List.replicate 5 (.step 2 fun _ => 0)

/-- The task both list. -/
def listed : List Doc :=
  [[("id", .str "task-001"), ("_stage", .str "pending"), ("_file", .str "swarm/tasks/pending/task-001.yaml")]]

/-- Both threads returned it. -/
def bothListed (c : Config (system "swarm")) : Bool :=
  match c.proc 1, c.proc 2 with
  | some ⟨.listTasks stage, .ret tasks⟩, some ⟨.listTasks stage', .ret tasks'⟩ =>
    stage = "pending" ∧ tasks = listed ∧ stage' = "pending" ∧ tasks' = listed
  | _, _ => false

theorem transparent_twoListings : ∃ c : Config (system "swarm"), ∃ a a',
    ScanAt 1 "pending" listed (fresh "swarm" (fun _ => .empty) fun _ => 0) c a ∧
    ScanAt 2 "pending" listed (fresh "swarm" (fun _ => .empty) fun _ => 0) c a' := by
  have hplay : (play Free (fresh "swarm" (fun _ => .empty) fun _ => 0) twoListings).any bothListed = true := by
    decide +kernel
  obtain ⟨c, hrun, hc⟩ := exists_run_of_play hplay
  unfold bothListed at hc
  split at hc
  · rename_i h₁ h₂
    obtain ⟨rfl, rfl, rfl, rfl⟩ := of_decide_eq_true hc
    obtain ⟨a, ha⟩ := task_index_transparent hrun h₁
    obtain ⟨a', ha'⟩ := task_index_transparent hrun h₂
    exact ⟨c, a, a', ha, ha'⟩
  · cases hc

/-- Nothing was found in any stage. -/
def nothingListed (c : Config (system "swarm")) : Bool :=
  match c.proc 0 with
  | some ⟨.listAll none, .ret []⟩ => true
  | _ => false

end ClaudeSwarm.TaskIndex
