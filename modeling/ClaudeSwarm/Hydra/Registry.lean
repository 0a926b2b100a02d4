import ClaudeSwarm.Data.Table

/-!
# The registry of background dispatches

Model of `src/background_registry.py`. A `BackgroundRegistry` keeps a dictionary of tracked dispatches in
memory; it reads the file once, when it is made, and saves the whole dictionary. The dictionaries here are
tables keyed by dispatch id. What the methods see of the rest of the machine is in `View`: the clock, which
processes `os.kill(pid, 0)` finds, and the pid files.

The records are the files `{dispatch_id}.yaml` that `dispatch()` wrote (`src/hydra_dispatch.py`); `poll`
reads an exit code there and writes back a status. A file that cannot be read is not there.
-/

namespace ClaudeSwarm.Hydra

open Data

/-- The status of a dispatch. -/
inductive Status where
  | pending
  | running
  | completed
  | failed
  | unknown
  | canceled
  deriving DecidableEq

/-- The statuses that end a dispatch. -/
def Status.Terminal : Status → Prop
  | completed | failed | canceled => True
  | pending | running | unknown => False

instance : DecidablePred Status.Terminal := fun status => by
  cases status <;> unfold Status.Terminal <;> infer_instance

/-- A `BackgroundTask`. -/
structure BackgroundTask where
  dispatchId : String
  host : String
  description : String := ""
  taskId : Option String := none
  model : String := "sonnet"
  status : Status := .running
  pid : Int := -1
  startedAt : String := ""
  completedAt : String := ""
  exitCode : Int := -1
  outputFile : String := ""
  deriving DecidableEq

/-- The dictionary of a registry, and the file it is saved to. -/
abbrev Tasks := Table BackgroundTask.dispatchId

/-- What `poll` reads and writes of a dispatch record. -/
structure Record where
  status : Status
  exitCode : Option Int
  completedAt : String
  deriving DecidableEq

/-- The dispatch records. -/
abbrev Records := String → Option Record

/-- What `os.kill(pid, sig)` answers. -/
inductive Signal where
  | sent
  | gone
  | denied
  deriving DecidableEq

/-- The machine at one moment: the clock as text and in seconds (rounded up: it is compared with whole
seconds only), the seconds `time.mktime` makes of a text, the processes, and the pid files (`some none` is a text that is no number). -/
structure View where
  nowText : String
  now : Int
  mktime : String → Option Int
  alive : Int → Bool
  signal : Int → Signal
  pidFile : String → Option (Option Int)

/-- The arguments of `register`. -/
structure Registration where
  dispatchId : String
  host : String
  description : String := ""
  taskId : Option String := none
  model : String := "sonnet"
  pid : Int := -1
  outputFile : String := ""

namespace Registry

/-- `self._tasks[dispatch_id] = task`: an entry keeps its place. -/
def setItem (tasks : Tasks) (task : BackgroundTask) : Tasks :=
  if (tasks.find? task.dispatchId).isSome then
    tasks.update (fun t => t.dispatchId == task.dispatchId)
      (fun t => if t.dispatchId = task.dispatchId then task else t) fun t => by
        split
        · rename_i h
          exact h.symm
        · rfl
  else tasks.put task

/-- The pid `register` stores: the one it is given, or that of the pid file. -/
def registeredPid (view : View) (dispatch_id : String) (pid : Int) : Int :=
  if pid = -1 then
    match view.pidFile dispatch_id with
    | some (some pid) => pid
    | _ => -1
  else pid

/-- The entry `register` makes. -/
def registered (view : View) (r : Registration) : BackgroundTask where
  dispatchId := r.dispatchId
  host := r.host
  description := r.description
  taskId := r.taskId
  model := r.model
  status := .running
  pid := registeredPid view r.dispatchId r.pid
  startedAt := view.nowText
  outputFile := if r.outputFile = "" then
    "/opt/swarm/artifacts/dispatches/" ++ r.dispatchId ++ ".output" else r.outputFile

/-- `register`. -/
def register (view : View) (tasks : Tasks) (r : Registration) : Tasks :=
  setItem tasks (registered view r)

/-- `_check_pid`. -/
def checkPid (view : View) (pid : Int) : Bool := decide (0 < pid) && view.alive pid

/-- A task that `poll` found ended, with the exit code of its record. -/
def finish (view : View) (task : BackgroundTask) : Option Record → BackgroundTask
  | none => { task with status := .completed, completedAt := view.nowText }
  | some record =>
    let exit_code := record.exitCode.getD 0
    { task with
      status := if exit_code ≠ 0 then .failed else .completed
      completedAt := view.nowText
      exitCode := exit_code }

/-- The record of a task that `poll` found ended. -/
def finishRecord (view : View) (task : BackgroundTask) (record : Option Record) : Option Record :=
  record.map fun r =>
    { r with status := (finish view task record).status, completedAt := view.nowText }

/-- One task of the loop of `poll`: the task, its record, and whether it has newly ended. -/
def pollTask (view : View) (record : Option Record) (task : BackgroundTask) :
    BackgroundTask × Option Record × Bool :=
  if task.status ≠ .running then (task, record, false)
  else if 0 < task.pid ∧ checkPid view task.pid = false then
    (finish view task record, finishRecord view task record, true)
  else if task.pid ≤ 0 then
    match view.pidFile task.dispatchId with
    | none => (task, record, false)
    | some none => ({ task with status := .unknown }, record, false)
    | some (some pid) =>
      if checkPid view pid then ({ task with pid }, record, false)
      else
        ({ task with pid, status := .completed, completedAt := view.nowText }, record, true)
  else (task, record, false)

/-- `poll` finds that `task` has ended. -/
def Ends (view : View) (task : BackgroundTask) : Prop :=
  task.status = .running ∧
    (0 < task.pid ∧ checkPid view task.pid = false ∨
      task.pid ≤ 0 ∧ ∃ pid, view.pidFile task.dispatchId = some (some pid) ∧ checkPid view pid = false)

/-- The loop of `poll`: the tasks, the records, and those that have newly ended. -/
def pollEach (view : View) (records : Records) :
    List BackgroundTask → List BackgroundTask × Records × List BackgroundTask
  | [] => ([], records, [])
  | task :: tasks =>
    let (task', record, ended) := pollTask view (records task.dispatchId) task
    let (tasks', records', newly) := pollEach view (Function.update records task.dispatchId record) tasks
    (task' :: tasks', records', if ended then task' :: newly else newly)

theorem dispatchId_pollTask (view : View) (record : Option Record) (task : BackgroundTask) :
    (pollTask view record task).1.dispatchId = task.dispatchId := by
  unfold pollTask
  split
  · rfl
  · split
    · cases record <;> rfl
    · split
      · split
        · rfl
        · rfl
        · split <;> rfl
      · rfl

theorem ids_pollEach (view : View) : ∀ (tasks : List BackgroundTask) (records : Records),
    (pollEach view records tasks).1.map BackgroundTask.dispatchId =
      tasks.map BackgroundTask.dispatchId
  | [], _ => rfl
  | task :: tasks, records => by
    simp only [pollEach, List.map_cons, dispatchId_pollTask, ids_pollEach view tasks]

/-- `poll`: the dictionary, the records, and what is returned. -/
def poll (view : View) (tasks : Tasks) (records : Records) :
    Tasks × Records × List BackgroundTask :=
  let polled := pollEach view records tasks.rows
  (⟨polled.1, (ids_pollEach view tasks.rows records) ▸ tasks.nodup⟩, polled.2)

/-- `cancel`: the dictionary, and whether it was saved. -/
def cancel (view : View) (tasks : Tasks) (dispatch_id : String) : Tasks × Bool :=
  match tasks.find? dispatch_id with
  | none => (tasks, false)
  | some task =>
    if task.status ≠ .running then (tasks, false)
    else if 0 < task.pid ∧ view.signal task.pid = .denied then (tasks, false)
    else
      (setItem tasks { task with status := .canceled, completedAt := view.nowText }, true)

/-- Whether `cleanup` removes an entry. -/
def isOld (view : View) (max_age_hours : Int) (task : BackgroundTask) : Bool :=
  decide task.status.Terminal && task.completedAt != "" &&
    (view.mktime task.completedAt).any fun completed_ts =>
      decide (completed_ts < view.now - max_age_hours * 3600)

/-- `to_remove` of `cleanup`. -/
def toRemove (view : View) (max_age_hours : Int) (tasks : Tasks) : List String :=
  (tasks.rows.filter (isOld view max_age_hours)).map BackgroundTask.dispatchId

/-- `cleanup`: the dictionary. -/
def cleanup (view : View) (max_age_hours : Int) (tasks : Tasks) : Tasks :=
  (toRemove view max_age_hours tasks).foldl Table.erase tasks

end Registry

/-! ## Calls -/

/-- The methods of a registry that change it. -/
inductive Method where
  | register (r : Registration)
  | poll
  | cancel (dispatch_id : String)
  | cleanup (max_age_hours : Int)

namespace Method

/-- What a method returns; for `cleanup`, the entries it counts. -/
def Reply : Method → Type
  | .register _ => BackgroundTask
  | .poll => List BackgroundTask
  | .cancel _ => Bool
  | .cleanup _ => List String

/-- What a method leaves: the dictionary, the records, whether the file was written, and the reply. -/
structure Outcome (m : Method) where
  tasks : Tasks
  records : Records
  saved : Bool
  reply : m.Reply

/-- A call of a method. -/
def run (view : View) (tasks : Tasks) (records : Records) : (m : Method) → Outcome m
  | .register r => ⟨Registry.register view tasks r, records, true, Registry.registered view r⟩
  | .poll =>
    let (tasks, records, newly) := Registry.poll view tasks records
    ⟨tasks, records, !newly.isEmpty, newly⟩
  | .cancel dispatch_id =>
    let (tasks, canceled) := Registry.cancel view tasks dispatch_id
    ⟨tasks, records, canceled, canceled⟩
  | .cleanup max_age_hours =>
    let removed := Registry.toRemove view max_age_hours tasks
    ⟨Registry.cleanup view max_age_hours tasks, records, !removed.isEmpty, removed⟩

/-- The entry a method adds. -/
def Registers (id : String) : Method → Prop
  | .register r => r.dispatchId = id
  | _ => False

instance (id : String) : ∀ m : Method, Decidable (m.Registers id)
  | .register r => inferInstanceAs (Decidable (r.dispatchId = id))
  | .poll | .cancel _ | .cleanup _ => .isFalse not_false

/-- The dictionary and the records after a call. -/
def step (s : Tasks × Records) (call : View × Method) : Tasks × Records :=
  let out := call.2.run call.1 s.1 s.2
  (out.tasks, out.records)

end Method

/-! ## Entries -/

namespace Registry

variable (view : View) (tasks : Tasks) (id : String)

theorem find?_setItem (task : BackgroundTask) :
    (setItem tasks task).find? id = if id = task.dispatchId then some task else tasks.find? id := by
  unfold setItem
  split
  · rename_i h
    obtain ⟨t, ht⟩ := Option.isSome_iff_exists.mp h
    rw [Table.find?_update]
    by_cases hid : id = task.dispatchId
    · subst hid
      have hkey := Table.find?_key ht
      simp [ht, hkey]
    · rw [if_neg hid]
      cases hf : tasks.find? id with
      | none => rfl
      | some t' =>
        have hkey := Table.find?_key hf
        have hne : t'.dispatchId ≠ task.dispatchId := fun h => hid (hkey.symm.trans h)
        simp [hne]
  · rw [Table.find?_put]

/-- A loop of `poll` leaves the records of other dispatches. -/
theorem records_pollEach_of_not_mem : ∀ {tasks : List BackgroundTask} {records : Records},
    id ∉ tasks.map BackgroundTask.dispatchId → (pollEach view records tasks).2.1 id = records id
  | [], _, _ => rfl
  | task :: tasks, records, h => by
    rw [List.map_cons, List.mem_cons, not_or] at h
    simp only [pollEach]
    rw [records_pollEach_of_not_mem h.2, Function.update_of_ne h.1]

theorem pollTask_of_not_running {record : Option Record} {task : BackgroundTask}
    (h : task.status ≠ .running) : pollTask view record task = (task, record, false) :=
  if_pos h

section Branches

variable {record : Option Record} {task : BackgroundTask} (hs : task.status = .running)
include hs

/-- The branch for a pid that is known. -/
theorem pollTask_of_pid (hp : 0 < task.pid) : pollTask view record task =
    if checkPid view task.pid then (task, record, false)
    else (finish view task record, finishRecord view task record, true) := by
  rw [pollTask, if_neg (not_not.mpr hs)]
  cases hc : checkPid view task.pid with
  | true => rw [if_neg (fun h => by cases h.2), if_neg (Int.not_le.mpr hp), if_pos rfl]
  | false => rw [if_pos ⟨hp, rfl⟩, if_neg (by simp)]

/-- The branch for a pid that is not. -/
theorem pollTask_of_no_pid (hp : task.pid ≤ 0) : pollTask view record task =
    match view.pidFile task.dispatchId with
    | none => (task, record, false)
    | some none => ({ task with status := .unknown }, record, false)
    | some (some pid) =>
      if checkPid view pid then ({ task with pid }, record, false)
      else
        ({ task with pid, status := .completed, completedAt := view.nowText }, record, true) := by
  rw [pollTask, if_neg (not_not.mpr hs), if_neg fun h => absurd h.1 (Int.not_lt.mpr hp), if_pos hp]

end Branches

/-- `poll` returns the tasks it finds ended. -/
theorem pollTask_ended_iff (record : Option Record) (task : BackgroundTask) :
    (pollTask view record task).2.2 = true ↔ Ends view task := by
  by_cases hs : task.status = .running
  · rcases Int.lt_or_le 0 task.pid with hp | hp
    · rw [pollTask_of_pid view hs hp]
      cases hc : checkPid view task.pid <;> simp [Ends, hs, hp, hc, Int.not_le.mpr hp]
    · rw [pollTask_of_no_pid view hs hp]
      cases hf : view.pidFile task.dispatchId with
      | none => simp [Ends, hf, Int.not_lt.mpr hp]
      | some pid =>
        cases pid with
        | none => simp [Ends, hf, Int.not_lt.mpr hp]
        | some pid => cases hc : checkPid view pid <;> simp [Ends, hs, hp, hf, hc, Int.not_lt.mpr hp]
  · rw [pollTask_of_not_running view hs]
    simp [Ends, hs]

/-- What `poll` finds ended it gives a status that says so. -/
theorem terminal_of_ends {task : BackgroundTask} (h : Ends view task) (record : Option Record) :
    (pollTask view record task).1.status.Terminal := by
  obtain ⟨hs, ⟨hp, hc⟩ | ⟨hp, pid, hf, hc⟩⟩ := h
  · rw [pollTask_of_pid view hs hp, hc, if_neg (by simp)]
    cases record with
    | none => trivial
    | some record =>
      simp only [finish]
      split <;> trivial
  · rw [pollTask_of_no_pid view hs hp, hf]
    simp only [hc]
    trivial

/-- What `poll` returns is among the tasks it looked at. -/
theorem mem_ids_of_ended : ∀ {tasks : List BackgroundTask} {records : Records} {t : BackgroundTask},
    t ∈ (pollEach view records tasks).2.2 → t.dispatchId ∈ tasks.map BackgroundTask.dispatchId
  | task :: tasks, records, t, h => by
    simp only [pollEach] at h
    rw [List.map_cons, List.mem_cons]
    split at h
    · rcases List.mem_cons.mp h with rfl | h
      · exact Or.inl (dispatchId_pollTask view _ _)
      · exact Or.inr (mem_ids_of_ended h)
    · exact Or.inr (mem_ids_of_ended h)

/-- What `poll` returns of a dispatch. -/
def reported (id : String) (newly : List BackgroundTask) : List BackgroundTask :=
  newly.filter fun t => t.dispatchId == id

theorem reported_of_not_mem {tasks : List BackgroundTask} {records : Records}
    (h : id ∉ tasks.map BackgroundTask.dispatchId) :
    reported id (pollEach view records tasks).2.2 = [] := by
  refine List.filter_eq_nil_iff.mpr fun t ht hid => ?_
  exact h (eq_of_beq hid ▸ mem_ids_of_ended view ht)

/-- What the loop of `poll` does to one of the tasks, to its record, and what it returns of it. -/
theorem pollEach_of_mem {task : BackgroundTask} : ∀ {tasks : List BackgroundTask} {records : Records},
    (tasks.map BackgroundTask.dispatchId).Nodup → task ∈ tasks →
      (pollTask view (records task.dispatchId) task).1 ∈ (pollEach view records tasks).1 ∧
        (pollEach view records tasks).2.1 task.dispatchId =
          (pollTask view (records task.dispatchId) task).2.1 ∧
        reported task.dispatchId (pollEach view records tasks).2.2 =
          if (pollTask view (records task.dispatchId) task).2.2 then
            [(pollTask view (records task.dispatchId) task).1] else []
  | [], _, _, h => absurd h List.not_mem_nil
  | t :: tasks, records, hnodup, h => by
    rw [List.map_cons, List.nodup_cons] at hnodup
    rcases List.mem_cons.mp h with rfl | h
    · refine ⟨List.mem_cons_self, ?_, ?_⟩
      · simp only [pollEach]
        rw [records_pollEach_of_not_mem view _ hnodup.1, Function.update_self]
      · have hrest := @reported_of_not_mem view task.dispatchId _ (Function.update records task.dispatchId
            (pollTask view (records task.dispatchId) task).2.1) hnodup.1
        simp only [pollEach]
        split
        · rw [reported, List.filter_cons_of_pos (by simp [dispatchId_pollTask])]
          exact congrArg _ hrest
        · exact hrest
    · have hne : task.dispatchId ≠ t.dispatchId := fun he =>
        hnodup.1 (he ▸ List.mem_map_of_mem h)
      have ih := @pollEach_of_mem task tasks (Function.update records t.dispatchId
        (pollTask view (records t.dispatchId) t).2.1) hnodup.2 h
      rw [Function.update_of_ne hne] at ih
      obtain ⟨hmem, hrecord, hreported⟩ := ih
      refine ⟨List.mem_cons_of_mem _ hmem, hrecord, ?_⟩
      simp only [pollEach]
      split
      · rw [reported, List.filter_cons_of_neg (by simpa [dispatchId_pollTask] using hne.symm)]
        exact hreported
      · exact hreported

section Poll

variable {records : Records} {id}

/-- **What `poll` does to one dispatch.** -/
theorem find?_poll {task : BackgroundTask} (h : tasks.find? id = some task) :
    (poll view tasks records).1.find? id = some (pollTask view (records id) task).1 ∧
      (poll view tasks records).2.1 id = (pollTask view (records id) task).2.1 ∧
      reported id (poll view tasks records).2.2 =
        if (pollTask view (records id) task).2.2 then [(pollTask view (records id) task).1]
        else [] := by
  obtain rfl := Table.find?_key h
  obtain ⟨hmem, hrecord, hreported⟩ := @pollEach_of_mem view _ _ records tasks.nodup (Table.find?_mem h)
  refine ⟨?_, hrecord, hreported⟩
  have hfind := Table.find?_of_mem (t := (poll view tasks records).1) hmem
  rwa [dispatchId_pollTask] at hfind

end Poll

/-- `poll` returns something when it finds some task ended. -/
theorem newly_eq_nil_iff : ∀ {tasks : List BackgroundTask} {records : Records},
    (pollEach view records tasks).2.2 = [] ↔ ∀ t ∈ tasks, ¬ Ends view t
  | [], _ => by simp [pollEach]
  | task :: tasks, records => by
    have hended := pollTask_ended_iff view (records task.dispatchId) task
    simp only [pollEach, List.forall_mem_cons]
    split
    · rename_i h
      simp [hended.mp h]
    · rename_i h
      rw [newly_eq_nil_iff]
      exact (and_iff_right fun he => h (hended.mpr he)).symm

/-- `cancel` leaves what is not running. -/
theorem find?_cancel_of_not_running (dispatch_id : String) {task : BackgroundTask}
    (h : tasks.find? id = some task) (hs : task.status ≠ .running) :
    (cancel view tasks dispatch_id).1.find? id = some task := by
  unfold cancel
  split
  · exact h
  · rename_i t ht
    split
    · exact h
    · rename_i hrunning
      split
      · exact h
      · rw [find?_setItem, if_neg, h]
        intro he
        have hkey : t.dispatchId = dispatch_id := Table.find?_key ht
        have hid : id = dispatch_id := he.trans hkey
        rw [hid, ht] at h
        exact hs (Option.some.inj h ▸ not_not.mp hrunning)

/-- The entries `cleanup` leaves. -/
theorem find?_cleanup (max_age_hours : Int) : (cleanup view max_age_hours tasks).find? id =
    if id ∈ toRemove view max_age_hours tasks then none else tasks.find? id :=
  Table.find?_eraseAll _ tasks

end Registry

end ClaudeSwarm.Hydra
