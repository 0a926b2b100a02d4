import ClaudeSwarm.Data.Calendar
import ClaudeSwarm.Data.Dict
import ClaudeSwarm.Python.Repr
import ClaudeSwarm.SwarmLib.Effects
import ClaudeSwarm.SwarmLib.Names

/-!
# The work generator

Model of `src/work_generator.py` and of `generate_and_create` of `src/auto_dispatch.py`, for a cycle that runs alone. The
disk has the scan state, as `load_scan_state` loads it, and the task files. What is in the directories of the projects,
what git, Prometheus and the clock say is the `World`; what it raises there is what the scanners do not catch. The
regular expressions are parameters, `Patterns`. The texts of the tasks are those of the source.

* `lookup_record`: the scan state after a key was set.
* `createTask`: what the program of `SwarmLib` does when it runs alone (`createTask_from`).
-/

namespace ClaudeSwarm.WorkGenerator

open Data
open Python (PyError Unicode strJson)
open SwarmLib (Files Doc Stage content put stems taskName maxNumber)

/-! ## The world -/

/-- The regular expressions, as what they say about a text; `phase` and `item` give what they capture. -/
structure Patterns where
  human : String → Bool
  haiku : String → Bool
  opus : String → Bool
  gpu : String → Bool
  docker : String → Bool
  phase : String → Option String
  item : String → Option String

/-- A file of a directory `plans`; the lines are missing where it cannot be read. -/
structure PlanFile where
  name : String
  lines : Option (List String)

/-- What git says in a project: `_get_head_commit`, `_has_uncommitted_changes`, and the files that differ from a
commit. -/
structure Repo where
  head : Except PyError (Option String)
  uncommitted : Except PyError Bool
  diff : String → Except PyError (List String)

/-- An entry of `projects`, with what is found in its directory: the files in `plans`, the repository, whether there are
tests. `blank` is an entry without any settings. -/
structure Project where
  name : String
  path : Option String
  host : Option String
  blank : Bool
  plans : Option (List PlanFile)
  repo : Option Repo
  tests : Bool

/-- An alert. -/
structure Alert where
  state : Option String
  labels : Dict String String

/-- The approved questions: those in the directory itself, and those of each section. -/
structure Approved where
  files : Nat
  sections : String → Nat

/-- The directory of `examforge`. -/
structure ExamForge where
  drafts : Nat
  approved : Option Approved

/-- The configuration, and what a cycle finds. No alerts are those of a Prometheus that cannot be read. -/
structure World where
  patterns : Patterns
  unicode : Unicode
  projects : List Project
  distinct : (projects.map Project.name).Nodup
  max_pending_tasks : Int
  daily_hour : Int
  weekly_day : Int
  alerts : Except PyError (Option (List Alert))
  examforge : Except PyError (Option ExamForge)
  now : Nat
  hostname : String
  created_at : Nat → String

/-! ## The disk -/

/-- What `load_scan_state` loads. -/
abbrev ScanState := Dict String (Dict String String)

/-- The scan state and the task files. -/
structure Disk where
  scan_state : ScanState
  tasks : Files

/-- `scan_state.get(name, {}).get(key, "")`. -/
def lookup (state : ScanState) (name key : String) : String := ((state.get? name).bind (·.get? key)).getD ""

/-- `scan_state.setdefault(name, {})[key] = value`. -/
def record (state : ScanState) (name key value : String) : ScanState :=
  state.set name (((state.get? name).getD .empty).set key value)

/-- `glob("task-*.yaml")`, by name. -/
def globTasks (tasks : Files) (st : Stage) : List String := (stems tasks st).filter (·.startsWith "task-")

/-- `pending_count`. -/
def Disk.pendingCount (s : Disk) : Nat := (globTasks s.tasks .pending).length

/-- A proposed task. -/
structure Task where
  title : String
  description : String
  project : String
  priority : String
  requires : List String
  source : String
  suggested_model : String

namespace World

variable (w : World)

/-- `infer_model`. -/
def inferModel (text : String) : String :=
  if w.patterns.opus text then "opus" else if w.patterns.haiku text then "haiku" else "sonnet"

/-- `infer_requires`. -/
def inferRequires (text : String) : List String :=
  (if w.patterns.gpu text then ["gpu"] else []) ++ if w.patterns.docker text then ["docker"] else []

/-- `_make_task`. -/
def makeTask (title description project priority : String) (requires : List String) (source : String) : Task :=
  ⟨title, description, project, priority, requires, source, w.inferModel (title ++ " " ++ description)⟩

/-! ## Plans, alerts and questions -/

/-- The loop of `_first_actionable_item`. -/
def firstActionableItem (current_phase : String) : List String → Option (String × String)
  | [] => none
  | line :: lines =>
    match w.patterns.phase line with
    | some phase => firstActionableItem phase lines
    | none =>
      match w.patterns.item line with
      | none => firstActionableItem current_phase lines
      | some text =>
        if w.patterns.human text then firstActionableItem current_phase lines else some (text, current_phase)

/-- `candidates` of `scan_project_plans`. -/
def candidates (project_name : String) (files : List PlanFile) : List PlanFile :=
  let own := files.filter fun f => f.name = project_name ++ "-plan.md"
  let plain := files.filter fun f => f.name = "plan.md"
  if own ≠ [] then own else if plain ≠ [] then plain else files.filter fun f => f.name.endsWith ".md"

/-- `str(project_path)`. -/
def projectPath (p : Project) : String := p.path.getD ("/opt/" ++ p.name)

/-- The task of a plan. -/
def planTask (p : Project) (plan_file : PlanFile) : Option Task :=
  (plan_file.lines.bind (w.firstActionableItem "unknown")).map fun (text, phase) =>
    let requires := w.inferRequires text
    w.makeTask ("[" ++ p.name ++ "] " ++ text) ("From project plan: " ++ plan_file.name ++ ", phase " ++ phase)
      (projectPath p) "medium"
      (if p.host.getD "node_primary" = "node_gpu" ∧ "gpu" ∉ requires then requires ++ ["gpu"] else requires)
      "project_plan"

/-- `scan_project_plans`. -/
def scanProjectPlans : List Task :=
  w.projects.flatMap fun p => (p.plans.elim [] (candidates p.name)).filterMap (w.planTask p)

/-- The task of an alert. -/
def alertTask (alert : Alert) : Option Task :=
  if alert.state ≠ some "firing" then none
  else
    let alertname := (alert.labels.get? "alertname").getD "UnknownAlert"
    let instance_ := ((alert.labels.get? "instance").or (alert.labels.get? "job")).getD "unknown"
    let severity := (alert.labels.get? "severity").getD "warning"
    let labels := strJson w.unicode (.obj (alert.labels.entries.map fun e => (e.1, .str e.2)))
    some (w.makeTask ("Investigate alert: " ++ alertname ++ " on " ++ instance_)
      ("Prometheus alert firing — severity=" ++ severity ++ ", labels=" ++ labels) ""
      (if severity = "critical" then "high" else "medium") [] "prometheus")

/-- `scan_prometheus_alerts`. -/
def scanPrometheusAlerts : Except PyError (List Task) := do
  return ((← w.alerts).getD []).filterMap w.alertTask

/-- `_find_weakest_examforge_section`. -/
def findWeakestSection (approved : Option Approved) : String :=
  match approved with
  | none => "FAR"
  | some a => ["AUD", "REG", "BAR"].foldl (fun s s' => if a.sections s' < a.sections s then s' else s) "FAR"

/-- `scan_examforge_pipeline`. -/
def scanExamforgePipeline : Except PyError (List Task) :=
  match (w.projects.find? fun p => p.name = "examforge").filter fun p => !p.blank with
  | none => return []
  | some p => do
    let base := projectPath p
    match ← w.examforge with
    | none => return []
    | some dir =>
      let approved := (dir.approved.map Approved.files).getD 0
      let weakest := findWeakestSection dir.approved
      return (if 0 < dir.drafts then
            [w.makeTask ("Run QA validation on " ++ toString dir.drafts ++ " draft questions")
              ("ExamForge: " ++ toString dir.drafts ++ " draft questions need QA validation") base "medium" []
              "examforge"]
          else []) ++
        (if 0 < approved then
            [w.makeTask ("Import " ++ toString approved ++ " approved questions to DB")
              "ExamForge: approved questions awaiting DB import" base "medium" [] "examforge"]
          else []) ++
        [w.makeTask ("Generate 10 more questions for " ++ weakest)
          ("ExamForge daily generation: section " ++ weakest ++ " has fewest questions") base "low" []
          "examforge_daily"]

/-! ## Git -/

/-- `_get_changed_files`. -/
def getChangedFiles (repo : Repo) (since_commit : String) : Except PyError (List String) :=
  if since_commit = "" then return [] else repo.diff since_commit

/-- One project of `scan_git_changes`: its tasks, and the commit that is to be recorded. -/
def scanProject (scan_state : ScanState) (p : Project) : Except PyError (List Task × Option String) :=
  match p.repo with
  | none => return ([], none)
  | some repo => do
    let last_commit := lookup scan_state p.name "last_commit"
    match ← repo.head with
    | none => return ([], none)
    | some current_commit =>
      if current_commit = last_commit then
        if ← repo.uncommitted then
          return ([w.makeTask ("Run Kin commit on " ++ p.name ++ " (uncommitted changes)")
            ("Uncommitted changes detected in " ++ projectPath p) (projectPath p) "low" [] "git_scan"], none)
        else return ([], none)
      else
        let changed_files ← getChangedFiles repo last_commit
        let since := if last_commit = "" then "initial" else .ofList (last_commit.toList.take 8)
        return ((if p.tests then
              [w.makeTask ("Run tests on " ++ p.name) ("New commits in " ++ p.name ++ " since " ++ since)
                (projectPath p) "medium" [] "git_scan"]
            else []) ++
          (if changed_files.any fun f => "CLAUDE.md".toList <:+: f.toList then
              [w.makeTask ("Review CLAUDE.md changes in " ++ p.name) "CLAUDE.md was modified in a recent commit"
                (projectPath p) "low" [] "git_scan"]
            else []), some current_commit)

/-- The loop of `scan_git_changes`. The copy `updated_state` shares its dictionaries with `scan_state`, but each is read
before it is written. -/
def gitLoop (scan_state : ScanState) : List Project → ScanState → Except PyError (List Task × ScanState)
  | [], updated_state => return ([], updated_state)
  | p :: projects, updated_state => do
    let (tasks, commit) ← w.scanProject scan_state p
    let (more, updated_state) ← gitLoop scan_state projects
      (commit.elim updated_state (record updated_state p.name "last_commit"))
    return (tasks ++ more, updated_state)

/-- `scan_git_changes`, which saves at its end. -/
def scanGitChanges (s : Disk) : Except PyError (List Task) × Disk :=
  match w.gitLoop s.scan_state w.projects s.scan_state with
  | .error e => (.error e, s)
  | .ok (tasks, updated_state) => (.ok tasks, { s with scan_state := updated_state })

/-! ## Maintenance -/

/-- The day since the epoch. -/
def day : Int := (w.now / 86400 : Nat)

/-- `now.weekday()`. -/
def weekday : Int := (w.day + 3) % 7

/-- `today_str`. -/
def today : String :=
  let d := Date.ofDays w.day
  .ofList (twoDigits (d.year.toNat / 100) ++ twoDigits (d.year.toNat % 100) ++ '-' :: twoDigits d.month.toNat ++
    '-' :: twoDigits d.day.toNat)

/-- `this_week_str`: a week belongs to the year of its Thursday. -/
def thisWeek : String :=
  let thursday := w.day - w.weekday + 3
  let year := (Date.ofDays thursday).year
  let week := (thursday - (Date.mk year 1 1).toDays) / 7 + 1
  toString year ++ "-W" ++ .ofList (twoDigits week.toNat)

/-- The daily tasks are due. -/
def dailyDue (scan_state : ScanState) : Bool :=
  w.daily_hour ≤ (w.now / 3600 % 24 : Nat) ∧ lookup scan_state "maintenance" "last_daily" ≠ w.today

/-- The weekly tasks are due. -/
def weeklyDue (scan_state : ScanState) : Bool :=
  w.weekday = w.weekly_day ∧ lookup scan_state "maintenance" "last_weekly" ≠ w.thisWeek

/-- The tasks of a day. -/
def dailyTasks : List Task :=
  [w.makeTask "Run security scan on all repos" "Daily: supply-chain-risk-auditor on all Hydra repos" "" "medium" []
     "scheduled_daily",
   w.makeTask "Check for package updates on node_primary and node_gpu" "Daily: apt/pip update check across fleet" ""
     "low" [] "scheduled_daily",
   w.makeTask "Sync claude-config between hosts" "Daily: ensure claude-config repo is current on all hosts"
     "/opt/claude-configs/claude-config" "low" [] "scheduled_daily",
   w.makeTask "Run Kin commit on repos with uncommitted semantic changes"
     "Daily: kin commit sweep across all indexed repos" "" "low" [] "scheduled_daily"]

/-- The tasks of a week. -/
def weeklyTasks : List Task :=
  [w.makeTask "Full security audit of node_gpu" "Weekly: comprehensive security audit of primary GPU host" "" "high"
     ["gpu"] "scheduled_weekly",
   w.makeTask "Review and clean up completed swarm tasks" "Weekly: archive completed tasks older than 7 days" "" "low"
     [] "scheduled_weekly",
   w.makeTask "Update skill freshness (token-miser pricing, versions)"
     "Weekly: verify token-miser model pricing and skill versions" "/opt/claude-configs/claude-config" "medium" []
     "scheduled_weekly"]

/-- `scan_scheduled_maintenance`, which saves when something is due. -/
def scanScheduledMaintenance (s : Disk) : List Task × Disk :=
  let daily := w.dailyDue s.scan_state
  let weekly := w.weeklyDue s.scan_state
  let scan_state := if daily then record s.scan_state "maintenance" "last_daily" w.today else s.scan_state
  let scan_state := if weekly then record scan_state "maintenance" "last_weekly" w.thisWeek else scan_state
  ((if daily then w.dailyTasks else []) ++ if weekly then w.weeklyTasks else [], { s with scan_state := scan_state })

/-! ## The cycle -/

/-- `existing_titles.add(data.get("title", ""))`, for one file after the other. -/
def addTitles (existing_titles : List String) : List (String × Doc) → Except PyError (List String)
  | [] => return existing_titles
  | (_, data) :: files =>
    match (data.lookup "title").getD (.str "") with
    | .str title => addTitles (title :: existing_titles) files
    | .arr _ => throw (.typeError "unhashable type: 'list'")
    | .obj _ => throw (.typeError "unhashable type: 'dict'")
    | _ => addTitles existing_titles files

/-- The second loop of `deduplicate`. -/
def unique (titles : List String) : List Task → List Task
  | [] => []
  | task :: tasks =>
    if task.title ∈ titles then unique titles tasks else task :: unique (task.title :: titles) tasks

/-- `deduplicate`. -/
def deduplicate (s : Disk) (proposed : List Task) : Except PyError (List Task) := do
  let existing_titles ← addTitles [] (s.tasks .pending).rows
  let existing_titles ← addTitles existing_titles (s.tasks .claimed).rows
  return unique existing_titles proposed

/-- `generate_work`. -/
def generateWork (s : Disk) : Except PyError (List Task) × Disk :=
  if w.max_pending_tasks ≤ s.pendingCount then (.ok [], s)
  else
    match w.scanPrometheusAlerts with
    | .error e => (.error e, s)
    | .ok alerts =>
      match w.scanGitChanges s with
      | (.error e, s) => (.error e, s)
      | (.ok changes, s) =>
        match w.scanExamforgePipeline with
        | .error e => (.error e, s)
        | .ok questions =>
          let (maintenance, s) := w.scanScheduledMaintenance s
          (deduplicate s (w.scanProjectPlans ++ alerts ++ changes ++ questions ++ maintenance), s)

end World

/-- `max_id` of `_next_task_id`. -/
def maxId (tasks : Files) : Int :=
  maxNumber (maxNumber (maxNumber 0 (globTasks tasks .pending)) (globTasks tasks .claimed)) (globTasks tasks .completed)

/-- `create_task`, by a call that nothing interferes with. -/
def createTask (tasks : Files) (created_by created_at : String) (t : Task) : Doc × Files :=
  let task_id := taskName (maxId tasks + 1).toNat
  let task : Doc := [("id", .str task_id), ("title", .str t.title), ("description", .str t.description),
    ("project", .str t.project), ("priority", .str t.priority), ("requires", .ofStrings t.requires),
    ("created_by", .str created_by), ("created_at", .str created_at), ("estimated_minutes", .int 0)]
  (task, put tasks .pending task_id task)

/-- What `generate_and_create` returns. -/
inductive Returned where
  | proposed (l : List Task)
  | created (l : List Doc)

namespace World

variable (w : World)

/-- The loop of `generate_and_create`, after `n` tasks. -/
def createTasks (n : Nat) (tasks : Files) : List Task → List Doc × Files
  | [] => ([], tasks)
  | t :: proposed =>
    let (task, tasks) := createTask tasks w.hostname (w.created_at n) t
    let (created, tasks) := createTasks (n + 1) tasks proposed
    (task :: created, tasks)

/-- `generate_and_create`. -/
def generateAndCreate (apply : Bool) (s : Disk) : Except PyError Returned × Disk :=
  match w.generateWork s with
  | (.error e, s) => (.error e, s)
  | (.ok proposed, s) =>
    if apply then
      let (created, tasks) := w.createTasks 0 s.tasks proposed
      (.ok (.created created), { s with tasks := tasks })
    else (.ok (.proposed proposed), s)

end World

/-! ## The scan state -/

variable {state : ScanState} {name name' key key' value : String}

theorem lookup_record : lookup (record state name key value) name' key' =
    if name' = name ∧ key' = key then value else lookup state name' key' := by
  rw [lookup, record, Dict.get?_set]
  by_cases hname : name' = name
  · subst hname
    rw [if_pos rfl, Option.bind_some, Dict.get?_set]
    by_cases hkey : key' = key
    · rw [if_pos hkey, if_pos ⟨rfl, hkey⟩, Option.getD_some]
    · rw [if_neg hkey, if_neg fun h => hkey h.2, lookup]
      cases state.get? name' <;> rfl
  · rw [if_neg hname, if_neg fun h => hname h.1, lookup]

/-! ## Creating tasks -/

section

open SwarmLib (From from_still from_bind from_lockedWrite from_ret Hoare)

variable {n : Nat} {fs : Files} {st : Stage} {β : Type} {R : β → Files → Prop}

theorem from_glob {f : List String → SwarmLib.P β} (hf : From n fs (f (globTasks fs st)) R) :
    From n fs (SwarmLib.cmd (.glob st) >>= f) R := by
  have hglob : ∀ ids, Hoare n (fun _ => True) (fun fs' => fs' = fs ∧ ids = globTasks fs st) (f ids) R := by
    rintro ids s hI ⟨hs, rfl⟩
    exact hf s hI hs
  refine Interleave.Store.triple_cmd (fun ids s => s.files = fs ∧ ids = globTasks fs st)
    (fun i s ids s' hI hA hx => ?_) hglob
  obtain ⟨rfl, rfl⟩ := Prod.mk.inj (Option.some.inj hx)
  exact ⟨hI, hA, hA ▸ rfl⟩

/-- The new id is new. -/
theorem content_new : content fs .pending (taskName (maxId fs + 1).toNat) = none := by
  by_contra hthere
  have hstem : taskName (maxId fs + 1).toNat ∈ globTasks fs .pending := by
    refine List.mem_filter.mpr ⟨SwarmLib.mem_stems.mpr (Option.isSome_iff_ne_none.mpr hthere), ?_⟩
    rw [String.startsWith_string_iff]
    refine ⟨SwarmLib.taskDigits (maxId fs + 1).toNat, ?_⟩
    rw [SwarmLib.toList_taskName]
    simp
  have hnonneg : 0 ≤ maxId fs := SwarmLib.le_maxNumber (.inl (SwarmLib.le_maxNumber (.inl
    (SwarmLib.le_maxNumber (.inl le_rfl)))))
  have hle : ((maxId fs + 1).toNat : Int) ≤ maxId fs := SwarmLib.le_maxNumber (.inl (SwarmLib.le_maxNumber (.inl
    (SwarmLib.le_maxNumber (.inr ⟨_, hstem, SwarmLib.idNumber_taskName _⟩)))))
  omega

end

end ClaudeSwarm.WorkGenerator
