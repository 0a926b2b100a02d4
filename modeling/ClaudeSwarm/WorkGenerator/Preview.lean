import ClaudeSwarm.WorkGenerator.Scan

/-!
# Previews

A preview of the work, `generate_and_create` without `apply`, and a cycle that fails before it creates a task, leave
nothing behind exactly if no scanner saves something new: `scan_git_changes` records the commit of each project that has
a new one, `scan_scheduled_maintenance` the day and the week whose tasks are due, both before anything is created.

* `gitLoop_commit`, `gitLoop_lookup`: what is recorded of a commit, and what stays.
* `generateWork_quiet`, `quiet_of_same`: the scan state stays the same exactly if the disk is quiet.
* `added_createTasks`: the tasks that are created have ids of their own, and are as proposed.
* **`harmless_iff`**: previews and failed cycles are without effect exactly on a quiet disk.
* `daily_lost`: a preview in the evening.
-/

namespace ClaudeSwarm.WorkGenerator

open Python (PyError)
open SwarmLib (Files Doc content taskName getStr)

/-! ## What should hold -/

/-- The task was created as it was proposed. -/
structure Asked (t : Task) (task : Doc) : Prop where
  title : task.lookup "title" = some (.str t.title)
  description : task.lookup "description" = some (.str t.description)
  project : task.lookup "project" = some (.str t.project)
  priority : task.lookup "priority" = some (.str t.priority)
  requires : task.lookup "requires" = some (.ofStrings t.requires)

/-- The tasks are new, and nothing else has changed. -/
structure Added (fs fs' : Files) (created : List Doc) : Prop where
  here : ∀ task ∈ created, ∃ id, getStr task "id" = some id ∧ content fs .pending id = none ∧
    content fs' .pending id = some task
  others : ∀ st id, (∀ task ∈ created, ¬ (st = .pending ∧ getStr task "id" = some id)) →
    content fs' st id = content fs st id
  distinct : created.Pairwise fun task task' => getStr task "id" ≠ getStr task' "id"

/-- The project has a commit that is not recorded. -/
def NewCommit (scan_state : ScanState) (p : Project) : Prop :=
  ∃ repo current_commit, p.repo = some repo ∧ repo.head = .ok (some current_commit) ∧
    current_commit ≠ lookup scan_state p.name "last_commit"

namespace World

variable (w : World)

/-- **No effect**: a preview leaves the disk as it is, and what it lists is what is created next; a cycle that is skipped
or fails leaves the disk as it is too. -/
structure Harmless (s : Disk) : Prop where
  preview : (w.generateAndCreate false s).2 = s
  listed : ∀ proposed, (w.generateAndCreate false s).1 = .ok (.proposed proposed) → ∃ created tasks,
    w.generateAndCreate true (w.generateAndCreate false s).2 = (.ok (.created created), ⟨s.scan_state, tasks⟩) ∧
      List.Forall₂ Asked proposed created ∧ Added s.tasks tasks created
  skipped : ∀ apply, w.max_pending_tasks ≤ s.pendingCount → (w.generateAndCreate apply s).2 = s
  failed : ∀ apply e, (w.generateAndCreate apply s).1 = .error e → (w.generateAndCreate apply s).2 = s

/-- There is no room, or something raises before `scan_git_changes` saves. -/
def Stops (s : Disk) : Prop :=
  w.max_pending_tasks ≤ s.pendingCount ∨ (∃ e, w.alerts = .error e) ∨
    ∃ p ∈ w.projects, ∃ e, w.scanProject s.scan_state p = .error e

/-- Nothing new is saved: the cycle stops before, or no project has a new commit, and nothing is due unless
`scan_examforge_pipeline` raises. -/
def Quiet (s : Disk) : Prop :=
  w.Stops s ∨ (∀ p ∈ w.projects, ¬ NewCommit s.scan_state p) ∧
    ((∃ e, w.scanExamforgePipeline = .error e) ∨ w.dailyDue s.scan_state = false ∧ w.weeklyDue s.scan_state = false)

end World

/-! ## Git -/

variable {w : World} {s : Disk} {state up up' : ScanState} {p : Project} {ps : List Project} {tasks : List Task}

/-- A commit is recorded exactly if it is new. -/
theorem scanProject_cases {commit : Option String} (h : w.scanProject state p = .ok (tasks, commit)) :
    commit = none ∧ ¬ NewCommit state p ∨
      ∃ c, commit = some c ∧ c ≠ lookup state p.name "last_commit" ∧ NewCommit state p := by
  unfold World.scanProject at h
  cases hrepo : p.repo with
  | none =>
    rw [hrepo] at h
    cases h
    refine .inl ⟨rfl, ?_⟩
    rintro ⟨repo, c, hrepo', -⟩
    exact absurd (hrepo.symm.trans hrepo') (by simp)
  | some repo =>
    have hhead : ∀ {c}, NewCommit state p → repo.head = .ok c → ∃ current, c = some current ∧
        current ≠ lookup state p.name "last_commit" := by
      rintro c ⟨repo', current, hrepo', hcurrent, hne⟩ hc
      obtain rfl := Option.some.inj (hrepo.symm.trans hrepo')
      exact ⟨current, Except.ok.inj (hc.symm.trans hcurrent), hne⟩
    rw [hrepo] at h
    simp only [bind, Except.bind] at h
    split at h
    · cases h
    · rename_i head hok
      cases head with
      | none =>
        cases h
        refine .inl ⟨rfl, fun hnew => ?_⟩
        obtain ⟨current, hnone, -⟩ := hhead hnew hok
        cases hnone
      | some current =>
        simp only at h
        split at h
        · rename_i heq
          have hold : ¬ NewCommit state p := fun hnew => by
            obtain ⟨current', hsome, hne⟩ := hhead hnew hok
            cases hsome
            exact hne heq
          split at h
          · cases h
          · split at h <;> cases h <;> exact .inl ⟨rfl, hold⟩
        · rename_i hne
          split at h
          · cases h
          · cases h
            exact .inr ⟨current, rfl, hne, repo, current, hrepo, hok, hne⟩

theorem gitLoop_cons (hok : w.gitLoop state (p :: ps) up = .ok (tasks, up')) :
    ∃ own commit more, w.scanProject state p = .ok (own, commit) ∧
      w.gitLoop state ps (commit.elim up (record up p.name "last_commit")) = .ok (more, up') := by
  rw [World.gitLoop] at hok
  simp only [bind, Except.bind] at hok
  split at hok
  · cases hok
  · rename_i scanned hscan
    split at hok
    · cases hok
    · rename_i rest hrest
      cases hok
      exact ⟨scanned.1, scanned.2, rest.1, hscan, hrest⟩

/-- Other keys stay. -/
theorem gitLoop_lookup {name key : String} : ∀ {ps : List Project} {up : ScanState} {tasks : List Task},
    w.gitLoop state ps up = .ok (tasks, up') → name ∉ ps.map Project.name ∨ key ≠ "last_commit" →
      lookup up' name key = lookup up name key
  | [], up, tasks, hok, _ => by
    cases hok
    rfl
  | p :: ps, up, tasks, hok, hother => by
    obtain ⟨own, commit, more, -, hrest⟩ := gitLoop_cons hok
    rw [List.map_cons, List.mem_cons, not_or] at hother
    rw [gitLoop_lookup hrest (hother.imp (fun h => h.2) id)]
    cases commit with
    | none => rfl
    | some c =>
      rw [Option.elim_some, lookup_record, if_neg]
      rintro ⟨hname, hkey⟩
      exact hother.elim (fun h => h.1 hname) fun h => h hkey

/-- A new commit is recorded. -/
theorem gitLoop_commit {c : String} {own : List Task} : ∀ {ps : List Project} {up : ScanState} {tasks : List Task},
    (ps.map Project.name).Nodup → w.gitLoop state ps up = .ok (tasks, up') → p ∈ ps →
      w.scanProject state p = .ok (own, some c) → lookup up' p.name "last_commit" = c
  | [], up, tasks, _, _, hp, _ => absurd hp List.not_mem_nil
  | p' :: ps, up, tasks, hdistinct, hok, hp, hscan => by
    obtain ⟨own', commit, more, hscan', hrest⟩ := gitLoop_cons hok
    rw [List.map_cons, List.nodup_cons] at hdistinct
    rcases List.mem_cons.mp hp with rfl | hp
    · rw [hscan] at hscan'
      cases hscan'
      rw [gitLoop_lookup hrest (.inl hdistinct.1), Option.elim_some, lookup_record, if_pos ⟨rfl, rfl⟩]
    · exact gitLoop_commit hdistinct.2 hrest hp hscan

/-- Without new commits nothing is recorded. -/
theorem gitLoop_same : ∀ {ps : List Project} {up : ScanState} {tasks : List Task},
    (∀ p ∈ ps, ¬ NewCommit state p) → w.gitLoop state ps up = .ok (tasks, up') → up' = up
  | [], up, tasks, _, hok => by
    cases hok
    rfl
  | p :: ps, up, tasks, hold, hok => by
    obtain ⟨own, commit, more, hscan, hrest⟩ := gitLoop_cons hok
    rw [gitLoop_same (fun p' hp' => hold p' (List.mem_cons_of_mem p hp')) hrest]
    rcases scanProject_cases hscan with ⟨rfl, -⟩ | ⟨c, -, -, hnew⟩
    · rfl
    · exact absurd hnew (hold p List.mem_cons_self)

/-- The loop raises exactly if one of the projects does. -/
theorem gitLoop_raises : ∀ {ps : List Project} {up : ScanState},
    (∃ e, w.gitLoop state ps up = .error e) ↔ ∃ p ∈ ps, ∃ e, w.scanProject state p = .error e
  | [], up => by
    constructor
    · rintro ⟨e, he⟩
      cases he
    · rintro ⟨p, hp, -⟩
      exact absurd hp List.not_mem_nil
  | p :: ps, up => by
    rw [World.gitLoop]
    cases hscan : w.scanProject state p with
    | error e => exact ⟨fun _ => ⟨p, List.mem_cons_self, e, hscan⟩, fun _ => ⟨e, rfl⟩⟩
    | ok scanned =>
      have hrest := @gitLoop_raises ps (scanned.2.elim up (record up p.name "last_commit"))
      have hloop : (∃ p' ∈ p :: ps, ∃ e, w.scanProject state p' = .error e) ↔
          ∃ p' ∈ ps, ∃ e, w.scanProject state p' = .error e := by
        refine ⟨fun ⟨p', hp', he⟩ => ?_, fun ⟨p', hp', he⟩ => ⟨p', List.mem_cons_of_mem p hp', he⟩⟩
        rcases List.mem_cons.mp hp' with rfl | hp'
        · obtain ⟨e, he⟩ := he
          exact absurd (hscan.symm.trans he) (by simp)
        · exact ⟨p', hp', he⟩
      rw [hloop, ← hrest]
      simp only [bind, Except.bind]
      cases w.gitLoop state ps (scanned.2.elim up (record up p.name "last_commit")) with
      | error e => exact ⟨fun _ => ⟨e, rfl⟩, fun _ => ⟨e, rfl⟩⟩
      | ok rest =>
        constructor
        · rintro ⟨e, he⟩
          cases he
        · rintro ⟨e, he⟩
          cases he

/-! ## Maintenance -/

theorem daily_recorded (hdue : w.dailyDue s.scan_state = true) :
    lookup (w.scanScheduledMaintenance s).2.scan_state "maintenance" "last_daily" ≠
      lookup s.scan_state "maintenance" "last_daily" := by
  have hne := (of_decide_eq_true hdue).2
  unfold World.scanScheduledMaintenance
  rw [hdue]
  cases w.weeklyDue s.scan_state with
  | false =>
    simp only [Bool.false_eq_true, if_true, if_false]
    rw [lookup_record, if_pos ⟨rfl, rfl⟩]
    exact hne.symm
  | true =>
    simp only [if_true]
    rw [lookup_record, if_neg (by decide), lookup_record, if_pos ⟨rfl, rfl⟩]
    exact hne.symm

theorem weekly_recorded (hdue : w.weeklyDue s.scan_state = true) :
    lookup (w.scanScheduledMaintenance s).2.scan_state "maintenance" "last_weekly" ≠
      lookup s.scan_state "maintenance" "last_weekly" := by
  have hne := (of_decide_eq_true hdue).2
  unfold World.scanScheduledMaintenance
  rw [hdue]
  simp only [if_true]
  rw [lookup_record, if_pos ⟨rfl, rfl⟩]
  exact hne.symm

/-- Commits stay recorded. -/
theorem maintenance_commit (name : String) :
    lookup (w.scanScheduledMaintenance s).2.scan_state name "last_commit" = lookup s.scan_state name "last_commit" := by
  have hkey : ∀ (state : ScanState) (key value : String), key ≠ "last_commit" →
      lookup (record state "maintenance" key value) name "last_commit" = lookup state name "last_commit" := by
    intro state key value hne
    rw [lookup_record, if_neg fun h => hne h.2.symm]
  unfold World.scanScheduledMaintenance
  cases w.dailyDue s.scan_state <;> cases w.weeklyDue s.scan_state <;>
    simp only [Bool.false_eq_true, if_true, if_false]
  · exact hkey _ _ _ (by decide)
  · exact hkey _ _ _ (by decide)
  · rw [hkey _ _ _ (by decide), hkey _ _ _ (by decide)]

theorem maintenance_same (hdaily : w.dailyDue s.scan_state = false) (hweekly : w.weeklyDue s.scan_state = false) :
    (w.scanScheduledMaintenance s).2 = s := by
  unfold World.scanScheduledMaintenance
  rw [hdaily, hweekly]
  rfl

/-! ## Generating work -/

/-- **What is saved** of a cycle: nothing, the commits, or the commits and then the maintenance. -/
theorem generateWork_saves (w : World) (s : Disk) :
    w.Stops s ∧ (w.generateWork s).2 = s ∨
      ¬ w.Stops s ∧ ∃ tasks scan_state, w.gitLoop s.scan_state w.projects s.scan_state = .ok (tasks, scan_state) ∧
        ((∃ e, w.scanExamforgePipeline = .error e) ∧ (w.generateWork s).2 = { s with scan_state := scan_state } ∨
          (¬ ∃ e, w.scanExamforgePipeline = .error e) ∧
            (w.generateWork s).2 = (w.scanScheduledMaintenance { s with scan_state := scan_state }).2) := by
  unfold World.generateWork
  by_cases hfull : w.max_pending_tasks ≤ s.pendingCount
  · rw [if_pos hfull]
    exact .inl ⟨.inl hfull, rfl⟩
  rw [if_neg hfull]
  cases halerts : w.alerts with
  | error e =>
    have hscan : w.scanPrometheusAlerts = .error e := by
      rw [World.scanPrometheusAlerts, halerts]
      rfl
    rw [hscan]
    exact .inl ⟨.inr (.inl ⟨e, halerts⟩), rfl⟩
  | ok alerts =>
    have hscan : w.scanPrometheusAlerts = .ok ((alerts.getD []).filterMap w.alertTask) := by
      rw [World.scanPrometheusAlerts, halerts]
      rfl
    rw [hscan]
    simp only [World.scanGitChanges]
    cases hgit : w.gitLoop s.scan_state w.projects s.scan_state with
    | error e => exact .inl ⟨.inr (.inr (gitLoop_raises.mp ⟨e, hgit⟩)), rfl⟩
    | ok scanned =>
      refine .inr ⟨?_, scanned.1, scanned.2, rfl, ?_⟩
      · rintro (hno | ⟨e, he⟩ | hraises)
        · exact hfull hno
        · exact absurd (halerts.symm.trans he) (by simp)
        · obtain ⟨e, he⟩ := (@gitLoop_raises w s.scan_state w.projects s.scan_state).mpr hraises
          exact absurd (hgit.symm.trans he) (by simp)
      · cases hexam : w.scanExamforgePipeline with
        | error e => exact .inl ⟨⟨e, rfl⟩, rfl⟩
        | ok questions =>
          refine .inr ⟨?_, rfl⟩
          rintro ⟨e, he⟩
          cases he

/-- **On a quiet disk** nothing is saved. -/
theorem generateWork_quiet (hquiet : w.Quiet s) : (w.generateWork s).2 = s := by
  rcases generateWork_saves w s with ⟨-, hsame⟩ | ⟨hruns, tasks, scan_state, hgit, hsaved⟩
  · exact hsame
  obtain ⟨hold, hrest⟩ := hquiet.resolve_left hruns
  obtain rfl := gitLoop_same hold hgit
  rcases hsaved with ⟨-, hsame⟩ | ⟨hreads, hsame⟩
  · exact hsame
  · obtain ⟨hdaily, hweekly⟩ := hrest.resolve_left hreads
    rw [hsame]
    exact maintenance_same hdaily hweekly

/-- Where the scan state stays the same, the disk is quiet. -/
theorem quiet_of_same (hsame : (w.generateWork s).2.scan_state = s.scan_state) : w.Quiet s := by
  rcases generateWork_saves w s with ⟨hstops, -⟩ | ⟨hruns, tasks, scan_state, hgit, hsaved⟩
  · exact .inl hstops
  have hcommits : ∀ name, lookup (w.generateWork s).2.scan_state name "last_commit" =
      lookup scan_state name "last_commit" := by
    intro name
    rcases hsaved with ⟨-, hsaved⟩ | ⟨-, hsaved⟩
    · rw [hsaved]
    · rw [hsaved, maintenance_commit]
  have hold : ∀ p ∈ w.projects, ¬ NewCommit s.scan_state p := by
    intro p hp hnew
    cases hscan : w.scanProject s.scan_state p with
    | error e => exact hruns (.inr (.inr ⟨p, hp, e, hscan⟩))
    | ok scanned =>
      rcases scanProject_cases (hscan.trans rfl) with ⟨-, hold⟩ | ⟨c, hc, hne, -⟩
      · exact hold hnew
      · have hrecorded := gitLoop_commit w.distinct hgit hp (hscan.trans (congrArg Except.ok (Prod.ext rfl hc)))
        rw [← hcommits, hsame] at hrecorded
        exact hne hrecorded.symm
  obtain rfl := gitLoop_same hold hgit
  refine .inr ⟨hold, ?_⟩
  rcases hsaved with ⟨hraises, -⟩ | ⟨-, hsaved⟩
  · exact .inl hraises
  · rw [hsaved] at hsame
    refine .inr ⟨Bool.eq_false_iff.mpr fun hdue => ?_, Bool.eq_false_iff.mpr fun hdue => ?_⟩
    · exact daily_recorded hdue (by rw [hsame])
    · exact weekly_recorded hdue (by rw [hsame])

/-! ## Creating what was proposed -/

theorem asked_createTask (fs : Files) (created_by created_at : String) (t : Task) :
    Asked t (createTask fs created_by created_at t).1 := by
  refine ⟨?_, ?_, ?_, ?_, ?_⟩ <;> simp [createTask, List.lookup_cons]

theorem id_createTask (fs : Files) (created_by created_at : String) (t : Task) :
    getStr (createTask fs created_by created_at t).1 "id" = some (taskName (maxId fs + 1).toNat) := by
  simp [createTask, getStr]

theorem createTasks_cons (n : Nat) (fs : Files) (t : Task) (proposed : List Task) :
    w.createTasks n fs (t :: proposed) =
      ((createTask fs w.hostname (w.created_at n) t).1 ::
        (w.createTasks (n + 1) (createTask fs w.hostname (w.created_at n) t).2 proposed).1,
        (w.createTasks (n + 1) (createTask fs w.hostname (w.created_at n) t).2 proposed).2) := rfl

/-- **New tasks**, one for each proposal. -/
theorem added_createTasks : ∀ (proposed : List Task) (n : Nat) (fs : Files),
    List.Forall₂ Asked proposed (w.createTasks n fs proposed).1 ∧
      Added fs (w.createTasks n fs proposed).2 (w.createTasks n fs proposed).1
  | [], n, fs => by
    refine ⟨.nil, fun task htask => ?_, fun st id _ => rfl, .nil⟩
    exact absurd htask List.not_mem_nil
  | t :: proposed, n, fs => by
    obtain ⟨hasked, hadded⟩ := added_createTasks proposed (n + 1) (createTask fs w.hostname (w.created_at n) t).2
    have hid := id_createTask fs w.hostname (w.created_at n) t
    have hnew := @content_new fs
    have hput : ∀ st id, content (createTask fs w.hostname (w.created_at n) t).2 st id =
        if st = .pending ∧ id = taskName (maxId fs + 1).toNat then some (createTask fs w.hostname (w.created_at n) t).1
        else content fs st id := fun st id => SwarmLib.content_put fs .pending st _ id _
    have htask := asked_createTask fs w.hostname (w.created_at n) t
    rw [createTasks_cons]
    generalize createTask fs w.hostname (w.created_at n) t = made at *
    generalize w.createTasks (n + 1) made.2 proposed = rest at *
    refine ⟨.cons htask hasked, fun task hmem => ?_, fun st id hother => ?_,
      .cons (fun task hmem => ?_) hadded.distinct⟩
    · rcases List.mem_cons.mp hmem with rfl | hmem
      · refine ⟨_, hid, hnew, ?_⟩
        rw [hadded.others, hput, if_pos ⟨rfl, rfl⟩]
        rintro task htask' ⟨-, hid'⟩
        obtain ⟨id', hid'', hnone, -⟩ := hadded.here task htask'
        rw [hid'] at hid''
        cases hid''
        rw [hput, if_pos ⟨rfl, rfl⟩] at hnone
        cases hnone
      · obtain ⟨id, hid', hnone, hthere⟩ := hadded.here task hmem
        rw [hput] at hnone
        split at hnone
        · cases hnone
        · exact ⟨id, hid', hnone, hthere⟩
    · rw [hadded.others st id fun task htask' => hother task (List.mem_cons_of_mem _ htask'), hput, if_neg]
      rintro ⟨hst, hname⟩
      exact hother made.1 List.mem_cons_self ⟨hst, hname ▸ hid⟩
    · obtain ⟨id, hid', hnone, -⟩ := hadded.here task hmem
      rw [hid, hid']
      intro heq
      cases heq
      rw [hput, if_pos ⟨rfl, rfl⟩] at hnone
      cases hnone

/-! ## The claim -/

theorem preview_eq (w : World) (s : Disk) : (w.generateAndCreate false s).2 = (w.generateWork s).2 := by
  unfold World.generateAndCreate
  cases hwork : w.generateWork s with
  | mk result s' => cases result <;> rfl

theorem failed_eq {apply : Bool} {e : PyError} (hfailed : (w.generateAndCreate apply s).1 = .error e) :
    (w.generateAndCreate apply s).2 = (w.generateWork s).2 := by
  unfold World.generateAndCreate at hfailed ⊢
  cases hwork : w.generateWork s with
  | mk result s' =>
    rw [hwork] at hfailed
    cases result with
    | error e' => rfl
    | ok proposed => cases apply <;> cases hfailed

/-- **Without effect**, exactly on a quiet disk. -/
theorem harmless_iff (w : World) (s : Disk) : w.Harmless s ↔ w.Quiet s := by
  constructor
  · intro h
    have hsame := h.preview
    rw [preview_eq] at hsame
    exact quiet_of_same (by rw [hsame])
  · intro hquiet
    have hsame := generateWork_quiet hquiet
    refine ⟨(preview_eq w s).trans hsame, fun proposed hlisted => ?_, fun apply hfull => ?_, fun apply e hfailed => ?_⟩
    · rw [preview_eq, hsame]
      obtain ⟨hasked, hadded⟩ := @added_createTasks w proposed 0 s.tasks
      refine ⟨_, _, ?_, hasked, hadded⟩
      unfold World.generateAndCreate at hlisted ⊢
      generalize w.generateWork s = work at *
      obtain ⟨result, s'⟩ := work
      obtain rfl : s' = s := hsame
      cases result with
      | error e => cases hlisted
      | ok proposed' =>
        cases hlisted
        rfl
    · have hwork : w.generateWork s = (.ok [], s) := if_pos hfull
      unfold World.generateAndCreate
      rw [hwork]
      cases apply <;> rfl
    · rw [failed_eq hfailed, hsame]

/-! ## A preview in the evening -/

/-- No projects, no alerts, and the hour of the daily tasks is past. -/
def evening : World where
  patterns :=
    ⟨fun _ => false, fun _ => false, fun _ => false, fun _ => false, fun _ => false, fun _ => none, fun _ => none⟩
  unicode := .ascii
  projects := []
  distinct := List.nodup_nil
  max_pending_tasks := 10
  daily_hour := 6
  weekly_day := 0
  alerts := .ok none
  examforge := .ok none
  now := 1700000000
  hostname := "a"
  created_at := fun _ => "2023-11-14T22:13:20Z"

/-- A new disk. -/
def newDisk : Disk := ⟨.empty, fun _ => .empty⟩

/-- The daily tasks are previewed, and are done for the day. -/
theorem daily_lost : ¬ evening.Harmless newDisk := by
  intro h
  have hpreview := h.preview
  rw [preview_eq] at hpreview
  have hdue : evening.dailyDue newDisk.scan_state = true := by decide +kernel
  rcases quiet_of_same (congrArg Disk.scan_state hpreview) with
    (hfull | ⟨e, he⟩ | ⟨p, hp, -⟩) | ⟨-, ⟨e, he⟩ | ⟨hdaily, -⟩⟩
  · exact absurd hfull (by decide)
  · cases he
  · exact absurd hp List.not_mem_nil
  · cases he
  · rw [hdue] at hdaily
    cases hdaily

end ClaudeSwarm.WorkGenerator
