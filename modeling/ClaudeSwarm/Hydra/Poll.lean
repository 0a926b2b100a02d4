import ClaudeSwarm.Hydra.Registry

/-!
# How the end of a background dispatch is reported

A `Watch` is the life of one background dispatch in a registry: it is registered, polled while its process
runs, polled for the first time after the process has ended, and after that any methods are called. The
record is the one `dispatch()` wrote before it returned; nothing writes an exit code into it, so it still
says −1 when the process ends, and the branch of `poll` for a pid that it has yet to learn reads no record
at all.

* `waiting_poll`, `silent_before`: a poll of a running process reports nothing; it may learn the pid.
* `settled_iff`: a method leaves a terminal status alone, unless it registers the dispatch anew.
* **`truthful_iff`**: the end is reported truthfully exactly when the exit code is not 0, the pid was known
  before the poll that found the process gone, and the dispatch is not registered anew.
* `success_reported_failed`: a dispatch that succeeded is reported as failed.
-/

namespace ClaudeSwarm.Hydra

open Data Registry

/-- The record of a background dispatch as `dispatch()` wrote it: the `exit_code` is the default of
`DispatchResult`. -/
def dispatchRecord : Record where
  status := .running
  exitCode := some (-1)
  completedAt := ""

/-- The state after some calls. -/
def calls (s : Tasks × Records) (cs : List (View × Method)) : Tasks × Records :=
  cs.foldl Method.step s

/-- The polls of a list of moments. -/
def polls (views : List View) : List (View × Method) := views.map fun view => (view, .poll)

/-- What a poll reports of a dispatch. -/
def reports (id : String) (s : Tasks × Records) (view : View) : List BackgroundTask :=
  reported id (poll view s.1 s.2).2.2

/-- The life of a background dispatch in a registry. The process `proc` ends with exit code `code` after the
polls `before` and before the poll `last`. What is seen of it: the pid given to `register` and the pid file
are its own or missing, and until it ends it is alive. -/
structure Watch where
  tasks : Tasks
  records : Records
  registration : Registration
  proc : Int
  code : Int
  registering : View
  before : List View
  last : View
  after : List (View × Method)
  proc_pos : 0 < proc
  record : records registration.dispatchId = some dispatchRecord
  given : registration.pid = -1 ∨ registration.pid = proc
  file : ∀ view ∈ last :: registering :: before, view.pidFile registration.dispatchId = none ∨
    view.pidFile registration.dispatchId = some (some proc)
  alive : ∀ view ∈ before, view.alive proc = true

namespace Watch

variable (d : Watch)

/-- The dispatch. -/
def id : String := d.registration.dispatchId

/-- After the registration. -/
def start : Tasks × Records := (register d.registering d.tasks d.registration, d.records)

/-- Before the first poll after the end of the process. -/
def atEnd : Tasks × Records := calls d.start (polls d.before)

/-- After that poll. -/
def ended : Tasks × Records := Method.step d.atEnd (d.last, .poll)

/-- What the exit code means. -/
def outcome : Status := if d.code = 0 then .completed else .failed

/-- The registry has learnt the pid when the process ends: it was given at the registration, or the pid
file was there then or at a poll. -/
def Known : Prop :=
  d.registration.pid ≠ -1 ∨ ∃ view ∈ d.registering :: d.before, view.pidFile d.id ≠ none

/-- The call registers the dispatch anew, although its entry says that it has ended. -/
def Renews (s : Tasks × Records) (m : Method) : Prop :=
  m.Registers d.id ∧ ∃ task, s.1.find? d.id = some task ∧ task.status.Terminal

/-- Some later call registers the dispatch anew. -/
def Renewed : Prop :=
  ∃ pre view m post, d.after = pre ++ (view, m) :: post ∧ d.Renews (calls d.ended pre) m

/-- A call leaves a terminal status alone, and a poll does not report it again. -/
def Settled (s : Tasks × Records) (view : View) (m : Method) : Prop :=
  ∀ task, s.1.find? d.id = some task → task.status.Terminal →
    (∀ task', (Method.step s (view, m)).1.find? d.id = some task' → task'.status = task.status) ∧
      (m = .poll → reports d.id s view = [])

/-- The end of the process is reported once, by the first poll after it, with the outcome; the record then
says the same; and from then on the status stays. -/
structure Truthful : Prop where
  silent : ∀ pre view post, d.before = pre ++ view :: post →
    reports d.id (calls d.start (polls pre)) view = []
  reported : (reports d.id d.atEnd d.last).map BackgroundTask.status = [d.outcome]
  recorded : (d.ended.2 d.id).map Record.status = some d.outcome
  settled : ∀ pre view m post, d.after = pre ++ (view, m) :: post →
    d.Settled (calls d.ended pre) view m

/-! ## While the process runs -/

/-- The entry is running, with the pid if it is `known`, and its record is as `dispatch()` wrote it. -/
structure Waiting (known : Prop) (s : Tasks × Records) (task : BackgroundTask) : Prop where
  entry : s.1.find? d.id = some task
  running : task.status = .running
  record : s.2 d.id = some dispatchRecord
  pid : known → task.pid = d.proc
  noPid : ¬ known → task.pid = -1

variable {d} {known : Prop} {s : Tasks × Records} {task : BackgroundTask} {view : View}

/-- **A poll while the process runs.** -/
theorem waiting_poll (h : d.Waiting known s task) (halive : view.alive d.proc = true)
    (hfile : view.pidFile d.id = none ∨ view.pidFile d.id = some (some d.proc)) :
    (∃ task', d.Waiting (known ∨ view.pidFile d.id ≠ none) (Method.step s (view, .poll)) task') ∧
      reports d.id s view = [] := by
  have hid : task.dispatchId = d.id := Table.find?_key h.entry
  have hcheck : checkPid view d.proc = true := by simp [checkPid, d.proc_pos, halive]
  obtain ⟨hfind, hrecord, hreported⟩ := @find?_poll view s.1 _ s.2 _ h.entry
  have hpoll : ∃ pid, pollTask view (s.2 d.id) task = ({ task with pid }, some dispatchRecord, false) ∧
      (known ∨ view.pidFile d.id ≠ none → pid = d.proc) ∧
      (¬ (known ∨ view.pidFile d.id ≠ none) → pid = -1) := by
    rw [h.record]
    by_cases hk : known
    · have hpid := h.pid hk
      refine ⟨task.pid, ?_, fun _ => hpid, fun hn => absurd (Or.inl hk) hn⟩
      rw [pollTask_of_pid view h.running (by rw [hpid]; exact d.proc_pos), hpid, hcheck, if_pos rfl, ← hpid]
    · have hpid := h.noPid hk
      rw [pollTask_of_no_pid view h.running (by rw [hpid]; decide), hid]
      rcases hfile with hf | hf
      · refine ⟨task.pid, ?_, fun hkn => absurd hf (hkn.resolve_left hk), fun _ => hpid⟩
        rw [hf, ← hid]
      · refine ⟨d.proc, ?_, fun _ => rfl, fun hn => absurd (Or.inr ?_) hn⟩
        · rw [hf]
          simp only [hcheck, if_true]
        · rw [hf]
          simp
  obtain ⟨pid, hpoll, hknown, hunknown⟩ := hpoll
  rw [hpoll] at hfind hrecord hreported
  refine ⟨⟨{ task with pid }, ⟨hfind, h.running, hrecord, hknown, hunknown⟩⟩, ?_⟩
  exact hreported

/-- The polls while the process runs. -/
theorem waiting_polls : ∀ {views : List View} {known : Prop} {s : Tasks × Records} {task : BackgroundTask},
    d.Waiting known s task → (∀ view ∈ views, view.alive d.proc = true ∧
      (view.pidFile d.id = none ∨ view.pidFile d.id = some (some d.proc))) →
    ∃ task', d.Waiting (known ∨ ∃ view ∈ views, view.pidFile d.id ≠ none) (calls s (polls views)) task'
  | [], _, _, task, h, _ => ⟨task, by simpa [polls, calls] using h⟩
  | view :: views, known, s, task, h, hviews => by
    have hview := hviews view List.mem_cons_self
    obtain ⟨⟨task₁, h₁⟩, -⟩ := waiting_poll h hview.1 hview.2
    obtain ⟨task', h'⟩ := waiting_polls h₁ fun v hv => hviews v (List.mem_cons_of_mem _ hv)
    refine ⟨task', ?_⟩
    have hiff : (known ∨ ∃ v ∈ view :: views, v.pidFile d.id ≠ none) ↔
        ((known ∨ view.pidFile d.id ≠ none) ∨ ∃ v ∈ views, v.pidFile d.id ≠ none) := by
      simp [or_assoc]
    rw [hiff]
    exact h'

variable (d)

/-- After the registration. -/
theorem waiting_start : ∃ task,
    d.Waiting (d.registration.pid ≠ -1 ∨ d.registering.pidFile d.id ≠ none) d.start task := by
  have hfile := d.file d.registering (by simp)
  refine ⟨registered d.registering d.registration, ⟨?_, rfl, d.record, fun hk => ?_, fun hk => ?_⟩⟩
  · exact (find?_setItem d.tasks d.id _).trans (if_pos rfl)
  · simp only [registered, registeredPid]
    rcases d.given with hg | hg
    · rw [if_pos hg]
      rw [hfile.resolve_left (hk.resolve_left (not_not.mpr hg))]
    · rw [if_neg (by have := d.proc_pos; omega), hg]
  · rw [not_or, not_not, not_not] at hk
    simp only [registered, registeredPid, if_pos hk.1]
    rw [show d.registering.pidFile d.registration.dispatchId = none from hk.2]

theorem view_before {view : View} (h : view ∈ d.before) : view.alive d.proc = true ∧
    (view.pidFile d.id = none ∨ view.pidFile d.id = some (some d.proc)) :=
  ⟨d.alive view h, d.file view (List.mem_cons_of_mem _ (List.mem_cons_of_mem _ h))⟩

/-- When the process ends. -/
theorem waiting_atEnd : ∃ task, d.Waiting d.Known d.atEnd task := by
  obtain ⟨task, h⟩ := d.waiting_start
  obtain ⟨task', h'⟩ := waiting_polls h fun _ => d.view_before
  refine ⟨task', ?_⟩
  have hiff : d.Known ↔ (d.registration.pid ≠ -1 ∨ d.registering.pidFile d.id ≠ none) ∨
      ∃ view ∈ d.before, view.pidFile d.id ≠ none := by
    simp [Known, or_assoc]
  rw [hiff]
  exact h'

/-- No poll reports a process that runs. -/
theorem silent_before (pre : List View) (view : View) (post : List View)
    (h : d.before = pre ++ view :: post) : reports d.id (calls d.start (polls pre)) view = [] := by
  obtain ⟨task, hstart⟩ := d.waiting_start
  obtain ⟨task', hpre⟩ := @waiting_polls _ pre _ _ _ hstart fun v hv =>
    d.view_before (h ▸ List.mem_append_left _ hv)
  have hview := d.view_before (h ▸ List.mem_append_right pre List.mem_cons_self : view ∈ d.before)
  exact (waiting_poll hpre hview.1 hview.2).2

/-! ## The first poll after the end -/

/-- The poll finds that the process is gone, and reports it and writes the record as it should. -/
def Told : Prop :=
  (reports d.id d.atEnd d.last).map BackgroundTask.status = [d.outcome] ∧
    (d.ended.2 d.id).map Record.status = some d.outcome

/-- **The first poll after the end.** What it reports of a pid that it knew is a failure; of a pid that it
finds in the file it reports success and leaves the record. -/
theorem told_iff : d.Told ↔ d.code ≠ 0 ∧ d.Known ∧ d.last.alive d.proc = false := by
  obtain ⟨task, h⟩ := d.waiting_atEnd
  have hid : task.dispatchId = d.id := Table.find?_key h.entry
  have hfile := d.file d.last List.mem_cons_self
  obtain ⟨-, hrecord, hreported⟩ := @find?_poll d.last d.atEnd.1 _ d.atEnd.2 _ h.entry
  rw [h.record] at hrecord hreported
  have hended : d.ended.2 d.id = (pollTask d.last (some dispatchRecord) task).2.1 := hrecord
  unfold Told reports
  rw [hended, hreported]
  by_cases hk : d.Known
  · have hpid := h.pid hk
    rw [pollTask_of_pid d.last h.running (by rw [hpid]; exact d.proc_pos), hpid]
    cases halive : d.last.alive d.proc with
    | true => simp [checkPid, d.proc_pos, halive]
    | false => simp [checkPid, halive, finish, finishRecord, dispatchRecord, outcome, hk]
  · have hpid := h.noPid hk
    rw [pollTask_of_no_pid d.last h.running (by rw [hpid]; decide), hid]
    rcases hfile with hf | hf
    · rw [show d.last.pidFile d.id = none from hf]
      simp [hk]
    · rw [show d.last.pidFile d.id = some (some d.proc) from hf]
      cases hc : checkPid d.last d.proc with
      | true => simp [hc, hk]
      | false =>
        -- the record still says that the dispatch is running
        have hstatus : Status.running ≠ d.outcome := by
          unfold outcome
          split <;> decide
        simp [hc, hk, dispatchRecord, hstatus]

/-! ## Later calls -/

variable {d}

/-- **Later calls.** Nothing but a registration changes a terminal status. -/
theorem settled_iff (s : Tasks × Records) (view : View) (m : Method) :
    d.Settled s view m ↔ ¬ d.Renews s m := by
  constructor
  · rintro hsettled ⟨hreg, task, hfind, hterm⟩
    cases m with
    | poll | cancel | cleanup => exact hreg
    | register r =>
      have hset := (find?_setItem s.1 d.id (registered view r)).trans
        (if_pos (show d.id = (registered view r).dispatchId from hreg.symm))
      have hstatus := (hsettled task hfind hterm).1 _ hset
      rw [← hstatus] at hterm
      exact hterm
  · intro hno task hfind hterm
    have hrunning : task.status ≠ .running := fun hs => by
      rw [hs] at hterm
      exact hterm
    cases m with
    | register r =>
      have hne : d.id ≠ (registered view r).dispatchId := fun he => hno ⟨he.symm, task, hfind, hterm⟩
      refine ⟨fun task' hfind' => ?_, fun hm => by cases hm⟩
      have hset := (find?_setItem s.1 d.id (registered view r)).trans (if_neg hne)
      rw [Option.some.inj (hfind'.symm.trans (hset.trans hfind))]
    | poll =>
      obtain ⟨hpoll, -, hreported⟩ := @find?_poll view s.1 _ s.2 _ hfind
      rw [pollTask_of_not_running view hrunning] at hpoll hreported
      refine ⟨fun task' hfind' => ?_, fun _ => hreported⟩
      rw [Option.some.inj (hfind'.symm.trans hpoll)]
    | cancel dispatch_id =>
      refine ⟨fun task' hfind' => ?_, fun hm => by cases hm⟩
      have hsame : (cancel view s.1 dispatch_id).1.find? d.id = some task :=
        find?_cancel_of_not_running view s.1 d.id dispatch_id hfind hrunning
      rw [Option.some.inj (hfind'.symm.trans hsame)]
    | cleanup max_age_hours =>
      refine ⟨fun task' hfind' => ?_, fun hm => by cases hm⟩
      have hclean := (find?_cleanup view s.1 d.id max_age_hours).symm.trans hfind'
      split at hclean
      · cases hclean
      · rw [Option.some.inj (hfind.symm.trans hclean)]

variable (d)

/-- **The end of a background dispatch is reported truthfully** exactly when its exit code is not 0, the pid
was known before the poll that found it gone, and the dispatch is not registered anew. -/
theorem truthful_iff : d.Truthful ↔
    (d.code ≠ 0 ∧ d.Known ∧ d.last.alive d.proc = false) ∧ ¬ d.Renewed := by
  rw [← d.told_iff]
  constructor
  · intro h
    refine ⟨⟨h.reported, h.recorded⟩, ?_⟩
    rintro ⟨pre, view, m, post, hafter, hrenews⟩
    exact (settled_iff _ view m).mp (h.settled pre view m post hafter) hrenews
  · rintro ⟨⟨hreported, hrecorded⟩, hno⟩
    refine ⟨d.silent_before, hreported, hrecorded, fun pre view m post hafter => ?_⟩
    exact (settled_iff _ view m).mpr fun hrenews => hno ⟨pre, view, m, post, hafter, hrenews⟩

/-- A dispatch that succeeded, registered with its pid. -/
def succeeded : Watch :=
  let view : View :=
    { nowText := "2026-01-01T00:00:00Z", now := 0, mktime := fun _ => none, alive := fun _ => false,
      signal := fun _ => .gone, pidFile := fun _ => some (some 7) }
  { tasks := .empty
    records := fun _ => some dispatchRecord
    registration := ⟨"dispatch-0-h", "h", "", none, "sonnet", 7, ""⟩
    proc := 7
    code := 0
    registering := view
    before := []
    last := view
    after := []
    proc_pos := by decide
    record := rfl
    given := Or.inr rfl
    file := fun v hv => Or.inr (by
      rcases List.mem_cons.mp hv with rfl | hv
      · rfl
      · rw [List.mem_singleton.mp hv])
    alive := fun v hv => absurd hv List.not_mem_nil }

theorem reports_succeeded : (reports succeeded.id succeeded.atEnd succeeded.last).map
    BackgroundTask.status = [.failed] := by
  decide +kernel

/-- It is reported as failed. -/
theorem success_reported_failed : ¬ ∀ d : Watch, d.Truthful := by
  intro h
  have hreported := (h succeeded).reported
  rw [reports_succeeded] at hreported
  cases hreported

end Watch

end ClaudeSwarm.Hydra
