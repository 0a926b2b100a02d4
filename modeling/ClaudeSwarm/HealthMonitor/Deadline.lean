import ClaudeSwarm.Cascade.Sqlite
import ClaudeSwarm.Data.Calendar
import ClaudeSwarm.Python.Repr
import ClaudeSwarm.SwarmLib.Retries
import Mathlib.Data.String.Basic

/-!
# Overdue tasks

Model of the rule `task_deadline_exceeded` in a cycle of `src/health_monitor.py`: `_check_task_deadline` finds the
overdue tasks, `_handle_triggered` decides whether to act on each, `_build_action_kwargs` makes the arguments of
`RemediationEngine.execute`, and that calls `requeue_task`, which is modelled in `SwarmLib.Remediations`. Each item is
handled at its own reading of the clock. The texts of mails and messages, which `requeue_task` does not read, are left
out, and what the other remediations do is a parameter.

* `execute_deadline`: no task gets into the arguments, so nothing is requeued.
* `runCycle_deadline`: what a cycle does to the monitor. The first item's action keeps the rule in its cooldown.
* **`requeued_iff`**: the overdue tasks are dealt with exactly if none of them has retries left, and the rule is open
  when the item of each comes up.
* `task_left_claimed`: a task that is not.
-/

namespace ClaudeSwarm.HealthMonitor

open Data SwarmLib
open Cascade.Sqlite (truthy)
open Python (PyError Time FloatFmt)

/-! ## The code -/

/-- A rule. -/
structure Rule where
  name : String
  check : String
  severity : String
  auto_remediate : Bool
  action : String
  cooldown_minutes : Time
  escalate : String

/-- The rule for deadlines in `RULES`. -/
def taskDeadlineExceeded : Rule where
  name := "task_deadline_exceeded"
  check := "task_deadline"
  severity := "high"
  auto_remediate := true
  action := "requeue_task"
  cooldown_minutes := 5
  escalate := ""

/-- What `datetime.fromisoformat` reads: the date and time, as if it were in UTC, and its offset. -/
structure Stamp where
  wall : Time
  offset : Time
  deriving DecidableEq

/-- The moment. -/
def Stamp.instant (stamp : Stamp) : Time := stamp.wall - stamp.offset

/-- An item that triggers the rule. -/
structure Item where
  host : String
  task_id : Json
  claimed_at : String
  estimated_minutes : Json
  retries : Json
  deadline_exceeded_by_minutes : Int

/-- An event of the log; its description is that the rule was triggered by `item`. -/
structure HealthEvent where
  timestamp : String
  rule_name : String
  host : String
  severity : String
  item : Item
  action_taken : String
  action_result : String
  escalated_to : String

/-- `_cooldown_state` and the event log. -/
structure Monitor where
  cooldown : String × String → Option Time
  events : List HealthEvent

/-- The arguments of `RemediationEngine.execute`, with its defaults. -/
structure Kwargs where
  action : String
  host : String := ""
  service : String := ""
  task : String := ""

/-- What is outside: the host's name, the formats of numbers and times, the text of an exception, and the remediations
that are not modelled. -/
structure Outside where
  hostname : String
  float : FloatFmt
  fromisoformat : String → Option Stamp
  nowIso : Time → String
  str : PyError → String
  remediation : Kwargs → P (Bool × String)
  sendAlertEmail : P (Bool × String)

variable (out : Outside)

/-- A number; `none` is the `TypeError` of comparing it. -/
def number : Json → Option Time
  | .int i => some i
  | .bool b => some (if b then 1 else 0)
  | .float text => out.float.float text
  | _ => none

/-- The second after the last that a `datetime` can be. -/
def maxTime : Time := 253402300800

/-- `task.get(key, default)`. -/
def get (task : Doc) (key : String) (default : Json) : Json := (task.lookup key).getD default

/-- The loop body of `_check_task_deadline`; `none` is an exception that is not caught. -/
def examine (now : Time) (stem : String) (task : Doc) : Option (Option Item) :=
  let claimed_at := get task "claimed_at" (.str "")
  let estimated_minutes := get task "estimated_minutes" (.int 0)
  if !truthy claimed_at then some none
  else
    match number out estimated_minutes with
    | none => none
    | some minutes =>
      if minutes ≤ 0 then some none
      else
        match claimed_at with
        | .str claimed_at_str =>
          match out.fromisoformat claimed_at_str with
          | none => some none
          | some claimed_dt =>
            let deadline := claimed_dt.wall + minutes * 2 * 60
            -- an `OverflowError`
            if maxTime ≤ deadline then none
            else if deadline < now then
              some (some {
                host := out.hostname
                task_id := get task "id" (.str stem)
                claimed_at := claimed_at_str
                estimated_minutes
                retries := get task "_retries" (.int 0)
                deadline_exceeded_by_minutes := Python.truncate ((now - deadline) / 60) })
            else some none
        -- it has no `replace`: an `AttributeError`, which is caught
        | _ => some none

/-- `_check_task_deadline` on the files of `claimed/`. -/
def checkTaskDeadline (now : Time) : List (String × Doc) → Option (List Item)
  | [] => some []
  | (stem, task) :: rest => do
    let triggered ← examine out now stem task
    let items ← checkTaskDeadline now rest
    return triggered.toList ++ items

/-- `EventLog.last_action_time`. -/
def lastActionTime (events : List HealthEvent) (rule_name host : String) : Option String :=
  (events.filter fun e => e.rule_name = rule_name ∧ (host = "" ∨ e.host = host) ∧ e.action_taken ≠ "").foldl
    (fun last e => if last.any fun t => e.timestamp ≤ t then last else some e.timestamp) none

/-- `_in_cooldown`. -/
def inCooldown (m : Monitor) (rule : Rule) (host : String) (now : Time) : Bool :=
  if rule.cooldown_minutes ≤ 0 then false
  else
    let last := (m.cooldown (rule.name, host)).or <|
      (lastActionTime m.events rule.name host).bind fun last_str =>
        if last_str = "" then none else (out.fromisoformat last_str).map Stamp.instant
    last.any fun last => (now - last) / 60 < rule.cooldown_minutes

/-- `_build_action_kwargs`. An item of this rule has no labels. -/
def buildActionKwargs (rule : Rule) (item : Item) : Kwargs := { action := rule.action, host := item.host }

/-- `RemediationEngine.execute`. -/
def execute (kwargs : Kwargs) : P (Bool × String) :=
  if kwargs.action = "requeue_task" then requeueTask out.str kwargs.task else out.remediation kwargs

/-- What is done about an item, and whether that is recorded for the cooldown. -/
structure Handled where
  recorded : Bool
  action_taken : String
  action_result : String
  escalated_to : String

/-- The action on an item of a rule that is not in its cooldown. -/
def act (rule : Rule) (item : Item) : P Handled :=
  let run : P Handled := do
    let (success, detail) ← execute out (buildActionKwargs rule item)
    let action_result := (if success then "OK" else "FAIL") ++ ": " ++ detail
    if rule.auto_remediate ∧ !success ∧ rule.escalate = "email" then do
      let (_, email_detail) ← out.sendAlertEmail
      return ⟨true, rule.action, action_result, "email: " ++ email_detail⟩
    else return ⟨true, rule.action, action_result, ""⟩
  run.catch_ fun exc =>
    if rule.auto_remediate then
      match exc with
      | .valueError msg => return ⟨false, rule.action, "BLOCKED: " ++ msg, ""⟩
      | exc => .raise exc
    else return ⟨false, rule.action, "FAIL: " ++ out.str exc, ""⟩

/-- `_handle_triggered`. -/
def handleTriggered (rule : Rule) (item : Item) (now : Time) (m : Monitor) : P Monitor := do
  let handled ←
    if rule.action ≠ "" ∧ !inCooldown out m rule item.host now then act out rule item
    else .ret ⟨false, "", "skipped (cooldown or no action configured)", ""⟩
  let cooldown :=
    if handled.recorded then Function.update m.cooldown (rule.name, item.host) (some now) else m.cooldown
  return ⟨cooldown, ⟨out.nowIso now, rule.name, item.host, rule.severity, item, handled.action_taken,
    handled.action_result, handled.escalated_to⟩ :: m.events⟩

/-- The items of a rule, one after the other; an exception leaves out the rest. -/
def handleItems (rule : Rule) (clock : Nat → Time) : Nat → List Item → Monitor → P Monitor
  | _, [], m => return m
  | i, item :: rest, m => do
    match ← (handleTriggered out rule item (clock i) m >>= fun m => .ret (some m)).catch_ fun _ => .ret none with
    | none => return m
    | some m => handleItems rule clock (i + 1) rest m

/-- A cycle, as to one rule: the check at `now`, and the items at the readings of `clock`. -/
def runCycle (rule : Rule) (now : Time) (clock : Nat → Time) (claimed : List (String × Doc)) (m : Monitor) :
    P Monitor :=
  match checkTaskDeadline out now claimed with
  | none => return m
  | some items => handleItems out rule clock 0 items m

/-! ## What a cycle should do -/

/-- When a task was claimed, and its estimate. -/
def claim (task : Doc) : Option (Stamp × Time) :=
  match get task "claimed_at" (.str ""), number out (get task "estimated_minutes" (.int 0)) with
  | .str claimed_at, some minutes =>
    if claimed_at = "" then none else (out.fromisoformat claimed_at).map fun claimed_dt => (claimed_dt, minutes)
  | _, _ => none

/-- The id of the task of a file. -/
def taskId (file : String × Doc) : Json := get file.2 "id" (.str file.1)

/-- The claim of the task is older than twice its estimate. -/
def Overdue (now : Time) (task : Doc) : Prop :=
  ∃ claimed_dt minutes, claim out task = some (claimed_dt, minutes) ∧ 0 < minutes ∧
    claimed_dt.instant + minutes * 2 * 60 < now

/-- One of the events says that the action on the task failed. -/
def Reported (events : List HealthEvent) (task_id : Json) : Prop :=
  ∃ e ∈ events, e.item.task_id = task_id ∧ ∃ detail, e.action_result = "FAIL: " ++ detail

/-- Between the two states the overdue tasks were dealt with. -/
structure Requeued (now : Time) (m m' : Monitor) (fs fs' : Files) : Prop where
  moved : ∀ stem task retries, content fs .claimed stem = some task → Overdue out now task →
    retryCount task = some retries → retries < 3 →
      content fs' .claimed stem = none ∧
        ∃ task', content fs' .pending stem = some task' ∧ retryCount task' = some (retries + 1)
  exhausted : ∀ stem task retries, content fs .claimed stem = some task → Overdue out now task →
    retryCount task = some retries → 3 ≤ retries →
      content fs' .claimed stem = some task ∧
        ∃ new, m'.events = new ++ m.events ∧ Reported new (taskId (stem, task))

/-- The check takes the task for overdue: it reads the time without its offset. -/
def late (now : Time) (task : Doc) : Bool :=
  (claim out task).any fun (claimed_dt, minutes) => 0 < minutes && claimed_dt.wall + minutes * 2 * 60 < now

/-- The check fails at the task: it compares what is no number, or the deadline is after the last date. -/
def breaks (task : Doc) : Bool :=
  truthy (get task "claimed_at" (.str "")) && (number out (get task "estimated_minutes" (.int 0))).isNone ||
    (claim out task).any fun (claimed_dt, minutes) =>
      0 < minutes && maxTime ≤ claimed_dt.wall + minutes * 2 * 60

/-- The time of the last action once item `i` was handled, where the rule was open at first. -/
def lastAction (clock : Nat → Time) : Nat → Time
  | 0 => clock 0
  | i + 1 => if clock (i + 1) - lastAction clock i < 300 then lastAction clock i else clock (i + 1)

/-- The rule is not in its cooldown when item `i` comes up. -/
def IsOpen (clock : Nat → Time) : Nat → Prop
  | 0 => True
  | i + 1 => 300 ≤ clock (i + 1) - lastAction clock i

/-- No overdue task has retries left; and if there is one, no file breaks the check, and the rule is open when a late
task of its id comes up. -/
structure Spared (now : Time) (clock : Nat → Time) (fs : Files) : Prop where
  exhausted : ∀ stem task retries, content fs .claimed stem = some task → Overdue out now task →
    retryCount task = some retries → 3 ≤ retries
  reported : ∀ stem task retries, content fs .claimed stem = some task → Overdue out now task →
    retryCount task = some retries →
      (∀ file ∈ (fs .claimed).rows, breaks out file.2 = false) ∧
        ∃ before file after, (fs .claimed).rows = before ++ file :: after ∧ late out now file.2 = true ∧
          taskId file = taskId (stem, task) ∧ IsOpen clock (before.countP fun file => late out now file.2)

variable {out} {now : Time} {clock : Nat → Time}

/-! ## The check -/

/-- What the loop body makes of a file. -/
inductive Examined (out : Outside) (now : Time) (file : String × Doc) : Option (Option Item) → Prop
  | breaks (h : breaks out file.2 = true) : Examined out now file none
  | passes (h : breaks out file.2 = false) (hlate : late out now file.2 = false) : Examined out now file (some none)
  | triggers (item : Item) (h : breaks out file.2 = false) (hlate : late out now file.2 = true)
      (hhost : item.host = out.hostname) (hid : item.task_id = taskId file) : Examined out now file (some (some item))

theorem examined (stem : String) (task : Doc) : Examined out now (stem, task) (examine out now stem task) := by
  have hnone : claim out task = none → late out now task = false := fun h => by rw [late, h]; rfl
  unfold examine
  simp only
  cases htruthy : truthy (get task "claimed_at" (.str "")) with
  | false =>
    have hclaim : claim out task = none := by
      unfold claim
      split
      · rename_i claimed_at _ hstr _
        rw [hstr] at htruthy
        rw [if_pos (by simpa [truthy] using htruthy)]
      · rfl
    exact .passes (by simp [breaks, hclaim, htruthy]) (hnone hclaim)
  | true =>
    simp only [Bool.not_true, Bool.false_eq_true, if_false]
    cases hnumber : number out (get task "estimated_minutes" (.int 0)) with
    | none => exact .breaks (by simp [breaks, htruthy, hnumber])
    | some minutes =>
      have hbreaks : breaks out task = (claim out task).any fun (claimed_dt, minutes) =>
          0 < minutes && maxTime ≤ claimed_dt.wall + minutes * 2 * 60 := by
        simp [breaks, hnumber]
      dsimp only
      -- the branches by what was claimed, and whether the estimate counts
      have hpasses : claim out task = none → Examined out now (stem, task) (some none) := fun h =>
        .passes (by rw [hbreaks, h]; rfl) (hnone h)
      cases hstr : get task "claimed_at" (.str "") with
      | str claimed_at =>
        have hne : claimed_at ≠ "" := by
          rw [hstr] at htruthy
          simpa [truthy] using htruthy
        have hclaim : claim out task = (out.fromisoformat claimed_at).map fun claimed_dt => (claimed_dt, minutes) := by
          rw [claim, hstr, hnumber]
          exact if_neg hne
        cases hstamp : out.fromisoformat claimed_at with
        | none =>
          rw [hstamp] at hclaim
          simp only [hstamp]
          split <;> exact hpasses hclaim
        | some claimed_dt =>
          rw [hstamp, Option.map_some] at hclaim
          have hlate : late out now task = decide (0 < minutes ∧ claimed_dt.wall + minutes * 2 * 60 < now) := by
            simp [late, hclaim]
          have hbreaks : breaks out task = decide (0 < minutes ∧ maxTime ≤ claimed_dt.wall + minutes * 2 * 60) := by
            simp [hbreaks, hclaim]
          by_cases hminutes : minutes ≤ 0
          · rw [if_pos hminutes]
            exact .passes (by simp [hbreaks, not_lt.mpr hminutes]) (by simp [hlate, not_lt.mpr hminutes])
          · rw [if_neg hminutes]
            simp only [hstamp]
            by_cases hmax : maxTime ≤ claimed_dt.wall + minutes * 2 * 60
            · rw [if_pos hmax]
              exact .breaks (by simp [hbreaks, hmax, not_le.mp hminutes])
            · rw [if_neg hmax]
              by_cases hdue : claimed_dt.wall + minutes * 2 * 60 < now
              · rw [if_pos hdue]
                exact .triggers _ (by simp [hbreaks, not_le.mp hmax])
                  (by simp [hlate, hdue, not_le.mp hminutes]) rfl rfl
              · rw [if_neg hdue]
                exact .passes (by simp [hbreaks, not_le.mp hmax]) (by simp [hlate, not_lt.mp hdue])
      | _ =>
        have hclaim : claim out task = none := by
          rw [claim, hstr]
        split <;> exact hpasses hclaim

/-- A file that breaks the check leaves no items. -/
theorem checkTaskDeadline_breaks {claimed : List (String × Doc)} {file : String × Doc} (hfile : file ∈ claimed)
    (h : breaks out file.2 = true) : checkTaskDeadline out now claimed = none := by
  induction claimed with
  | nil => cases hfile
  | cons first rest ih =>
    obtain ⟨stem, task⟩ := first
    rw [checkTaskDeadline]
    have hexamined := @examined out now stem task
    rcases List.mem_cons.mp hfile with rfl | hfile
    · generalize examine out now stem task = result at hexamined
      cases hexamined with
      | breaks => rfl
      | passes hnot => rw [h] at hnot; cases hnot
      | triggers item hnot => rw [h] at hnot; cases hnot
    · rw [ih hfile]
      cases examine out now stem task <;> rfl

/-- Otherwise there is an item for each late task. -/
theorem checkTaskDeadline_spec : ∀ {claimed : List (String × Doc)}, (∀ file ∈ claimed, breaks out file.2 = false) →
    ∃ items, checkTaskDeadline out now claimed = some items ∧ (∀ item ∈ items, item.host = out.hostname) ∧
      items.map Item.task_id = (claimed.filter fun file => late out now file.2).map taskId
  | [], _ => ⟨[], rfl, fun _ h => (List.not_mem_nil h).elim, rfl⟩
  | (stem, task) :: rest, h => by
    obtain ⟨items, hitems, hhosts, hids⟩ :=
      checkTaskDeadline_spec fun file hfile => h file (List.mem_cons_of_mem _ hfile)
    have hnot := h (stem, task) List.mem_cons_self
    have hexamined := @examined out now stem task
    rw [checkTaskDeadline, hitems]
    generalize examine out now stem task = result at hexamined
    cases hexamined with
    | breaks hbreaks =>
      rw [hnot] at hbreaks
      cases hbreaks
    | passes _ hlate =>
      refine ⟨items, rfl, hhosts, ?_⟩
      rw [List.filter_cons_of_neg (by simp [hlate]), hids]
    | triggers item _ hlate hhost hid =>
      refine ⟨item :: items, rfl, fun other hother => ?_, ?_⟩
      · rcases List.mem_cons.mp hother with rfl | hother
        · exact hhost
        · exact hhosts other hother
      · rw [List.filter_cons_of_pos (by simp [hlate]), List.map_cons, List.map_cons, hids, hid]

/-! ## The items -/

/-- No task gets into the arguments. -/
theorem execute_deadline (item : Item) : execute out (buildActionKwargs taskDeadlineExceeded item) =
    .ret (false, "No task_id provided") := by
  simp [execute, buildActionKwargs, taskDeadlineExceeded, requeueTask]

theorem act_deadline (item : Item) : act out taskDeadlineExceeded item =
    .ret ⟨true, "requeue_task", "FAIL: No task_id provided", ""⟩ := by
  unfold act
  rw [execute_deadline]
  rfl

/-- The event of an item. -/
def eventOf (out : Outside) (item : Item) (now : Time) (isOpen : Bool) : HealthEvent :=
  ⟨out.nowIso now, "task_deadline_exceeded", item.host, "high", item, if isOpen then "requeue_task" else "",
    if isOpen then "FAIL: No task_id provided" else "skipped (cooldown or no action configured)", ""⟩

/-- The monitor after an item. -/
def handled (out : Outside) (item : Item) (now : Time) (m : Monitor) : Monitor :=
  let isOpen := !inCooldown out m taskDeadlineExceeded item.host now
  ⟨if isOpen then Function.update m.cooldown ("task_deadline_exceeded", item.host) (some now) else m.cooldown,
    eventOf out item now isOpen :: m.events⟩

theorem handleTriggered_deadline (item : Item) (now : Time) (m : Monitor) :
    handleTriggered out taskDeadlineExceeded item now m = .ret (handled out item now m) := by
  unfold handleTriggered handled eventOf
  cases inCooldown out m taskDeadlineExceeded item.host now with
  | true => rfl
  | false =>
    rw [if_pos (by decide), act_deadline]
    rfl

/-- The monitor after all items. -/
def handledAll (out : Outside) (clock : Nat → Time) : Nat → List Item → Monitor → Monitor
  | _, [], m => m
  | i, item :: rest, m => handledAll out clock (i + 1) rest (handled out item (clock i) m)

theorem handleItems_deadline {items : List Item} : ∀ {i : Nat} {m : Monitor},
    handleItems out taskDeadlineExceeded clock i items m = .ret (handledAll out clock i items m) := by
  induction items with
  | nil => exact rfl
  | cons item rest ih =>
    intro i m
    rw [handleItems, handleTriggered_deadline]
    exact ih

/-- What a cycle does to the monitor; it touches no file. -/
theorem runCycle_deadline {claimed : List (String × Doc)} {m : Monitor} :
    runCycle out taskDeadlineExceeded now clock claimed m =
      .ret ((checkTaskDeadline out now claimed).elim m fun items => handledAll out clock 0 items m) := by
  unfold runCycle
  cases checkTaskDeadline out now claimed with
  | none => rfl
  | some items => exact handleItems_deadline

/-! ## The cooldown -/

variable {m : Monitor} {i : Nat} {item : Item} {items : List Item} {task_id : Json}

/-- After an action the rule is open again once five minutes have passed. -/
theorem inCooldown_eq {last now : Time} {host : String}
    (h : m.cooldown ("task_deadline_exceeded", host) = some last) :
    inCooldown out m taskDeadlineExceeded host now = decide (now - last < 300) := by
  have hlast : (now - last) / 60 < 5 ↔ now - last < 300 := by
    rw [div_lt_iff₀ (by norm_num)]
    norm_num
  simp only [inCooldown, taskDeadlineExceeded, h, Option.some_or, Option.any_some, hlast]
  rw [if_neg (by norm_num)]

theorem reported_cons {e : HealthEvent} {events : List HealthEvent} : Reported (events ++ [e]) task_id ↔
    Reported events task_id ∨ e.item.task_id = task_id ∧ ∃ detail, e.action_result = "FAIL: " ++ detail := by
  unfold Reported
  simp only [List.mem_append, List.mem_singleton, or_and_right, exists_or, exists_eq_left]

/-- The event of an item reports a failure if the rule was open. -/
theorem failed_eventOf {now : Time} {isOpen : Bool} :
    (∃ detail, (eventOf out item now isOpen).action_result = "FAIL: " ++ detail) ↔ isOpen = true := by
  cases isOpen with
  | true => exact ⟨fun _ => rfl, fun _ => ⟨"No task_id provided", rfl⟩⟩
  | false =>
    refine ⟨?_, fun h => by cases h⟩
    rintro ⟨detail, h⟩
    simp [eventOf, ← String.toList_inj] at h

/-- One item reports its failure if the rule is open, and the rest as from the next. -/
theorem reported_handledAll_cons {now : Time} (hnow : now = clock i) {isOpen : Bool}
    (hopen : isOpen = !inCooldown out m taskDeadlineExceeded item.host now)
    (hrest : ∃ new, (handledAll out clock (i + 1) items (handled out item now m)).events =
      new ++ (handled out item now m).events ∧ ∀ task_id, Reported new task_id ↔
        ∃ j item, items[j]? = some item ∧ item.task_id = task_id ∧ IsOpen clock (i + 1 + j)) :
    ∃ new, (handledAll out clock i (item :: items) m).events = new ++ m.events ∧ ∀ task_id, Reported new task_id ↔
      item.task_id = task_id ∧ isOpen = true ∨
        ∃ j item, items[j]? = some item ∧ item.task_id = task_id ∧ IsOpen clock (i + 1 + j) := by
  obtain ⟨new, hnew, hreported⟩ := hrest
  refine ⟨new ++ [eventOf out item now isOpen], ?_, fun task_id => ?_⟩
  · rw [handledAll, ← hnow, hnew, hopen, List.append_assoc]
    rfl
  · rw [reported_cons, failed_eventOf, hreported, or_comm]
    rfl

/-- The items after the first. -/
theorem reported_handledAll : ∀ {items : List Item} {i : Nat} {m : Monitor},
    (∀ item ∈ items, item.host = out.hostname) →
    m.cooldown ("task_deadline_exceeded", out.hostname) = some (lastAction clock i) →
    ∃ new, (handledAll out clock (i + 1) items m).events = new ++ m.events ∧ ∀ task_id, Reported new task_id ↔
      ∃ j item, items[j]? = some item ∧ item.task_id = task_id ∧ IsOpen clock (i + 1 + j)
  | [], i, m, _, _ => by
    refine ⟨[], rfl, fun task_id => iff_of_false ?_ ?_⟩
    · rintro ⟨e, he, -⟩
      cases he
    · rintro ⟨j, item, hj, -⟩
      cases hj
  | item :: rest, i, m, hhosts, hlast => by
    have hhost := hhosts item List.mem_cons_self
    have hcooldown : inCooldown out m taskDeadlineExceeded item.host (clock (i + 1)) =
        decide (clock (i + 1) - lastAction clock i < 300) := by
      rw [hhost]
      exact inCooldown_eq hlast
    have hnext : (handled out item (clock (i + 1)) m).cooldown ("task_deadline_exceeded", out.hostname) =
        some (lastAction clock (i + 1)) := by
      unfold handled
      rw [hcooldown, lastAction]
      by_cases hshort : clock (i + 1) - lastAction clock i < 300
      · simp [hshort, hlast]
      · simp [hshort, hhost]
    have hrest := reported_handledAll (fun other h => hhosts other (List.mem_cons_of_mem _ h)) hnext
    obtain ⟨new, hnew, hreported⟩ := reported_handledAll_cons rfl rfl hrest
    refine ⟨new, hnew, fun task_id => ?_⟩
    rw [hreported, hcooldown]
    have hopen : (!decide (clock (i + 1) - lastAction clock i < 300)) = true ↔ IsOpen clock (i + 1) := by
      rw [IsOpen, Bool.not_eq_true', decide_eq_false_iff_not, not_lt]
    rw [hopen]
    constructor
    · rintro (⟨hid, h⟩ | ⟨j, other, hj, hid, h⟩)
      · exact ⟨0, item, rfl, hid, h⟩
      · exact ⟨j + 1, other, hj, hid, by rwa [show i + 1 + (j + 1) = i + 1 + 1 + j by omega]⟩
    · rintro ⟨j, other, hj, hid, h⟩
      cases j with
      | zero =>
        cases hj
        exact .inl ⟨hid, h⟩
      | succ j => exact .inr ⟨j, other, hj, hid, by rwa [show i + 1 + 1 + j = i + 1 + (j + 1) by omega]⟩

/-- Where an element of a filtered list was. -/
theorem getElem?_filter_iff {α : Type} {p : α → Bool} {a : α} : ∀ {l : List α} {i : Nat}, (l.filter p)[i]? = some a ↔
    ∃ before after, l = before ++ a :: after ∧ p a = true ∧ before.countP p = i
  | [], i => by simp
  | x :: l, i => by
    cases hx : p x with
    | false =>
      rw [List.filter_cons_of_neg (by simp [hx]), getElem?_filter_iff]
      constructor
      · rintro ⟨before, after, rfl, ha, hcount⟩
        exact ⟨x :: before, after, rfl, ha, by rw [List.countP_cons_of_neg (by simp [hx]), hcount]⟩
      · rintro ⟨before, after, hsplit, ha, hcount⟩
        cases before with
        | nil =>
          obtain ⟨rfl, -⟩ := List.cons.inj hsplit
          rw [hx] at ha
          cases ha
        | cons y before =>
          obtain ⟨rfl, rfl⟩ := List.cons.inj hsplit
          rw [List.countP_cons_of_neg (by simp [hx])] at hcount
          exact ⟨before, after, rfl, ha, hcount⟩
    | true =>
      rw [List.filter_cons_of_pos hx]
      constructor
      · intro h
        cases i with
        | zero =>
          cases h
          exact ⟨[], l, rfl, hx, rfl⟩
        | succ i =>
          obtain ⟨before, after, rfl, ha, hcount⟩ := getElem?_filter_iff.mp h
          exact ⟨x :: before, after, rfl, ha, by rw [List.countP_cons_of_pos hx, hcount]⟩
      · rintro ⟨before, after, hsplit, ha, hcount⟩
        cases before with
        | nil =>
          obtain ⟨rfl, rfl⟩ := List.cons.inj hsplit
          rw [← hcount]
          rfl
        | cons y before =>
          obtain ⟨rfl, rfl⟩ := List.cons.inj hsplit
          rw [List.countP_cons_of_pos hx] at hcount
          rw [← hcount]
          exact getElem?_filter_iff.mpr ⟨before, after, rfl, ha, rfl⟩

/-- All items, where the rule is open at first. -/
theorem reported_cycle (hopen : inCooldown out m taskDeadlineExceeded out.hostname (clock 0) = false)
    (hhosts : ∀ item ∈ items, item.host = out.hostname) :
    ∃ new, (handledAll out clock 0 items m).events = new ++ m.events ∧ ∀ task_id, Reported new task_id ↔
      ∃ i, (items.map Item.task_id)[i]? = some task_id ∧ IsOpen clock i := by
  cases items with
  | nil =>
    refine ⟨[], rfl, fun task_id => iff_of_false ?_ ?_⟩
    · rintro ⟨e, he, -⟩
      cases he
    · rintro ⟨i, hi, -⟩
      cases hi
  | cons item rest =>
    have hhost := hhosts item List.mem_cons_self
    rw [← hhost] at hopen
    have hlast : (handled out item (clock 0) m).cooldown ("task_deadline_exceeded", out.hostname) =
        some (lastAction clock 0) := by
      unfold handled
      rw [hopen, ← hhost]
      simp [lastAction]
    have hrest := reported_handledAll (fun other h => hhosts other (List.mem_cons_of_mem _ h)) hlast
    obtain ⟨new, hnew, hreported⟩ := reported_handledAll_cons rfl rfl hrest
    refine ⟨new, hnew, fun task_id => ?_⟩
    rw [hreported, hopen]
    constructor
    · rintro (⟨rfl, -⟩ | ⟨j, other, hj, rfl, h⟩)
      · exact ⟨0, rfl, trivial⟩
      · refine ⟨j + 1, ?_, by rwa [show j + 1 = 0 + 1 + j by omega]⟩
        rw [List.map_cons, List.getElem?_cons_succ, List.getElem?_map, hj]
        rfl
    · rintro ⟨i, hi, h⟩
      cases i with
      | zero =>
        cases hi
        exact .inl ⟨rfl, rfl⟩
      | succ j =>
        rw [List.map_cons, List.getElem?_cons_succ, List.getElem?_map, Option.map_eq_some_iff] at hi
        obtain ⟨other, hj, hid⟩ := hi
        exact .inr ⟨j, other, hj, hid, by rwa [show 0 + 1 + j = j + 1 by omega]⟩

/-- Which tasks a cycle reports. -/
theorem reported_runCycle {claimed : List (String × Doc)} (hbreaks : ∀ file ∈ claimed, breaks out file.2 = false)
    (hopen : inCooldown out m taskDeadlineExceeded out.hostname (clock 0) = false) :
    ∃ new, ((checkTaskDeadline out now claimed).elim m fun items => handledAll out clock 0 items m).events =
      new ++ m.events ∧ ∀ task_id, Reported new task_id ↔
        ∃ before file after, claimed = before ++ file :: after ∧ late out now file.2 = true ∧
          taskId file = task_id ∧ IsOpen clock (before.countP fun file => late out now file.2) := by
  obtain ⟨items, hitems, hhosts, hids⟩ := @checkTaskDeadline_spec out now claimed hbreaks
  obtain ⟨new, hnew, hreported⟩ := reported_cycle hopen hhosts
  rw [hitems]
  refine ⟨new, hnew, fun task_id => ?_⟩
  rw [hreported, hids]
  constructor
  · rintro ⟨i, hi, h⟩
    rw [List.getElem?_map, Option.map_eq_some_iff] at hi
    obtain ⟨file, hfile, hid⟩ := hi
    obtain ⟨before, after, hsplit, hlate, rfl⟩ := getElem?_filter_iff.mp hfile
    exact ⟨before, file, after, hsplit, hlate, hid, h⟩
  · rintro ⟨before, file, after, hsplit, hlate, hid, h⟩
    refine ⟨_, ?_, h⟩
    rw [List.getElem?_map, getElem?_filter_iff.mpr ⟨before, after, hsplit, hlate, rfl⟩, Option.map_some, hid]

/-- In a cycle in which the rule is not in its cooldown, **the overdue tasks are dealt with exactly if** they are
`Spared`. -/
theorem requeued_iff {n : Nat} {s s' : Tree} {m' : Monitor}
    (hopen : inCooldown out m taskDeadlineExceeded out.hostname (clock 0) = false)
    (hrun : store.Runs n (runCycle out taskDeadlineExceeded now clock (s.files .claimed).rows m) s (.ok m') s') :
    Requeued out now m m' s.files s'.files ↔ Spared out now clock s.files := by
  rw [runCycle_deadline] at hrun
  obtain ⟨hm, hs⟩ := hrun
  obtain rfl : s = s' := hs.symm
  cases hm
  constructor
  · intro h
    have hleft : ∀ stem task retries, content s.files .claimed stem = some task → Overdue out now task →
        retryCount task = some retries → 3 ≤ retries := fun stem task retries htask hdue hretries => by
      by_contra hlt
      obtain ⟨hgone, -⟩ := h.moved stem task retries htask hdue hretries (not_le.mp hlt)
      rw [htask] at hgone
      cases hgone
    refine ⟨hleft, fun stem task retries htask hdue hretries => ?_⟩
    obtain ⟨-, new, hnew, hreported⟩ :=
      h.exhausted stem task retries htask hdue hretries (hleft stem task retries htask hdue hretries)
    by_cases hbreaks : ∀ file ∈ (s.files .claimed).rows, breaks out file.2 = false
    · obtain ⟨new', hnew', hspec⟩ := @reported_runCycle _ now _ _ _ hbreaks hopen
      obtain rfl := List.append_cancel_right (hnew.symm.trans hnew')
      exact ⟨hbreaks, (hspec _).mp hreported⟩
    · -- the check fails, and no event is recorded
      push Not at hbreaks
      obtain ⟨file, hfile, hbreaks⟩ := hbreaks
      rw [checkTaskDeadline_breaks hfile (by simpa using hbreaks)] at hnew
      obtain rfl : new = [] := List.append_left_eq_self.mp hnew.symm
      obtain ⟨e, he, -⟩ := hreported
      cases he
  · intro h
    refine ⟨fun stem task retries htask hdue hretries hlt => ?_, fun stem task retries htask hdue hretries _ => ?_⟩
    · exact absurd (h.exhausted stem task retries htask hdue hretries) (not_le.mpr hlt)
    · obtain ⟨hbreaks, hplace⟩ := h.reported stem task retries htask hdue hretries
      obtain ⟨new, hnew, hspec⟩ := @reported_runCycle _ now _ _ _ hbreaks hopen
      exact ⟨htask, new, hnew, (hspec _).mpr hplace⟩

/-- A host that reads the times that `now_iso` writes. -/
def node : Outside where
  hostname := "node_gpu"
  float := Python.wholeSeconds
  fromisoformat text := (fromIsoFormat (zuluOffset text.toList)).map fun t => ⟨t, 0⟩
  nowIso now := .ofList (isoFormat now.num.toNat)
  str _ := ""
  remediation _ := .ret (false, "Unknown action")
  sendAlertEmail := .ret (true, "")

/-- A task of ten minutes that was claimed in 1970. -/
def oldTask (retries : Int) : Doc :=
  [("id", .str "task-001"), ("claimed_at", .str "1970-01-01T00:00:00Z"), ("estimated_minutes", .int 10),
    ("_retries", .int retries)]

/-- It is the one claimed task. -/
def oneClaimed (retries : Int) : Tree := .ofFiles (put (fun _ => .empty) .claimed "task-001" (oldTask retries))

theorem overdue_of_claim {task : Doc} (h : claim node task = some (⟨0, 0⟩, 10)) : Overdue node 3600 task :=
  ⟨⟨0, 0⟩, 10, h, by norm_num, by norm_num [Stamp.instant]⟩

/-- The rule has not been used yet. -/
def fresh : Monitor := ⟨fun _ => none, []⟩

/-- A cycle at `t`. -/
def cycleAt (t : Time) (s : Tree) : P Monitor :=
  runCycle node taskDeadlineExceeded t (fun _ => t) (s.files .claimed).rows fresh

/-- What it leaves. -/
def afterCycle (t : Time) (s : Tree) : Monitor :=
  (checkTaskDeadline node t (s.files .claimed).rows).elim fresh fun items =>
    handledAll node (fun _ => t) 0 items fresh

theorem runs_cycleAt (t : Time) (s : Tree) : store.Runs 0 (cycleAt t s) s (.ok (afterCycle t s)) s := by
  rw [cycleAt, runCycle_deadline]
  exact ⟨rfl, rfl⟩

/-- `requeued_iff` of a task that has no retries left. -/
theorem requeued_iff_exhausted :
    Requeued node 3600 fresh (afterCycle 3600 (oneClaimed 3)) (oneClaimed 3).files (oneClaimed 3).files := by
  refine (requeued_iff (by decide +kernel) (runs_cycleAt 3600 (oneClaimed 3))).mpr ?_
  have honly : ∀ stem task, content (oneClaimed 3).files .claimed stem = some task →
      stem = "task-001" ∧ task = oldTask 3 := fun stem task h => by
    rw [oneClaimed, Tree.ofFiles, content_put] at h
    split at h
    · rename_i hstem
      exact ⟨hstem.2, (Option.some.inj h).symm⟩
    · cases h
  refine ⟨fun stem task retries htask _ hretries => ?_, fun stem task retries htask _ _ => ⟨?_, ?_⟩⟩
  · obtain ⟨-, rfl⟩ := honly stem task htask
    have hthree : retryCount (oldTask 3) = some 3 := rfl
    rw [hthree] at hretries
    cases hretries
    exact le_rfl
  · decide +kernel
  · obtain ⟨rfl, rfl⟩ := honly stem task htask
    exact ⟨[], ("task-001", oldTask 3), [], rfl, by decide +kernel, rfl, trivial⟩

/-- **A task that is overdue stays claimed**: it has retries left, and no task gets into the arguments. -/
theorem task_left_claimed :
    ¬ ∀ out now clock m m' s s', inCooldown out m taskDeadlineExceeded out.hostname (clock 0) = false →
      store.Runs 0 (runCycle out taskDeadlineExceeded now clock (s.files .claimed).rows m) s (.ok m') s' →
        Requeued out now m m' s.files s'.files := by
  intro h
  have hwrong :=
    h node 3600 (fun _ => 3600) fresh _ (oneClaimed 0) _ (by decide +kernel) (runs_cycleAt 3600 (oneClaimed 0))
  have htask : content (oneClaimed 0).files .claimed "task-001" = some (oldTask 0) := by
    rw [oneClaimed, Tree.ofFiles, content_put, if_pos ⟨rfl, rfl⟩]
  obtain ⟨hgone, -⟩ :=
    hwrong.moved "task-001" (oldTask 0) 0 htask (overdue_of_claim (by decide +kernel)) rfl (by decide)
  rw [htask] at hgone
  cases hgone

end ClaudeSwarm.HealthMonitor
