import ClaudeSwarm.Python
import Mathlib.Tactic.IntervalCases

/-!
# The task record

Model of `Task` and `_normalize_priority` (`src/task_queue.py`). `Task.toDict` and `Task.fromDict`
are the dictionary forms the three backends store: a SQLite row carries typed values, a Redis hash
carries only strings, so `fromDict` takes a dictionary of `Val`.

* `TaskState` is the `state` string: the five states the queue itself writes have a name, every
  other string is `other`.
* `normalizePriority_digits`: a string of digits is no priority name, and has the default tier `3`.
-/

namespace ClaudeSwarm

open Python (Time PyError FloatFmt)

/-! ## States -/

/-- `_VALID_STATES`. -/
def validStates : List String := ["pending", "claimed", "running", "completed", "failed"]

/-- A `state` string. -/
inductive TaskState where
  | pending
  | claimed
  | running
  | completed
  | failed
  | other (s : String) (h : s ∉ validStates)
  deriving DecidableEq

namespace TaskState

/-- The string that is stored. -/
def str : TaskState → String
  | pending => "pending"
  | claimed => "claimed"
  | running => "running"
  | completed => "completed"
  | failed => "failed"
  | other s _ => s

/-- The state a stored string denotes. -/
def ofStr (s : String) : TaskState :=
  if h : s ∈ validStates then
    if s = "pending" then pending
    else if s = "claimed" then claimed
    else if s = "running" then running
    else if s = "completed" then completed
    else failed
  else other s h

theorem ofStr_str (t : TaskState) : ofStr t.str = t := by
  cases t with
  | other s h => exact dif_neg h
  | _ => rfl

theorem str_injective {a b : TaskState} (h : a.str = b.str) : a = b := by
  rw [← ofStr_str a, h, ofStr_str]

end TaskState

/-! ## Priorities -/

/-- `PRIORITY_MAP`, tier names included. -/
def priorityMap : List (String × Int) :=
  [("critical", 0), ("high", 1), ("medium", 3), ("low", 4), ("production", 0), ("cicd", 1),
    ("lead", 2), ("standard", 3), ("batch", 4), ("sandbox", 5)]

/-- A value of a task dictionary. -/
inductive Val where
  | str (s : String)
  | int (i : Int)
  | float (t : Time)
  | list (l : List String)
  deriving DecidableEq

/-- `max(0, min(5, p))`. -/
def clampPriority (p : Int) : Int := max 0 (min 5 p)

/-- `_normalize_priority`. -/
def normalizePriority : Val → Int
  | .int p => clampPriority p
  | .str p =>
    let s := Python.strip (Python.lower p.toList)
    match s with
    | ['p', d] =>
      if d.isDigit then clampPriority (d.toNat - '0'.toNat : Nat)
      else (priorityMap.lookup (.ofList s)).getD 3
    | _ => (priorityMap.lookup (.ofList s)).getD 3
  | _ => 3

/-- A normalized priority is a tier. -/
theorem normalizePriority_tier (v : Val) : 0 ≤ normalizePriority v ∧ normalizePriority v ≤ 5 := by
  have hclamp : ∀ p, 0 ≤ clampPriority p ∧ clampPriority p ≤ 5 := by
    intro p
    unfold clampPriority
    omega
  have hmap : ∀ s, 0 ≤ (priorityMap.lookup s).getD 3 ∧ (priorityMap.lookup s).getD 3 ≤ 5 := by
    intro s
    simp only [priorityMap, List.lookup_cons, List.lookup_nil]
    repeat' split
    all_goals simp
  unfold normalizePriority
  split
  · exact hclamp _
  · simp only
    split
    · split
      · exact hclamp _
      · exact hmap _
    · exact hmap _
  · exact ⟨by decide, by decide⟩

/-- The decimal text of a tier is not a priority name. -/
theorem normalizePriority_digits {p : Int} (h : 0 ≤ p ∧ p ≤ 5) :
    normalizePriority (.str (toString p)) = 3 := by
  obtain ⟨h0, h5⟩ := h
  interval_cases p <;> decide

/-! ## The record -/

/-- `Task`. -/
structure Task where
  id : String
  title : String
  description : String := ""
  project : String := ""
  priority : Int := 3
  requires : List String := []
  state : TaskState := .pending
  createdBy : String := ""
  createdAt : Time := 0
  claimedBy : String := ""
  claimedAt : Time := 0
  completedAt : Time := 0
  result : String := ""
  error : String := ""
  estimatedMinutes : Int := 0
  deriving DecidableEq

/-- `Task.to_dict`. -/
def Task.toDict (t : Task) : List (String × Val) :=
  [("id", .str t.id), ("title", .str t.title), ("description", .str t.description),
    ("project", .str t.project), ("priority", .int t.priority), ("requires", .list t.requires),
    ("state", .str t.state.str), ("created_by", .str t.createdBy),
    ("created_at", .float t.createdAt), ("claimed_by", .str t.claimedBy),
    ("claimed_at", .float t.claimedAt), ("completed_at", .float t.completedAt),
    ("result", .str t.result), ("error", .str t.error),
    ("estimated_minutes", .int t.estimatedMinutes)]

/-- `float(v)`. -/
def floatOf (F : FloatFmt) : Val → Except PyError Time
  | .float t => .ok t
  | .int i => .ok i
  | .str s => (F.float s).elim (.error (.valueError "could not convert string to float")) .ok
  | .list _ => .error (.typeError "float() argument must be a string or a real number")

/-- `int(v)`. -/
def intOf : Val → Except PyError Int
  | .int i => .ok i
  | .float t => .ok (Python.truncate t)
  | .str s => (Python.int s).elim (.error (.valueError "invalid literal for int()")) .ok
  | .list _ => .error (.typeError "int() argument must be a string or a real number")

/-- A field the record declares as `str`; no modelled writer stores anything else there. -/
def strOf : Val → Except PyError String
  | .str s => .ok s
  | _ => .error (.typeError "not a str")

/-- `requires`: a list as it is, a string split at its commas. -/
def requiresOf : Val → Except PyError (List String)
  | .list l => .ok l
  | .str s => .ok (Python.splitCommas s)
  | _ => .error (.typeError "not a list")

/-- `not data.get(key)`. -/
def missing (data : String → Option Val) (key : String) : Bool :=
  match data key with
  | none | some (.str "") | some (.int 0) | some (.float 0) | some (.list []) => true
  | _ => false

/-- The checks of strict mode: the required fields, then the state. -/
def strictCheck (data : String → Option Val) (state : String) : Except PyError Unit :=
  if missing data "id" then .error (.valueError "Task requires 'id' field (strict mode)")
  else if missing data "title" then
    .error (.valueError "Task requires 'title' field (strict mode)")
  else if state ∉ validStates then
    .error (.valueError ("Task state '" ++ state ++
      "' not in allowed set ['claimed', 'completed', 'failed', 'pending', 'running']"))
  else .ok ()

/-- `Task.from_dict`; `uuid` is the identifier drawn for a dictionary without one. -/
def Task.fromDict (F : FloatFmt) (uuid : String) (data : String → Option Val)
    (strict : Bool := false) : Except PyError Task := do
  let str (key : String) := strOf ((data key).getD (.str ""))
  let float (key : String) := floatOf F ((data key).getD (.int 0))
  let state ← strOf ((data "state").getD (.str "pending"))
  if strict then strictCheck data state
  return {
    requires := ← requiresOf ((data "requires").getD (.list []))
    id := ← strOf ((data "id").getD (.str uuid))
    title := ← str "title"
    description := ← str "description"
    project := ← str "project"
    priority := normalizePriority ((data "priority").getD (.int 3))
    state := .ofStr state
    createdBy := ← str "created_by"
    createdAt := ← float "created_at"
    claimedBy := ← str "claimed_by"
    claimedAt := ← float "claimed_at"
    completedAt := ← float "completed_at"
    result := ← str "result"
    error := ← str "error"
    estimatedMinutes := ← intOf ((data "estimated_minutes").getD (.int 0)) }

/-- Reading a task's own dictionary gives the task back, its priority clamped to a tier. -/
theorem Task.fromDict_toDict (F : FloatFmt) (uuid : String) (t : Task) :
    Task.fromDict F uuid (t.toDict.lookup ·) =
      .ok { t with priority := clampPriority t.priority } := by
  simp [Task.fromDict, Task.toDict, List.lookup_cons, strOf, floatOf, intOf, requiresOf,
    normalizePriority, TaskState.ofStr_str, bind, Except.bind, pure, Except.pure]

theorem exists_of_bind_ok {ε α β : Type} {x : Except ε α} {f : α → Except ε β} {b : β}
    (h : x >>= f = .ok b) : ∃ a, x = .ok a ∧ f a = .ok b := by
  cases x with
  | error e => cases h
  | ok a => exact ⟨a, rfl, h⟩

/-- A task carries the `id` of its dictionary. -/
theorem Task.fromDict_id {F : FloatFmt} {uuid id : String} {data : String → Option Val} {t : Task}
    (hid : data "id" = some (.str id)) (h : Task.fromDict F uuid data = .ok t) : t.id = id := by
  unfold Task.fromDict at h
  -- the fields before `id`, then the eleven after it
  iterate 2 obtain ⟨_, -, h⟩ := exists_of_bind_ok h
  obtain ⟨_, hstr, h⟩ := exists_of_bind_ok h
  rw [hid] at hstr
  cases hstr
  iterate 11 obtain ⟨_, -, h⟩ := exists_of_bind_ok h
  cases h
  rfl

/-- A dictionary that is read has times that `float` reads. -/
theorem Task.fromDict_times {F : FloatFmt} {uuid : String} {data : String → Option Val} {t : Task}
    (h : Task.fromDict F uuid data = .ok t) {key : String}
    (hkey : key ∈ ["created_at", "claimed_at", "completed_at"]) :
    ∃ x, floatOf F ((data key).getD (.int 0)) = .ok x := by
  unfold Task.fromDict at h
  -- the seven fields before `created_at`
  iterate 7 obtain ⟨_, -, h⟩ := exists_of_bind_ok h
  obtain ⟨created, hcreated, h⟩ := exists_of_bind_ok h
  obtain ⟨_, -, h⟩ := exists_of_bind_ok h
  obtain ⟨claimed, hclaimed, h⟩ := exists_of_bind_ok h
  obtain ⟨completed, hcompleted, -⟩ := exists_of_bind_ok h
  simp only [List.mem_cons, List.not_mem_nil, or_false] at hkey
  rcases hkey with rfl | rfl | rfl
  · exact ⟨created, hcreated⟩
  · exact ⟨claimed, hclaimed⟩
  · exact ⟨completed, hcompleted⟩

end ClaudeSwarm
