import ClaudeSwarm.Data.Database
import ClaudeSwarm.Data.Dict
import ClaudeSwarm.Data.Json
import ClaudeSwarm.Interleave.System

/-!
# The SQLite store of the cascade, statement by statement

Model of `_SQLiteStore` of `src/state_store_cascade.py`. Every call opens a connection of its own, so a connection
is named by its call. Python's default isolation opens a transaction before an `INSERT` or `DELETE`, not before a
`SELECT`; `with conn` commits at its end, or rolls back when an exception leaves it. A write that finds another
connection writing waits, or raises when the busy timeout runs out (`Env.busy`).

The state of a task is a JSON object, of which SQLite stores the text and the value under `"state"` in a TEXT
column. `real` is SQLite's text of a float, and none of a NaN.
-/

namespace ClaudeSwarm.Cascade.Sqlite

open Interleave Data
open Python (Time truncate)

/-- An exception: `sqlite3.Error`, or `OverflowError`, which is not one. -/
inductive Exc where
  | sqlite (msg : String)
  | overflow
  deriving DecidableEq

/-- The error of a statement that cannot get the write lock. -/
def locked : Exc := .sqlite "database is locked"

/-- A row of `slots`. -/
structure Slot where
  holder : String
  ttlExpires : Int
  deriving DecidableEq

/-- A row of `tasks`. -/
structure Task where
  state : String
  data : String
  updatedAt : Int
  deriving DecidableEq

/-- The tables; `tasks_by_state` has its rows in the order of their insertion, latest first. -/
structure Tables where
  slots : String → Option Slot
  tasks : String → Option Task
  byState : List (String × String)

/-- The tables after `_init`. -/
def Tables.empty : Tables := ⟨fun _ => none, fun _ => none, []⟩

/-- The state of a task. -/
abbrev TaskState := Dict String Json

/-- `state.get("state", "")`. -/
def stateName (state : TaskState) : Json := (state.get? "state").getD (.str "")

/-- `bool(v)`. -/
def truthy : Json → Bool
  | .null => false
  | .bool b => b
  | .int i => i ≠ 0
  | .float text => text ≠ "0.0" ∧ text ≠ "-0.0"
  | .str s => s ≠ ""
  | .arr l => l ≠ []
  | .obj l => l ≠ []

/-- Python's `!=` between a text and a value. -/
def differs (old : String) : Json → Bool
  | .str s => old ≠ s
  | _ => true

/-- An integer that fits a column. -/
def fits (i : Int) : Bool := -2 ^ 63 ≤ i ∧ i < 2 ^ 63

/-- What a value becomes in a `TEXT NOT NULL` column. -/
def bind (real : String → Option String) : Json → Except Exc String
  | .str s => .ok s
  | .int i => if fits i then .ok (toString i) else .error .overflow
  | .bool b => .ok (if b then "1" else "0")
  | .float text =>
    match real text with
    | some s => .ok s
    | none => .error (.sqlite "NOT NULL constraint failed")
  | .null => .error (.sqlite "NOT NULL constraint failed")
  | .arr _ | .obj _ => .error (.sqlite "type is not supported")

namespace Tables

variable (t : Tables)

/-- `INSERT OR REPLACE INTO slots`. -/
def insertSlot (key : String) (slot : Slot) : Tables := { t with slots := Function.update t.slots key (some slot) }

/-- `DELETE FROM slots`. -/
def deleteSlot (key : String) : Tables := { t with slots := Function.update t.slots key none }

/-- `INSERT OR REPLACE INTO tasks`. -/
def insertTask (task_id : String) (task : Task) : Tables :=
  { t with tasks := Function.update t.tasks task_id (some task) }

/-- `INSERT OR IGNORE INTO tasks_by_state`. -/
def insertByState (state task_id : String) : Tables := { t with byState := t.byState.insert (state, task_id) }

/-- `DELETE FROM tasks_by_state`. -/
def deleteByState (state task_id : String) : Tables := { t with byState := t.byState.erase (state, task_id) }

/-- The join of `task_list_by_state`. -/
def dataByState (state_name : String) : List String :=
  (t.byState.filter fun row => row.1 = state_name).filterMap fun row => (t.tasks row.2).map Task.data

end Tables

/-- The clock and the database file. -/
structure State where
  now : Time
  db : Database Tables

/-- Whether a wait for the write lock times out. -/
structure Env where
  busy : Bool

/-- A statement, the end of a `with conn`, or the passing of time. -/
inductive Cmd where
  | time
  | selectSlot (key : String)
  | insertSlot (key : String) (slot : Slot)
  | deleteSlot (key : String)
  | selectState (task_id : String)
  | deleteByState (state task_id : String)
  | insertTask (task_id : String) (state : Json) (data : String) (updated_at : Int)
  | insertByState (state : Json) (task_id : String)
  | selectData (task_id : String)
  | selectByState (state_name : String)
  | commit
  | rollback
  | advance (t : Time)

/-- What a command answers. -/
abbrev Resp : Cmd → Type
  | .time => Time
  | .selectSlot _ => Option Slot
  | .selectState _ | .selectData _ => Option String
  | .selectByState _ => List String
  | .insertSlot .. | .deleteSlot _ | .deleteByState .. | .insertTask .. | .insertByState .. => Except Exc Unit
  | .commit | .rollback | .advance _ => Unit

abbrev sig : Sig := ⟨Cmd, Resp⟩

/-- Connection `n` changes the tables by `f`. -/
def change (n : Nat) (i : Env) (s : State) (f : Tables → Tables) : Option (Except Exc Unit × State) :=
  match s.db.write n f with
  | some db => some (.ok (), { s with db := db })
  | none => if i.busy then some (.error locked, s) else none

/-- Connection `n` executes a command. -/
def exec (real : String → Option String) (n : Nat) (i : Env) (s : State) : (c : Cmd) → Option (Resp c × State)
  | .time => some (s.now, s)
  | .selectSlot key => some ((s.db.view n).slots key, s)
  | .insertSlot key slot =>
    if fits slot.ttlExpires then change n i s fun t => t.insertSlot key slot else some (.error .overflow, s)
  | .deleteSlot key => change n i s fun t => t.deleteSlot key
  | .selectState task_id => some (((s.db.view n).tasks task_id).map Task.state, s)
  | .deleteByState state task_id => change n i s fun t => t.deleteByState state task_id
  | .insertTask task_id state data updated_at =>
    match bind real state with
    | .ok text => change n i s fun t => t.insertTask task_id ⟨text, data, updated_at⟩
    | .error e => some (.error e, s)
  | .insertByState state task_id =>
    match bind real state with
    | .ok text => change n i s fun t => t.insertByState text task_id
    | .error e => some (.error e, s)
  | .selectData task_id => some (((s.db.view n).tasks task_id).map Task.data, s)
  | .selectByState state_name => some ((s.db.view n).dataByState state_name, s)
  | .commit => some ((), { s with db := s.db.commit n })
  | .rollback => some ((), { s with db := s.db.rollback n })
  | .advance t => if s.now ≤ t then some ((), { s with now := t }) else none

/-- The database file as a store. -/
abbrev store (real : String → Option String) : Store sig := ⟨State, Env, exec real⟩

abbrev P (α : Type) := Prog sig Exc α

/-- Issue one command. -/
def cmd (c : Cmd) : P (Resp c) := @Prog.cmd sig Exc c

/-- `with conn:`. -/
def withConn {α : Type} (p : P α) : P α := do
  let a ← p.catch_ fun e => do
    cmd .rollback
    .raise e
  cmd .commit
  return a

/-- `except sqlite3.Error: return a`. -/
def orElse {α : Type} (p : P α) (a : α) : P α :=
  p.catch_ fun e => match e with
    | .sqlite _ => .ret a
    | .overflow => .raise .overflow

/-! ## Slots -/

/-- The end of `slot_claim`. -/
def replaceSlot (key : String) (slot : Slot) : P Bool := do
  Prog.ofExcept (← cmd (.insertSlot key slot))
  return true

/-- `slot_claim`. -/
def slotClaim (key holder : String) (ttl_s : Int) : P Bool := do
  let expires := truncate (← cmd .time) + ttl_s
  orElse (withConn do
    match ← cmd (.selectSlot key) with
    | some existing =>
      let now ← cmd .time
      if existing.ttlExpires > truncate now ∧ existing.holder ≠ holder then return false
      else replaceSlot key ⟨holder, expires⟩
    | none => replaceSlot key ⟨holder, expires⟩) false

/-- `slot_release`. -/
def slotRelease (key holder : String) : P Bool :=
  orElse (withConn do
    match ← cmd (.selectSlot key) with
    | some row =>
      if row.holder = holder then
        Prog.ofExcept (← cmd (.deleteSlot key))
        return true
      else return false
    | none => return false) false

/-- `slot_holder`. -/
def slotHolder (key : String) : P (Option String) :=
  orElse (withConn do
    match ← cmd (.selectSlot key) with
    | none => return none
    | some row =>
      let now ← cmd .time
      if row.ttlExpires ≤ truncate now then
        Prog.ofExcept (← cmd (.deleteSlot key))
        return none
      else return some row.holder) none

/-! ## Tasks -/

/-- "Remove from old state index". -/
def removeOld (task_id : String) (state_name : Json) : P Unit := do
  match ← cmd (.selectState task_id) with
  | some old => if differs old state_name then Prog.ofExcept (← cmd (.deleteByState old task_id)) else return ()
  | none => return ()

/-- `task_write`. -/
def taskWrite (task_id : String) (state : TaskState) : P Bool := do
  let state_name := stateName state
  let data_json := Json.dumps (.obj state.entries)
  let now := truncate (← cmd .time)
  orElse (withConn do
    removeOld task_id state_name
    Prog.ofExcept (← cmd (.insertTask task_id state_name data_json now))
    if truthy state_name then Prog.ofExcept (← cmd (.insertByState state_name task_id)) else pure ()
    return true) false

/-- `task_read`. -/
def taskRead (task_id : String) : P (Option Json) :=
  orElse (withConn do
    match ← cmd (.selectData task_id) with
    | none => return none
    | some data => return Json.loads data) none

/-- `task_list_by_state`. -/
def taskListByState (state_name : String) : P (List Json) :=
  orElse (withConn do
    let rows ← cmd (.selectByState state_name)
    return rows.filterMap Json.loads) []

end ClaudeSwarm.Cascade.Sqlite
