import ClaudeSwarm.Data.Json
import ClaudeSwarm.Data.Table
import ClaudeSwarm.Interleave.Outline
import ClaudeSwarm.Task
import Mathlib.Data.List.Sort

/-!
# The SQLite task backend

Model of `SQLiteTaskBackend` (`src/sqlite_backend.py`) at the level of single statements.

* The database (`Db`) is the committed table, the open write transaction if there is one, and the
  log of commits. One connection at a time may write: `BEGIN IMMEDIATE` takes the write lock, any
  other `INSERT` or `UPDATE` takes it implicitly (Python's default isolation opens a transaction
  before the first of them, not before a `SELECT`), and it is held until `commit`, `rollback` or
  `close`. A statement that needs the lock while another connection holds it waits, or gives up
  when the busy timeout runs out (`Env.busy`).
* The writer reads its own transaction, everyone else the last committed table.
* Each call opens its own connection, so a connection is named by its call. The connection that
  `self.get` opens inside another method only reads, and is not told apart from its caller's.
* Rows with equal `ORDER BY` keys come in insertion order, which is the order of the index on
  `(state, priority, created_at)`.

Reading and writing dictionaries is left to `TaskQueue`: a backend method returns the `Row`, and
`rowToDict` is `_row_to_dict`.
-/

namespace ClaudeSwarm.Sqlite

open Interleave Data
open Python (Time PyError)

/-! ## The table -/

/-- A row of `tasks`, with the defaults of its columns. The column `requires` holds the JSON text of
a list of strings: `create` is its only writer. -/
structure Row where
  id : String
  title : String
  description : String := ""
  project : String := ""
  priority : Int := 3
  requires : List String := []
  state : TaskState := .pending
  createdBy : String := ""
  createdAt : Time := 0
  claimedBy : String := ""
  claimedAt : Time := 0
  completedAt : Time := 0
  result : String := ""
  error : String := ""
  estimatedMinutes : Int := 0
  deriving DecidableEq

/-- The text in the column `requires`. -/
def Row.requiresText (r : Row) : String := Json.dumps (.ofStrings r.requires)

/-- The table `tasks`, `id` its primary key. -/
abbrev Tasks := Table Row.id

/-- `ORDER BY priority ASC, created_at ASC`. -/
def Row.before (a b : Row) : Prop :=
  a.priority < b.priority ∨ a.priority = b.priority ∧ a.createdAt ≤ b.createdAt

instance : DecidableRel Row.before := fun a b => by unfold Row.before; infer_instance

/-- The rows in a state, in `ORDER BY` order. -/
def inState (t : Tasks) (s : TaskState) : List Row :=
  (t.rows.filter fun r => r.state == s).insertionSort Row.before

theorem mem_inState {t : Tasks} {s : TaskState} {r : Row} :
    r ∈ inState t s ↔ r ∈ t.rows ∧ r.state = s := by
  simp [inState, List.mem_insertionSort]

/-- `_row_to_dict`: the columns by name, `requires` parsed. -/
def rowToDict (r : Row) : List (String × Val) :=
  [("id", .str r.id), ("title", .str r.title), ("description", .str r.description),
    ("project", .str r.project), ("priority", .int r.priority),
    ("requires", .list (((Json.loads r.requiresText).bind fun
      | .arr l => Json.strings l
      | _ => none).getD [])),
    ("state", .str r.state.str), ("created_by", .str r.createdBy),
    ("created_at", .float r.createdAt), ("claimed_by", .str r.claimedBy),
    ("claimed_at", .float r.claimedAt), ("completed_at", .float r.completedAt),
    ("result", .str r.result), ("error", .str r.error),
    ("estimated_minutes", .int r.estimatedMinutes)]

/-! ## Statements that write -/

/-- An extra column of `_transition`. -/
inductive Assign where
  | completedAt (t : Time)
  | result (s : String)
  | error (s : String)
  deriving DecidableEq

/-- Set one column. -/
def Assign.apply : Assign → Row → Row
  | .completedAt t, r => { r with completedAt := t }
  | .result s, r => { r with result := s }
  | .error s, r => { r with error := s }

/-- The `INSERT` and the four `UPDATE`s of the backend. -/
inductive Stmt where
  | insert (r : Row)
  | claim (claimer : String) (now : Time) (id : String)
  | requeue (id : String)
  | requeueStale (id : String)
  | transition (id : String) (newState : TaskState) (validFrom : List TaskState)
      (set : List Assign)
  deriving DecidableEq

/-- The `WHERE` clause. -/
def Stmt.selects : Stmt → Row → Bool
  | .insert _, _ => false
  | .claim _ _ id, r => r.id == id
  | .requeue id, r => r.id == id && r.state != .completed
  | .requeueStale id, r => r.id == id
  | .transition id _ validFrom _, r => r.id == id && validFrom.contains r.state

/-- The `SET` clause. -/
def Stmt.assign : Stmt → Row → Row
  | .insert _, r => r
  | .claim claimer now _, r =>
    { r with state := .claimed, claimedBy := claimer, claimedAt := now }
  | .requeue _, r => { r with state := .pending, claimedBy := "", claimedAt := 0, error := "" }
  | .requeueStale _, r => { r with state := .pending, claimedBy := "", claimedAt := 0 }
  | .transition _ newState _ set, r => set.foldl (fun r a => a.apply r) { r with state := newState }

theorem foldl_assign (set : List Assign) : ∀ r : Row,
    (set.foldl (fun r a => a.apply r) r).id = r.id ∧
      (set.foldl (fun r a => a.apply r) r).state = r.state ∧
      (set.foldl (fun r a => a.apply r) r).claimedBy = r.claimedBy := by
  induction set with
  | nil => exact fun r => ⟨rfl, rfl, rfl⟩
  | cons a set ih =>
    intro r
    rw [List.foldl_cons]
    obtain ⟨h₁, h₂, h₃⟩ := ih (a.apply r)
    rw [h₁, h₂, h₃]
    cases a <;> exact ⟨rfl, rfl, rfl⟩

theorem Stmt.assign_id (st : Stmt) (r : Row) : (st.assign r).id = r.id := by
  cases st with
  | transition id newState validFrom set => exact (foldl_assign set _).1
  | _ => rfl

/-- Execute a statement: the number of rows it changed and the table; `none` when the primary key
is taken. -/
def Stmt.run (st : Stmt) (t : Tasks) : Option (Nat × Tasks) :=
  match st with
  | .insert r => (t.insert r).map fun t' => (1, t')
  | st => some (t.count st.selects, t.update st.selects st.assign st.assign_id)

/-! ## The database -/

/-- An executed write statement: whose, and how many rows it changed. -/
structure Entry where
  call : Nat
  stmt : Stmt
  rows : Nat
  deriving DecidableEq

/-- The open write transaction: its connection, what it sees, what it did (newest first). -/
structure Txn where
  owner : Nat
  view : Tasks
  done : List Entry

/-- A committed transaction and the table it left. -/
structure Commit where
  call : Nat
  done : List Entry
  table : Tasks

/-- The database file: the committed table, the write transaction and the commits so far, newest
first. -/
structure Db where
  table : Tasks
  txn : Option Txn
  commits : List Commit

/-- A database nobody is writing, holding `t`. -/
def Db.at_ (t : Tasks) : Db := ⟨t, none, []⟩

/-- Every committed write statement, newest first. -/
def Db.log (s : Db) : List Entry := s.commits.flatMap Commit.done

/-- The table connection `n` reads. -/
def Db.view (s : Db) (n : Nat) : Tasks :=
  match s.txn with
  | some t => if t.owner = n then t.view else s.table
  | none => s.table

/-- What a command reads from outside: the clock, a fresh identifier, the host's name, and whether
a wait for the write lock times out. -/
structure Env where
  now : Time
  uuid : String
  nodename : String
  busy : Bool

/-- One statement or call of a connection. -/
inductive Cmd where
  | now
  | uuid
  | nodename
  | beginImmediate
  | selectPendingId (id : String)
  | selectNextPending
  | selectPendingRequires
  | selectRow (id : String)
  | selectByState (state : TaskState) (limit : Nat)
  | selectStale (cutoff : Time)
  | execute (st : Stmt)
  | commit
  | rollback
  | close

/-- The answer of each command; `beginImmediate` answers whether it got the lock. -/
abbrev Resp : Cmd → Type
  | .now => Time
  | .uuid | .nodename => String
  | .beginImmediate => Bool
  | .selectPendingId _ | .selectNextPending => Option String
  | .selectPendingRequires => List (String × String)
  | .selectRow _ => Option Row
  | .selectByState _ _ => List Row
  | .selectStale _ => List String
  | .execute _ => Except PyError Nat
  | .commit | .rollback | .close => Unit

abbrev sig : Sig := ⟨Cmd, Resp⟩

/-- The error of a statement that cannot get the write lock. -/
def locked : PyError := .sqlite "database is locked"

/-- The error of an `INSERT` whose key is taken. -/
def integrity : PyError := .sqlite "UNIQUE constraint failed: tasks.id"

/-- Run `st` in transaction `t`. -/
def Txn.execute (t : Txn) (st : Stmt) : Except PyError Nat × Txn :=
  match st.run t.view with
  | some (k, view) => (.ok k, { t with view := view, done := ⟨t.owner, st, k⟩ :: t.done })
  | none => (.error integrity, t)

/-- Connection `n` executes a command. -/
def exec (n : Nat) (i : Env) (s : Db) : (c : Cmd) → Option (Resp c × Db)
  | .now => some (i.now, s)
  | .uuid => some (i.uuid, s)
  | .nodename => some (i.nodename, s)
  | .beginImmediate =>
    match s.txn with
    | none => some (true, { s with txn := some ⟨n, s.table, []⟩ })
    | some _ => if i.busy then some (false, s) else none
  | .selectPendingId id =>
    some (((s.view n).find? id).bind fun r => if r.state = .pending then some r.id else none, s)
  | .selectNextPending => some ((inState (s.view n) .pending).head?.map Row.id, s)
  | .selectPendingRequires =>
    some ((inState (s.view n) .pending).map fun r => (r.id, r.requiresText), s)
  | .selectRow id => some ((s.view n).find? id, s)
  | .selectByState state limit => some ((inState (s.view n) state).take limit, s)
  | .selectStale cutoff =>
    some ((((s.view n).rows.filter fun r =>
      r.state = .claimed ∧ 0 < r.claimedAt ∧ r.claimedAt < cutoff).map Row.id), s)
  | .execute st =>
    match s.txn with
    | none =>
      let (x, t) := Txn.execute ⟨n, s.table, []⟩ st
      some (x, { s with txn := some t })
    | some t =>
      if t.owner = n then
        let (x, t) := t.execute st
        some (x, { s with txn := some t })
      else if i.busy then some (.error locked, s)
      else none
  | .commit =>
    match s.txn with
    | some t =>
      if t.owner = n then
        some ((), { table := t.view, txn := none, commits := ⟨n, t.done, t.view⟩ :: s.commits })
      else some ((), s)
    | none => some ((), s)
  | .rollback | .close =>
    match s.txn with
    | some t => if t.owner = n then some ((), { s with txn := none }) else some ((), s)
    | none => some ((), s)

/-- The database as a store. -/
abbrev store : Store sig := ⟨Db, Env, exec⟩

/-! ## The methods -/

abbrev P (α : Type) := Prog sig PyError α

/-- Issue one command. -/
def cmd (c : Cmd) : P (Resp c) := @Prog.cmd sig PyError c

/-- `get`. -/
def get (task_id : String) : P (Option Row) := cmd (.selectRow task_id)

/-- `except sqlite3.Error: conn.rollback(); raise`. -/
def rollbackRaise {α : Type} (e : PyError) : P α := do
  cmd .rollback
  .raise e

/-- `finally: conn.close()`. -/
def closing {α : Type} (p : P α) : P α := Prog.finally_ p (cmd .close)

/-- `create`. -/
def create (title description project : String) (priority : Int) (requires : List String)
    (estimated_minutes : Int) (created_by : String) : P (Option Row) := do
  let uuid ← cmd .uuid
  let now ← cmd .now
  let nodename ← cmd .nodename
  let task_id := "task-" ++ uuid
  closing do
    match ← cmd (.execute (.insert {
        id := task_id, title, description, project, priority
        requires, state := .pending, createdBy := if created_by = "" then nodename else created_by
        createdAt := now, estimatedMinutes := estimated_minutes })) with
    | .error e => .raise e
    | .ok _ => do
      cmd .commit
      get task_id

/-- The `UPDATE … SET state = 'claimed'`, commit and read-back that both claims end with. -/
def claimRow (claimer id : String) : P (Option Row) := do
  let now ← cmd .now
  match ← cmd (.execute (.claim claimer now id)) with
  | .error e => rollbackRaise e
  | .ok _ => do
    cmd .commit
    get id

/-- The `SELECT` of `claim`: the task asked for, or the next one. -/
def selectClaimable (task_id : Option String) : P (Option String) :=
  match task_id.filter (· ≠ "") with
  | some id => cmd (.selectPendingId id)
  | none => cmd .selectNextPending

/-- `claim`. -/
def claim (claimer : String) (task_id : Option String) : P (Option Row) :=
  closing do
    if ← cmd .beginImmediate then
      match ← selectClaimable task_id with
      | none => do
        cmd .rollback
        return none
      | some id => claimRow claimer id
    else rollbackRaise locked

/-- The loop of `claim_matching` over the pending rows. -/
def claimFirst (cap_set : List String) (claimer : String) :
    List (String × String) → P (Option Row)
  | [] => do
    cmd .rollback
    return none
  | (id, requires) :: rows =>
    match if requires = "" then some (.arr []) else Json.loads requires with
    | some (.arr l) =>
      if l.all fun r => match r with | .str s => cap_set.contains s | _ => false then
        claimRow claimer id
      else claimFirst cap_set claimer rows
    | _ => .raise .jsonDecode

/-- `claim_matching`. -/
def claimMatching (capabilities : List String) (claimer : String) : P (Option Row) :=
  closing do
    if ← cmd .beginImmediate then
      let rows ← cmd .selectPendingRequires
      claimFirst capabilities claimer rows
    else rollbackRaise locked

/-- `_transition`. -/
def transition (task_id : String) (new_state : TaskState) (valid_from : List TaskState)
    (set : List Assign) : P (Option Row) :=
  closing do
    match ← cmd (.execute (.transition task_id new_state valid_from set)) with
    | .error e => .raise e
    | .ok rowcount => do
      cmd .commit
      if rowcount = 0 then return none else get task_id

/-- `complete`. -/
def complete (task_id result : String) : P (Option Row) := do
  let now ← cmd .now
  transition task_id .completed [.claimed, .running] [.result result, .completedAt now]

/-- `fail`. -/
def fail (task_id error : String) : P (Option Row) := do
  let now ← cmd .now
  transition task_id .failed [.claimed, .running] [.error error, .completedAt now]

/-- `start`. -/
def start (task_id : String) : P (Option Row) := transition task_id .running [.claimed] []

/-- `requeue`. -/
def requeue (task_id : String) : P (Option Row) :=
  closing do
    match ← cmd (.execute (.requeue task_id)) with
    | .error e => .raise e
    | .ok _ => do
      cmd .commit
      get task_id

/-- The loop of `requeue_stale` over the selected ids. -/
def requeueEach : List String → List String → P (List String)
  | [], requeued => do
    cmd .commit
    return requeued
  | id :: rows, requeued => do
    match ← cmd (.execute (.requeueStale id)) with
    | .error e => .raise e
    | .ok _ => requeueEach rows (requeued ++ [id])

/-- `requeue_stale`. -/
def requeueStale (ttl : Int) : P (List String) := do
  let now ← cmd .now
  closing do
    let rows ← cmd (.selectStale (now - ttl))
    requeueEach rows []

/-- `list_by_state`. -/
def listByState (state : TaskState) (limit : Nat) : P (List Row) :=
  cmd (.selectByState state limit)

/-! ## The system -/

/-- A call of the backend. -/
inductive Op where
  | create (title description project : String) (priority : Int) (requires : List String)
      (estimatedMinutes : Int) (createdBy : String)
  | claim (claimer : String) (task_id : Option String)
  | claimMatching (capabilities : List String) (claimer : String)
  | start (task_id : String)
  | complete (task_id result : String)
  | fail (task_id error : String)
  | requeue (task_id : String)
  | requeueStale (ttl : Int)

/-- What each method returns. -/
abbrev Ret : Op → Type
  | .requeueStale _ => List String
  | _ => Option Row

/-- The program of each method. -/
def prog : (o : Op) → P (Ret o)
  | .create title description project priority requires estimated createdBy =>
    Sqlite.create title description project priority requires estimated createdBy
  | .claim claimer task_id => Sqlite.claim claimer task_id
  | .claimMatching capabilities claimer => Sqlite.claimMatching capabilities claimer
  | .start task_id => Sqlite.start task_id
  | .complete task_id result => Sqlite.complete task_id result
  | .fail task_id error => Sqlite.fail task_id error
  | .requeue task_id => Sqlite.requeue task_id
  | .requeueStale ttl => Sqlite.requeueStale ttl

/-- Any number of clients on one database file. -/
abbrev system : System := ⟨sig, store, PyError, Op, Ret, prog⟩

/-- The database holding `t`, before any call. -/
abbrev opened (t : Tasks) : Config system := .init (Db.at_ t)

end ClaudeSwarm.Sqlite
