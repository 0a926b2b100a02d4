import ClaudeSwarm.Cascade.Sqlite
import ClaudeSwarm.Cascade.Store
import ClaudeSwarm.Interleave.Part
import ClaudeSwarm.Python.Repr

/-!
# The task ledger of the cascade

Model of `ledger_write`, `ledger_read` and `ledger_list_by_state` of `src/state_store_cascade.py`, with SQLite statement
by statement (`Sqlite.lean`). A task is a hash in Redis, its fields merged by every write, and a member of the set of
every state it was written with. What Redis accepts is submitted to the mirror as a `Job`; a worker picks the jobs in
the order of their submission. The slots, which the same backends hold, are those of `Store.lean`.

The keys of Redis are here under the slot, the task or the state they are of. A request that Redis refuses, or that
does not reach it, raises, and the operation goes on to the Context Bridge and to SQLite.
-/

namespace ClaudeSwarm.Cascade.Ledger

open Interleave Data
open Python (Time Unicode strJson)
open Sqlite (TaskState stateName truthy Exc)

/-- A function submitted to the mirror, with its arguments. -/
inductive Job where
  | claim (slot_key holder : String) (ttl_s : Int)
  | release (slot_key holder : String)
  | task (task_id : String) (state : TaskState)

/-- What Redis holds. -/
structure Redis where
  slots : String → Option (String × Time)
  hashes : String → Dict String String
  byState : String → List String

/-- What is up, what the backends hold, and the jobs of the mirror that no worker has picked. -/
structure State where
  redisUp : Bool
  bridgeUp : Bool
  redis : Redis
  slotFacts : String → Option Fact
  taskFacts : String → Option String
  sqlite : Sqlite.State
  queue : List Job

/-- A request to a backend, a step of the mirror, or a change of the world outside. -/
inductive Cmd where
  | health
  | set (key value : String) (ex : Int)
  | get (key : String)
  | delete (key : String)
  | write (task_id : String) (flat : Dict String String) (state : Option String)
  | hgetall (task_id : String)
  | smembers (state : String)
  | querySlot (subject : String)
  | assertSlot (subject : String) (obj : Fact)
  | queryTask (task_id : String)
  | assertTask (task_id : String) (text : String)
  | sql (c : Sqlite.Cmd)
  | submit (job : Job)
  | pick
  | setRedis (up : Bool)
  | setBridge (up : Bool)

/-- What a command answers; for Redis, `none` is an exception. -/
abbrev Resp : Cmd → Type
  | .health => Bool
  | .set .. => Option Bool
  | .get _ => Option (Option String)
  | .delete _ => Option Bool
  | .write .. => Option Unit
  | .hgetall _ => Option (Dict String String)
  | .smembers _ => Option (List String)
  | .querySlot _ => Option Fact
  | .assertSlot .. => Bool
  | .queryTask _ => Option String
  | .assertTask .. => Bool
  | .sql c => Sqlite.Resp c
  | .submit _ => Unit
  | .pick => Option Job
  | .setRedis _ | .setBridge _ => Unit

namespace Redis

/-- The value of a slot's key; a key whose time is up is gone. -/
def value (r : Redis) (now : Time) (key : String) : Option String :=
  (r.slots key).bind fun p => if now < p.2 then some p.1 else none

/-- `HSET`: the fields are merged into the hash. -/
def hset (r : Redis) (task_id : String) (flat : Dict String String) : Redis :=
  { r with hashes := Function.update r.hashes task_id ((r.hashes task_id).update flat) }

/-- `SADD`. -/
def sadd (r : Redis) (state task_id : String) : Redis :=
  { r with byState := Function.update r.byState state ((r.byState state).insert task_id) }

/-- The pipeline of `ledger_write`. -/
def write (r : Redis) (task_id : String) (flat : Dict String String) (state : Option String) : Redis :=
  match state with
  | some name => (r.hset task_id flat).sadd name task_id
  | none => r.hset task_id flat

end Redis

/-- Nothing written yet, and every backend up. -/
def State.fresh : State where
  redisUp := true
  bridgeUp := true
  redis := ⟨fun _ => none, fun _ => .empty, fun _ => []⟩
  slotFacts _ := none
  taskFacts _ := none
  sqlite := ⟨0, .at_ .empty⟩
  queue := []

/-- One command. Redis refuses an expire time that is not positive, and its client a hash without fields. -/
def exec (real : String → Option String) (n : Nat) (i : Sqlite.Env) (s : State) :
    (c : Cmd) → Option (Resp c × State)
  | .health => some (s.redisUp, s)
  | .set key value ex =>
    if s.redisUp = false ∨ ex ≤ 0 then some (none, s)
    else if (s.redis.value s.sqlite.now key).isSome then some (some false, s)
    else
      let slots := Function.update s.redis.slots key (some (value, s.sqlite.now + ex))
      some (some true, { s with redis.slots := slots })
  | .get key => if s.redisUp then some (some (s.redis.value s.sqlite.now key), s) else some (none, s)
  | .delete key =>
    if s.redisUp then
      let slots := Function.update s.redis.slots key none
      some (some (s.redis.value s.sqlite.now key).isSome, { s with redis.slots := slots })
    else some (none, s)
  | .write task_id flat state =>
    if s.redisUp = false ∨ flat.entries = [] then some (none, s)
    else some (some (), { s with redis := s.redis.write task_id flat state })
  | .hgetall task_id => if s.redisUp then some (some (s.redis.hashes task_id), s) else some (none, s)
  | .smembers state => if s.redisUp then some (some (s.redis.byState state), s) else some (none, s)
  | .querySlot subject => if s.bridgeUp then some (s.slotFacts subject, s) else some (none, s)
  | .assertSlot subject obj =>
    if s.bridgeUp then some (true, { s with slotFacts := Function.update s.slotFacts subject (some obj) })
    else some (false, s)
  | .queryTask task_id => if s.bridgeUp then some (s.taskFacts task_id, s) else some (none, s)
  | .assertTask task_id text =>
    if s.bridgeUp then some (true, { s with taskFacts := Function.update s.taskFacts task_id (some text) })
    else some (false, s)
  | .sql c => (Sqlite.exec real n i s.sqlite c).map fun p => (p.1, { s with sqlite := p.2 })
  | .submit job => some ((), { s with queue := s.queue ++ [job] })
  | .pick => some (s.queue.head?, { s with queue := s.queue.tail })
  | .setRedis up => some ((), { s with redisUp := up })
  | .setBridge up => some ((), { s with bridgeUp := up })

abbrev sig : Sig := ⟨Cmd, Resp⟩

abbrev store (real : String → Option String) : Store sig := ⟨State, Sqlite.Env, exec real⟩

abbrev P (α : Type) := Prog sig Exc α

/-- Issue one command. -/
def cmd (c : Cmd) : P (Resp c) := @Prog.cmd sig Exc c

/-- SQLite as a part of the cascade. -/
def sqlite (real : String → Option String) : Part (Sqlite.store real) (store real) where
  cmd := .sql
  resp _ x := x
  get := State.sqlite
  Beside s s' := s' = { s with sqlite := s'.sqlite }
  refl _ := rfl
  trans h h' := by rw [h', h]
  exec {n i s c x s₁} h := by
    have hmap : (Sqlite.exec real n i s.sqlite c).map (fun p => (p.1, { s with sqlite := p.2 })) = some (x, s₁) := h
    obtain ⟨p, hp, he⟩ := Option.map_eq_some_iff.mp hmap
    cases he
    exact ⟨rfl, i, hp⟩

/-- A function of `_SQLiteStore`. -/
def onSqlite {α : Type} : Sqlite.P α → P α
  | .ret a => .ret a
  | .raise e => .raise e
  | .op c k => .op (.sql c) fun x => onSqlite (k x)

/-! ## Tasks -/

/-- The text of a field in the hash of a task. -/
def field (u : Unicode) : Json → String
  | .arr l => Json.dumps (.arr l)
  | .obj l => Json.dumps (.obj l)
  | v => strJson u v

/-- `flat`. -/
def flat (u : Unicode) (state : TaskState) : Dict String String :=
  .ofList (state.entries.map fun e => (e.1, field u e.2))

/-- The state whose set a task is added to. -/
def setName (u : Unicode) (state : TaskState) : Option String :=
  if truthy (stateName state) then some (strJson u (stateName state)) else none

/-- `ledger_write` without Redis. -/
def writeBelow (task_id : String) (state : TaskState) : P Bool := do
  match ← cmd (.assertTask task_id (Json.dumps (.obj state.entries))) with
  | true => return true
  | false => onSqlite (Sqlite.taskWrite task_id state)

/-- `ledger_write`. -/
def ledgerWrite (u : Unicode) (task_id : String) (state : TaskState) : P Bool := do
  match ← cmd .health with
  | true =>
    match ← cmd (.write task_id (flat u state) (setName u state)) with
    | some _ =>
      cmd (.submit (.task task_id state))
      return true
    | none => writeBelow task_id state
  | false => writeBelow task_id state

/-- A value of `_decode_redis_hash`. -/
def decode (text : String) : Json := (Json.loads text).getD (.str text)

/-- `_decode_redis_hash`. -/
def decodeRedisHash (data : Dict String String) : Json := .obj (data.entries.map fun e => (e.1, decode e.2))

/-- What `query_fact` and `ledger_read` make of the text of a fact. -/
def readFact (text : String) : Json :=
  match decode text with
  | .obj l => .obj l
  | v => .obj [("raw", v)]

/-- `ledger_read` without Redis. -/
def readBelow (task_id : String) : P (Option Json) := do
  match ← cmd (.queryTask task_id) with
  | some text => return some (readFact text)
  | none => onSqlite (Sqlite.taskRead task_id)

/-- `ledger_read`. -/
def ledgerRead (task_id : String) : P (Option Json) := do
  match ← cmd .health with
  | true =>
    match ← cmd (.hgetall task_id) with
    | some data => if data.entries ≠ [] then return some (decodeRedisHash data) else readBelow task_id
    | none => readBelow task_id
  | false => readBelow task_id

/-- The hashes of the tasks of a set that have one. -/
def readMembers : List String → List Json → P (Option (List Json))
  | [], results => return some results
  | tid :: task_ids, results => do
    match ← cmd (.hgetall tid) with
    | some data => readMembers task_ids (if data.entries ≠ [] then results ++ [decodeRedisHash data] else results)
    | none => return none

/-- `ledger_list_by_state`. -/
def ledgerListByState (state_name : String) : P (List Json) := do
  match ← cmd .health with
  | true =>
    match ← cmd (.smembers state_name) with
    | some task_ids =>
      match ← readMembers task_ids [] with
      | some results => return results
      | none => onSqlite (Sqlite.taskListByState state_name)
    | none => onSqlite (Sqlite.taskListByState state_name)
  | false => onSqlite (Sqlite.taskListByState state_name)

end ClaudeSwarm.Cascade.Ledger
