import ClaudeSwarm.Interleave.System
import ClaudeSwarm.Python

/-!
# The state-store cascade

Model of the slot operations of `src/state_store_cascade.py`. A slot is claimed in Redis; when Redis cannot
be reached, in the Context Bridge; when that cannot be reached, in SQLite. What Redis grants and releases is
mirrored to SQLite by a background worker.

Redis keeps a key until it is deleted or its time is up. The Context Bridge keeps the last object asserted
of a subject. SQLite is always there, and the mirror writes that are yet to be made are `pending`. The
operations are programs over these, one command for each request; the retries of `_try_redis` are one look.
-/

namespace ClaudeSwarm.Cascade

open Interleave
open Python (Time truncate)

/-- The JSON object asserted of a slot: `{}`, or the holder and the second its time is up. -/
inductive Fact where
  | empty
  | claim (holder : String) (ttl_expires : Int)
  deriving DecidableEq

/-- A row of `slots`. -/
structure Row where
  holder : String
  ttlExpires : Int
  deriving DecidableEq

/-- A mirror write. -/
inductive Write where
  | claim (slot_key holder : String) (ttl_s : Int)
  | release (slot_key holder : String)
  deriving DecidableEq

/-- The slot a mirror write is about. -/
def Write.key : Write → String
  | .claim slot_key _ _ => slot_key
  | .release slot_key _ => slot_key

/-- The clock, which backends are up, and what they have. A key of Redis is here under its slot. -/
structure State where
  now : Time
  redisUp : Bool
  bridgeUp : Bool
  redis : String → Option (String × Time)
  facts : String → Option Fact
  rows : String → Option Row
  pending : List Write

/-- A request, or a change of the world outside. -/
inductive Cmd where
  | time
  | health
  | set (key value : String) (ex : Int)
  | get (key : String)
  | delete (key : String)
  | query (subject : String)
  | assert (subject : String) (obj : Fact)
  | select (key : String)
  | insert (key : String) (row : Row)
  | deleteRow (key : String)
  | submit (w : Write)
  | take (i : Nat)
  | advance (t : Time)
  | setRedis (up : Bool)
  | setBridge (up : Bool)

/-- What a command answers; for Redis, `none` is an exception. -/
def Resp : Cmd → Type
  | .time => Time
  | .health => Bool
  | .set _ _ _ => Option Bool
  | .get _ => Option (Option String)
  | .delete _ => Option Bool
  | .query _ => Option Fact
  | .assert _ _ => Bool
  | .select _ => Option Row
  | .take _ => Option Write
  | .insert _ _ | .deleteRow _ | .submit _ | .advance _ | .setRedis _ | .setBridge _ => Unit

namespace State

/-- The value of a key of Redis; a key whose time is up is gone. -/
def value (s : State) (key : String) : Option String :=
  (s.redis key).bind fun p => if s.now < p.2 then some p.1 else none

/-- Nothing claimed yet, and every backend up. -/
def fresh : State where
  now := 0
  redisUp := true
  bridgeUp := true
  redis _ := none
  facts _ := none
  rows _ := none
  pending := []

end State

/-- One command. Redis refuses an expire time that is not positive. -/
def exec (_ : Nat) (_ : Unit) (s : State) : (c : Cmd) → Option (Resp c × State)
  | .time => some (s.now, s)
  | .health => some (s.redisUp, s)
  | .set key value ex =>
    if s.redisUp = false ∨ ex ≤ 0 then some (none, s)
    else if (s.value key).isSome then some (some false, s)
    else some (some true, { s with redis := Function.update s.redis key (some (value, s.now + ex)) })
  | .get key => if s.redisUp then some (some (s.value key), s) else some (none, s)
  | .delete key =>
    if s.redisUp then
      some (some (s.value key).isSome, { s with redis := Function.update s.redis key none })
    else some (none, s)
  | .query subject => if s.bridgeUp then some (s.facts subject, s) else some (none, s)
  | .assert subject obj =>
    if s.bridgeUp then some (true, { s with facts := Function.update s.facts subject (some obj) })
    else some (false, s)
  | .select key => some (s.rows key, s)
  | .insert key row => some ((), { s with rows := Function.update s.rows key (some row) })
  | .deleteRow key => some ((), { s with rows := Function.update s.rows key none })
  | .submit w => some ((), { s with pending := s.pending ++ [w] })
  | .take i => some (s.pending[i]?, { s with pending := s.pending.eraseIdx i })
  | .advance t => if s.now ≤ t then some ((), { s with now := t }) else none
  | .setRedis up => some ((), { s with redisUp := up })
  | .setBridge up => some ((), { s with bridgeUp := up })

abbrev sig : Sig := ⟨Cmd, Resp⟩

abbrev store : Store sig := ⟨State, Unit, exec⟩

/-- The operations let no exception out. -/
abbrev P := Prog sig Empty

/-- Issue a command. -/
def cmd (c : Cmd) : P (Resp c) := @Prog.cmd sig Empty c

theorem each_cmd {α : Type} {ok : Cmd → Prop} {c : Cmd} {f : Resp c → P α} (hc : ok c)
    (hf : ∀ x, (f x).Each ok) : (cmd c >>= f).Each ok := ⟨hc, hf⟩

/-! ## SQLite -/

/-- `_SQLiteStore.slot_claim`. -/
def slotClaim (key holder : String) (ttl_s : Int) : P Bool := do
  let expires := truncate (← cmd .time) + ttl_s
  match ← cmd (.select key) with
  | some existing =>
    let now ← cmd .time
    if existing.ttlExpires > truncate now ∧ existing.holder ≠ holder then return false
    else
      cmd (.insert key ⟨holder, expires⟩)
      return true
  | none =>
    cmd (.insert key ⟨holder, expires⟩)
    return true

/-- `_SQLiteStore.slot_release`. -/
def slotRelease (key holder : String) : P Bool := do
  match ← cmd (.select key) with
  | some row =>
    if row.holder = holder then
      cmd (.deleteRow key)
      return true
    else return false
  | none => return false

/-- `_SQLiteStore.slot_holder`. -/
def sqliteHolder (key : String) : P (Option String) := do
  match ← cmd (.select key) with
  | none => return none
  | some row =>
    let now ← cmd .time
    if row.ttlExpires ≤ truncate now then
      cmd (.deleteRow key)
      return none
    else return some row.holder

/-! ## The cascade -/

/-- `claim_slot` after its query. -/
def claimBridge (slot_key holder : String) (ttl_s : Int) (obj : Fact) : P Bool := do
  match ← cmd (.assert slot_key obj) with
  | true => return true
  | false => slotClaim slot_key holder ttl_s

/-- `claim_slot` without Redis. -/
def claimBelow (slot_key holder : String) (ttl_s : Int) : P Bool := do
  let obj := Fact.claim holder (truncate (← cmd .time) + ttl_s)
  match ← cmd (.query slot_key) with
  | some (.claim h ttl_expires) =>
    let now ← cmd .time
    if ttl_expires > truncate now ∧ h ≠ holder then return false
    else claimBridge slot_key holder ttl_s obj
  | _ => claimBridge slot_key holder ttl_s obj

/-- `claim_slot`. -/
def claimSlot (slot_key holder : String) (ttl_s : Int) : P Bool := do
  match ← cmd .health with
  | true =>
    match ← cmd (.set slot_key holder ttl_s) with
    | some true =>
      cmd (.submit (.claim slot_key holder ttl_s))
      return true
    | some false => return false
    | none => claimBelow slot_key holder ttl_s
  | false => claimBelow slot_key holder ttl_s

/-- `release_slot` without Redis. -/
def releaseBelow (slot_key holder : String) : P Bool := do
  match ← cmd (.query slot_key) with
  | some (.claim h _) =>
    if h = holder then
      match ← cmd (.assert slot_key .empty) with
      | true => return true
      | false => slotRelease slot_key holder
    else slotRelease slot_key holder
  | _ => slotRelease slot_key holder

/-- `release_slot`. -/
def releaseSlot (slot_key holder : String) : P Bool := do
  match ← cmd .health with
  | true =>
    match ← cmd (.get slot_key) with
    | some current =>
      if current = some holder then
        match ← cmd (.delete slot_key) with
        | some true =>
          cmd (.submit (.release slot_key holder))
          return true
        | some false => return false
        | none => releaseBelow slot_key holder
      else return false
    | none => releaseBelow slot_key holder
  | false => releaseBelow slot_key holder

/-- `slot_holder` without Redis. -/
def holderBelow (slot_key : String) : P (Option String) := do
  match ← cmd (.query slot_key) with
  | some (.claim h ttl_expires) =>
    let now ← cmd .time
    if ttl_expires > truncate now then return some h else return none
  | _ => sqliteHolder slot_key

/-- `slot_holder`. -/
def slotHolder (slot_key : String) : P (Option String) := do
  match ← cmd .health with
  | true =>
    match ← cmd (.get slot_key) with
    | some holder => return holder
    | none => holderBelow slot_key
  | false => holderBelow slot_key

/-- What a worker does with a mirror write. -/
def Write.run : Write → P Bool
  | .claim slot_key holder ttl_s => slotClaim slot_key holder ttl_s
  | .release slot_key holder => slotRelease slot_key holder

/-- A worker executes one of the mirror writes. -/
def mirror (i : Nat) : P Bool := do
  match ← cmd (.take i) with
  | some w => w.run
  | none => return false

/-- The calls of the cascade, its workers, and the world outside. -/
inductive Op where
  | claim (slot_key holder : String) (ttl_s : Int)
  | release (slot_key holder : String)
  | holder (slot_key : String)
  | mirror (i : Nat)
  | advance (t : Time)
  | setRedis (up : Bool)
  | setBridge (up : Bool)
  deriving DecidableEq

/-- What an operation returns. -/
def Op.Ret : Op → Type
  | .claim _ _ _ | .release _ _ | .mirror _ => Bool
  | .holder _ => Option String
  | .advance _ | .setRedis _ | .setBridge _ => Unit

/-- The program of an operation. -/
def prog : (o : Op) → P o.Ret
  | .claim slot_key holder ttl_s => claimSlot slot_key holder ttl_s
  | .release slot_key holder => releaseSlot slot_key holder
  | .holder slot_key => slotHolder slot_key
  | .mirror i => mirror i
  | .advance t => cmd (.advance t)
  | .setRedis up => cmd (.setRedis up)
  | .setBridge up => cmd (.setBridge up)

/-- The cascade. -/
abbrev system : System := ⟨sig, store, Empty, Op, Op.Ret, prog⟩

end ClaudeSwarm.Cascade
