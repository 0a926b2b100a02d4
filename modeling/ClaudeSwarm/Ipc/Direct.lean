import ClaudeSwarm.Data.Json
import ClaudeSwarm.Data.Table
import ClaudeSwarm.Interleave.Outline
import ClaudeSwarm.Redis.Queue

/-!
# Direct messages and their dead-letter queue

Model of `send` and `recv` of `src/ipc/direct.py`, of `requeue`, `purge`, `prune_old_messages` and `sweep_pending` of
`src/ipc/dlq.py`, and of the mirror of `src/ipc/dlq_persist.py`, command by command, in any number of processes. A Lua
script is one command, and so is a statement of the mirror, which never fails here, with the time that it writes.

The text of an envelope is the JSON value that is read from it. An id or a timestamp that it lacks, for which
`Envelope` draws a new one, is `none`. What Python's operators make of the values of an envelope, and what the server
trims, are parameters. `SEND_ATOMIC` and `XTRIM` answer 1 or 0, and a number; the ids that they add and remove stand
beside that for the history. A `uuid` is drawn once: it is the number of the call that draws it. Inboxes are never
trimmed; the counters, and the agent that a function falls back to, are left out. Blocking reads are reads at the time
when they end.

* `fromJson_toJson`: what `send` writes is what `recv` reads.
* `depthPersisted`, `falsePositiveRate`: what is read off the mirror.
-/

namespace ClaudeSwarm.Ipc.Direct

open Data Interleave
open Python (Time truncate)
open Redis (StreamId Log Queue)

/-! ## `envelope.py` -/

/-- What Python's operators make of JSON values; `none` is an exception. -/
structure Operators where
  le : Json → Json → Option Bool
  add : Json → Json → Option Json
  exceeds : Time → Json → Option Bool
  ofTime : Time → Json
  str : Json → String

/-- `Envelope`. -/
structure Envelope where
  sender : Json
  recipient : Json
  message_type : Json
  payload : Json
  id : Option Json
  timestamp : Option Json
  correlation_id : Json
  reply_to : Json
  ttl : Json
  priority : Json
  sequence : Json
  final : Json
  deriving DecidableEq

/-- `MESSAGE_TYPES`. -/
def messageTypes : List String :=
  ["direct", "channel", "rpc_request", "rpc_response", "rpc_stream", "broadcast", "presence", "ping", "pong"]

def fieldNames : List String :=
  ["sender", "recipient", "message_type", "payload", "id", "timestamp", "correlation_id", "reply_to", "ttl", "priority",
    "sequence", "final"]

namespace Envelope

variable (R : Operators)

/-- What `__post_init__` lets pass. -/
def Valid (env : Envelope) : Prop :=
  (∃ t ∈ messageTypes, env.message_type = .str t) ∧ R.le (.int 0) env.priority = some true ∧
    R.le env.priority (.int 5) = some true

/-- `__post_init__`; `none` is an exception. -/
def postInit (env : Envelope) : Option Envelope :=
  match env.message_type with
  | .str t =>
    if t ∈ messageTypes ∧ R.le (.int 0) env.priority = some true ∧ R.le env.priority (.int 5) = some true then some env
    else none
  | _ => none

/-- A member that is there. -/
def member (name : String) (value : Option Json) : List (String × Json) := value.toList.map (name, ·)

/-- `to_json`. -/
def toJson (env : Envelope) : Json :=
  .obj ([("sender", env.sender), ("recipient", env.recipient), ("message_type", env.message_type),
    ("payload", env.payload)] ++ member "id" env.id ++ member "timestamp" env.timestamp ++
    [("correlation_id", env.correlation_id), ("reply_to", env.reply_to), ("ttl", env.ttl), ("priority", env.priority),
      ("sequence", env.sequence), ("final", env.final)])

/-- `from_json`; `none` is an exception. -/
def fromJson (raw : Json) : Option Envelope :=
  match raw with
  | .obj members =>
    if members.all fun m => fieldNames.contains m.1 then do
      let sender ← raw.get? "sender"
      let recipient ← raw.get? "recipient"
      let message_type ← raw.get? "message_type"
      postInit R
        { sender := sender
          recipient := recipient
          message_type := message_type
          payload := (raw.get? "payload").getD (.obj [])
          id := raw.get? "id"
          timestamp := raw.get? "timestamp"
          correlation_id := (raw.get? "correlation_id").getD (.str "")
          reply_to := (raw.get? "reply_to").getD (.str "")
          ttl := (raw.get? "ttl").getD (.int 0)
          priority := (raw.get? "priority").getD (.int 3)
          sequence := (raw.get? "sequence").getD (.int 0)
          final := (raw.get? "final").getD (.bool true) }
    else none
  | _ => none

/-- `is_expired`, at a time; `none` is an exception. -/
def isExpired (env : Envelope) (now : Time) : Option Bool := do
  if ← R.le env.ttl (.int 0) then return false
  else
    let deadline ← R.add (env.timestamp.getD (R.ofTime now)) env.ttl
    R.exceeds now deadline

theorem postInit_of_valid {R : Operators} {env : Envelope} (h : env.Valid R) : postInit R env = some env := by
  obtain ⟨⟨t, ht, hmt⟩, hle⟩ := h
  unfold postInit
  rw [hmt]
  exact if_pos ⟨ht, hle⟩

/-- **What `send` writes is what `recv` reads.** -/
theorem fromJson_toJson {R : Operators} {env : Envelope} (h : env.Valid R) : fromJson R env.toJson = some env := by
  obtain ⟨sender, recipient, message_type, payload, id, timestamp, correlation_id, reply_to, ttl, priority, sequence,
    final⟩ := env
  unfold fromJson toJson
  cases id with
  | none =>
    cases timestamp with
    | none => exact postInit_of_valid h
    | some timestamp => exact postInit_of_valid h
  | some id =>
    cases timestamp with
    | none => exact postInit_of_valid h
    | some timestamp => exact postInit_of_valid h

end Envelope

/-! ## Redis and SQLite -/

/-- The fields of an entry of an inbox or of the DLQ; `none` is a text that is missing or no JSON. -/
structure Fields where
  envelope : Option Json
  reason : Option String

/-- `RESOLUTION_REQUEUED`, `RESOLUTION_PURGED`, `RESOLUTION_EXPIRED`. -/
inductive Resolution where
  | requeued | purged | expired
  deriving DecidableEq

/-- A row of `dlq_entries`. -/
structure Row where
  stream_id : StreamId
  reason : String
  envelope_fields : Fields
  inserted_at_ms : Int
  resolution : Option Resolution
  resolved_at_ms : Option Int

/-- The server: how many of the oldest entries a full DLQ drops, how many of those below the cutoff `XTRIM` keeps, and
whether it knows `MINID`. -/
structure Server where
  dropped : Log Fields → Nat
  kept : Log Fields → StreamId → Nat
  minid : Bool

/-- The agent index, the inboxes, the DLQ, its mirror, and the clock of the processes. -/
structure Keys where
  index : List String
  inbox : String → Queue Fields
  dlq : Log Fields
  rows : Table Row.stream_id
  clock : Time

namespace Keys

/-- An operation on one inbox. -/
def onInbox (s : Keys) (agent_id : String) (f : Queue Fields → Queue Fields) : Keys :=
  { s with inbox := Function.update s.inbox agent_id (f (s.inbox agent_id)) }

/-- `XADD ipc:dlq MAXLEN ~ 5000`. -/
def addDlq (S : Server) (s : Keys) (now : Nat) (fields : Fields) : Keys :=
  let dlq := s.dlq.add now fields
  { s with dlq := dlq.trim (min (S.dropped dlq) (dlq.entries.length - 5000)) }

/-- `XDEL`. -/
def delDlq (s : Keys) (ids : List StreamId) : Keys := { s with dlq := s.dlq.del ids }

/-- The ids of the DLQ below a cutoff. -/
def below (s : Keys) (cutoff : StreamId) : List StreamId := s.dlq.ids.filter (· < cutoff)

/-- How many of them `XTRIM MINID ~` removes. -/
def trimmed (S : Server) (s : Keys) (cutoff : StreamId) : Nat := (s.below cutoff).length - S.kept s.dlq cutoff

/-- `int(time.time() * 1000)`. -/
def nowMs (s : Keys) : Int := truncate (s.clock * 1000)

/-- `INSERT OR IGNORE INTO dlq_entries`. -/
def persist (s : Keys) (stream_id : StreamId) (reason : String) (fields : Fields) : Keys :=
  { s with rows := (s.rows.insert ⟨stream_id, reason, fields, s.nowMs, none, none⟩).getD s.rows }

/-- `UPDATE dlq_entries SET … WHERE … AND resolution IS NULL`. -/
def markResolved (s : Keys) (ids : List StreamId) (resolution : Resolution) : Keys :=
  { s with
    rows := s.rows.update (fun r => ids.contains r.stream_id && r.resolution.isNone)
      (fun r => { r with resolution := some resolution, resolved_at_ms := some s.nowMs }) fun _ => rfl }

/-- `depth_persisted`. -/
def depthPersisted (s : Keys) : Nat := s.rows.count fun r => r.resolution.isNone

/-- `dlq_depth`. -/
def dlqDepth (s : Keys) : Nat := s.dlq.entries.length

/-- The rows of a resolution in the window of `false_positive_rate`. -/
def resolvedSince (s : Keys) (cutoff_ms : Int) (resolution : Resolution) : Nat :=
  s.rows.count fun r => r.resolution = some resolution ∧ ∃ t ∈ r.resolved_at_ms, cutoff_ms ≤ t

/-- `false_positive_rate`. -/
def falsePositiveRate (s : Keys) (window_seconds : Time) : Time × Nat × Nat :=
  let cutoff_ms := truncate ((s.clock - window_seconds) * 1000)
  let requeued := s.resolvedSince cutoff_ms .requeued
  let total := requeued + s.resolvedSince cutoff_ms .expired
  if total = 0 then (0, 0, 0) else ((requeued : Time) / total, requeued, total)

end Keys

/-- A command; `isExpired` is the method of an envelope, which reads the clock, and `tick` the passing of time. -/
inductive Cmd where
  | uuid
  | time
  | sendAtomic (envelope : Json) (recipient : String)
  | xreadgroup (agent_id : String) (pending : Bool) (count : Nat)
  | isExpired (env : Envelope)
  | xack (agent_id : String) (ids : List StreamId)
  | xpending (agent_id : String) (count : Nat)
  | xrangeInbox (agent_id : String) (id : StreamId)
  | xaddDlq (fields : Fields)
  | persist (stream_id : StreamId) (reason : String) (fields : Fields)
  | xrangeDlq (id : StreamId)
  | ensureGroup (agent_id : String)
  | xaddInbox (agent_id : String) (fields : Fields)
  | xdelDlq (ids : List StreamId)
  | markResolved (ids : List StreamId) (resolution : Resolution)
  | dlqIds
  | dlqBelow (cutoff : StreamId)
  | xtrimDlq (cutoff : StreamId)
  | tick (now : Time)
  | setIndex (index : List String)

abbrev Resp : Cmd → Type
  | .uuid => String
  | .time => Time
  | .sendAtomic .. => Bool × StreamId
  | .xreadgroup .. => Option (List (StreamId × Fields))
  | .isExpired _ => Option Bool
  | .xpending .. => List (StreamId × Nat)
  | .xrangeInbox .. | .xrangeDlq _ => Option Fields
  | .xaddDlq _ | .xaddInbox .. => StreamId
  | .dlqIds | .dlqBelow _ => List StreamId
  | .xtrimDlq _ => Option (List StreamId)
  | _ => Unit

/-- One command, at a time of the server. -/
def exec (R : Operators) (S : Server) (n now : Nat) (s : Keys) : (c : Cmd) → Option (Resp c × Keys)
  | .uuid => some (toString n, s)
  | .time => some (s.clock, s)
  | .sendAtomic envelope recipient =>
    if recipient ∈ s.index then
      some ((true, (s.inbox recipient).log.next now), s.onInbox recipient (·.add now ⟨some envelope, none⟩))
    else some ((false, s.dlq.next now), s.addDlq S now ⟨some envelope, some "recipient_not_found"⟩)
  | .xreadgroup agent_id pending count =>
    let q := s.inbox agent_id
    if q.group.isNone then some (none, s)
    else if pending then some (some (q.pending.take count), s.onInbox agent_id (·.redeliver now count))
    else some (some (q.waiting.take count), s.onInbox agent_id (·.deliver now count))
  | .isExpired env => some (env.isExpired R s.clock, s)
  | .xack agent_id ids => some ((), s.onInbox agent_id (·.ack ids))
  | .xpending agent_id count => some ((s.inbox agent_id).pendingRange now count, s)
  | .xrangeInbox agent_id id => some ((s.inbox agent_id).log.entry? id, s)
  | .xaddDlq fields => some (s.dlq.next now, s.addDlq S now fields)
  | .persist stream_id reason fields => some ((), s.persist stream_id reason fields)
  | .xrangeDlq id => some (s.dlq.entry? id, s)
  | .ensureGroup agent_id => some ((), s.onInbox agent_id Queue.ensure)
  | .xaddInbox agent_id fields => some ((s.inbox agent_id).log.next now, s.onInbox agent_id (·.add now fields))
  | .xdelDlq ids => some ((), s.delDlq ids)
  | .markResolved ids resolution => some ((), s.markResolved ids resolution)
  | .dlqIds => some (s.dlq.ids, s)
  | .dlqBelow cutoff => some (s.below cutoff, s)
  | .xtrimDlq cutoff =>
    if S.minid then
      some (some ((s.below cutoff).take (s.trimmed S cutoff)), { s with dlq := s.dlq.trim (s.trimmed S cutoff) })
    else some (none, s)
  | .tick now => some ((), { s with clock := now })
  | .setIndex index => some ((), { s with index := index })

abbrev sig : Sig := ⟨Cmd, Resp⟩

abbrev store (R : Operators) (S : Server) : Store sig := ⟨Keys, Nat, exec R S⟩

section

variable {R : Operators} {S : Server} {n now : Nat} {s s' : Keys}

theorem exec_sendAtomic {envelope : Json} {recipient : String} {x : Bool × StreamId}
    (h : (store R S).exec n now s (.sendAtomic envelope recipient) = some (x, s')) :
    recipient ∈ s.index ∧ x = (true, (s.inbox recipient).log.next now) ∧
        s' = s.onInbox recipient (·.add now ⟨some envelope, none⟩) ∨
      recipient ∉ s.index ∧ x = (false, s.dlq.next now) ∧
        s' = s.addDlq S now ⟨some envelope, some "recipient_not_found"⟩ := by
  dsimp only [exec] at h
  split at h
  · rename_i hknown
    cases h
    exact .inl ⟨hknown, rfl, rfl⟩
  · rename_i hknown
    cases h
    exact .inr ⟨hknown, rfl, rfl⟩

theorem exec_xreadgroup {agent_id : String} {pending : Bool} {count : Nat} {x : Option (List (StreamId × Fields))}
    (h : (store R S).exec n now s (.xreadgroup agent_id pending count) = some (x, s')) :
    (s.inbox agent_id).group.isNone ∧ x = none ∧ s' = s ∨
      (s.inbox agent_id).group.isSome ∧ (pending = true ∧ x = some ((s.inbox agent_id).pending.take count) ∧
          s' = s.onInbox agent_id (·.redeliver now count) ∨
        pending = false ∧ x = some ((s.inbox agent_id).waiting.take count) ∧
          s' = s.onInbox agent_id (·.deliver now count)) := by
  dsimp only [exec] at h
  split at h
  · rename_i hnone
    cases h
    exact .inl ⟨hnone, rfl, rfl⟩
  · rename_i hsome
    refine .inr ⟨by simpa [Option.isSome_iff_ne_none] using hsome, ?_⟩
    split at h
    · rename_i hpending
      cases h
      exact .inl ⟨hpending, rfl, rfl⟩
    · rename_i hpending
      cases h
      exact .inr ⟨by simpa using hpending, rfl, rfl⟩

theorem exec_xtrimDlq {cutoff : StreamId} {x : Option (List StreamId)}
    (h : (store R S).exec n now s (.xtrimDlq cutoff) = some (x, s')) :
    S.minid = true ∧ x = some ((s.below cutoff).take (s.trimmed S cutoff)) ∧
        s' = { s with dlq := s.dlq.trim (s.trimmed S cutoff) } ∨
      x = none ∧ s' = s := by
  dsimp only [exec] at h
  split at h
  · rename_i hminid
    cases h
    exact .inl ⟨hminid, rfl, rfl⟩
  · cases h
    exact .inr ⟨rfl, rfl⟩

end

/-- What the functions raise. -/
inductive Exc where
  | runtimeError (msg : String)
  | valueError
  | dataError (msg : String)
  | responseError (msg : String)

abbrev P (α : Type) := Prog sig Exc α

/-- Issue one command. -/
def cmd (c : Cmd) : P (Resp c) := @Prog.cmd sig Exc c

def notRegistered : Exc := .runtimeError "Not registered — call ipc.register() first"

/-! ## `direct.py` -/

/-- `{"text": payload}`, if it is a text. -/
def wrap : Json → Json
  | .str text => .obj [("text", .str text)]
  | payload => payload

/-- The envelope of `send`. -/
def envelope (R : Operators) (recipient : String) (payload : Json) (priority ttl : Int) (sender id : String)
    (timestamp : Time) : Envelope where
  sender := .str sender
  recipient := .str recipient
  message_type := .str "direct"
  payload := wrap payload
  id := some (.str id)
  timestamp := some (R.ofTime timestamp)
  correlation_id := .str ""
  reply_to := .str ""
  ttl := .int ttl
  priority := .int priority
  sequence := .int 0
  final := .bool true

/-- `send`. -/
def send (R : Operators) (recipient : String) (payload : Json) (priority ttl : Int) (sender : String) :
    P (Bool × String) :=
  if sender = "" then .raise notRegistered
  else do
    let id ← cmd .uuid
    let timestamp ← cmd .time
    match Envelope.postInit R (envelope R recipient payload priority ttl sender id timestamp) with
    | none => .raise .valueError
    | some env =>
      let result ← cmd (.sendAtomic env.toJson recipient)
      return (result.1, id)

/-- `stream_read_group`. -/
def streamReadGroup (agent_id : String) (count : Int) (pending : Bool) : P (List (StreamId × Fields)) :=
  if count < 1 then .raise (.dataError "XREADGROUP count must be a positive integer")
  else do
    match ← cmd (.xreadgroup agent_id pending count.toNat) with
    | none => .raise (.responseError "NOGROUP No such key or consumer group")
    | some entries => return entries

/-- `if remaining > 0: …`. -/
def readNew (agent_id : String) (remaining : Int) : P (List (StreamId × Fields)) :=
  if 0 < remaining then streamReadGroup agent_id remaining false else .ret []

/-- The envelope of an entry, if it has one that has not expired. -/
def accept (R : Operators) (fields : Fields) : P (Option Envelope) :=
  match fields.envelope.bind (Envelope.fromJson R) with
  | none => .ret none
  | some env => do
    let expired ← cmd (.isExpired env)
    return if expired = some false then some env else none

/-- The loop of `recv`: the envelopes, and `ack_ids`. -/
def sort (R : Operators) : List (StreamId × Fields) → P (List Envelope × List StreamId)
  | [] => .ret ([], [])
  | (stream_id, fields) :: entries => do
    let env ← accept R fields
    let sorted ← sort R entries
    return (env.toList ++ sorted.1, stream_id :: sorted.2)

/-- `if auto_ack and ack_ids: …`. -/
def acknowledge (auto_ack : Bool) (agent_id : String) (ack_ids : List StreamId) : P Unit :=
  if auto_ack ∧ ack_ids ≠ [] then cmd (.xack agent_id ack_ids) else .ret ()

/-- `recv`; where there are no entries there is nothing to sort. -/
def recv (R : Operators) (agent_id : String) (count : Int) (auto_ack : Bool) : P (List Envelope) :=
  if agent_id = "" then .raise notRegistered
  else do
    let entries ← streamReadGroup agent_id count true
    let new_entries ← readNew agent_id (count - entries.length)
    let sorted ← sort R (entries ++ new_entries)
    acknowledge auto_ack agent_id sorted.2
    return sorted.1

/-! ## `dlq.py` -/

/-- The recipient of `requeue`. -/
def recipientOf (R : Operators) (new_recipient : Option String) (env : Envelope) : String :=
  (new_recipient.filter (· ≠ "")).getD (match env.recipient with
    | .str recipient => recipient
    | value => R.str value)

/-- The text of an entry, and its envelope, if it has one. -/
def readEnvelope (R : Operators) (fields : Fields) : Option (Json × Envelope) :=
  fields.envelope.bind fun raw_env => (Envelope.fromJson R raw_env).map (raw_env, ·)

/-- `requeue`. -/
def requeue (R : Operators) (message_id : StreamId) (new_recipient : Option String) : P Bool := do
  let raw ← cmd (.xrangeDlq message_id)
  match raw.bind (readEnvelope R) with
  | none => return false
  | some (raw_env, env) =>
    cmd (.ensureGroup (recipientOf R new_recipient env))
    let _ ← cmd (.xaddInbox (recipientOf R new_recipient env) ⟨some raw_env, none⟩)
    cmd (.xdelDlq [message_id])
    cmd (.markResolved [message_id] .requeued)
    return true

/-- `mark_resolved_bulk`. -/
def markResolvedBulk (ids : List StreamId) (resolution : Resolution) : P Unit :=
  if ids = [] then .ret () else cmd (.markResolved ids resolution)

/-- `purge`. -/
def purge (older_than_seconds : Time) : P Nat := do
  let now ← cmd .time
  let raw ← cmd .dlqIds
  let to_delete := raw.filter fun id => ((id.ms : Nat) : Time) / 1000 < now - older_than_seconds
  if to_delete = [] then return 0
  else
    cmd (.xdelDlq to_delete)
    markResolvedBulk to_delete .purged
    return to_delete.length

/-- The chunks of 100 of a list, whose length is at most the fuel. -/
def hundreds : Nat → List StreamId → List (List StreamId)
  | 0, _ => []
  | fuel + 1, ids => if ids = [] then [] else ids.take 100 :: hundreds fuel (ids.drop 100)

/-- `XDEL`, chunk by chunk. -/
def deleteEach : List (List StreamId) → P Unit
  | [] => .ret ()
  | ids :: chunks => do
    cmd (.xdelDlq ids)
    deleteEach chunks

/-- `prune_old_messages`; an id is not below zero. -/
def pruneOldMessages (hours : Time) : P Nat := do
  let now ← cmd .time
  let cutoff_ms := truncate ((now - hours * 3600) * 1000)
  if cutoff_ms < 0 then .raise (.responseError "Invalid stream ID specified as stream command argument")
  else
    let expired_ids ← cmd (.dlqBelow (.ofMs cutoff_ms.toNat))
    match ← cmd (.xtrimDlq (.ofMs cutoff_ms.toNat)) with
    | some removed =>
      markResolvedBulk expired_ids .expired
      return removed.length
    | none =>
      let ids ← cmd (.dlqBelow (.ofMs cutoff_ms.toNat))
      deleteEach (hundreds ids.length ids)
      markResolvedBulk ids .expired
      return ids.length

/-- The loop of `sweep_pending`. -/
def sweepEach (agent_id : String) : List (StreamId × Nat) → P Nat
  | [] => .ret 0
  | (mid, idle_ms) :: pending => do
    match ← cmd (.xrangeInbox agent_id mid) with
    | none => sweepEach agent_id pending
    | some fields =>
      let reason := "pending_timeout_" ++ toString idle_ms ++ "ms"
      let fields := { fields with reason := some reason }
      let new_stream_id ← cmd (.xaddDlq fields)
      cmd (.persist new_stream_id reason fields)
      cmd (.xack agent_id [mid])
      let moved ← sweepEach agent_id pending
      return moved + 1

/-- `sweep_pending`. -/
def sweepPending (agent_id : String) : P Nat :=
  if agent_id = "" then .ret 0
  else do
    let raw ← cmd (.xpending agent_id 50)
    sweepEach agent_id (raw.filter fun entry => 60000 ≤ entry.2)

/-- An operation of a process; or time passes, or the agents change. -/
inductive Op where
  | send (recipient : String) (payload : Json) (priority ttl : Int) (sender : String)
  | recv (agent_id : String) (count : Int) (auto_ack : Bool)
  | sweepPending (agent_id : String)
  | requeue (message_id : StreamId) (new_recipient : Option String)
  | purge (older_than_seconds : Time)
  | pruneOldMessages (hours : Time)
  | tick (now : Time)
  | setIndex (index : List String)

abbrev Ret : Op → Type
  | .send .. => Bool × String
  | .recv .. => List Envelope
  | .requeue .. => Bool
  | .sweepPending _ | .purge _ | .pruneOldMessages _ => Nat
  | .tick _ | .setIndex _ => Unit

def prog (R : Operators) : (o : Op) → P (Ret o)
  | .send recipient payload priority ttl sender => Direct.send R recipient payload priority ttl sender
  | .recv agent_id count auto_ack => Direct.recv R agent_id count auto_ack
  | .sweepPending agent_id => Direct.sweepPending agent_id
  | .requeue message_id new_recipient => Direct.requeue R message_id new_recipient
  | .purge older_than_seconds => Direct.purge older_than_seconds
  | .pruneOldMessages hours => Direct.pruneOldMessages hours
  | .tick now => cmd (.tick now)
  | .setIndex index => cmd (.setIndex index)

/-- Any number of processes. -/
abbrev system (R : Operators) (S : Server) : System := ⟨sig, store R S, Exc, Op, Ret, prog R⟩

/-! ## The commands of an operation -/

/-- The operation may issue the command. -/
inductive Issues : Op → Cmd → Prop
  | uuid {r m p t f} : Issues (.send r m p t f) .uuid
  | sendTime {r m p t f} : Issues (.send r m p t f) .time
  | sendAtomic {r m p t f} (v : Json) : Issues (.send r m p t f) (.sendAtomic v r)
  | xreadgroup {a k b} (pending : Bool) (count : Nat) : Issues (.recv a k b) (.xreadgroup a pending count)
  | isExpired {a k b} (env : Envelope) : Issues (.recv a k b) (.isExpired env)
  | recvAck {a k} (ids : List StreamId) : Issues (.recv a k true) (.xack a ids)
  | xpending {a} : Issues (.sweepPending a) (.xpending a 50)
  | xrangeInbox {a} (id : StreamId) : Issues (.sweepPending a) (.xrangeInbox a id)
  | xaddDlq {a} (fields : Fields) : Issues (.sweepPending a) (.xaddDlq fields)
  | persist {a} (id : StreamId) (reason : String) (fields : Fields) : Issues (.sweepPending a) (.persist id reason fields)
  | sweepAck {a} (id : StreamId) : Issues (.sweepPending a) (.xack a [id])
  | xrangeDlq {d r} : Issues (.requeue d r) (.xrangeDlq d)
  | ensureGroup {d r} (a : String) : Issues (.requeue d r) (.ensureGroup a)
  | xaddInbox {d r} (a : String) (v : Json) : Issues (.requeue d r) (.xaddInbox a ⟨some v, none⟩)
  | requeueDel {d r} : Issues (.requeue d r) (.xdelDlq [d])
  | requeueMark {d r} : Issues (.requeue d r) (.markResolved [d] .requeued)
  | purgeTime {t} : Issues (.purge t) .time
  | dlqIds {t} : Issues (.purge t) .dlqIds
  | purgeDel {t} (ids : List StreamId) : Issues (.purge t) (.xdelDlq ids)
  | purgeMark {t} (ids : List StreamId) : Issues (.purge t) (.markResolved ids .purged)
  | pruneTime {t} : Issues (.pruneOldMessages t) .time
  | dlqBelow {t} (cutoff : StreamId) : Issues (.pruneOldMessages t) (.dlqBelow cutoff)
  | xtrimDlq {t} (cutoff : StreamId) : Issues (.pruneOldMessages t) (.xtrimDlq cutoff)
  | pruneDel {t} (ids : List StreamId) : Issues (.pruneOldMessages t) (.xdelDlq ids)
  | pruneMark {t} (ids : List StreamId) : Issues (.pruneOldMessages t) (.markResolved ids .expired)
  | tick {t} : Issues (.tick t) (.tick t)
  | setIndex {l} : Issues (.setIndex l) (.setIndex l)

variable {R : Operators}

theorem each_streamReadGroup {ok : Cmd → Prop} {a : String} {count : Int} {pending : Bool}
    (h : ∀ k, ok (.xreadgroup a pending k)) : (streamReadGroup a count pending).Each ok := by
  unfold streamReadGroup
  split
  · trivial
  · refine Prog.each_cmd_bind (h _) fun x => ?_
    cases x <;> trivial

theorem each_sort {ok : Cmd → Prop} (h : ∀ env, ok (.isExpired env)) :
    ∀ entries : List (StreamId × Fields), (sort R entries).Each ok
  | [] => trivial
  | (_, fields) :: entries => by
    refine Prog.each_bind (fun env => Prog.each_bind (fun _ => Prog.each_ret _) (each_sort h entries)) ?_
    unfold accept
    split
    · trivial
    · exact Prog.each_cmd_bind (h _) fun _ => trivial

theorem each_recv {a : String} {count : Int} {auto_ack : Bool} :
    (recv R a count auto_ack).Each (Issues (.recv a count auto_ack)) := by
  unfold recv
  split
  · trivial
  · refine Prog.each_bind (fun entries => Prog.each_bind (fun new => ?_) ?_) (each_streamReadGroup fun _ => .xreadgroup _ _)
    · refine Prog.each_bind (fun sorted => Prog.each_bind (fun _ => Prog.each_ret _) ?_) (each_sort (fun _ => .isExpired _) _)
      unfold acknowledge
      split
      · rename_i hack
        obtain rfl : auto_ack = true := hack.1
        exact Prog.each_cmd.mpr (.recvAck _)
      · trivial
    · unfold readNew
      split
      · exact each_streamReadGroup fun _ => .xreadgroup _ _
      · trivial

theorem each_sweepEach {a : String} : ∀ pending, (sweepEach a pending).Each (Issues (.sweepPending a))
  | [] => trivial
  | (mid, idle_ms) :: pending => by
    refine Prog.each_cmd_bind (.xrangeInbox _) fun x => ?_
    cases x with
    | none => exact each_sweepEach pending
    | some fields =>
      exact Prog.each_cmd_bind (.xaddDlq _) fun _ => Prog.each_cmd_bind (.persist _ _ _) fun _ =>
        Prog.each_cmd_bind (.sweepAck _) fun _ => Prog.each_bind (fun _ => Prog.each_ret _) (each_sweepEach pending)

theorem each_sweepPending {a : String} : (sweepPending a).Each (Issues (.sweepPending a)) := by
  unfold sweepPending
  split
  · trivial
  · exact Prog.each_cmd_bind .xpending fun raw => each_sweepEach _

theorem each_send {recipient sender : String} {payload : Json} {priority ttl : Int} :
    (send R recipient payload priority ttl sender).Each (Issues (.send recipient payload priority ttl sender)) := by
  unfold send
  split
  · trivial
  · refine Prog.each_cmd_bind .uuid fun id => Prog.each_cmd_bind .sendTime fun now => ?_
    cases Envelope.postInit R (envelope R recipient payload priority ttl sender id now) with
    | none => trivial
    | some env => exact Prog.each_cmd_bind (.sendAtomic _) fun _ => trivial

theorem each_markResolvedBulk {ok : Cmd → Prop} {ids : List StreamId} {resolution : Resolution}
    (h : ok (.markResolved ids resolution)) : (markResolvedBulk ids resolution).Each ok := by
  unfold markResolvedBulk
  split
  · trivial
  · exact Prog.each_cmd.mpr h

theorem each_deleteEach {ok : Cmd → Prop} (h : ∀ ids, ok (.xdelDlq ids)) : ∀ chunks, (deleteEach chunks).Each ok
  | [] => trivial
  | ids :: chunks => Prog.each_cmd_bind (h ids) fun _ => each_deleteEach h chunks

/-- **The commands of an operation.** -/
theorem each_prog : ∀ o : Op, (prog R o).Each (Issues o)
  | .send _ _ _ _ _ => each_send
  | .recv _ _ _ => each_recv
  | .sweepPending _ => each_sweepPending
  | .requeue message_id new_recipient => by
    refine Prog.each_cmd_bind .xrangeDlq fun raw => ?_
    cases raw.bind (readEnvelope R) with
    | none => trivial
    | some p =>
      exact Prog.each_cmd_bind (.ensureGroup _) fun _ => Prog.each_cmd_bind (.xaddInbox _ _) fun _ =>
        Prog.each_cmd_bind .requeueDel fun _ => Prog.each_cmd_bind .requeueMark fun _ => trivial
  | .purge older_than_seconds => by
    refine Prog.each_cmd_bind .purgeTime fun now => Prog.each_cmd_bind .dlqIds fun raw => ?_
    dsimp only
    split
    · trivial
    · exact Prog.each_cmd_bind (.purgeDel _) fun _ =>
        Prog.each_bind (fun _ => Prog.each_ret _) (each_markResolvedBulk (.purgeMark _))
  | .pruneOldMessages hours => by
    refine Prog.each_cmd_bind .pruneTime fun now => ?_
    dsimp only
    split
    · trivial
    · refine Prog.each_cmd_bind (.dlqBelow _) fun expired_ids => Prog.each_cmd_bind (.xtrimDlq _) fun x => ?_
      cases x with
      | some removed => exact Prog.each_bind (fun _ => Prog.each_ret _) (each_markResolvedBulk (.pruneMark _))
      | none =>
        exact Prog.each_cmd_bind (.dlqBelow _) fun ids => Prog.each_bind (fun _ => Prog.each_bind (fun _ => Prog.each_ret _)
          (each_markResolvedBulk (.pruneMark _))) (each_deleteEach (fun _ => .pruneDel _) _)
  | .tick _ => Prog.each_cmd.mpr .tick
  | .setIndex _ => Prog.each_cmd.mpr .setIndex

end ClaudeSwarm.Ipc.Direct
