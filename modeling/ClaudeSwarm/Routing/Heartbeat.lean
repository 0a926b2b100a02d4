import ClaudeSwarm.Python

/-!
# The heartbeats of the workers

Model of `write_heartbeat`, `read_heartbeat`, `is_alive` and `reap_dead_workers` of `src/heartbeat.py`, for the stores
of one task: the Redis keys `routing:hb:{task_id}` and `routing:hb:progress:{task_id}` with the times at which they
expire, and the file. A record is kept as it is; its JSON text survives the trip.

Redis may go down between the health check and the command, and also between the command and its reply (`Link`), and it
may come back without its data. The file is written only when Redis did not take the record, and read only when Redis
does not answer or has none. No time is compared.

* `live_stores`, `file_stores`: what the history of the writes has left in the two stores.
* **`seesLatest_iff`**: the last record is read exactly if it is what the store that is looked in was last given.
* **`older_record_read`**: a record in the file is not seen while Redis holds an older one.
-/

namespace ClaudeSwarm.Routing

open Python (Time)

/-- `HEARTBEAT_TIMEOUT_S`. -/
def heartbeatTimeout : Time := 90

/-- `Heartbeat`. -/
structure Heartbeat where
  task_id : String
  worker_id : String
  last_ping : Time
  state_hash : String
  started_at : Time
  deriving DecidableEq

/-- What becomes of a command that sets a key: carried out; carried out, but the reply is lost; not carried out. -/
inductive Reply where
  | done | unanswered | refused
  deriving DecidableEq

/-- How a call finds the stores: the health check, the reply to the command, and whether the file can be written. -/
structure Link where
  up : Bool
  reply : Reply
  fileOk : Bool

/-- The stores of a task. -/
structure Stores where
  beat : Option (Heartbeat × Time)
  progress : Option (Time × Time)
  file : Option Heartbeat

/-- Nothing is stored. -/
def Stores.empty : Stores := ⟨none, none, none⟩

/-- `GET` of a key that expires. -/
def live {α : Type} (key : Option (α × Time)) (now : Time) : Option α :=
  match key with
  | some (v, expires) => if now < expires then some v else none
  | none => none

/-- `_fs_path(hb.task_id).write_text(data)`. -/
def writeFile (link : Link) (hb : Heartbeat) (s : Stores) : Stores × Bool :=
  if link.fileOk then ({ s with file := some hb }, true) else (s, false)

/-- `write_heartbeat`. -/
def writeHeartbeat (link : Link) (now : Time) (hb : Heartbeat) (s : Stores) : Stores × Bool :=
  let stored := { s with beat := some (hb, now + heartbeatTimeout * 2) }
  if link.up then
    match link.reply with
    | .done => (stored, true)
    | .unanswered => writeFile link hb stored
    | .refused => writeFile link hb s
  else writeFile link hb s

/-- `read_heartbeat`, where the health check says `up` and the command is answered or not. -/
def readHeartbeat (up answered : Bool) (now : Time) (s : Stores) : Option Heartbeat :=
  if up && answered then
    match live s.beat now with
    | some hb => some hb
    | none => s.file
  else s.file

/-- `is_alive`. -/
def isAlive (up answered : Bool) (now : Time) (s : Stores) : Bool :=
  match readHeartbeat up answered now s with
  | none => false
  | some hb => now - hb.last_ping < heartbeatTimeout

/-- `reap_dead_workers`; each task has its stores, and Redis may answer the one call and not the other. -/
def reapDeadWorkers (up answered : String → Bool) (now : Time) (stores : String → Stores) (task_ids : List String) :
    List String :=
  task_ids.filter fun tid => !isAlive (up tid) (answered tid) now (stores tid)

/-! ## Histories -/

/-- What happens to the stores. -/
inductive Event where
  | write (link : Link) (now : Time) (hb : Heartbeat)
  /-- Redis comes back without its data. -/
  | lose

/-- One event. -/
def Event.run : Event → Stores → Stores
  | .write link now hb, s => (writeHeartbeat link now hb s).1
  | .lose, s => { s with beat := none }

/-- The stores after a history, the last event first. -/
def stores : List Event → Stores
  | [] => .empty
  | e :: older => e.run (stores older)

/-- Redis carries the command out. -/
def Link.taken (link : Link) : Bool := link.up && link.reply != .refused

/-- Redis carries the command out, and the caller knows. -/
def Link.acknowledged (link : Link) : Bool := link.up && link.reply == .done

/-- The last write that succeeded: when, and the record. -/
def lastSuccess : List Event → Option (Time × Heartbeat)
  | [] => none
  | .write link now hb :: older => if link.acknowledged || link.fileOk then some (now, hb) else lastSuccess older
  | .lose :: older => lastSuccess older

/-- The last record that Redis was given, unless it has been lost or has expired. -/
def inRedis (now : Time) : List Event → Option Heartbeat
  | [] => none
  | .write link t hb :: older =>
    if link.taken then (if now < t + heartbeatTimeout * 2 then some hb else none) else inRedis now older
  | .lose :: _ => none

/-- The last record that the file was given. -/
def inFile : List Event → Option Heartbeat
  | [] => none
  | .write link _ hb :: older => if !link.acknowledged && link.fileOk then some hb else inFile older
  | .lose :: older => inFile older

/-- If the last write that succeeded is not older than the timeout, its record is read; and if the ping in it is not
older either, the worker is alive and not reaped. -/
def SeesLatest (history : List Event) (up answered : Bool) (now : Time) : Prop :=
  ∀ t hb, lastSuccess history = some (t, hb) → now - t < heartbeatTimeout →
    readHeartbeat up answered now (stores history) = some hb ∧
      (now - hb.last_ping < heartbeatTimeout → isAlive up answered now (stores history) = true ∧
        ∀ (ups answers : String → Bool) (all : String → Stores) (tid : String) (task_ids : List String),
          ups tid = up → answers tid = answered → all tid = stores history →
            tid ∉ reapDeadWorkers ups answers now all task_ids)

/-- What was given last to the store that is looked in: Redis, where it answers and has a record, or else the file. -/
def consulted (history : List Event) (up answered : Bool) (now : Time) : Option Heartbeat :=
  if up && answered && (inRedis now history).isSome then inRedis now history else inFile history

/-- That is the record of the last write that succeeded, if it is not older than the timeout. -/
def Consults (history : List Event) (up answered : Bool) (now : Time) : Prop :=
  ∀ t hb, lastSuccess history = some (t, hb) → now - t < heartbeatTimeout → consulted history up answered now = some hb

variable {now t : Time} {up answered : Bool} {link : Link} {hb : Heartbeat} {history older : List Event} {s : Stores}

/-! ## The stores -/

theorem writeFile_fst : (writeFile link hb s).1 = { s with file := if link.fileOk then some hb else s.file } := by
  unfold writeFile
  split <;> rfl

theorem live_write : live (writeHeartbeat link t hb s).1.beat now =
    if link.taken then (if now < t + heartbeatTimeout * 2 then some hb else none) else live s.beat now := by
  obtain ⟨_ | _, _ | _ | _, fileOk⟩ := link <;> simp [writeHeartbeat, writeFile_fst, Link.taken, live]

theorem file_write : (writeHeartbeat link t hb s).1.file =
    if !link.acknowledged && link.fileOk then some hb else s.file := by
  obtain ⟨_ | _, _ | _ | _, fileOk⟩ := link <;> simp [writeHeartbeat, writeFile_fst, Link.acknowledged]

theorem live_stores : ∀ {history : List Event}, live (stores history).beat now = inRedis now history
  | [] => rfl
  | .lose :: _ => rfl
  | .write link t hb :: older => by
    rw [stores, Event.run, live_write, live_stores, inRedis]

theorem file_stores : ∀ {history : List Event}, (stores history).file = inFile history
  | [] => rfl
  | .lose :: older => by
    rw [stores, Event.run, inFile]
    exact file_stores
  | .write link t hb :: older => by
    rw [stores, Event.run, file_write, file_stores, inFile]

theorem readHeartbeat_stores : readHeartbeat up answered now (stores history) = consulted history up answered now := by
  unfold readHeartbeat consulted
  rw [live_stores, file_stores]
  cases inRedis now history <;> cases up && answered <;> rfl

/-! ## What is read -/

/-- A worker whose record is read with a ping that is not too old. -/
theorem isAlive_of_read (h : readHeartbeat up answered now s = some hb) (hnow : now - hb.last_ping < heartbeatTimeout) :
    isAlive up answered now s = true := by
  unfold isAlive
  rw [h]
  exact decide_eq_true hnow

/-- **The latest record is read.** -/
theorem seesLatest_iff (history : List Event) (up answered : Bool) (now : Time) :
    SeesLatest history up answered now ↔ Consults history up answered now := by
  constructor
  · intro h t hb hlast hnow
    rw [← readHeartbeat_stores]
    exact (h t hb hlast hnow).1
  · intro h t hb hlast hnow
    have hread := h t hb hlast hnow
    rw [← readHeartbeat_stores] at hread
    refine ⟨hread, fun hping => ⟨isAlive_of_read hread hping, ?_⟩⟩
    rintro ups answers all tid task_ids rfl rfl hall hmem
    have hdead := (List.mem_filter.mp hmem).2
    rw [hall, isAlive_of_read hread hping] at hdead
    cases hdead

/-! ## An older record -/

/-- A ping at `t`. -/
def ping (t : Time) : Heartbeat := ⟨"task-001", "w", t, "init", 0⟩

/-- Redis takes the ping at 0 and goes down; the file takes the one at 100; Redis is back. -/
def wentDown : List Event := [.write ⟨false, .refused, true⟩ 100 (ping 100), .write ⟨true, .done, true⟩ 0 (ping 0)]

/-- **An older record is read**, and the worker that has just sent a heartbeat is reaped. -/
theorem older_record_read : ¬ SeesLatest wentDown true true 110 ∧
    reapDeadWorkers (fun _ => true) (fun _ => true) 110 (fun _ => stores wentDown) ["task-001"] = ["task-001"] := by
  refine ⟨fun h => ?_, by decide +kernel⟩
  have hread := (h 100 (ping 100) (by decide +kernel) (by decide +kernel)).1
  exact absurd hread (by decide +kernel)

end ClaudeSwarm.Routing
