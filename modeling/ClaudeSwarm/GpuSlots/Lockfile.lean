import ClaudeSwarm.Data.Table
import ClaudeSwarm.GpuSlots.Slot

/-!
# GPU slots in lock files

Model of the slot operations of `src/gpu_slots.py`. A slot is a file that is never removed. A command
is one step on the files of `/opt/swarm/gpu`, one reading of the clock, or one `os.kill(pid, 0)`; a
command on a file that some call has open acts on the file as it is then. `open(path, "w")` empties
the file at once, and a write goes to the start of the file, over what is there (`overlay`).

* `flock` is per open file: a call holds it from its `flock` until it closes the file, or its process
  ends. `claim_slot` never closes the file of a claim it won: the file object goes when the function
  returns (`Cmd.leave`).
* Time passes, and processes end, in calls of their own (`Op.elapse`, `Op.exit`). An ended process
  stays ended.
* All hosts see the same files and the same clock.
-/

namespace ClaudeSwarm.GpuSlots.Lockfile

open Interleave Data
open Python (PyError strip)

/-! ## The files -/

/-- `slot-{gpu}.lock`: its text, and the call and process that hold its `flock`. -/
structure SlotFile where
  gpu : Int
  text : String
  lock : Option (Nat × Proc)

/-- An entry of `queue-{gpu}.json`. -/
structure QueueEntry where
  hostname : String
  pid : Nat
  priority : Int
  requested_at : String
  deriving DecidableEq

/-- The directory `/opt/swarm/gpu`, the clock, and the living processes. -/
structure Swarm where
  clock : Clock
  alive : Proc → Bool
  files : Table SlotFile.gpu
  queues : Int → List QueueEntry

namespace Swarm

/-- The text of a slot's file; empty when there is none. -/
def text (s : Swarm) (gpu : Int) : String := ((s.files.find? gpu).map SlotFile.text).getD ""

/-- Who holds the `flock` of a slot's file. -/
def lock (s : Swarm) (gpu : Int) : Option (Nat × Proc) := (s.files.find? gpu).bind SlotFile.lock

/-- The file of a slot has this text. -/
def setText (s : Swarm) (gpu : Int) (text : String) : Swarm :=
  { s with files := s.files.put ⟨gpu, text, s.lock gpu⟩ }

/-- The `flock` of a slot's file is taken or dropped. -/
def setLock (s : Swarm) (gpu : Int) (lock : Option (Nat × Proc)) : Swarm :=
  { s with files := s.files.put ⟨gpu, s.text gpu, lock⟩ }

/-- A process ends, and with it its open files. -/
def exit (s : Swarm) (p : Proc) : Swarm :=
  { s with
    alive := Function.update s.alive p false
    files := s.files.update (fun f => f.lock.map Prod.snd == some p) (fun f => { f with lock := none })
      fun _ => rfl }

/-- Call `n` closes its file. -/
def close (s : Swarm) (gpu : Int) (n : Nat) : Swarm :=
  if (s.lock gpu).map Prod.fst = some n then s.setLock gpu none else s

section Updates

variable (s : Swarm) (gpu gpu' : Int) (t : String) (l : Option (Nat × Proc)) (p : Proc) (n : Nat)

@[simp] theorem text_setText : (s.setText gpu t).text gpu' = if gpu' = gpu then t else s.text gpu' := by
  unfold setText text
  rw [Table.find?_put]
  split <;> rfl

@[simp] theorem text_setLock : (s.setLock gpu l).text gpu' = s.text gpu' := by
  unfold setLock text
  rw [Table.find?_put]
  split
  · rename_i h
    subst h
    rfl
  · rfl

@[simp] theorem text_exit : (s.exit p).text gpu = s.text gpu := by
  unfold exit text
  rw [Table.find?_update]
  cases s.files.find? gpu with
  | none => rfl
  | some f =>
    simp only [Option.map_some]
    split <;> rfl

@[simp] theorem text_close : (s.close gpu n).text gpu' = s.text gpu' := by
  unfold close
  split
  · exact text_setLock s gpu gpu' none
  · rfl

@[simp] theorem alive_setText : (s.setText gpu t).alive = s.alive := rfl
@[simp] theorem alive_setLock : (s.setLock gpu l).alive = s.alive := rfl

@[simp] theorem alive_close : (s.close gpu n).alive = s.alive := by
  unfold close
  split <;> rfl

end Updates

end Swarm

/-- A text written at the start of a file. -/
def overlay (text old : String) : String := text ++ .ofList (old.toList.drop text.length)

theorem overlay_empty (text : String) : overlay text "" = text := by
  simp [overlay]

/-! ## Commands -/

/-- A command. -/
inductive Cmd where
  | now
  | monotonic
  | kill (p : Proc)
  | glob
  | exists (gpu : Int)
  | read (gpu : Int)
  | openWrite (gpu : Int)
  | flock (gpu : Int) (p : Proc)
  | write (gpu : Int) (text : String)
  | close (gpu : Int)
  /-- The function that opened the file returns. -/
  | leave (gpu : Int)
  | loadQueue (gpu : Int)
  | saveQueue (gpu : Int) (queue : List QueueEntry)
  | elapse (micros : Nat)
  | exit (p : Proc)
  /-- Nothing answers. -/
  | never
  deriving DecidableEq

/-- The answer of each command; `kill` answers whether the process is there, `flock` whether the lock
was free. -/
abbrev Resp : Cmd → Type
  | .now => Clock
  | .monotonic => Nat
  | .glob => List Int
  | .kill _ | .exists _ | .flock _ _ => Bool
  | .read _ => String
  | .loadQueue _ => List QueueEntry
  | _ => Unit

abbrev sig : Sig := ⟨Cmd, Resp⟩

/-- Execute a command for call `n`; `order` is the order in which `glob` finds the files. -/
def exec (n : Nat) (order : List Int) (s : Swarm) : (c : Cmd) → Option (Resp c × Swarm)
  | .now => some (s.clock, s)
  | .monotonic => some (s.clock.micros, s)
  | .kill p => some (s.alive p, s)
  | .glob =>
    if order.Perm ((s.files.rows.map SlotFile.gpu).filter (0 ≤ ·)) then some (order, s) else none
  | .exists gpu => some ((s.files.find? gpu).isSome, s)
  | .read gpu => some (s.text gpu, s)
  | .openWrite gpu => some ((), s.setText gpu "")
  | .flock gpu p =>
    if s.lock gpu = none then some (true, s.setLock gpu (some (n, p))) else some (false, s)
  | .write gpu text => some ((), s.setText gpu (overlay text (s.text gpu)))
  | .close gpu | .leave gpu => some ((), s.close gpu n)
  | .loadQueue gpu => some (s.queues gpu, s)
  | .saveQueue gpu queue => some ((), { s with queues := Function.update s.queues gpu queue })
  | .elapse micros =>
    if h : s.clock.micros + micros < 253402300800000000 then
      some ((), { s with clock := ⟨s.clock.micros + micros, h⟩ })
    else none
  | .exit p => some ((), s.exit p)
  | .never => none

/-- The swarm as a store. -/
abbrev store : Store sig := ⟨Swarm, List Int, exec⟩

abbrev P (α : Type) := Prog sig PyError α

/-- Issue one command. -/
def cmd (c : Cmd) : P (Resp c) := @Prog.cmd sig PyError c

/-! ## The operations -/

/-- The content-based check of `claim_slot`: is the slot held? -/
def isHeld (p : Proc) (gpu_id : Int) : P Bool := do
  if ← cmd (.exists gpu_id) then do
    let text ← cmd (.read gpu_id)
    match check p.host text with
    | .free => return false
    | .held => return true
    | .probe pid => cmd (.kill ⟨p.host, pid⟩)
  else return false

/-- `claim_slot_with_deadline`. -/
def claimSlotWithDeadline (p : Proc) (gpu_id deadline_seconds : Int) : P Bool := do
  if ← isHeld p gpu_id then return false
  cmd (.openWrite gpu_id)
  if ← cmd (.flock gpu_id p) then do
    let timestamp ← cmd .now
    let time ← cmd .now
    let deadline_ts := (time.seconds : Int) + deadline_seconds
    cmd (.write gpu_id (p.line timestamp.nowIso timestamp.nowIso deadline_ts))
    cmd (.leave gpu_id)
    return true
  else do
    cmd (.close gpu_id)
    return false

/-- `DEFAULT_DEADLINE_SECONDS`. -/
def defaultDeadlineSeconds : Int := 3600

/-- `claim_slot`, whose `timeout_seconds` is not used. -/
def claimSlot (p : Proc) (gpu_id : Int) : P Bool :=
  claimSlotWithDeadline p gpu_id defaultDeadlineSeconds

/-- `setup_ollama_slot`. -/
def setupOllamaSlot (p : Proc) : P Bool := claimSlotWithDeadline p 0 (30 * 86400)

/-- The text names another host: `holder_host and holder_host != socket.gethostname()`. -/
def foreign (hostname text : String) : Bool :=
  let holder_host := (strip text.toList).takeWhile (· != ':')
  holder_host != [] && String.ofList holder_host != hostname

/-- `release_slot`. -/
def releaseSlot (p : Proc) (gpu_id : Int) : P Bool := do
  if ← cmd (.exists gpu_id) then do
    let text ← cmd (.read gpu_id)
    if foreign p.host text then return false
    cmd (.openWrite gpu_id)
    return true
  else return false

/-- The line that renews a slot: its claim time and deadline stay, unless they are missing. -/
def renewal (info : SlotInfo) (heartbeat claimed_at : Clock) (deadline_ts : Int) : String :=
  slotLine info.hostname info.pid
    (if info.claimed_at = "" then claimed_at.nowIso else info.claimed_at) heartbeat.nowIso
    (if info.deadline_ts = 0 then deadline_ts else info.deadline_ts)

/-- `heartbeat_slot`; the clock is read again only for a time the line does not have. -/
def heartbeatSlot (p : Proc) (gpu_id : Int) : P Bool := do
  if ← cmd (.exists gpu_id) then do
    let text ← cmd (.read gpu_id)
    match parseSlotInfo text with
    | none => return false
    | some info =>
      if info.hostname ≠ p.host then return false
      let new_heartbeat ← cmd .now
      let claimed_at ← if info.claimed_at = "" then cmd .now else pure new_heartbeat
      let time ← if info.deadline_ts = 0 then cmd .now else pure new_heartbeat
      cmd (.openWrite gpu_id)
      cmd (.write gpu_id (renewal info new_heartbeat claimed_at
        ((time.seconds : Int) + defaultDeadlineSeconds)))
      return true
  else return false

/-- `is_slot_stale`, from the holder on. -/
def isStale (p : Proc) (info : SlotInfo) (stale_threshold : Int) : P Bool := do
  let alive ← if info.hostname = p.host ∧ 0 < info.pid then cmd (.kill ⟨info.hostname, info.pid⟩)
    else pure true
  if alive then do
    if info.heartbeat = "" then return false
    let now ← cmd .now
    return staleHeartbeat info stale_threshold now
  else return true

/-- `is_slot_stale`. -/
def isSlotStale (p : Proc) (gpu_id stale_threshold : Int) : P Bool := do
  if ← cmd (.exists gpu_id) then do
    let text ← cmd (.read gpu_id)
    match parseSlotInfo text with
    | none => return false
    | some info => isStale p info stale_threshold
  else return false

/-- `is_slot_expired`. -/
def isSlotExpired (gpu_id : Int) : P Bool := do
  if ← cmd (.exists gpu_id) then do
    let text ← cmd (.read gpu_id)
    match parseSlotInfo text with
    | none => return false
    | some info =>
      if info.deadline_ts = 0 then return false
      let now ← cmd .now
      return pastDeadline info now
  else return false

/-- The loop of `release_stale_slots`. -/
def releaseEach (p : Proc) (stale_threshold : Int) : List Int → P (List Int)
  | [] => return []
  | gpu_id :: ids => do
    let text ← cmd (.read gpu_id)
    if strip text.toList = [] then releaseEach p stale_threshold ids
    else do
      let stale ← isSlotStale p gpu_id stale_threshold
      let should_release ← if stale then pure true else isSlotExpired gpu_id
      if should_release then do
        cmd (.openWrite gpu_id)
        let released ← releaseEach p stale_threshold ids
        return gpu_id :: released
      else releaseEach p stale_threshold ids

/-- `release_stale_slots`. -/
def releaseStaleSlots (p : Proc) (stale_threshold : Int) : P (List Int) := do
  let ids ← cmd .glob
  releaseEach p stale_threshold ids

/-! ## The system -/

/-- A call of a process, the passage of time, or the end of a process. -/
inductive Op where
  | claim (p : Proc) (gpu_id : Int)
  | claimWithDeadline (p : Proc) (gpu_id deadline_seconds : Int)
  | setupOllama (p : Proc)
  | release (p : Proc) (gpu_id : Int)
  | heartbeat (p : Proc) (gpu_id : Int)
  | releaseStale (p : Proc) (stale_threshold : Int)
  | elapse (micros : Nat)
  | exit (p : Proc)

/-- What each call returns. -/
abbrev Ret : Op → Type
  | .releaseStale _ _ => List Int
  | .elapse _ | .exit _ => Unit
  | _ => Bool

/-- The program of each call. -/
def prog : (o : Op) → P (Ret o)
  | .claim p gpu_id => claimSlot p gpu_id
  | .claimWithDeadline p gpu_id deadline_seconds => claimSlotWithDeadline p gpu_id deadline_seconds
  | .setupOllama p => setupOllamaSlot p
  | .release p gpu_id => releaseSlot p gpu_id
  | .heartbeat p gpu_id => heartbeatSlot p gpu_id
  | .releaseStale p stale_threshold => releaseStaleSlots p stale_threshold
  | .elapse micros => cmd (.elapse micros)
  | .exit p => cmd (.exit p)

/-- Any number of processes on any number of hosts. -/
abbrev system : System := ⟨sig, store, PyError, Op, Ret, prog⟩

namespace Op

/-- The process that makes the call. -/
def caller : Op → Option Proc
  | .claim p _ | .claimWithDeadline p _ _ | .setupOllama p | .release p _ | .heartbeat p _
  | .releaseStale p _ => some p
  | .elapse _ | .exit _ => none

/-- The slot the call renews. -/
def renews : Op → Option Int
  | .heartbeat _ gpu_id => some gpu_id
  | _ => none

end Op

/-- Only living processes act. -/
def Acts : Guard system := fun w _ o _ => ∀ p ∈ o.caller, w.state.alive p = true

instance (w : World system) (n : Nat) (o : Op) (c : Cmd) : Decidable (Acts w n o c) :=
  inferInstanceAs (Decidable (∀ p ∈ o.caller, w.state.alive p = true))

/-! ## What the programs issue -/

section Each

variable {ok : Cmd → Prop} {p : Proc} {gpu_id : Int} {α : Type}

theorem each_choice {β : Type} {c : Prop} [Decidable c] {x y : P β} {f : β → P α}
    (hf : ∀ a, (f a).Each ok) (hx : x.Each ok) (hy : y.Each ok) : (if c then x >>= f else y >>= f).Each ok := by
  split
  · exact Prog.each_bind hf hx
  · exact Prog.each_bind hf hy

theorem each_isHeld (hexists : ok (.exists gpu_id)) (hread : ok (.read gpu_id)) (hkill : ∀ r, ok (.kill r)) :
    (isHeld p gpu_id).Each ok := by
  refine Prog.each_cmd_bind hexists fun there => ?_
  split
  · refine Prog.each_cmd_bind hread fun text => ?_
    split
    · trivial
    · trivial
    · exact ⟨hkill _, fun _ => trivial⟩
  · trivial

theorem each_claim {deadline_seconds : Int} (hheld : (isHeld p gpu_id).Each ok) (hopen : ok (.openWrite gpu_id))
    (hflock : ok (.flock gpu_id p)) (hnow : ok .now)
    (hwrite : ∀ claimed_at heartbeat deadline_ts, ok (.write gpu_id (p.line claimed_at heartbeat deadline_ts)))
    (hleave : ok (.leave gpu_id)) (hclose : ok (.close gpu_id)) :
    (claimSlotWithDeadline p gpu_id deadline_seconds).Each ok := by
  refine Prog.each_bind (fun held => ?_) hheld
  split
  · trivial
  · refine Prog.each_cmd_bind hopen fun _ => Prog.each_cmd_bind hflock fun locked => ?_
    split
    · exact ⟨hnow, fun _ => ⟨hnow, fun _ => ⟨hwrite _ _ _, fun _ => ⟨hleave, fun _ => trivial⟩⟩⟩⟩
    · exact ⟨hclose, fun _ => trivial⟩

theorem each_release (hexists : ok (.exists gpu_id)) (hread : ok (.read gpu_id)) (hopen : ok (.openWrite gpu_id)) :
    (releaseSlot p gpu_id).Each ok := by
  refine Prog.each_cmd_bind hexists fun there => ?_
  split
  · refine Prog.each_cmd_bind hread fun text => ?_
    split
    · trivial
    · exact ⟨hopen, fun _ => trivial⟩
  · trivial

/-- `heartbeat_slot` renews the line of a process of its own host. -/
theorem each_heartbeat (hexists : ok (.exists gpu_id)) (hread : ok (.read gpu_id)) (hnow : ok .now)
    (hopen : ok (.openWrite gpu_id)) (hwrite : ∀ info heartbeat claimed_at deadline_ts, info.hostname = p.host →
      ok (.write gpu_id (renewal info heartbeat claimed_at deadline_ts))) : (heartbeatSlot p gpu_id).Each ok := by
  have hclock : (cmd .now).Each ok := ⟨hnow, fun _ => trivial⟩
  refine Prog.each_cmd_bind hexists fun there => ?_
  split
  · refine Prog.each_cmd_bind hread fun text => ?_
    split
    · trivial
    · split
      · trivial
      · rename_i hhost
        refine Prog.each_cmd_bind hnow fun heartbeat => each_choice (fun claimed_at => ?_) hclock trivial
        exact each_choice (fun time => ⟨hopen, fun _ => ⟨hwrite _ _ _ _ (not_not.mp hhost), fun _ => trivial⟩⟩)
          hclock trivial
  · trivial

end Each

end ClaudeSwarm.GpuSlots.Lockfile
