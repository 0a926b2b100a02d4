import ClaudeSwarm.Interleave.Outline
import ClaudeSwarm.Python

/-!
# GPU slots on Redis

Model of `src/gpu_slots_redis.py` and of the slot operations of `src/redis_client.py` it calls. The
key `gpu:slot:{n}` of a slot holds the text of its holder, `host-pid`, and expires `GPU_SLOT_TTL`
seconds after it was set. A command is one Redis command, or one reading of the caller's clock.

* Time passes in calls of its own (`Op.elapse`): between any two commands any number of milliseconds
  can go by. An expired key is there no longer for any command (`Server.get`).
* `claim_slot` with a timeout tries again until its deadline. `rounds` bounds how often; the clock is
  read anew in each round and may answer anything, so every run is one for some `rounds`.

`Proc.holder_injective`: the text names one process.
-/

namespace ClaudeSwarm.GpuSlots

open Interleave
open Python (Time PyError)

/-- A process of the swarm. -/
structure Proc where
  host : String
  pid : Nat
  deriving DecidableEq

/-- `f"{hostname()}-{os.getpid()}"`. -/
def Proc.holder (p : Proc) : String := p.host ++ "-" ++ toString p.pid

theorem Proc.holder_injective {p q : Proc} (h : p.holder = q.holder) : p = q := by
  have hl := congrArg String.toList h
  simp only [Proc.holder, String.toList_append] at hl
  have hdigits : ∀ n : Nat, (toString n).toList = Nat.toDigits 10 n := fun n => Nat.toList_repr
  rw [hdigits, hdigits, List.append_assoc, List.append_assoc] at hl
  obtain ⟨hhost, hpid⟩ := Python.dash_toDigits hl
  cases p
  cases q
  rw [String.toList_inj] at hhost
  simp only at hhost hpid
  rw [hhost, hpid]

namespace Redis

/-! ## The server -/

/-- `GPU_SLOT_TTL`. -/
def gpuSlotTtl : Nat := 300

/-- The key of a claimed slot: its value, and the millisecond in which it expires. -/
structure Entry where
  holder : String
  expires : Nat

/-- The keys `gpu:slot:{n}`, and the server's clock in milliseconds. -/
structure Server where
  now : Nat
  slots : Int → Option Entry

namespace Server

/-- A server without slots. -/
def empty : Server := ⟨0, fun _ => none⟩

/-- `GET`. -/
def get (s : Server) (slot : Int) : Option String :=
  ((s.slots slot).filter fun e => s.now < e.expires).map Entry.holder

/-- The key of a slot is set, or deleted. -/
def put (s : Server) (slot : Int) (e : Option Entry) : Server :=
  { s with slots := Function.update s.slots slot e }

theorem get_put_self (s : Server) (slot : Int) (e : Option Entry) :
    (s.put slot e).get slot = (e.filter fun e => s.now < e.expires).map Entry.holder := by
  simp only [get, put, Function.update_self]
  rfl

theorem get_put_of_ne {s : Server} {slot slot' : Int} {e : Option Entry} (h : slot ≠ slot') :
    (s.put slot' e).get slot = s.get slot := by
  simp only [get, put, Function.update_of_ne h]
  rfl

/-- As time passes a key stays or expires. -/
theorem get_elapse (s : Server) (slot : Int) (ms : Nat) :
    { s with now := s.now + ms }.get slot = s.get slot ∨
      { s with now := s.now + ms }.get slot = none := by
  unfold get
  cases s.slots slot with
  | none => exact Or.inl rfl
  | some e =>
    by_cases he : s.now + ms < e.expires
    · have hnow : s.now < e.expires := by omega
      exact Or.inl (by simp [Option.filter, he, hnow])
    · exact Or.inr (by simp [Option.filter, he])

end Server

/-- A command. -/
inductive Cmd where
  | time
  | setNxEx (slot : Int) (holder : String) (ttl : Nat)
  | get (slot : Int)
  | delete (slot : Int)
  | elapse (ms : Nat)

/-- The answer of each command; `delete` answers how many keys it deleted. -/
abbrev Resp : Cmd → Type
  | .time => Time
  | .setNxEx _ _ _ => Bool
  | .get _ => Option String
  | .delete _ => Nat
  | .elapse _ => Unit

abbrev sig : Sig := ⟨Cmd, Resp⟩

/-- Execute a command; `time` is the caller's clock. -/
def exec (_ : Nat) (time : Time) (s : Server) : (c : Cmd) → Option (Resp c × Server)
  | .time => some (time, s)
  | .setNxEx slot holder ttl =>
    if (s.get slot).isNone then
      some (true, s.put slot (some ⟨holder, s.now + 1000 * ttl⟩))
    else some (false, s)
  | .get slot => some (s.get slot, s)
  | .delete slot => some (if (s.get slot).isSome then 1 else 0, s.put slot none)
  | .elapse ms => some ((), { s with now := s.now + ms })

/-- The server as a store. -/
abbrev store : Store sig := ⟨Server, Time, exec⟩

abbrev P (α : Type) := Prog sig PyError α

/-- Issue one command. -/
def cmd (c : Cmd) : P (Resp c) := @Prog.cmd sig PyError c

/-! ## The operations -/

/-- `claim_gpu_slot`. -/
def claimGpuSlot (slot : Int) (holder : String) : P Bool := cmd (.setNxEx slot holder gpuSlotTtl)

/-- `release_gpu_slot`. -/
def releaseGpuSlot (slot : Int) (holder : String) : P Bool := do
  let current ← cmd (.get slot)
  if current = some holder then do
    let deleted ← cmd (.delete slot)
    return deleted != 0
  else return false

/-- The loop of `claim_slot`. -/
def claimUntil (deadline : Time) (gpu_id : Int) (holder : String) : Nat → P Bool
  | 0 => return false
  | rounds + 1 => do
    let time ← cmd .time
    if time < deadline then do
      if ← claimGpuSlot gpu_id holder then return true
      else claimUntil deadline gpu_id holder rounds
    else return false

/-- `claim_slot`. -/
def claimSlot (p : Proc) (gpu_id timeout_seconds : Int) (rounds : Nat) : P Bool :=
  if timeout_seconds ≤ 0 then claimGpuSlot gpu_id p.holder
  else do
    let time ← cmd .time
    claimUntil (time + timeout_seconds) gpu_id p.holder rounds

/-- `release_slot`. -/
def releaseSlot (p : Proc) (gpu_id : Int) : P Bool := releaseGpuSlot gpu_id p.holder

/-- `setup_ollama_slot`. -/
def setupOllamaSlot : P Bool := claimGpuSlot 0 "ollama-permanent"

/-! ## The system -/

/-- A call of a process, or the passage of time. -/
inductive Op where
  | claim (p : Proc) (gpu_id timeout_seconds : Int) (rounds : Nat)
  | release (p : Proc) (gpu_id : Int)
  | setupOllama
  | elapse (ms : Nat)

/-- What each call returns. -/
abbrev Ret : Op → Type
  | .elapse _ => Unit
  | _ => Bool

/-- The program of each call. -/
def prog : (o : Op) → P (Ret o)
  | .claim p gpu_id timeout rounds => claimSlot p gpu_id timeout rounds
  | .release p gpu_id => releaseSlot p gpu_id
  | .setupOllama => setupOllamaSlot
  | .elapse ms => cmd (.elapse ms)

/-- Any number of processes on one server. -/
abbrev system : System := ⟨sig, store, PyError, Op, Ret, prog⟩

end Redis

end ClaudeSwarm.GpuSlots
