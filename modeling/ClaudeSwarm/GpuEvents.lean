import ClaudeSwarm.Data.Dict
import ClaudeSwarm.Python.Repr
import ClaudeSwarm.Redis.Streams
import Mathlib.Data.Finset.Erase
import Mathlib.Data.Finset.Insert

/-!
# The GPU events consumer

Model of `_dec`, `_run` and `_apply` of `FleetGpuView` in `src/gpu_events_consumer.py`, over the stream
`gpu:events` with any schedule of appends. The thread begins at `$`, which every read resolves anew, until an event
has been applied: what is added between two such reads, or answered to one whose answer is lost, is never read.
And `_apply` parses the fields outside any handler: a field that it cannot read ends the thread.

The read, its answer, and the events of an answer are steps of their own, with appends between them. The 5 s after
an error, and `stop`, are left out; nothing is trimmed off the stream. Times are of a type `F`, which stands for
`float`.

* `parse_isSome_iff`: exactly the events that `_apply` can read.
* `tracks_step`: a step that meets the condition.
* `catches_up`: what was appended is applied by the thread's own steps.
* **`follows_of_meets`**: a schedule that meets the condition is followed.
* `lost_and_stopped`: an event that is not read, and one that ends the thread.
-/

namespace ClaudeSwarm.GpuEvents

open Data Redis

/-! ## Fields -/

/-- The fields of an entry under their names: those that the client hands over as `bytes`, and those it has decoded. -/
structure Fields where
  bytes : Dict String (List UInt8)
  text : Dict String String
  deriving DecidableEq

/-- What the code takes from Python: `none` is an exception. `str` and `truncate` (`int` of a float) are of what
`json.loads` returns. -/
structure Runtime (F : Type) where
  decode : List UInt8 → Option String
  loads : String → Json.Loaded
  str : Json → String
  int : String → Option Int
  float : String → Option F
  literal : String → F
  truncate : F → Option Int
  ofInt : Int → Option F
  zero : F

variable {F : Type}

namespace Runtime

variable (R : Runtime F)

/-- `_dec` of a text. -/
def decText (v : String) : Option Json :=
  if v = "" then some (.str "")
  else match R.loads v with
    | .value value => some value
    | .decodeError => some (.str v)
    | .otherError => none

/-- `_dec` of a field; `none` where it is missing or empty. -/
def dec (fields : Fields) (name : String) : Option (Option Json) :=
  match (fields.bytes.get? name).filter (· ≠ []) with
  | some v => ((R.decode v).bind R.decText).map some
  | none =>
    match (fields.text.get? name).filter (· ≠ "") with
    | some v => (R.decText v).map some
    | none => some none

/-- `str(_dec(fields.get(…) or ""))`. -/
def strField (fields : Fields) (name : String) : Option String :=
  (R.dec fields name).map fun v => v.elim "" R.str

/-- `int(raw) if raw not in ("", None) else default`. -/
def toInt (default : Int) : Json → Option Int
  | .null => some default
  | .str s => if s = "" then some default else R.int s
  | .int i => some i
  | .bool b => some (if b then 1 else 0)
  | .float t => R.truncate (R.literal t)
  | .arr _ => none
  | .obj _ => none

/-- The number in a field. -/
def intField (fields : Fields) (name : String) (default : Int) : Option Int :=
  (R.dec fields name).bind fun v => v.elim (some default) (R.toInt default)

/-- `float(ts_raw)`, or the clock where that raises a `TypeError` or a `ValueError`; a number that is too large for a
float raises another exception. -/
def toFloat (now : F) : Json → Option F
  | .float t => some (R.literal t)
  | .int i => R.ofInt i
  | .bool b => R.ofInt (if b then 1 else 0)
  | .str s => some ((R.float s).getD now)
  | .null => some now
  | .arr _ => some now
  | .obj _ => some now

/-- The time of an event. -/
def tsField (fields : Fields) (now : F) : Option F :=
  (R.dec fields "ts").bind fun v => v.elim (some now) (R.toFloat now)

end Runtime

/-! ## The code -/

/-- `HostState`. -/
structure HostState (F : Type) where
  host : String
  ready_pods : Finset String
  crashloop_pods : Finset String
  vram_high_gpus : Finset Int
  last_event_ts : F
  last_heartbeat_ts : F
  restart_counts : Dict String Int

/-- `self.state`. -/
abbrev View (F : Type) := Dict String (HostState F)

/-- What `_apply` reads from the fields. -/
structure Parsed (F : Type) where
  ev_type : String
  host : String
  key : String
  gpu_idx : Int
  restarts : Int
  ts : F

/-- The first part of `_apply`, at a time. -/
def parse (R : Runtime F) (now : F) (fields : Fields) : Option (Parsed F) := do
  let ev_type ← R.strField fields "event"
  let host ← R.strField fields "host"
  let pod ← R.strField fields "pod_name"
  let ns ← R.strField fields "namespace"
  let gpu_idx ← R.intField fields "gpu_index" (-1)
  let restarts ← R.intField fields "restart_count" 0
  let ts ← R.tsField fields now
  return ⟨ev_type, host, if pod = "" then "" else ns ++ "/" ++ pod, gpu_idx, restarts, ts⟩

/-- What the event says about its host. -/
def HostState.record (hs : HostState F) (p : Parsed F) : HostState F :=
  let hs := { hs with last_event_ts := p.ts }
  if p.ev_type = "heartbeat" then { hs with last_heartbeat_ts := p.ts }
  else if p.ev_type = "pod_ready" ∧ p.key ≠ "" then
    { hs with ready_pods := insert p.key hs.ready_pods, crashloop_pods := hs.crashloop_pods.erase p.key }
  else if p.ev_type = "pod_notready" ∧ p.key ≠ "" then { hs with ready_pods := hs.ready_pods.erase p.key }
  else if p.ev_type = "pod_restart" ∧ p.key ≠ "" then
    { hs with restart_counts := hs.restart_counts.set p.key p.restarts }
  else if p.ev_type = "pod_crashloop" ∧ p.key ≠ "" then
    { hs with crashloop_pods := insert p.key hs.crashloop_pods, ready_pods := hs.ready_pods.erase p.key }
  else if p.ev_type = "vram_high" ∧ 0 ≤ p.gpu_idx then
    { hs with vram_high_gpus := insert p.gpu_idx hs.vram_high_gpus }
  else if p.ev_type = "vram_normal" ∧ 0 ≤ p.gpu_idx then
    { hs with vram_high_gpus := hs.vram_high_gpus.erase p.gpu_idx }
  else hs

/-- `HostState(host=host)`. -/
def HostState.new (R : Runtime F) (host : String) : HostState F :=
  ⟨host, ∅, ∅, ∅, R.zero, R.zero, .empty⟩

/-- `_apply`, at a time. -/
def apply (R : Runtime F) (now : F) (fields : Fields) (state : View F) : Option (View F) :=
  (parse R now fields).map fun p =>
    state.set p.host (((state.get? p.host).getD (.new R p.host)).record p)

/-! ## The thread -/

/-- An entry of the stream. -/
abbrev Entry := StreamId × Fields

/-- Where the thread is. -/
inductive Phase where
  /-- In the loops, with these entries left of the last answer. -/
  | looping (batch : List Entry)
  /-- In `xread`, which the server answers with entries after this id. -/
  | reading (pos : StreamId)
  /-- An exception has ended it. -/
  | dead
  deriving DecidableEq

/-- The stream, the consumer, and what has happened: whether the first read was issued, what was appended since, and
what was applied, each entry with the time of its application. In `last_id`, `none` is `$`. -/
structure State (F : Type) where
  stream : Log Fields
  last_id : Option StreamId
  phase : Phase
  state : View F
  started : Bool
  since : List Entry
  applied : List (Entry × F)

/-- What happens next. -/
inductive Label (F : Type) where
  | append (now : Nat) (fields : Fields)
  | issue
  | reply (count : Nat)
  | apply (now : F)
  | timeout
  | error

namespace State

/-- `FleetGpuView.start()`, on a stream. -/
def init (stream : Log Fields) : State F := ⟨stream, none, .looping [], .empty, false, [], []⟩

/-- `XADD`. -/
def append (s : State F) (now : Nat) (fields : Fields) : State F :=
  { s with
    stream := s.stream.add now fields
    since := if s.started then s.since ++ [(s.stream.next now, fields)] else s.since }

/-- The read begins; `$` is the last id of now. -/
def issue (s : State F) : Option (State F) :=
  if s.phase = .looping [] then
    some { s with phase := .reading (s.last_id.getD s.stream.last), started := true }
  else none

/-- The server answers with the next entries, at most 100. -/
def reply (s : State F) (count : Nat) : Option (State F) :=
  match s.phase with
  | .reading pos =>
    if 1 ≤ count ∧ count ≤ 100 ∧ count ≤ (s.stream.after pos).length then
      some { s with phase := .looping ((s.stream.after pos).take count) }
    else none
  | _ => none

/-- The next entry is applied. -/
def applyNext (R : Runtime F) (s : State F) (now : F) : Option (State F) :=
  match s.phase with
  | .looping (e :: batch) =>
    some <| match GpuEvents.apply R now e.2 s.state with
    | some state =>
      { s with
        last_id := some e.1
        phase := .looping batch
        state := state
        applied := s.applied ++ [(e, now)] }
    | none => { s with phase := .dead }
  | _ => none

/-- Nothing was added in time. -/
def timeout (s : State F) : Option (State F) :=
  match s.phase with
  | .reading pos => if s.stream.after pos = [] then some { s with phase := .looping [] } else none
  | _ => none

/-- A `RedisError`, on the way to the server or back. -/
def error (s : State F) : Option (State F) :=
  match s.phase with
  | .reading _ => some { s with phase := .looping [] }
  | _ => none

def step (R : Runtime F) (s : State F) : Label F → Option (State F)
  | .append now fields => some (s.append now fields)
  | .issue => s.issue
  | .reply count => s.reply count
  | .apply now => s.applyNext R now
  | .timeout => s.timeout
  | .error => s.error

/-- The state after a schedule. -/
def play (R : Runtime F) (s : State F) : List (Label F) → Option (State F)
  | [] => some s
  | l :: schedule => (s.step R l).bind fun s' => s'.play R schedule

end State

/-! ## What should hold -/

/-- A step of the thread, without an error. -/
def Label.Own : Label F → Prop
  | .issue => True
  | .reply _ => True
  | .apply _ => True
  | _ => False

/-- What is known when these have been applied. -/
def replay (R : Runtime F) (applied : List (Entry × F)) : Option (View F) :=
  applied.foldlM (fun state e => apply R e.2 e.1.2 state) .empty

namespace State

/-- **The consumer follows the stream**: what it has applied, once each and in the order of the stream, are the first
of the events that were appended since its first read; it has not stopped, and what is left is applied by its own
steps. -/
structure Follows (R : Runtime F) (s : State F) : Prop where
  inOrder : s.applied.map Prod.fst <+: s.since
  view : replay R s.applied = some s.state
  alive : s.phase ≠ .dead
  all : ∃ own s', (∀ l ∈ own, l.Own) ∧ s.play R own = some s' ∧ s'.applied.map Prod.fst = s.since

end State

/-- A value that `int` takes, or that is replaced. -/
def Integral (R : Runtime F) (v : Json) : Prop :=
  match v with
  | .null => True
  | .bool _ => True
  | .int _ => True
  | .float t => (R.truncate (R.literal t)).isSome
  | .str s => s ≠ "" → (R.int s).isSome
  | .arr _ => False
  | .obj _ => False

/-- A value that is no integer too large for a float. -/
def Timely (R : Runtime F) : Json → Prop
  | .int i => (R.ofInt i).isSome
  | .bool b => (R.ofInt (if b then 1 else 0)).isSome
  | _ => True

/-- The names of the fields that `_apply` reads. -/
def fieldNames : List String := ["event", "host", "pod_name", "namespace", "gpu_index", "restart_count", "ts"]

/-- **The fields can be read**: they are decoded, two are numbers, and the time is no integer too large. -/
structure Clean (R : Runtime F) (fields : Fields) : Prop where
  decoded : ∀ name ∈ fieldNames, (R.dec fields name).isSome
  gpu_index : ∀ v, R.dec fields "gpu_index" = some (some v) → Integral R v
  restart_count : ∀ v, R.dec fields "restart_count" = some (some v) → Integral R v
  ts : ∀ v, R.dec fields "ts" = some (some v) → Timely R v

namespace State

/-- **The condition of a step**: once the first read was issued, events that can be read are appended, none of them
while the position is `$` and no read is waiting; and no answer with entries is lost at the position `$`. -/
def StepMeets (R : Runtime F) (s : State F) : Label F → Prop
  | .append _ fields => s.started = true → Clean R fields ∧ ¬ (s.last_id = none ∧ s.phase = .looping [])
  | .error => s.last_id = none → ∀ pos, s.phase = .reading pos → s.stream.after pos = []
  | _ => True

/-- **Every step meets the condition.** -/
def Meets (R : Runtime F) (s : State F) : List (Label F) → Prop
  | [] => True
  | l :: schedule => s.StepMeets R l ∧ ∀ s', s.step R l = some s' → s'.Meets R schedule

end State

/-! ## Reading the fields -/

variable {R : Runtime F} {fields : Fields} {now : F}

theorem isSome_toInt {default : Int} {v : Json} : (R.toInt default v).isSome ↔ Integral R v := by
  cases v with
  | str s =>
    by_cases hs : s = ""
    · simp [Runtime.toInt, Integral, hs]
    · simp [Runtime.toInt, Integral, hs]
  | _ => simp [Runtime.toInt, Integral]

theorem isSome_toFloat {v : Json} : (R.toFloat now v).isSome ↔ Timely R v := by
  cases v <;> simp [Runtime.toFloat, Timely]

theorem isSome_strField {name : String} : (R.strField fields name).isSome ↔ (R.dec fields name).isSome := by
  simp [Runtime.strField]

/-- A field that is read on when it is there. -/
theorem isSome_bind_elim {α : Type} {x : Option (Option Json)} {absent : α} {f : Json → Option α} {P : Json → Prop}
    (hf : ∀ v, (f v).isSome ↔ P v) :
    (x.bind fun v => v.elim (some absent) f).isSome ↔ x.isSome ∧ ∀ v, x = some (some v) → P v := by
  cases x with
  | none => simp
  | some v =>
    cases v with
    | none => simp
    | some v => simp [hf]

theorem isSome_intField {name : String} {default : Int} : (R.intField fields name default).isSome ↔
    (R.dec fields name).isSome ∧ ∀ v, R.dec fields name = some (some v) → Integral R v :=
  isSome_bind_elim fun _ => isSome_toInt

theorem isSome_tsField : (R.tsField fields now).isSome ↔
    (R.dec fields "ts").isSome ∧ ∀ v, R.dec fields "ts" = some (some v) → Timely R v :=
  isSome_bind_elim fun _ => isSome_toFloat

/-- **`_apply` can read exactly these events**, whatever the time. -/
theorem parse_isSome_iff : (parse R now fields).isSome ↔ Clean R fields := by
  have hparts : (parse R now fields).isSome ↔ (R.strField fields "event").isSome ∧
      (R.strField fields "host").isSome ∧ (R.strField fields "pod_name").isSome ∧
      (R.strField fields "namespace").isSome ∧ (R.intField fields "gpu_index" (-1)).isSome ∧
      (R.intField fields "restart_count" 0).isSome ∧ (R.tsField fields now).isSome := by
    simp [parse, Option.isSome_iff_exists, Option.bind_eq_some_iff]
  rw [hparts]
  simp only [isSome_strField, isSome_intField, isSome_tsField]
  constructor
  · rintro ⟨hevent, hhost, hpod, hns, ⟨hgpu, hgpu'⟩, ⟨hcount, hcount'⟩, hts, hts'⟩
    exact ⟨by simp [fieldNames, *], hgpu', hcount', hts'⟩
  · rintro ⟨hdec, hgpu, hcount, hts⟩
    simp only [fieldNames, List.forall_mem_cons] at hdec
    obtain ⟨h₁, h₂, h₃, h₄, h₅, h₆, h₇, -⟩ := hdec
    exact ⟨h₁, h₂, h₃, h₄, ⟨h₅, hgpu⟩, ⟨h₆, hcount⟩, h₇, hts⟩

theorem apply_of_clean (h : Clean R fields) (now : F) (state : View F) :
    ∃ state', apply R now fields state = some state' := by
  obtain ⟨p, hp⟩ := Option.isSome_iff_exists.mp (parse_isSome_iff.mpr h)
  exact ⟨_, by rw [apply, hp]; rfl⟩

/-! ## Steps -/

variable {s s' : State F}

namespace State

theorem issue_cases (h : s.step R .issue = some s') : s.phase = .looping [] ∧
    s' = { s with phase := .reading (s.last_id.getD s.stream.last), started := true } := by
  have hissue : s.issue = some s' := h
  unfold issue at hissue
  split at hissue
  · exact ⟨‹_›, (Option.some.inj hissue).symm⟩
  · cases hissue

theorem reply_cases {count : Nat} (h : s.step R (.reply count) = some s') :
    ∃ pos, s.phase = .reading pos ∧ 1 ≤ count ∧ count ≤ (s.stream.after pos).length ∧
      s' = { s with phase := .looping ((s.stream.after pos).take count) } := by
  have hreply : s.reply count = some s' := h
  unfold reply at hreply
  split at hreply
  · split at hreply
    · rename_i hcount
      exact ⟨_, ‹_›, hcount.1, hcount.2.2, (Option.some.inj hreply).symm⟩
    · cases hreply
  · cases hreply

/-- What a step at an entry that can be read does. -/
theorem apply_cases (h : s.step R (.apply now) = some s')
    (hclean : ∀ e batch, s.phase = .looping (e :: batch) → Clean R e.2) :
    ∃ e batch state, s.phase = .looping (e :: batch) ∧ GpuEvents.apply R now e.2 s.state = some state ∧
      s' = { s with
        last_id := some e.1
        phase := .looping batch
        state := state
        applied := s.applied ++ [(e, now)] } := by
  have happly : s.applyNext R now = some s' := h
  unfold applyNext at happly
  split at happly
  · rename_i e batch hphase
    obtain ⟨state, hstate⟩ := apply_of_clean (hclean e batch hphase) now s.state
    rw [hstate] at happly
    exact ⟨e, batch, state, hphase, hstate, (Option.some.inj happly).symm⟩
  · cases happly

theorem timeout_cases (h : s.step R .timeout = some s') :
    ∃ pos, s.phase = .reading pos ∧ s.stream.after pos = [] ∧ s' = { s with phase := .looping [] } := by
  have htimeout : s.timeout = some s' := h
  unfold timeout at htimeout
  split at htimeout
  · split at htimeout
    · exact ⟨_, ‹_›, ‹_›, (Option.some.inj htimeout).symm⟩
    · cases htimeout
  · cases htimeout

theorem error_cases (h : s.step R .error = some s') :
    ∃ pos, s.phase = .reading pos ∧ s' = { s with phase := .looping [] } := by
  have herror : s.error = some s' := h
  unfold error at herror
  split at herror
  · exact ⟨_, ‹_›, (Option.some.inj herror).symm⟩
  · cases herror

/-! ## The invariant -/

/-- The entries of the last answer that are not applied. -/
def batch (s : State F) : List Entry :=
  match s.phase with
  | .looping batch => batch
  | _ => []

/-- The id after which the consumer reads on, once it has applied these entries. -/
def position (s : State F) : Option StreamId :=
  match s.phase with
  | .looping batch => (batch.getLast?.map Prod.fst).or s.last_id
  | .reading pos => some pos
  | .dead => none

/-- What is to be applied. -/
def outstanding (s : State F) : List Entry := s.batch ++ s.position.elim [] s.stream.after

/-- The consumer keeps up with the stream. -/
structure Tracks (R : Runtime F) (s : State F) : Prop where
  alive : s.phase ≠ .dead
  view : replay R s.applied = some s.state
  order : s.applied.map Prod.fst ++ s.outstanding = s.since
  clean : ∀ e ∈ s.outstanding, Clean R e.2
  bound : ∀ id, s.position = some id → id ≤ s.stream.last
  reads : ∀ pos id, s.phase = .reading pos → s.last_id = some id → pos = id
  before : s.started = false → s.last_id = none ∧ s.phase = .looping [] ∧ s.since = [] ∧ s.applied = []

end State

namespace State

theorem tracks_init (stream : Log Fields) : (init stream : State F).Tracks R where
  alive := Phase.noConfusion
  view := rfl
  order := rfl
  clean _ he := absurd he List.not_mem_nil
  bound id hid := by cases hid
  reads pos id hphase := by cases hphase
  before _ := ⟨rfl, rfl, rfl, rfl⟩

variable {pos : StreamId} {e : Entry} {batch : List Entry}

theorem outstanding_reading (h : s.phase = .reading pos) : s.outstanding = s.stream.after pos := by
  rw [outstanding, State.batch, position, h]
  rfl

/-- Where the position is not `$`, the loops end at what is after it. -/
theorem outstanding_idle {id : StreamId} (h : s.phase = .looping []) (hid : s.last_id = some id) :
    s.outstanding = s.stream.after id := by
  rw [outstanding, State.batch, position, h, hid]
  rfl

theorem outstanding_fresh (h : s.phase = .looping []) (hid : s.last_id = none) : s.outstanding = [] := by
  rw [outstanding, State.batch, position, h, hid]
  rfl

/-- An entry that is appended while there is a position. -/
theorem outstanding_append {id : StreamId} (hid : s.position = some id) (hle : id ≤ s.stream.last) (now : Nat)
    (fields : Fields) :
    (s.append now fields).outstanding = s.outstanding ++ [(s.stream.next now, fields)] := by
  have hposition : (s.append now fields).position = some id := hid
  have hbatch : (s.append now fields).batch = s.batch := rfl
  have hstream : (s.append now fields).stream = s.stream.add now fields := rfl
  rw [outstanding, outstanding, hposition, hid, hbatch, hstream, Option.elim_some, Option.elim_some,
    Log.after_add hle, List.append_assoc]

/-- Without a position, the thread is at the top of its loop and has applied nothing. -/
theorem fresh_of_position (halive : s.phase ≠ .dead) (h : s.position = none) :
    s.last_id = none ∧ s.phase = .looping [] := by
  unfold position at h
  split at h
  · rename_i batch hphase
    obtain ⟨hlast, hid⟩ := Option.or_eq_none_iff.mp h
    rw [Option.map_eq_none_iff, List.getLast?_eq_none_iff] at hlast
    exact ⟨hid, hlast ▸ hphase⟩
  · cases h
  · exact absurd ‹_› halive

theorem tracks_append {now : Nat} (h : s.Tracks R) (hmeets : s.StepMeets R (.append now fields)) :
    (s.append now fields).Tracks R := by
  by_cases hstarted : s.started = true
  · obtain ⟨hclean, hfresh⟩ := hmeets hstarted
    obtain ⟨id, hid⟩ : ∃ id, s.position = some id :=
      Option.ne_none_iff_exists'.mp fun hnone => hfresh (fresh_of_position h.alive hnone)
    have hout := outstanding_append hid (h.bound id hid) now fields
    refine ⟨h.alive, h.view, ?_, fun e he => ?_, fun id' hid' => ?_, h.reads, fun hnot => ?_⟩
    · have hsince : (s.append now fields).since = s.since ++ [(s.stream.next now, fields)] := if_pos hstarted
      rw [hout, hsince, ← h.order, List.append_assoc]
      rfl
    · rw [hout, List.mem_append, List.mem_singleton] at he
      rcases he with he | rfl
      · exact h.clean e he
      · exact hclean
    · exact (h.bound id' hid').trans (Nat.le_of_lt (s.stream.last_lt_next now))
    · exact absurd hnot (by rw [show (s.append now fields).started = true from hstarted]; decide)
  · obtain ⟨hid, hphase, hsince, happlied⟩ := h.before (Bool.eq_false_iff.mpr hstarted)
    have hout : (s.append now fields).outstanding = [] := outstanding_fresh hphase hid
    have hsince' : (s.append now fields).since = s.since := if_neg hstarted
    refine ⟨h.alive, h.view, ?_, fun e he => ?_, fun id' hid' => ?_, h.reads, fun _ => ?_⟩
    · rw [hout, hsince', hsince, show (s.append now fields).applied = [] from happlied]
      rfl
    · rw [hout] at he
      cases he
    · exact (h.bound id' hid').trans (Nat.le_of_lt (s.stream.last_lt_next now))
    · exact ⟨hid, hphase, hsince'.trans hsince, happlied⟩

/-- The thread goes on without applying anything, and with as much left to apply. -/
theorem Tracks.moved (h : s.Tracks R) (halive : s'.phase ≠ .dead) (hstream : s'.stream = s.stream)
    (happlied : s'.applied = s.applied) (hstate : s'.state = s.state) (hsince : s'.since = s.since)
    (hout : s'.outstanding = s.outstanding) (hbound : ∀ id, s'.position = some id → id ≤ s.stream.last)
    (hreads : ∀ pos id, s'.phase = .reading pos → s'.last_id = some id → pos = id)
    (hstarted : s'.started = true) : s'.Tracks R where
  alive := halive
  view := by rw [happlied, hstate, h.view]
  order := by rw [happlied, hout, hsince, h.order]
  clean e he := h.clean e (hout ▸ he)
  bound id hid := hstream ▸ hbound id hid
  reads := hreads
  before hnot := absurd hnot (by rw [hstarted]; decide)

/-- A read that waits was issued. -/
theorem Tracks.started_of_reading (h : s.Tracks R) (hphase : s.phase = .reading pos) : s.started = true := by
  by_contra hnot
  have hlooping := (h.before (Bool.eq_false_iff.mpr hnot)).2.1
  rw [hphase] at hlooping
  cases hlooping

theorem Tracks.le_of_reading (h : s.Tracks R) (hphase : s.phase = .reading pos) : pos ≤ s.stream.last :=
  h.bound pos (by rw [position, hphase])

theorem tracks_issue (h : s.Tracks R) (hphase : s.phase = .looping []) :
    Tracks R { s with phase := .reading (s.last_id.getD s.stream.last), started := true } := by
  refine h.moved Phase.noConfusion rfl rfl rfl rfl ?_ ?_ ?_ rfl
  · rw [outstanding_reading rfl]
    cases hid : s.last_id with
    | none => rw [outstanding_fresh hphase hid, Option.getD_none, Log.after_last]
    | some id => rw [outstanding_idle hphase hid, Option.getD_some]
  · intro id hid
    cases hid
    cases hlast : s.last_id with
    | none => exact Nat.le_refl _
    | some id => exact h.bound id (by rw [position, hphase, hlast]; rfl)
  · intro pos id hpos hid
    cases hpos
    rw [show s.last_id = some id from hid]
    rfl

theorem tracks_reply {count : Nat} (h : s.Tracks R) (hphase : s.phase = .reading pos) (hpos : 1 ≤ count)
    (hle : count ≤ (s.stream.after pos).length) :
    Tracks R { s with phase := .looping ((s.stream.after pos).take count) } := by
  obtain ⟨before, e, hbefore⟩ : ∃ before e, (s.stream.after pos).take count = before ++ [e] := by
    have hne : (s.stream.after pos).take count ≠ [] := by
      intro hnil
      have hlen := congrArg List.length hnil
      rw [List.length_take, List.length_nil] at hlen
      omega
    exact ⟨_, _, (List.dropLast_append_getLast hne).symm⟩
  have hsplit : s.stream.after pos = before ++ e :: (s.stream.after pos).drop count := by
    conv_lhs => rw [← List.take_append_drop count (s.stream.after pos), hbefore]
    rw [List.append_assoc, List.singleton_append]
  have hposition : position { s with phase := .looping ((s.stream.after pos).take count) } = some e.1 := by
    rw [position, hbefore]
    simp
  refine h.moved Phase.noConfusion rfl rfl rfl rfl ?_ (fun id hid => ?_) (fun _ _ hreading => ?_)
    (h.started_of_reading hphase)
  · rw [outstanding_reading hphase, outstanding, hposition]
    show (s.stream.after pos).take count ++ s.stream.after e.1 = _
    rw [Log.after_of_append hsplit, List.take_append_drop]
  · rw [hposition] at hid
    cases hid
    have hmem : e ∈ s.stream.after pos := hsplit ▸ List.mem_append_right _ List.mem_cons_self
    exact s.stream.le_last e (List.mem_of_mem_filter hmem)
  · cases hreading

/-- The read is over without an answer, and nothing is left behind a position `$`. -/
theorem tracks_over (h : s.Tracks R) (hphase : s.phase = .reading pos)
    (hnothing : s.last_id = none → s.stream.after pos = []) : Tracks R { s with phase := .looping [] } := by
  refine h.moved Phase.noConfusion rfl rfl rfl rfl ?_ (fun id hid => ?_) (fun _ _ hreading => ?_)
    (h.started_of_reading hphase)
  · rw [outstanding_reading hphase]
    cases hid : s.last_id with
    | none => exact (outstanding_fresh rfl rfl).trans (hnothing hid).symm
    | some id => exact (outstanding_idle rfl rfl).trans (h.reads pos id hphase hid ▸ rfl)
  · have hid' : s.last_id = some id := hid
    exact h.reads pos id hphase hid' ▸ h.le_of_reading hphase
  · cases hreading

theorem outstanding_cons (hphase : s.phase = .looping (e :: batch)) (state : View F) (applied : List (Entry × F)) :
    s.outstanding =
      e :: outstanding
        { s with last_id := some e.1, phase := .looping batch, state := state, applied := applied } := by
  have hlast : ((e :: batch).getLast?.map Prod.fst).or s.last_id =
      (batch.getLast?.map Prod.fst).or (some e.1) := by
    cases batch with
    | nil => rfl
    | cons e' batch => rw [List.getLast?_cons_cons, List.getLast?_cons]; rfl
  unfold outstanding State.batch position
  rw [hphase]
  simp only [hlast, List.cons_append]

theorem tracks_apply (h : s.Tracks R) (hphase : s.phase = .looping (e :: batch)) {state : View F}
    (hstate : GpuEvents.apply R now e.2 s.state = some state) :
    Tracks R { s with
      last_id := some e.1
      phase := .looping batch
      state := state
      applied := s.applied ++ [(e, now)] } := by
  have hout := outstanding_cons hphase state (s.applied ++ [(e, now)])
  have hposition : s.position = (batch.getLast?.map Prod.fst).or (some e.1) := by
    rw [position, hphase]
    cases batch with
    | nil => rfl
    | cons e' batch => simp [List.getLast?_cons]
  refine ⟨Phase.noConfusion, ?_, ?_, fun e' he' => ?_, fun id hid => ?_, fun _ _ hreading => ?_, fun hnot => ?_⟩
  · rw [replay, List.foldlM_append]
    have hview : List.foldlM (fun state e => GpuEvents.apply R e.2 e.1.2 state) .empty s.applied = some s.state :=
      h.view
    rw [hview]
    simp [hstate]
  · rw [← h.order, hout, List.map_append, List.append_assoc]
    rfl
  · exact h.clean e' (hout ▸ List.mem_cons_of_mem e he')
  · exact h.bound id (hposition.trans hid)
  · cases hreading
  · have hlooping := (h.before hnot).2.1
    rw [hphase] at hlooping
    cases hlooping

/-- The entries of an answer can be read. -/
theorem Tracks.clean_head (h : s.Tracks R) (hphase : s.phase = .looping (e :: batch)) : Clean R e.2 :=
  h.clean e (by rw [outstanding_cons hphase s.state s.applied]; exact List.mem_cons_self)

/-- **A step that meets the condition.** -/
theorem tracks_step (h : s.Tracks R) (l : Label F) (hmeets : s.StepMeets R l) (hstep : s.step R l = some s') :
    s'.Tracks R := by
  cases l with
  | append now fields =>
    cases hstep
    exact tracks_append h hmeets
  | issue =>
    obtain ⟨hphase, rfl⟩ := issue_cases hstep
    exact tracks_issue h hphase
  | reply count =>
    obtain ⟨pos, hphase, hpos, hle, rfl⟩ := reply_cases hstep
    exact tracks_reply h hphase hpos hle
  | apply now =>
    obtain ⟨e, batch, state, hphase, hstate, rfl⟩ := apply_cases hstep fun _ _ hphase => h.clean_head hphase
    exact tracks_apply h hphase hstate
  | timeout =>
    obtain ⟨pos, hphase, hnothing, rfl⟩ := timeout_cases hstep
    exact tracks_over h hphase fun _ => hnothing
  | error =>
    obtain ⟨pos, hphase, rfl⟩ := error_cases hstep
    exact tracks_over h hphase fun hid => hmeets hid pos hphase

theorem tracks_play : ∀ {schedule : List (Label F)} {s : State F}, s.Tracks R → s.Meets R schedule →
    s.play R schedule = some s' → s'.Tracks R
  | [], s, h, _, hplay => by
    cases hplay
    exact h
  | l :: schedule, s, h, hmeets, hplay => by
    obtain ⟨next, hstep, hnext⟩ := Option.bind_eq_some_iff.mp hplay
    exact tracks_play (tracks_step h l hmeets.1 hstep) (hmeets.2 next hstep) hnext

end State

/-! ## Catching up -/

namespace State

theorem play_append {first : List (Label F)} {rest : List (Label F)} {s next : State F}
    (hfirst : s.play R first = some next) : s.play R (first ++ rest) = next.play R rest := by
  induction first generalizing s with
  | nil =>
    cases hfirst
    rfl
  | cons l first ih =>
    obtain ⟨s₁, hstep, hplay⟩ := Option.bind_eq_some_iff.mp hfirst
    rw [List.cons_append, play, hstep]
    exact ih hplay

theorem stepMeets_of_own {l : Label F} (h : l.Own) : s.StepMeets R l := by
  cases l with
  | append now fields => exact h.elim
  | error => exact h.elim
  | _ => trivial

/-- The thread is at the next entry. -/
theorem next_applied {e : Entry} {batch : List Entry} (h : s.Tracks R) (hphase : s.phase = .looping (e :: batch)) :
    ∃ s', s.step R (.apply R.zero) = some s' ∧ s'.Tracks R ∧ s.outstanding = e :: s'.outstanding ∧
      s'.since = s.since := by
  obtain ⟨state, hstate⟩ := apply_of_clean (h.clean_head hphase) R.zero s.state
  refine ⟨_, ?_, tracks_apply h hphase hstate, outstanding_cons hphase _ _, rfl⟩
  show s.applyNext R R.zero = _
  unfold applyNext
  rw [hphase]
  simp only [hstate]

/-- The thread waits for the next entry. -/
theorem next_read {pos : StreamId} {e : Entry} {rest : List Entry} (h : s.Tracks R) (hphase : s.phase = .reading pos)
    (hout : s.outstanding = e :: rest) :
    ∃ s', s.step R (.reply 1) = some s' ∧ s'.Tracks R ∧ s'.phase = .looping [e] ∧ s'.outstanding = s.outstanding ∧
      s'.since = s.since := by
  have hafter : s.stream.after pos = e :: rest := (outstanding_reading hphase).symm.trans hout
  have hle : 1 ≤ (s.stream.after pos).length := by
    rw [hafter, List.length_cons]
    exact Nat.le_add_left 1 _
  have htracks := tracks_reply h hphase (Nat.le_refl 1) hle
  refine ⟨_, ?_, htracks, ?_, ?_, rfl⟩
  · show s.reply 1 = _
    unfold reply
    rw [hphase]
    exact if_pos ⟨Nat.le_refl 1, by decide, hle⟩
  · rw [hafter]
    rfl
  · exact List.append_cancel_left (htracks.order.trans h.order.symm)

/-- The thread's own steps up to the next entry. -/
theorem next_reached {e : Entry} {rest : List Entry} (h : s.Tracks R) (hout : s.outstanding = e :: rest) :
    ∃ own s', (∀ l ∈ own, l.Own) ∧ s.play R own = some s' ∧ s'.Tracks R ∧ (∃ batch, s'.phase = .looping (e :: batch)) ∧
      s'.outstanding = s.outstanding ∧ s'.since = s.since := by
  cases hphase : s.phase with
  | dead => exact absurd hphase h.alive
  | reading pos =>
    obtain ⟨s', hstep, htracks, hlooping, hsame, hsince⟩ := next_read h hphase hout
    exact ⟨[.reply 1], s', by simp [Label.Own], by rw [play, hstep]; rfl, htracks, ⟨[], hlooping⟩, hsame, hsince⟩
  | looping batch =>
    cases batch with
    | cons e' batch =>
      have hcons := (outstanding_cons hphase s.state s.applied).symm.trans hout
      obtain ⟨rfl, -⟩ := List.cons.inj hcons
      exact ⟨[], s, by simp, rfl, h, ⟨batch, hphase⟩, rfl, rfl⟩
    | nil =>
      have htracks := tracks_issue h hphase
      have hissued : s.step R .issue =
          some { s with phase := .reading (s.last_id.getD s.stream.last), started := true } := if_pos hphase
      have hsame : outstanding { s with phase := .reading (s.last_id.getD s.stream.last), started := true } =
          s.outstanding := List.append_cancel_left (htracks.order.trans h.order.symm)
      obtain ⟨s', hstep, htracks', hlooping, hsame', hsince⟩ := next_read htracks rfl (hsame.trans hout)
      refine ⟨[.issue, .reply 1], s', by simp [Label.Own], ?_, htracks', ⟨[], hlooping⟩, hsame'.trans hsame, hsince⟩
      rw [play, hissued, Option.bind_some, play, hstep]
      rfl

/-- **What was appended is applied by the thread's own steps.** -/
theorem catches_up : ∀ {left : List Entry} {s : State F}, s.Tracks R → s.outstanding = left →
    ∃ own s', (∀ l ∈ own, l.Own) ∧ s.play R own = some s' ∧ s'.applied.map Prod.fst = s.since
  | [], s, h, hout => ⟨[], s, by simp, rfl, by rw [← h.order, hout, List.append_nil]⟩
  | e :: rest, s, h, hout => by
    obtain ⟨own, s₁, hown, hplay, htracks, ⟨batch, hphase⟩, hsame, hsince⟩ := next_reached h hout
    obtain ⟨s₂, hstep, htracks₂, hcons, hsince₂⟩ := next_applied htracks hphase
    have hrest : s₂.outstanding = rest := (List.cons.inj (hcons.symm.trans (hsame.trans hout))).2
    obtain ⟨own', s₃, hown', hplay', hall⟩ := catches_up htracks₂ hrest
    refine ⟨own ++ .apply R.zero :: own', s₃, ?_, ?_, by rw [hall, hsince₂, hsince]⟩
    · intro l hl
      rcases List.mem_append.mp hl with hl | hl
      · exact hown l hl
      · rcases List.mem_cons.mp hl with rfl | hl
        · trivial
        · exact hown' l hl
    · rw [play_append hplay, play, hstep]
      exact hplay'

theorem Tracks.follows (h : s.Tracks R) : s.Follows R where
  inOrder := ⟨s.outstanding, h.order⟩
  view := h.view
  alive := h.alive
  all := catches_up h rfl

/-- **The consumer follows the stream** in every schedule whose steps meet the condition. -/
theorem follows_of_meets (stream : Log Fields) (schedule : List (Label F))
    (hmeets : (init stream).Meets R schedule) (hplay : (init stream).play R schedule = some s) : s.Follows R :=
  (tracks_play (tracks_init stream) hmeets hplay).follows

end State

/-! ## Runs -/

/-- Texts in ASCII; whole numbers for floats. -/
def wholeSeconds : Runtime Int where
  decode v := if v.all (· < 128) then some (.ofList (v.map fun b => Char.ofNat b.toNat)) else none
  loads := Json.load
  str := Python.strJson .ascii
  int := Python.int
  float := Python.int
  literal text := (Python.int text).getD 0
  truncate := some
  ofInt := some
  zero := 0

/-- A heartbeat of `giga`. -/
def heartbeat : Fields := ⟨.empty, .ofList [("event", "heartbeat"), ("host", "giga"), ("ts", "7")]⟩

/-- A GPU that is no number. -/
def unnumbered : Fields := ⟨.empty, .ofList [("event", "vram_high"), ("host", "giga"), ("gpu_index", "all")]⟩

/-- The thread's own steps meet the condition. -/
theorem State.meets_own : ∀ {own : List (Label F)} {s : State F}, (∀ l ∈ own, l.Own) → s.Meets R own
  | [], _, _ => trivial
  | l :: _, _, h =>
    ⟨stepMeets_of_own (h l List.mem_cons_self), fun _ _ => meets_own fun l' hl' => h l' (List.mem_cons_of_mem l hl')⟩

/-- An event that comes while the first read waits. -/
theorem follows_of_meets_first : ∃ s, (State.init .empty).play wholeSeconds
    [.issue, .append 1 heartbeat, .reply 1, .apply 9] = some s ∧ s.Follows wholeSeconds ∧ s.applied.length = 1 := by
  have hplay : ((State.init .empty).play wholeSeconds [.issue, .append 1 heartbeat, .reply 1, .apply 9]).any
      (fun s => s.applied.length == 1) = true := by decide +kernel
  obtain ⟨s, hs, hlen⟩ := (Option.any_eq_true _ _).mp hplay
  have hmeets : (State.init .empty).Meets wholeSeconds [.issue, .append 1 heartbeat, .reply 1, .apply 9] := by
    refine ⟨trivial, fun s' hs' => ?_⟩
    obtain ⟨-, rfl⟩ := State.issue_cases hs'
    have hparse : (parse wholeSeconds 0 heartbeat).isSome = true := by decide +kernel
    refine ⟨fun _ => ⟨parse_isSome_iff.mp hparse, fun hc => by cases hc.2⟩, fun _ _ => State.meets_own ?_⟩
    simp [Label.Own]
  exact ⟨s, hs, State.follows_of_meets .empty _ hmeets hs, eq_of_beq hlen⟩

/-- The first read ends without an answer, and an event comes before the second: the next one is applied without it.
And a GPU that is no number ends the thread. -/
theorem lost_and_stopped :
    (∃ s, (State.init .empty).play wholeSeconds
      [.issue, .timeout, .append 1 heartbeat, .issue, .append 2 heartbeat, .reply 1, .apply 7] = some s ∧
        ¬ s.Follows wholeSeconds) ∧
    ∃ s, (State.init .empty).play wholeSeconds [.issue, .append 1 unnumbered, .reply 1, .apply 7] = some s ∧
      ¬ s.Follows wholeSeconds := by
  constructor
  · have hplay : ((State.init .empty).play wholeSeconds
        [.issue, .timeout, .append 1 heartbeat, .issue, .append 2 heartbeat, .reply 1, .apply 7]).any
          (fun s => !decide (s.applied.map Prod.fst <+: s.since)) = true := by decide +kernel
    obtain ⟨s, hs, hlost⟩ := (Option.any_eq_true _ _).mp hplay
    exact ⟨s, hs, fun h => by simp [h.inOrder] at hlost⟩
  · have hplay : ((State.init .empty).play wholeSeconds [.issue, .append 1 unnumbered, .reply 1, .apply 7]).any
          (fun s => decide (s.phase = .dead)) = true := by decide +kernel
    obtain ⟨s, hs, hdead⟩ := (Option.any_eq_true _ _).mp hplay
    exact ⟨s, hs, fun h => h.alive (of_decide_eq_true hdead)⟩

end ClaudeSwarm.GpuEvents
