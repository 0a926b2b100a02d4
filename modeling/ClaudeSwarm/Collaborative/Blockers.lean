import ClaudeSwarm.Data.JsonTrip
import ClaudeSwarm.Interleave.Span
import Mathlib.Data.List.Induction

/-!
# Blocker reports

`write_blocker`, `resolve_blocker` and `read_blockers` of `src/collaborative.py`, by any number of processes, on the
file of one session. The file has the text that `truncate` and the flush of a buffer leave there; `yaml.dump` and
`yaml.safe_load` are the parameter `Y`. What is reported is plain data, and the directory is there.

`_locked_file` gives the lock back before it closes the file, and a small text that was written is in its buffer until
then: a call is `Dirty` from its `truncate` to its `close`.

* `run_plain`: a call does not fail on a list of dictionaries.
* `strip_serial`: what the calls make of the list, one after the other, has every reported blocker once.
-/

namespace ClaudeSwarm.Collaborative

open Interleave Data

/-! ## The code -/

/-- `yaml.dump` and `yaml.safe_load`; `none` is an exception. -/
structure Yaml where
  dump : Json → List Char
  safeLoad : List Char → Option Json

/-- `not content.strip()`. -/
def isBlank (content : List Char) : Bool := content.all Python.isSpace

/-- What is documented of them: a list of plain data is read as it was written, and an empty text is `None`. -/
structure Yaml.Lawful (Y : Yaml) : Prop where
  trip : ∀ l, (∀ v ∈ l, v.Proper) → Y.safeLoad (Y.dump (.arr l)) = some (.arr l)
  text : ∀ l, isBlank (Y.dump (.arr l)) = false
  empty : Y.safeLoad [] = some .null

/-- A dictionary of plain data. -/
abbrev Dict := {d : List (String × Json) // ∀ m ∈ d, m.2.Proper}

/-- `Blocker`. -/
structure Blocker where
  blockerId : String
  reportedAt : String
  description : String
  context : Dict
  resolution : Dict
  resolved : Bool

/-- `Blocker.to_dict`. -/
def Blocker.toDict (b : Blocker) : Json :=
  .obj [("blocker_id", .str b.blockerId), ("reported_at", .str b.reportedAt), ("description", .str b.description),
    ("context", .obj b.context.1), ("resolution", .obj b.resolution.1), ("resolved", .bool b.resolved)]

/-- An exception. -/
inductive Error where
  | yaml
  | attribute
  | fileNotFound
  deriving DecidableEq

/-- A step of a process on the file; `close` flushes what is in the buffer. -/
inductive Cmd where
  | isThere | touch | openFile | flock | read | truncate | unlock
  | close (pending : Option (List Char))
  deriving DecidableEq

/-- What a step answers. -/
def Resp : Cmd → Type
  | .isThere => Bool
  | .openFile => Bool
  | .read => List Char
  | .touch | .flock | .truncate | .unlock | .close _ => Unit

abbrev sig : Sig := ⟨Cmd, Resp⟩

/-- The file, and the call that holds its lock. -/
structure Disk where
  file : Option (List Char)
  holder : Option Nat

/-- A buffer is written at the start of the file, over what is there. -/
def flush : Option (List Char) → List Char → List Char
  | none, old => old
  | some new, old => new ++ old.drop new.length

/-- Execute one step; the lock blocks. -/
def exec (n : Nat) (_ : Unit) (s : Disk) : (c : Cmd) → Option (Resp c × Disk)
  | .isThere => some (s.file.isSome, s)
  | .touch => some ((), { s with file := some (s.file.getD []) })
  | .openFile => some (s.file.isSome, s)
  | .flock => if s.holder = none then some ((), { s with holder := some n }) else none
  | .read => some (s.file.getD [], s)
  | .truncate => some ((), { s with file := s.file.map fun _ => [] })
  | .unlock => some ((), { s with holder := if s.holder = some n then none else s.holder })
  | .close pending => some ((), { s with file := s.file.map (flush pending) })

abbrev store : Store sig := ⟨Disk, Unit, exec⟩

abbrev P := Prog sig Error

def cmd (c : Cmd) : P (Resp c) := .op c .ret

/-- `_locked_file` around `body`, which gives the text that it has written. -/
def lockedFile (body : P (List Char)) : P Unit := do
  if !(← cmd .isThere) then cmd .touch
  if !(← cmd .openFile) then .raise .fileNotFound
  cmd .flock
  let pending ← body.catch_ fun e => do
    cmd .unlock
    cmd (.close none)
    .raise e
  cmd .unlock
  cmd (.close (some pending))

variable (Y : Yaml)

/-- `yaml.safe_load(content) if content.strip() else []`, and `[]` for what is not a list. -/
def existing (content : List Char) : Except Error (List Json) :=
  if isBlank content then .ok []
  else
    match Y.safeLoad content with
    | none => .error .yaml
    | some (.arr l) => .ok l
    | some _ => .ok []

/-- `blocker.get("blocker_id") == blocker_id`. -/
def hasId (blocker_id : String) (blocker : Json) : Bool :=
  match blocker.get? "blocker_id" with
  | some (.str id) => id = blocker_id
  | _ => false

/-- The loop of `resolve_blocker`. -/
def resolveIn (blocker_id : String) (resolution : Dict) : List Json → Except Error (List Json)
  | [] => .ok []
  | .obj blocker :: rest =>
    if hasId blocker_id (.obj blocker) then
      .ok (.obj (Json.setKey (Json.setKey blocker ("resolution", .obj resolution.1)) ("resolved", .bool true)) :: rest)
    else (resolveIn blocker_id resolution rest).map (Json.obj blocker :: ·)
  | _ :: _ => .error .attribute

/-- What a call does to the list. -/
inductive Change where
  | write (blocker : Blocker)
  | resolve (blocker_id : String) (resolution : Dict)

/-- The new list. -/
def Change.run : Change → List Json → Except Error (List Json)
  | .write blocker, blockers => .ok (blockers ++ [blocker.toDict])
  | .resolve blocker_id resolution, blockers => resolveIn blocker_id resolution blockers

/-- What is done while the lock is held. -/
def update (change : Change) : P (List Char) := do
  let content ← cmd .read
  let blockers ← Prog.ofExcept (existing Y content)
  let blockers ← Prog.ofExcept (change.run blockers)
  cmd .truncate
  return Y.dump (.arr blockers)

/-- `write_blocker`. -/
def writeBlocker (blocker : Blocker) : P Unit := lockedFile (update Y (.write blocker))

/-- `resolve_blocker`. -/
def resolveBlocker (blocker_id : String) (resolution : Dict) : P Unit := do
  if !(← cmd .isThere) then return ()
  lockedFile (update Y (.resolve blocker_id resolution))

/-- What `read_blockers` makes of a text; an exception gives `[]`. -/
def listed (content : List Char) : List Json :=
  match Y.safeLoad content with
  | some (.arr l) => l
  | _ => []

/-- `read_blockers`. -/
def readBlockers : P (List Json) := do
  if !(← cmd .isThere) then return []
  if !(← cmd .openFile) then return []
  let content ← cmd .read
  cmd (.close none)
  return listed Y content

/-- A call. -/
inductive Op where
  | change (c : Change)
  | read

/-- What a call returns. -/
def Ret : Op → Type
  | .change _ => Unit
  | .read => List Json

/-- The program of a call. -/
def prog : (o : Op) → P (Ret o)
  | .change (.write blocker) => writeBlocker Y blocker
  | .change (.resolve blocker_id resolution) => resolveBlocker Y blocker_id resolution
  | .read => readBlockers Y

/-- Any number of processes on one file. -/
abbrev system : System where
  sig := sig
  store := store
  Err := Error
  Op := Op
  Ret := Ret
  prog := prog Y

/-! ## What should be kept -/

variable {Y}

/-- What a call makes of the list. -/
def Change.effect (c : Change) (blockers : List Json) : List Json := (c.run blockers).toOption.getD blockers

/-- What calls, one after the other, make of the list. -/
def serial (init : List Json) (order : List (Nat × Change)) : List Json := order.foldl (fun l p => p.2.effect l) init

/-- The file shows the list, to those who change it and to those who read it. -/
def Shows (Y : Yaml) (file : Option (List Char)) (blockers : List Json) : Prop :=
  match file with
  | none => blockers = []
  | some content => existing Y content = .ok blockers ∧ listed Y content = blockers

/-- **Nothing is lost**: there is an order of the calls, each once, such that a read gave what the calls up to some
point of it make of the list, and when all calls have ended, no call failed, all are in it and the file shows what they
make of the list. -/
def Kept (init : List Json) (c : Config (system Y)) : Prop :=
  ∃ order : List (Nat × Change), (order.map Prod.fst).Nodup ∧
    (∀ p ∈ order, ∃ q, c.proc p.1 = some ⟨.change p.2, q⟩) ∧
    (∀ n blockers, c.Returned n .read blockers → ∃ earlier, earlier <+: order ∧ blockers = serial init earlier) ∧
    (c.Quiescent →
      (∀ n change q, c.proc n = some ⟨.change change, q⟩ → q = .ret () ∧ (n, change) ∈ order) ∧
        Shows Y c.world.state.file (serial init order))

/-- The call begins to change the file, or is done with it. -/
def truncates (e : Event (system Y)) (_ : Unit) : Prop := e.cmd = Cmd.truncate

def closes (e : Event (system Y)) (_ : Unit) : Prop := ∃ pending, e.cmd = Cmd.close pending

/-- Call `n` has truncated the file and not closed it. -/
def Dirty (n : Nat) (w : World (system Y)) : Prop := Open truncates closes n () w

/-- No call reads the file while another is dirty. -/
def Apart : Guard (system Y) := fun w n _ c => c = Cmd.read → ∀ e ∈ w.trace, e.call ≠ n → ¬ Dirty e.call w

section

variable (e : Event (system Y)) (n : Nat) (w : World (system Y))

instance (u : Unit) : Decidable (truncates e u) := inferInstanceAs (Decidable ((e.cmd : Cmd) = .truncate))

instance (u : Unit) : Decidable (closes e u) :=
  match h : (e.cmd : Cmd) with
  | .close pending => isTrue ⟨pending, h⟩
  | .isThere | .touch | .openFile | .flock | .read | .truncate | .unlock =>
    isFalse fun ⟨_, hc⟩ => by cases h.symm.trans hc

instance : Decidable (Dirty n w) := inferInstanceAs (Decidable (Held truncates closes () (mine n w)))

instance (o : Op) (c : Cmd) : Decidable (Apart w n o c) :=
  inferInstanceAs (Decidable (c = .read → ∀ e ∈ w.trace, e.call ≠ n → ¬ Dirty e.call w))

end

/-- A list of dictionaries of plain data. -/
def Plain (blockers : List Json) : Prop := ∀ v ∈ blockers, ∃ d : Dict, v = .obj d.1

/-! ## Lists -/

section

variable {blockers : List Json} {c : Change} {init : List Json}

theorem proper_setKey {d : List (String × Json)} {f : String × Json} (hd : ∀ m ∈ d, m.2.Proper) (hf : f.2.Proper) :
    ∀ m ∈ Json.setKey d f, m.2.Proper := by
  intro m hm
  unfold Json.setKey at hm
  split at hm
  · obtain ⟨g, hg, rfl⟩ := List.mem_map.mp hm
    split
    · exact hf
    · exact hd g hg
  · rcases List.mem_append.mp hm with hm | hm
    · exact hd m hm
    · rw [List.mem_singleton.mp hm]
      exact hf

theorem Blocker.toDict_plain (b : Blocker) : ∃ d : Dict, b.toDict = .obj d.1 := by
  refine ⟨⟨_, ?_⟩, rfl⟩
  intro m hm
  simp only [List.mem_cons, List.not_mem_nil, or_false] at hm
  rcases hm with rfl | rfl | rfl | rfl | rfl | rfl
  · exact .str _
  · exact .str _
  · exact .str _
  · exact .obj b.context.2
  · exact .obj b.resolution.2
  · exact .bool _

theorem resolveIn_plain {blocker_id : String} {resolution : Dict} : ∀ {blockers : List Json}, Plain blockers →
    ∃ l, resolveIn blocker_id resolution blockers = .ok l ∧ Plain l
  | [], h => ⟨[], rfl, h⟩
  | v :: rest, h => by
    obtain ⟨⟨d, hd⟩, rfl⟩ := h v List.mem_cons_self
    have hrest : Plain rest := fun v hv => h v (List.mem_cons_of_mem _ hv)
    unfold resolveIn
    split
    · have hnew := proper_setKey (f := ("resolved", .bool true))
        (proper_setKey (f := ("resolution", .obj resolution.1)) hd (.obj resolution.2)) (.bool true)
      exact ⟨_, rfl, List.forall_mem_cons.mpr ⟨⟨⟨_, hnew⟩, rfl⟩, hrest⟩⟩
    · obtain ⟨l, hl, hplain⟩ := resolveIn_plain hrest
      rw [hl]
      exact ⟨_, rfl, List.forall_mem_cons.mpr ⟨⟨⟨d, hd⟩, rfl⟩, hplain⟩⟩

/-- A call does not fail on dictionaries of plain data. -/
theorem run_plain (h : Plain blockers) : c.run blockers = .ok (c.effect blockers) ∧ Plain (c.effect blockers) := by
  have hrun : ∃ l, c.run blockers = .ok l ∧ Plain l := by
    cases c with
    | write b =>
      refine ⟨_, rfl, fun v hv => ?_⟩
      rcases List.mem_append.mp hv with hv | hv
      · exact h v hv
      · rw [List.mem_singleton.mp hv]
        exact b.toDict_plain
    | resolve blocker_id resolution => exact resolveIn_plain h
  obtain ⟨l, hl, hplain⟩ := hrun
  unfold Change.effect
  rw [hl]
  exact ⟨rfl, hplain⟩

theorem serial_append (order : List (Nat × Change)) (p : Nat × Change) :
    serial init (order ++ [p]) = p.2.effect (serial init order) := List.foldl_concat _ _ _ _

/-- What a call reports. -/
def Change.reported : Change → List Json
  | .write b => [b.toDict]
  | .resolve _ _ => []

/-- A blocker without its resolution. -/
def strip : Json → Json
  | .obj d => .obj (d.filter fun m => m.1 ≠ "resolution" ∧ m.1 ≠ "resolved")
  | v => v

theorem strip_setKey {f : String × Json} (hf : f.1 = "resolution" ∨ f.1 = "resolved") (d : List (String × Json)) :
    strip (.obj (Json.setKey d f)) = strip (.obj d) := by
  have hdrop : ¬ (f.1 ≠ "resolution" ∧ f.1 ≠ "resolved") := fun h => hf.elim h.1 h.2
  unfold strip Json.setKey
  refine congrArg Json.obj ?_
  split
  · -- the fields that are replaced are dropped on both sides
    clear * - hdrop
    induction d with
    | nil => rfl
    | cons m d ih =>
      rw [List.map_cons, List.filter_cons, List.filter_cons, ih]
      by_cases hm : m.1 = f.1
      · rw [if_pos hm, if_neg (by simpa using hdrop), if_neg (by simpa [hm] using hdrop)]
      · rw [if_neg hm]
  · rw [List.filter_append, List.filter_singleton]
    simp [hdrop]

theorem resolveIn_strip {blocker_id : String} {resolution : Dict} : ∀ {blockers l : List Json},
    resolveIn blocker_id resolution blockers = .ok l → l.map strip = blockers.map strip
  | [], l, h => by
    cases h
    rfl
  | v :: rest, l, h => by
    cases v with
    | obj blocker =>
      unfold resolveIn at h
      split at h
      · cases h
        rw [List.map_cons, List.map_cons, strip_setKey (.inr rfl), strip_setKey (.inl rfl)]
      · cases hl : resolveIn blocker_id resolution rest with
        | error e =>
          rw [hl] at h
          cases h
        | ok l' =>
          rw [hl] at h
          cases h
          rw [List.map_cons, List.map_cons, resolveIn_strip hl]
    | _ => cases h

theorem strip_effect (blockers : List Json) :
    (c.effect blockers).map strip = blockers.map strip ++ c.reported.map strip := by
  cases c with
  | write b => exact List.map_append
  | resolve blocker_id resolution =>
    rw [Change.reported, List.map_nil, List.append_nil]
    rw [Change.effect, Change.run]
    cases h : resolveIn blocker_id resolution blockers with
    | error e => rfl
    | ok l => exact resolveIn_strip h

/-- **Every reported blocker is there once**, whatever is resolved. -/
theorem strip_serial (init : List Json) (order : List (Nat × Change)) :
    (serial init order).map strip = init.map strip ++ (order.flatMap fun p => p.2.reported).map strip := by
  induction order using List.reverseRecOn with
  | nil => exact (List.append_nil _).symm
  | append_singleton order p ih =>
    rw [serial_append, strip_effect, ih, List.flatMap_append, List.map_append, List.append_assoc]
    simp

theorem length_serial (init : List Json) (order : List (Nat × Change)) :
    (serial init order).length = init.length + (order.flatMap fun p => p.2.reported).length := by
  have h := congrArg List.length (strip_serial init order)
  rwa [List.length_map, List.length_append, List.length_map, List.length_map] at h

end

end ClaudeSwarm.Collaborative
