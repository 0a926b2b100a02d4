import ClaudeSwarm.Data.Json
import ClaudeSwarm.Data.Table
import ClaudeSwarm.Interleave.Outline
import Mathlib.Data.Fintype.Basic

/-!
# The shared task tree

What `src/swarm_lib.py` uses of the file system below `tasks/`: the four stage directories with the
task files in them, the `.tmp` file each atomic write goes through, and the `.lock` files. Every test,
read, write, rename and removal of a file is one command.

A lock file is a name for an inode. `touch` and `open` give a free name a new inode; `flock` locks the
inode that was opened, and blocks while another call has it locked; `unlink` frees the name and leaves
the inode to those who have it open. A call has one lock file open at a time and locks it once.

* `filesEffect_of_exec`: what a command does to the task files.
-/

namespace ClaudeSwarm.SwarmLib

open Interleave Data
open Python (PyError)

/-- A stage directory. -/
inductive Stage where
  | pending
  | claimed
  | completed
  | decomposed
  deriving DecidableEq

instance : Fintype Stage :=
  ⟨{.pending, .claimed, .completed, .decomposed}, fun st => by cases st <;> decide⟩

/-- The name of the directory. -/
def Stage.str : Stage → String
  | pending => "pending"
  | claimed => "claimed"
  | completed => "completed"
  | decomposed => "decomposed"

/-- The dictionary in a task file. -/
abbrev Doc := List (String × Json)

/-- Task files, or their `.tmp` files: one for each id. -/
abbrev Dir := Table (Prod.fst : String × Doc → String)

/-- What a call that opened a lock file is doing. -/
inductive Phase where
  | waiting
  | locked
  | released
  deriving DecidableEq

/-- A lock file that call `call` has open. -/
structure Fd where
  call : Nat
  stage : Stage
  id : String
  inode : Nat
  phase : Phase

/-- The tree, and the lock files that are open. -/
structure Tree where
  files : Stage → Dir
  tmps : Stage → Dir
  locks : Stage → String → Option Nat
  nextInode : Nat
  fds : Table Fd.call

/-- A tree in which nothing is locked or half written. -/
def Tree.ofFiles (files : Stage → Dir) : Tree :=
  ⟨files, fun _ => .empty, fun _ _ => none, 0, .empty⟩

/-- What a command reads from outside: the host's name, the clock and the hosts found dead. -/
structure Env where
  host : String
  iso : String
  stale : List String

/-- A command. -/
inductive Cmd where
  | host
  | iso
  | stale
  | pathExists (stage : Stage) (id : String)
  | glob (stage : Stage)
  | read (stage : Stage) (id : String)
  | writeTmp (stage : Stage) (id : String) (data : Doc)
  | rename (stage : Stage) (id : String)
  | remove (stage : Stage) (id : String)
  | touch (stage : Stage) (id : String)
  | openLock (stage : Stage) (id : String)
  | flock
  | unlock
  | close
  | unlink (stage : Stage) (id : String)

/-- The answer of each command; `none` and `false` are `FileNotFoundError`. -/
abbrev Resp : Cmd → Type
  | .host | .iso => String
  | .stale | .glob _ => List String
  | .pathExists _ _ | .rename _ _ | .remove _ _ => Bool
  | .read _ _ => Option Doc
  | _ => Unit

abbrev sig : Sig := ⟨Cmd, Resp⟩

namespace Tree

/-- The task's file is in `stage/`. -/
def File (s : Tree) (stage : Stage) (id : String) : Prop := ((s.files stage).find? id).isSome

instance (s : Tree) (stage : Stage) (id : String) : Decidable (s.File stage id) := by
  unfold File
  infer_instance

/-- Some call has the inode locked. -/
def Locked (s : Tree) (inode : Nat) : Prop := ∃ fd ∈ s.fds.rows, fd.inode = inode ∧ fd.phase = .locked

instance (s : Tree) (inode : Nat) : Decidable (s.Locked inode) := by
  unfold Locked
  infer_instance

/-- The name of a lock file is given to `inode`, or freed. -/
def name (s : Tree) (stage : Stage) (id : String) (inode : Option Nat) : Tree :=
  { s with locks := Function.update s.locks stage (Function.update (s.locks stage) id inode) }

@[simp] theorem name_self (s : Tree) (stage : Stage) (id : String) (inode : Option Nat) :
    (s.name stage id inode).locks stage id = inode := by
  simp [name]

theorem name_of_ne {s : Tree} {stage stage' : Stage} {id id' : String} {inode : Option Nat}
    (h : ¬ (stage' = stage ∧ id' = id)) :
    (s.name stage id inode).locks stage' id' = s.locks stage' id' := by
  by_cases hst : stage' = stage
  · subst hst
    simp [name, Function.update_of_ne fun hid => h ⟨rfl, hid⟩]
  · simp [name, Function.update_of_ne hst]

/-- `Path.touch(exist_ok=True)` on a lock file. -/
def touch (s : Tree) (stage : Stage) (id : String) : Tree :=
  if (s.locks stage id).isSome then s
  else { s.name stage id (some s.nextInode) with nextInode := s.nextInode + 1 }

/-- Call `n` opens a lock file for writing. -/
def openLock (s : Tree) (n : Nat) (stage : Stage) (id : String) : Tree :=
  let s := s.touch stage id
  { s with fds := s.fds.put ⟨n, stage, id, (s.locks stage id).getD s.nextInode, .waiting⟩ }

/-- The lock file call `n` has open is in phase `phase`. -/
def setPhase (s : Tree) (n : Nat) (phase : Phase) : Tree :=
  { s with fds := s.fds.update (fun fd => fd.call == n) (fun fd => { fd with phase }) fun _ => rfl }

end Tree

/-- Execute a command for call `n`. -/
def exec (n : Nat) (i : Env) (s : Tree) : (c : Cmd) → Option (Resp c × Tree)
  | .host => some (i.host, s)
  | .iso => some (i.iso, s)
  | .stale => some (i.stale, s)
  | .pathExists stage id => some (decide (s.File stage id), s)
  | .glob stage => some (((s.files stage).rows.map Prod.fst).filter (·.startsWith "task-"), s)
  | .read stage id => some (((s.files stage).find? id).map Prod.snd, s)
  | .writeTmp stage id data =>
    some ((), { s with tmps := Function.update s.tmps stage ((s.tmps stage).put (id, data)) })
  | .rename stage id =>
    match (s.tmps stage).find? id with
    | some tmp =>
      some (true,
        { s with
          files := Function.update s.files stage ((s.files stage).put tmp)
          tmps := Function.update s.tmps stage ((s.tmps stage).erase id) })
    | none => some (false, s)
  | .remove stage id =>
    if s.File stage id then
      some (true, { s with files := Function.update s.files stage ((s.files stage).erase id) })
    else some (false, s)
  | .touch stage id => some ((), s.touch stage id)
  | .openLock stage id => some ((), s.openLock n stage id)
  | .flock =>
    match s.fds.find? n with
    | some fd => if fd.phase = .waiting ∧ ¬ s.Locked fd.inode then some ((), s.setPhase n .locked) else none
    | none => none
  | .unlock => some ((), s.setPhase n .released)
  | .close => some ((), { s with fds := s.fds.erase n })
  | .unlink stage id => some ((), s.name stage id none)

/-- The tree as a store. -/
abbrev store : Store sig := ⟨Tree, Env, exec⟩

abbrev P (α : Type) := Prog sig PyError α

/-- Issue one command. -/
def cmd (c : Cmd) : P (Resp c) := @Prog.cmd sig PyError c

theorem each_cmd {α : Type} {ok : Cmd → Prop} {c : Cmd} {f : Resp c → P α} (hc : ok c)
    (hf : ∀ x, (f x).Each ok) : (cmd c >>= f).Each ok := ⟨hc, hf⟩

/-! ## What a command does -/

/-- The command moves no task file. -/
def Cmd.IsStill : Cmd → Prop
  | .rename _ _ | .remove _ _ => False
  | _ => True

/-- What a command does to the task files. -/
inductive FilesEffect (s : Tree) : (c : Cmd) → Resp c → Tree → Prop
  | still {c : Cmd} {x : Resp c} {s' : Tree} (hc : c.IsStill) (hf : s'.files = s.files) :
      FilesEffect s c x s'
  | renamed {stage : Stage} {id : String} {tmp : String × Doc} {s' : Tree} (hid : tmp.1 = id)
      (hf : s'.files = Function.update s.files stage ((s.files stage).put tmp)) :
      FilesEffect s (.rename stage id) true s'
  | removed {stage : Stage} {id : String} {s' : Tree} (h : s.File stage id)
      (hf : s'.files = Function.update s.files stage ((s.files stage).erase id)) :
      FilesEffect s (.remove stage id) true s'
  | notRenamed {stage : Stage} {id : String} : FilesEffect s (.rename stage id) false s
  | notRemoved {stage : Stage} {id : String} (h : ¬ s.File stage id) :
      FilesEffect s (.remove stage id) false s

theorem files_touch (s : Tree) (stage : Stage) (id : String) : (s.touch stage id).files = s.files := by
  unfold Tree.touch
  split <;> rfl

theorem filesEffect_of_exec {n : Nat} {i : Env} {s s' : Tree} {c : Cmd} {x : Resp c}
    (h : exec n i s c = some (x, s')) : FilesEffect s c x s' := by
  cases c with
  | rename stage id =>
    simp only [exec] at h
    split at h
    · rename_i tmp htmp
      cases h
      exact .renamed (Table.find?_key htmp) rfl
    · cases h
      exact .notRenamed
  | remove stage id =>
    simp only [exec] at h
    split at h
    · rename_i hfile
      cases h
      exact .removed hfile rfl
    · rename_i hfile
      cases h
      exact .notRemoved hfile
  | flock =>
    simp only [exec] at h
    split at h
    · split at h
      · cases h
        exact .still trivial rfl
      · cases h
    · cases h
  | touch stage id =>
    cases h
    exact .still trivial (files_touch s stage id)
  | openLock stage id =>
    cases h
    exact .still trivial (files_touch s stage id)
  | _ =>
    cases h
    exact .still trivial rfl

end ClaudeSwarm.SwarmLib
