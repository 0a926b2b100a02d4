import ClaudeSwarm.SwarmLib.Tasks

/-!
# The pending lock

Whoever is done with a lock file unlinks it. A call that had it open by then goes on waiting for, or
holding, an inode without a name, and the next call to `touch` the name makes another: the two no
longer exclude each other (`unlink_splits_lock`).

* `Locks`: everyone who waits for a lock or holds it has the file open that bears the name, and an
  inode has one holder. Every command keeps it when a lock file is unlinked only after all who had it
  open have released it (`Unused`).
* **`critical_exclusive`**: in every such run a critical section has at most one call inside.
-/

namespace ClaudeSwarm.SwarmLib

open Interleave Data

/-- Call `n` is between `flock` and the release of the lock of task `id`. -/
def Inside (s : Tree) (stage : Stage) (id : String) (n : Nat) : Prop :=
  ∃ fd ∈ s.fds.rows, fd.call = n ∧ fd.stage = stage ∧ fd.id = id ∧ fd.phase = .locked

instance (s : Tree) (stage : Stage) (id : String) (n : Nat) : Decidable (Inside s stage id n) := by
  unfold Inside
  infer_instance

/-- A lock file that is unlinked has been released by everyone who has it open. -/
def Unused : Guard system := fun w _ _ c =>
  match c with
  | .unlink stage id =>
    ∀ fd ∈ w.state.fds.rows, fd.stage = stage → fd.id = id → fd.phase = .released
  | _ => True

instance (w : World system) (n : Nat) (o : Op) (c : Cmd) : Decidable (Unused w n o c) := by
  unfold Unused
  split <;> infer_instance

/-- The lock files in use are the ones that bear the names, and an inode has one holder. -/
structure Locks (s : Tree) : Prop where
  current : ∀ fd ∈ s.fds.rows, fd.phase ≠ .released → s.locks fd.stage fd.id = some fd.inode
  single : ∀ fd ∈ s.fds.rows, ∀ fd' ∈ s.fds.rows, fd.phase = .locked → fd'.phase = .locked →
    fd.inode = fd'.inode → fd.call = fd'.call

theorem Locks.inside {s : Tree} (h : Locks s) {stage : Stage} {id : String} {n m : Nat}
    (hn : Inside s stage id n) (hm : Inside s stage id m) : n = m := by
  obtain ⟨fd, hfd, rfl, rfl, rfl, hp⟩ := hn
  obtain ⟨fd', hfd', rfl, hst, hid, hp'⟩ := hm
  have hi := h.current fd hfd (by simp [hp])
  have hi' := h.current fd' hfd' (by simp [hp'])
  rw [hst, hid, hi] at hi'
  exact h.single fd hfd fd' hfd' hp hp' (Option.some.inj hi')

/-! ## The commands -/

/-- Only the open lock files and the names matter. -/
theorem Locks.congr {s s' : Tree} (h : Locks s) (hfds : s'.fds = s.fds) (hlocks : s'.locks = s.locks) :
    Locks s' := by
  obtain ⟨hc, hs⟩ := h
  constructor
  · rwa [hfds, hlocks]
  · rwa [hfds]

/-- A name that no lock in use bears is given away. -/
theorem Locks.name {s : Tree} (h : Locks s) {stage : Stage} {id : String} {inode : Option Nat}
    (hfree : ∀ fd ∈ s.fds.rows, fd.stage = stage → fd.id = id → fd.phase = .released) :
    Locks (s.name stage id inode) := by
  refine ⟨fun fd hfd hp => ?_, h.single⟩
  rw [Tree.name_of_ne fun hne => hp (hfree fd hfd hne.1 hne.2)]
  exact h.current fd hfd hp

theorem Locks.touch {s : Tree} (h : Locks s) (stage : Stage) (id : String) :
    Locks (s.touch stage id) := by
  unfold Tree.touch
  split
  · exact h
  · rename_i hnone
    have hfree : ∀ fd ∈ s.fds.rows, fd.stage = stage → fd.id = id → fd.phase = .released := by
      intro fd hfd hst hid
      by_contra hp
      rw [← hst, ← hid, h.current fd hfd hp] at hnone
      exact hnone rfl
    exact (h.name hfree).congr rfl rfl

theorem touch_isSome (s : Tree) (stage : Stage) (id : String) :
    ((s.touch stage id).locks stage id).isSome := by
  unfold Tree.touch
  split
  · assumption
  · simp

/-- Opening the file that bears the name. -/
theorem Locks.openLock {s : Tree} (h : Locks s) (n : Nat) (stage : Stage) (id : String) :
    Locks (s.openLock n stage id) := by
  have ht := h.touch stage id
  obtain ⟨i, hi⟩ := Option.isSome_iff_exists.mp (touch_isSome s stage id)
  unfold Tree.openLock
  simp only [hi, Option.getD_some]
  refine ⟨fun fd hfd hp => ?_, fun fd hfd fd' hfd' hp hp' => ?_⟩
  · rcases Table.mem_put.mp hfd with hfd | rfl
    · exact ht.current fd hfd.1 hp
    · exact hi
  · rcases Table.mem_put.mp hfd with hfd | rfl <;> rcases Table.mem_put.mp hfd' with hfd' | rfl
    · exact ht.single fd hfd.1 fd' hfd'.1 hp hp'
    · cases hp'
    · cases hp
    · exact fun _ => rfl

/-- A lock file after call `n` went on with the one it has open. -/
theorem mem_setPhase {s : Tree} {n : Nat} {phase : Phase} {fd : Fd}
    (h : fd ∈ (s.setPhase n phase).fds.rows) :
    fd ∈ s.fds.rows ∧ fd.call ≠ n ∨ ∃ old, s.fds.find? n = some old ∧ fd = { old with phase } := by
  obtain ⟨old, hold, rfl⟩ := List.mem_map.mp h
  by_cases hn : old.call = n
  · subst hn
    exact Or.inr ⟨old, Table.find?_of_mem hold, by simp⟩
  · exact Or.inl (by simp [hn, hold])

/-- The lock is granted. -/
theorem Locks.flock {s : Tree} (h : Locks s) {n : Nat} {fd : Fd} (hfd : s.fds.find? n = some fd)
    (hp : fd.phase = .waiting) (hfree : ¬ s.Locked fd.inode) : Locks (s.setPhase n .locked) := by
  refine ⟨fun r hr hne => ?_, fun r hr r' hr' hl hl' hi => ?_⟩
  · rcases mem_setPhase hr with hr | ⟨old, hold, rfl⟩
    · exact h.current r hr.1 hne
    · cases hfd.symm.trans hold
      exact h.current fd (Table.find?_mem hfd) (by simp [hp])
  · -- whoever else held the inode would have blocked it
    rcases mem_setPhase hr with hr | ⟨old, hold, rfl⟩ <;>
      rcases mem_setPhase hr' with hr' | ⟨old', hold', rfl⟩
    · exact h.single r hr.1 r' hr'.1 hl hl' hi
    · cases hfd.symm.trans hold'
      exact absurd ⟨r, hr.1, hi, hl⟩ hfree
    · cases hfd.symm.trans hold
      exact absurd ⟨r', hr'.1, hi.symm, hl'⟩ hfree
    · cases hold.symm.trans hold'
      rfl

/-- The lock is given back. -/
theorem Locks.unlock {s : Tree} (h : Locks s) (n : Nat) : Locks (s.setPhase n .released) := by
  refine ⟨fun r hr hne => ?_, fun r hr r' hr' hl hl' => ?_⟩
  · rcases mem_setPhase hr with hr | ⟨old, -, rfl⟩
    · exact h.current r hr.1 hne
    · exact absurd rfl hne
  · rcases mem_setPhase hr with hr | ⟨old, -, rfl⟩
    · rcases mem_setPhase hr' with hr' | ⟨old', -, rfl⟩
      · exact h.single r hr.1 r' hr'.1 hl hl'
      · cases hl'
    · cases hl

theorem Locks.close {s : Tree} (h : Locks s) (n : Nat) :
    Locks { s with fds := s.fds.erase n } :=
  ⟨fun fd hfd => h.current fd (Table.mem_erase.mp hfd).1,
    fun fd hfd fd' hfd' => h.single fd (Table.mem_erase.mp hfd).1 fd' (Table.mem_erase.mp hfd').1⟩

theorem locks_preserved : Preserved Unused fun w => Locks w.state := by
  rintro w ⟨n, o, c, x⟩ ⟨s', tr⟩ h hg ⟨⟨i, hx⟩, -⟩
  simp only at hx hg
  show Locks s'
  cases c with
  | touch stage id =>
    cases hx
    exact h.touch stage id
  | openLock stage id =>
    cases hx
    exact h.openLock n stage id
  | flock =>
    simp only [exec] at hx
    split at hx
    · rename_i fd hfd
      split at hx
      · rename_i hc
        cases hx
        exact h.flock hfd hc.1 hc.2
      · cases hx
    · cases hx
  | unlock =>
    cases hx
    exact h.unlock n
  | close =>
    cases hx
    exact h.close n
  | unlink stage id =>
    cases hx
    exact h.name hg
  | rename stage id =>
    simp only [exec] at hx
    split at hx <;> cases hx
    · exact h.congr rfl rfl
    · exact h
  | remove stage id =>
    simp only [exec] at hx
    split at hx <;> cases hx
    · exact h.congr rfl rfl
    · exact h
  | writeTmp =>
    cases hx
    exact h.congr rfl rfl
  | _ =>
    cases hx
    exact h

/-- **Mutual exclusion** in every run in which a lock file that is unlinked has been released by all
who have it open: at most one call is inside the critical section of a task. -/
theorem critical_exclusive {s : Tree} {c : Config system} (hs : s.fds = .empty)
    (h : Run Unused (.init s) c) :
    ∀ stage id n m, Inside c.world.state stage id n → Inside c.world.state stage id m → n = m := by
  have hinit : Locks s := by
    constructor <;> simp [hs, Table.empty]
  have hlocks : Locks c.world.state :=
    run_inv (I := fun w : World system => Locks w.state) locks_preserved hinit h
  exact fun _ _ _ _ hn hm => hlocks.inside hn hm

/-! ## A lock that splits -/

/-- One pending task. -/
def onePending : Tree :=
  .ofFiles (Function.update (fun _ => .empty) .pending
    (Table.empty.put ("task-001", [("id", .str "task-001")])))

/-- A host, at the epoch. -/
def host (name : String) : Env := ⟨name, "1970-01-01T00:00:00Z", []⟩

/-- `c` sees the task, `a` locks it, `b` waits for the lock, `a` claims the task and unlinks the lock
file, `b` gets the lock, `c` gets another. -/
def waitAndUnlink : List (Act system) :=
  solo system 2 (.claim "task-001") 1 (host "c") ++ solo system 0 (.claim "task-001") 4 (host "a") ++
    solo system 1 (.claim "task-001") 3 (host "b") ++
    List.replicate 10 (.step 0 (host "a")) ++ [.step 1 (host "b")] ++
    List.replicate 3 (.step 2 (host "c"))

/-- Two calls are inside the critical section of one task. -/
theorem unlink_splits_lock : ∃ c : Config system, Run Free (.init onePending) c ∧
    ∃ n m, n ≠ m ∧ Inside c.world.state .pending "task-001" n ∧
      Inside c.world.state .pending "task-001" m := by
  have hplay : (play Free (.init onePending) waitAndUnlink).any (fun c =>
      decide (Inside c.world.state .pending "task-001" 1 ∧
        Inside c.world.state .pending "task-001" 2)) = true := by
    decide +kernel
  obtain ⟨c, hrun, hc⟩ := exists_run_of_play hplay
  exact ⟨c, hrun, 1, 2, by decide, of_decide_eq_true hc⟩

/-- `a` is about to claim the task, `b` waits for it. -/
def lockAndWait : List (Act system) :=
  solo system 0 (.claim "task-001") 4 (host "a") ++ solo system 1 (.claim "task-001") 3 (host "b")

theorem lockAndWait_plays : (play Unused (.init onePending) lockAndWait).isSome := by
  decide +kernel

theorem critical_exclusive_lockAndWait :
    Inside (played Unused _ _ lockAndWait_plays).world.state .pending "task-001" 0 ∧
      ¬ Inside (played Unused _ _ lockAndWait_plays).world.state .pending "task-001" 1 := by
  have ha : Inside (played Unused _ _ lockAndWait_plays).world.state .pending "task-001" 0 := by
    decide +kernel
  exact ⟨ha, fun hb => absurd
    (critical_exclusive rfl (run_played lockAndWait_plays) _ _ _ _ ha hb) (by decide)⟩

end ClaudeSwarm.SwarmLib
