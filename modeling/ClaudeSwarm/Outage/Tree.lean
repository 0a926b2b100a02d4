import ClaudeSwarm.SwarmLib.Stage

/-!
# The task tree on a share that fails

The tree of `SwarmLib` on a network share, and each host's own fallback tree, `~/.swarm-tasks`. While
the share is unhealthy, any write or removal on it may raise an `OSError` and leave it as it was. Which
ones would is part of the state (`Health`), and the weather changes that at any point; reading and
locking never fail.

* `file_of_exec`: what an executed command does to the task files, wherever they are.
-/

namespace ClaudeSwarm.Outage

open Interleave
open Python (PyError)
open SwarmLib (Stage Tree Env)

/-- The share, or the fallback directories of a host. -/
inductive Root where
  | share
  | home (host : String)
  deriving DecidableEq

/-- A directory of task files. -/
structure Place where
  root : Root
  stage : Stage
  deriving DecidableEq

/-- Whether the share is healthy, and what raises an `OSError` on it while it is not. -/
structure Health where
  up : Bool
  raises : SwarmLib.Cmd → Bool

/-- The trees, and the health of the share. -/
structure State where
  trees : Root → Tree
  health : Health

/-- A command. -/
inductive Cmd where
  | on (root : Root) (c : SwarmLib.Cmd)
  | homeGlob (host : String) (stage : Stage)
  | healthy
  | weather (h : Health)

/-- The answer of each command; `none` is an `OSError` of the share. -/
abbrev Resp : Cmd → Type
  | .on _ c => Option (SwarmLib.Resp c)
  | .homeGlob _ _ => List String
  | .healthy => Bool
  | .weather _ => Unit

abbrev sig : Sig := ⟨Cmd, Resp⟩

/-- The command writes or removes something. -/
def changes : SwarmLib.Cmd → Bool
  | .writeTmp .. | .rename .. | .remove .. | .touch .. | .openLock .. | .unlink .. => true
  | _ => false

namespace State

/-- The command raises an `OSError`. -/
def Fails (s : State) (root : Root) (c : SwarmLib.Cmd) : Prop :=
  root = .share ∧ s.health.up = false ∧ changes c = true ∧ s.health.raises c = true

instance (s : State) (root : Root) (c : SwarmLib.Cmd) : Decidable (s.Fails root c) := by
  unfold Fails
  infer_instance

/-- The command raises an `OSError`, wherever it is executed. -/
def Raises (s : State) : Cmd → Prop
  | .on root c => s.Fails root c
  | _ => False

instance (s : State) : (c : Cmd) → Decidable (s.Raises c)
  | .on root c => inferInstanceAs (Decidable (s.Fails root c))
  | .homeGlob _ _ | .healthy | .weather _ => isFalse id

/-- The task's file is in the directory. -/
def File (s : State) (p : Place) (id : String) : Prop := (s.trees p.root).File p.stage id

instance (s : State) (p : Place) (id : String) : Decidable (s.File p id) := by
  unfold File
  infer_instance

end State

/-- Execute a command for call `n`. -/
def exec (n : Nat) (i : Env) (s : State) : (c : Cmd) → Option (Resp c × State)
  | .on root c =>
    if s.Fails root c then some (none, s)
    else (SwarmLib.exec n i (s.trees root) c).map fun r =>
      (some r.1, { s with trees := Function.update s.trees root r.2 })
  | .homeGlob host stage => some ((((s.trees (.home host)).files stage).rows.map Prod.fst), s)
  | .healthy => some (s.health.up, s)
  | .weather h => some ((), { s with health := h })

/-- The trees as a store. -/
abbrev store : Store sig := ⟨State, Env, exec⟩

abbrev P (α : Type) := Prog sig PyError α

/-- Issue one command. -/
def cmd (c : Cmd) : P (Resp c) := @Prog.cmd sig PyError c

/-! ## What a command does to the task files -/

/-- The file the command puts in, if it succeeds. -/
def Cmd.puts : Cmd → Option (Place × String)
  | .on root (.rename stage id) => some (⟨root, stage⟩, id)
  | _ => none

/-- The file the command takes out, if it succeeds. -/
def Cmd.takes : Cmd → Option (Place × String)
  | .on root (.remove stage id) => some (⟨root, stage⟩, id)
  | _ => none

/-- The file the command reads. -/
def Cmd.reads : Cmd → Option (Place × String)
  | .on root (.read stage id) => some (⟨root, stage⟩, id)
  | _ => none

/-- A command that puts a file in does nothing else. -/
theorem Cmd.of_puts {c : Cmd} {q : Place × String} (h : c.puts = some q) :
    c.takes = none ∧ c.reads = none := by
  cases c with
  | on root c => cases c <;> first | exact ⟨rfl, rfl⟩ | cases h
  | _ => cases h

/-- A command that takes a file out does nothing else. -/
theorem Cmd.of_takes {c : Cmd} {q : Place × String} (h : c.takes = some q) :
    c.puts = none ∧ c.reads = none := by
  cases c with
  | on root c => cases c <;> first | exact ⟨rfl, rfl⟩ | cases h
  | _ => cases h

/-- The command succeeded: a rename or a removal found its file. -/
def succeeded : (c : Cmd) → Resp c → Bool
  | .on _ (.rename _ _), x => x = some true
  | .on _ (.remove _ _), x => x = some true
  | _, _ => true

/-- Put the tree of a root in, and look a file up. -/
theorem file_update {s : State} {root : Root} {t : Tree} {p : Place} {id : String} :
    ({ s with trees := Function.update s.trees root t } : State).File p id ↔
      if p.root = root then t.File p.stage id else s.File p id := by
  unfold State.File
  by_cases h : p.root = root
  · simp [h]
  · simp [h]

/-- The files of a tree after a command on it. -/
theorem tree_file_of_exec {n : Nat} {i : Env} {t t' : Tree} {c : SwarmLib.Cmd} {x : SwarmLib.Resp c}
    (h : SwarmLib.exec n i t c = some (x, t')) (root : Root) (st : Stage) (id : String) :
    t'.File st id ↔
      (Cmd.puts (.on root c) = some (⟨root, st⟩, id) ∧ succeeded (.on root c) (some x) = true) ∨
      (t.File st id ∧ ¬ (Cmd.takes (.on root c) = some (⟨root, st⟩, id) ∧
        succeeded (.on root c) (some x) = true)) := by
  cases SwarmLib.filesEffect_of_exec h with
  | still hstill hfiles =>
    have hsame : t'.File st id ↔ t.File st id := by rw [Tree.File, Tree.File, hfiles]
    cases c <;> first | exact hstill.elim | simpa [Cmd.puts, Cmd.takes] using hsame
  | @renamed stage id' tmp _ hid hfiles =>
    rw [SwarmLib.file_put hfiles, hid]
    simp [Cmd.puts, Cmd.takes, succeeded, eq_comm]
  | @removed stage id' _ _ hfiles =>
    rw [SwarmLib.file_erase hfiles]
    simp [Cmd.puts, Cmd.takes, succeeded, eq_comm]
  | notRenamed => simp [Cmd.puts, Cmd.takes, succeeded]
  | notRemoved => simp [Cmd.puts, Cmd.takes, succeeded]

/-- A command moves files where it is executed. -/
theorem root_of_moved {root : Root} {c : SwarmLib.Cmd} {p : Place} {id : String}
    (h : Cmd.puts (.on root c) = some (p, id) ∨ Cmd.takes (.on root c) = some (p, id)) :
    p.root = root := by
  cases c with
  | rename stage id' =>
    simp only [Cmd.puts, Cmd.takes, Option.some.injEq, Prod.mk.injEq, reduceCtorEq, or_false] at h
    exact h.1 ▸ rfl
  | remove stage id' =>
    simp only [Cmd.puts, Cmd.takes, Option.some.injEq, Prod.mk.injEq, reduceCtorEq, false_or] at h
    exact h.1 ▸ rfl
  | _ => exact (h.elim (fun h => Option.some_ne_none _ h.symm) fun h => Option.some_ne_none _ h.symm).elim

/-- A command that raised did nothing. -/
theorem not_succeeded_of_raised {root : Root} {c : SwarmLib.Cmd} {p : Place × String}
    (h : Cmd.puts (.on root c) = some p ∨ Cmd.takes (.on root c) = some p) :
    succeeded (.on root c) none = false := by
  cases c <;> simp_all [Cmd.puts, Cmd.takes, succeeded]

/-- **The files after a command.** -/
theorem file_of_exec {n : Nat} {i : Env} {s s' : State} {c : Cmd} {x : Resp c}
    (h : exec n i s c = some (x, s')) (p : Place) (id : String) :
    s'.File p id ↔ (c.puts = some (p, id) ∧ succeeded c x = true) ∨
      (s.File p id ∧ ¬ (c.takes = some (p, id) ∧ succeeded c x = true)) := by
  cases c with
  | on root c =>
    simp only [exec] at h
    split at h
    · cases h
      have hputs : ¬ (Cmd.puts (.on root c) = some (p, id) ∧ succeeded (.on root c) none = true) :=
        fun ⟨hp, hx⟩ => Bool.false_ne_true ((not_succeeded_of_raised (Or.inl hp)).symm.trans hx)
      have htakes : ¬ (Cmd.takes (.on root c) = some (p, id) ∧ succeeded (.on root c) none = true) :=
        fun ⟨hp, hx⟩ => Bool.false_ne_true ((not_succeeded_of_raised (Or.inr hp)).symm.trans hx)
      simp only [hputs, htakes, false_or, not_false_eq_true, and_true]
    · obtain ⟨⟨y, t⟩, hy, he⟩ := Option.map_eq_some_iff.mp h
      cases he
      rw [file_update]
      obtain ⟨r, st⟩ := p
      split
      · rename_i hr
        simp only at hr
        subst hr
        exact tree_file_of_exec hy r st id
      · rename_i hr
        have hputs : Cmd.puts (.on root c) ≠ some (⟨r, st⟩, id) :=
          fun he => hr (root_of_moved (Or.inl he))
        have htakes : Cmd.takes (.on root c) ≠ some (⟨r, st⟩, id) :=
          fun he => hr (root_of_moved (Or.inr he))
        simp only [hputs, htakes, false_and, false_or, not_false_eq_true, and_true]
  | _ =>
    cases h
    simp only [Cmd.puts, Cmd.takes, reduceCtorEq, false_and, false_or, not_false_eq_true, and_true,
      State.File]

/-- Only a command that changes something raises. -/
theorem changes_of_raised {n : Nat} {i : Env} {s s' : State} {root : Root} {c : SwarmLib.Cmd}
    (h : exec n i s (.on root c) = some (none, s')) : s.Fails root c ∧ s' = s := by
  simp only [exec] at h
  split at h
  · rename_i hfails
    cases h
    exact ⟨hfails, rfl⟩
  · obtain ⟨y, -, he⟩ := Option.map_eq_some_iff.mp h
    cases he

/-- A test tells whether the file is there. -/
theorem exec_exists {n : Nat} {i : Env} {s s' : State} {root : Root} {st : Stage} {id : String}
    {x : Bool} (h : exec n i s (.on root (.pathExists st id)) = some (some x, s')) :
    x = decide (s.File ⟨root, st⟩ id) := by
  simp only [exec] at h
  split at h
  · cases h
  · obtain ⟨y, hy, he⟩ := Option.map_eq_some_iff.mp h
    cases hy
    cases he
    rfl

/-- A removal that does not raise finds its file, or tells that it is not there. -/
theorem exec_remove {n : Nat} {i : Env} {s s' : State} {root : Root} {st : Stage} {id : String}
    {x : Option Bool} (h : exec n i s (.on root (.remove st id)) = some (x, s')) :
    s.Fails root (.remove st id) ∧ x = none ∨ x = some (decide (s.File ⟨root, st⟩ id)) := by
  simp only [exec] at h
  split at h
  · rename_i hfails
    cases h
    exact Or.inl ⟨hfails, rfl⟩
  · obtain ⟨⟨y, t⟩, hy, he⟩ := Option.map_eq_some_iff.mp h
    cases he
    right
    cases SwarmLib.filesEffect_of_exec hy with
    | still hstill => exact hstill.elim
    | removed hfile => exact congrArg some (decide_eq_true hfile).symm
    | notRemoved hfile => exact congrArg some (decide_eq_false hfile).symm

/-- What was taken out was there. -/
theorem file_of_takes {n : Nat} {i : Env} {s s' : State} {c : Cmd} {x : Resp c} {p : Place}
    {id : String} (h : exec n i s c = some (x, s')) (ht : c.takes = some (p, id))
    (hx : succeeded c x = true) : s.File p id := by
  cases c with
  | on root c =>
    cases c with
    | remove st id' =>
      cases ht
      rcases exec_remove h with ⟨-, rfl⟩ | rfl
      · cases hx
      · simpa [succeeded] using hx
    | _ => cases ht
  | _ => cases ht

end ClaudeSwarm.Outage
