import Mathlib.Tactic.Common

/-!
# A database with one writer

What is committed, and the open write transaction if there is one: which connection has it and what
it sees (`Database`). The writer reads its own transaction, every other connection what is committed.
A second writer is turned away (`write` is `none`) until the first one commits, rolls back or closes.

`All P` says that `P` holds of everything a connection may see; it is kept by every operation whose
write keeps it.
-/

namespace ClaudeSwarm.Data

/-- The committed contents, and the open write transaction. -/
structure Database (T : Type) where
  committed : T
  txn : Option (Nat × T)

namespace Database

variable {T : Type}

/-- A database nobody is writing. -/
def at_ (t : T) : Database T := ⟨t, none⟩

/-- What connection `n` reads. -/
def view (s : Database T) (n : Nat) : T :=
  match s.txn with
  | some (owner, t) => if owner = n then t else s.committed
  | none => s.committed

/-- Connection `n` writes; `none` when another connection is writing. -/
def write (s : Database T) (n : Nat) (f : T → T) : Option (Database T) :=
  match s.txn with
  | some (owner, t) => if owner = n then some { s with txn := some (n, f t) } else none
  | none => some { s with txn := some (n, f s.committed) }

/-- Connection `n` commits what it has written. -/
def commit (s : Database T) (n : Nat) : Database T :=
  match s.txn with
  | some (owner, t) => if owner = n then at_ t else s
  | none => s

/-- Connection `n` gives up what it has written and not committed. -/
def rollback (s : Database T) (n : Nat) : Database T :=
  match s.txn with
  | some (owner, _) => if owner = n then at_ s.committed else s
  | none => s

@[simp] theorem view_at (t : T) (n : Nat) : (at_ t).view n = t := rfl

@[simp] theorem committed_at (t : T) : (at_ t).committed = t := rfl

@[simp] theorem write_at (t : T) (n : Nat) (f : T → T) :
    (at_ t).write n f = some ⟨t, some (n, f t)⟩ := rfl

@[simp] theorem commit_at (t : T) (n : Nat) : (at_ t).commit n = at_ t := rfl

@[simp] theorem rollback_at (t : T) (n : Nat) : (at_ t).rollback n = at_ t := rfl

@[simp] theorem write_own (c t : T) (n : Nat) (f : T → T) :
    (⟨c, some (n, t)⟩ : Database T).write n f = some ⟨c, some (n, f t)⟩ := by
  simp [write]

@[simp] theorem commit_own (c t : T) (n : Nat) :
    (⟨c, some (n, t)⟩ : Database T).commit n = at_ t := by
  simp [commit]

@[simp] theorem rollback_own (c t : T) (n : Nat) :
    (⟨c, some (n, t)⟩ : Database T).rollback n = at_ c := by
  simp [rollback]

/-- A connection writes on top of what it reads. -/
theorem write_eq {s s' : Database T} {n : Nat} {f : T → T} (h : s.write n f = some s') :
    s' = ⟨s.committed, some (n, f (s.view n))⟩ := by
  obtain ⟨c, txn⟩ := s
  cases txn with
  | none =>
    cases h
    rfl
  | some t =>
    obtain ⟨owner, t⟩ := t
    by_cases ho : owner = n
    · subst ho
      rw [write_own] at h
      cases h
      simp [view]
    · simp [write, ho] at h

/-- `P` holds of what is committed and of what is being written. -/
structure All (P : T → Prop) (s : Database T) : Prop where
  committed : P s.committed
  txn : ∀ n t, s.txn = some (n, t) → P t

variable {P : T → Prop} {s s' : Database T} {n : Nat}

theorem all_at {t : T} (h : P t) : All P (at_ t) := ⟨h, fun _ _ he => by cases he⟩

theorem All.view (h : All P s) (n : Nat) : P (s.view n) := by
  unfold Database.view
  split
  · rename_i owner t ht
    split
    · exact h.txn owner t ht
    · exact h.committed
  · exact h.committed

theorem All.write {f : T → T} (h : All P s) (hf : P (f (s.view n)))
    (hw : s.write n f = some s') : All P s' := by
  rw [write_eq hw]
  refine ⟨h.committed, fun m t ht => ?_⟩
  cases ht
  exact hf

theorem All.commit (h : All P s) (n : Nat) : All P (s.commit n) := by
  unfold Database.commit
  split
  · rename_i owner t ht
    split
    · exact all_at (h.txn owner t ht)
    · exact h
  · exact h

theorem All.rollback (h : All P s) (n : Nat) : All P (s.rollback n) := by
  unfold Database.rollback
  split
  · split
    · exact all_at h.committed
    · exact h
  · exact h

end Database

end ClaudeSwarm.Data
