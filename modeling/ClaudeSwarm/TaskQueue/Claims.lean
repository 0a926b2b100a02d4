import ClaudeSwarm.Interleave.Outline
import ClaudeSwarm.TaskQueue.Queue

/-!
# The queue's methods, whatever the backend

`Rules` are what an exclusion argument needs of a backend: its reads can be interleaved with
anything, and saving a task as claimed takes it. `prog_outline` derives from them that every call
of the queue has a proof outline, and that one that returned a task as claimed took that task.
-/

namespace ClaudeSwarm.TaskQueue

open Interleave
open Python (PyError)

/-- The calls that claim. -/
def Op.IsClaim : Op → Prop
  | .claim _ _ | .claimMatching _ _ => True
  | _ => False

instance (o : Op) : Decidable o.IsClaim := by
  unfold Op.IsClaim
  split <;> infer_instance

/-- A call that claims the tasks it names itself. -/
def Op.Specific : Op → Prop
  | .claim _ task_id => ∃ id, task_id.filter (· ≠ "") = some id
  | .claimMatching _ _ => True
  | _ => False

instance (o : Op) : Decidable o.Specific := by
  unfold Op.Specific
  split
  · exact decidable_of_iff _ Option.isSome_iff_exists
  all_goals infer_instance

theorem Op.Specific.isClaim {o : Op} (h : o.Specific) : o.IsClaim := by
  cases o <;> first | exact h.elim | trivial

/-- The state a transition saves its task in. -/
def Op.Moves : Op → TaskState → Prop
  | .start _, t => t = .running
  | .complete _ _, t => t = .completed
  | .fail _ _, t => t = .failed
  | .requeue _, t => t = .pending
  | _, _ => False

/-- Only `requeue` makes a task pending. -/
theorem requeue_of_moves {o : Op} {t : TaskState} (h : o.Moves t) (ht : t = .pending) :
    ∃ id, o = .requeue id := by
  subst ht
  cases o with
  | requeue id => exact ⟨id, rfl⟩
  | _ => cases h

section

variable {S : Sig} {B : Backend S} {T : Store S} (D : Discipline (B.system T))
  (Took : Nat → String → World (B.system T) → Prop)

/-- A program that can be run anywhere, with nothing to show for it. -/
def Plain {α : Type} (p : Prog S PyError α) : Prop :=
  ∀ n o, Outline D n o (fun _ _ => True) p fun _ => True

/-- If a task was returned, it was taken. -/
def TookIt (n : Nat) : Except PyError (Option Task) → World (B.system T) → Prop
  | .ok (some t), w => Took n t.id w
  | _, _ => True

/-- What the exclusion argument needs of a backend. -/
structure Rules : Prop where
  get : ∀ id, Plain D (B.get id)
  list : ∀ state limit, Plain D (B.listByState state limit)
  now : Plain D B.now
  saveClaimed : ∀ n o t, o.Specific → t.state = .claimed →
    Outline D n o (Outcome (fun _ => Took n t.id) fun _ _ => True) (B.save t) fun _ => True
  saveMoved : ∀ n o t, o.Moves t.state → Outline D n o (fun _ _ => True) (B.save t) fun _ => True
  next : ∀ n claimer task_id, task_id.filter (· ≠ "") = none →
    Outline D n (.claim claimer task_id) (TookIt Took n) (B.claimNext claimer) fun _ => True

variable {D} {Took} {n : Nat} {o : Op}

/-- A plain program and what follows it. -/
theorem Plain.bind {α β : Type} {Q : Except PyError β → World (B.system T) → Prop}
    {p : Prog S PyError α} {f : α → Prog S PyError β} (hp : Plain D p)
    (hraise : ∀ e w, Q (.error e) w) (hf : ∀ a, Outline D n o Q (f a) fun _ => True) :
    Outline D n o Q (p >>= f) fun _ => True := by
  refine outline_bind (R := fun _ _ => True) hf (outline_mono (fun _ _ h => h) ?_ (hp n o))
  intro r w _ _
  cases r with
  | ok a => trivial
  | error e => exact hraise e w

/-- `_claim_specific`, on a backend whose save takes the task. -/
theorem claimSpecific_outline (hget : ∀ id, Plain D (B.get id)) (hnow : Plain D B.now)
    (hsave : ∀ t, t.state = .claimed →
      Outline D n o (Outcome (fun _ => Took n t.id) fun _ _ => True) (B.save t) fun _ => True)
    (task_id claimer : String) :
    Outline D n o (TookIt Took n) (B.claimSpecific task_id claimer) fun _ => True := by
  refine (hget task_id).bind (fun _ _ => trivial) fun task => ?_
  cases task with
  | none => exact outline_ret fun _ _ _ => trivial
  | some task =>
    simp only
    split
    · exact outline_ret fun _ _ _ => trivial
    · refine hnow.bind (fun _ _ => trivial) fun now => ?_
      exact outline_bind (R := fun _ => Took n task.id) (fun _ => outline_ret fun _ _ h => h)
        (hsave { task with state := .claimed, claimedBy := claimer, claimedAt := now } rfl)

theorem claimFirst_outline {cap_set : List String} {claimer : String}
    (hspecific : ∀ id, Outline D n o (TookIt Took n) (B.claimSpecific id claimer) fun _ => True) :
    ∀ tasks, Outline D n o (TookIt Took n) (B.claimFirst cap_set claimer tasks) fun _ => True
  | [] => outline_ret fun _ _ _ => trivial
  | task :: tasks => by
    unfold Backend.claimFirst
    split
    · refine outline_bind (R := fun claimed => TookIt Took n (.ok claimed)) (fun claimed => ?_)
        (outline_mono (fun _ _ h => h) (fun r w _ h => ?_) (hspecific task.id))
      · cases claimed with
        | none => exact outline_pre (fun _ _ _ => trivial) (claimFirst_outline hspecific tasks)
        | some t => exact outline_ret fun _ _ h => h
      · cases r with
        | ok claimed => exact h
        | error e => trivial
    · exact claimFirst_outline hspecific tasks

/-- The end of a transition. -/
theorem saveMoved_outline (h : Rules D Took) {t : Task} (ht : o.Moves t.state) :
    Outline D n o (fun _ _ => True) (B.save t >>= fun _ => .ret (some t)) fun _ => True :=
  outline_bind (R := fun _ _ => True) (fun _ => outline_ret fun _ _ _ => trivial)
    (outline_mono (fun _ _ h => h) (fun r _ _ _ => by cases r <;> trivial) (h.saveMoved n o t ht))

/-- A call that claims a task took it. -/
def ClaimOutcome (Took : Nat → String → World (B.system T) → Prop) (n : Nat) (o : Op)
    (r : Except PyError (Option Task)) (w : World (B.system T)) : Prop :=
  o.IsClaim → TookIt Took n r w

/-- A call that reads a task and goes on without claiming it. -/
theorem moves_outline (h : Rules D Took) (ho : ¬ o.IsClaim) {task_id : String}
    {f : Option Task → Prog S PyError (Option Task)} (hnone : f none = .ret none)
    (hsome : ∀ t, Outline D n o (fun _ _ => True) (f (some t)) fun _ => True) :
    Outline D n o (ClaimOutcome Took n o) (B.get task_id >>= f) fun _ => True := by
  refine (h.get task_id).bind (fun _ _ hc => absurd hc ho) fun task => ?_
  cases task with
  | none =>
    rw [hnone]
    exact outline_ret fun _ _ _ hc => absurd hc ho
  | some task => exact outline_mono (fun _ _ h => h) (fun _ _ _ _ hc => absurd hc ho) (hsome task)

/-- **Every call has an outline**, on a backend that meets the rules. -/
theorem prog_outline (h : Rules D Took) (n : Nat) (o : Op) :
    Outline D n o (ClaimOutcome Took n o) (o.prog B) fun _ => True := by
  have hclaims : ∀ {p : Prog S PyError (Option Task)} {o : Op},
      Outline D n o (TookIt Took n) p (fun _ => True) →
        Outline D n o (ClaimOutcome Took n o) p fun _ => True :=
    outline_mono (fun _ _ h => h) fun _ _ _ h _ => h
  have hspecific : ∀ o : Op, o.Specific → ∀ id claimer,
      Outline D n o (TookIt Took n) (B.claimSpecific id claimer) fun _ => True :=
    fun o ho => claimSpecific_outline h.get h.now fun t ht => h.saveClaimed n o t ho ht
  have hret : ∀ {o : Op}, Outline D n o (fun _ _ => True)
      (.ret none : Prog S PyError (Option Task)) fun _ => True := outline_ret fun _ _ _ => trivial
  cases o with
  | claim claimer task_id =>
    refine hclaims ?_
    show Outline D n _ _ (B.claim claimer task_id) _
    unfold Backend.claim
    cases hid : task_id.filter (· ≠ "") with
    | none => exact h.next n claimer task_id hid
    | some id => exact hspecific (.claim claimer task_id) ⟨id, hid⟩ id claimer
  | claimMatching cap_set claimer =>
    refine hclaims ((h.list .pending 50).bind (fun _ _ => trivial) fun pending => ?_)
    exact claimFirst_outline
      (fun id => hspecific (.claimMatching cap_set claimer) trivial id claimer) _
  | start id =>
    refine moves_outline (o := .start id) h not_false rfl fun t => ?_
    simp only
    split
    · exact hret
    · exact saveMoved_outline h rfl
  | complete id result =>
    refine moves_outline (o := .complete id result) h not_false rfl fun t => ?_
    simp only
    split
    · exact hret
    · exact h.now.bind (fun _ _ => trivial) fun now => saveMoved_outline h rfl
  | fail id error =>
    refine moves_outline (o := .fail id error) h not_false rfl fun t => ?_
    simp only
    split
    · exact hret
    · exact h.now.bind (fun _ _ => trivial) fun now => saveMoved_outline h rfl
  | requeue id =>
    refine moves_outline (o := .requeue id) h not_false rfl fun t => ?_
    simp only
    split
    · exact hret
    · exact saveMoved_outline h rfl

end

end ClaudeSwarm.TaskQueue
