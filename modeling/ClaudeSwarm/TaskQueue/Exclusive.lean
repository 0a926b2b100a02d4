import ClaudeSwarm.TaskQueue.FilesystemClaims
import ClaudeSwarm.TaskQueue.RedisClaims

/-!
# A task is claimed by one call at a time

On neither backend is `_claim_specific` atomic: it reads a task, checks that it is pending and saves
it as claimed, and another call may have claimed it in between.

* `claim_races_claim`: two calls claim one task, on each backend.
* **`claims_apart`**: two calls that returned the same task have a `requeue` of it between them, in
  the runs in which a task is still pending when it is taken (Redis), and in which a claim writes to
  `claimed/` only what it removed from `pending/` itself (filesystem).
-/

namespace ClaudeSwarm.TaskQueue

open Interleave Data
open Python (FloatFmt)

section

variable {S : Sig} {B : Backend S} {T : Store S}

/-- Call `n` returned task `id` as claimed. -/
def Claimed (c : Config (B.system T)) (n : Nat) (id : String) : Prop :=
  ∃ (o : Op) (t : Task), o.IsClaim ∧ c.Returned n o (some t) ∧ t.id = id

/-- What two claims of a task have between them. -/
theorem apart_of_sound {D : Discipline (B.system T)} {take release : Event (B.system T) → String → Prop}
    {c : Config (B.system T)}
    (h : Sound D (ClaimOutcome fun n id w => ∃ e ∈ w.trace, e.call = n ∧ take e id) c) {id : String}
    (halt : Alternating take release id c.world.trace) {n m : Nat} (hnm : n ≠ m)
    (hn : Claimed c n id) (hm : Claimed c m id) :
    Apart take release Event.call id n m c.world.trace := by
  obtain ⟨o, t, ho, hr, rfl⟩ := hn
  obtain ⟨o', t', ho', hr', hid⟩ := hm
  obtain ⟨e, he, hn, ht⟩ := h.returned hr ho
  obtain ⟨e', he', hm, ht'⟩ := h.returned hr' ho'
  exact apart_of_mem halt hnm he he' ht (hid ▸ ht') hn hm

end

/-- **Claims of a task are separated by a requeue of it.** -/
theorem claims_apart (F : FloatFmt) (id : String) {n m : Nat} (hnm : n ≠ m) :
    (∀ (s : ClaudeSwarm.Redis.Keys) (c : Config (Redis.system F)),
      Redis.WellFormed s → Run Redis.StillPending (.init s) c →
      Claimed c n id → Claimed c m id →
        Apart Redis.take Redis.release Event.call id n m c.world.trace) ∧
    ∀ (s : Filesystem.Dirs) (c : Config (Filesystem.system F)),
      Run Filesystem.OwnRemoval (.init s) c →
      Claimed c n id → Claimed c m id →
        Apart Filesystem.take Filesystem.release Event.call id n m c.world.trace := by
  constructor
  · intro s c hs h hn hm
    have hsound := Redis.run_queueing hs h
    exact apart_of_sound hsound (hsound.inv.exclusive id) hnm hn hm
  · intro s c h hn hm
    have hsound := Filesystem.run_filing h
    exact apart_of_sound hsound (hsound.inv.exclusive id) hnm hn hm

/-! ## The races -/

section

variable {S : Sig} {B : Backend S} {T : Store S}

/-- Call `n` is a claim that returned the task `id`. -/
def claimedBy (c : Config (B.system T)) (id : String) (n : Nat) : Bool :=
  match c.proc n with
  | some ⟨o, .ret (some t)⟩ => o.IsClaim ∧ t.id = id
  | _ => false

theorem claimed_of_claimedBy {c : Config (B.system T)} {id : String} {n : Nat}
    (h : claimedBy c id n = true) : Claimed c n id := by
  unfold claimedBy at h
  split at h
  · rename_i o t hn
    obtain ⟨ho, hid⟩ := of_decide_eq_true h
    exact ⟨o, t, ho, hn, hid⟩
  · cases h

/-- Calls `0` and `1` both claimed the task, and there were only claims. -/
def claimedTwice (id : String) (c : Config (B.system T)) : Bool :=
  claimedBy c id 0 && claimedBy c id 1 && c.world.trace.all fun e => e.op.IsClaim

theorem races_of_claimedTwice {c : Config (B.system T)} {id : String}
    (h : claimedTwice id c = true) : Claimed c 0 id ∧ Claimed c 1 id ∧
      ∀ e ∈ c.world.trace, ∀ task_id, e.op ≠ .requeue task_id := by
  simp only [claimedTwice, Bool.and_eq_true, List.all_eq_true, decide_eq_true_eq] at h
  obtain ⟨⟨h₀, h₁⟩, hops⟩ := h
  refine ⟨claimed_of_claimedBy h₀, claimed_of_claimedBy h₁, fun e he task_id ho => ?_⟩
  have hclaim := hops e he
  rw [ho] at hclaim
  exact hclaim

end

/-- A task. -/
def oneTask : Task := { id := "task-1", title := "t" }

namespace Redis

open ClaudeSwarm.Redis

/-- The task, pending. -/
def onePending : Keys :=
  runAll [.hset oneTask.id (hashFields Python.wholeSeconds oneTask),
    .zadd .pending oneTask.id (scoreOf oneTask)] .empty

theorem onePending_wellFormed : WellFormed onePending :=
  wellFormed_create ⟨fun _ h => absurd rfl h, fun _ _ h => nomatch h⟩

/-- The epoch. -/
def env : Env := ⟨0, "1970-01-01T00:00:00Z", "u", "h"⟩

/-- `a` writes the hash, `b` pops the task, `a` moves it. -/
def claimThenPop : List (Act (system Python.wholeSeconds)) :=
  solo (system _) 0 (.claim "a" (some "task-1")) 4 env ++
    solo (system _) 1 (.claim "b" none) 6 env ++ List.replicate 4 (.step 0 env)

/-- `a` claims the task, `b` gives it back, `c` claims it. -/
def claimRequeueClaim : List (Act (system Python.wholeSeconds)) :=
  solo (system _) 0 (.claim "a" (some "task-1")) 8 env ++
    solo (system _) 1 (.requeue "task-1") 7 env ++ solo (system _) 2 (.claim "c" none) 6 env

theorem claimRequeueClaim_plays :
    (play (M := system Python.wholeSeconds) StillPending (.init onePending)
      claimRequeueClaim).isSome := by
  decide +kernel

end Redis

namespace Filesystem

/-- The task, pending. -/
def onePending : Dirs :=
  Function.update (fun _ => .empty) .pending (Table.empty.put (fileName oneTask.id, oneTask.toDict))

/-- The epoch. -/
def env : Env := ⟨0, "u"⟩

/-- `a` reads the task, `b` claims it, `a` goes on. -/
def readThenClaim : List (Act (system Python.wholeSeconds)) :=
  solo (system _) 0 (.claim "a" (some "task-1")) 3 env ++
    solo (system _) 1 (.claim "b" (some "task-1")) 11 env ++ List.replicate 7 (.step 0 env)

/-- `a` claims the task, `b` gives it back, `c` claims it. -/
def claimRequeueClaim : List (Act (system Python.wholeSeconds)) :=
  solo (system _) 0 (.claim "a" (some "task-1")) 11 env ++
    solo (system _) 1 (.requeue "task-1") 11 env ++
    solo (system _) 2 (.claim "c" (some "task-1")) 11 env

theorem claimRequeueClaim_plays :
    (play (M := system Python.wholeSeconds) OwnRemoval (.init onePending)
      claimRequeueClaim).isSome := by
  decide +kernel

end Filesystem

/-- Two calls claim one task, and nobody requeues it. -/
theorem claim_races_claim :
    (∃ (s : ClaudeSwarm.Redis.Keys) (c : Config (Redis.system Python.wholeSeconds)),
      Redis.WellFormed s ∧ Run Free (.init s) c ∧ ∃ id, Claimed c 0 id ∧ Claimed c 1 id ∧
        ∀ e ∈ c.world.trace, ∀ task_id, e.op ≠ .requeue task_id) ∧
    ∃ (s : Filesystem.Dirs) (c : Config (Filesystem.system Python.wholeSeconds)),
      Run Free (.init s) c ∧ ∃ id, Claimed c 0 id ∧ Claimed c 1 id ∧
        ∀ e ∈ c.world.trace, ∀ task_id, e.op ≠ .requeue task_id := by
  constructor
  · have hplay : (play Free (.init Redis.onePending) Redis.claimThenPop).any
        (claimedTwice "task-1") = true := by
      decide +kernel
    obtain ⟨c, hrun, hc⟩ := exists_run_of_play hplay
    exact ⟨_, c, Redis.onePending_wellFormed, hrun, _, races_of_claimedTwice hc⟩
  · have hplay : (play Free (.init Filesystem.onePending) Filesystem.readThenClaim).any
        (claimedTwice "task-1") = true := by
      decide +kernel
    obtain ⟨c, hrun, hc⟩ := exists_run_of_play hplay
    exact ⟨_, c, hrun, _, races_of_claimedTwice hc⟩

theorem claims_apart_claimRequeueClaim :
    Apart Redis.take Redis.release Event.call "task-1" 0 2
        (played Redis.StillPending _ Redis.claimRequeueClaim
          Redis.claimRequeueClaim_plays).world.trace ∧
      Apart Filesystem.take Filesystem.release Event.call "task-1" 0 2
        (played Filesystem.OwnRemoval _ Filesystem.claimRequeueClaim
          Filesystem.claimRequeueClaim_plays).world.trace :=
  ⟨(claims_apart _ _ (by decide)).1 _ _ Redis.onePending_wellFormed (run_played _)
      (claimed_of_claimedBy (by decide +kernel)) (claimed_of_claimedBy (by decide +kernel)),
    (claims_apart _ _ (by decide)).2 _ _ (run_played _)
      (claimed_of_claimedBy (by decide +kernel)) (claimed_of_claimedBy (by decide +kernel))⟩

end ClaudeSwarm.TaskQueue
