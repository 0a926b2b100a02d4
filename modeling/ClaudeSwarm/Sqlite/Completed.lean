import ClaudeSwarm.Sqlite.Protocol

/-!
# Completed tasks

Every update of the backend but one refuses a completed row, in its own `WHERE` clause or because
the claim it belongs to selected a pending row under the write lock. The exception is the update of
`requeue_stale`: the `SELECT` before it runs outside the write transaction, so a task completed in
between goes back to `pending` (`requeueStale_reopens`).

* `Keeps.run`: an allowed statement that does not requeue a completed row keeps completed rows.
* **`completed_absorbing`**: in every run without such a requeue, what a commit left completed is
  completed in every later one.
-/

namespace ClaudeSwarm.Sqlite

open Interleave Data

/-- The state of a task in a table. -/
def stateOf (t : Tasks) (id : String) : Option TaskState := (t.find? id).map Row.state

/-- What is completed in `t` is completed in `t'`. -/
def Keeps (t t' : Tasks) : Prop :=
  ∀ id, stateOf t id = some .completed → stateOf t' id = some .completed

/-- No commit changes the state of a task that an earlier one left completed. -/
def CompletedAbsorbing (s : Db) : Prop :=
  s.commits.Pairwise fun later earlier => Keeps earlier.table later.table

/-- `requeue_stale` updates no row that is completed when it does. -/
def StaleStillOpen : Guard system := fun w n _ c =>
  match c with
  | .execute (.requeueStale id) => stateOf (w.state.view n) id ≠ some .completed
  | _ => True

instance (w : World system) (n : Nat) (o : Op) (c : Cmd) : Decidable (StaleStillOpen w n o c) := by
  unfold StaleStillOpen
  split <;> infer_instance

theorem Keeps.refl (t : Tasks) : Keeps t t := fun _ h => h

theorem Keeps.trans {t₁ t₂ t₃ : Tasks} (h : Keeps t₁ t₂) (h' : Keeps t₂ t₃) : Keeps t₁ t₃ :=
  fun id hc => h' id (h id hc)

/-- An update that selects no completed row. -/
theorem Keeps.update {t : Tasks} {st : Stmt}
    (h : ∀ id r, t.find? id = some r → r.state = .completed → st.selects r = false) :
    Keeps t (t.update st.selects st.assign st.assign_id) := by
  intro id hc
  obtain ⟨r, hr, hs⟩ := Option.map_eq_some_iff.mp hc
  rw [stateOf, Table.find?_update, hr, Option.map_some, h id r hr hs]
  exact congrArg some hs

/-- **Statements.** -/
theorem Keeps.run {st : Stmt} {t t' : Tasks} {k : Nat} (ha : st.Allowed t)
    (hs : ∀ id, st = .requeueStale id → stateOf t id ≠ some .completed)
    (hr : st.run t = some (k, t')) : Keeps t t' := by
  cases st with
  | insert r =>
    obtain ⟨t₁, hi, hk⟩ := Option.map_eq_some_iff.mp hr
    cases hk
    intro id hc
    obtain ⟨r', hr', hs'⟩ := Option.map_eq_some_iff.mp hc
    rw [stateOf, Table.find?_insert_of_some hi hr', Option.map_some, hs']
  | claim claimer now id =>
    cases hr
    obtain ⟨r, hfind, hp⟩ := ha
    refine Keeps.update fun id' r' hr' hc => ?_
    rw [Stmt.selects, beq_eq_false_iff_ne]
    intro he
    have hk := Table.find?_key hr'
    rw [← hk, he, hfind] at hr'
    obtain rfl := Option.some.inj hr'
    rw [hp] at hc
    cases hc
  | requeue id =>
    cases hr
    exact Keeps.update fun _ r' _ hc => by simp [Stmt.selects, hc]
  | requeueStale id =>
    cases hr
    refine Keeps.update fun id' r' hr' hc => ?_
    rw [Stmt.selects, beq_eq_false_iff_ne]
    rintro rfl
    refine hs _ rfl ?_
    rw [stateOf, Table.find?_key hr', hr', Option.map_some, hc]
  | transition id newState validFrom set =>
    cases hr
    refine Keeps.update fun _ r' _ hc => ?_
    simp only [Stmt.selects, hc, Bool.and_eq_false_iff]
    exact Or.inr (by simpa using ha.2)

/-- Completed tasks are safe: in the commits so far, up to the committed table, and in the open
transaction. -/
structure Safe (s : Db) : Prop where
  absorbing : CompletedAbsorbing s
  committed : ∀ cm ∈ s.commits, Keeps cm.table s.table
  open_ : ∀ t, s.txn = some t → Keeps s.table t.view

/-- **Commands.** -/
theorem safe_effect {n : Nat} {s s' : Db} {c : Cmd} (h : Safe s)
    (ha : ∀ st, c = .execute st → st.Allowed (s.view n))
    (hs : ∀ id, c = .execute (.requeueStale id) → stateOf (s.view n) id ≠ some .completed)
    (he : Effect n s c s') : Safe s' := by
  cases he with
  | same => exact h
  | begin_ ht =>
    refine ⟨h.absorbing, h.committed, fun t ht' => ?_⟩
    cases ht'
    exact Keeps.refl _
  | @write st t k view ht hr =>
    refine ⟨h.absorbing, h.committed, fun t' ht' => ?_⟩
    cases ht'
    have hv := Db.view_of_open ht
    have hk : Keeps s.table t.view := by
      rcases ht with ⟨ht, -⟩ | ⟨-, rfl⟩
      · exact h.open_ t ht
      · exact Keeps.refl _
    rw [hv] at ha hs
    exact hk.trans (Keeps.run (ha st rfl) (fun id hst => hs id (hst ▸ rfl)) hr)
  | commit ht ho =>
    have hk : ∀ cm ∈ s.commits, Keeps cm.table _ := fun cm hcm =>
      (h.committed cm hcm).trans (h.open_ _ ht)
    refine ⟨List.pairwise_cons.mpr ⟨hk, h.absorbing⟩, fun cm hcm => ?_, fun t h => by cases h⟩
    rcases List.mem_cons.mp hcm with rfl | hcm
    · exact Keeps.refl _
    · exact hk cm hcm
  | abandon => exact ⟨h.absorbing, h.committed, fun t h => by cases h⟩

/-- **Completed is absorbing** in every run whose `requeue_stale` updates find their row not
completed. -/
theorem completed_absorbing {t : Tasks} {c : Config system} (h : Run StaleStillOpen (opened t) c) :
    CompletedAbsorbing c.world.state := by
  refine Safe.absorbing (run_inv (I := fun w => Safe w.state) (fun w e w' hi hg hf => ?_) ?_
    (run_allowed h))
  · obtain ⟨i, hx⟩ := hf.1
    refine safe_effect hi (fun st hst => ?_) (fun id hst => ?_) (effect_of_exec hx)
    · have ha := hg.2
      unfold Allowed at ha
      rw [hst] at ha
      exact ha
    · have hs := hg.1
      unfold StaleStillOpen at hs
      rw [hst] at hs
      exact hs
  · exact ⟨List.Pairwise.nil, fun cm hcm => absurd hcm List.not_mem_nil, fun t h => by cases h⟩

/-! ## The race -/

/-- A task claimed at time `1`. -/
def claimedRow (id : String) : Row :=
  { id, title := id, state := .claimed, claimedBy := "x", claimedAt := 1 }

/-- `requeue_stale` selects `a`; `complete` of `a` runs to its end; `requeue_stale` goes on. -/
def lateRequeue : List (Act system) :=
  solo system 0 (.requeueStale 10) 2 ⟨100, "u", "h", false⟩ ++
    solo system 1 (.complete "a" "done") 5 ⟨100, "u", "h", false⟩ ++
    List.replicate 3 (.step 0 ⟨100, "u", "h", false⟩)

/-- A completed task goes back to `pending`. -/
theorem requeueStale_reopens :
    ∃ t c, Run Free (opened t) c ∧ ¬ CompletedAbsorbing c.world.state := by
  have hplay : (play Free (opened ⟨[claimedRow "a"], by decide⟩) lateRequeue).any (fun c =>
      c.world.state.commits.map (fun cm => stateOf cm.table "a") =
        [some .pending, some .completed]) = true := by
    decide +kernel
  obtain ⟨c, hrun, hc⟩ := exists_run_of_play hplay
  refine ⟨_, c, hrun, fun habs => ?_⟩
  have hstates := List.Pairwise.map (S := fun a b => b = some .completed → a = some .completed)
    (fun cm => stateOf cm.table "a") (fun _ _ hk => hk "a") habs
  rw [of_decide_eq_true hc] at hstates
  simp at hstates

/-- `requeue_stale` puts `b` back before anybody completes it; `a` is completed meanwhile. -/
def timelyRequeue : List (Act system) :=
  solo system 0 (.complete "a" "done") 5 ⟨100, "u", "h", false⟩ ++
    solo system 1 (.requeueStale 10) 5 ⟨100, "u", "h", false⟩

theorem timelyRequeue_plays :
    (play StaleStillOpen (opened ⟨[claimedRow "a", claimedRow "b"], by decide⟩)
      timelyRequeue).isSome := by
  decide +kernel

theorem completed_absorbing_timelyRequeue :
    CompletedAbsorbing (played StaleStillOpen _ timelyRequeue timelyRequeue_plays).world.state :=
  completed_absorbing (run_played timelyRequeue_plays)

end ClaudeSwarm.Sqlite
