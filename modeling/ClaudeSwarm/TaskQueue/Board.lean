import ClaudeSwarm.Data.First
import ClaudeSwarm.TaskQueue.Session

/-!
# The queue as a board of tasks

What `TaskQueue` is for: a board of tasks, on which a method moves at most one task along an edge of
the life cycle (`Moved`), and a sweep some of them. `Serves B T Holds tier shown` says that backend
`B` keeps such a board: `Holds s l` that the store `s` holds the board `l`, `tier t` the priority with
which task `t` is read, and `shown s l st k` the tasks a listing with limit `k` shows.

The specifications of the methods follow once for all such backends.

* `Serves.changed_of_op`: a call changes nothing or moves one task.
* `Serves.runs_claimMatching`: the first match of the tasks shown, sorted by priority, is claimed.
* `Serves.runs_requeueStaleAt`: a sweep puts the stale tasks it is shown back, and no other.
-/

namespace ClaudeSwarm

open Interleave Data
open Python (Time PyError)

/-! ## Moves -/

/-- The task as claimed. -/
def Task.claim (t : Task) (claimer : String) (now : Time) : Task :=
  { t with state := .claimed, claimedBy := claimer, claimedAt := now }

/-- The task as requeued. -/
def Task.requeue (t : Task) : Task :=
  { t with state := .pending, claimedBy := "", claimedAt := 0, error := "" }

/-- The task with the priority it is read with. -/
def Task.read (tier : Task → Int) (t : Task) : Task := { t with priority := tier t }

namespace TaskQueue

/-- What a method makes of a task it reads. -/
inductive Moved : Task → Task → Prop
  | claim {t : Task} (claimer : String) (now : Time) (h : t.state = .pending) :
      Moved t (t.claim claimer now)
  | start {t : Task} (h : t.state = .claimed) : Moved t { t with state := .running }
  | complete {t : Task} (now : Time) (result : String)
      (h : t.state = .claimed ∨ t.state = .running) :
      Moved t { t with state := .completed, completedAt := now, result := result }
  | fail {t : Task} (now : Time) (error : String) (h : t.state = .claimed ∨ t.state = .running) :
      Moved t { t with state := .failed, completedAt := now, error := error }
  | requeue {t : Task} (h : t.state ≠ .completed) : Moved t t.requeue

/-- The edges of the life cycle. -/
inductive Edge : TaskState → TaskState → Prop
  | claim : Edge .pending .claimed
  | start : Edge .claimed .running
  | complete {a : TaskState} (h : a = .claimed ∨ a = .running) : Edge a .completed
  | fail {a : TaskState} (h : a = .claimed ∨ a = .running) : Edge a .failed
  | requeue {a : TaskState} (h : a ≠ .completed) : Edge a .pending

/-- What no method changes of a task. -/
structure SameWork (t t' : Task) : Prop where
  id : t'.id = t.id
  title : t'.title = t.title
  requires : t'.requires = t.requires
  createdAt : t'.createdAt = t.createdAt

theorem SameWork.refl (t : Task) : SameWork t t := ⟨rfl, rfl, rfl, rfl⟩

theorem SameWork.trans {t t' t'' : Task} (h : SameWork t t') (h' : SameWork t' t'') :
    SameWork t t'' :=
  ⟨h'.id.trans h.id, h'.title.trans h.title, h'.requires.trans h.requires,
    h'.createdAt.trans h.createdAt⟩

section Moved

variable {t t' : Task} (h : Moved t t')
include h

theorem Moved.edge : Edge t.state t'.state := by
  cases h with
  | claim claimer now h => exact h ▸ .claim
  | start h => exact h ▸ .start
  | complete now result h => exact .complete h
  | fail now error h => exact .fail h
  | requeue h => exact .requeue h

theorem Moved.sameWork : SameWork t t' := by
  cases h <;> exact ⟨rfl, rfl, rfl, rfl⟩

theorem Moved.priority : t'.priority = t.priority := by
  cases h <;> rfl

theorem Moved.state_mem : t'.state ∈ allStates := by
  cases h <;> simp [allStates, Task.claim, Task.requeue]

theorem Moved.not_completed : t.state ≠ .completed := by
  cases h with
  | claim claimer now h => simp [h]
  | start h => simp [h]
  | complete now result h => rcases h with h | h <;> simp [h]
  | fail now error h => rcases h with h | h <;> simp [h]
  | requeue h => exact h

end Moved

/-! ## Backends that keep a board -/

/-- The tasks, by `id`. -/
abbrev Board := Table Task.id

theorem mem_byPriority {tasks : List Task} {t : Task} :
    t ∈ Backend.byPriority tasks ↔ t ∈ tasks := List.mem_insertionSort _

/-- Backend `B` keeps a board. -/
structure Serves {S : Sig} (B : Backend S) (T : Store S) (Holds : T.State → Board → Prop)
    (tier : Task → Int) (shown : T.State → Board → TaskState → Nat → List Task) : Prop where
  get : ∀ {n s l id x s'}, Holds s l →
    (T.Runs n (B.get id) s x s' ↔ x = .ok ((l.find? id).map (Task.read tier)) ∧ s' = s)
  save : ∀ {n s l t₀ t x s'}, Holds s l → l.find? t.id = some t₀ → Moved (t₀.read tier) t →
    T.Runs n (B.save t) s x s' → x = .ok () ∧ Holds s' (l.put t)
  now : ∀ {n s x s'}, T.Runs n B.now s x s' → ∃ now, x = .ok now ∧ s' = s
  list : ∀ {n s l st k x s'}, Holds s l → st ∈ allStates →
    (T.Runs n (B.listByState st k) s x s' ↔ x = .ok (shown s l st k) ∧ s' = s)
  mem_shown : ∀ {s l st k t}, Holds s l → t ∈ shown s l st k →
    ∃ t₀, l.find? t.id = some t₀ ∧ t₀.read tier = t ∧ t₀.state = st
  nodup_shown : ∀ {s l st k}, Holds s l → ((shown s l st k).map Task.id).Nodup

/-- A call returned without changing the store, or returned the one task it moved. -/
inductive Changed {σ : Type} (Holds : σ → Board → Prop) (tier : Task → Int) (l : Board) (s s' : σ) :
    Except PyError (Option Task) → Prop
  | nothing (h : s' = s) : Changed Holds tier l s s' (.ok none)
  | moved {t₀ t : Task} (hfind : l.find? t.id = some t₀) (hm : Moved (t₀.read tier) t)
      (hs : Holds s' (l.put t)) : Changed Holds tier l s s' (.ok (some t))

/-- The task `id` of `l` after the tasks `ids` were swept. -/
def sweep (tier : Task → Int) (ids : List String) (l : Board) (id : String) : Option Task :=
  if id ∈ ids then (l.find? id).map fun t => (t.read tier).requeue else l.find? id

/-- The stale ones among `tasks`. -/
def staleIds (now : Time) (ttl : Int) (tasks : List Task) : List String :=
  (tasks.filter fun t => Stale now ttl t).map Task.id

namespace Serves

variable {S : Sig} {B : Backend S} {T : Store S} {Holds : T.State → Board → Prop}
  {tier : Task → Int} {shown : T.State → Board → TaskState → Nat → List Task}
  (hB : Serves B T Holds tier shown) {n : Nat} {s s' : T.State} {l : Board} {id : String}
include hB

theorem get_bind {α : Type} {f : Option Task → Prog S PyError α} {x : Except PyError α}
    (h : Holds s l) : T.Runs n (B.get id >>= f) s x s' ↔
      T.Runs n (f ((l.find? id).map (Task.read tier))) s x s' :=
  Store.runs_bind_of T n fun _ _ => hB.get h

theorem now_bind {α : Type} {f : Time → Prog S PyError α} {x : Except PyError α}
    (hr : T.Runs n (B.now >>= f) s x s') : ∃ now, T.Runs n (f now) s x s' := by
  rcases (Store.runs_bind T n).mp hr with ⟨now, s₁, hn, hf⟩ | ⟨e, hn, -⟩
  · obtain ⟨_, hx, rfl⟩ := hB.now hn
    cases hx
    exact ⟨now, hf⟩
  · obtain ⟨_, hx, -⟩ := hB.now hn
    cases hx

/-- The common end of the methods. -/
theorem save_ret {t₀ t : Task} {x : Except PyError (Option Task)} (h : Holds s l)
    (hfind : l.find? t.id = some t₀) (hm : Moved (t₀.read tier) t)
    (hr : T.Runs n (B.save t >>= fun _ => .ret (some t)) s x s') :
    x = .ok (some t) ∧ Holds s' (l.put t) := by
  rcases (Store.runs_bind T n).mp hr with ⟨_, s₁, hsave, hx, rfl⟩ | ⟨e, hsave, -⟩
  · exact ⟨hx, (hB.save h hfind hm hsave).2⟩
  · cases (hB.save h hfind hm hsave).1

theorem changed_of_save {t₀ t : Task} {x : Except PyError (Option Task)} (h : Holds s l)
    (hr : T.Runs n (B.save t >>= fun _ => .ret (some t)) s x s')
    (hfind : l.find? t.id = some t₀) (hm : Moved (t₀.read tier) t) : Changed Holds tier l s s' x := by
  obtain ⟨rfl, hs⟩ := hB.save_ret h hfind hm hr
  exact .moved hfind hm hs

/-- The common start of the methods. -/
theorem changed_of_get {f : Option Task → Prog S PyError (Option Task)} {x : Except PyError (Option Task)}
    (h : Holds s l) (hr : T.Runs n (B.get id >>= f) s x s') (hnone : f none = .ret none)
    (hsome : ∀ t₀, l.find? t₀.id = some t₀ → T.Runs n (f (some (t₀.read tier))) s x s' →
      Changed Holds tier l s s' x) : Changed Holds tier l s s' x := by
  rw [hB.get_bind h] at hr
  cases hid : l.find? id with
  | none =>
    rw [hid, Option.map_none, hnone] at hr
    obtain ⟨rfl, rfl⟩ := hr
    exact .nothing rfl
  | some t₀ =>
    rw [hid] at hr
    have hkey : t₀.id = id := Table.find?_key hid
    exact hsome t₀ (hkey ▸ hid) hr

/-- `_claim_specific` of a pending task. -/
theorem runs_claimSpecific {claimer : String} {t₀ : Task} {x : Except PyError (Option Task)}
    (h : Holds s l) (hid : l.find? id = some t₀) (hp : t₀.state = .pending)
    (hr : T.Runs n (B.claimSpecific id claimer) s x s') :
    ∃ now, x = .ok (some ((t₀.read tier).claim claimer now)) ∧
      Holds s' (l.put ((t₀.read tier).claim claimer now)) := by
  rw [Backend.claimSpecific, hB.get_bind h, hid] at hr
  have hst : ¬ (t₀.read tier).state ≠ .pending := not_not.mpr hp
  simp only [Option.map_some] at hr
  rw [if_neg hst] at hr
  obtain ⟨now, hr⟩ := hB.now_bind hr
  have hkey : t₀.id = id := Table.find?_key hid
  have hfind : l.find? ((t₀.read tier).claim claimer now).id = some t₀ := by
    rw [← hid, ← hkey]
    rfl
  exact ⟨now, hB.save_ret h hfind (.claim claimer now hp) hr⟩

/-- `_claim_specific`. -/
theorem changed_of_claimSpecific {claimer : String} {x : Except PyError (Option Task)}
    (h : Holds s l) (hr : T.Runs n (B.claimSpecific id claimer) s x s') :
    Changed Holds tier l s s' x := by
  rw [Backend.claimSpecific] at hr
  refine hB.changed_of_get h hr rfl fun t₀ hfind hr => ?_
  dsimp only at hr
  split at hr
  · obtain ⟨rfl, rfl⟩ := hr
    exact .nothing rfl
  · rename_i hst
    obtain ⟨now, hr⟩ := hB.now_bind hr
    exact hB.changed_of_save h hr hfind (.claim claimer now (not_not.mp hst))

/-- `start`. -/
theorem changed_of_start {x : Except PyError (Option Task)} (h : Holds s l)
    (hr : T.Runs n (B.start id) s x s') : Changed Holds tier l s s' x := by
  rw [Backend.start] at hr
  refine hB.changed_of_get h hr rfl fun t₀ hfind hr => ?_
  dsimp only at hr
  split at hr
  · obtain ⟨rfl, rfl⟩ := hr
    exact .nothing rfl
  · rename_i hst
    exact hB.changed_of_save h hr hfind (.start (not_not.mp hst))

/-- `complete`. -/
theorem changed_of_complete {result : String} {x : Except PyError (Option Task)} (h : Holds s l)
    (hr : T.Runs n (B.complete id result) s x s') : Changed Holds tier l s s' x := by
  rw [Backend.complete] at hr
  refine hB.changed_of_get h hr rfl fun t₀ hfind hr => ?_
  dsimp only at hr
  split at hr
  · obtain ⟨rfl, rfl⟩ := hr
    exact .nothing rfl
  · rename_i hst
    obtain ⟨now, hr⟩ := hB.now_bind hr
    exact hB.changed_of_save h hr hfind (.complete now result (by simpa [or_iff_not_imp_left] using hst))

/-- `fail`. -/
theorem changed_of_fail {error : String} {x : Except PyError (Option Task)} (h : Holds s l)
    (hr : T.Runs n (B.fail id error) s x s') : Changed Holds tier l s s' x := by
  rw [Backend.fail] at hr
  refine hB.changed_of_get h hr rfl fun t₀ hfind hr => ?_
  dsimp only at hr
  split at hr
  · obtain ⟨rfl, rfl⟩ := hr
    exact .nothing rfl
  · rename_i hst
    obtain ⟨now, hr⟩ := hB.now_bind hr
    exact hB.changed_of_save h hr hfind (.fail now error (by simpa [or_iff_not_imp_left] using hst))

/-- `requeue` of a task that is not completed. -/
theorem runs_requeue {t₀ : Task} {x : Except PyError (Option Task)} (h : Holds s l)
    (hid : l.find? id = some t₀) (hc : t₀.state ≠ .completed)
    (hr : T.Runs n (B.requeue id) s x s') :
    x = .ok (some (t₀.read tier).requeue) ∧ Holds s' (l.put (t₀.read tier).requeue) := by
  rw [Backend.requeue, hB.get_bind h, hid] at hr
  have hst : (t₀.read tier).state ≠ .completed := hc
  simp only [Option.map_some] at hr
  rw [if_neg hst] at hr
  have hkey : t₀.id = id := Table.find?_key hid
  exact hB.save_ret h (t := (t₀.read tier).requeue) (hkey ▸ hid) (.requeue hc) hr

/-- `requeue`. -/
theorem changed_of_requeue {x : Except PyError (Option Task)} (h : Holds s l)
    (hr : T.Runs n (B.requeue id) s x s') : Changed Holds tier l s s' x := by
  rw [Backend.requeue] at hr
  refine hB.changed_of_get h hr rfl fun t₀ hfind hr => ?_
  dsimp only at hr
  split at hr
  · obtain ⟨rfl, rfl⟩ := hr
    exact .nothing rfl
  · rename_i hst
    exact hB.changed_of_save h hr hfind (.requeue hst)

/-! ### `claim_matching` -/

/-- The loop of `claim_matching` over tasks that are pending. -/
theorem runs_claimFirst {caps : List String} {claimer : String} {tasks : List Task}
    {x : Except PyError (Option Task)} (h : Holds s l)
    (htasks : ∀ t ∈ tasks, ∃ t₀, l.find? t.id = some t₀ ∧ t₀.read tier = t ∧ t₀.state = .pending)
    (hr : T.Runs n (B.claimFirst caps claimer tasks) s x s') :
    (tasks.find? (Backend.matches_ caps) = none ∧ x = .ok none ∧ s' = s) ∨
      ∃ t now, tasks.find? (Backend.matches_ caps) = some t ∧
        x = .ok (some (t.claim claimer now)) ∧ Holds s' (l.put (t.claim claimer now)) := by
  induction tasks with
  | nil => exact Or.inl ⟨rfl, hr⟩
  | cons task tasks ih =>
    rw [Backend.claimFirst] at hr
    by_cases hm : Backend.matches_ caps task
    · rw [if_pos hm] at hr
      obtain ⟨t₀, hfind, ht, hp⟩ := htasks task List.mem_cons_self
      refine Or.inr ?_
      rcases (Store.runs_bind T n).mp hr with ⟨y, s₁, hc, hret⟩ | ⟨e, hc, -⟩
      · obtain ⟨now, hy, hs⟩ := hB.runs_claimSpecific h hfind hp hc
        cases hy
        obtain ⟨rfl, rfl⟩ := hret
        rw [ht] at hs ⊢
        exact ⟨task, now, List.find?_cons_of_pos hm, rfl, hs⟩
      · obtain ⟨now, hy, -⟩ := hB.runs_claimSpecific h hfind hp hc
        cases hy
    · rw [if_neg hm] at hr
      rw [List.find?_cons_of_neg hm]
      exact ih (fun t ht => htasks t (List.mem_cons_of_mem _ ht)) hr

/-- `claim_matching`. -/
theorem runs_claimMatching {caps : List String} {claimer : String}
    {x : Except PyError (Option Task)} (h : Holds s l)
    (hr : T.Runs n (B.claimMatching caps claimer) s x s') :
    ((Backend.byPriority (shown s l .pending 50)).find? (Backend.matches_ caps) = none ∧
        x = .ok none ∧ s' = s) ∨
      ∃ t now, (Backend.byPriority (shown s l .pending 50)).find? (Backend.matches_ caps) = some t ∧
        x = .ok (some (t.claim claimer now)) ∧ Holds s' (l.put (t.claim claimer now)) := by
  have hlist : ∀ y s₁, T.Runs n B.listPending s y s₁ ↔
      y = .ok (shown s l .pending 50) ∧ s₁ = s := fun _ _ => hB.list h (by decide)
  rw [Backend.claimMatching, Store.runs_bind_of T n hlist] at hr
  exact hB.runs_claimFirst h
    (fun t ht => hB.mem_shown h (mem_byPriority.mp ht)) hr

theorem changed_of_claimMatching {caps : List String} {claimer : String}
    {x : Except PyError (Option Task)} (h : Holds s l)
    (hr : T.Runs n (B.claimMatching caps claimer) s x s') : Changed Holds tier l s s' x := by
  rcases hB.runs_claimMatching h hr with ⟨-, rfl, rfl⟩ | ⟨t, now, ht, rfl, hs⟩
  · exact .nothing rfl
  · have hmem := mem_byPriority.mp (List.mem_of_find?_eq_some ht)
    obtain ⟨t₀, hfind, rfl, hp⟩ := hB.mem_shown h hmem
    exact .moved hfind (.claim claimer now hp) hs

/-- **Calls.** A call changes nothing or moves one task. -/
theorem changed_of_op {o : Op} {x : Except PyError (Option Task)}
    (hnext : ∀ {claimer x}, T.Runs n (B.claimNext claimer) s x s' → Changed Holds tier l s s' x)
    (h : Holds s l) (hr : T.Runs n (o.prog B) s x s') : Changed Holds tier l s s' x := by
  cases o with
  | claim claimer task_id =>
    simp only [Op.prog, Backend.claim] at hr
    split at hr
    · exact hB.changed_of_claimSpecific h hr
    · exact hnext hr
  | claimMatching caps claimer => exact hB.changed_of_claimMatching h hr
  | start id => exact hB.changed_of_start h hr
  | complete id result => exact hB.changed_of_complete h hr
  | fail id error => exact hB.changed_of_fail h hr
  | requeue id => exact hB.changed_of_requeue h hr

/-! ### `requeue_stale` -/

/-- The loop of `requeue_stale` over claimed tasks. -/
theorem runs_requeueEach {now : Time} {ttl : Int} {tasks : List Task}
    {x : Except PyError (List String)} (h : Holds s l)
    (htasks : ∀ t ∈ tasks, ∃ t₀, l.find? t.id = some t₀ ∧ t₀.state = .claimed)
    (hnodup : (tasks.map Task.id).Nodup) (hr : T.Runs n (B.requeueEach now ttl tasks) s x s') :
    x = .ok (staleIds now ttl tasks) ∧
      ∃ l', Holds s' l' ∧ ∀ id, l'.find? id = sweep tier (staleIds now ttl tasks) l id := by
  induction tasks generalizing s s' l x with
  | nil =>
    obtain ⟨rfl, rfl⟩ := hr
    exact ⟨rfl, l, h, fun id => (if_neg List.not_mem_nil).symm⟩
  | cons task tasks ih =>
    rw [Backend.requeueEach] at hr
    obtain ⟨hnot, hnodup⟩ := List.nodup_cons.mp hnodup
    obtain ⟨t₀, hfind, hst⟩ := htasks task List.mem_cons_self
    by_cases hs : Stale now ttl task
    · rw [if_pos hs] at hr
      have hids : staleIds now ttl (task :: tasks) = task.id :: staleIds now ttl tasks := by
        simp [staleIds, hs]
      have hc : t₀.state ≠ .completed := by simp [hst]
      have hid₀ : t₀.id = task.id := Table.find?_key hfind
      have hkey : ((t₀.read tier).requeue).id = task.id := hid₀
      rcases (Store.runs_bind T n).mp hr with ⟨y, s₁, hq, hr⟩ | ⟨e, hq, -⟩
      · obtain ⟨-, hs₁⟩ := hB.runs_requeue h hfind hc hq
        -- the other tasks are as they were
        have hother : ∀ t ∈ tasks, ∃ t₁, (l.put (t₀.read tier).requeue).find? t.id = some t₁ ∧
            t₁.state = .claimed := by
          intro t ht
          obtain ⟨t₁, ht₁, hst₁⟩ := htasks t (List.mem_cons_of_mem _ ht)
          have hne : t.id ≠ (t₀.read tier).requeue.id := by
            rw [hkey]
            exact fun he => hnot (he ▸ List.mem_map_of_mem ht)
          exact ⟨t₁, by rw [Table.find?_put, if_neg hne, ht₁], hst₁⟩
        rcases (Store.runs_bind T n).mp hr with ⟨ids, s₂, hrest, hret⟩ | ⟨e, hrest, -⟩
        · obtain ⟨hids', l', hl', hfind'⟩ := ih hs₁ hother hnodup hrest
          cases hids'
          obtain ⟨rfl, rfl⟩ := hret
          refine ⟨by rw [hids], l', hl', fun id => ?_⟩
          rw [hfind', hids]
          unfold sweep
          rw [Table.find?_put, hkey]
          by_cases hid : id = task.id
          · subst hid
            have hnot' : task.id ∉ staleIds now ttl tasks := fun hmem =>
              hnot (List.map_subset _ List.filter_sublist.subset hmem)
            rw [if_neg hnot', if_pos rfl, if_pos List.mem_cons_self, hfind]
            rfl
          · simp [hid]
        · obtain ⟨hx, -⟩ := ih hs₁ hother hnodup hrest
          cases hx
      · obtain ⟨hx, -⟩ := hB.runs_requeue h hfind hc hq
        cases hx
    · rw [if_neg hs] at hr
      have hids : staleIds now ttl (task :: tasks) = staleIds now ttl tasks := by
        simp [staleIds, hs]
      rw [hids]
      exact ih h (fun t ht => htasks t (List.mem_cons_of_mem _ ht)) hnodup hr

/-- **Sweeps.** `requeue_stale` puts the stale tasks among the claimed ones it is shown back. -/
theorem runs_requeueStaleAt {now : Time} {ttl : Int} {x : Except PyError (List String)}
    (h : Holds s l) (hr : T.Runs n (B.requeueStaleAt ttl now) s x s') :
    x = .ok (staleIds now ttl (shown s l .claimed 50)) ∧
      ∃ l', Holds s' l' ∧
        ∀ id, l'.find? id = sweep tier (staleIds now ttl (shown s l .claimed 50)) l id := by
  have hlist : ∀ y s₁, T.Runs n B.listClaimed s y s₁ ↔
      y = .ok (shown s l .claimed 50) ∧ s₁ = s := fun _ _ => hB.list h (by decide)
  rw [Backend.requeueStaleAt, Store.runs_bind_of T n hlist] at hr
  refine hB.runs_requeueEach h (fun t ht => ?_) (hB.nodup_shown h) hr
  obtain ⟨t₀, hfind, -, hst⟩ := hB.mem_shown h ht
  exact ⟨t₀, hfind, hst⟩

theorem runs_requeueStale {ttl : Int} {x : Except PyError (List String)} (h : Holds s l)
    (hr : T.Runs n (B.requeueStale ttl) s x s') :
    ∃ now, x = .ok (staleIds now ttl (shown s l .claimed 50)) ∧
      ∃ l', Holds s' l' ∧
        ∀ id, l'.find? id = sweep tier (staleIds now ttl (shown s l .claimed 50)) l id := by
  obtain ⟨now, hr⟩ := hB.now_bind hr
  exact ⟨now, hB.runs_requeueStaleAt h hr⟩

end Serves

/-! ### `list_all` -/

section ListAll

variable {S : Sig} {B : Backend S} {T : Store S} {n : Nat} {s s' : T.State} {limit : Nat}
  {listed : TaskState → List Task} {x : Except PyError (List Task)}

/-- The loop of `list_all`, on a backend that lists `listed`. -/
theorem runs_listStates {states : List TaskState}
    (hlist : ∀ st ∈ states, ∀ y s₁, T.Runs n (B.listByState st limit) s y s₁ ↔
      y = .ok (listed st) ∧ s₁ = s) :
    T.Runs n (B.listStates limit states) s x s' ↔ x = .ok (states.flatMap listed) ∧ s' = s := by
  induction states generalizing x s' with
  | nil => rfl
  | cons st states ih =>
    have hrest : ∀ y s₁, T.Runs n (B.listStates limit states) s y s₁ ↔
        y = .ok (states.flatMap listed) ∧ s₁ = s :=
      fun _ _ => ih fun st' h' => hlist st' (List.mem_cons_of_mem _ h')
    rw [Backend.listStates, Store.runs_bind_of T n (hlist st List.mem_cons_self),
      Store.runs_bind_of T n hrest]
    rfl

/-- `list_all`. -/
theorem runs_listAll (hlist : ∀ st ∈ allStates, ∀ y s₁, T.Runs n (B.listByState st limit) s y s₁ ↔
      y = .ok (listed st) ∧ s₁ = s) :
    T.Runs n (B.listAll limit) s x s' ↔
      x = .ok ((allStates.flatMap listed).take limit) ∧ s' = s := by
  rw [Backend.listAll, Store.runs_bind_of T n fun _ _ => runs_listStates hlist]
  rfl

end ListAll

/-! ## Sessions -/

/-- What a call makes of board `l`: it moves tasks, and adds the one it creates. -/
structure Follows (tier : Task → Int) (l l' : Board) (new : Option Task) : Prop where
  old : ∀ {id t}, l.find? id = some t → ∃ t', l'.find? id = some t' ∧ (t' = t ∨ Moved (t.read tier) t')
  added : ∀ task ∈ new, l'.find? task.id = some task
  only : ∀ {id}, (l'.find? id).isSome → (l.find? id).isSome ∨ ∃ task ∈ new, task.id = id

section Follows

variable {tier : Task → Int} {l l' : Board}

theorem Follows.refl (l : Board) : Follows tier l l none :=
  ⟨fun h => ⟨_, h, Or.inl rfl⟩, (fun _ h => by cases h), fun h => Or.inl h⟩

/-- A call that moved one task. -/
theorem follows_put {t₀ t : Task} (hfind : l.find? t.id = some t₀) (hm : Moved (t₀.read tier) t) :
    Follows tier l (l.put t) none := by
  refine ⟨fun {id t₁} h => ?_, (fun _ h => by cases h), fun {id} h => ?_⟩
  · rw [Table.find?_put]
    by_cases hid : id = t.id
    · subst hid
      rw [hfind] at h
      cases h
      exact ⟨t, if_pos rfl, Or.inr hm⟩
    · exact ⟨t₁, by rw [if_neg hid, h], Or.inl rfl⟩
  · rw [Table.find?_put] at h
    by_cases hid : id = t.id
    · subst hid
      rw [hfind]
      exact Or.inl rfl
    · rw [if_neg hid] at h
      exact Or.inl h

/-- A call that created a task. -/
theorem follows_create {task : Task} (hnew : l.find? task.id = none) :
    Follows tier l (l.put task) (some task) := by
  refine ⟨fun {id t₁} h => ?_, fun t ht => ?_, fun {id} h => ?_⟩
  · have hid : id ≠ task.id := fun he => by simp [he, hnew] at h
    exact ⟨t₁, by rw [Table.find?_put, if_neg hid, h], Or.inl rfl⟩
  · obtain rfl := Option.mem_some_iff.mp ht
    rw [Table.find?_put, if_pos rfl]
  · by_cases hid : id = task.id
    · exact Or.inr ⟨task, rfl, hid.symm⟩
    · rw [Table.find?_put, if_neg hid] at h
      exact Or.inl h

/-- A sweep of tasks that are not completed. -/
theorem follows_sweep {ids : List String}
    (hids : ∀ id ∈ ids, ∀ t, l.find? id = some t → t.state ≠ .completed)
    (h : ∀ id, l'.find? id = sweep tier ids l id) : Follows tier l l' none := by
  refine ⟨fun {id t} ht => ?_, (fun _ h => by cases h), fun {id} hs => ?_⟩
  · rw [h, sweep]
    by_cases hid : id ∈ ids
    · rw [if_pos hid, ht]
      exact ⟨_, rfl, Or.inr (.requeue (hids id hid t ht))⟩
    · exact ⟨t, by rw [if_neg hid, ht], Or.inl rfl⟩
  · rw [h, sweep] at hs
    split at hs
    · exact Or.inl (by simpa using hs)
    · exact Or.inl hs

theorem Changed.follows {σ : Type} {Holds : σ → Board → Prop} {s s' : σ}
    {x : Except PyError (Option Task)} (h : Changed Holds tier l s s' x) (hl : Holds s l) :
    ∃ l', Holds s' l' ∧ Follows tier l l' none := by
  cases h with
  | nothing h => exact ⟨l, h ▸ hl, .refl l⟩
  | moved hfind hm hs => exact ⟨_, hs, follows_put hfind hm⟩

end Follows

/-- A sweep by `requeue_stale`. -/
theorem Serves.follows_of_requeueStale {S : Sig} {B : Backend S} {T : Store S}
    {Holds : T.State → Board → Prop} {tier : Task → Int}
    {shown : T.State → Board → TaskState → Nat → List Task} (hB : Serves B T Holds tier shown)
    {n : Nat} {s s' : T.State} {l : Board} {ttl : Int} {x : Except PyError (List String)}
    (h : Holds s l) (hr : T.Runs n (B.requeueStale ttl) s x s') :
    ∃ l', Holds s' l' ∧ Follows tier l l' none := by
  obtain ⟨now, -, l', hl', hfind⟩ := hB.runs_requeueStale h hr
  refine ⟨l', hl', follows_sweep (fun id hid t ht => ?_) hfind⟩
  obtain ⟨t', ht', rfl⟩ := List.mem_map.mp hid
  obtain ⟨t₀, hfind₀, -, hst⟩ := hB.mem_shown h (List.mem_filter.mp ht').1
  rw [ht] at hfind₀
  obtain rfl := Option.some.inj hfind₀
  simp [hst]

/-- What a session leaves: a board with the tasks created, each the same work (`R`) as when it was
created. -/
structure Carries (R : Task → Task → Prop) (l : Board) (created : List Task) : Prop where
  kept : ∀ task ∈ created, ∃ t, l.find? task.id = some t ∧ R task t
  only : ∀ {id}, (l.find? id).isSome → ∃ task ∈ created, task.id = id
  nodup : (created.map Task.id).Nodup

theorem Carries.next {R : Task → Task → Prop} {tier : Task → Int} {l l' : Board}
    {created : List Task} {new : Option Task} (hrefl : ∀ t, R t t)
    (hmove : ∀ {task t t'}, R task t → Moved (t.read tier) t' → R task t') (h : Carries R l created)
    (hf : Follows tier l l' new) (hnew : Fresh created new) :
    Carries R l' (created ++ new.toList) := by
  have hmem : ∀ {task : Task}, task ∈ new.toList → task ∈ new := fun h => Option.mem_toList.mp h
  refine ⟨fun task htask => ?_, fun {id} hid => ?_, ?_⟩
  · rcases List.mem_append.mp htask with htask | htask
    · obtain ⟨t, ht, hR⟩ := h.kept task htask
      obtain ⟨t', ht', rfl | hm⟩ := hf.old ht
      · exact ⟨t', ht', hR⟩
      · exact ⟨t', ht', hmove hR hm⟩
    · exact ⟨task, hf.added task (hmem htask), hrefl task⟩
  · rcases hf.only hid with hid | ⟨task, htask, rfl⟩
    · obtain ⟨task, htask, rfl⟩ := h.only hid
      exact ⟨task, List.mem_append_left _ htask, rfl⟩
    · exact ⟨task, List.mem_append_right _ (Option.mem_toList.mpr htask), rfl⟩
  · rw [List.map_append, List.nodup_append]
    refine ⟨h.nodup, ?_, fun a ha b hb => ?_⟩
    · cases new <;> simp
    · obtain ⟨t, ht, rfl⟩ := List.mem_map.mp ha
      obtain ⟨task, htask, rfl⟩ := List.mem_map.mp hb
      exact hnew task (hmem htask) t ht

/-- A call that keeps the board and adds what it creates. -/
def Keeps {S : Sig} (T : Store S) (Q : Api S) (Holds : T.State → Board → Prop)
    (tier : Task → Int) : Prop :=
  ∀ {s s' : T.State} {new : Option Task} {l : Board}, Holds s l → Called T Q s s' new →
    (∀ task ∈ new, l.find? task.id = none) → ∃ l', Holds s' l' ∧ Follows tier l l' new

/-- **Sessions.** Whatever a client calls, the store holds a board that carries what it created. -/
theorem carries_of_session {S : Sig} {T : Store S} {Q : Api S} {Holds : T.State → Board → Prop}
    {tier : Task → Int} {R : Task → Task → Prop} (hQ : Keeps T Q Holds tier) (hrefl : ∀ t, R t t)
    (hmove : ∀ {task t t'}, R task t → Moved (t.read tier) t' → R task t') {s₀ s : T.State}
    {created : List Task} (h₀ : Holds s₀ .empty) (h : Session T Q s₀ s created) :
    ∃ l, Holds s l ∧ Carries R l created := by
  refine session_induction (P := fun s created => ∃ l, Holds s l ∧ Carries R l created) h
    ⟨.empty, h₀, fun _ h => absurd h List.not_mem_nil, fun h => by simp at h, List.nodup_nil⟩ ?_
  rintro s s' created new ⟨l, hl, hcarry⟩ hc hnew
  have hfresh : ∀ task ∈ new, l.find? task.id = none := by
    intro task htask
    rw [← Option.not_isSome_iff_eq_none]
    intro hsome
    obtain ⟨t, ht, hid⟩ := hcarry.only hsome
    exact hnew task htask t ht hid
  obtain ⟨l', hl', hf⟩ := hQ hl hc hfresh
  exact ⟨l', hl', hcarry.next hrefl hmove hf hnew⟩

end TaskQueue

end ClaudeSwarm
