import ClaudeSwarm.TaskQueue.Board
import ClaudeSwarm.TaskQueue.PopOrder
import ClaudeSwarm.TaskQueue.RoundTrip

/-!
# The board on Redis

The server holds a board when the hash of each task has the task's fields, there is no hash but these,
and each of the three sorted sets that `_save` maintains has the tasks of its state (`Holds`). Tasks
that are running or have failed are in no sorted set. The priority of a task that is read is lost
(`RoundTrip.lean`): it counts as `3`.

* `Holds.put`: writes that concern one task.
* **`serves`**: the Redis backend keeps the board, for times that survive `float(str(·))`.
-/

namespace ClaudeSwarm.TaskQueue.Redis

open Interleave Data ClaudeSwarm.Redis
open Python (Time PyError FloatFmt)

/-! ## Holding a board -/

/-- The states that have a sorted set. -/
def indexed : List TaskState := [.pending, .claimed, .completed]

variable (F : FloatFmt)

/-- The hash has the fields of `t`. -/
def Stores (h : Hash) (t : Task) : Prop :=
  ∀ key v, (hashFields F t).lookup key = some v → h.get key = some v

/-- The server holds the board `l`. -/
structure Holds (s : Keys) (l : Board) : Prop where
  hash : ∀ {id t}, l.find? id = some t → Stores F (s.task id) t
  absent : ∀ {id}, l.find? id = none → (s.task id).rows = []
  index : ∀ {st id}, Member s st id ↔ st ∈ indexed ∧ ∃ t, l.find? id = some t ∧ t.state = st
  state : ∀ t ∈ l.rows, t.state ∈ allStates
  tier : ∀ t ∈ l.rows, 0 ≤ t.priority ∧ t.priority ≤ 5
  named : ∀ t ∈ l.rows, t.id ≠ ""

/-- The priority a task is read with. -/
abbrev lostTier (_ : Task) : Int := 3

theorem lostTier_tier (t : Task) : 0 ≤ lostTier t ∧ lostTier t ≤ 5 := by
  show (0 : Int) ≤ 3 ∧ (3 : Int) ≤ 5
  decide

/-- The tasks a listing shows. -/
def shown (s : Keys) (l : Board) (st : TaskState) (k : Nat) : List Task :=
  ((s.tasks st).range ((k : Int) - 1)).filterMap fun id => (l.find? id).map (Task.read lostTier)

variable {F} {n : Nat} {s s' : Keys} {l : Board}

/-! ## Reading -/

/-- A hash with the fields of `t` reads as `t`, except for the priority. -/
theorem fromDict_of_stores {h : Hash} {t : Task} (hF : F.RoundTrips) (hS : Stores F h t)
    (hp : 0 ≤ t.priority ∧ t.priority ≤ 5) (uuid : String) :
    Task.fromDict F uuid (dictOf h) = .ok (t.read lostTier) := by
  have hset : dictOf h = dictOf (h.set (hashFields F t)) := by
    funext key
    have hget : h.get key = (h.set (hashFields F t)).get key := by
      rw [Hash.get_set nodup_hashFields]
      cases hl : (hashFields F t).lookup key with
      | none => rfl
      | some v => exact hS key v hl
    unfold dictOf
    rw [hget]
  rw [hset]
  exact fromDict_hashFields h uuid hp ⟨hF _, hF _, hF _⟩

theorem stores_set (h : Hash) (t : Task) : Stores F (h.set (hashFields F t)) t := by
  intro key v hv
  rw [Hash.get_set nodup_hashFields, hv]
  rfl

theorem Stores.rows_ne_nil {h : Hash} {t : Task} (hS : Stores F h t) : h.rows ≠ [] := by
  intro he
  have hid : (hashFields F t).lookup "id" = some t.id := by
    rw [lookup_hashFields]
    simp [Task.toDict, text]
  have hget := hS "id" t.id hid
  simp [Hash.get, Table.find?, he] at hget

theorem runs_fromHash_of {h : Hash} {t : Task} {x : Except PyError Task}
    (hF : F.RoundTrips) (hS : Stores F h t) (hp : 0 ≤ t.priority ∧ t.priority ≤ 5) :
    store.Runs n (fromHash F h) s x s' ↔ x = .ok (t.read lostTier) ∧ s' = s := by
  constructor
  · intro hr
    obtain ⟨uuid, rfl, rfl⟩ := runs_fromHash hr
    exact ⟨fromDict_of_stores hF hS hp uuid, rfl⟩
  · rintro ⟨rfl, rfl⟩
    refine ⟨⟨0, "", "", ""⟩, "", s', rfl, ?_⟩
    exact (Store.runs_ofExcept store n _ _ _ _).mpr
      ⟨(fromDict_of_stores hF hS hp "").symm, rfl⟩

theorem runs_getTask_iff {id : String} {x : Except PyError (Option Hash)} :
    store.Runs n (Client.getTask id) s x s' ↔
      x = .ok (if (s.task id).rows = [] then none else some (s.task id)) ∧ s' = s := by
  constructor
  · exact Client.runs_getTask
  · rintro ⟨rfl, rfl⟩
    exact ⟨⟨0, "", "", ""⟩, _, s', rfl, rfl, rfl⟩

/-- `_redis_get`. -/
theorem runs_redisGet (hF : F.RoundTrips) (h : Holds F s l) {id : String}
    {x : Except PyError (Option Task)} :
    store.Runs n (redisGet F id) s x s' ↔
      x = .ok ((l.find? id).map (Task.read lostTier)) ∧ s' = s := by
  rw [redisGet, Store.runs_bind_of store n fun _ _ => runs_getTask_iff]
  cases hid : l.find? id with
  | none =>
    rw [if_pos (h.absent hid)]
    rfl
  | some t =>
    have hS := h.hash hid
    have hread := fun (x : Except PyError Task) s₁ =>
      @runs_fromHash_of _ n s s₁ _ _ x hF hS (h.tier t (Table.find?_mem hid))
    rw [if_neg hS.rows_ne_nil]
    exact Store.runs_bind_of store n hread

theorem mem_range {z : ZSet} {stop : Int} {id : String} (h : id ∈ z.range stop) :
    (z.score id).isSome := by
  obtain ⟨m, hm, rfl⟩ := List.mem_map.mp h
  rw [ZSet.score_of_mem (ZSet.mem_sorted.mp (List.mem_of_mem_take hm))]
  rfl

theorem nodup_range (z : ZSet) (stop : Int) : (z.range stop).Nodup := by
  have hsorted : (z.sorted.map Prod.fst).Nodup :=
    ((List.perm_insertionSort _ z.rows).map Prod.fst).nodup_iff.mpr z.nodup
  exact hsorted.sublist ((List.take_sublist _ _).map Prod.fst)

/-- Rebuilding the tasks of hashes that store them. -/
theorem runs_fromHashes (hF : F.RoundTrips) (h : Holds F s l) {ids : List String}
    {x : Except PyError (List Task)} (hids : ∀ id ∈ ids, ∃ t, l.find? id = some t) :
    store.Runs n (fromHashes F (ids.map s.task)) s x s' ↔
      x = .ok (ids.filterMap fun id => (l.find? id).map (Task.read lostTier)) ∧ s' = s := by
  induction ids generalizing x s' with
  | nil => rfl
  | cons id ids ih =>
    obtain ⟨t, ht⟩ := hids id List.mem_cons_self
    have hread := fun (x : Except PyError Task) s₁ =>
      @runs_fromHash_of _ n s s₁ _ _ x hF (h.hash ht) (h.tier t (Table.find?_mem ht))
    have ih := fun (x : Except PyError (List Task)) s₁ =>
      @ih s₁ x fun id' hid' => hids id' (List.mem_cons_of_mem _ hid')
    rw [List.map_cons, fromHashes, Store.runs_bind_of store n hread, Store.runs_bind_of store n ih,
      List.filterMap_cons, ht]
    rfl

/-- `_list_by_state`. -/
theorem runs_listByState (hF : F.RoundTrips) (h : Holds F s l) {st : TaskState} {k : Nat}
    {x : Except PyError (List Task)} :
    store.Runs n (listByState F st k) s x s' ↔ x = .ok (shown s l st k) ∧ s' = s := by
  have hids : ∀ id ∈ (s.tasks st).range ((k : Int) - 1), ∃ t, l.find? id = some t := by
    intro id hid
    obtain ⟨-, t, ht, -⟩ := h.index.mp (mem_range hid)
    exact ⟨t, ht⟩
  have hlist : ∀ y s₁, store.Runs n (Client.listTasks st k) s y s₁ ↔
      y = .ok (((s.tasks st).range ((k : Int) - 1)).map s.task) ∧ s₁ = s := by
    intro y s₁
    have hzrange : store.Runs n (Client.listTasks st k) s y s₁ ↔ store.Runs n
        (if (s.tasks st).range ((k : Int) - 1) = [] then (return [] : P (List Hash)) else do
          let tasks ← cmd (.hgetalls ((s.tasks st).range ((k : Int) - 1)))
          return tasks.filter fun t => t.rows ≠ []) s y s₁ :=
      Store.runs_bind_of store n fun _ _ => by
        rw [ClaudeSwarm.Redis.runs_cmd]
        constructor
        · rintro ⟨i, x, hx, rfl⟩
          cases hx
          exact ⟨rfl, rfl⟩
        · rintro ⟨rfl, rfl⟩
          exact ⟨⟨0, "", "", ""⟩, _, rfl, rfl⟩
    rw [hzrange]
    split
    · rename_i hnil
      rw [hnil]
      rfl
    · have hfilter : (((s.tasks st).range ((k : Int) - 1)).map s.task).filter
          (fun t => decide (t.rows ≠ [])) = ((s.tasks st).range ((k : Int) - 1)).map s.task := by
        refine List.filter_eq_self.mpr fun hash hhash => ?_
        obtain ⟨id, hid, rfl⟩ := List.mem_map.mp hhash
        obtain ⟨t, ht⟩ := hids id hid
        simpa using (h.hash ht).rows_ne_nil
      constructor
      · rintro ⟨i, tasks, s₂, hx, rfl, rfl⟩
        cases hx
        exact ⟨by rw [hfilter], rfl⟩
      · rintro ⟨rfl, rfl⟩
        exact ⟨⟨0, "", "", ""⟩, _, s₁, rfl, by rw [hfilter], rfl⟩
  rw [listByState, Store.runs_bind_of store n hlist]
  exact runs_fromHashes hF h hids

/-! ## Writing -/

/-- A task put on the board, where its hash has its fields, its state's sorted set has it and no other
one, and nothing else has changed. -/
theorem Holds.put {t : Task} (h : Holds F s l) (hst : t.state ∈ allStates)
    (htier : 0 ≤ t.priority ∧ t.priority ≤ 5) (hid : t.id ≠ "")
    (hother : ∀ id, id ≠ t.id → SameAt s s' id) (hhash : Stores F (s'.task t.id) t)
    (hindex : ∀ st, Member s' st t.id ↔ st ∈ indexed ∧ t.state = st) : Holds F s' (l.put t) := by
  refine ⟨fun {id t'} ht' => ?_, fun {id} hnone => ?_, fun {st id} => ?_, fun t' ht' => ?_,
    fun t' ht' => ?_, fun t' ht' => ?_⟩
  · rw [Table.find?_put] at ht'
    by_cases hid : id = t.id
    · subst hid
      rw [if_pos rfl] at ht'
      cases ht'
      exact hhash
    · rw [if_neg hid] at ht'
      rw [(hother id hid).task]
      exact h.hash ht'
  · rw [Table.find?_put] at hnone
    by_cases hid : id = t.id
    · simp [hid] at hnone
    · rw [if_neg hid] at hnone
      rw [(hother id hid).task]
      exact h.absent hnone
  · rw [Table.find?_put]
    by_cases hid : id = t.id
    · subst hid
      rw [if_pos rfl, hindex]
      simp
    · rw [if_neg hid, (hother id hid).member]
      exact h.index
  · rcases Table.mem_put.mp ht' with ⟨hmem, -⟩ | rfl
    · exact h.state t' hmem
    · exact hst
  · rcases Table.mem_put.mp ht' with ⟨hmem, -⟩ | rfl
    · exact h.tier t' hmem
    · exact htier
  · rcases Table.mem_put.mp ht' with ⟨hmem, -⟩ | rfl
    · exact h.named t' hmem
    · exact hid

/-- What `_save` executes before it puts the task into a sorted set. -/
def dropWrites (F : FloatFmt) (t : Task) : List Write :=
  [.hset t.id (hashFields F t), .zrem .pending t.id, .zrem .claimed t.id, .zrem .completed t.id]

/-- What `_save` executes. -/
def saveWrites (F : FloatFmt) (t : Task) : List Write :=
  dropWrites F t ++ if t.state ∈ indexed then [.zadd t.state t.id (scoreOf t)] else []

theorem mem_indexed {st : TaskState} :
    st ∈ indexed ↔ st = .pending ∨ st = .claimed ∨ st = .completed := by
  simp [indexed]

/-- `_save`, run alone. -/
theorem runs_save {t : Task} {x : Except PyError Unit} (hr : store.Runs n (save F t) s x s') :
    x = .ok () ∧ s' = runAll (saveWrites F t) s := by
  obtain ⟨i₁, x₁, s₁, h₁, i₂, x₂, s₂, h₂, i₃, x₃, s₃, h₃, i₄, x₄, s₄, h₄, hr⟩ := hr
  cases h₁
  cases h₂
  cases h₃
  cases h₄
  unfold saveWrites
  by_cases hst : t.state = .pending ∨ t.state = .claimed ∨ t.state = .completed
  · rw [if_pos (mem_indexed.mpr hst)]
    rw [if_pos hst] at hr
    obtain ⟨rfl, rfl⟩ := runs_exec.mp hr
    exact ⟨rfl, rfl⟩
  · rw [if_neg (mt mem_indexed.mp hst)]
    rw [if_neg hst] at hr
    exact hr

/-- The writes of `_save` concern one task. -/
theorem writeId_saveWrites {t : Task} : ∀ w ∈ saveWrites F t, writeId w = t.id := by
  have hdrop : ∀ w ∈ dropWrites F t, writeId w = t.id := by simp [dropWrites, writeId]
  intro w hw
  rcases List.mem_append.mp hw with hw | hw
  · exact hdrop w hw
  · split at hw
    · rw [List.mem_singleton.mp hw]
      rfl
    · exact absurd hw List.not_mem_nil

theorem runAll_append (ws ws' : List Write) (s : Keys) :
    runAll (ws ++ ws') s = runAll ws' (runAll ws s) := List.foldl_append

theorem member_zadd {st st' : TaskState} {id : String} {score : Int} :
    Member (runAll [.zadd st' id score] s) st id ↔ st = st' ∨ Member s st id := by
  by_cases hst : st = st'
  · subst hst
    simp [Member, Write.run]
  · simp [Member, Write.run, hst]

/-- Before it is put into a sorted set, the task is in none. -/
theorem not_member_dropped {t : Task} (h : Holds F s l) (st : TaskState) :
    ¬ Member (runAll (dropWrites F t) s) st t.id := by
  intro hm
  by_cases hst : st ∈ indexed
  · rcases mem_indexed.mp hst with rfl | rfl | rfl <;>
      simp [Member, dropWrites, Write.run] at hm
  · simp only [mem_indexed, not_or] at hst
    obtain ⟨hp, hc, hd⟩ := hst
    have hm' : Member s st t.id := by
      simpa [Member, dropWrites, Write.run, hp, hc, hd] using hm
    obtain ⟨hmem, -⟩ := h.index.mp hm'
    rcases mem_indexed.mp hmem with rfl | rfl | rfl <;> contradiction

/-- `_save` rewrites a task. -/
theorem Holds.save {t : Task} {x : Except PyError Unit} (h : Holds F s l)
    (hst : t.state ∈ allStates) (htier : 0 ≤ t.priority ∧ t.priority ≤ 5) (hid : t.id ≠ "")
    (hr : store.Runs n (save F t) s x s') : x = .ok () ∧ Holds F s' (l.put t) := by
  obtain ⟨rfl, rfl⟩ := runs_save hr
  have hother : ∀ id, id ≠ t.id → SameAt s (runAll (saveWrites F t) s) id := fun id hne =>
    sameAt_runAll fun w hw => writeId_saveWrites w hw ▸ hne
  refine ⟨rfl, h.put hst htier hid hother ?_ fun st => ?_⟩
  · have htask : (runAll (saveWrites F t) s).task t.id = (s.task t.id).set (hashFields F t) := by
      unfold saveWrites dropWrites
      split <;> simp [Write.run]
    rw [htask]
    exact stores_set _ t
  · have hout := not_member_dropped (t := t) h st
    rw [saveWrites, runAll_append]
    by_cases hi : t.state ∈ indexed
    · rw [if_pos hi, member_zadd]
      exact ⟨fun h => h.elim (fun he => ⟨he ▸ hi, he.symm⟩) fun hm => absurd hm hout,
        fun h => Or.inl h.2.symm⟩
    · rw [if_neg hi]
      exact ⟨fun hm => absurd hm hout, fun h => absurd (h.2 ▸ h.1) hi⟩

/-! ## The claim of the next task -/

/-- What the claim script writes leaves the fields of the claimed task. -/
theorem stores_claimed {h : Hash} {t : Task} (hS : Stores F h t) (claimer : String) (now : Time) :
    Stores F (h.set [("state", "claimed"), ("claimed_at", F.str now), ("claimed_by", claimer)])
      (t.claim claimer now) := by
  intro key v hv
  rw [Hash.get_set (by simp)]
  rw [lookup_hashFields] at hv
  by_cases hst : key = "state"
  · subst hst
    simpa [Task.toDict, Task.claim, List.lookup_cons, text, TaskState.str] using hv
  by_cases hat : key = "claimed_at"
  · subst hat
    simpa [Task.toDict, Task.claim, List.lookup_cons, text] using hv
  by_cases hby : key = "claimed_by"
  · subst hby
    simpa [Task.toDict, Task.claim, List.lookup_cons, text] using hv
  · have hkept : (t.claim claimer now).toDict.lookup key = t.toDict.lookup key := by
      simp [Task.toDict, Task.claim, List.lookup_cons, beq_false_of_ne, hst, hat, hby]
    rw [hkept, ← lookup_hashFields] at hv
    simpa [List.lookup_cons, beq_false_of_ne, hst, hat, hby] using hS key v hv

/-- `redis_client.claim_task`, run alone. -/
theorem runs_claimTask {claimer : String} {x : Except PyError (Option String)}
    (hr : store.Runs n (Client.claimTask F claimer) s x s') :
    ∃ (now : Time) (id : Option String), x = .ok id ∧ claimScript (F.str now) claimer s = (id, s') := by
  obtain ⟨i₁, x₁, s₁, h₁, i₂, x₂, s₂, h₂, rfl, rfl⟩ := hr
  cases h₁
  exact ⟨_, x₂, rfl, Option.some.inj h₂⟩

/-- The claim script claims a task of the board. -/
theorem Holds.claimWrites {id claimer : String} {now : Time} {score : Int} (h : Holds F s l)
    (hm : (s.tasks .pending).min? = some (id, score)) :
    ∃ t, l.find? id = some t ∧ t.state = .pending ∧
      Holds F (runAll (claimWrites (F.str now) claimer id score) s) (l.put (t.claim claimer now)) := by
  have hmem : Member s .pending id := by
    rw [Member, ZSet.score_of_mem (ZSet.min?_mem hm)]
    rfl
  obtain ⟨-, t, ht, hp⟩ := h.index.mp hmem
  have hid : t.id = id := Table.find?_key ht
  subst hid
  have hrow := Table.find?_mem ht
  refine ⟨t, ht, hp, h.put (by simp [allStates, Task.claim]) (h.tier t hrow) (h.named t hrow)
    (fun id hne => sameAt_runAll fun w hw => ?_) ?_ fun st => ?_⟩
  · simp only [ClaudeSwarm.Redis.claimWrites, List.mem_cons, List.not_mem_nil, or_false] at hw
    rcases hw with rfl | rfl | rfl <;> exact hne
  · have hS := stores_claimed (h.hash ht) claimer now
    simpa [ClaudeSwarm.Redis.claimWrites, Write.run, Task.claim] using hS
  · have hother : st ≠ .pending → ¬ Member s st t.id := by
      intro hne hm
      obtain ⟨-, t', ht', rfl⟩ := h.index.mp hm
      rw [ht] at ht'
      cases ht'
      exact hne hp
    unfold Member at hother ⊢
    by_cases hc : st = .claimed
    · subst hc
      simp [ClaudeSwarm.Redis.claimWrites, Write.run, indexed, Task.claim]
    · have hc' : TaskState.claimed ≠ st := Ne.symm hc
      by_cases hpend : st = .pending
      · subst hpend
        simp [ClaudeSwarm.Redis.claimWrites, Write.run, Task.claim]
      · simpa [ClaudeSwarm.Redis.claimWrites, Write.run, Task.claim, hc, hc', hpend]
          using hother hpend

/-- `_redis_save` rewrites the hash of a task and leaves the sorted sets. -/
theorem Holds.redisSave {t₀ t : Task} (h : Holds F s l) (ht₀ : l.find? t.id = some t₀)
    (hst : t.state = t₀.state) (htier : 0 ≤ t.priority ∧ t.priority ≤ 5) :
    Holds F (runAll [.hset t.id (hashFields F t)] s) (l.put t) := by
  have hrow := Table.find?_mem ht₀
  have hid : t₀.id = t.id := Table.find?_key ht₀
  refine h.put (hst ▸ h.state t₀ hrow) htier (hid ▸ h.named t₀ hrow)
    (fun id hne => sameAt_runAll fun w hw => ?_) ?_ fun st => ?_
  · rw [List.mem_singleton.mp hw]
    exact hne
  · have hS := stores_set (F := F) (s.task t.id) t
    simpa [Write.run] using hS
  · refine (@Holds.index _ _ _ h st t.id).trans ?_
    rw [ht₀, hst]
    simp

/-- `_redis_claim`, once the script has popped a task. -/
theorem runs_redisClaimed {t : Task} {claimer : String} {now : Time}
    {x : Except PyError (Option Task)} (h : Holds F s (l.put (t.claim claimer now)))
    (hr : store.Runs n (cmd .now >>= fun now' => redisSave F ((t.read lostTier).claim claimer now')
      >>= fun _ => .ret (some ((t.read lostTier).claim claimer now'))) s x s') :
    ∃ now', x = .ok (some ((t.read lostTier).claim claimer now')) ∧
      Holds F s' (l.put ((t.read lostTier).claim claimer now')) := by
  obtain ⟨i, y, s₁, hy, hr⟩ := hr
  cases hy
  have hr : store.Runs n (redisSave F ((t.read lostTier).claim claimer i.now) >>= fun _ =>
      .ret (some ((t.read lostTier).claim claimer i.now))) s x s' := hr
  rcases (Store.runs_bind store n).mp hr with ⟨_, s₂, hsave, rfl, rfl⟩ | ⟨e, hsave, -⟩
  · obtain ⟨-, rfl⟩ := runs_exec.mp hsave
    have hfind : (l.put (t.claim claimer now)).find? t.id = some (t.claim claimer now) := by
      rw [Table.find?_put]
      exact if_pos rfl
    have hs := h.redisSave (t := (t.read lostTier).claim claimer i.now) hfind rfl (lostTier_tier t)
    rw [@Table.put_put _ _ _ _ _ (t.claim claimer now) ((t.read lostTier).claim claimer i.now) rfl]
      at hs
    exact ⟨i.now, rfl, hs⟩
  · cases (runs_exec.mp hsave).1

/-- `_redis_claim`. -/
theorem changed_of_redisClaim {claimer : String} {x : Except PyError (Option Task)}
    (hF : F.RoundTrips) (h : Holds F s l)
    (hr : store.Runs n (redisClaim F claimer) s x s') :
    Changed (Holds F) lostTier l s s' x := by
  rcases (Store.runs_bind store n).mp hr with ⟨o, s₁, hc, hr⟩ | ⟨e, hc, -⟩
  · obtain ⟨now, o', ho, hscript⟩ := runs_claimTask hc
    cases ho
    cases hm : (s.tasks .pending).min? with
    | none =>
      rw [claimScript_of_none hm] at hscript
      cases hscript
      obtain ⟨rfl, rfl⟩ := hr
      exact .nothing rfl
    | some m =>
      obtain ⟨id, score⟩ := m
      rw [claimScript_of_some hm] at hscript
      cases hscript
      obtain ⟨t, ht, hp, hl₁⟩ := @Holds.claimWrites _ _ _ _ claimer now _ h hm
      have hid : t.id = id := Table.find?_key ht
      subst hid
      have hrow := Table.find?_mem ht
      have hfind₁ : (l.put (t.claim claimer now)).find? t.id = some (t.claim claimer now) := by
        rw [Table.find?_put]
        exact if_pos rfl
      have hget := fun (y : Except PyError (Option Task)) s₂ =>
        @runs_redisGet _ n _ s₂ _ hF hl₁ t.id y
      simp only at hr
      rw [if_neg (h.named t hrow), Store.runs_bind_of store n hget, hfind₁] at hr
      obtain ⟨now', rfl, hs⟩ := runs_redisClaimed hl₁ hr
      exact .moved ht (.claim claimer now' hp) hs
  · obtain ⟨-, o, ho, -⟩ := runs_claimTask hc
    cases ho

/-! ## The backend -/

/-- **The Redis backend keeps the board.** -/
theorem serves (hF : F.RoundTrips) : Serves (backend F) store (Holds F) lostTier shown where
  get := fun h => runs_redisGet hF h
  save := by
    intro n s l t₀ t x s' h hfind hm hr
    have hrow := Table.find?_mem hfind
    have hid : t₀.id = t.id := Table.find?_key hfind
    refine h.save hm.state_mem ?_ (hid ▸ h.named t₀ hrow) hr
    rw [hm.priority]
    exact lostTier_tier t₀
  now := by
    rintro n s x s' ⟨i, y, s₁, hy, rfl, rfl⟩
    cases hy
    exact ⟨i.now, rfl, rfl⟩
  list := fun h _ => runs_listByState hF h
  mem_shown := by
    intro s l st k t h ht
    obtain ⟨id, hid, ht⟩ := List.mem_filterMap.mp ht
    obtain ⟨t₀, ht₀, rfl⟩ := Option.map_eq_some_iff.mp ht
    obtain ⟨-, t₁, ht₁, hst⟩ := h.index.mp (mem_range hid)
    rw [ht₀] at ht₁
    cases ht₁
    have hkey : t₀.id = id := Table.find?_key ht₀
    exact ⟨t₀, by rw [← ht₀, ← hkey]; rfl, rfl, hst⟩
  nodup_shown := by
    intro s l st k h
    refine List.Nodup.sublist ?_ (nodup_range (s.tasks st) ((k : Int) - 1))
    unfold shown
    induction (s.tasks st).range ((k : Int) - 1) with
    | nil => exact List.Sublist.refl _
    | cons id ids ih =>
      cases ht : l.find? id with
      | none =>
        rw [List.filterMap_cons, ht]
        exact ih.cons id
      | some t =>
        have hkey : t.id = id := Table.find?_key ht
        rw [List.filterMap_cons, ht, ← hkey]
        exact ih.cons_cons t.id

/-- Every call of the queue changes nothing or moves one task. -/
theorem changed_of_call (hF : F.RoundTrips) {o : Op} {x : Except PyError (Option Task)}
    (h : Holds F s l) (hr : store.Runs n (o.prog (backend F)) s x s') :
    Changed (Holds F) lostTier l s s' x :=
  (serves hF).changed_of_op (fun hr => changed_of_redisClaim hF h hr) h hr

theorem holds_empty : Holds F .empty .empty where
  hash h := by cases h
  absent _ := rfl
  index := by simp [Member, Keys.empty, ZSet.score]
  state _ h := absurd h List.not_mem_nil
  tier _ h := absurd h List.not_mem_nil
  named _ h := absurd h List.not_mem_nil

/-- A created task enters the board. -/
theorem Holds.create {title description project createdBy : String} {priority : Val}
    {requires : List String} {estimated : Int} {task : Task} (h : Holds F s l)
    (hnew : l.find? task.id = none)
    (hr : store.Runs n (create F title description project priority requires estimated createdBy) s
      (.ok task) s') : Holds F s' (l.put task) := by
  have hs' := runs_create hr
  obtain ⟨i₁, x₁, s₁, h₁, i₂, x₂, s₂, h₂, i₃, x₃, s₃, h₃, i₄, x₄, s₄, h₄, hret, -⟩ := hr
  have htask := Except.ok.inj hret
  have hst : task.state = .pending := by rw [htask]
  have hp : task.priority = normalizePriority priority := by rw [htask]
  have hid : task.id ≠ "" := by
    rw [htask]
    intro he
    have := congrArg String.toList he
    simp at this
  refine h.put (by rw [hst]; decide) (hp ▸ normalizePriority_tier priority) hid (fun id hne => ?_) ?_
    fun st => ?_
  · rw [hs']
    refine sameAt_runAll fun w hw => ?_
    simp only [List.mem_cons, List.not_mem_nil, or_false] at hw
    rcases hw with rfl | rfl <;> exact hne
  · rw [hs']
    have hS := stores_set (F := F) (s.task task.id) task
    simpa [Write.run] using hS
  · have hnot : ¬ Member s st task.id := fun hm => by
      obtain ⟨-, t, ht, -⟩ := h.index.mp hm
      rw [hnew] at ht
      cases ht
    have hmem : Member s' st task.id ↔ st = .pending ∨ Member s st task.id := by
      rw [hs']
      exact member_zadd (s := runAll [.hset task.id (hashFields F task)] s)
    rw [hmem, hst]
    constructor
    · rintro (rfl | hm)
      · exact ⟨by decide, rfl⟩
      · exact absurd hm hnot
    · exact fun h => Or.inl h.2.symm

/-- **Every call keeps the board.** -/
theorem keeps (hF : F.RoundTrips) : Keeps store (api F) (Holds F) lostTier := by
  intro s s' new l hl hc hnew
  cases hc with
  | create hr =>
    have hfree := hnew _ rfl
    exact ⟨_, hl.create hfree hr, follows_create hfree⟩
  | call hr => exact (changed_of_call hF hl hr).follows hl
  | requeueStale hr => exact (serves hF).follows_of_requeueStale hl hr

/-! ## A created task -/

/-- What `create` returns for a task of priority `p`, with `i` read from outside. -/
def newTask (i : Env) (p : Int) : Task where
  id := "task-" ++ i.uuid
  title := "t"
  priority := clampPriority p
  createdBy := i.host
  createdAt := i.now

/-- The server after it. -/
def withTask (s : Keys) (i : Env) (p : Int) : Keys :=
  runAll [.hset (newTask i p).id (hashFields Python.exact (newTask i p)),
    .zadd .pending (newTask i p).id (scoreOf (newTask i p))] s

theorem runs_withTask (s : Keys) (i : Env) (p : Int) :
    store.Runs 0 (create Python.exact "t" "" "" (.int p) [] 0 "") s (.ok (newTask i p))
      (withTask s i p) :=
  ⟨i, _, _, rfl, i, _, _, rfl, i, _, _, rfl, i, _, _, rfl, rfl, rfl⟩

end ClaudeSwarm.TaskQueue.Redis
