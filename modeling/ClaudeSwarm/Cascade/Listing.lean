import Mathlib.Data.List.Dedup
import Mathlib.Data.List.Perm.Subperm
import ClaudeSwarm.Cascade.RoundTrip

/-!
# The tasks in a state

`ledger_write` adds a task to the set of its state and never takes it out of another, so a task is listed under every
state it ever had. `task_write` of SQLite deletes the task's old row first, and its list is exact.

* `mem_writes`: what the sets of Redis hold after a sequence of writes.
* `indexed_of_runs`: what the tables of SQLite hold.
* **`listed_iff`**: the list of Redis is exact for every state when no task is ever written with another state than
  its last one (`Settled`).
* `moved_listed_twice`: a task that was written with two states.
-/

namespace ClaudeSwarm.Cascade.Ledger

open Interleave Data
open Python (Unicode Time)
open Sqlite (TaskState Tables stateName truthy Exc)

/-- A sequence of `ledger_write` calls. -/
def writeAll (u : Unicode) : List (String × TaskState) → P Unit
  | [] => return ()
  | w :: ws => do
    let _ ← ledgerWrite u w.1 w.2
    writeAll u ws

/-- The same sequence of `task_write` calls. -/
def writeEach : List (String × TaskState) → Sqlite.P Unit
  | [] => return ()
  | w :: ws => do
    let _ ← Sqlite.taskWrite w.1 w.2
    writeEach ws

/-- What a task was written with last. -/
def last (ws : List (String × TaskState)) (t : String) : Option TaskState :=
  (ws.reverse.find? fun w => w.1 == t).map Prod.snd

/-- The state in a dictionary; an empty one is none. -/
def named (d : TaskState) : Option String :=
  match stateName d with
  | .str s => if s = "" then none else some s
  | _ => none

/-- The state a task was written with last. -/
def lastState (ws : List (String × TaskState)) (t : String) : Option String := (last ws t).bind named

/-- The tasks whose last state is `name`. -/
def inState (ws : List (String × TaskState)) (name : String) : List String :=
  (ws.map Prod.fst).dedup.filter fun t => lastState ws t = some name

/-- `ledger_list_by_state` answers one entry for each task in the state. -/
def RedisLists (real : String → Option String) (n : Nat) (ws : List (String × TaskState)) (s : State) : Prop :=
  ∀ name results s', (store real).Runs n (ledgerListByState name) s (.ok results) s' →
    results.Perm ((inState ws name).map fun t => decodeRedisHash (s.redis.hashes t))

/-- So does `task_list_by_state`. -/
def SqliteLists (real : String → Option String) (n : Nat) (ws : List (String × TaskState)) (s : Sqlite.State) : Prop :=
  ∀ name results s', (Sqlite.store real).Runs n (Sqlite.taskListByState name) s (.ok results) s' →
    results.Perm ((inState ws name).map fun t => .obj ((last ws t).getD .empty).entries)

/-- No task is ever written with another state than its last one. -/
def Settled (u : Unicode) (ws : List (String × TaskState)) : Prop :=
  ∀ w ∈ ws, ∀ name, setName u w.2 = some name → lastState ws w.1 = some name

variable {u : Unicode} {real : String → Option String} {n : Nat} {s s' : State} {ws : List (String × TaskState)}
  {w : String × TaskState} {t name : String} {d : TaskState}

/-! ## The last state -/

@[simp] theorem last_nil : last [] t = none := rfl

theorem last_append : last (ws ++ [w]) t = if w.1 = t then some w.2 else last ws t := by
  rw [last, List.reverse_append, List.reverse_singleton, List.singleton_append]
  by_cases h : w.1 = t
  · rw [List.find?_cons_of_pos (by simpa using h), if_pos h]
    rfl
  · rw [List.find?_cons_of_neg (by simpa using h), if_neg h]
    rfl

theorem mem_of_last (h : last ws t = some d) : (t, d) ∈ ws := by
  obtain ⟨w, hw, rfl⟩ := Option.map_eq_some_iff.mp h
  have hkey : w.1 = t := by simpa using List.find?_some hw
  rw [← hkey]
  exact List.mem_reverse.mp (List.mem_of_find?_eq_some hw)

theorem mem_inState : t ∈ inState ws name ↔ lastState ws t = some name := by
  rw [inState, List.mem_filter, List.mem_dedup, decide_eq_true_eq, and_iff_right_of_imp]
  intro h
  obtain ⟨d, hd, -⟩ := Option.bind_eq_some_iff.mp h
  exact List.mem_map_of_mem (mem_of_last hd)

theorem nodup_inState : (inState ws name).Nodup := (List.nodup_dedup _).filter _

/-- A state is the name of a set. -/
theorem setName_of_named (h : named d = some name) : setName u d = some name := by
  unfold named at h
  split at h
  · rename_i s hs
    split at h
    · cases h
    · rename_i hne
      cases h
      rw [setName, hs, if_pos (by simpa [truthy] using hne)]
      rfl
  · cases h

/-! ## Redis -/

/-- What the writes that reach it leave of Redis. -/
def Redis.writes (u : Unicode) (r : Redis) (ws : List (String × TaskState)) : Redis :=
  ws.foldl (fun r w => if w.2.entries = [] then r else r.write w.1 (flat u w.2) (setName u w.2)) r

theorem runs_writeAll : ∀ {ws : List (String × TaskState)} {s s' : State}, s.redisUp = true →
    (store real).Runs n (writeAll u ws) s (.ok ()) s' → s'.redisUp = true ∧ s'.redis = s.redis.writes u ws
  | [], s, s', hup, h => by
    obtain ⟨-, rfl⟩ := h
    exact ⟨hup, rfl⟩
  | w :: ws, s, s', hup, h => by
    obtain ⟨b, s₁, hw, h⟩ | ⟨e, -, he⟩ := (Store.runs_bind _ n).mp h
    · rw [Redis.writes, List.foldl_cons, ← Redis.writes]
      by_cases hne : w.2.entries = []
      · obtain ⟨hup₁, hredis⟩ := runs_writeBelow_redis (runs_write_down (Or.inr hne) hw)
        rw [if_pos hne, ← hredis]
        exact runs_writeAll (hup₁.trans hup) h
      · obtain ⟨-, hs₁⟩ := runs_write_up hup hne hw
        rw [if_neg hne]
        have hredis : s₁.redis = s.redis.write w.1 (flat u w.2) (setName u w.2) := by rw [hs₁]
        rw [← hredis]
        exact runs_writeAll (by rw [hs₁, hup]) h
    · cases he

theorem entries_of_setName (h : setName u d = some name) : d.entries ≠ [] := by
  intro hnil
  have hname : stateName d = .str "" := by rw [stateName, Dict.get?, hnil]; rfl
  rw [setName, hname] at h
  cases h

theorem byState_write {r : Redis} {hash : Dict String String} {state : Option String} :
    t ∈ (r.write w.1 hash state).byState name ↔
    t ∈ r.byState name ∨ state = some name ∧ t = w.1 := by
  cases state with
  | none => simp [Redis.write, Redis.hset]
  | some s =>
    simp only [Redis.write, Redis.sadd, Redis.hset]
    by_cases h : name = s
    · subst h
      rw [Function.update_self, List.mem_insert_iff]
      simp [or_comm]
    · rw [Function.update_of_ne h]
      simp [Ne.symm h]

/-- What the sets of Redis hold: every state a task was ever written with. -/
theorem mem_writes : ∀ {ws : List (String × TaskState)} {r : Redis}, t ∈ (r.writes u ws).byState name ↔
    t ∈ r.byState name ∨ ∃ w ∈ ws, setName u w.2 = some name ∧ t = w.1
  | [], r => by simp [Redis.writes]
  | w :: ws, r => by
    rw [Redis.writes, List.foldl_cons, ← Redis.writes, mem_writes]
    by_cases hne : w.2.entries = []
    · rw [if_pos hne]
      have hnone : setName u w.2 ≠ some name := fun h => entries_of_setName h hne
      simp [hnone]
    · rw [if_neg hne, byState_write]
      simp [or_assoc]

theorem nodup_writes : ∀ {ws : List (String × TaskState)} {r : Redis}, (∀ name, (r.byState name).Nodup) →
    ∀ name, ((r.writes u ws).byState name).Nodup
  | [], _, h => h
  | w :: ws, r, h => by
    rw [Redis.writes, List.foldl_cons, ← Redis.writes]
    refine nodup_writes fun name => ?_
    split
    · exact h name
    · cases hstate : setName u w.2 with
      | none => exact h name
      | some s =>
        simp only [Redis.write, Redis.sadd, Redis.hset]
        by_cases hn : name = s
        · subst hn
          rw [Function.update_self]
          exact (h name).insert
        · rw [Function.update_of_ne hn]
          exact h name

/-- A task that was written has a hash. -/
theorem hashes_writes : ∀ {ws : List (String × TaskState)} {r : Redis},
    ((r.hashes t).entries ≠ [] ∨ ∃ w ∈ ws, w.2.entries ≠ [] ∧ t = w.1) → ((r.writes u ws).hashes t).entries ≠ []
  | [], r, h => h.resolve_right (by simp)
  | w :: ws, r, h => by
    rw [Redis.writes, List.foldl_cons, ← Redis.writes]
    refine hashes_writes ?_
    by_cases hne : w.2.entries = []
    · rw [if_pos hne]
      refine h.imp_right ?_
      rintro ⟨w', hw', hne', rfl⟩
      rcases List.mem_cons.mp hw' with rfl | hw'
      · exact absurd hne hne'
      · exact ⟨w', hw', hne', rfl⟩
    · rw [if_neg hne, hashes_write]
      by_cases ht : t = w.1
      · rw [if_pos ht]
        exact Or.inl (update_ne_nil hne)
      · rw [if_neg ht]
        refine h.imp_right ?_
        rintro ⟨w', hw', hne', rfl⟩
        exact ⟨w', (List.mem_cons.mp hw').resolve_left fun he => ht (he ▸ rfl), hne', rfl⟩

/-! ## The list of Redis -/

theorem runs_readMembers : ∀ {ids : List String} {results : List Json} {s s' : State}
    {r : Except Exc (Option (List Json))}, s.redisUp = true → (∀ t ∈ ids, (s.redis.hashes t).entries ≠ []) →
    ((store real).Runs n (readMembers ids results) s r s' ↔
      r = .ok (some (results ++ ids.map fun t => decodeRedisHash (s.redis.hashes t))) ∧ s' = s)
  | [], results, s, s', r, _, _ => by
    rw [List.map_nil, List.append_nil]
    exact Iff.rfl
  | t :: ids, results, s, s', r, hup, hhash => by
    have hexec : ∀ i, exec real n i s (.hgetall t) = some (some (s.redis.hashes t), s) := fun i => if_pos hup
    have hrest := @runs_readMembers ids (results ++ [decodeRedisHash (s.redis.hashes t)]) _ s' r hup
      fun t' ht' => hhash t' (List.mem_cons_of_mem _ ht')
    rw [List.map_cons, List.append_cons, ← hrest]
    have hnext : (if (s.redis.hashes t).entries ≠ [] then results ++ [decodeRedisHash (s.redis.hashes t)]
        else results) = results ++ [decodeRedisHash (s.redis.hashes t)] := if_pos (hhash t List.mem_cons_self)
    constructor
    · rintro ⟨i, x, s₁, hx, h⟩
      cases (hexec i).symm.trans hx
      rw [← hnext]
      exact h
    · intro h
      rw [← hnext] at h
      exact ⟨⟨false⟩, _, _, hexec ⟨false⟩, h⟩

theorem runs_list {r : Except Exc (List Json)} (hup : s.redisUp = true)
    (hhash : ∀ t ∈ s.redis.byState name, (s.redis.hashes t).entries ≠ []) :
    (store real).Runs n (ledgerListByState name) s r s' ↔
      r = .ok ((s.redis.byState name).map fun t => decodeRedisHash (s.redis.hashes t)) ∧ s' = s := by
  have hmembers : ∀ i, exec real n i s (.smembers name) = some (some (s.redis.byState name), s) := fun i => if_pos hup
  constructor
  · rintro ⟨i, x, s₁, hx, h⟩
    cases hx
    rw [hup] at h
    obtain ⟨i₁, x₁, s₂, hx₁, h⟩ := h
    cases (hmembers i₁).symm.trans hx₁
    change (store real).Runs n (readMembers (s.redis.byState name) [] >>= _) s r s' at h
    obtain ⟨o, s₃, ho, h⟩ | ⟨e, he, -⟩ := (Store.runs_bind _ n).mp h
    · obtain ⟨ho, rfl⟩ := (runs_readMembers hup hhash).mp ho
      cases ho
      exact h
    · cases ((runs_readMembers hup hhash).mp he).1
  · rintro ⟨rfl, rfl⟩
    refine ⟨⟨false⟩, s'.redisUp, s', rfl, ?_⟩
    rw [hup]
    refine ⟨⟨false⟩, _, _, hmembers ⟨false⟩, ?_⟩
    change (store real).Runs n (readMembers (s'.redis.byState name) [] >>= _) s' _ s'
    exact (Store.runs_bind _ n).mpr (Or.inl ⟨_, s', (runs_readMembers hup hhash).mpr ⟨rfl, rfl⟩, rfl, rfl⟩)

/-- The sets hold what is to be listed. -/
theorem inState_subset : inState ws name ⊆ (State.fresh.redis.writes u ws).byState name := by
  intro t ht
  obtain ⟨d, hd, hname⟩ := Option.bind_eq_some_iff.mp (mem_inState.mp ht)
  exact mem_writes.mpr (Or.inr ⟨(t, d), mem_of_last hd, setName_of_named hname, rfl⟩)

theorem settled_iff : Settled u ws ↔ ∀ name, (State.fresh.redis.writes u ws).byState name ⊆ inState ws name := by
  constructor
  · intro h name t ht
    obtain ⟨w, hw, hname, rfl⟩ := (mem_writes.mp ht).resolve_left (by simp [State.fresh])
    exact mem_inState.mpr (h w hw name hname)
  · intro h w hw name hname
    exact mem_inState.mp (h name (mem_writes.mpr (Or.inr ⟨w, hw, hname, rfl⟩)))

/-- **The list of Redis.** -/
theorem redisLists_iff (h : (store real).Runs n (writeAll u ws) .fresh (.ok ()) s) :
    RedisLists real n ws s ↔ Settled u ws := by
  obtain ⟨hup, hredis⟩ := runs_writeAll rfl h
  have hhash : ∀ name, ∀ t ∈ s.redis.byState name, (s.redis.hashes t).entries ≠ [] := by
    intro name t ht
    rw [hredis] at ht ⊢
    obtain ⟨w, hw, hname, rfl⟩ := (mem_writes.mp ht).resolve_left (by simp [State.fresh])
    exact hashes_writes (Or.inr ⟨w, hw, entries_of_setName hname, rfl⟩)
  have hnodup : ∀ name, (s.redis.byState name).Nodup := by
    rw [hredis]
    exact nodup_writes fun _ => List.nodup_nil
  have hsubset : ∀ name, inState ws name ⊆ s.redis.byState name := by
    rw [hredis]
    exact fun _ => inState_subset
  rw [settled_iff, ← hredis]
  constructor
  · intro hlists name
    have hperm := hlists name _ s ((runs_list hup (hhash name)).mpr ⟨rfl, rfl⟩)
    have hlength : (s.redis.byState name).length ≤ (inState ws name).length := by
      have hle := hperm.length_eq.le
      rwa [List.length_map, List.length_map] at hle
    have hsub : (inState ws name).Subperm (s.redis.byState name) := nodup_inState.subperm (hsubset name)
    exact (hsub.perm_of_length_le hlength).symm.subset
  · intro hsettled name results s' hruns
    obtain ⟨hr, -⟩ := (runs_list hup (hhash name)).mp hruns
    cases hr
    refine List.Perm.map _ ((List.perm_ext_iff_of_nodup (hnodup name) nodup_inState).mpr fun t => ?_)
    exact ⟨fun ht => hsettled name ht, fun ht => hsubset name ht⟩

/-! ## SQLite -/

/-- The text of a state that is a string. -/
def stateText (d : TaskState) : String :=
  match stateName d with
  | .str s => s
  | _ => ""

/-- The tables after a sequence of writes. -/
structure Indexed (ws : List (String × TaskState)) (T : Tables) : Prop where
  row : ∀ t, (T.tasks t).map (fun r => (r.state, r.data)) =
    (last ws t).map fun d => (stateText d, Json.dumps (.obj d.entries))
  mem : ∀ name t, (name, t) ∈ T.byState ↔ lastState ws t = some name
  nodup : T.byState.Nodup

theorem indexed_empty : Indexed [] .empty := ⟨fun _ => rfl, by simp [Tables.empty, lastState], List.nodup_nil⟩

theorem named_eq {text : String} (h : stateName d = .str text) : named d = if text = "" then none else some text := by
  rw [named, h]

theorem lastState_append : lastState (ws ++ [w]) t = if w.1 = t then named w.2 else lastState ws t := by
  rw [lastState, last_append]
  split <;> rfl

/-- The old row is gone, unless it is the new one. -/
theorem mem_removeOld {T : Tables} {text : String} (h : Indexed ws T) (name t' : String) :
    (name, t') ∈ (T.removeOld t (.str text)).byState ↔
      lastState ws t' = some name ∧ (t' = t → name = text) := by
  unfold Tables.removeOld
  have hrow := h.row t
  cases htask : T.tasks t with
  | none =>
    rw [htask] at hrow
    have hlast : last ws t = none := Option.map_eq_none_iff.mp hrow.symm
    rw [h.mem, iff_self_and]
    rintro hstate rfl
    rw [lastState, hlast] at hstate
    cases hstate
  | some old =>
    rw [htask] at hrow
    obtain ⟨d, hd, hdata⟩ := Option.map_eq_some_iff.mp hrow.symm
    have hold : old.state = stateText d := (Prod.mk.inj hdata).1.symm
    -- the state of the task is the text in its row
    have hstate : ∀ {name}, lastState ws t = some name → name = old.state := by
      intro name hs
      rw [lastState, hd, Option.bind_some] at hs
      rw [hold]
      unfold named at hs
      unfold stateText
      split at hs
      · split at hs
        · cases hs
        · exact (Option.some.inj hs).symm
      · cases hs
    by_cases hdiffers : old.state = text
    · have hsame : Sqlite.differs old.state (.str text) = false := by simp [Sqlite.differs, hdiffers]
      simp only [hsame]
      rw [if_neg (by decide), h.mem, iff_self_and]
      rintro hs rfl
      rw [hstate hs, hdiffers]
    · have hne : Sqlite.differs old.state (.str text) = true := by simp [Sqlite.differs, hdiffers]
      simp only [hne, if_true]
      rw [Tables.deleteByState, h.nodup.mem_erase_iff, h.mem, and_comm]
      refine and_congr_right fun hs => ⟨?_, ?_⟩
      · rintro hrow rfl
        exact absurd (congrArg (·, t') (hstate hs)) hrow
      · intro himp he
        obtain ⟨rfl, rfl⟩ := Prod.mk.inj he
        exact hdiffers (himp rfl)

theorem nodup_removeOld {T : Tables} {state_name : Json} (h : T.byState.Nodup) :
    (T.removeOld t state_name).byState.Nodup := by
  unfold Tables.removeOld
  split
  · split
    · exact h.erase _
    · exact h
  · exact h

/-- **One write** of a state that is a string. -/
theorem Indexed.writeTask {T : Tables} {text : String} (h : Indexed ws T) (hname : stateName d = .str text)
    (now : Int) :
    Indexed (ws ++ [(t, d)]) (T.writeTask t d text now) := by
  refine ⟨fun t' => ?_, fun name t' => ?_, ?_⟩
  · rw [Tables.tasks_writeTask, last_append]
    by_cases ht : t' = t
    · subst ht
      rw [if_pos rfl, if_pos rfl]
      simp [stateText, hname]
    · rw [if_neg ht, if_neg (Ne.symm ht)]
      exact h.row t'
  · rw [Tables.writeTask_eq, lastState_append, hname, named_eq hname]
    have hold := @mem_removeOld _ t _ text h name t'
    by_cases htext : text = ""
    · subst htext
      have hfalse : truthy (.str "") = false := rfl
      rw [hfalse, if_neg (by decide), if_pos rfl]
      refine Iff.trans hold ?_
      by_cases ht : t = t'
      · subst ht
        rw [if_pos rfl]
        refine iff_of_false ?_ (by simp)
        rintro ⟨hs, hn⟩
        obtain ⟨d', -, hd'⟩ := Option.bind_eq_some_iff.mp hs
        rw [hn rfl] at hd'
        unfold named at hd'
        split at hd'
        · split at hd'
          · cases hd'
          · rename_i hne
            exact hne (Option.some.inj hd')
        · cases hd'
      · rw [if_neg ht]
        exact and_iff_left fun he => absurd he.symm ht
    · have htrue : truthy (.str text) = true := by simp [truthy, htext]
      rw [htrue, if_pos rfl, if_neg htext, Tables.insertByState, List.mem_insert_iff]
      refine Iff.trans (or_congr_right hold) ?_
      by_cases ht : t = t'
      · subst ht
        rw [if_pos rfl]
        constructor
        · rintro (he | ⟨-, hn⟩)
          · rw [(Prod.mk.inj he).1]
          · rw [hn rfl]
        · intro he
          exact Or.inl (by rw [Option.some.inj he])
      · rw [if_neg ht]
        constructor
        · rintro (he | ⟨hs, -⟩)
          · exact absurd (Prod.mk.inj he).2.symm ht
          · exact hs
        · exact fun hs => Or.inr ⟨hs, fun he => absurd he.symm ht⟩
  · rw [Tables.writeTask_eq]
    split
    · exact (nodup_removeOld h.nodup).insert
    · exact nodup_removeOld h.nodup

theorem indexed_of_runs {now : Time} : ∀ {ws done : List (String × TaskState)} {T : Tables} {s' : Sqlite.State},
    (∀ w ∈ ws, ∃ text, stateName w.2 = .str text) → Indexed done T →
    (Sqlite.store real).Runs n (writeEach ws) ⟨now, .at_ T⟩ (.ok ()) s' →
    ∃ T', s' = ⟨now, .at_ T'⟩ ∧ Indexed (done ++ ws) T'
  | [], done, T, s', _, hT, h => by
    obtain ⟨-, rfl⟩ := h
    exact ⟨T, rfl, by rwa [List.append_nil]⟩
  | w :: ws, done, T, s', hnames, hT, h => by
    obtain ⟨text, hname⟩ := hnames w List.mem_cons_self
    have hbind : Sqlite.bind real (stateName w.2) = .ok text := by rw [hname]; rfl
    obtain ⟨b, s₁, hw, h⟩ | ⟨e, -, he⟩ := (Store.runs_bind _ n).mp h
    · obtain ⟨text', hbind', -, rfl⟩ | ⟨e, hbind', -⟩ := Sqlite.runs_taskWrite hw
      · rw [hbind] at hbind'
        cases hbind'
        rw [List.append_cons]
        exact indexed_of_runs (fun w' hw' => hnames w' (List.mem_cons_of_mem _ hw')) (hT.writeTask hname _) h
      · rw [hbind] at hbind'
        cases hbind'
    · cases he

/-- The tasks of the rows of a state. -/
theorem perm_inState {T : Tables} (h : Indexed ws T) :
    ((T.byState.filter fun row => row.1 = name).map Prod.snd).Perm (inState ws name) := by
  have hnodup : ((T.byState.filter fun row => row.1 = name).map Prod.snd).Nodup := by
    refine (h.nodup.filter _).map_on fun a ha b hb he => ?_
    have ha' := of_decide_eq_true (List.mem_filter.mp ha).2
    have hb' := of_decide_eq_true (List.mem_filter.mp hb).2
    exact Prod.ext (ha'.trans hb'.symm) he
  refine (List.perm_ext_iff_of_nodup hnodup nodup_inState).mpr fun t => ?_
  rw [mem_inState, ← h.mem]
  simp

/-- **The list of SQLite.** -/
theorem sqliteLists_of_indexed {T : Tables} {now : Time} (hjson : ∀ w ∈ ws, ∀ e ∈ w.2.entries, Json.Proper e.2)
    (h : Indexed ws T) : SqliteLists real n ws ⟨now, .at_ T⟩ := by
  intro name results s' hruns
  cases (Sqlite.runs_taskListByState hruns).1
  refine List.Perm.trans ?_ ((perm_inState h).map _)
  have hrows : ∀ row ∈ T.byState.filter fun row => row.1 = name, ((T.tasks row.2).map Sqlite.Task.data).bind Json.loads =
      some (.obj ((last ws row.2).getD .empty).entries) := by
    intro row hrow
    obtain ⟨d, hd, -⟩ := Option.bind_eq_some_iff.mp ((h.mem row.1 row.2).mp (List.mem_filter.mp hrow).1)
    have hdata : (T.tasks row.2).map Sqlite.Task.data = some (Json.dumps (.obj d.entries)) := by
      have hmap := congrArg (Option.map Prod.snd) (h.row row.2)
      rwa [hd, Option.map_some, Option.map_some, Option.map_map] at hmap
    rw [hdata, hd, Option.bind_some, Option.getD_some]
    exact Json.loads_dumps_proper (.obj (hjson _ (mem_of_last hd)))
  rw [Tables.dataByState, List.filterMap_filterMap, List.map_map, ← List.filterMap_eq_map]
  exact List.Perm.of_eq (List.filterMap_congr hrows)

/-- **Listing.** The list of Redis is exact for every state when the sequence is `Settled`; that of SQLite always. -/
theorem listed_iff {s₂ : Sqlite.State} (hredis : (store real).Runs n (writeAll u ws) .fresh (.ok ()) s)
    (hsqlite : (Sqlite.store real).Runs n (writeEach ws) ⟨0, .at_ .empty⟩ (.ok ()) s₂) :
    (RedisLists real n ws s ↔ Settled u ws) ∧
      ((∀ w ∈ ws, ∃ text, stateName w.2 = .str text) → (∀ w ∈ ws, ∀ e ∈ w.2.entries, Json.Proper e.2) →
        SqliteLists real n ws s₂) := by
  refine ⟨redisLists_iff hredis, fun hnames hjson => ?_⟩
  obtain ⟨T, rfl, hT⟩ := indexed_of_runs hnames indexed_empty hsqlite
  exact sqliteLists_of_indexed hjson hT

/-! ## A task with two states -/

def queued : TaskState := .ofList [("state", .str "queued")]

def done : TaskState := .ofList [("state", .str "done")]

/-- One task, queued and then done. -/
def moved : List (String × TaskState) := [("t", queued), ("t", done)]

theorem exists_moved : ∃ s, (store some).Runs 0 (writeAll .ascii moved) .fresh (.ok ()) s := by
  obtain ⟨_, s, h⟩ := @Store.exists_runs_of_runWith _ _ _ (store some) 0 (writeAll .ascii moved)
    (List.replicate 10 ⟨false⟩) .fresh (by decide +kernel)
  exact ⟨s, h⟩

/-- `listed_iff` of the two writes. -/
theorem listed_moved : ∃ s s₂, (store some).Runs 0 (writeAll .ascii moved) .fresh (.ok ()) s ∧
    (Sqlite.store some).Runs 0 (writeEach moved) ⟨0, .at_ .empty⟩ (.ok ()) s₂ ∧
    (RedisLists some 0 moved s ↔ Settled .ascii moved) := by
  obtain ⟨s, hredis⟩ := exists_moved
  obtain ⟨_, s₂, hsqlite⟩ := @Store.exists_runs_of_runWith _ _ _ (Sqlite.store some) 0 (writeEach moved)
    (List.replicate 20 ⟨false⟩) ⟨0, .at_ .empty⟩ (by decide +kernel)
  exact ⟨s, s₂, hredis, hsqlite, (listed_iff hredis hsqlite).1⟩

/-- **A task is listed under a state it has left.** -/
theorem moved_listed_twice : ¬ ∀ (u : Unicode) (real : String → Option String) (n : Nat)
    (ws : List (String × TaskState)) (s : State), (store real).Runs n (writeAll u ws) .fresh (.ok ()) s →
      RedisLists real n ws s := by
  intro h
  obtain ⟨s, hs⟩ := exists_moved
  have hsettled := (redisLists_iff hs).mp (h .ascii some 0 moved s hs) ("t", queued) List.mem_cons_self "queued" rfl
  have hdone : lastState moved "t" = some "done" := by decide +kernel
  rw [hdone] at hsettled
  exact absurd hsettled (by decide)

end ClaudeSwarm.Cascade.Ledger
