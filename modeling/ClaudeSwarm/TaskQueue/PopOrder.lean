import ClaudeSwarm.TaskQueue.Redis

/-!
# The order of the Redis queue

A created task enters `tasks:pending` with the score `priority * 1000 + int(created_at)`, and the
claim script pops the lowest score. A tier is worth a thousand seconds: a task of a lower tier that
is old enough is popped first.

* `Pending`: the servers that tasks were created on and popped from, and the tasks still pending.
* `Pending.score`: the sorted set holds exactly these tasks, under their scores.
* **`pop_iff`**: the pop takes an oldest task of the highest priority exactly when no pending task of
  a lower priority is ahead of all of those by its age.
-/

namespace ClaudeSwarm.TaskQueue.Redis

open Data ClaudeSwarm.Redis
open Python (Time FloatFmt)

/-- What the queue orders a task by. -/
structure Created where
  id : String
  priority : Int
  createdAt : Time

namespace Created

/-- The second of its creation. -/
def second (x : Created) : Int := Python.truncate x.createdAt

/-- Its score. -/
def score (x : Created) : Int := x.priority * 1000 + x.second

/-- `x` is no later than `y`, by priority and then by second. -/
def NotAfter (x y : Created) : Prop :=
  x.priority < y.priority ∨ x.priority = y.priority ∧ x.second ≤ y.second

/-- `x` is earlier than `y`, by priority and then by second. -/
def Before (x y : Created) : Prop :=
  x.priority < y.priority ∨ x.priority = y.priority ∧ x.second < y.second

/-- The score orders two tasks as priority and second do, unless one of a lower priority is a
thousand seconds older for each tier between them. -/
theorem score_lt_iff_before (x y : Created) :
    (x.score < y.score ↔ x.Before y) ↔
      (x.priority < y.priority → x.second - y.second < 1000 * (y.priority - x.priority)) ∧
      (y.priority < x.priority → y.second - x.second ≤ 1000 * (x.priority - y.priority)) := by
  unfold score Before
  omega

end Created

variable (F : FloatFmt)

/-- The tasks created and not yet popped. -/
abbrev Waiting := Table Created.id

/-- `Pending s l`: on a server without pending tasks, tasks were created, by `TaskQueue.create` or
by `redis_client.create_task` (whose score reads the clock first), and popped; now the server is `s`
and the tasks `l` are pending. -/
inductive Pending : Keys → Waiting → Prop
  | none {s : Keys} (h : s.tasks .pending = .empty) : Pending s .empty
  | queueCreate {s s' : Keys} {l : Waiting} {n : Nat} {title description project : String}
      {priority : Val} {requires : List String} {estimated : Int} {createdBy : String} {task : Task}
      (h : Pending s l)
      (hr : store.Runs n (create F title description project priority requires estimated createdBy)
        s (.ok task) s') :
      Pending s' (l.put ⟨task.id, task.priority, task.createdAt⟩)
  | clientCreate {s s' : Keys} {l : Waiting} {n : Nat} {id : String} {data : Json} {priority : Int}
      {i : Env} {is : List Env} {ok : Bool} (h : Pending s l)
      (hr : store.runWith n (Client.createTask F id data priority) (i :: is) s = some (.ok ok, s')) :
      Pending s' (l.put ⟨id, priority, i.now⟩)
  | pop {s s' : Keys} {l : Waiting} {n : Nat} {claimer id : String} (h : Pending s l)
      (hr : store.Runs n (Client.claimTask F claimer) s (.ok (some id)) s') : Pending s' (l.erase id)

variable {F}

/-- `TaskQueue.create`, run alone. -/
theorem runs_create {n : Nat} {title description project : String} {priority : Val}
    {requires : List String} {estimated : Int} {createdBy : String} {task : Task} {s s' : Keys}
    (hr : store.Runs n (create F title description project priority requires estimated createdBy)
      s (.ok task) s') :
    s' = runAll [.hset task.id (hashFields F task), .zadd .pending task.id (scoreOf task)] s := by
  obtain ⟨i₁, x₁, s₁, h₁, i₂, x₂, s₂, h₂, i₃, x₃, s₃, h₃, i₄, x₄, s₄, h₄, hret, rfl⟩ := hr
  cases h₁
  cases h₂
  cases h₃
  cases h₄
  cases hret
  rfl

/-- `redis_client.create_task`, run alone with clock readings `i.now` and later. -/
theorem runWith_createTask {n : Nat} {id : String} {data : Json} {priority : Int} {i : Env}
    {is : List Env} {ok : Bool} {s s' : Keys}
    (hr : store.runWith n (Client.createTask F id data priority) (i :: is) s = some (.ok ok, s')) :
    s'.tasks = Function.update s.tasks .pending
      ((s.tasks .pending).put (id, priority * 1000 + Python.truncate i.now)) := by
  match is, hr with
  | _ :: _ :: is, hr =>
    cases hr
    rfl

/-- A task that was popped is no longer pending. -/
theorem pending_of_claim {now claimer id : String} {s s' : Keys}
    (h : claimScript now claimer s = (some id, s')) :
    s'.tasks .pending = (s.tasks .pending).erase id := by
  cases hm : (s.tasks .pending).min? with
  | none =>
    rw [claimScript_of_none hm] at h
    cases h
  | some m =>
    rw [claimScript_of_some hm] at h
    cases h
    simp [claimWrites, Write.run]

/-- The sorted set holds the pending tasks under their scores. -/
theorem Pending.score {s : Keys} {l : Waiting} (h : Pending F s l) (id : String) :
    (s.tasks .pending).score id = (l.find? id).map Created.score := by
  induction h with
  | none h => simp [h, ZSet.score]
  | queueCreate h hr ih =>
    rw [runs_create hr, Table.find?_put]
    simp only [runAll_cons, runAll_nil, Write.run, Function.update_self, ZSet.score_put, ih]
    split <;> rfl
  | clientCreate h hr ih =>
    rw [runWith_createTask hr, Table.find?_put]
    simp only [Function.update_self, ZSet.score_put, ih]
    split <;> rfl
  | pop h hr ih =>
    obtain ⟨now, x, hx, hc⟩ := Client.runs_claimTask F hr
    cases hx
    rw [pending_of_claim hc, Table.find?_erase, ZSet.score_erase, ih]
    split <;> rfl

/-- The task `m` is an oldest one of the highest priority. -/
def Next (l : Waiting) (m : Created) : Prop := m ∈ l.rows ∧ ∀ y ∈ l.rows, m.NotAfter y

/-- Some oldest task of the highest priority is ahead of every pending task of a lower priority:
that one is younger than it would have to be, or just as old and behind by its identifier. -/
def Ordered (l : Waiting) : Prop :=
  ∃ m, Next l m ∧ ∀ y ∈ l.rows, m.priority < y.priority →
    m.second - y.second < 1000 * (y.priority - m.priority) ∨
      m.second - y.second = 1000 * (y.priority - m.priority) ∧ m.id ≤ y.id

/-- The pop takes a pending task that no pending task precedes by score and identifier. -/
theorem Pending.min? {s : Keys} {l : Waiting} (h : Pending F s l) {id : String} {score : Int}
    (hm : (s.tasks .pending).min? = some (id, score)) :
    ∃ x ∈ l.rows, x.id = id ∧
      ∀ y ∈ l.rows, x.score < y.score ∨ x.score = y.score ∧ x.id ≤ y.id := by
  have hs := ZSet.score_of_mem (ZSet.min?_mem hm)
  rw [h.score] at hs
  obtain ⟨x, hx, rfl⟩ := Option.map_eq_some_iff.mp hs
  obtain rfl := Table.find?_key hx
  refine ⟨x, Table.find?_mem hx, rfl, fun y hy => ?_⟩
  refine ZSet.min?_before hm (y.id, y.score) (ZSet.mem_of_score ?_)
  rw [h.score, Table.find?_of_mem hy, Option.map_some]

/-- Rows with one identifier are one row. -/
theorem eq_of_id {l : Waiting} {x y : Created} (hx : x ∈ l.rows) (hy : y ∈ l.rows)
    (h : x.id = y.id) : x = y :=
  Option.some.inj (by rw [← Table.find?_of_mem hx, ← Table.find?_of_mem hy, h])

/-- The first task by score and identifier is a next one exactly when the tasks are `Ordered`. -/
theorem next_iff_ordered {l : Waiting} {x : Created} (hx : x ∈ l.rows)
    (hmin : ∀ y ∈ l.rows, x.score < y.score ∨ x.score = y.score ∧ x.id ≤ y.id) :
    Next l x ↔ Ordered l := by
  constructor
  · refine fun h => ⟨x, h, fun y hy hlt => ?_⟩
    have := hmin y hy
    simp only [Created.score] at this
    rcases this with h | ⟨h, hid⟩
    · exact Or.inl (by omega)
    · exact Or.inr ⟨by omega, hid⟩
  · rintro ⟨m, ⟨hm, hnext⟩, hord⟩
    have hxm := hmin m hm
    have hmx := hnext x hx
    simp only [Created.score, Created.NotAfter] at hxm hmx
    -- `x` is not of a lower priority: only a tie of score and identifier is left, and then `x = m`
    have hp : m.priority = x.priority := by
      by_contra hne
      have hlt : m.priority < x.priority := by omega
      have hle := hord x hx hlt
      have hids : x.id ≤ m.id ∧ m.id ≤ x.id := by
        constructor
        · rcases hxm with h | h
          · omega
          · exact h.2
        · rcases hle with h | h
          · omega
          · exact h.2
      exact hne (congrArg Created.priority (eq_of_id hm hx (String.le_antisymm hids.2 hids.1)))
    refine ⟨hx, fun y hy => ?_⟩
    have hmy := hnext y hy
    simp only [Created.NotAfter] at hmy ⊢
    omega

/-- **Priority order.** Popping from a server with pending tasks `l` takes an oldest task of the
highest priority if and only if `l` is `Ordered`. The score as such orders two tasks by priority and
second if and only if neither is of a lower priority and too much older. -/
theorem pop_iff :
    (∀ (s s' : Keys) (l : Waiting) (n : Nat) (claimer : String) (r : Option String),
      Pending F s l → l.rows ≠ [] → store.Runs n (Client.claimTask F claimer) s (.ok r) s' →
        ((∃ m, Next l m ∧ r = some m.id) ↔ Ordered l)) ∧
    ∀ x y : Created, (x.score < y.score ↔ x.Before y) ↔
      (x.priority < y.priority → x.second - y.second < 1000 * (y.priority - x.priority)) ∧
      (y.priority < x.priority → y.second - x.second ≤ 1000 * (x.priority - y.priority)) := by
  refine ⟨fun s s' l n claimer r h hl hr => ?_, Created.score_lt_iff_before⟩
  obtain ⟨now, x, hx, hc⟩ := Client.runs_claimTask F hr
  cases hx
  cases hm : (s.tasks .pending).min? with
  | none =>
    exfalso
    obtain ⟨x, hx⟩ := List.exists_mem_of_ne_nil _ hl
    have hs := h.score x.id
    rw [Table.find?_of_mem hx] at hs
    have := ZSet.mem_of_score hs
    rw [ZSet.min?_eq_none.mp hm] at this
    cases this
  | some m =>
    rw [claimScript_of_some hm] at hc
    cases hc
    obtain ⟨x, hx, hid, hmin⟩ := h.min? hm
    rw [← next_iff_ordered hx hmin, ← hid]
    constructor
    · rintro ⟨m, hnext, hid⟩
      rwa [eq_of_id hx hnext.1 (Option.some.inj hid)]
    · exact fun hnext => ⟨x, hnext, rfl⟩

/-! ## A sandbox task before a production task -/

/-- `create_task` at a given time. -/
def createdAt (s : Keys) (id : String) (priority : Int) (now : Time) : Keys :=
  runAll (Client.createWrites Python.wholeSeconds id .null priority now now) s

theorem Pending.created {s : Keys} {l : Waiting} (h : Pending Python.wholeSeconds s l) (id : String)
    (priority : Int) (now : Time) :
    Pending Python.wholeSeconds (createdAt s id priority now) (l.put ⟨id, priority, now⟩) :=
  have hr : store.runWith 0 (Client.createTask Python.wholeSeconds id .null priority)
      (List.replicate 3 ⟨now, "", "", ""⟩) s =
      some (.ok true, createdAt s id priority now) := rfl
  .clientCreate h hr

/-- A sandbox task is created at the epoch, a production task two hours later. -/
def twoTasks : Keys := createdAt (createdAt .empty "old" 5 0) "new" 0 7200

/-- The two tasks. -/
def twoWaiting : Waiting := (Table.empty.put ⟨"old", 5, 0⟩).put ⟨"new", 0, 7200⟩

theorem pending_twoTasks : Pending Python.wholeSeconds twoTasks twoWaiting :=
  ((Pending.none rfl).created "old" 5 0).created "new" 0 7200

theorem pop_twoTasks : ∃ s', store.Runs 0 (Client.claimTask Python.wholeSeconds "w") twoTasks
    (.ok (some "old")) s' := by
  have hmin : (twoTasks.tasks .pending).min? = some ("old", 5000) := by decide +kernel
  obtain ⟨x, s', hr⟩ := exists_runs 0 (Client.claimTask Python.wholeSeconds "w") twoTasks
  obtain ⟨now, r, rfl, hc⟩ := Client.runs_claimTask _ hr
  rw [claimScript_of_some hmin] at hc
  cases hc
  exact ⟨_, hr⟩

theorem pop_iff_twoTasks : ∃ s',
    store.Runs 0 (Client.claimTask Python.wholeSeconds "w") twoTasks (.ok (some "old")) s' ∧
    ((∃ m, Next twoWaiting m ∧ some "old" = some m.id) ↔ Ordered twoWaiting) := by
  obtain ⟨s', hr⟩ := pop_twoTasks
  exact ⟨s', hr, pop_iff.1 _ _ _ _ _ _ pending_twoTasks (by decide) hr⟩

/-- The pop takes the sandbox task. -/
theorem pop_old_sandbox : ∃ s s' l r, Pending Python.wholeSeconds s l ∧ l.rows ≠ [] ∧
    store.Runs 0 (Client.claimTask Python.wholeSeconds "w") s (.ok r) s' ∧
    ¬ ∃ m, Next l m ∧ r = some m.id := by
  obtain ⟨s', hr⟩ := pop_twoTasks
  refine ⟨_, s', _, _, pending_twoTasks, by decide, hr, ?_⟩
  rintro ⟨m, hnext, hid⟩
  have hold : ⟨"old", 5, 0⟩ ∈ twoWaiting.rows := List.mem_cons_self
  have hnew : ⟨"new", 0, 7200⟩ ∈ twoWaiting.rows := List.mem_cons_of_mem _ List.mem_cons_self
  obtain rfl := eq_of_id hold hnext.1 (Option.some.inj hid)
  exact absurd (hnext.2 _ hnew) (by simp [Created.NotAfter])

end ClaudeSwarm.TaskQueue.Redis
