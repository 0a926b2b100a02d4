import ClaudeSwarm.Data.Dict
import ClaudeSwarm.Interleave.History
import Mathlib.Data.List.Sort

/-!
# The task queue of the spec adapter

Model of `ClaudeSwarmTaskQueueAdapter` of `swarm_spec_impl/task_queue.py`. Task ids and times are of any type; of a
task's other fields nothing is read. `ack`, `nack` and `enqueue` set the state of a task without looking at the one it
has: a late `nack` brings a completed task back, and so does a second `enqueue` under its id.

* `moves_step`: what a call that fits the state of its task does to the places of the tasks.
* `inv_step`: it keeps what the tasks know of the calls so far.
* **`lawful_of_careful`**: the life of a task in the runs of such calls.
* `acked_dequeued`: a task that is dequeued after its `ack`.
-/

namespace ClaudeSwarm.SwarmSpecImpl

open Data Interleave

/-! ## The code -/

/-- `TaskDescriptor`, as far as it is read. -/
structure TaskDescriptor (Uuid Time : Type) where
  task_id : Uuid
  idempotency_key : Option String
  priority : Int
  capabilities : List String
  created_at : Time
  deriving DecidableEq

/-- The state of a task. -/
inductive State where
  | pending | claimed | completed | failed
  deriving DecidableEq

/-- `ClaudeSwarmTaskQueueAdapter`. -/
structure Adapter (Uuid Time : Type) where
  tasks : Dict Uuid (TaskDescriptor Uuid Time × State)
  dequeued : Dict Uuid String
  discarded : List Uuid

/-- A call; the reason of a `nack` is only logged. -/
inductive Call (Uuid Time : Type) where
  | enqueue (task : TaskDescriptor Uuid Time)
  | dequeue (worker_id : String) (capabilities : List String)
  | ack (task_id : Uuid)
  | nack (task_id : Uuid) (retry : Bool)

/-- What a call returns. -/
inductive Answer (Uuid Time : Type) where
  | id (task_id : Uuid)
  | task (task : Option (TaskDescriptor Uuid Time))
  | none

/-- A stored task. -/
abbrev Entry (Uuid Time : Type) := Uuid × (TaskDescriptor Uuid Time × State)

variable {Uuid Time : Type} [DecidableEq Uuid]

/-- A key that is not empty. -/
def TaskDescriptor.key (task : TaskDescriptor Uuid Time) : Option String := task.idempotency_key.filter (· ≠ "")

namespace Adapter

/-- `__init__`. -/
def init : Adapter Uuid Time := ⟨.empty, .empty, []⟩

variable (a : Adapter Uuid Time)

/-- A stored task with the key of `task`. -/
def duplicates (task : TaskDescriptor Uuid Time) (e : Entry Uuid Time) : Bool :=
  task.key.isSome && e.2.1.idempotency_key = task.idempotency_key && e.1 ∉ a.discarded

/-- `enqueue`. -/
def enqueue (task : TaskDescriptor Uuid Time) : Uuid × Adapter Uuid Time :=
  match a.tasks.entries.find? (a.duplicates task) with
  | some e => (e.1, a)
  | none => (task.task_id, { a with tasks := a.tasks.set task.task_id (task, .pending) })

/-- A task that can be dequeued with these capabilities. -/
def isCandidate (capabilities : List String) (e : Entry Uuid Time) : Bool :=
  e.2.2 = .pending && e.1 ∉ a.discarded && capabilities.any fun cap => cap ∈ e.2.1.capabilities

variable [LinearOrder Time]

/-- The order of the candidates, by `(-priority, created_at)`. -/
def before (e e' : Entry Uuid Time) : Prop :=
  e'.2.1.priority < e.2.1.priority ∨
    e'.2.1.priority = e.2.1.priority ∧ e.2.1.created_at ≤ e'.2.1.created_at

instance (e e' : Entry Uuid Time) : Decidable (before e e') :=
  inferInstanceAs (Decidable (e'.2.1.priority < e.2.1.priority ∨
    e'.2.1.priority = e.2.1.priority ∧ e.2.1.created_at ≤ e'.2.1.created_at))

/-- `dequeue`. -/
def dequeue (worker_id : String) (capabilities : List String) :
    Option (TaskDescriptor Uuid Time) × Adapter Uuid Time :=
  match (a.tasks.entries.filter (a.isCandidate capabilities)).insertionSort before with
  | [] => (none, a)
  | (task_id, task, _) :: _ =>
    (some task, { a with
      tasks := a.tasks.set task_id (task, .claimed)
      dequeued := a.dequeued.set task_id worker_id })

/-- `ack`. -/
def ack (task_id : Uuid) : Adapter Uuid Time :=
  match a.tasks.get? task_id with
  | some (task, _) => { a with
      tasks := a.tasks.set task_id (task, .completed)
      dequeued := a.dequeued.erase task_id }
  | none => a

/-- `nack`. -/
def nack (task_id : Uuid) (retry : Bool) : Adapter Uuid Time :=
  match a.tasks.get? task_id with
  | none => a
  | some (task, _) =>
    if retry then { a with
      tasks := a.tasks.set task_id (task, .pending)
      dequeued := a.dequeued.erase task_id }
    else { a with
      tasks := a.tasks.set task_id (task, .failed)
      discarded := a.discarded.insert task_id
      dequeued := a.dequeued.erase task_id }

/-- A call and its answer. -/
def step : Call Uuid Time → Answer Uuid Time × Adapter Uuid Time
  | .enqueue task => ((a.enqueue task).map .id id)
  | .dequeue worker_id capabilities => (a.dequeue worker_id capabilities).map .task id
  | .ack task_id => (.none, a.ack task_id)
  | .nack task_id retry => (.none, a.nack task_id retry)

end Adapter

/-! ## What should hold -/

/-- A call and its answer. -/
abbrev Event (Uuid Time : Type) := Call Uuid Time × Answer Uuid Time

/-- A run of calls that meet `G`, the newest first, and the adapter after it. -/
inductive Run [LinearOrder Time] (G : Adapter Uuid Time → Call Uuid Time → Prop) :
    Adapter Uuid Time → List (Event Uuid Time) → Prop
  | init : Run G .init []
  | step {a : Adapter Uuid Time} {h : List (Event Uuid Time)} (c : Call Uuid Time) :
    Run G a h → G a c → Run G (a.step c).2 ((c, (a.step c).1) :: h)

/-- The task is dequeued. -/
def Dequeues (e : Event Uuid Time) (task_id : Uuid) : Prop :=
  ∃ task, e.2 = .task (some task) ∧ task.task_id = task_id

/-- The task is done with. -/
def Ends (e : Event Uuid Time) (task_id : Uuid) : Prop := e.1 = .ack task_id ∨ e.1 = .nack task_id false

/-- The task is given back. -/
def Retries (e : Event Uuid Time) (task_id : Uuid) : Prop := e.1 = .nack task_id true

/-- The task is taken into the queue. -/
def Accepts (e : Event Uuid Time) (task : TaskDescriptor Uuid Time) : Prop :=
  e = (.enqueue task, .id task.task_id)

/-- **The life of a task**: what is done with is not dequeued later, between two dequeues of a task it was given back,
and of the tasks that were taken in with one key at most one is not discarded. -/
structure Lawful (a : Adapter Uuid Time) (h : List (Event Uuid Time)) : Prop where
  ended : ∀ task_id, h.Pairwise fun later earlier => Ends earlier task_id → ¬ Dequeues later task_id
  single : ∀ task_id l₁ e₂ l₂ e₁ l₃, h = l₁ ++ e₂ :: (l₂ ++ e₁ :: l₃) → Dequeues e₁ task_id →
    Dequeues e₂ task_id → ∃ e ∈ l₂, Retries e task_id
  one : ∀ e ∈ h, ∀ e' ∈ h, ∀ task task', Accepts e task → Accepts e' task' → task.key = task'.key →
    task.key ≠ none → task.task_id ∉ a.discarded → task'.task_id ∉ a.discarded → task.task_id = task'.task_id

/-- The call fits what it is about: an `ack` or a last `nack` names a task that is there, a `nack` for another try no
completed task, and a task that is taken in takes no other's place, unless that was discarded or is pending and has no
key. -/
def Careful (a : Adapter Uuid Time) : Call Uuid Time → Prop
  | .enqueue task => (∃ e ∈ a.tasks.entries, a.duplicates task e) ∨ task.task_id ∈ a.discarded ∨
      ∀ stored state, a.tasks.get? task.task_id = some (stored, state) → state = .pending ∧ stored.key = none
  | .dequeue _ _ => True
  | .ack task_id | .nack task_id false => task_id ∈ a.tasks.keys
  | .nack task_id true => task_id ∈ a.discarded ∨ ∀ stored, a.tasks.get? task_id ≠ some (stored, .completed)

/-- Every call. -/
def Any (_ : Adapter Uuid Time) (_ : Call Uuid Time) : Prop := True

/-! ## The places of a task -/

section

variable {a : Adapter Uuid Time} {h : List (Event Uuid Time)} {c : Call Uuid Time}

/-- Where a task is; a discarded one is `failed`. -/
def place (a : Adapter Uuid Time) (task_id : Uuid) : Option State :=
  if task_id ∈ a.discarded then some .failed else (a.tasks.get? task_id).map Prod.snd

/-- The task is done with. -/
def Over (p : Option State) : Prop := p = some .completed ∨ p = some .failed

/-- The task is there, and cannot be dequeued. -/
def Away (p : Option State) : Prop := p ≠ none ∧ p ≠ some .pending

theorem Over.away {p : Option State} (h : Over p) : Away p := by
  rcases h with rfl | rfl
  · exact ⟨by decide, by decide⟩
  · exact ⟨by decide, by decide⟩

/-- Every task is stored under its id, and the failed ones are discarded. -/
def Filed (a : Adapter Uuid Time) : Prop :=
  ∀ task_id task state, a.tasks.get? task_id = some (task, state) →
    task.task_id = task_id ∧ (state = .failed → task_id ∈ a.discarded)

theorem place_stored {task_id : Uuid} {task : TaskDescriptor Uuid Time} {state : State}
    (hdiscarded : task_id ∉ a.discarded) (hget : a.tasks.get? task_id = some (task, state)) :
    place a task_id = some state := by
  rw [place, if_neg hdiscarded, hget, Option.map_some]

theorem exists_of_place {task_id : Uuid} {state : State} (hdiscarded : task_id ∉ a.discarded)
    (h : place a task_id = some state) : ∃ task, a.tasks.get? task_id = some (task, state) := by
  rw [place, if_neg hdiscarded] at h
  obtain ⟨stored, hstored, rfl⟩ := Option.map_eq_some_iff.mp h
  exact ⟨stored.1, hstored⟩

theorem place_set {task_id : Uuid} {task : TaskDescriptor Uuid Time} {state : State} {dequeued : Dict Uuid String}
    (id : Uuid) : place ⟨a.tasks.set task_id (task, state), dequeued, a.discarded⟩ id =
      if id = task_id ∧ id ∉ a.discarded then some state else place a id := by
  unfold place
  by_cases hdiscarded : id ∈ a.discarded
  · rw [if_pos hdiscarded, if_pos hdiscarded, if_neg fun h => h.2 hdiscarded]
  · rw [if_neg hdiscarded, if_neg hdiscarded, Dict.get?_set]
    by_cases hid : id = task_id
    · rw [if_pos hid, if_pos ⟨hid, hdiscarded⟩, Option.map_some]
    · rw [if_neg hid, if_neg fun h => hid h.1]

theorem place_discard {task_id : Uuid} {task : TaskDescriptor Uuid Time} {dequeued : Dict Uuid String} (id : Uuid) :
    place ⟨a.tasks.set task_id (task, .failed), dequeued, a.discarded.insert task_id⟩ id =
      if id = task_id ∧ id ∉ a.discarded then some .failed else place a id := by
  unfold place
  by_cases hdiscarded : id ∈ a.discarded
  · rw [if_pos (List.mem_insert_iff.mpr (.inr hdiscarded)), if_pos hdiscarded, if_neg fun h => h.2 hdiscarded]
  by_cases hid : id = task_id
  · rw [if_pos (List.mem_insert_iff.mpr (.inl hid)), if_pos ⟨hid, hdiscarded⟩]
  · rw [if_neg fun h => (List.mem_insert_iff.mp h).elim hid hdiscarded, if_neg fun h => hid h.1, if_neg hdiscarded,
      Dict.get?_set, if_neg hid]

theorem enqueue_cases (task : TaskDescriptor Uuid Time) :
    (∃ e ∈ a.tasks.entries, a.duplicates task e ∧ a.enqueue task = (e.1, a)) ∨
      (∀ e ∈ a.tasks.entries, ¬ a.duplicates task e) ∧
        a.enqueue task = (task.task_id, { a with tasks := a.tasks.set task.task_id (task, .pending) }) := by
  unfold Adapter.enqueue
  cases hfind : a.tasks.entries.find? (a.duplicates task) with
  | some e => exact .inl ⟨e, List.mem_of_find?_eq_some hfind, List.find?_some hfind, rfl⟩
  | none => exact .inr ⟨List.find?_eq_none.mp hfind, rfl⟩

theorem ack_cases (task_id : Uuid) :
    a.tasks.get? task_id = none ∧ a.ack task_id = a ∨
      ∃ task state, a.tasks.get? task_id = some (task, state) ∧ a.ack task_id = { a with
        tasks := a.tasks.set task_id (task, .completed)
        dequeued := a.dequeued.erase task_id } := by
  unfold Adapter.ack
  cases hget : a.tasks.get? task_id with
  | none => exact .inl ⟨rfl, rfl⟩
  | some stored => exact .inr ⟨stored.1, stored.2, rfl, rfl⟩

theorem nack_cases (task_id : Uuid) :
    a.tasks.get? task_id = none ∧ (∀ retry, a.nack task_id retry = a) ∨
      ∃ task state, a.tasks.get? task_id = some (task, state) ∧
        a.nack task_id true = { a with
          tasks := a.tasks.set task_id (task, .pending)
          dequeued := a.dequeued.erase task_id } ∧
        a.nack task_id false = { a with
          tasks := a.tasks.set task_id (task, .failed)
          discarded := a.discarded.insert task_id
          dequeued := a.dequeued.erase task_id } := by
  unfold Adapter.nack
  cases hget : a.tasks.get? task_id with
  | none => exact .inl ⟨rfl, fun _ => rfl⟩
  | some stored => exact .inr ⟨stored.1, stored.2, rfl, rfl, rfl⟩

/-- What a call leaves of a task's place. -/
structure Moves (a : Adapter Uuid Time) (e : Event Uuid Time) (a' : Adapter Uuid Time) : Prop where
  dequeues : ∀ task_id, Dequeues e task_id → place a task_id = some .pending ∧ place a' task_id = some .claimed
  ends : ∀ task_id, Ends e task_id → Over (place a' task_id)
  settled : ∀ task_id, Over (place a task_id) → Over (place a' task_id)
  away : ∀ task_id, Away (place a task_id) → Retries e task_id ∨ Away (place a' task_id)

/-- A call that answers with no task and does not give one back. -/
theorem Moves.put {e : Event Uuid Time} {a' : Adapter Uuid Time} {p : State} (task_id : Uuid)
    (hplace : ∀ id, place a' id = if id = task_id ∧ id ∉ a.discarded then some p else place a id)
    (hquiet : ∀ task, e.2 ≠ .task (some task)) (hends : ∀ id, Ends e id → id = task_id ∧ Over (some p))
    (hover : Over (place a task_id) → task_id ∉ a.discarded → Over (some p))
    (haway : Away (place a task_id) → task_id ∉ a.discarded → Retries e task_id ∨ Away (some p)) : Moves a e a' := by
  have hgone : ∀ id, id ∈ a.discarded → place a id = some .failed := fun id h => if_pos h
  refine ⟨fun id hd => ?_, fun id he => ?_, fun id ho => ?_, fun id ha => ?_⟩
  · obtain ⟨task, htask, -⟩ := hd
    exact absurd htask (hquiet task)
  · obtain ⟨rfl, hp⟩ := hends id he
    rw [hplace]
    by_cases hdiscarded : id ∈ a.discarded
    · rw [if_neg fun h => h.2 hdiscarded, hgone id hdiscarded]
      exact .inr rfl
    · rwa [if_pos ⟨rfl, hdiscarded⟩]
  · rw [hplace]
    by_cases hid : id = task_id ∧ id ∉ a.discarded
    · obtain ⟨rfl, hdiscarded⟩ := hid
      rw [if_pos ⟨rfl, hdiscarded⟩]
      exact hover ho hdiscarded
    · rwa [if_neg hid]
  · rw [hplace]
    by_cases hid : id = task_id ∧ id ∉ a.discarded
    · obtain ⟨rfl, hdiscarded⟩ := hid
      rw [if_pos ⟨rfl, hdiscarded⟩]
      exact haway ha hdiscarded
    · exact .inr (by rwa [if_neg hid])

/-- A call that does nothing. -/
theorem Moves.same {e : Event Uuid Time} (hquiet : ∀ task, e.2 ≠ .task (some task)) (hends : ∀ id, ¬ Ends e id) :
    Moves a e a :=
  ⟨fun _ hd => by obtain ⟨task, htask, -⟩ := hd; exact absurd htask (hquiet task), fun id he => absurd he (hends id),
    fun _ ho => ho, fun _ ha => .inr ha⟩

variable [LinearOrder Time]

theorem dequeue_cases (worker_id : String) (capabilities : List String) :
    a.dequeue worker_id capabilities = (none, a) ∨
      ∃ task_id task, a.tasks.get? task_id = some (task, .pending) ∧ task_id ∉ a.discarded ∧
        a.dequeue worker_id capabilities = (some task, { a with
          tasks := a.tasks.set task_id (task, .claimed)
          dequeued := a.dequeued.set task_id worker_id }) := by
  unfold Adapter.dequeue
  cases hsort : (a.tasks.entries.filter (a.isCandidate capabilities)).insertionSort Adapter.before with
  | nil => exact .inl rfl
  | cons e rest =>
    obtain ⟨task_id, task, state⟩ := e
    have hmem : (task_id, task, state) ∈ a.tasks.entries.filter (a.isCandidate capabilities) :=
      (List.perm_insertionSort _ _).mem_iff.mp (hsort ▸ List.mem_cons_self)
    obtain ⟨hentry, hcandidate⟩ := List.mem_filter.mp hmem
    simp only [Adapter.isCandidate, Bool.and_eq_true, decide_eq_true_eq] at hcandidate
    obtain ⟨⟨rfl, hdiscarded⟩, -⟩ := hcandidate
    exact .inr ⟨task_id, task, Dict.mem_entries_iff.mp hentry, hdiscarded, rfl⟩

theorem moves_enqueue {task : TaskDescriptor Uuid Time} (hc : Careful a (.enqueue task)) :
    Moves a (.enqueue task, (a.step (.enqueue task)).1) (a.step (.enqueue task)).2 := by
  have hends : ∀ id, ¬ Ends (Call.enqueue task, (a.step (.enqueue task)).1) id := fun id h => by
    rcases h with h | h <;> cases h
  have hquiet : ∀ t, (a.step (.enqueue task)).1 ≠ .task (some t) := fun t h => by cases h
  rcases enqueue_cases (a := a) task with ⟨e, -, -, heq⟩ | ⟨hno, heq⟩
  · have hsame : (a.step (.enqueue task)).2 = a := by rw [Adapter.step, heq]; rfl
    rw [hsame]
    exact .same hquiet hends
  have hput : (a.step (.enqueue task)).2 = { a with tasks := a.tasks.set task.task_id (task, .pending) } := by
    rw [Adapter.step, heq]; rfl
  -- what it takes the place of is pending
  have hpending : ∀ state, task.task_id ∉ a.discarded → place a task.task_id = some state → state = .pending :=
    fun state hdiscarded hplace => by
      obtain ⟨stored, hget⟩ := exists_of_place hdiscarded hplace
      rcases hc with ⟨e, he, hdup⟩ | hin | hall
      · exact absurd hdup (hno e he)
      · exact absurd hin hdiscarded
      · exact (hall stored state hget).1
  rw [hput]
  refine .put task.task_id place_set hquiet (fun id h => absurd h (hends id)) (fun ho hd => ?_) fun ha hd => ?_
  · rcases ho with ho | ho
    · cases hpending _ hd ho
    · cases hpending _ hd ho
  · obtain ⟨state, hstate⟩ := Option.ne_none_iff_exists'.mp ha.1
    cases hpending _ hd hstate
    exact absurd hstate ha.2

theorem moves_dequeue (hfiled : Filed a) (worker_id : String) (capabilities : List String) :
    Moves a (.dequeue worker_id capabilities, (a.step (.dequeue worker_id capabilities)).1)
      (a.step (.dequeue worker_id capabilities)).2 := by
  have hends : ∀ (x : Answer Uuid Time) id, ¬ Ends (Call.dequeue worker_id capabilities, x) id := fun x id h => by
    rcases h with h | h <;> cases h
  rcases dequeue_cases (a := a) worker_id capabilities with heq | ⟨task_id, task, hget, hdiscarded, heq⟩
  · rw [Adapter.step, heq]
    exact .same (fun t h => by cases h) (hends _)
  have hplace : ∀ id, place (a.step (.dequeue worker_id capabilities)).2 id =
      if id = task_id ∧ id ∉ a.discarded then some .claimed else place a id := by
    rw [Adapter.step, heq]
    exact place_set
  have hpending := place_stored hdiscarded hget
  refine ⟨fun id hd => ?_, fun id h => absurd h (hends _ id), fun id ho => ?_, fun id ha => ?_⟩
  · obtain ⟨t, ht, hid⟩ := hd
    rw [Adapter.step, heq] at ht
    cases ht
    obtain rfl : task_id = id := (hfiled _ _ _ hget).1.symm.trans hid
    exact ⟨hpending, by rw [hplace, if_pos ⟨rfl, hdiscarded⟩]⟩
  · rw [hplace, if_neg]
    · exact ho
    · rintro ⟨rfl, -⟩
      exact ho.away.2 hpending
  · rw [hplace, if_neg]
    · exact .inr ha
    · rintro ⟨rfl, -⟩
      exact ha.2 hpending

theorem moves_ack {task_id : Uuid} (hc : Careful a (.ack task_id)) :
    Moves a (.ack task_id, (a.step (.ack task_id)).1) (a.step (.ack task_id)).2 := by
  obtain ⟨v, hv⟩ := Dict.mem_keys_iff.mp hc
  rcases ack_cases (a := a) task_id with ⟨hnone, -⟩ | ⟨task, state, -, heq⟩
  · rw [hnone] at hv
    cases hv
  rw [Adapter.step, heq]
  refine .put task_id place_set (fun t h => by cases h) (fun id h => ?_) (fun _ _ => .inl rfl)
    fun _ _ => .inr (Over.away (.inl rfl))
  rcases h with h | h
  · cases h
    exact ⟨rfl, .inl rfl⟩
  · cases h

theorem moves_nack (hfiled : Filed a) {task_id : Uuid} {retry : Bool} (hc : Careful a (.nack task_id retry)) :
    Moves a (.nack task_id retry, (a.step (.nack task_id retry)).1) (a.step (.nack task_id retry)).2 := by
  have hquiet : ∀ task, (a.step (.nack task_id retry)).1 ≠ .task (some task) := fun t h => by cases h
  rcases nack_cases (a := a) task_id with ⟨hnone, hsame⟩ | ⟨task, state, hget, hretry, hdiscard⟩
  · cases retry with
    | false =>
      obtain ⟨v, hv⟩ := Dict.mem_keys_iff.mp hc
      rw [hnone] at hv
      cases hv
    | true =>
      have heq : (a.step (.nack task_id true)).2 = a := hsame true
      rw [heq]
      exact .same hquiet fun id h => by rcases h with h | h <;> cases h
  · cases retry with
    | true =>
      have heq : (a.step (.nack task_id true)).2 = _ := hretry
      rw [heq]
      refine .put task_id place_set hquiet (fun id h => by rcases h with h | h <;> cases h) (fun ho hd => ?_)
        fun _ _ => .inl rfl
      rcases ho with ho | ho
      · obtain ⟨stored, hstored⟩ := exists_of_place hd ho
        rcases hc with hin | hall
        · exact absurd hin hd
        · exact absurd hstored (hall stored)
      · obtain ⟨stored, hstored⟩ := exists_of_place hd ho
        exact absurd ((hfiled _ _ _ hstored).2 rfl) hd
    | false =>
      have heq : (a.step (.nack task_id false)).2 = _ := hdiscard
      rw [heq]
      refine .put task_id place_discard hquiet (fun id h => ?_) (fun _ _ => .inr rfl)
        fun _ _ => .inr (Over.away (.inr rfl))
      rcases h with h | h
      · cases h
      · cases h
        exact ⟨rfl, .inr rfl⟩

/-- **What a careful call does to the places.** -/
theorem moves_step (hfiled : Filed a) (hc : Careful a c) : Moves a (c, (a.step c).1) (a.step c).2 := by
  cases c with
  | enqueue task => exact moves_enqueue hc
  | dequeue worker_id capabilities => exact moves_dequeue hfiled worker_id capabilities
  | ack task_id => exact moves_ack hc
  | nack task_id retry => exact moves_nack hfiled hc

end

/-! ## Runs -/

section

variable {a a' : Adapter Uuid Time} {h : List (Event Uuid Time)} {c : Call Uuid Time} {e : Event Uuid Time}

/-- What the tasks know of the calls so far. -/
structure Inv (a : Adapter Uuid Time) (h : List (Event Uuid Time)) : Prop where
  filed : Filed a
  ended : ∀ task_id, ∀ e ∈ h, Ends e task_id → Over (place a task_id)
  held : ∀ task_id, Held Dequeues Retries task_id h → Away (place a task_id)
  keyed : ∀ e ∈ h, ∀ task, Accepts e task → task.task_id ∈ a.discarded ∨
    ∃ stored state, a.tasks.get? task.task_id = some (stored, state) ∧ (task.key ≠ none → stored.key = task.key)
  one : ∀ id id' stored stored' state state', a.tasks.get? id = some (stored, state) →
    a.tasks.get? id' = some (stored', state') → id ∉ a.discarded → id' ∉ a.discarded → stored.key = stored'.key →
    stored.key ≠ none → id = id'

/-- The tasks stay what they are, in another state. -/
structure Keeps (a a' : Adapter Uuid Time) : Prop where
  filed : Filed a'
  discarded : ∀ id ∈ a.discarded, id ∈ a'.discarded
  stored : ∀ id task state, a.tasks.get? id = some (task, state) → ∃ state', a'.tasks.get? id = some (task, state')
  only : ∀ id task state, a'.tasks.get? id = some (task, state) → ∃ state', a.tasks.get? id = some (task, state')

theorem Keeps.refl (hfiled : Filed a) : Keeps a a :=
  ⟨hfiled, fun _ h => h, fun _ _ state h => ⟨state, h⟩, fun _ _ state h => ⟨state, h⟩⟩

theorem Keeps.set (hfiled : Filed a) {task_id : Uuid} {task : TaskDescriptor Uuid Time} {state state' : State}
    (hget : a.tasks.get? task_id = some (task, state)) (htasks : a'.tasks = a.tasks.set task_id (task, state'))
    (hdiscarded : ∀ id ∈ a.discarded, id ∈ a'.discarded) (hfailed : state' = .failed → task_id ∈ a'.discarded) :
    Keeps a a' := by
  have hget' : ∀ id, a'.tasks.get? id = if id = task_id then some (task, state') else a.tasks.get? id := fun id => by
    rw [htasks, Dict.get?_set]
  refine ⟨fun id t s h => ?_, hdiscarded, fun id t s h => ?_, fun id t s h => ?_⟩
  · rw [hget'] at h
    split at h
    · cases h
      subst id
      exact ⟨(hfiled _ _ _ hget).1, hfailed⟩
    · exact ⟨(hfiled _ _ _ h).1, fun hs => hdiscarded _ ((hfiled _ _ _ h).2 hs)⟩
  · rw [hget']
    split
    · subst id
      rw [hget] at h
      cases h
      exact ⟨_, rfl⟩
    · exact ⟨_, h⟩
  · rw [hget'] at h
    split at h
    · cases h
      subst id
      exact ⟨_, hget⟩
    · exact ⟨_, h⟩

theorem ended_cons (hi : Inv a h) (hm : Moves a e a') (task_id : Uuid) :
    ∀ e' ∈ e :: h, Ends e' task_id → Over (place a' task_id) := by
  intro e' he' hends
  rcases List.mem_cons.mp he' with rfl | he'
  · exact hm.ends _ hends
  · exact hm.settled _ (hi.ended _ _ he' hends)

theorem held_cons (hi : Inv a h) (hm : Moves a e a') (task_id : Uuid)
    (hheld : Held Dequeues Retries task_id (e :: h)) : Away (place a' task_id) := by
  rcases hheld with hd | ⟨hheld, hno⟩
  · rw [(hm.dequeues _ hd).2]
    exact ⟨by decide, by decide⟩
  · exact (hm.away _ (hi.held _ hheld)).resolve_left hno

theorem inv_keeps (hi : Inv a h) (hm : Moves a e a') (hk : Keeps a a')
    (haccepts : ∀ task, Accepts e task → ∃ stored state, a.tasks.get? task.task_id = some (stored, state) ∧
      (task.key ≠ none → stored.key = task.key)) : Inv a' (e :: h) := by
  refine ⟨hk.filed, ended_cons hi hm, held_cons hi hm, fun e' he' task ha => ?_, ?_⟩
  · have hbefore : task.task_id ∈ a.discarded ∨ ∃ stored state, a.tasks.get? task.task_id = some (stored, state) ∧
        (task.key ≠ none → stored.key = task.key) := by
      rcases List.mem_cons.mp he' with rfl | he'
      · exact .inr (haccepts task ha)
      · exact hi.keyed _ he' _ ha
    rcases hbefore with hd | ⟨stored, state, hget, hkey⟩
    · exact .inl (hk.discarded _ hd)
    · obtain ⟨state', hget'⟩ := hk.stored _ _ _ hget
      exact .inr ⟨stored, state', hget', hkey⟩
  · intro id id' stored stored' state state' hget hget' hd hd' hkey hsome
    obtain ⟨_, hold⟩ := hk.only _ _ _ hget
    obtain ⟨_, hold'⟩ := hk.only _ _ _ hget'
    exact hi.one _ _ _ _ _ _ hold hold' (fun h => hd (hk.discarded _ h)) (fun h => hd' (hk.discarded _ h)) hkey hsome

theorem eq_of_key {Uuid Time : Type} {task task' : TaskDescriptor Uuid Time} (h : task.key = task'.key)
    (hsome : task.key ≠ none) :
    task.idempotency_key = task'.idempotency_key := by
  obtain ⟨k, hk⟩ := Option.ne_none_iff_exists'.mp hsome
  have hk' := h.symm.trans hk
  exact (Option.filter_eq_some_iff.mp hk).1.trans (Option.filter_eq_some_iff.mp hk').1.symm

/-- A task that is taken in. -/
theorem inv_accept (hi : Inv a h) {task : TaskDescriptor Uuid Time} (hc : Careful a (.enqueue task))
    (hno : ∀ e ∈ a.tasks.entries, ¬ a.duplicates task e)
    (hm : Moves a e { a with tasks := a.tasks.set task.task_id (task, .pending) })
    (haccepts : ∀ task', Accepts e task' → task' = task) :
    Inv { a with tasks := a.tasks.set task.task_id (task, .pending) } (e :: h) := by
  have hdup : ∀ id stored state, a.tasks.get? id = some (stored, state) → id ∉ a.discarded → stored.key = task.key →
      task.key ≠ none → False := fun id stored state hget hd hkey hsome => by
    refine hno (id, stored, state) (Dict.mem_entries_iff.mpr hget) ?_
    have hsame := eq_of_key hkey (hkey.trans_ne hsome)
    simp [Adapter.duplicates, Option.isSome_iff_ne_none.mpr hsome, hsame, hd]
  refine ⟨fun id t s hget => ?_, ended_cons hi hm, held_cons hi hm, fun e' he' t ha => ?_, ?_⟩
  · rw [Dict.get?_set] at hget
    split at hget
    · cases hget
      subst id
      exact ⟨rfl, fun hs => by cases hs⟩
    · exact hi.filed _ _ _ hget
  · simp only [Dict.get?_set]
    rcases List.mem_cons.mp he' with rfl | he'
    · rw [haccepts t ha, if_pos rfl]
      exact .inr ⟨task, .pending, rfl, fun _ => rfl⟩
    rcases hi.keyed _ he' _ ha with hd | ⟨stored, state, hget, hkey⟩
    · exact .inl hd
    by_cases hid : t.task_id = task.task_id
    · -- what was there has no key, or is discarded
      rcases hc with ⟨d, hd, hdup'⟩ | hin | hall
      · exact absurd hdup' (hno d hd)
      · exact .inl (hid ▸ hin)
      · rw [hid] at hget
        have hnone := (hall _ _ hget).2
        rw [if_pos hid]
        refine .inr ⟨task, .pending, rfl, fun hsome => ?_⟩
        exact absurd ((hkey hsome).symm.trans hnone) hsome
    · rw [if_neg hid]
      exact .inr ⟨stored, state, hget, hkey⟩
  · intro id id' stored stored' state state' hget hget' hd hd' hkey hsome
    rw [Dict.get?_set] at hget hget'
    split at hget
    · split at hget'
      · subst id id'
        rfl
      · cases hget
        exact (hdup _ _ _ hget' hd' hkey.symm hsome).elim
    · split at hget'
      · cases hget'
        exact (hdup _ _ _ hget hd hkey (hkey ▸ hsome)).elim
      · exact hi.one _ _ _ _ _ _ hget hget' hd hd' hkey hsome

variable [LinearOrder Time]

theorem inv_enqueue (hi : Inv a h) {task : TaskDescriptor Uuid Time} (hc : Careful a (.enqueue task)) :
    Inv (a.step (.enqueue task)).2 ((.enqueue task, (a.step (.enqueue task)).1) :: h) := by
  have hm := moves_enqueue hc
  rcases enqueue_cases (a := a) task with ⟨e, he, hdup, heq⟩ | ⟨hno, heq⟩
  · have hsame : (a.step (.enqueue task)).2 = a := by rw [Adapter.step, heq]; rfl
    have hanswer : (a.step (.enqueue task)).1 = .id e.1 := by rw [Adapter.step, heq]; rfl
    refine inv_keeps hi hm (hsame.symm ▸ .refl hi.filed) fun t ht => ?_
    rw [hanswer] at ht
    obtain ⟨htask, hid⟩ := Prod.mk.inj ht
    obtain rfl := Call.enqueue.inj htask
    refine ⟨e.2.1, e.2.2, ?_, fun hsome => ?_⟩
    · rw [← Answer.id.inj hid]
      exact Dict.mem_entries_iff.mp he
    · simp only [Adapter.duplicates, Bool.and_eq_true, decide_eq_true_eq] at hdup
      rw [TaskDescriptor.key, hdup.1.2, TaskDescriptor.key]
  · have hput : (a.step (.enqueue task)).2 = { a with tasks := a.tasks.set task.task_id (task, .pending) } := by
      rw [Adapter.step, heq]; rfl
    rw [hput] at hm ⊢
    exact inv_accept hi hc hno hm fun t ht => (Call.enqueue.inj (Prod.mk.inj ht).1).symm

/-- **A careful call keeps the invariant.** -/
theorem inv_step (hi : Inv a h) (hc : Careful a c) : Inv (a.step c).2 ((c, (a.step c).1) :: h) := by
  have hm := moves_step hi.filed hc
  cases c with
  | enqueue task => exact inv_enqueue hi hc
  | dequeue worker_id capabilities =>
    refine inv_keeps hi hm ?_ fun t ht => by cases (Prod.mk.inj ht).1
    rcases dequeue_cases (a := a) worker_id capabilities with heq | ⟨task_id, task, hget, -, heq⟩
    · rw [Adapter.step, heq]
      exact .refl hi.filed
    · rw [Adapter.step, heq]
      exact .set hi.filed hget rfl (fun _ h => h) fun h => by cases h
  | ack task_id =>
    refine inv_keeps hi hm ?_ fun t ht => by cases (Prod.mk.inj ht).1
    rcases ack_cases (a := a) task_id with ⟨-, heq⟩ | ⟨task, state, hget, heq⟩
    · rw [Adapter.step, heq]
      exact .refl hi.filed
    · rw [Adapter.step, heq]
      exact .set hi.filed hget rfl (fun _ h => h) fun h => by cases h
  | nack task_id retry =>
    refine inv_keeps hi hm ?_ fun t ht => by cases (Prod.mk.inj ht).1
    rcases nack_cases (a := a) task_id with ⟨-, heq⟩ | ⟨task, state, hget, hretry, hdiscard⟩
    · rw [Adapter.step, heq]
      exact .refl hi.filed
    · cases retry with
      | true =>
        rw [Adapter.step, hretry]
        exact .set hi.filed hget rfl (fun _ h => h) fun h => by cases h
      | false =>
        rw [Adapter.step, hdiscard]
        exact .set hi.filed hget rfl (fun _ h => List.mem_insert_of_mem h) fun _ => List.mem_insert_self

omit [LinearOrder Time] in
theorem inv_init : Inv (Adapter.init : Adapter Uuid Time) [] := by
  refine ⟨?_, fun _ e he => absurd he List.not_mem_nil, fun _ hheld => False.elim hheld,
    fun e he => absurd he List.not_mem_nil, ?_⟩
  · intro _ _ _ h
    cases h
  · intro _ _ _ _ _ _ h
    cases h

theorem inv_run (h' : Run Careful a h) : Inv a h := by
  induction h' with
  | init => exact inv_init
  | step c _ hc ih => exact inv_step ih hc

theorem ended_run (h' : Run Careful a h) (task_id : Uuid) :
    h.Pairwise fun later earlier => Ends earlier task_id → ¬ Dequeues later task_id := by
  induction h' with
  | init => exact .nil
  | step c hrun hc ih =>
    refine .cons (fun e he hends hd => ?_) ih
    have hi := inv_run hrun
    have hover := hi.ended _ e he hends
    exact hover.away.2 ((moves_step hi.filed hc).dequeues _ hd).1

theorem alternating_run (h' : Run Careful a h) (task_id : Uuid) : Alternating Dequeues Retries task_id h := by
  induction h' with
  | init => trivial
  | step c hrun hc ih =>
    refine alternating_cons ih fun hd hheld => ?_
    have hi := inv_run hrun
    exact (hi.held _ hheld).2 ((moves_step hi.filed hc).dequeues _ hd).1

/-- **The life of a task** in the runs of careful calls. -/
theorem lawful_of_careful (h' : Run Careful a h) : Lawful a h := by
  have hi := inv_run h'
  refine ⟨ended_run h', fun task_id l₁ e₂ l₂ e₁ l₃ hl h₁ h₂ => ?_, ?_⟩
  · exact separated (hl ▸ alternating_run h' task_id) h₁ h₂
  · intro e he e' he' task task' ha ha' hkey hsome hd hd'
    obtain ⟨stored, state, hget, hstored⟩ := (hi.keyed e he _ ha).resolve_left hd
    obtain ⟨stored', state', hget', hstored'⟩ := (hi.keyed e' he' _ ha').resolve_left hd'
    have hsame : stored.key = stored'.key := by rw [hstored hsome, hstored' (hkey ▸ hsome), hkey]
    exact hi.one _ _ _ _ _ _ hget hget' hd hd' hsame (by rw [hstored hsome]; exact hsome)

end

/-! ## A task -/

/-- A task with a capability. -/
def someTask : TaskDescriptor Nat Nat := ⟨0, some "k", 0, ["c"], 0⟩

/-- The adapter after calls, and the calls with their answers. -/
def runAll : List (Call Nat Nat) → Adapter Nat Nat × List (Event Nat Nat)
  | [] => (.init, [])
  | c :: earlier =>
    let (a, h) := runAll earlier
    ((a.step c).2, (c, (a.step c).1) :: h)

theorem run_runAll : ∀ calls : List (Call Nat Nat), Run Any (runAll calls).1 (runAll calls).2
  | [] => .init
  | c :: earlier => .step c (run_runAll earlier) trivial

/-- It is taken in, dequeued and done. -/
def doneCalls : List (Call Nat Nat) := [.ack 0, .dequeue "w" ["c"], .enqueue someTask]

/-- `lawful_of_careful` of these calls. -/
theorem lawful_of_careful_done : ∃ a h, Run Careful a h ∧ h.length = 3 ∧ Lawful (a : Adapter Nat Nat) h := by
  have hnew : Careful .init (.enqueue someTask) := .inr (.inr fun _ _ h => by cases h)
  have hthere : 0 ∈ (runAll doneCalls.tail).1.tasks.keys := by decide
  have hrun : Run Careful (runAll doneCalls).1 (runAll doneCalls).2 :=
    .step (.ack 0) (.step (.dequeue "w" ["c"]) (.step (.enqueue someTask) .init hnew) trivial) hthere
  exact ⟨_, _, hrun, rfl, lawful_of_careful hrun⟩

/-- A `nack` after the `ack` brings the task back. -/
def lateNack : List (Call Nat Nat) := .dequeue "w" ["c"] :: .nack 0 true :: doneCalls

/-- A task that is dequeued after its `ack`. -/
theorem acked_dequeued : ¬ ∀ (a : Adapter Nat Nat) (h : List (Event Nat Nat)), Run Any a h → Lawful a h := by
  intro hall
  have hlaw := (hall _ _ (run_runAll lateNack)).ended 0
  have hack : ((.ack 0, .none) : Event Nat Nat) ∈ (runAll lateNack.tail).2 :=
    List.mem_cons_of_mem _ List.mem_cons_self
  exact List.rel_of_pairwise_cons hlaw hack (.inl rfl) ⟨someTask, rfl, rfl⟩

end ClaudeSwarm.SwarmSpecImpl
