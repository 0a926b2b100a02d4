import ClaudeSwarm.Data.First
import ClaudeSwarm.SwarmSpecImpl.TaskQueue

/-!
# Peeking at the queue

`peek` of `ClaudeSwarmTaskQueueAdapter` (`swarm_spec_impl/task_queue.py`). `queue` is the list that both `peek` and
`dequeue` sort: `peek` returns the tasks at its front, `dequeue` takes the first one.

* `queue_dequeue`: after a `dequeue` the queue is what was behind the first.
* `dequeues_eq`: what calls of `dequeue`, one after the other, return.
* **`peek_predicts`**: `peek` returns these tasks, in the order of priority, creation and insertion.
-/

namespace ClaudeSwarm.SwarmSpecImpl

open Data

variable {Uuid Time : Type} [DecidableEq Uuid] [LinearOrder Time]

/-! ## The code -/

/-- `l[:limit]`. -/
def sliceTo {α : Type} (l : List α) (limit : Int) : List α :=
  if limit < 0 then l.take (l.length - limit.natAbs) else l.take limit.toNat

namespace Adapter

variable (a : Adapter Uuid Time)

/-- A task that `peek` lists; without capabilities, every pending one. -/
def isListed (filter_capabilities : List String) (e : Entry Uuid Time) : Bool :=
  if filter_capabilities.isEmpty then e.2.2 = .pending && e.1 ∉ a.discarded else a.isCandidate filter_capabilities e

/-- `peek`. -/
def peek (filter_capabilities : List String) (limit : Int) : List (TaskDescriptor Uuid Time) × Adapter Uuid Time :=
  ((sliceTo ((a.tasks.entries.filter (a.isListed filter_capabilities)).insertionSort before) limit).map (·.2.1), a)

/-- Calls of `dequeue` by these workers, one after the other. -/
def dequeues (capabilities : List String) :
    Adapter Uuid Time → List String → List (Option (TaskDescriptor Uuid Time)) × Adapter Uuid Time
  | a, [] => ([], a)
  | a, worker_id :: workers =>
    let first := a.dequeue worker_id capabilities
    let rest := dequeues capabilities first.2 workers
    (first.1 :: rest.1, rest.2)

/-- The tasks that can be dequeued with these capabilities, in order. -/
def queue (capabilities : List String) : List (Entry Uuid Time) :=
  (a.tasks.entries.filter (a.isCandidate capabilities)).insertionSort before

end Adapter

/-! ## The order -/

/-- Of a higher priority; or of the same and created earlier; or as early too, and inserted before. -/
def Ranked (a : Adapter Uuid Time) (e e' : Entry Uuid Time) : Prop :=
  e'.2.1.priority < e.2.1.priority ∨ e'.2.1.priority = e.2.1.priority ∧
    (e.2.1.created_at < e'.2.1.created_at ∨
      e.2.1.created_at = e'.2.1.created_at ∧ [e, e'].Sublist a.tasks.entries)

omit [DecidableEq Uuid] in
instance : Std.Total (Adapter.before : Entry Uuid Time → Entry Uuid Time → Prop) := ⟨fun e e' => by
  rcases lt_trichotomy e.2.1.priority e'.2.1.priority with h | h | h
  · exact .inr (.inl h)
  · rcases le_total e.2.1.created_at e'.2.1.created_at with ht | ht
    · exact .inl (.inr ⟨h.symm, ht⟩)
    · exact .inr (.inr ⟨h, ht⟩)
  · exact .inl (.inl h)⟩

omit [DecidableEq Uuid] in
instance : IsTrans (Entry Uuid Time) Adapter.before := ⟨fun e₁ e₂ e₃ h h' => by
  rcases h with h | ⟨h, ht⟩
  · rcases h' with h' | ⟨h', -⟩
    · exact .inl (h'.trans h)
    · exact .inl (h'.trans_lt h)
  · rcases h' with h' | ⟨h', ht'⟩
    · exact .inl (h ▸ h')
    · exact .inr ⟨h'.trans h, ht.trans ht'⟩⟩

variable {a : Adapter Uuid Time} {capabilities : List String}

/-- The queue is in that order. -/
theorem pairwise_queue : (a.queue capabilities).Pairwise (Ranked a) := by
  have hinserted : (a.tasks.entries.filter (a.isCandidate capabilities)).Pairwise
      fun e e' => [e, e'].Sublist a.tasks.entries :=
    List.pairwise_iff_forall_sublist.mpr fun h => h.trans List.filter_sublist
  refine (pairwise_insertionSort_stable hinserted).imp fun {e e'} h => ?_
  obtain ⟨hbefore, hequal⟩ := h
  rcases hbefore with hp | ⟨hp, ht⟩
  · exact .inl hp
  · rcases ht.lt_or_eq with ht | ht
    · exact .inr ⟨hp, .inl ht⟩
    · exact .inr ⟨hp, .inr ⟨ht, hequal (.inr ⟨hp.symm, ht.ge⟩)⟩⟩

theorem perm_queue : (a.queue capabilities).Perm (a.tasks.entries.filter (a.isCandidate capabilities)) :=
  List.perm_insertionSort _ _

/-! ## One call -/

/-- A `dequeue` takes the first task of the queue, and leaves the others. -/
theorem queue_dequeue {e : Entry Uuid Time} {rest : List (Entry Uuid Time)} (h : a.queue capabilities = e :: rest)
    (worker_id : String) : (a.dequeue worker_id capabilities).1 = some e.2.1 ∧
      (a.dequeue worker_id capabilities).2.queue capabilities = rest := by
  obtain ⟨task_id, task, state⟩ := e
  have hsort : (a.tasks.entries.filter (a.isCandidate capabilities)).insertionSort Adapter.before =
      (task_id, task, state) :: rest := h
  have hdequeue : a.dequeue worker_id capabilities = (some task, { a with
      tasks := a.tasks.set task_id (task, .claimed)
      dequeued := a.dequeued.set task_id worker_id }) := by
    rw [Adapter.dequeue, hsort]
  rw [hdequeue]
  refine ⟨rfl, ?_⟩
  -- the candidates that are left are those with another id
  have hleft : (a.tasks.set task_id (task, .claimed)).entries.filter (a.isCandidate capabilities) =
      (a.tasks.entries.filter (a.isCandidate capabilities)).filter fun e => e.1 ≠ task_id := by
    rw [List.filter_filter]
    refine Dict.filter_entries_set rfl (fun _ => by simp) fun e he => ?_
    rw [decide_eq_true he, Bool.true_and]
  show ((a.tasks.set task_id (task, .claimed)).entries.filter (a.isCandidate capabilities)).insertionSort _ = rest
  rw [hleft, ← filter_insertionSort, hsort, List.filter_cons_of_neg (by simp), List.filter_eq_self]
  have hnodup : ((a.queue capabilities).map Prod.fst).Nodup :=
    (perm_queue.map Prod.fst).nodup_iff.mpr (a.tasks.nodup.sublist (List.filter_sublist.map _))
  rw [h, List.map_cons, List.nodup_cons] at hnodup
  intro e he
  refine decide_eq_true fun heq => hnodup.1 ?_
  have hmem : e.1 ∈ rest.map Prod.fst := List.mem_map_of_mem he
  rwa [heq] at hmem

theorem dequeue_nil (h : a.queue capabilities = []) (worker_id : String) :
    a.dequeue worker_id capabilities = (none, a) := by
  have hsort : (a.tasks.entries.filter (a.isCandidate capabilities)).insertionSort Adapter.before = [] := h
  rw [Adapter.dequeue, hsort]

/-! ## Calls one after the other -/

/-- **What the calls return**: the tasks of the queue in turn, then none. -/
theorem dequeues_eq : ∀ (workers : List String) (a : Adapter Uuid Time),
    (a.dequeues capabilities workers).1 = ((a.queue capabilities).take workers.length).map (fun e => some e.2.1) ++
      List.replicate (workers.length - (a.queue capabilities).length) none
  | [], a => by simp [Adapter.dequeues]
  | worker_id :: workers, a => by
    rw [Adapter.dequeues]
    cases hqueue : a.queue capabilities with
    | nil =>
      rw [dequeue_nil hqueue, dequeues_eq workers a, hqueue]
      simp [List.replicate_succ]
    | cons e rest =>
      obtain ⟨hfirst, hrest⟩ := queue_dequeue hqueue worker_id
      rw [hfirst, dequeues_eq workers, hrest]
      simp

/-- **Peek predicts dequeue.** -/
theorem peek_predicts (a : Adapter Uuid Time) (capabilities : List String) (hcaps : capabilities ≠ [])
    (workers : List String) :
    (a.dequeues capabilities workers).1 = (a.peek capabilities workers.length).1.map some ++
        List.replicate (workers.length - (a.peek capabilities workers.length).1.length) none ∧
      (a.peek capabilities workers.length).2 = a ∧
      ∃ all : List (Entry Uuid Time), all.Perm (a.tasks.entries.filter (a.isCandidate capabilities)) ∧
        all.Pairwise (Ranked a) ∧ (a.peek capabilities workers.length).1 = (all.take workers.length).map (·.2.1) := by
  have hpeek : (a.peek capabilities workers.length).1 =
      ((a.queue capabilities).take workers.length).map (·.2.1) := by
    have hlisted : a.isListed capabilities = a.isCandidate capabilities := by
      funext e
      rw [Adapter.isListed, if_neg (by simpa using hcaps)]
    rw [Adapter.peek, hlisted, sliceTo, if_neg (by omega), Int.toNat_natCast]
    rfl
  refine ⟨?_, rfl, _, perm_queue, pairwise_queue, hpeek⟩
  rw [dequeues_eq, hpeek, List.map_map, List.length_map, List.length_take]
  congr 2
  omega

/-- Two tasks of one priority, the later one inserted first, and one that is claimed. -/
def twoPending : Adapter Nat Nat where
  tasks := Dict.ofList [(1, ⟨1, none, 5, ["c"], 20⟩, .pending), (2, ⟨2, none, 5, ["c", "d"], 10⟩, .pending),
    (3, ⟨3, none, 9, ["c"], 0⟩, .claimed)]
  dequeued := .empty
  discarded := []

theorem peek_predicts_twoPending : (twoPending.dequeues ["c"] ["u", "v", "w"]).1 =
    [some ⟨2, none, 5, ["c", "d"], 10⟩, some ⟨1, none, 5, ["c"], 20⟩, none] := by
  have hpeek : (twoPending.peek ["c"] 3).1 = [⟨2, none, 5, ["c", "d"], 10⟩, ⟨1, none, 5, ["c"], 20⟩] := by decide
  have hdequeues := (peek_predicts twoPending ["c"] (by decide) ["u", "v", "w"]).1
  rw [hdequeues]
  exact congrArg (fun tasks => tasks.map some ++ List.replicate (3 - tasks.length) none) hpeek

end ClaudeSwarm.SwarmSpecImpl
