import ClaudeSwarm.AutoDispatch.Dispatcher
import ClaudeSwarm.Interleave.Trace

/-!
# Tasks whose dispatch does not start

A call of `process_pending_tasks`, run alone. A dispatch may start the task, return `failed` or raise; in any case
the task has been claimed before, and nothing puts it back.

* `Loop`: what the dispatching loop does, as a relation; `loop_of_goes`: a run of the loop is one.
* **`not_stranded_iff`**: no task is stranded exactly in the calls all of whose dispatches start.
* `failed_stranded`: a task that is claimed, reported and not running.
-/

namespace ClaudeSwarm.AutoDispatch

open Interleave Interleave.Prog Data
open Python (PyError)
open SwarmLib (Doc getStr getStrings)

/-! ## What a call does -/

/-- A dispatch, by the task, and how it ended. -/
abbrev Send := String × Except PyError DispatchResult

/-- The dispatch in an entry. -/
def send? : Entry sig → Option Send
  | ⟨.dispatch task_id _ _ _ _, x⟩ => some (task_id, x)
  | _ => none

/-- The capabilities for which a host is asked in an entry: the task that needs them is considered. -/
def asked? : Entry sig → Option (List String)
  | ⟨.bestHost requires, _⟩ => some requires
  | _ => none

def sends (l : List (Entry sig)) : List Send := l.filterMap send?

def asked (l : List (Entry sig)) : List (List String) := l.filterMap asked?

/-- The dispatch started. -/
def Starts (x : Except PyError DispatchResult) : Prop := ∃ result, x = .ok result ∧ result.status ≠ "failed"

/-- The call returned the task, with a dispatch of it that started. -/
def Reports (l : List (Entry sig)) (r : Except PyError (List Dispatched)) (id : String) : Prop :=
  ∃ ds, r = .ok ds ∧ ∃ e ∈ ds, e.task_id = id ∧ ∃ result, (id, .ok result) ∈ sends l ∧
    result.dispatch_id = e.dispatch_id ∧ result.status ≠ "failed"

/-- The tasks whose models the mode allows. -/
def AutoDispatcher.eligible (d : AutoDispatcher) (pending : List Doc) : List Doc :=
  pending.filter fun task => d.isModelAllowed (d.inferModel task)

/-- The call comes to its loop, with these pending tasks and `k` claimed ones, and `l₁` is what it does there. -/
def Loops (d : AutoDispatcher) (l : List (Entry sig)) (pending : List Doc) (k : Int) (l₁ : List (Entry sig)) : Prop :=
  d.mode ≠ "off" ∧ ∃ lr li lc claimed, l = ⟨.alive, true⟩ :: (lr ++ (li ++ (lc ++ l₁))) ∧
    rerankTasks.Goes lr (.ok pending) ∧ (interruptAll pending).Goes li (.ok ()) ∧
      (listTasks (some .claimed)).Goes lc (.ok claimed) ∧ k = claimed.length ∧ k < d.maxConcurrent

/-- Whatever becomes of a task, those after it are considered, until the limit is reached. -/
def Considers (d : AutoDispatcher) (l : List (Entry sig)) : Prop :=
  ∀ pending k l₁, Loops d l pending k l₁ →
    asked l₁ = (d.eligible pending).map (getStrings · "requires") ∨
      asked l₁ <+: (d.eligible pending).map (getStrings · "requires") ∧ d.maxConcurrent ≤ k + (sends l₁).length

/-- What was pending still is, or is reported with a dispatch that started; and every eligible task is considered. -/
structure NotStranded (d : AutoDispatcher) (s : State) (l : List (Entry sig))
    (r : Except PyError (List Dispatched)) (s' : State) : Prop where
  kept : ∀ id, s.tree.File .pending id → s'.tree.File .pending id ∨ Reports l r id
  considers : Considers d l

/-! ## The loop -/

/-- What the loop does with `k` tasks claimed, from the pending tasks `P`. -/
inductive Loop (d : AutoDispatcher) : (k : Int) → List Doc → (P : Set String) → List Send → List (List String) →
    Except PyError (List Dispatched) → (P' : Set String) → Prop
  | done {k : Int} {P : Set String} : Loop d k [] P [] [] (.ok []) P
  | full {k : Int} {tasks : List Doc} {P : Set String} (h : d.maxConcurrent ≤ k) : Loop d k tasks P [] [] (.ok []) P
  | barred {k : Int} {task : Doc} {rest : List Doc} {P P' : Set String} {qs : List Send} {as : List (List String)}
    {r : Except PyError (List Dispatched)} (hmodel : d.isModelAllowed (d.inferModel task) = false)
    (h : Loop d k rest P qs as r P') : Loop d k (task :: rest) P qs as r P'
  | passed {k : Int} {task : Doc} {rest : List Doc} {P P' : Set String} {qs : List Send} {as : List (List String)}
    {r : Except PyError (List Dispatched)} (hmodel : d.isModelAllowed (d.inferModel task) = true)
    (h : Loop d k rest P qs as r P') : Loop d k (task :: rest) P qs (getStrings task "requires" :: as) r P'
  | raised {k : Int} {task : Doc} {rest : List Doc} {P : Set String} {id : String} {e : PyError}
    (hmodel : d.isModelAllowed (d.inferModel task) = true) (hid : id ∈ P) :
    Loop d k (task :: rest) P [(id, .error e)] [getStrings task "requires"] (.error e) (P \ {id})
  | sent {k : Int} {task : Doc} {rest : List Doc} {P P' : Set String} {qs : List Send} {as : List (List String)}
    {r : Except PyError (List Dispatched)} {id : String} {result : DispatchResult} {e : Dispatched}
    (hmodel : d.isModelAllowed (d.inferModel task) = true) (hid : id ∈ P) (hlimit : k < d.maxConcurrent)
    (he : e.task_id = id ∧ e.dispatch_id = result.dispatch_id) (h : Loop d (k + 1) rest (P \ {id}) qs as r P') :
    Loop d k (task :: rest) P ((id, .ok result) :: qs) (getStrings task "requires" :: as) (r.map (e :: ·)) P'

namespace Loop

variable {d : AutoDispatcher} {k : Int} {tasks : List Doc} {P P' : Set String} {qs : List Send}
  {as : List (List String)} {r : Except PyError (List Dispatched)}

theorem subset (h : Loop d k tasks P qs as r P') : P' ⊆ P := by
  induction h with
  | done => exact subset_rfl
  | full _ => exact subset_rfl
  | barred _ _ ih => exact ih
  | passed _ _ ih => exact ih
  | raised _ _ => exact Set.sdiff_subset
  | sent _ _ _ _ _ ih => exact ih.trans Set.sdiff_subset

/-- What is dispatched was pending, and is not any more. -/
theorem taken (h : Loop d k tasks P qs as r P') : ∀ q ∈ qs, q.1 ∈ P ∧ q.1 ∉ P' := by
  induction h with
  | done => simp
  | full _ => simp
  | barred _ _ ih => exact ih
  | passed _ _ ih => exact ih
  | raised _ hid =>
    intro q hq
    rw [List.mem_singleton.mp hq]
    exact ⟨hid, fun h => h.2 rfl⟩
  | sent _ hid _ _ h ih =>
    intro q hq
    rcases List.mem_cons.mp hq with rfl | hq
    · exact ⟨hid, fun hmem => (h.subset hmem).2 rfl⟩
    · exact ⟨(ih q hq).1.1, (ih q hq).2⟩

/-- No task is dispatched twice. -/
theorem once (h : Loop d k tasks P qs as r P') : (qs.map Prod.fst).Nodup := by
  induction h with
  | done => exact List.nodup_nil
  | full _ => exact List.nodup_nil
  | barred _ _ ih => exact ih
  | passed _ _ ih => exact ih
  | raised _ _ => exact List.nodup_singleton _
  | sent _ _ _ _ h ih =>
    refine List.nodup_cons.mpr ⟨fun hmem => ?_, ih⟩
    obtain ⟨q, hq, he⟩ := List.mem_map.mp hmem
    exact (h.taken q hq).1.2 he

/-- What is no longer pending was dispatched. -/
theorem left (h : Loop d k tasks P qs as r P') : ∀ id ∈ P, id ∈ P' ∨ ∃ x, (id, x) ∈ qs := by
  induction h with
  | done => exact fun _ hid => Or.inl hid
  | full _ => exact fun _ hid => Or.inl hid
  | barred _ _ ih => exact ih
  | passed _ _ ih => exact ih
  | @raised _ _ _ _ id e _ _ =>
    intro id' hid'
    by_cases he : id' = id
    · exact Or.inr ⟨.error e, by rw [he]; exact List.mem_singleton_self _⟩
    · exact Or.inl ⟨hid', he⟩
  | @sent _ _ _ _ _ _ _ _ id result _ _ _ _ _ _ ih =>
    intro id' hid'
    by_cases he : id' = id
    · exact Or.inr ⟨.ok result, by rw [he]; exact List.mem_cons_self⟩
    · rcases ih id' ⟨hid', he⟩ with h' | ⟨x, hx⟩
      · exact Or.inl h'
      · exact Or.inr ⟨x, List.mem_cons_of_mem _ hx⟩

/-- A dispatch and its entry in the list returned. -/
def Entered (q : Send) (e : Dispatched) : Prop :=
  e.task_id = q.1 ∧ ∃ result, q.2 = .ok result ∧ result.dispatch_id = e.dispatch_id

/-- A call that returns returns every dispatch. -/
theorem returned (h : Loop d k tasks P qs as r P') : ∀ ds, r = .ok ds → List.Forall₂ Entered qs ds := by
  induction h with
  | done =>
    rintro ds hr
    cases hr
    exact .nil
  | full _ =>
    rintro ds hr
    cases hr
    exact .nil
  | barred _ _ ih => exact ih
  | passed _ _ ih => exact ih
  | raised _ _ => exact fun ds hr => by cases hr
  | @sent _ _ _ _ _ _ _ r _ result _ _ _ _ he _ ih =>
    intro ds hr
    cases r with
    | error e => cases hr
    | ok ds' =>
      cases hr
      exact .cons ⟨he.1, result, rfl, he.2.symm⟩ (ih ds' rfl)

/-- A call that raises what a dispatch raised. -/
theorem raises (h : Loop d k tasks P qs as r P') : ∀ e, r = .error e → ∃ q ∈ qs, q.2 = .error e := by
  induction h with
  | done => exact fun _ hr => by cases hr
  | full _ => exact fun _ hr => by cases hr
  | barred _ _ ih => exact ih
  | passed _ _ ih => exact ih
  | raised _ _ =>
    intro e hr
    cases hr
    exact ⟨_, List.mem_singleton_self _, rfl⟩
  | @sent _ _ _ _ _ _ _ r _ _ _ _ _ _ _ _ ih =>
    intro e hr
    cases r with
    | ok ds => cases hr
    | error _ =>
      cases hr
      obtain ⟨q, hq, he⟩ := ih e rfl
      exact ⟨q, List.mem_cons_of_mem _ hq, he⟩

/-- A call that returns has considered every eligible task, or reached the limit. -/
theorem considered (h : Loop d k tasks P qs as r P') : ∀ ds, r = .ok ds →
    as = (d.eligible tasks).map (getStrings · "requires") ∨
      as <+: (d.eligible tasks).map (getStrings · "requires") ∧ d.maxConcurrent ≤ k + qs.length := by
  have hbarred : ∀ {task : Doc} {rest : List Doc}, d.isModelAllowed (d.inferModel task) = false →
      d.eligible (task :: rest) = d.eligible rest := fun h => List.filter_cons_of_neg (by simp [h])
  have hallowed : ∀ {task : Doc} {rest : List Doc}, d.isModelAllowed (d.inferModel task) = true →
      d.eligible (task :: rest) = task :: d.eligible rest := fun h => List.filter_cons_of_pos h
  induction h with
  | done => exact fun _ _ => Or.inl rfl
  | full h => exact fun _ _ => Or.inr ⟨List.nil_prefix, by simpa using h⟩
  | barred hmodel _ ih =>
    rw [hbarred hmodel]
    exact ih
  | passed hmodel _ ih =>
    intro ds hr
    rw [hallowed hmodel, List.map_cons]
    rcases ih ds hr with rfl | ⟨hinit, hlimit⟩
    · exact Or.inl rfl
    · exact Or.inr ⟨(List.prefix_cons_inj _).mpr hinit, hlimit⟩
  | raised _ _ => exact fun ds hr => by cases hr
  | @sent _ _ _ _ _ _ _ r _ _ _ hmodel _ _ _ _ ih =>
    intro ds hr
    rw [hallowed hmodel, List.map_cons]
    cases r with
    | error e => cases hr
    | ok ds' =>
      rcases ih ds' rfl with rfl | ⟨hinit, hlimit⟩
      · exact Or.inl rfl
      · refine Or.inr ⟨(List.prefix_cons_inj _).mpr hinit, ?_⟩
        rw [List.length_cons]
        omega

end Loop

/-! ## Commands that leave the pending tasks -/

/-- A command that moves no pending task, asks for no host and dispatches nothing. -/
def Quiet : Cmd → Prop
  | .tree c => c.IsStill
  | .bestHost _ | .dispatch _ _ _ _ _ => False
  | _ => True

/-- A command that asks for no host and dispatches nothing. -/
def Unseen : Cmd → Prop
  | .bestHost _ | .dispatch _ _ _ _ _ => False
  | _ => True

variable {n : Nat} {s s' : State} {l : List (Entry sig)} {d : AutoDispatcher}

/-- The pending tasks. -/
def pendingIds (s : State) : Set String := {id | s.tree.File .pending id}

theorem pendingIds_eq (h : s'.tree.files .pending = s.tree.files .pending) : pendingIds s' = pendingIds s := by
  unfold pendingIds SwarmLib.Tree.File
  rw [h]

theorem pending_of_exec {i : Input} {c : Cmd} {x : Resp c} (hc : Quiet c) (hx : exec n i s c = some (x, s')) :
    pendingIds s' = pendingIds s := by
  simp only [exec] at hx
  split at hx
  · cases c with
    | tree c =>
      obtain ⟨p, hp, he⟩ := Option.map_eq_some_iff.mp hx
      cases he
      exact pendingIds_eq (congrFun (SwarmLib.files_of_still hc hp) .pending)
    | move id =>
      simp only [perform] at hx
      split at hx
      · cases hx
        exact pendingIds_eq (by simp [SwarmLib.drop])
      · cases hx
        rfl
    | bestHost _ => exact hc.elim
    | dispatch _ _ _ _ _ => exact hc.elim
    | _ =>
      cases hx
      rfl
  · cases hx

/-- The answer to a question leaves the tree. -/
theorem pending_of_ask {i : Input} {requires : List String} {x : Option String}
    (hx : exec n i s (.bestHost requires) = some (x, s')) : pendingIds s' = pendingIds s := by
  simp only [exec] at hx
  split at hx
  · cases hx
    rfl
  · cases hx

theorem pending_of_dispatch {i : Input} {task_id host task model : String} {project_dir : Option String}
    {x : Except PyError DispatchResult} (hx : exec n i s (.dispatch task_id host task model project_dir) = some (x, s')) :
    pendingIds s' = pendingIds s := by
  simp only [exec] at hx
  split at hx
  · cases hx
    rfl
  · cases hx

theorem sends_append (l₁ l₂ : List (Entry sig)) : sends (l₁ ++ l₂) = sends l₁ ++ sends l₂ := List.filterMap_append

theorem asked_append (l₁ l₂ : List (Entry sig)) : asked (l₁ ++ l₂) = asked l₁ ++ asked l₂ := List.filterMap_append

/-- What is unseen leaves no mark. -/
theorem unseen_trace (h : ∀ e ∈ l, Unseen e.1) : sends l = [] ∧ asked l = [] := by
  have hnone : ∀ e ∈ l, send? e = none ∧ asked? e = none := by
    rintro ⟨c, x⟩ he
    have hc : Unseen c := h _ he
    cases c with
    | bestHost _ => exact hc.elim
    | dispatch _ _ _ _ _ => exact hc.elim
    | _ => exact ⟨rfl, rfl⟩
  exact ⟨List.filterMap_eq_nil_iff.mpr fun e he => (hnone e he).1,
    List.filterMap_eq_nil_iff.mpr fun e he => (hnone e he).2⟩

theorem Quiet.unseen {c : Cmd} (h : Quiet c) : Unseen c := by
  cases c with
  | bestHost _ => exact h
  | dispatch _ _ _ _ _ => exact h
  | _ => trivial

/-- A part of the call that is quiet. -/
theorem quiet_trace {α : Type} {p : P α} (hp : p.Each Quiet) {r : Except PyError α} (hg : p.Goes l r)
    (hl : store.Plays n s l s') : sends l = [] ∧ asked l = [] ∧ pendingIds s' = pendingIds s := by
  have heach := hp.goes hg
  obtain ⟨hsends, hasked⟩ := unseen_trace fun e he => (heach e he).unseen
  refine ⟨hsends, hasked, ?_⟩
  clear hg hsends hasked
  induction l generalizing s with
  | nil => rw [show s' = s from hl]
  | cons e l ih =>
    obtain ⟨i, s₁, hx, hrest⟩ := hl
    rw [ih hrest fun e' he' => heach e' (List.mem_cons_of_mem _ he'), pending_of_exec (heach e List.mem_cons_self) hx]

/-! ## The parts of a call -/

theorem quiet_tree {α : Type} {p : SwarmLib.P α} (hp : p.Each SwarmLib.Cmd.IsStill) : (onTree.on p).Each Quiet :=
  onTree.each_on (fun _ hc => hc) hp

theorem quiet_listTasks : ∀ stage, (listTasks stage).Each Quiet := by
  have hlist : ∀ stage, (onTree.on (SwarmLib.listStage stage)).Each Quiet := fun stage =>
    quiet_tree (SwarmLib.each_listStage stage)
  rintro (_ | stage)
  · exact each_bind (fun _ => each_bind (fun _ => each_bind (fun _ => each_bind (fun _ => each_ret _) (hlist _))
      (hlist _)) (hlist _)) (hlist _)
  · exact hlist stage

theorem quiet_taskId {task : Doc} : (taskId task).Each Quiet := by
  unfold taskId
  split <;> trivial

theorem quiet_preemptTask {task_id : String} : (preemptTask task_id).Each Quiet := by
  refine each_bind (fun there => ?_) (quiet_tree ⟨trivial, fun _ => trivial⟩)
  split
  · refine each_cmd_bind trivial fun moved => ?_
    split <;> trivial
  · trivial

theorem quiet_preemptTasks {v : Int} : ∀ tasks, (preemptTasks v tasks).Each Quiet
  | [] => trivial
  | task :: rest => by
    unfold preemptTasks
    split
    · exact each_bind (fun _ => each_bind (fun _ => each_bind (fun _ => each_ret _) (quiet_preemptTasks rest))
        quiet_preemptTask) quiet_taskId
    · exact quiet_preemptTasks rest

theorem quiet_interruptForPriority {task_id : String} : (interruptForPriority task_id).Each Quiet := by
  refine each_bind (fun all_tasks => ?_) (quiet_listTasks none)
  split
  · trivial
  · split
    · trivial
    · exact each_bind (fun claimed => quiet_preemptTasks claimed) (quiet_listTasks _)

theorem quiet_interruptAll : ∀ tasks, (interruptAll tasks).Each Quiet
  | [] => trivial
  | task :: rest => by
    unfold interruptAll
    split
    · exact each_bind (fun _ => each_bind (fun _ => quiet_interruptAll rest) quiet_interruptForPriority) quiet_taskId
    · exact quiet_interruptAll rest

theorem quiet_rerankTasks : rerankTasks.Each Quiet := each_bind (fun _ => each_ret _) (quiet_listTasks _)

theorem quiet_isHostQuarantined {host : String} : (isHostQuarantined host).Each Quiet := by
  refine each_cmd_bind trivial fun until_ => each_cmd_bind trivial fun now => ?_
  split
  · trivial
  · refine each_cmd_bind trivial fun entry => ?_
    split
    · exact each_cmd_bind trivial fun _ => trivial
    · trivial

theorem quiet_recordHostFailure {host : String} : (recordHostFailure host).Each Quiet := by
  refine each_cmd_bind trivial fun failures => each_cmd_bind trivial fun _ => ?_
  split
  · exact each_cmd_bind trivial fun now => ⟨trivial, fun _ => trivial⟩
  · trivial

theorem quiet_recordHostSuccess {host : String} : (recordHostSuccess host).Each Quiet := ⟨trivial, fun _ => trivial⟩

theorem unseen_tryClaim {task_id : String} : (tryClaim task_id).Each Unseen := by
  refine each_catch (fun e => ?_) (each_bind (fun _ => each_ret _)
    (onTree.each_on (fun _ _ => trivial) (each_true _)))
  split <;> trivial

/-- A claim takes the task out of `pending/`, or does nothing. -/
theorem tryClaim_spec {task_id : String} {r : Except PyError Bool} (h : store.Runs n (tryClaim task_id) s r s') :
    r = .ok true ∧ task_id ∈ pendingIds s ∧ pendingIds s' = pendingIds s \ {task_id} ∨
      r = .ok false ∧ pendingIds s' = pendingIds s := by
  have hclaim : ∀ {r' : Except PyError Doc} {s₁ : State}, store.Runs n (onTree.on (SwarmLib.claimTask task_id)) s r' s₁ →
      SwarmLib.Claims s.tree.files task_id r' s₁.tree.files := fun hr =>
    SwarmLib.claimTask_yields.runs rfl (onTree.runs_on hr).2
  have hmem : ∀ (s : State) id, id ∈ pendingIds s ↔ (SwarmLib.content s.tree.files .pending id).isSome := fun s id =>
    SwarmLib.file_iff_content
  rcases (store.runs_catch n).mp h with ⟨b, rfl, hp⟩ | ⟨e, s₁, hp, hf⟩
  · rcases (store.runs_bind n).mp hp with ⟨task, s₁, hr, hb⟩ | ⟨e, -, he⟩
    · obtain ⟨hb, rfl⟩ := hb
      obtain rfl := Except.ok.inj hb
      rcases hclaim hr with ⟨task', hostname, claimed_at, hthere, -, hfiles⟩ | ⟨-, ⟨msg, hmsg⟩, -⟩
      · refine Or.inl ⟨rfl, (hmem s task_id).mpr (by rw [hthere]; rfl), Set.ext fun id => ?_⟩
        rw [hmem, hfiles, SwarmLib.content_drop, SwarmLib.content_put, Set.mem_sdiff, hmem, Set.mem_singleton_iff]
        by_cases hid : id = task_id
        · simp [hid]
        · simp [hid]
      · cases hmsg
    · cases he
  · rcases (store.runs_bind n).mp hp with ⟨task, s₂, -, hb⟩ | ⟨e', hr, he⟩
    · cases hb.1
    · obtain rfl := Except.error.inj he
      rcases hclaim hr with ⟨task', hostname, claimed_at, -, hok, -⟩ | ⟨-, ⟨msg, hmsg⟩, hfiles⟩
      · cases hok
      · obtain rfl := Except.error.inj hmsg
        obtain ⟨rfl, rfl⟩ := hf
        exact Or.inr ⟨rfl, pendingIds_eq (congrFun hfiles .pending)⟩

theorem goes_isHostQuarantined {host : String} {r : Except PyError Bool} (h : (isHostQuarantined host).Goes l r) :
    ∃ b, r = .ok b := by
  obtain ⟨u, l₁, -, h₁⟩ := goes_cmd.mp h
  obtain ⟨now, l₂, -, h₂⟩ := goes_cmd.mp h₁
  split at h₂
  · exact ⟨true, h₂.2⟩
  · obtain ⟨u', l₃, -, h₃⟩ := goes_cmd.mp h₂
    cases u' with
    | none => exact ⟨false, h₃.2⟩
    | some u' =>
      obtain ⟨-, l₄, -, h₄⟩ := goes_cmd.mp h₃
      exact ⟨false, h₄.2⟩

theorem goes_recordHostFailure {host : String} {r : Except PyError Unit} (h : (recordHostFailure host).Goes l r) :
    r = .ok () := by
  obtain ⟨failures, l₁, -, h₁⟩ := goes_cmd.mp h
  obtain ⟨-, l₂, -, h₂⟩ := goes_cmd.mp h₁
  split at h₂
  · obtain ⟨now, l₃, -, u, l₄, -, h₃⟩ := goes_cmd.mp h₂
    exact h₃.2
  · exact h₂.2

/-- How the dispatch of a claimed task ends. -/
theorem send_spec {task : Doc} {task_id host model : String} {r : Except PyError Dispatched}
    (hg : (d.send task task_id host model).Goes l r) (hl : store.Plays n s l s') :
    pendingIds s' = pendingIds s ∧ asked l = [] ∧
      ((∃ e, r = .error e ∧ sends l = [(task_id, .error e)]) ∨ ∃ result e, r = .ok e ∧
        (e.task_id = task_id ∧ e.dispatch_id = result.dispatch_id) ∧ sends l = [(task_id, .ok result)]) := by
  obtain ⟨x, l₁, rfl, hx⟩ := goes_cmd.mp hg
  obtain ⟨i, s₁, hexec, hl₁⟩ := hl
  have hpending := pending_of_dispatch hexec
  cases x with
  | error e =>
    obtain ⟨rfl, rfl⟩ := hx
    rw [show s' = s₁ from hl₁]
    exact ⟨hpending, rfl, Or.inl ⟨e, rfl, rfl⟩⟩
  | ok result =>
    have hrecord : ∀ {p : P Unit}, p.Each Quiet → (∀ {l r}, p.Goes l r → r = .ok ()) →
        (p >>= fun _ => .ret ⟨task_id, host, model, result.dispatch_id, d.mode⟩).Goes l₁ r →
        pendingIds s' = pendingIds s₁ ∧ asked l₁ = [] ∧ sends l₁ = [] ∧
          r = .ok ⟨task_id, host, model, result.dispatch_id, d.mode⟩ := by
      intro p hquiet hok hp
      rcases goes_bind.mp hp with ⟨u, l₂, l₃, rfl, hp₂, rfl, rfl⟩ | ⟨e, hp₂, -⟩
      · rw [List.append_nil] at hl₁ ⊢
        obtain ⟨hsends, hasked, hsame⟩ := quiet_trace hquiet hp₂ hl₁
        exact ⟨hsame, hasked, hsends, rfl⟩
      · cases hok hp₂
    have hspec : pendingIds s' = pendingIds s₁ ∧ asked l₁ = [] ∧ sends l₁ = [] ∧
        r = .ok ⟨task_id, host, model, result.dispatch_id, d.mode⟩ := by
      by_cases hfailed : result.status = "failed"
      · simp only [if_pos hfailed] at hx
        exact hrecord quiet_recordHostFailure goes_recordHostFailure hx
      · simp only [if_neg hfailed] at hx
        exact hrecord quiet_recordHostSuccess (fun ⟨u, l', _, h⟩ => h.2) hx
    obtain ⟨hsame, hasked, hsends, rfl⟩ := hspec
    refine ⟨hsame.trans hpending, hasked, Or.inr ⟨result, _, rfl, ⟨rfl, rfl⟩, ?_⟩⟩
    show (task_id, Except.ok result) :: sends l₁ = _
    rw [hsends]

/-- **The loop.** A run of it is one of `Loop`. -/
theorem loop_of_goes : ∀ {tasks : List Doc} {k : Int} {s s' : State} {l : List (Entry sig)}
    {r : Except PyError (List Dispatched)}, (∀ task ∈ tasks, (getStr task "id").isSome) →
    (d.dispatchTasks k tasks).Goes l r → store.Plays n s l s' →
    Loop d k tasks (pendingIds s) (sends l) (asked l) r (pendingIds s')
  | [], k, s, s', l, r, _, hg, hl => by
    obtain ⟨rfl, rfl⟩ := hg
    rw [show s' = s from hl]
    exact .done
  | task :: rest, k, s, s', l, r, hids, hg, hl => by
    have hrest : ∀ task ∈ rest, (getStr task "id").isSome := fun t ht => hids t (List.mem_cons_of_mem _ ht)
    unfold AutoDispatcher.dispatchTasks at hg
    split at hg
    · rename_i hlimit
      obtain ⟨rfl, rfl⟩ := hg
      rw [show s' = s from hl]
      exact .full hlimit
    rename_i hlimit
    dsimp only at hg
    split at hg
    · rename_i hbarred
      exact .barred (by simpa using hbarred) (loop_of_goes hrest hg hl)
    rename_i hallowed
    have hmodel : d.isModelAllowed (d.inferModel task) = true := by simpa using hallowed
    obtain ⟨best, l₁, rfl, hg₁⟩ := goes_cmd.mp hg
    obtain ⟨i, s₁, hx, hl₁⟩ := hl
    rw [← pending_of_ask hx]
    show Loop d k (task :: rest) (pendingIds s₁) (sends l₁) (getStrings task "requires" :: asked l₁) r (pendingIds s')
    split at hg₁
    · exact .passed hmodel (loop_of_goes hrest hg₁ hl₁)
    rename_i host _
    rcases goes_bind.mp hg₁ with ⟨b, lq, l₂, rfl, hq, hg₂⟩ | ⟨e, hq, -⟩
    swap
    · obtain ⟨b, hb⟩ := goes_isHostQuarantined hq
      cases hb
    obtain ⟨s₂, hlq, hl₂⟩ := (store.plays_append n).mp hl₁
    obtain ⟨hqsends, hqasked, hqsame⟩ := quiet_trace quiet_isHostQuarantined hq hlq
    rw [sends_append, asked_append, hqsends, hqasked, List.nil_append, List.nil_append, ← hqsame]
    split at hg₂
    · exact .passed hmodel (loop_of_goes hrest hg₂ hl₂)
    obtain ⟨id, hid⟩ := Option.isSome_iff_exists.mp (hids task List.mem_cons_self)
    have htask : taskId task = .ret id := by
      unfold taskId
      rw [hid]
      rfl
    rw [htask, ret_bind] at hg₂
    rcases goes_bind.mp hg₂ with ⟨claimed, lc, l₃, rfl, hc, hg₃⟩ | ⟨e, hc, -⟩
    swap
    · rcases tryClaim_spec ((store.runs_iff n).mpr ⟨l₂, hc, hl₂⟩) with ⟨he, -⟩ | ⟨he, -⟩ <;> cases he
    obtain ⟨s₃, hlc, hl₃⟩ := (store.plays_append n).mp hl₂
    obtain ⟨hcsends, hcasked⟩ := unseen_trace (unseen_tryClaim.goes hc)
    rw [sends_append, asked_append, hcsends, hcasked, List.nil_append, List.nil_append]
    rcases tryClaim_spec ((store.runs_iff n).mpr ⟨lc, hc, hlc⟩) with ⟨hb, hmem, htaken⟩ | ⟨hb, hsame⟩
    swap
    · obtain rfl := Except.ok.inj hb
      rw [← hsame]
      exact .passed hmodel (loop_of_goes hrest hg₃ hl₃)
    obtain rfl := Except.ok.inj hb
    rcases goes_bind.mp hg₃ with ⟨e, ls, l₄, rfl, hsend, hg₄⟩ | ⟨e, hsend, rfl⟩
    · obtain ⟨s₄, hls, hl₄⟩ := (store.plays_append n).mp hl₃
      obtain ⟨hsame, hsasked, ⟨err, herr, -⟩ | ⟨result, e', he', hentry, hssends⟩⟩ := send_spec hsend hls
      · cases herr
      obtain rfl := Except.ok.inj he'
      rw [sends_append, asked_append, hssends, hsasked]
      have hloop : ∀ {l' : List (Entry sig)} {r' : Except PyError (List Dispatched)},
          (d.dispatchTasks (k + 1) rest).Goes l' r' → store.Plays n s₄ l' s' →
          Loop d (k + 1) rest (pendingIds s₂ \ {id}) (sends l') (asked l') r' (pendingIds s') := fun hg' hl' => by
        rw [← htaken, ← hsame]
        exact loop_of_goes hrest hg' hl'
      rcases goes_bind.mp hg₄ with ⟨ds, l₅, l₆, rfl, hd, rfl, rfl⟩ | ⟨err, hd, rfl⟩
      · rw [List.append_nil] at hl₄ ⊢
        exact .sent (r := .ok ds) hmodel hmem (not_le.mp hlimit) hentry (hloop hd hl₄)
      · exact .sent (r := .error err) hmodel hmem (not_le.mp hlimit) hentry (hloop hd hl₄)
    · obtain ⟨hsame, hsasked, ⟨err, herr, hssends⟩ | ⟨result, e', he', -⟩⟩ := send_spec hsend hl₃
      · obtain rfl := Except.error.inj herr
        rw [hssends, hsasked, hsame, htaken]
        exact .raised hmodel hmem
      · cases he'

/-! ## The call -/

/-- Every pending task file has an id. -/
def Named (s : State) : Prop :=
  ∀ id data, SwarmLib.content s.tree.files .pending id = some data → (getStr data "id").isSome

/-- What `rerank_tasks` returns are the tasks of the pending files. -/
theorem ids_of_rerankTasks (hnamed : Named s) {pending : List Doc} (hg : rerankTasks.Goes l (.ok pending))
    (hl : store.Plays n s l s') : ∀ task ∈ pending, (getStr task "id").isSome := by
  rcases (store.runs_bind n).mp ((store.runs_iff n).mpr ⟨l, hg, hl⟩) with ⟨tasks, s₁, hr, he, -⟩ | ⟨e, -, he⟩
  swap
  · cases he
  cases he
  intro task htask
  obtain ⟨tasks', hok, -, ids, -, htasks⟩ := SwarmLib.listStage_total.runs (onTree.runs_on hr).2
  cases hok
  have hmem : task ∈ tasks := (List.mem_insertionSort before).mp htask
  obtain ⟨id, -, data, hdata, hlisted⟩ := SwarmLib.exists_of_forall₂ htasks.flip hmem
  have hid : getStr task "id" = getStr data "id" := by
    unfold getStr
    rw [hlisted "id" (by decide) (by decide)]
  rw [hid]
  exact hnamed id data hdata

theorem tree_of_alive {i : Input} {x : Bool} (hx : exec n i s .alive = some (x, s')) : s'.tree = s.tree := by
  simp only [exec] at hx
  split at hx
  · cases hx
    rfl
  · cases hx

/-- What comes before the loop leaves the pending tasks, and the loop is the rest. -/
theorem loop_of_loops (hnamed : Named s) {r : Except PyError (List Dispatched)}
    (hg : d.processPendingTasks.Goes l r) (hl : store.Plays n s l s') {pending : List Doc} {k : Int}
    {l₁ : List (Entry sig)} (h : Loops d l pending k l₁) :
    Loop d k pending (pendingIds s) (sends l₁) (asked l₁) r (pendingIds s') ∧ sends l = sends l₁ := by
  obtain ⟨hmode, lr, li, lc, claimed, rfl, hr, hi, hc, rfl, hlimit⟩ := h
  unfold AutoDispatcher.processPendingTasks at hg
  rw [if_neg hmode] at hg
  obtain ⟨alive, l₂, he, hg₁⟩ := goes_cmd.mp hg
  obtain ⟨hhead, rfl⟩ := List.cons.inj he
  obtain rfl : true = alive := eq_of_heq (Sigma.mk.inj hhead).2
  have hg₂ := goes_of_bind hg₁ hr
  have hg₃ := goes_of_bind hg₂ hi
  have hg₄ := goes_of_bind hg₃ hc
  simp only [if_neg (not_le.mpr hlimit)] at hg₄
  obtain ⟨i, s₁, hx, hl₁⟩ := hl
  obtain ⟨s₂, hlr, hl₂⟩ := (store.plays_append n).mp hl₁
  obtain ⟨s₃, hli, hl₃⟩ := (store.plays_append n).mp hl₂
  obtain ⟨s₄, hlc, hl₄⟩ := (store.plays_append n).mp hl₃
  have htree := tree_of_alive hx
  have halive : pendingIds s₁ = pendingIds s := pendingIds_eq (by rw [htree])
  obtain ⟨hrsends, -, hrsame⟩ := quiet_trace quiet_rerankTasks hr hlr
  obtain ⟨hisends, -, hisame⟩ := quiet_trace (quiet_interruptAll pending) hi hli
  obtain ⟨hcsends, -, hcsame⟩ := quiet_trace (quiet_listTasks _) hc hlc
  have hnamed₁ : Named s₁ := by
    unfold Named
    rw [htree]
    exact hnamed
  refine ⟨?_, ?_⟩
  · rw [← halive, ← hrsame, ← hisame, ← hcsame]
    exact loop_of_goes (ids_of_rerankTasks hnamed₁ hr hlr) hg₄ hl₄
  · show sends (lr ++ (li ++ (lc ++ l₁))) = sends l₁
    rw [sends_append, sends_append, sends_append, hrsends, hisends, hcsends, List.nil_append, List.nil_append,
      List.nil_append]

/-- A call that does not come to its loop dispatches nothing and claims nothing. -/
theorem loops_or_quiet {r : Except PyError (List Dispatched)} (hg : d.processPendingTasks.Goes l r)
    (hl : store.Plays n s l s') :
    (∃ pending k l₁, Loops d l pending k l₁) ∨ sends l = [] ∧ pendingIds s' = pendingIds s := by
  unfold AutoDispatcher.processPendingTasks at hg
  split at hg
  · obtain ⟨rfl, rfl⟩ := hg
    rw [show s' = s from hl]
    exact Or.inr ⟨rfl, rfl⟩
  rename_i hmode
  obtain ⟨alive, l₁, rfl, hg₁⟩ := goes_cmd.mp hg
  obtain ⟨i, s₁, hx, hl₁⟩ := hl
  have htree := tree_of_alive hx
  have halive : pendingIds s₁ = pendingIds s := pendingIds_eq (by rw [htree])
  rw [← halive]
  show _ ∨ sends l₁ = [] ∧ _
  cases alive with
  | false =>
    obtain ⟨rfl, rfl⟩ := hg₁
    rw [show s' = s₁ from hl₁]
    exact Or.inr ⟨rfl, rfl⟩
  | true =>
    rcases goes_bind.mp hg₁ with ⟨pending, lr, l₂, rfl, hr, hg₂⟩ | ⟨e, hr, -⟩
    swap
    · obtain ⟨hsends, -, hsame⟩ := quiet_trace quiet_rerankTasks hr hl₁
      exact Or.inr ⟨hsends, hsame⟩
    obtain ⟨s₂, hlr, hl₂⟩ := (store.plays_append n).mp hl₁
    obtain ⟨hrsends, -, hrsame⟩ := quiet_trace quiet_rerankTasks hr hlr
    rw [sends_append, hrsends, List.nil_append, ← hrsame]
    rcases goes_bind.mp hg₂ with ⟨⟨⟩, li, l₃, rfl, hi, hg₃⟩ | ⟨e, hi, -⟩
    swap
    · obtain ⟨hsends, -, hsame⟩ := quiet_trace (quiet_interruptAll pending) hi hl₂
      exact Or.inr ⟨hsends, hsame⟩
    obtain ⟨s₃, hli, hl₃⟩ := (store.plays_append n).mp hl₂
    obtain ⟨hisends, -, hisame⟩ := quiet_trace (quiet_interruptAll pending) hi hli
    rw [sends_append, hisends, List.nil_append, ← hisame]
    rcases goes_bind.mp hg₃ with ⟨claimed, lc, l₄, rfl, hc, hg₄⟩ | ⟨e, hc, -⟩
    swap
    · obtain ⟨hsends, -, hsame⟩ := quiet_trace (quiet_listTasks _) hc hl₃
      exact Or.inr ⟨hsends, hsame⟩
    obtain ⟨s₄, hlc, hl₄⟩ := (store.plays_append n).mp hl₃
    obtain ⟨hcsends, -, hcsame⟩ := quiet_trace (quiet_listTasks _) hc hlc
    dsimp only at hg₄
    split at hg₄
    · obtain ⟨rfl, rfl⟩ := hg₄
      rw [show s' = s₄ from hl₄, sends_append, hcsends]
      exact Or.inr ⟨rfl, hcsame⟩
    · rename_i hlimit
      exact Or.inl ⟨pending, claimed.length, l₄, hmode, lr, li, lc, claimed, rfl, hr, hi, hc, rfl, not_le.mp hlimit⟩

/-- **Stranded tasks.** -/
theorem not_stranded_iff (d : AutoDispatcher) (n : Nat) (s s' : State) (l : List (Entry sig))
    (r : Except PyError (List Dispatched)) (hnamed : Named s) (hg : d.processPendingTasks.Goes l r)
    (hl : store.Plays n s l s') : NotStranded d s l r s' ↔ ∀ q ∈ sends l, Starts q.2 := by
  constructor
  · rintro ⟨hkept, -⟩ ⟨id, x⟩ hq
    rcases loops_or_quiet hg hl with ⟨pending, k, l₁, hloops⟩ | ⟨hsends, -⟩
    swap
    · rw [hsends] at hq
      exact absurd hq List.not_mem_nil
    obtain ⟨hloop, hsends⟩ := loop_of_loops hnamed hg hl hloops
    rw [hsends] at hq
    obtain ⟨hpending, hgone⟩ := hloop.taken _ hq
    rcases hkept id hpending with h | ⟨ds, -, e, -, -, result, hstarted, -, hstatus⟩
    · exact absurd h hgone
    · rw [hsends] at hstarted
      obtain ⟨-, rfl⟩ := Prod.mk.inj (List.inj_on_of_nodup_map hloop.once hq hstarted rfl)
      exact ⟨result, rfl, hstatus⟩
  · intro hstarts
    refine ⟨fun id hid => ?_, fun pending k l₁ hloops => ?_⟩
    · rcases loops_or_quiet hg hl with ⟨pending, k, l₁, hloops⟩ | ⟨-, hsame⟩
      swap
      · exact Or.inl (hsame.ge hid)
      obtain ⟨hloop, hsends⟩ := loop_of_loops hnamed hg hl hloops
      rcases hloop.left id hid with h | ⟨x, hx⟩
      · exact Or.inl h
      obtain ⟨result, rfl, hstatus⟩ := hstarts (id, x) (hsends ▸ hx)
      cases r with
      | error e =>
        obtain ⟨q, hq, he⟩ := hloop.raises e rfl
        obtain ⟨result', hok, -⟩ := hstarts q (hsends ▸ hq)
        cases he.symm.trans hok
      | ok ds =>
        obtain ⟨e, he, htask, result', hresult, hdispatch⟩ := SwarmLib.exists_of_forall₂ (hloop.returned ds rfl) hx
        cases hresult
        exact Or.inr ⟨ds, rfl, e, he, htask, result, hsends ▸ hx, hdispatch, hstatus⟩
    · obtain ⟨hloop, hsends⟩ := loop_of_loops hnamed hg hl hloops
      cases r with
      | error e =>
        obtain ⟨q, hq, he⟩ := hloop.raises e rfl
        obtain ⟨result', hok, -⟩ := hstarts q (hsends ▸ hq)
        cases he.symm.trans hok
      | ok ds => exact hloop.considered ds rfl

/-! ## One task -/

/-- One task is pending. -/
def oneTask : State where
  now := 0
  tree := .ofFiles fun
    | .pending => Table.empty.put ("task-001", [("id", .str "task-001"), ("title", .str "t")])
    | _ => .empty
  preempted := .empty
  failures _ := none
  quarantineUntil _ := none
  log := []

def fullMode : AutoDispatcher := ⟨"full", 4, fun _ => "haiku"⟩

/-- A call in which the dispatch ends with the status. -/
def dispatching (status : String) : Option (List (Entry sig) × Except PyError (List Dispatched) × State) :=
  store.play 0 fullMode.processPendingTasks (List.replicate 40
    ⟨0, ⟨"a", "2026-01-01T00:00:00Z", []⟩, true, some "b", .ok ⟨"dispatch-0-b", status⟩⟩) oneTask

/-- The dispatches of the call, and whether the task is pending then. -/
def outcome (q : List (Entry sig) × Except PyError (List Dispatched) × State) : List Send × Bool :=
  (sends q.1, decide (q.2.2.tree.File .pending "task-001"))

theorem named_oneTask : Named oneTask := by
  intro id data h
  obtain ⟨row, hrow, rfl⟩ := Option.map_eq_some_iff.mp h
  have hmem : row ∈ [(("task-001", [("id", .str "task-001"), ("title", .str "t")]) : String × Doc)] :=
    Table.find?_mem hrow
  rw [List.mem_singleton.mp hmem]
  rfl

theorem not_stranded_running : ∃ l r s', fullMode.processPendingTasks.Goes l r ∧
    NotStranded fullMode oneTask l r s' := by
  have hplay : (dispatching "running").map outcome = some ([("task-001", .ok ⟨"dispatch-0-b", "running"⟩)], false) := by
    decide +kernel
  obtain ⟨⟨l, r, s'⟩, hq, he⟩ := Option.map_eq_some_iff.mp hplay
  obtain ⟨hg, hl⟩ := store.goes_of_play 0 hq
  refine ⟨l, r, s', hg, (not_stranded_iff fullMode 0 oneTask s' l r named_oneTask hg hl).mpr fun q hmem => ?_⟩
  rw [(Prod.mk.inj he).1] at hmem
  rw [List.mem_singleton.mp hmem]
  exact ⟨_, rfl, by decide⟩

/-- **A dispatch that failed**: the task is claimed, and no one is working on it. -/
theorem failed_stranded : ¬ ∀ (d : AutoDispatcher) (n : Nat) (s s' : State) (l : List (Entry sig))
    (r : Except PyError (List Dispatched)), Named s → d.processPendingTasks.Goes l r → store.Plays n s l s' →
      NotStranded d s l r s' := by
  intro h
  have hplay : (dispatching "failed").map outcome = some ([("task-001", .ok ⟨"dispatch-0-b", "failed"⟩)], false) := by
    decide +kernel
  obtain ⟨⟨l, r, s'⟩, hq, he⟩ := Option.map_eq_some_iff.mp hplay
  obtain ⟨hg, hl⟩ := store.goes_of_play 0 hq
  obtain ⟨hsends, hgone⟩ := Prod.mk.inj he
  rcases (h fullMode 0 oneTask s' l r named_oneTask hg hl).kept "task-001" (by decide +kernel) with hfile |
    ⟨ds, -, e, -, -, result, hmem, -, hstatus⟩
  · exact absurd hfile (of_decide_eq_false hgone)
  · rw [hsends, List.mem_singleton] at hmem
    cases hmem
    exact hstatus rfl

end ClaudeSwarm.AutoDispatch
