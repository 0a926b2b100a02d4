import ClaudeSwarm.AutoDispatch.Dispatcher
import ClaudeSwarm.SwarmLib.Forward

/-!
# Preempted tasks

Any number of calls of `process_pending_tasks`, `interrupt_for_priority`, `claim_task` and `complete_task` on one
tree, interleaved in any order. `_preempt_task` moves a claimed task to `preempted/`, a directory that
`list_tasks` does not go through and that nothing takes a task out of again.

* `NotLost`: when no call is in progress every task ever created is where `list_tasks` looks, and what was
  preempted can be claimed again.
* `Above`: a task has got to a stage or a later one. No command of these programs undoes that, except
  `shutil.move` in `_preempt_task` (`above_step`).
* **`notLost_of_spares`**: no task is lost in the runs in which no file is moved to `preempted/`.
* `preempted_lost`: a preempted task is lost.
-/

namespace ClaudeSwarm.AutoDispatch

open Interleave Data
open Python (PyError)
open SwarmLib (Tree Doc Stage)

/-! ## The system -/

/-- A call. The dispatcher's mode may have been set differently for each; what another dispatcher does to the tree
are calls of `interrupt_for_priority` and `claim_task`. -/
inductive Op where
  | process (d : AutoDispatcher)
  | interrupt (task_id : String)
  | claim (task_id : String)
  | complete (task_id result_artifact : String)

/-- What each operation returns. -/
abbrev Ret : Op → Type
  | .process _ => List Dispatched
  | .interrupt _ => Bool
  | .claim _ | .complete _ _ => Doc

/-- The program of each operation. -/
def prog : (o : Op) → P (Ret o)
  | .process d => d.processPendingTasks
  | .interrupt task_id => interruptForPriority task_id
  | .claim task_id => onTree.on (SwarmLib.claimTask task_id)
  | .complete task_id artifact => onTree.on (SwarmLib.completeTask task_id artifact)

/-- Any number of calls on one tree. -/
abbrev system : System := ⟨sig, store, PyError, Op, Ret, prog⟩

/-- The task is in one of the stages that `list_tasks()` goes through. -/
def Reported (s : State) (id : String) : Prop := ∃ st, s.tree.File st id

/-- The task was created, and is somewhere. -/
def Created (s : State) (id : String) : Prop := Reported s id ∨ (s.preempted.find? id).isSome

/-- A later `claim_task` of the task can return. -/
def Reclaimable (c : Config system) (id : String) : Prop :=
  ∃ c' n task, c.proc n = none ∧ Run Free c c' ∧ c'.Returned n (.claim id) task

/-- In the runs under `G` from a tree with `A`, every task created is reported when no call is in progress, and what
was preempted can be claimed again. -/
def NotLost (A : State → Prop) (G : Guard system) : Prop :=
  ∀ s₀ c, A s₀ → Run G (.init s₀) c → c.Quiescent → (∀ id, Created s₀ id → Reported c.world.state id) ∧
    ∀ id, (c.world.state.preempted.find? id).isSome → Reclaimable c id

/-- Nothing was preempted. -/
def Unpreempted (s : State) : Prop := ∀ id, s.preempted.find? id = none

/-- When `_preempt_task` comes to `shutil.move`, the task is claimed no more. -/
def Spares : Guard system := fun w _ _ c =>
  match c with
  | .move id => ¬ w.state.tree.File .claimed id
  | _ => True

/-! ## Steps -/

/-- What a command does to the directories. -/
inductive DirsEffect (s : State) : (c : Cmd) → Resp c → State → Prop
  | tree {c : SwarmLib.Cmd} {x : SwarmLib.Resp c} {s' : State} (h : SwarmLib.FilesEffect s.tree c x s'.tree)
      (hp : s'.preempted = s.preempted) : DirsEffect s (.tree c) x s'
  | moved {id : String} {x : Bool} {s' : State} (h : s.tree.File .claimed id) : DirsEffect s (.move id) x s'
  | still {c : Cmd} {x : Resp c} {s' : State} (hc : ∀ c', c ≠ .tree c') (ht : s'.tree = s.tree)
      (hp : s'.preempted = s.preempted) : DirsEffect s c x s'

theorem dirsEffect_of_exec {n : Nat} {i : Input} {s s' : State} {c : Cmd} {x : Resp c}
    (h : exec n i s c = some (x, s')) : DirsEffect s c x s' := by
  simp only [exec] at h
  split at h
  · cases c with
    | tree c =>
      obtain ⟨p, hp, he⟩ := Option.map_eq_some_iff.mp h
      cases he
      exact .tree (SwarmLib.filesEffect_of_exec hp) rfl
    | move id =>
      simp only [perform] at h
      split at h
      · rename_i file hfile
        exact .moved (Option.isSome_iff_exists.mpr ⟨file, hfile⟩)
      · cases h
        exact .still (fun _ h => by cases h) rfl rfl
    | _ =>
      cases h
      exact .still (fun _ h => by cases h) rfl rfl
  · cases h

/-- The task has got as far as `k`. -/
def Above (k : Nat) (id : String) (w : World system) : Prop := ∃ st, k ≤ st.rank ∧ w.state.tree.File st id

/-- What is removed is in a later stage. -/
def Ahead (w : World system) (c : Cmd) : Prop := ∀ st id, c = .tree (.remove st id) → Above (st.rank + 1) id w

variable {w w' : World system} {k : Nat} {id : String} {n : Nat} {o : Op} {c : Cmd} {x : Resp c}

/-- No task falls back. -/
theorem above_step (hg : Spares w n o c) (ha : Ahead w c) (hf : Fires w ⟨n, o, c, x⟩ w') (h : Above k id w) :
    Above k id w' := by
  obtain ⟨i, hx⟩ := hf.1
  obtain ⟨st, hk, hfile⟩ := h
  have heffect := dirsEffect_of_exec hx
  have hsame : ∀ t : Tree, t.files = w.state.tree.files → t.File st id := fun t hfiles => by
    rw [Tree.File, hfiles]
    exact hfile
  suffices hthere : ∃ st, k ≤ st.rank ∧ w'.state.tree.File st id from hthere
  generalize w'.state = s' at heffect
  cases heffect with
  | still _ ht _ => exact ⟨st, hk, hsame _ (by rw [ht])⟩
  | moved hfile => exact absurd hfile hg
  | tree heffect _ =>
    generalize s'.tree = t at heffect
    cases heffect with
    | still _ hfiles => exact ⟨st, hk, hsame _ hfiles⟩
    | renamed _ hfiles => exact ⟨st, hk, (SwarmLib.file_put hfiles st id).mpr (Or.inr hfile)⟩
    | notRenamed => exact ⟨st, hk, hfile⟩
    | notRemoved _ => exact ⟨st, hk, hfile⟩
    | @removed st₁ id₁ _ _ hfiles =>
      by_cases hhit : st = st₁ ∧ id = id₁
      · obtain ⟨rfl, rfl⟩ := hhit
        obtain ⟨st', hlater, hfile'⟩ := ha st id rfl
        refine ⟨st', by omega, (SwarmLib.file_erase hfiles st' id).mpr ⟨hfile', fun he => ?_⟩⟩
        rw [he.1] at hlater
        omega
      · exact ⟨st, hk, (SwarmLib.file_erase hfiles st id).mpr ⟨hfile, hhit⟩⟩

/-- Nothing is preempted. -/
theorem unpreempted_step (hg : Spares w n o c) (hf : Fires w ⟨n, o, c, x⟩ w') (h : Unpreempted w.state) :
    Unpreempted w'.state := by
  obtain ⟨i, hx⟩ := hf.1
  have hsame : w'.state.preempted = w.state.preempted := by
    cases dirsEffect_of_exec hx with
    | tree _ hp => exact hp
    | still _ _ hp => exact hp
    | moved hfile => exact absurd hfile hg
  intro id
  rw [hsame]
  exact h id

/-! ## The programs -/

/-- The runs that preempt nothing; what is removed is in a later stage. -/
def sparing : Discipline system := ⟨Spares, fun _ => True, fun w e => Ahead w e.cmd⟩

/-- What was written has got that far. -/
def Landed (W : List (Stage × String)) (w : World system) : Prop := ∀ f ∈ W, Above f.1.rank f.2 w

/-- The program removes nothing that is not in a later stage. -/
def Tidy {α : Type} (p : P α) : Prop :=
  ∀ n o, Outline sparing n o (fun _ _ => True) p fun _ => True

theorem stable_landed {W : List (Stage × String)} : Stable sparing n (Landed W) :=
  fun _ e _ _ _ hg ha hf _ h f hmem => above_step (n := e.call) (o := e.op) (c := e.cmd) hg ha hf (h f hmem)

/-- A renamed file is there. -/
theorem file_of_rename {st : Stage} (hf : Fires w ⟨n, o, .tree (.rename st id), true⟩ w') :
    w'.state.tree.File st id := by
  obtain ⟨i, hx⟩ := hf.1
  have heffect := dirsEffect_of_exec hx
  generalize w'.state = s' at heffect
  cases heffect with
  | tree heffect _ =>
    generalize s'.tree = t at heffect
    cases heffect with
    | still hc _ => exact hc.elim
    | renamed hid hfiles => exact (SwarmLib.file_put hfiles st id).mpr (Or.inl ⟨rfl, hid.symm⟩)
  | still hc _ _ => exact absurd rfl (hc _)

/-- **Going forward** is all that a program of the tree needs. -/
theorem outline_forward {α : Type} {R : List (Stage × String) → Prop} :
    ∀ {p : SwarmLib.P α} {W : List (Stage × String)}, SwarmLib.Forward R W p →
      Outline sparing n o (fun _ _ => True) (onTree.on p) (Landed W)
  | .ret _, _, _ => outline_ret fun _ _ _ => trivial
  | .raise _, _, _ => outline_raise fun _ _ _ => trivial
  | .op c k, W, ⟨hlater, hk⟩ => by
    refine outline_op (M := system) (c := .tree c) (fun x => Landed (SwarmLib.written W c x)) (fun x => stable_landed)
      (fun w x w' _ hW hg hf => ?_) fun x => outline_forward (hk x)
    have ha : Ahead w (.tree c) := by
      rintro st id he
      cases he
      obtain ⟨st', hrank, hmem⟩ := hlater
      obtain ⟨st'', hle, hfile⟩ := hW _ hmem
      exact ⟨st'', hrank.trans_le hle, hfile⟩
    have hW' : Landed W w' := fun f hmem =>
      above_step (n := n) (o := o) (c := .tree c) hg ha hf (hW f hmem)
    refine ⟨ha, trivial, ?_⟩
    cases c with
    | rename st id =>
      cases x with
      | true =>
        rintro f hmem
        rcases List.mem_cons.mp hmem with rfl | hmem
        · exact ⟨st, le_rfl, file_of_rename hf⟩
        · exact hW' f hmem
      | false => exact hW'
    | _ => exact hW'

/-- A command that removes no file of the tree. -/
def Harmless : Cmd → Prop
  | .tree c => c.IsStill
  | _ => True

theorem tidy_each {α : Type} {p : P α} (hp : p.Each Harmless) : Tidy p := fun n o => by
  refine outline_of_each (M := system) stable_true (fun c hc w x w' _ _ hg hf => ⟨?_, trivial, trivial⟩) hp
  rintro st id rfl
  exact hc.elim

theorem tidy_bind {α β : Type} {p : P α} {f : α → P β} (hp : Tidy p) (hf : ∀ a, Tidy (f a)) : Tidy (p >>= f) :=
  fun _ _ => outline_bind (M := system) (R := fun _ _ => True) (fun a => hf a _ _)
    (outline_mono (fun _ _ h => h) (fun r _ _ _ => by cases r <;> trivial) (hp _ _))

theorem tidy_catch {α : Type} {p : P α} {f : PyError → P α} (hp : Tidy p) (hf : ∀ e, Tidy (f e)) :
    Tidy (p.catch_ f) :=
  fun _ _ => outline_catch (M := system) (E := fun _ _ => True) (fun e => hf e _ _)
    (outline_mono (fun _ _ h => h) (fun r _ _ _ => by cases r <;> trivial) (hp _ _))

theorem tidy_tree {α : Type} {R : List (Stage × String) → Prop} {p : SwarmLib.P α} (hp : SwarmLib.Forward R [] p) :
    Tidy (onTree.on p) :=
  fun _ _ => outline_pre (fun _ _ _ _ hmem => absurd hmem List.not_mem_nil) (outline_forward hp)

theorem tidy_cmd {β : Type} {c : Cmd} {f : Resp c → P β} (hc : Harmless c) (hf : ∀ x, Tidy (f x)) :
    Tidy (cmd c >>= f) := tidy_bind (tidy_each (p := cmd c) ⟨hc, fun _ => trivial⟩) hf

theorem tidy_ret {α : Type} {a : α} : Tidy (.ret a) := fun _ _ => outline_ret fun _ _ _ => trivial

theorem tidy_raise {α : Type} {e : PyError} : Tidy (.raise e : P α) := fun _ _ => outline_raise fun _ _ _ => trivial

/-! ## The operations -/

theorem tidy_listTasks : ∀ stage, Tidy (listTasks stage) := by
  have hlist : ∀ stage, Tidy (onTree.on (SwarmLib.listStage stage)) := fun stage =>
    tidy_tree (R := fun _ => True) (SwarmLib.forward_still (SwarmLib.each_listStage stage) trivial)
  rintro (_ | stage)
  · exact tidy_bind (hlist .pending) fun _ => tidy_bind (hlist .claimed) fun _ =>
      tidy_bind (hlist .completed) fun _ => tidy_bind (hlist .decomposed) fun _ => tidy_ret
  · exact hlist stage

theorem tidy_taskId {task : Doc} : Tidy (taskId task) := by
  unfold taskId
  split
  · exact tidy_ret
  · exact tidy_raise

theorem tidy_preemptTask {task_id : String} : Tidy (preemptTask task_id) := by
  refine tidy_bind (tidy_tree (R := fun _ => True) (SwarmLib.forward_still ⟨trivial, fun _ => trivial⟩ trivial))
    fun there => ?_
  split
  · refine tidy_cmd (c := .move task_id) trivial fun moved => ?_
    split
    · exact tidy_ret
    · exact tidy_raise
  · exact tidy_ret

theorem tidy_preemptTasks {v : Int} : ∀ tasks, Tidy (preemptTasks v tasks)
  | [] => tidy_ret
  | task :: rest => by
    unfold preemptTasks
    split
    · exact tidy_bind tidy_taskId fun _ => tidy_bind tidy_preemptTask fun _ =>
        tidy_bind (tidy_preemptTasks rest) fun _ => tidy_ret
    · exact tidy_preemptTasks rest

theorem tidy_interruptForPriority {task_id : String} : Tidy (interruptForPriority task_id) := by
  refine tidy_bind (tidy_listTasks none) fun all_tasks => ?_
  split
  · exact tidy_ret
  · split
    · exact tidy_ret
    · exact tidy_bind (tidy_listTasks _) fun claimed => tidy_preemptTasks claimed

theorem tidy_interruptAll : ∀ tasks, Tidy (interruptAll tasks)
  | [] => tidy_ret
  | task :: rest => by
    unfold interruptAll
    split
    · exact tidy_bind tidy_taskId fun _ => tidy_bind tidy_interruptForPriority fun _ => tidy_interruptAll rest
    · exact tidy_interruptAll rest

theorem tidy_tryClaim {task_id : String} : Tidy (tryClaim task_id) := by
  refine tidy_catch (tidy_bind (tidy_tree SwarmLib.claimTask_forward) fun _ => tidy_ret) fun e => ?_
  split
  · exact tidy_ret
  · exact tidy_raise

theorem tidy_isHostQuarantined {host : String} : Tidy (isHostQuarantined host) := by
  refine tidy_cmd (c := .getUntil host) trivial fun until_ => tidy_cmd (c := .time) trivial fun now => ?_
  split
  · exact tidy_ret
  · refine tidy_cmd (c := .getUntil host) trivial fun entry => ?_
    split
    · exact tidy_cmd (c := .expire host) trivial fun _ => tidy_ret
    · exact tidy_ret

theorem tidy_send {d : AutoDispatcher} {task : Doc} {task_id host model : String} :
    Tidy (d.send task task_id host model) := by
  refine tidy_cmd trivial fun result => ?_
  split
  · exact tidy_raise
  split
  · refine tidy_bind (tidy_cmd (c := .getFailures host) trivial fun failures =>
      tidy_cmd (c := .setFailures host _) trivial fun _ => ?_) fun _ => tidy_ret
    split
    · exact tidy_cmd (c := .time) trivial fun now => tidy_each (p := cmd (.setUntil host _)) ⟨trivial, fun _ => trivial⟩
    · exact tidy_ret
  · exact tidy_bind (tidy_each (p := cmd (.reset host)) ⟨trivial, fun _ => trivial⟩) fun _ => tidy_ret

theorem tidy_dispatchTasks {d : AutoDispatcher} : ∀ (tasks : List Doc) (k : Int), Tidy (d.dispatchTasks k tasks)
  | [], _ => tidy_ret
  | task :: rest, k => by
    have hrest := fun k => tidy_dispatchTasks (d := d) rest k
    unfold AutoDispatcher.dispatchTasks
    split
    · exact tidy_ret
    dsimp only
    split
    · exact hrest k
    refine tidy_cmd (c := .bestHost _) trivial fun best => ?_
    split
    · exact hrest k
    refine tidy_bind tidy_isHostQuarantined fun quarantined => ?_
    split
    · exact hrest k
    refine tidy_bind tidy_taskId fun task_id => tidy_bind tidy_tryClaim fun claimed => ?_
    split
    · exact tidy_bind tidy_send fun sent => tidy_bind (hrest (k + 1)) fun _ => tidy_ret
    · exact hrest k

theorem tidy_processPendingTasks {d : AutoDispatcher} : Tidy d.processPendingTasks := by
  unfold AutoDispatcher.processPendingTasks
  split
  · exact tidy_ret
  refine tidy_cmd (c := .alive) trivial fun alive => ?_
  split
  · exact tidy_ret
  refine tidy_bind (tidy_bind (tidy_listTasks _) fun _ => tidy_ret) fun pending =>
    tidy_bind (tidy_interruptAll pending) fun _ => tidy_bind (tidy_listTasks _) fun claimed => ?_
  dsimp only
  split
  · exact tidy_ret
  · exact tidy_dispatchTasks pending _

theorem tidy_prog : ∀ o, Tidy (prog o)
  | .process _ => tidy_processPendingTasks
  | .interrupt _ => tidy_interruptForPriority
  | .claim _ => tidy_tree SwarmLib.claimTask_forward
  | .complete _ _ => tidy_tree SwarmLib.completeTask_forward

/-! ## Runs -/

/-- **No task is lost** in the runs that preempt none. -/
theorem notLost_of_spares {s₀ : State} {c : Config system} (hstart : Unpreempted s₀) (hrun : Run Spares (.init s₀) c) :
    (∀ id, Created s₀ id → Reported c.world.state id) ∧
      ∀ id, (c.world.state.preempted.find? id).isSome → Reclaimable c id := by
  have hempty : Unpreempted c.world.state := by
    refine run_inv (I := fun w => Unpreempted w.state) (fun w e w' h hg hf => ?_) hstart hrun
    exact unpreempted_step (n := e.call) (o := e.op) (c := e.cmd) hg hf h
  have hahead := run_obeys (D := sparing) (K := fun w _ _ c => Ahead w c) (Q := fun _ _ _ _ => True)
    (fun _ _ h => h) (fun n o => outline_pre (fun _ _ _ => trivial) (tidy_prog o n o)) trivial hrun
  refine ⟨fun id hid => ?_, fun id hid => ?_⟩
  · have hthere : Above 0 id (Config.init (M := system) s₀).world := by
      rcases hid with ⟨st, hst⟩ | hpre
      · exact ⟨st, Nat.zero_le _, hst⟩
      · rw [hstart id] at hpre
        cases hpre
    have habove : Above 0 id c.world := by
      refine run_inv (I := Above 0 id) (fun w e w' h hg hf => ?_) hthere hahead
      exact above_step (n := e.call) (o := e.op) (c := e.cmd) hg.1 hg.2 hf h
    obtain ⟨st, -, hfile⟩ := habove
    exact ⟨st, hfile⟩
  · rw [hempty id] at hid
    cases hid

/-! ## A preempted task -/

/-- `task-001` is claimed, with the lowest priority; `task-002` is pending, with the highest. -/
def urgent : State where
  now := 0
  tree := .ofFiles fun
    | .pending => Table.empty.put ("task-002", [("id", .str "task-002"), ("priority", .str "P0")])
    | .claimed => Table.empty.put ("task-001", [("id", .str "task-001"), ("priority", .str "P5")])
    | _ => .empty
  preempted := .empty
  failures _ := none
  quarantineUntil _ := none
  log := []

/-- `interrupt_for_priority` for `task-002`. -/
def interrupting : List (Act system) :=
  solo system 0 (.interrupt "task-002") 10 ⟨0, ⟨"a", "2026-01-01T00:00:00Z", []⟩, true, none, .ok ⟨"", ""⟩⟩

instance (w : World system) (n : Nat) (o : Op) (c : Cmd) : Decidable (Spares w n o c) :=
  match c with
  | .move id => inferInstanceAs (Decidable (¬ w.state.tree.File .claimed id))
  | .tree _ | .alive | .bestHost _ | .time | .dispatch _ _ _ _ _ | .getFailures _ | .setFailures _ _ | .getUntil _
  | .setUntil _ _ | .expire _ | .reset _ => .isTrue trivial

/-- The same, but the claimed task is one level below the new one. -/
def lessUrgent : State :=
  { urgent with
    tree := .ofFiles fun
      | .pending => Table.empty.put ("task-002", [("id", .str "task-002"), ("priority", .str "P0")])
      | .claimed => Table.empty.put ("task-001", [("id", .str "task-001"), ("priority", .str "P1")])
      | _ => .empty }

/-- `notLost_of_spares` of the call there. -/
theorem notLost_of_spares_lessUrgent : ∃ c, Run Spares (.init lessUrgent) c ∧ c.Quiescent ∧
    ∀ id, Created lessUrgent id → Reported c.world.state id := by
  obtain ⟨c, hrun, hquiet, -⟩ := @exists_quiescent_of_play _ Spares _ lessUrgent (interrupting.take 9) (fun _ => true)
    (by decide +kernel)
  exact ⟨c, hrun, hquiet, (notLost_of_spares (fun _ => rfl) hrun).1⟩

/-- The task is in no stage. -/
def unreported (c : Config system) : Bool :=
  [Stage.pending, .claimed, .completed, .decomposed].all fun st => !decide (c.world.state.tree.File st "task-001")

/-- `task-001` is preempted and reported no more. -/
theorem preempted_lost : ¬ NotLost (fun _ => True) Free := by
  intro hlost
  obtain ⟨c, hrun, hquiet, hgone⟩ :=
    @exists_quiescent_of_play _ Free _ urgent interrupting unreported (by decide +kernel)
  obtain ⟨st, hst⟩ := (hlost urgent c trivial hrun hquiet).1 "task-001" (Or.inl ⟨.claimed, by decide +kernel⟩)
  rw [unreported, List.all_eq_true] at hgone
  have hnot := hgone st (by cases st <;> simp)
  rw [Bool.not_eq_true', decide_eq_false_iff_not] at hnot
  exact hnot hst

end ClaudeSwarm.AutoDispatch
