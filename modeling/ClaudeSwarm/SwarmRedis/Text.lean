import ClaudeSwarm.SwarmRedis.Tasks

/-!
# What each operation writes

`Text o` lists the transactions operation `o` can execute; `prog_text` reads them off the programs.
Every run executes only these (`run_text`).
-/

namespace ClaudeSwarm.SwarmRedis

open Interleave Data Redis
open Python (FloatFmt)

variable (F : FloatFmt)

/-- The transactions of an operation. -/
def Writes : Op → List Write → Prop
  | .create .., ws => ∃ id data priority now created_at,
    ws = Client.createWrites F id data priority now created_at
  | .claim task_id, ws => ∃ score host claimed_at, ws = claimWrites task_id score host claimed_at
  | .claimNext, _ => False
  | .clientClaim _, _ => False
  | .complete task_id _, ws => ∃ result_data now completed_at,
    ws = Client.completeWrites F task_id result_data now completed_at
  | .decompose task_id subtasks, ws => ws = [.zrem .pending task_id] ∨
    (∃ decomposed_at, ws = [.hset task_id (decomposedFields decomposed_at subtasks.length)]) ∨
    ∃ id data priority now created_at,
      ws = Client.createWrites F id data priority now created_at
  | .checkParent parent_id, ws => (∃ score, ws = [.zadd .completed parent_id score]) ∨
    ∃ completed_at, ws = [.hset parent_id (completedFields completed_at)]

/-- A command of an operation: a read, a draw from outside, or one of its transactions. -/
def Text (o : Op) (c : Cmd) : Prop := ∀ ws, c = .exec ws → Writes F o ws

variable {F} {ok : Cmd → Prop}

theorem each_getTask {id : String} (h : ok (.hgetall id)) : (Client.getTask id).Each ok :=
  ⟨h, fun _ => trivial⟩

theorem each_createTask {id : String} {data : Json} {priority : Int} (hnow : ok .now)
    (h : ∀ now created_at, ok (.exec (Client.createWrites F id data priority now created_at))) :
    (Client.createTask F id data priority).Each ok :=
  ⟨hnow, fun now => ⟨hnow, fun created_at => ⟨h now created_at, fun _ => trivial⟩⟩⟩

theorem each_taskData {task : Hash} {fields : List (String × Json)} :
    (taskData task fields).Each ok := by
  unfold taskData
  split
  · trivial
  · split <;> trivial

theorem each_claimedData {task : Hash} {host : String} (h : ok .iso) :
    (claimedData task host).Each ok := by
  unfold claimedData
  split
  · trivial
  · exact ⟨h, fun _ => each_taskData⟩

theorem each_createSubtasks {task_id : String} (hhost : ok .host) (hiso : ok .iso) (hnow : ok .now)
    (h : ∀ id data priority now created_at,
      ok (.exec (Client.createWrites F id data priority now created_at))) :
    ∀ (subtasks : List Subtask) (i : Nat), (createSubtasks F task_id i subtasks).Each ok
  | [], _ => trivial
  | _ :: subtasks, i => by
    refine each_cmd hhost fun _ => each_cmd hiso fun _ => ?_
    refine Prog.each_bind (fun _ => ?_) (each_createTask hnow fun now created_at => h _ _ _ _ _)
    refine Prog.each_bind (fun _ => ?_) (each_createSubtasks hhost hiso hnow h subtasks (i + 1))
    trivial

theorem each_countCompleted {parent_id : String} (h : ∀ id, ok (.hgetall id)) :
    ∀ k i, (countCompleted parent_id i k).Each ok
  | 0, _ => trivial
  | k + 1, i => by
    refine Prog.each_bind (fun _ => ?_) (each_getTask (h _))
    refine Prog.each_bind (fun _ => ?_) (each_countCompleted h k (i + 1))
    trivial

/-- **The programs say so.** -/
theorem prog_text (o : Op) : (prog F o).Each (Text F o) := by
  have hread : ∀ {o c}, (∀ ws, c ≠ Cmd.exec ws) → Text F o c := fun h ws he => absurd he (h ws)
  have hexec : ∀ {o ws}, Writes F o ws → Text F o (.exec ws) := fun h ws he => by
    cases he
    exact h
  cases o with
  | create =>
    refine each_cmd (hread nofun) fun n => each_cmd (hread nofun) fun _ =>
      each_cmd (hread nofun) fun _ => ?_
    refine Prog.each_bind (fun _ => ?_) (each_createTask (hread nofun) fun now created_at =>
      hexec ⟨_, _, _, now, created_at, rfl⟩)
    trivial
  | claim id =>
    refine each_cmd (hread nofun) fun host => each_cmd (hread nofun) fun score => ?_
    cases score with
    | none => trivial
    | some score =>
      refine each_cmd (hread nofun) fun at_ => each_cmd (hexec ⟨score, host, at_, rfl⟩) fun _ => ?_
      refine Prog.each_bind (fun task => ?_) (each_getTask (hread nofun))
      cases task with
      | none => trivial
      | some task => exact each_claimedData (hread nofun)
  | claimNext =>
    refine each_cmd (hread nofun) fun host => Prog.each_bind (fun id => ?_)
      (each_cmd (hread nofun) fun _ => ⟨hread nofun, fun _ => trivial⟩)
    cases id with
    | none => trivial
    | some id =>
      refine Prog.each_bind (fun task => ?_) (each_getTask (hread nofun))
      cases task with
      | none => trivial
      | some task =>
        refine Prog.each_bind (fun _ => ?_) (each_claimedData (hread nofun))
        trivial
  | clientClaim => exact each_cmd (hread nofun) fun _ => ⟨hread nofun, fun _ => trivial⟩
  | complete id artifact =>
    refine Prog.each_bind (fun _ => Prog.each_bind (fun task => ?_) (each_getTask (hread nofun)))
      (each_cmd (hread nofun) fun now => each_cmd (hread nofun) fun completed_at =>
        each_cmd (hexec ⟨_, now, completed_at, rfl⟩) fun _ => trivial)
    cases task with
    | none => trivial
    | some task =>
      simp only
      split
      · trivial
      · exact each_cmd (hread nofun) fun _ => each_taskData
  | decompose id subtasks =>
    refine each_cmd (hexec (Or.inl rfl)) fun _ => each_cmd (hread nofun) fun at_ =>
      each_cmd (hexec (Or.inr (Or.inl ⟨at_, rfl⟩))) fun _ => ?_
    refine each_createSubtasks (hread nofun) (hread nofun) (hread nofun)
      (fun id data priority now created_at => hexec ?_) subtasks 0
    exact Or.inr (Or.inr ⟨id, data, priority, now, created_at, rfl⟩)
  | checkParent id =>
    refine Prog.each_bind (fun parent => ?_) (each_getTask (hread nofun))
    cases parent with
    | none => trivial
    | some parent =>
      simp only
      split
      · trivial
      · split
        · trivial
        · refine Prog.each_bind (fun completed => ?_)
            (each_countCompleted (fun _ => hread nofun) _ _)
          split
          · trivial
          · exact each_cmd (hread nofun) fun now => each_cmd (hexec (Or.inl ⟨_, rfl⟩)) fun _ =>
              each_cmd (hread nofun) fun at_ => each_cmd (hexec (Or.inr ⟨at_, rfl⟩)) fun _ => trivial

/-- Every run executes only what the programs say. -/
theorem run_text {G : Guard (system F)} {s : Keys} {c : Config (system F)}
    (h : Run G (.init s) c) :
    Run (fun w n o cmd => G w n o cmd ∧ Text F o cmd) (.init s) c :=
  @run_each (system F) G (Text F) prog_text s c h

end ClaudeSwarm.SwarmRedis
