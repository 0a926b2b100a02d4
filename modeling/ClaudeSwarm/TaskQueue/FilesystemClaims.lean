import ClaudeSwarm.Interleave.History
import ClaudeSwarm.TaskQueue.Claims
import ClaudeSwarm.TaskQueue.Filesystem

/-!
# Claims of the queue on the filesystem

`_fs_save` removes the file of a claimed task from `pending/` if it is still there, and writes it to
`claimed/` in any case. The removal is what only one call can do: it takes the task, and the write to
`pending/` by a `requeue` gives it back.

* `Good`: a task that is taken has no file in `pending/`. Every command keeps it.
* `rules`: the backend meets `Rules` when a claim writes to `claimed/` only what it has removed from
  `pending/` itself (`OwnRemoval`).
-/

namespace ClaudeSwarm.TaskQueue.Filesystem

open Interleave Data
open Python (FloatFmt)

variable {F : FloatFmt}

/-! ## Takes and releases -/

/-- The file that a claim removes from `pending/`. -/
def removed : Event (system F) → Option String
  | ⟨_, o, .remove .pending name, x⟩ => if o.IsClaim ∧ x = true then some name else none
  | _ => none

/-- The event takes task `id`. -/
def take (e : Event (system F)) (id : String) : Prop := removed e = some (fileName id)

/-- The event gives task `id` back: a `requeue` writes its file to `pending/`. -/
def release : Event (system F) → String → Prop
  | ⟨_, .requeue _, .write .pending name _, _⟩, id => name = fileName id
  | _, _ => False

/-- A claim writes to `claimed/` what it has removed from `pending/`. -/
def OwnRemoval : Guard (system F) := fun w n o c =>
  match c with
  | .write .claimed name _ => o.IsClaim → ∃ e ∈ w.trace, e.call = n ∧ removed e = some name
  | _ => True

instance (w : World (system F)) (n : Nat) (o : Op) (c : Cmd) : Decidable (OwnRemoval w n o c) := by
  unfold OwnRemoval
  split <;> infer_instance

/-! ## The invariant -/

/-- A task that is taken has no file in `pending/`. -/
structure Good (w : World (system F)) : Prop where
  exclusive : ∀ id, Alternating take release id w.trace
  gone : ∀ id, Held take release id w.trace → (w.state .pending).find? (fileName id) = none

/-- The claims whose writes follow their removals. -/
abbrev filing (F : FloatFmt) : Discipline (system F) := ⟨OwnRemoval, Good, fun _ _ => True⟩

/-- Call `n` removed the file of `id` from `pending/`. -/
def Took (n : Nat) (id : String) (w : World (system F)) : Prop :=
  ∃ e ∈ w.trace, e.call = n ∧ take e id

variable {n : Nat} {o : Op} {A : World (system F) → Prop}

/-- A command that neither takes nor releases, and does not add to `pending/`. -/
theorem Good.quiet {w w' : World (system F)} {e : Event (system F)} (h : Good w)
    (htrace : w'.trace = e :: w.trace) (ht : ∀ id, ¬ take e id) (hr : ∀ id, ¬ release e id)
    (hp : ∀ id, (w.state .pending).find? (fileName id) = none →
      (w'.state .pending).find? (fileName id) = none) : Good w' := by
  refine ⟨fun id => ?_, fun id hheld => ?_⟩
  · rw [htrace]
    exact alternating_cons (h.exclusive id) fun htake => absurd htake (ht id)
  · rw [htrace, held_cons_iff (ht id) (hr id)] at hheld
    exact hp id (h.gone id hheld)

/-- The command removes and writes nothing. -/
def Cmd.IsRead : Cmd → Prop
  | .remove _ _ | .write _ _ _ => False
  | _ => True

theorem establishes_read {c : Cmd} (hc : c.IsRead) :
    Establishes (filing F) n o (fun _ => True) c fun _ _ => True := by
  rintro w x ⟨s', tr⟩ hi - - ⟨⟨i, hx⟩, htrace⟩
  simp only at hx htrace
  refine ⟨trivial, hi.quiet htrace (fun _ => ?_) (fun _ => ?_) ?_, trivial⟩
  · cases c <;> first | exact hc.elim | exact nofun
  · cases c <;> first | exact hc.elim | (cases o <;> exact not_false)
  · cases c <;> first | exact hc.elim | (cases hx; exact fun _ h => h)

theorem removed_remove {dir : TaskState} {name k : String} {x : Bool}
    (h : removed (F := F) ⟨n, o, Cmd.remove dir name, x⟩ = some k) :
    dir = .pending ∧ x = true ∧ name = k := by
  unfold removed at h
  split at h
  · rename_i heq
    cases heq
    split at h
    · rename_i hc
      exact ⟨rfl, hc.2, Option.some.inj h⟩
    · cases h
  · cases h

/-- Removing a file. -/
theorem establishes_remove {dir : TaskState} {name : String} :
    Establishes (filing F) n o (fun _ => True) (.remove dir name) fun _ _ => True := by
  rintro w x ⟨s', tr⟩ hi - - ⟨⟨i, hx⟩, htrace⟩
  simp only at hx htrace
  obtain ⟨hsome, rfl⟩ := Prod.mk.inj (Option.some.inj hx)
  refine ⟨trivial, ⟨fun id => ?_, fun id hheld => ?_⟩, trivial⟩
  · rw [htrace]
    refine alternating_cons (hi.exclusive id) fun htake hheld => ?_
    obtain ⟨rfl, rfl, rfl⟩ := removed_remove htake
    rw [hi.gone id hheld] at hsome
    cases hsome
  · rw [htrace] at hheld
    rcases hheld with htake | ⟨hheld, -⟩
    · obtain ⟨rfl, -, rfl⟩ := removed_remove htake
      simp [Table.find?_erase]
    · by_cases hdir : dir = .pending
      · subst hdir
        simp [Table.find?_erase, hi.gone id hheld]
      · simpa [Function.update_of_ne (Ne.symm hdir)] using hi.gone id hheld

/-- Writing a file: only `requeue` writes to `pending/`. -/
theorem establishes_write {dir : TaskState} {name : String} {data : List (String × Val)}
    (hdir : dir = .pending → ∃ id, o = .requeue id) :
    Establishes (filing F) n o (fun _ => True) (.write dir name data) fun _ w =>
      o.IsClaim → dir = .claimed → ∃ e ∈ w.trace, e.call = n ∧ removed e = some name := by
  rintro w x ⟨s', tr⟩ hi - hg ⟨⟨i, hx⟩, htrace⟩
  simp only at hx htrace
  obtain ⟨-, rfl⟩ := Prod.mk.inj (Option.some.inj hx)
  refine ⟨trivial, ⟨fun id => ?_, fun id hheld => ?_⟩, fun ho hclaimed => ?_⟩
  · rw [htrace]
    exact alternating_cons (hi.exclusive id) nofun
  · rw [htrace] at hheld
    obtain ⟨hbefore, hr⟩ := hheld.resolve_left nofun
    by_cases hpending : dir = .pending
    · subst hpending
      obtain ⟨id', rfl⟩ := hdir rfl
      have hname : fileName id ≠ name := fun he => hr he.symm
      simpa [Table.find?_put, hname] using hi.gone id hbefore
    · simpa [Function.update_of_ne (Ne.symm hpending)] using hi.gone id hbefore
  · subst hclaimed
    obtain ⟨e, he, hcall⟩ := hg ho
    exact ⟨e, htrace ▸ List.mem_cons_of_mem _ he, hcall⟩

/-! ## The rules -/

/-- A command that can be run anywhere. -/
def Cmd.IsMove : Cmd → Prop
  | .write _ _ _ => False
  | _ => True

theorem plain_of_moves {α : Type} {p : P α} (h : p.Each Cmd.IsMove) : Plain (filing F) p := by
  refine fun n o => outline_of_each stable_true (fun c hc => ?_) h
  cases c with
  | remove dir name => exact establishes_remove
  | write => exact hc.elim
  | _ => exact establishes_read trivial

theorem each_cmd {α : Type} {ok : Cmd → Prop} {c : Cmd} {f : Resp c → P α} (hc : ok c)
    (hf : ∀ x, (f x).Each ok) : (cmd c >>= f).Each ok := ⟨hc, hf⟩

section Reading

variable {ok : Cmd → Prop} (hok : ∀ c : Cmd, c.IsRead → ok c)

include hok

theorem each_readTask {dir : TaskState} {name : String} : (readTask F dir name).Each ok := by
  refine each_cmd (hok (.read dir name) trivial) fun data => ?_
  cases data with
  | none => trivial
  | some data => exact each_cmd (hok .uuid trivial) fun _ => Prog.each_ofExcept _

theorem each_getFrom {id : String} : ∀ dirs, (getFrom F id dirs).Each ok
  | [] => trivial
  | dir :: dirs => by
    refine each_cmd (hok (.pathExists dir (fileName id)) trivial) fun found => ?_
    split
    · refine Prog.each_bind (fun _ => ?_) (each_readTask hok)
      trivial
    · exact each_getFrom dirs

theorem each_readAll {dir : TaskState} : ∀ names, (readAll F dir names).Each ok
  | [] => trivial
  | name :: names => by
    unfold readAll
    split
    · refine Prog.each_bind (fun _ => ?_) (each_readTask hok)
      refine Prog.each_bind (fun _ => ?_) (each_readAll names)
      trivial
    · exact each_readAll names

theorem each_fsList {state : TaskState} {limit : Nat} : (fsList F state limit).Each ok :=
  each_cmd (hok (.listdir state) trivial) fun _ => each_readAll hok _

end Reading

theorem isMove_of_isRead (c : Cmd) (h : c.IsRead) : c.IsMove := by
  cases c with
  | write => exact h
  | _ => trivial

theorem each_removeOld {t : Task} : ∀ dirs, (removeOld t dirs).Each Cmd.IsMove
  | [] => trivial
  | dir :: dirs => by
    refine each_cmd (c := .pathExists dir (fileName t.id)) trivial fun found => ?_
    split
    · refine each_cmd (c := .remove dir (fileName t.id)) trivial fun done => ?_
      split
      · exact each_removeOld dirs
      · trivial
    · exact each_removeOld dirs

/-- `_fs_save`. -/
theorem fsSave_outline {t : Task} (ht : t.state = .pending → ∃ id, o = .requeue id) :
    Outline (filing F) n o
      (Outcome (fun _ w => o.IsClaim → t.state = .claimed → Took n t.id w) fun _ _ => True)
      (fsSave t) fun _ => True := by
  refine (plain_of_moves (each_removeOld stateDirs)).bind (fun _ _ => trivial) fun _ => ?_
  have hlasting : Lasting (M := system F) fun w => o.IsClaim → t.state = .claimed → Took n t.id w :=
    fun w e w' hf h ho hst => lasting_executed w e w' hf (h ho hst)
  exact outline_op (fun _ => _) (fun _ => hlasting.stable) (establishes_write ht) fun _ =>
    outline_ret fun _ _ h => h

/-- A claim's save takes the task. -/
theorem saveClaimed_outline (ho : o.IsClaim) {t : Task} (ht : t.state = .claimed) :
    Outline (filing F) n o (Outcome (fun _ => Took n t.id) fun _ _ => True) (fsSave t)
      fun _ => True := by
  refine outline_mono (fun _ _ h => h) (fun r _ _ h => ?_)
    (fsSave_outline fun hp => nomatch hp.symm.trans ht)
  cases r with
  | ok _ => exact h ho ht
  | error _ => trivial

theorem plain_get (id : String) : Plain (filing F) (fsGet F id) :=
  plain_of_moves (each_getFrom isMove_of_isRead stateDirs)

theorem plain_now : Plain (filing F) (cmd .now) := plain_of_moves ⟨trivial, fun _ => trivial⟩

/-- `_fs_claim`. -/
theorem fsClaim_outline (ho : o.IsClaim) {claimer : String} :
    Outline (filing F) n o (TookIt Took n) (fsClaim F claimer) fun _ => True := by
  refine (plain_of_moves (each_fsList isMove_of_isRead)).bind (fun _ _ => trivial) fun pending => ?_
  cases Backend.byPriority pending with
  | nil => exact outline_ret fun _ _ _ => trivial
  | cons task _ =>
    exact claimSpecific_outline (B := backend F) plain_get plain_now
      (fun t ht => saveClaimed_outline ho ht) task.id claimer

/-- **The filesystem meets the rules.** -/
theorem rules : Rules (filing F) Took where
  get := plain_get
  list _ _ := plain_of_moves (each_fsList isMove_of_isRead)
  now := plain_now
  saveClaimed _ _ _ ho ht := saveClaimed_outline (ho.isClaim) ht
  saveMoved n o t ht := by
    refine outline_mono (fun _ _ h => h) (fun _ _ _ _ => trivial) (fsSave_outline fun hp => ?_)
    exact requeue_of_moves ht hp
  next _ claimer task_id _ := fsClaim_outline (o := .claim claimer task_id) trivial

/-- What holds of every run in which a claim writes what it has removed. -/
theorem run_filing {s : Dirs} {c : Config (system F)} (h : Run OwnRemoval (.init s) c) :
    Sound (filing F) (ClaimOutcome Took) c :=
  run_sound (D := filing F)
    (fun n o => outline_pre (fun _ _ _ => trivial) (prog_outline rules n o))
    ⟨fun _ => trivial, fun _ h => h.elim⟩ h

end ClaudeSwarm.TaskQueue.Filesystem
