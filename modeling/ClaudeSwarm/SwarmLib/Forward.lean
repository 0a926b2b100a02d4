import ClaudeSwarm.SwarmLib.Stage

/-!
# Tasks only go forward

`claim_task`, `complete_task` and `check_parent_completion` take a task's file out of a stage only after they have
written it to a later one. That is a fact about the text of their programs, whatever the answers they get:
`Forward`. Calls that keep to it lose no task, however they interleave.

* `forward_bind`, `forward_finally`, `forward_write`, `forward_move`: the rules.
* **`claimTask_forward`**, **`completeTask_forward`**: the operations.
-/

namespace ClaudeSwarm.SwarmLib

open Interleave

/-- How far a task in the stage is. -/
def Stage.rank : Stage → Nat
  | pending | decomposed => 0
  | claimed => 1
  | completed => 2

/-- What a call has written, after one more command. -/
def written (W : List (Stage × String)) : (c : Cmd) → Resp c → List (Stage × String)
  | .rename st id, true => (st, id) :: W
  | _, _ => W

/-- What the command removes was written to a later stage. -/
def Later (W : List (Stage × String)) : Cmd → Prop
  | .remove st id => ∃ st', st.rank < st'.rank ∧ (st', id) ∈ W
  | _ => True

/-- With `W` written before, `p` removes only what it has written to a later stage, and `R` holds of what is
written when it returns. -/
def Forward {α : Type} (R : List (Stage × String) → Prop) : List (Stage × String) → P α → Prop
  | W, .ret _ => R W
  | _, .raise _ => True
  | W, .op c k => Later W c ∧ ∀ x, Forward R (written W c x) (k x)

variable {α β : Type} {R R' : List (Stage × String) → Prop} {W : List (Stage × String)} {st : Stage} {id : String}

theorem forward_bind {p : P α} {f : α → P β} (hp : Forward R W p) (hf : ∀ a W', R W' → Forward R' W' (f a)) :
    Forward R' W (p >>= f) := by
  induction p generalizing W with
  | ret a => exact hf a W hp
  | raise e => trivial
  | op c k ih => exact ⟨hp.1, fun x => ih x (hp.2 x)⟩

theorem later_of_still {c : Cmd} (hc : c.IsStill) : Later W c := by
  cases c with
  | remove => exact hc.elim
  | _ => trivial

theorem written_of_still {c : Cmd} (hc : c.IsStill) (x : Resp c) : written W c x = W := by
  cases c <;> first | rfl | exact hc.elim

/-- A command that moves no file. -/
theorem forward_cmd {c : Cmd} {f : Resp c → P β} (hc : c.IsStill) (hf : ∀ x, Forward R W (f x)) :
    Forward R W (cmd c >>= f) := by
  refine ⟨later_of_still hc, fun x => ?_⟩
  rw [written_of_still hc x]
  exact hf x

theorem forward_still {p : P α} (hp : p.Each Cmd.IsStill) (hR : R W) : Forward R W p := by
  induction p with
  | ret a => exact hR
  | raise e => trivial
  | op c k ih =>
    refine ⟨later_of_still hp.1, fun x => ?_⟩
    rw [written_of_still hp.1 x]
    exact ih x (hp.2 x)

theorem forward_finally {q : P Unit} (hq : q.Each Cmd.IsStill) {p : P α} (hp : Forward R W p) :
    Forward R W (p.finally_ q) := by
  induction p generalizing W with
  | ret a => exact forward_bind (R := R) (forward_still hq hp) fun _ _ h => h
  | raise e => exact forward_bind (R := fun _ => True) (forward_still hq trivial) fun _ _ _ => trivial
  | op c k ih => exact ⟨hp.1, fun x => ih x (hp.2 x)⟩

theorem forward_withLock {body : P α} (h : Forward R W body) : Forward R W (withLock st id body) :=
  forward_cmd (c := .touch st id) trivial fun _ => forward_cmd (c := .openLock st id) trivial fun _ =>
    forward_finally (q := cmd .close) ⟨trivial, fun _ => trivial⟩
      (forward_cmd (c := .flock) trivial fun _ => forward_finally (q := cmd .unlock) ⟨trivial, fun _ => trivial⟩ h)

theorem forward_read {f : Doc → P β} (hf : ∀ data, Forward R W (f data)) :
    Forward R W (readYaml st id >>= f) := by
  refine ⟨trivial, fun (x : Option Doc) => ?_⟩
  cases x with
  | none => trivial
  | some data => exact hf data

theorem forward_write {data : Doc} : Forward (fun W' => (st, id) ∈ W') W (atomicWriteYaml st id data) := by
  refine ⟨trivial, fun _ => ⟨trivial, fun (x : Bool) => ?_⟩⟩
  cases x with
  | true => exact List.mem_cons_self
  | false => trivial

/-- A file is written to a later stage and removed. -/
theorem forward_move {st' : Stage} (hlater : st.rank < st'.rank) {write : P Unit} {f : P α}
    (hwrite : Forward (fun W' => (st', id) ∈ W') W write) (hf : ∀ W', Forward R W' f) :
    Forward R W (write >>= fun _ => removeYaml st id >>= fun _ => f) := by
  refine forward_bind hwrite fun _ W' hmem => ⟨⟨st', hlater, hmem⟩, fun (x : Bool) => ?_⟩
  cases x with
  | true => exact hf W'
  | false => trivial

/-! ## The operations -/

theorem claimTask_forward : Forward (fun _ => True) W (claimTask id) := by
  refine forward_cmd (c := .pathExists .pending id) trivial fun there => ?_
  split
  · trivial
  refine forward_bind (R := fun _ => True) (forward_withLock ?_) fun task W' _ =>
    forward_cmd (c := .unlink .pending id) trivial fun _ => trivial
  refine forward_cmd (c := .pathExists .pending id) trivial fun there => ?_
  split
  · trivial
  refine forward_read fun task => forward_cmd (c := .host) trivial fun hostname =>
    forward_cmd (c := .iso) trivial fun claimed_at => ?_
  exact forward_move (by decide) forward_write fun _ => trivial

theorem originalCompleteTask_forward {artifact : String} :
    Forward (fun _ => True) W (originalCompleteTask id artifact) := by
  refine forward_cmd (c := .pathExists .claimed id) trivial fun there => ?_
  split
  · trivial
  refine forward_read fun task => forward_cmd (c := .host) trivial fun hostname =>
    forward_cmd (c := .iso) trivial fun completed_at => ?_
  exact forward_move (by decide) (forward_withLock forward_write) fun _ => trivial

theorem checkParentCompletion_forward : Forward (fun _ => True) W (checkParentCompletion id) := by
  refine forward_cmd (c := .pathExists .decomposed id) trivial fun there => ?_
  split
  · trivial
  refine forward_read fun parent => ?_
  dsimp only
  split
  · trivial
  refine forward_bind (R := fun _ => True) (forward_still ?_ trivial) fun all W' _ => ?_
  · exact Prog.each_mono (fun _ => still_of_quiet) (each_allCompleted (o := .cleanup) _)
  split
  · trivial
  refine forward_cmd (c := .iso) trivial fun completed_at => ?_
  exact forward_move (by decide) (forward_withLock forward_write) fun _ => trivial

theorem completeTask_forward {artifact : String} : Forward (fun _ => True) W (completeTask id artifact) := by
  refine forward_bind (R := fun _ => True) originalCompleteTask_forward fun task W' _ => ?_
  split
  · trivial
  · exact forward_bind (R := fun _ => True) checkParentCompletion_forward fun _ _ _ => trivial

end ClaudeSwarm.SwarmLib
