import ClaudeSwarm.SwarmLib.Effects
import ClaudeSwarm.SwarmLib.Lock

/-!
# The last subtask completes its parent

Any number of hosts complete the subtasks of one decomposed task, command by command in any order. Each
checks the others after it has moved its own subtask, so whoever moves the last one finds them all
completed. Several may then move the parent, one after the other under the lock of its completed file;
whoever comes late finds the parent gone.

* `Late n`: call `n` moved a subtask last, and none is left to be moved. Such a call does not end before
  the parent is gone from `decomposed/` (`completeTask_outline`).
* **`parent_completed`**: when all the calls have ended the parent is completed.
-/

namespace ClaudeSwarm.SwarmLib.Siblings

open Interleave Data
open Python (PyError)

/-! ## The runs -/

/-- A task decomposed into `subs`, which are claimed; nobody has a lock file open. -/
structure Decomposed (parent : String) (subs : List String) (s : Tree) : Prop where
  named : parent ≠ ""
  some_sub : subs ≠ []
  closed : s.fds = .empty
  lists : ∃ data, content s.files .decomposed parent = some data ∧
    getStrings data "subtasks" = subs
  claimed : ∀ sub ∈ subs, ∃ data, content s.files .claimed sub = some data ∧
    getStr data "parent_id" = some parent

/-- Only `complete_task` runs, on the subtasks. -/
def OnlyCompletes (subs : List String) : Guard system := fun _ _ o _ =>
  match o with
  | .complete sub _ => sub ∈ subs
  | _ => False

instance (subs : List String) (w : World system) (n : Nat) (o : Op) (c : Cmd) :
    Decidable (OnlyCompletes subs w n o c) := by
  unfold OnlyCompletes
  split <;> infer_instance

/-- The event takes a subtask out of `claimed/`. -/
def moves : Event system → Bool
  | ⟨_, _, .remove .claimed _, x⟩ => x
  | _ => false

/-- Who took a subtask out of `claimed/` last. -/
def lastMover (l : List (Event system)) : Option Nat := (l.find? moves).map Event.call

/-- What the calls do to the task files. -/
def Careful (parent : String) (subs : List String) (w : World system) (n : Nat) : Cmd → Prop
  | .rename st id => st = .completed ∧ Inside w.state .completed id n
  | .remove st id => (st = .claimed ∧ id ∈ subs ∨ st = .decomposed ∧ id = parent) ∧
      w.state.File .completed id
  | .unlink _ _ => False
  | _ => True

/-- What holds while the subtasks are completed. -/
structure Ongoing (s₀ : Tree) (parent : String) (subs : List String) (w : World system) : Prop where
  locks : Locks w.state
  old : ∀ st, st ≠ .completed → ∀ id data, content w.state.files st id = some data →
    content s₀.files st id = some data
  moved : ∀ sub ∈ subs, w.state.File .claimed sub ∨ w.state.File .completed sub
  kept : w.state.File .decomposed parent ∨ w.state.File .completed parent
  first : lastMover w.trace = none → ∀ sub ∈ subs, w.state.File .claimed sub

variable {s₀ : Tree} {parent : String} {subs : List String} {w w' : World system} {e : Event system}
  {n : Nat} {o : Op} {id : String} {st : Stage}

/-! ## What a command does -/

theorem lastMover_of_moves (hf : Fires w e w') (h : moves e = true) :
    lastMover w'.trace = some e.call := by
  rw [lastMover, hf.2, List.find?_cons_of_pos h]
  rfl

theorem lastMover_of_not (hf : Fires w e w') (h : moves e = false) :
    lastMover w'.trace = lastMover w.trace := by
  rw [lastMover, hf.2, List.find?_cons_of_neg (by simp [h])]
  rfl

/-- Files are only put into `completed/` and taken out of other stages. -/
structure Progress (w : World system) (e : Event system) (w' : World system) : Prop where
  completed : ∀ id, w.state.File .completed id → w'.state.File .completed id
  old : ∀ st, st ≠ .completed → ∀ id data, content w'.state.files st id = some data →
    content w.state.files st id = some data
  same : ∀ st id, w.state.File st id → (∀ id', e.cmd = .remove st id' → id' ≠ id) →
    w'.state.File st id

theorem progress_of_careful (hc : Careful parent subs w e.call e.cmd) (hf : Fires w e w') :
    Progress w e w' := by
  obtain ⟨n, o, c, x⟩ := e
  obtain ⟨⟨i, hx⟩, -⟩ := hf
  simp only at hx hc
  have hsame : w'.state.files = w.state.files → Progress w ⟨n, o, c, x⟩ w' := by
    intro he
    refine ⟨fun id h => ?_, fun st _ id data h => he ▸ h, fun st id h _ => ?_⟩ <;>
      rwa [Tree.File, he]
  generalize hs' : w'.state = s' at hx
  cases filesEffect_of_exec hx with
  | still _ hfiles => exact hsame (hs' ▸ hfiles)
  | @renamed stage id tmp _ hid hfiles =>
    obtain ⟨rfl, -⟩ := hc
    have hput : w'.state.files = put w.state.files .completed tmp.1 tmp.2 := hs' ▸ hfiles
    have hfile : ∀ st id, w.state.File st id → w'.state.File st id := by
      intro st id' h
      rw [file_iff_content] at h ⊢
      rw [hput, content_put]
      split
      · rfl
      · exact h
    refine ⟨hfile .completed, fun st hst id' data h => ?_, fun st id' h _ => hfile st id' h⟩
    rwa [hput, content_put, if_neg fun he => hst he.1] at h
  | @removed stage id _ _ hfiles =>
    have hdrop : w'.state.files = drop w.state.files stage id := hs' ▸ hfiles
    have hfile : ∀ st id', w.state.File st id' → ¬ (st = stage ∧ id' = id) →
        w'.state.File st id' := by
      intro st id' h hne
      rw [file_iff_content] at h ⊢
      rwa [hdrop, content_drop, if_neg hne]
    refine ⟨fun id' h => hfile .completed id' h ?_, fun st _ id' data h => ?_,
      fun st id' h hne => hfile st id' h ?_⟩
    · rintro ⟨rfl, -⟩
      rcases hc.1 with ⟨h', -⟩ | ⟨h', -⟩ <;> cases h'
    · rw [hdrop, content_drop] at h
      split at h
      · cases h
      · exact h
    · rintro ⟨rfl, rfl⟩
      exact hne id' rfl rfl
  | notRenamed => exact hsame (congrArg Tree.files hs')
  | notRemoved => exact hsame (congrArg Tree.files hs')

/-- The stage a file was removed from. -/
theorem progress_gone (hp : Progress w e w') {st : Stage} (hst : st ≠ .completed)
    (h : ¬ w.state.File st id) : ¬ w'.state.File st id := by
  intro h'
  rw [file_iff_content] at h h'
  obtain ⟨data, hdata⟩ := Option.isSome_iff_exists.mp h'
  rw [hp.old st hst id data hdata] at h
  exact h rfl

/-- A removal from `claimed/` that found the file moves it. -/
theorem moves_of_removed {x : Bool} (hf : Fires w ⟨n, o, .remove .claimed id, x⟩ w')
    (h : w.state.File .claimed id) : moves ⟨n, o, .remove .claimed id, x⟩ = true := by
  obtain ⟨⟨i, hx⟩, -⟩ := hf
  simp only [exec, if_pos h] at hx
  exact (Prod.mk.inj (Option.some.inj hx)).1.symm

theorem Ongoing.step (h : Ongoing s₀ parent subs w) (hc : Careful parent subs w e.call e.cmd)
    (hf : Fires w e w') : Ongoing s₀ parent subs w' := by
  have hp : Progress w e w' := progress_of_careful hc hf
  have hunused : Unused w e.call e.op e.cmd := by
    unfold Unused
    split
    · rename_i hcmd
      rw [hcmd] at hc
      exact hc.elim
    · trivial
  refine ⟨locks_preserved w e w' h.locks hunused hf, fun st hst id data hd => ?_, fun sub hsub => ?_,
    ?_, fun hnone sub hsub => ?_⟩
  · exact h.old st hst id data (hp.old st hst id data hd)
  · by_cases hcmd : e.cmd = .remove .claimed sub
    · rw [hcmd] at hc
      exact Or.inr (hp.completed sub hc.2)
    · refine (h.moved sub hsub).imp (fun hcl => ?_) (hp.completed sub)
      exact hp.same .claimed sub hcl fun id' he hid => hcmd (hid ▸ he)
  · by_cases hcmd : e.cmd = .remove .decomposed parent
    · rw [hcmd] at hc
      exact Or.inr (hp.completed parent hc.2)
    · refine h.kept.imp (fun hd => ?_) (hp.completed parent)
      exact hp.same .decomposed parent hd fun id' he hid => hcmd (hid ▸ he)
  · have hmoves : moves e = false := by
      by_contra hm
      rw [lastMover_of_moves hf (by simpa using hm)] at hnone
      cases hnone
    rw [lastMover_of_not hf hmoves] at hnone
    have hcl := h.first hnone
    refine hp.same .claimed sub (hcl sub hsub) fun id' he hid => ?_
    obtain ⟨m, o, c, x⟩ := e
    obtain rfl : c = .remove .claimed id' := he
    rw [moves_of_removed hf (hid ▸ hcl sub hsub)] at hmoves
    cases hmoves

/-! ## Assertions -/

/-- The runs of the completing calls. -/
def completing (s₀ : Tree) (parent : String) (subs : List String) : Discipline system where
  Guard := OnlyCompletes subs
  Inv := Ongoing s₀ parent subs
  Guar w e := Careful parent subs w e.call e.cmd

/-- Call `n` has moved no subtask. -/
def Unmoved (n : Nat) (w : World system) : Prop := ∀ e ∈ mine n w, moves e = false

/-- Call `n` moved a subtask last, and none is left. -/
def Late (subs : List String) (n : Nat) (w : World system) : Prop :=
  lastMover w.trace = some n ∧ ∀ sub ∈ subs, ¬ w.state.File .claimed sub

theorem not_late_of_unmoved (h : Unmoved n w) : ¬ Late subs n w := by
  rintro ⟨hlast, -⟩
  obtain ⟨e, he, rfl⟩ := Option.map_eq_some_iff.mp hlast
  have hmem : e ∈ mine e.call w :=
    List.mem_filter.mpr ⟨List.mem_of_find?_eq_some he, beq_self_eq_true _⟩
  have hmoves := List.find?_some he
  rw [h e hmem] at hmoves
  cases hmoves

/-- A command that moves no file and unlinks no lock. -/
def Plain : Cmd → Prop
  | .rename _ _ | .remove _ _ | .unlink _ _ => False
  | _ => True

variable {c : Cmd} {x : Resp c}

theorem Plain.careful (h : Plain c) : Careful parent subs w n c := by
  cases c <;> trivial

theorem Plain.ne_remove (h : Plain c) : ∀ st id, c ≠ .remove st id := by
  rintro st id rfl
  exact h

theorem moves_of_ne_remove (h : ∀ st id, c ≠ .remove st id) : moves ⟨n, o, c, x⟩ = false := by
  cases c with
  | remove st id => exact absurd rfl (h st id)
  | _ => rfl

/-- An assertion that all commands of other calls keep, and the call's own but its removals. -/
structure Framed (s₀ : Tree) (parent : String) (subs : List String) (n : Nat) (o : Op)
    (A : World system → Prop) : Prop where
  stable : Stable (completing s₀ parent subs) n A
  own : ∀ {c : Cmd} {x : Resp c} {w w'}, (∀ st id, c ≠ .remove st id) → Careful parent subs w n c →
    Fires w ⟨n, o, c, x⟩ w' → A w → A w'

theorem Framed.plain {A : World system → Prop} (hA : Framed s₀ parent subs n o A) (hc : Plain c) :
    Establishes (completing s₀ parent subs) n o A c fun _ => A :=
  fun _ _ _ hi hw _ hf => ⟨hc.careful, hi.step hc.careful hf, hA.own hc.ne_remove hc.careful hf hw⟩

theorem Framed.and {A B : World system → Prop} (hA : Framed s₀ parent subs n o A)
    (hB : Framed s₀ parent subs n o B) : Framed s₀ parent subs n o fun w => A w ∧ B w where
  stable := stable_and hA.stable hB.stable
  own hc hr hf hw := ⟨hA.own hc hr hf hw.1, hB.own hc hr hf hw.2⟩

theorem Framed.imp {A : World system → Prop} {p : Prop} (hA : Framed s₀ parent subs n o A) :
    Framed s₀ parent subs n o fun w => p → A w where
  stable := fun w e w' hne hi hg hr hf hi' h hp => hA.stable w e w' hne hi hg hr hf hi' (h hp)
  own hc hr hf h hp := hA.own hc hr hf (h hp)

/-- A completed task stays completed. -/
theorem framed_completed : Framed s₀ parent subs n o fun w => w.state.File .completed id where
  stable := fun _ _ _ _ _ _ hr hf _ h => (progress_of_careful hr hf).completed id h
  own _ hr hf h := (progress_of_careful hr hf).completed id h

/-- What is gone from another stage stays gone. -/
theorem framed_gone (hst : st ≠ .completed) :
    Framed s₀ parent subs n o fun w => ¬ w.state.File st id where
  stable := fun _ _ _ _ _ _ hr hf _ h => progress_gone (progress_of_careful hr hf) hst h
  own _ hr hf h := progress_gone (progress_of_careful hr hf) hst h

theorem framed_unmoved : Framed s₀ parent subs n o (Unmoved n) where
  stable := stable_mine (p := fun l => ∀ e ∈ l, moves e = false)
  own hc _ hf hw := by
    unfold Unmoved
    rw [mine_own hf rfl, List.forall_mem_cons]
    exact ⟨moves_of_ne_remove hc, hw⟩

/-- A call that is not late does not become so by a command that moves no subtask. -/
theorem not_late_step (hr : Careful parent subs w e.call e.cmd) (hf : Fires w e w')
    (hm : moves e = false) (h : ¬ Late subs n w) : ¬ Late subs n w' := by
  intro hlate
  refine h ⟨(lastMover_of_not hf hm).symm.trans hlate.1, fun sub hsub hcl => ?_⟩
  have hp : Progress w e w' := progress_of_careful hr hf
  refine hlate.2 sub hsub (hp.same .claimed sub hcl fun id' he hid => ?_)
  obtain ⟨m, o', c, x⟩ := e
  obtain rfl : c = .remove .claimed id' := he
  rw [moves_of_removed hf (hid ▸ hcl)] at hm
  cases hm

/-- Another call that moves a subtask is the last mover then. -/
theorem framed_not_late : Framed s₀ parent subs n o fun w => ¬ Late subs n w where
  stable := by
    intro w e w' hne hi _ hr hf _ h hlate
    have hm : moves e = false := by
      by_contra hm
      have hlast := hlate.1
      rw [lastMover_of_moves hf (by simpa using hm)] at hlast
      exact hne (Option.some.inj hlast)
    exact not_late_step hr hf hm h hlate
  own hc hr hf h := not_late_step hr hf (moves_of_ne_remove hc) h

theorem framed_pure {p : Prop} : Framed s₀ parent subs n o fun _ => p where
  stable := stable_pure
  own _ _ _ h := h

/-! ## Rules -/

section Rules

variable {α : Type} {A : World system → Prop} {Q : Except PyError α → World system → Prop}
  {D : Discipline system}

/-- A plain command and what follows. -/
theorem plain_then {f : Resp c → P α} (hc : Plain c) (hA : Framed s₀ parent subs n o A)
    (hf : ∀ x, Outline (completing s₀ parent subs) n o Q (f x) A) :
    Outline (completing s₀ parent subs) n o Q (cmd c >>= f) A :=
  outline_cmd (fun _ => A) (fun _ => hA.stable) (hA.plain hc) hf

/-- A program that raises nothing, and what follows. -/
theorem total_bind {β : Type} {p : P β} {f : β → P α} {R : β → World system → Prop}
    (hp : Outline (completing s₀ parent subs) n o (Interleave.Outcome R fun _ _ => False) p A)
    (hf : ∀ a, Outline (completing s₀ parent subs) n o Q (f a) (R a)) :
    Outline (completing s₀ parent subs) n o Q (p >>= f) A := by
  refine outline_bind hf (outline_mono (fun _ _ h => h) (fun r w _ h => ?_) hp)
  cases r with
  | ok a => exact h
  | error e => exact h.elim

/-- A test for a file; that it is not there tells `B`. -/
theorem exists_then {B : World system → Prop} {f : Bool → P α} (hA : Framed s₀ parent subs n o A)
    (hB : Framed s₀ parent subs n o B)
    (htell : ∀ w, Ongoing s₀ parent subs w → ¬ w.state.File st id → B w)
    (htrue : Outline (completing s₀ parent subs) n o Q (f true) A)
    (hfalse : Outline (completing s₀ parent subs) n o Q (f false) fun w => A w ∧ B w) :
    Outline (completing s₀ parent subs) n o Q (cmd (.pathExists st id) >>= f) A := by
  refine outline_cmd (M := system) (c := Cmd.pathExists st id)
    (fun (x : Bool) w => A w ∧ (x = false → B w)) (fun x => (hA.and hB.imp).stable)
    (fun w x w' hi hw hg hf => ?_) fun x => ?_
  · obtain ⟨hr, hi', hA'⟩ := hA.plain (c := .pathExists st id) trivial w x w' hi hw hg hf
    refine ⟨hr, hi', hA', ?_⟩
    rintro rfl
    have hno : ¬ w.state.File st id := by
      obtain ⟨⟨i, hx⟩, -⟩ := hf
      exact of_decide_eq_false (Prod.mk.inj (Option.some.inj hx)).1
    exact hB.own (c := .pathExists st id) (fun _ _ h => by cases h) hr hf (htell w hi hno)
  · cases x with
    | true => exact outline_pre (fun _ _ h => h.1) htrue
    | false => exact outline_pre (fun _ _ h => ⟨h.1, h.2 rfl⟩) hfalse

/-- Reading a task that is not completed: what is there was there from the start. -/
theorem read_then {f : Doc → P α} (hst : st ≠ .completed) (hA : Framed s₀ parent subs n o A)
    (hnone : ∀ e w, A w → ¬ w.state.File st id → Q (.error e) w)
    (hf : ∀ data, content s₀.files st id = some data →
      Outline (completing s₀ parent subs) n o Q (f data) A) :
    Outline (completing s₀ parent subs) n o Q (readYaml st id >>= f) A := by
  refine outline_cmd (M := system) (c := Cmd.read st id)
    (fun (x : Option Doc) w => A w ∧ (x = none → ¬ w.state.File st id) ∧
      ∀ data, x = some data → content s₀.files st id = some data)
    (fun x => (hA.and ((framed_gone hst).imp.and framed_pure)).stable)
    (fun w x w' hi hw hg hf => ?_) fun x => ?_
  · obtain ⟨hr, hi', hA'⟩ := hA.plain (c := .read st id) trivial w x w' hi hw hg hf
    obtain ⟨⟨i, hx⟩, -⟩ := hf
    obtain ⟨hread, hs'⟩ := Prod.mk.inj (Option.some.inj hx)
    refine ⟨hr, hi', hA', ?_, fun data hdata => hi.old st hst id data (hread.trans hdata)⟩
    rintro rfl
    rw [← hs', file_iff_content]
    exact fun h => by rw [content, hread] at h; cases h
  · cases x with
    | none => exact outline_raise fun w _ h => hnone _ w h.1 (h.2.1 rfl)
    | some data =>
      by_cases hdata : content s₀.files st id = some data
      · exact outline_pre (fun _ _ h => h.1) (hf data hdata)
      · exact outline_pre (P := fun _ => False) (fun _ _ h => hdata (h.2.2 data rfl)) outline_false

/-- Call `n` has the lock file open, in phase `phase`. -/
def Has (n : Nat) (id : String) (phase : Phase) (w : World system) : Prop :=
  ∃ fd, w.state.fds.find? n = some fd ∧ fd.stage = .completed ∧ fd.id = id ∧ fd.phase = phase

theorem Has.inside (h : Has n id .locked w) : Inside w.state .completed id n := by
  obtain ⟨fd, hfd, hst, hid, hp⟩ := h
  exact ⟨fd, Table.find?_mem hfd, Table.find?_key hfd, hst, hid, hp⟩

/-- The lock file a call has open is not touched by others. -/
theorem fds_other (hf : Fires w e w') (hne : e.call ≠ n) :
    w'.state.fds.find? n = w.state.fds.find? n := by
  obtain ⟨m, o, c, x⟩ := e
  obtain ⟨⟨i, hx⟩, -⟩ := hf
  simp only at hx hne
  generalize w'.state = s' at hx
  have hset : ∀ phase, (w.state.setPhase m phase).fds.find? n = w.state.fds.find? n := by
    intro phase
    rw [Tree.setPhase, Table.find?_update_of_not]
    intro fd hfd
    rw [hfd]
    exact beq_false_of_ne hne.symm
  have htouch : ∀ (s : Tree) st id, (s.touch st id).fds = s.fds := by
    intro s st id
    unfold Tree.touch
    split <;> rfl
  cases c with
  | openLock st id =>
    cases hx
    simp only [Tree.openLock, Table.find?_put, if_neg hne.symm, htouch]
  | touch st id =>
    cases hx
    rw [htouch]
  | flock =>
    simp only [exec] at hx
    split at hx
    · split at hx
      · cases hx
        exact hset .locked
      · cases hx
    · cases hx
  | unlock =>
    cases hx
    exact hset .released
  | close =>
    cases hx
    simp only [Table.find?_erase, if_neg hne.symm]
  | rename st id =>
    simp only [exec] at hx
    split at hx <;> cases hx <;> rfl
  | remove st id =>
    simp only [exec] at hx
    split at hx <;> cases hx <;> rfl
  | _ =>
    cases hx
    rfl

theorem stable_has {phase : Phase} : Stable D n (Has n id phase) := by
  intro w e w' hne _ _ _ hf _ h
  unfold Has
  rwa [fds_other hf hne]

/-- The half-written file of whoever holds the lock stays there until it is renamed. -/
theorem stable_tmp : Stable (completing s₀ parent subs) n fun w =>
    Has n id .locked w ∧ ((w.state.tmps .completed).find? id).isSome := by
  intro w e w' hne hi hg hr hf hi' ⟨hhas, htmp⟩
  refine ⟨stable_has w e w' hne hi hg hr hf hi' hhas, ?_⟩
  obtain ⟨m, o, c, x⟩ := e
  obtain ⟨⟨i, hx⟩, -⟩ := hf
  simp only at hx hne
  generalize w'.state = s' at hx
  cases c with
  | writeTmp st id' data =>
    cases hx
    by_cases hst : st = .completed
    · subst hst
      simp only [Function.update_self, Table.find?_put]
      split
      · rfl
      · exact htmp
    · simpa only [Function.update_of_ne (Ne.symm hst)] using htmp
  | rename st id' =>
    -- only the holder of the lock renames
    obtain ⟨rfl, hin⟩ := hr
    have hid : id ≠ id' := by
      rintro rfl
      exact hne (hi.locks.inside hin hhas.inside)
    simp only [exec] at hx
    split at hx <;> cases hx
    · simp only [Function.update_self, Table.find?_erase, if_neg hid]
      exact htmp
    · exact htmp
  | flock =>
    simp only [exec] at hx
    split at hx
    · split at hx <;> cases hx
      exact htmp
    · cases hx
  | touch st id' =>
    cases hx
    unfold Tree.touch
    split <;> exact htmp
  | openLock st id' =>
    cases hx
    unfold Tree.openLock Tree.touch
    simp only
    split <;> exact htmp
  | remove st id' =>
    simp only [exec] at hx
    split at hx <;> cases hx <;> exact htmp
  | _ =>
    cases hx
    exact htmp

/-- `_locked_write_yaml` to `completed/` does not fail. -/
theorem lockedWrite_outline {data : Doc} (hA : Framed s₀ parent subs n o A) :
    Outline (completing s₀ parent subs) n o
      (Interleave.Outcome (fun _ w => A w ∧ w.state.File .completed id) fun _ _ => False)
      (lockedWriteYaml .completed id data) A := by
  have hB : Framed s₀ parent subs n o fun w => A w ∧ w.state.File .completed id :=
    hA.and framed_completed
  have hend : ∀ (c : Cmd) (r : Except PyError Unit), Plain c →
      Outline (completing s₀ parent subs) n o
        (Interleave.Outcome
          (fun _ => Interleave.Outcome (fun _ w => A w ∧ w.state.File .completed id) (fun _ _ => False) r)
          fun e => Interleave.Outcome (fun _ w => A w ∧ w.state.File .completed id) (fun _ _ => False)
            (.error e : Except PyError Unit))
        (cmd c >>= fun _ => .ret ())
        (Interleave.Outcome (fun _ w => A w ∧ w.state.File .completed id) (fun _ _ => False) r) := by
    intro c r hc
    cases r with
    | ok a => exact plain_then hc hB fun _ => outline_ret fun _ _ h => h
    | error e => exact outline_false
  refine plain_then (c := .touch .completed id) trivial hA fun _ => ?_
  refine outline_cmd (c := Cmd.openLock .completed id) (fun _ w => A w ∧ Has n id .waiting w)
    (fun _ => stable_and hA.stable stable_has) (fun w x w' hi hw hg hf => ?_) fun _ => ?_
  · obtain ⟨hr, hi', hA'⟩ := hA.plain (c := .openLock .completed id) trivial w x w' hi hw hg hf
    refine ⟨hr, hi', hA', ?_⟩
    obtain ⟨⟨i, hx⟩, -⟩ := hf
    obtain ⟨-, hs'⟩ := Prod.mk.inj (Option.some.inj hx)
    unfold Has
    simp only at hs'
    rw [← hs']
    simp only [Tree.openLock, Table.find?_put, if_true]
    exact ⟨_, rfl, rfl, rfl, rfl⟩
  refine outline_finally (hend .close · trivial) ?_
  refine outline_cmd (c := Cmd.flock) (fun _ w => A w ∧ Has n id .locked w)
    (fun _ => stable_and hA.stable stable_has) (fun w x w' hi hw hg hf => ?_) fun _ => ?_
  · obtain ⟨hr, hi', hA'⟩ := hA.plain (c := .flock) trivial w x w' hi hw.1 hg hf
    refine ⟨hr, hi', hA', ?_⟩
    obtain ⟨fd, hfd, hst, hid, -⟩ := hw.2
    obtain ⟨⟨i, hx⟩, -⟩ := hf
    simp only [exec, hfd] at hx
    split at hx
    · obtain ⟨-, hs'⟩ := Prod.mk.inj (Option.some.inj hx)
      unfold Has
      rw [← hs', Tree.setPhase, Table.find?_update, hfd]
      refine ⟨_, rfl, ?_, ?_, ?_⟩ <;> simp [Table.find?_key hfd, hst, hid]
    · cases hx
  refine outline_finally (hend .unlock · trivial) ?_
  refine outline_cmd (c := Cmd.writeTmp .completed id data)
    (fun _ w => A w ∧ Has n id .locked w ∧ ((w.state.tmps .completed).find? id).isSome)
    (fun _ => stable_and hA.stable stable_tmp) (fun w x w' hi hw hg hf => ?_) fun _ => ?_
  · obtain ⟨hr, hi', hA'⟩ := hA.plain (c := .writeTmp .completed id data) trivial w x w' hi hw.1 hg hf
    refine ⟨hr, hi', hA', ?_⟩
    obtain ⟨⟨i, hx⟩, -⟩ := hf
    obtain ⟨-, hs'⟩ := Prod.mk.inj (Option.some.inj hx)
    unfold Has
    rw [← hs']
    refine ⟨hw.2, ?_⟩
    simp [Table.find?_put]
  refine outline_cmd (M := system) (c := Cmd.rename .completed id)
    (fun (x : Bool) w => x = true ∧ A w ∧ w.state.File .completed id)
    (fun x => stable_and stable_pure hB.stable) (fun w x w' hi hw hg hf => ?_) fun x => ?_
  · have hr : Careful parent subs w n (.rename .completed id) := ⟨rfl, hw.2.1.inside⟩
    have hne : ∀ st id', Cmd.rename .completed id ≠ .remove st id' := fun _ _ h => by cases h
    obtain ⟨tmp, htmp⟩ := Option.isSome_iff_exists.mp hw.2.2
    refine ⟨hr, hi.step hr hf, ?_, hA.own hne hr hf hw.1, ?_⟩
    · obtain ⟨⟨i, hx⟩, -⟩ := hf
      simp only [exec, htmp] at hx
      exact (Prod.mk.inj (Option.some.inj hx)).1.symm
    · obtain ⟨⟨i, hx⟩, -⟩ := hf
      simp only [exec, htmp] at hx
      rw [← (Prod.mk.inj (Option.some.inj hx)).2, Tree.File]
      simp [Table.find?_put, Table.find?_key htmp]
  · cases x with
    | true => exact outline_ret fun _ _ h => h.2
    | false => exact outline_pre (P := fun _ => False) (fun _ _ h => Bool.false_ne_true h.1) outline_false

end Rules

/-! ## The operations -/

/-- The loop over the subtasks finds them all completed if the call is late. -/
theorem allCompleted_outline {A : World system → Prop} (hA : Framed s₀ parent subs n o A) :
    ∀ {l : List String}, (∀ sub ∈ l, sub ∈ subs) → Outline (completing s₀ parent subs) n o
      (Interleave.Outcome (fun all w => A w ∧ (all = false → ¬ Late subs n w)) fun _ _ => False)
      (allCompleted l) A
  | [], _ => outline_ret fun _ _ h => ⟨h, fun hall => by cases hall⟩
  | sub :: l, hl => by
    refine exists_then hA framed_not_late (fun w hi hno hlate => ?_) ?_ ?_
    · have hsub : sub ∈ subs := hl sub List.mem_cons_self
      exact (hi.moved sub hsub).elim (hlate.2 sub hsub) hno
    · exact allCompleted_outline hA fun sub hsub => hl sub (List.mem_cons_of_mem _ hsub)
    · exact outline_ret fun _ _ h => ⟨h.1, fun _ => h.2⟩

/-- `os.remove`, whoever is first: the file is gone. -/
theorem establishes_remove {A : World system → Prop}
    (hr : ∀ w, A w → Careful parent subs w n (.remove st id)) :
    Establishes (completing s₀ parent subs) n o A (.remove st id)
      fun (_ : Bool) w => ¬ w.state.File st id := by
  intro w x w' hi hw hg hf
  have hc := hr w hw
  refine ⟨hc, hi.step hc hf, ?_⟩
  obtain ⟨⟨i, hx⟩, -⟩ := hf
  simp only at hx
  generalize w'.state = s' at hx
  cases filesEffect_of_exec hx with
  | still hstill => exact hstill.elim
  | removed _ hfiles =>
    rw [file_iff_content, show s'.files = drop w.state.files st id from hfiles, content_drop]
    simp
  | notRemoved h => exact h

/-- What a late call ensures. -/
abbrev Ensures (parent : String) (subs : List String) (n : Nat) (w : World system) : Prop :=
  Late subs n w → ¬ w.state.File .decomposed parent

theorem checkParentCompletion_outline (hs : Decomposed parent subs s₀) :
    Outline (completing s₀ parent subs) n o
      (fun _ w => ¬ w.state.File .claimed id ∧ Ensures parent subs n w)
      (checkParentCompletion parent) fun w => ¬ w.state.File .claimed id := by
  have hA : Framed s₀ parent subs n o fun w => ¬ w.state.File .claimed id :=
    framed_gone (by decide)
  have hgone : Framed s₀ parent subs n o fun w => ¬ w.state.File .decomposed parent :=
    framed_gone (by decide)
  refine exists_then hA hgone (fun _ _ h => h) ?_ (outline_ret fun _ _ h => ⟨h.1, fun _ => h.2⟩)
  refine read_then (by decide) hA (fun _ _ hw h => ⟨hw, fun _ => h⟩) fun data hdata => ?_
  obtain ⟨data', hdata', hlist⟩ := hs.lists
  obtain rfl : data = data' := Option.some.inj (hdata.symm.trans hdata')
  simp only [hlist, if_neg hs.some_sub]
  refine total_bind (allCompleted_outline hA fun _ h => h) fun all => ?_
  cases all with
  | false => exact outline_ret fun _ _ h => ⟨h.1, fun hlate => absurd hlate (h.2 rfl)⟩
  | true =>
    refine outline_pre (M := system) (P := fun w => ¬ w.state.File .claimed id) (fun _ _ h => h.1) ?_
    refine plain_then (c := .iso) trivial hA fun completed_at => ?_
    refine total_bind (lockedWrite_outline hA) fun _ => ?_
    have hremove : Outline (completing s₀ parent subs) n o
        (fun _ w => ¬ w.state.File .claimed id ∧ ¬ w.state.File .decomposed parent)
        (removeYaml .decomposed parent)
        fun w => ¬ w.state.File .claimed id ∧ w.state.File .completed parent := by
      refine outline_cmd (M := system) (c := Cmd.remove .decomposed parent)
        (fun _ w => ¬ w.state.File .claimed id ∧ ¬ w.state.File .decomposed parent)
        (fun _ => (hA.and hgone).stable) (fun w x w' hi hw hg hf => ?_) fun x => ?_
      · obtain ⟨hr, hi', hgone'⟩ := establishes_remove (o := o)
          (A := fun w => w.state.File .completed parent)
          (fun w hw => ⟨Or.inr ⟨rfl, rfl⟩, hw⟩) w x w' hi hw.2 hg hf
        have hprogress := @progress_of_careful parent subs _ _ ⟨n, o, .remove .decomposed parent, x⟩ hr hf
        exact ⟨hr, hi', progress_gone hprogress (by decide) hw.1, hgone'⟩
      · cases x with
        | true => exact outline_ret fun _ _ h => h
        | false => exact outline_raise fun _ _ h => h
    refine outline_bind (M := system) (R := fun _ w => ¬ w.state.File .claimed id ∧
        ¬ w.state.File .decomposed parent)
      (fun _ => outline_ret fun _ _ h => ⟨h.1, fun _ => h.2⟩)
      (outline_mono (fun _ _ h => h) (fun r w _ h => ?_) hremove)
    cases r with
    | ok a => exact h
    | error e => exact ⟨h.1, fun _ => h.2⟩

/-- What has become of the call's own subtask when it is past it. -/
theorem originalCompleteTask_outline (hs : Decomposed parent subs s₀) (hid : id ∈ subs)
    {artifact : String} : Outline (completing s₀ parent subs) n o
      (Interleave.Outcome (fun task w => ¬ w.state.File .claimed id ∧ parentOf task = some parent)
        fun _ w => ¬ w.state.File .claimed id ∧ Ensures parent subs n w)
      (originalCompleteTask id artifact) (Unmoved n) := by
  have hgone : Framed s₀ parent subs n o fun w => ¬ w.state.File .claimed id :=
    framed_gone (by decide)
  refine exists_then framed_unmoved hgone (fun _ _ h => h) ?_
    (outline_raise fun w _ h => ⟨h.2, fun hlate => absurd hlate (not_late_of_unmoved h.1)⟩)
  refine read_then (by decide) framed_unmoved
    (fun _ w hw h => ⟨h, fun hlate => absurd hlate (not_late_of_unmoved hw)⟩) fun data hdata => ?_
  have hparent : parentOf data = some parent := by
    obtain ⟨data', hdata', hp⟩ := hs.claimed id hid
    obtain rfl : data = data' := Option.some.inj (hdata.symm.trans hdata')
    rw [parentOf, hp, Option.filter_some, if_pos (decide_eq_true hs.named)]
  refine plain_then (c := .host) trivial framed_unmoved fun hostname =>
    plain_then (c := .iso) trivial framed_unmoved fun completed_at => ?_
  refine total_bind (lockedWrite_outline framed_unmoved) fun _ => ?_
  have hremove : Outline (completing s₀ parent subs) n o
      (Interleave.Outcome (fun _ w => ¬ w.state.File .claimed id)
        fun _ w => ¬ w.state.File .claimed id ∧ Ensures parent subs n w)
      (removeYaml .claimed id) fun w => Unmoved n w ∧ w.state.File .completed id := by
    refine outline_cmd (M := system) (c := Cmd.remove .claimed id)
      (fun (x : Bool) w => ¬ w.state.File .claimed id ∧ (x = false → Unmoved n w))
      (fun x => (hgone.and framed_unmoved.imp).stable) (fun w x w' hi hw hg hf => ?_) fun x => ?_
    · obtain ⟨hr, hi', hgone'⟩ := establishes_remove (o := o)
        (A := fun w => w.state.File .completed id)
        (fun w hw => ⟨Or.inl ⟨rfl, hid⟩, hw⟩) w x w' hi hw.2 hg hf
      refine ⟨hr, hi', hgone', ?_⟩
      rintro rfl
      unfold Unmoved
      rw [mine_own hf rfl, List.forall_mem_cons]
      exact ⟨rfl, hw.1⟩
    · cases x with
      | true => exact outline_ret fun _ _ h => h.1
      | false => exact outline_raise fun w _ h =>
          ⟨h.1, fun hlate => absurd hlate (not_late_of_unmoved (h.2 rfl))⟩
  refine outline_bind (fun _ => outline_ret fun w _ h => ⟨h, ?_⟩) hremove
  rw [SameContent.parentOf (sameContent_setKeys ?_), hparent]
  by_cases ha : artifact = "" <;> simp [ha, bookkeeping]

theorem completeTask_outline (hs : Decomposed parent subs s₀) (hid : id ∈ subs) {artifact : String} :
    Outline (completing s₀ parent subs) n o
      (fun _ w => ¬ w.state.File .claimed id ∧ Ensures parent subs n w)
      (completeTask id artifact) (Unmoved n) := by
  refine outline_bind (fun task => ?_) (originalCompleteTask_outline hs hid)
  by_cases hp : parentOf task = some parent
  · refine outline_pre (M := system) (P := fun w => ¬ w.state.File .claimed id) (fun _ _ h => h.1) ?_
    split
    · rename_i hnone
      cases hp.symm.trans hnone
    · rename_i p hsome
      obtain rfl : parent = p := Option.some.inj (hp.symm.trans hsome)
      refine outline_bind (M := system) (R := fun _ w => ¬ w.state.File .claimed id ∧
          Ensures parent subs n w) (fun _ => outline_ret fun _ _ h => h) ?_
      refine outline_mono (fun _ _ h => h) (fun r w _ h => ?_) (checkParentCompletion_outline hs)
      cases r <;> exact h
  · exact outline_pre (P := fun _ => False) (fun _ _ h => hp h.2) outline_false

/-- A call that ended has moved its subtask, and the parent if it was late. -/
def Done (parent : String) (subs : List String) (n : Nat) (o : Op) (w : World system) : Prop :=
  (∀ sub artifact, o = .complete sub artifact → sub ∈ subs → ¬ w.state.File .claimed sub) ∧
    Ensures parent subs n w

theorem prog_outline (hs : Decomposed parent subs s₀) (n : Nat) (o : Op) :
    Outline (completing s₀ parent subs) n o (fun _ => Done parent subs n o) (prog o)
      (Untouched n) := by
  have hunmoved : ∀ w : World system, Untouched n w → Unmoved n w := by
    intro w hw e he
    rw [show mine n w = [] from hw] at he
    cases he
  by_cases hrun : ∃ sub artifact, o = .complete sub artifact ∧ sub ∈ subs
  · obtain ⟨sub, artifact, rfl, hsub⟩ := hrun
    refine outline_mono (fun w _ => hunmoved w) (fun r w _ h => ⟨?_, h.2⟩)
      (completeTask_outline hs hsub)
    intro sub' artifact' he _
    obtain ⟨rfl, -⟩ := Op.complete.inj he
    exact h.1
  · refine outline_unguarded (fun w c hg => hrun ?_) (fun r w _ hw => ⟨?_, fun hlate => ?_⟩) _
    · cases o with
      | complete sub artifact => exact ⟨sub, artifact, rfl, hg⟩
      | _ => exact hg.elim
    · exact fun sub artifact he hsub => absurd ⟨sub, artifact, he, hsub⟩ hrun
    · exact absurd hlate (not_late_of_unmoved (hunmoved w hw))

/-- **The last subtask completes the parent**, whatever the interleaving of the calls that complete
them. -/
theorem parent_completed {s : Tree} {c : Config system} (hs : Decomposed parent subs s)
    (h : Run (OnlyCompletes subs) (.init s) c) (hq : c.Quiescent)
    (hall : ∀ sub ∈ subs, ∃ n artifact r, c.Ended n (.complete sub artifact) r) :
    c.world.state.File .completed parent ∧ ¬ c.world.state.File .decomposed parent := by
  have hfile : ∀ st id data, content s.files st id = some data → s.File st id := by
    intro st id data hd
    rw [file_iff_content, hd]
    rfl
  have hclaimed : ∀ sub ∈ subs, s.File .claimed sub := by
    intro sub hsub
    obtain ⟨data, hd, -⟩ := hs.claimed sub hsub
    exact hfile _ _ _ hd
  have hinit : Ongoing s parent subs ⟨s, []⟩ := by
    refine ⟨?_, fun _ _ _ _ hd => hd, fun sub hsub => Or.inl (hclaimed sub hsub), ?_,
      fun _ => hclaimed⟩
    · constructor <;> simp [hs.closed, Table.empty]
    · obtain ⟨data, hd, -⟩ := hs.lists
      exact Or.inl (hfile _ _ _ hd)
  have hsound := run_sound (D := completing s parent subs) (Q := fun n o _ => Done parent subs n o)
    (prog_outline hs) hinit h
  have hmoved : ∀ sub ∈ subs, ¬ c.world.state.File .claimed sub := by
    intro sub hsub
    obtain ⟨n, artifact, r, hr⟩ := hall sub hsub
    exact (hsound.ended hr).1 sub artifact rfl hsub
  have hgone : ¬ c.world.state.File .decomposed parent := by
    cases hlast : lastMover c.world.trace with
    | none =>
      obtain ⟨sub, hsub⟩ := List.exists_mem_of_ne_nil subs hs.some_sub
      exact absurd (hsound.inv.first hlast sub hsub) (hmoved sub hsub)
    | some n =>
      obtain ⟨e, he, rfl⟩ := Option.map_eq_some_iff.mp hlast
      have hmade := run_traced h e (List.mem_of_find?_eq_some he)
      obtain ⟨k, hk⟩ := Option.ne_none_iff_exists'.mp hmade
      obtain ⟨r, hr⟩ := hq.ended hk
      exact (hsound.ended hr).2 ⟨hlast, hmoved⟩
  exact ⟨hsound.inv.kept.resolve_left hgone, hgone⟩

/-! ## Two subtasks completed at once -/

/-- A task decomposed into two subtasks, which are claimed. -/
def twoClaimed : Tree :=
  let claimed (sub : String) : String × Doc :=
    (sub, [("id", .str sub), ("parent_id", .str "task-001")])
  .ofFiles fun st => match st with
    | .claimed => (Table.empty.put (claimed "task-001-a")).put (claimed "task-001-b")
    | .decomposed => Table.empty.put
        ("task-001", [("subtasks", .ofStrings ["task-001-a", "task-001-b"])])
    | _ => .empty

theorem twoClaimed_decomposed :
    Decomposed "task-001" ["task-001-a", "task-001-b"] twoClaimed where
  named := by decide
  some_sub := by decide
  closed := rfl
  lists := ⟨_, rfl, rfl⟩
  claimed := by
    intro sub hsub
    simp only [List.mem_cons, List.not_mem_nil, or_false] at hsub
    rcases hsub with rfl | rfl <;> exact ⟨_, rfl, rfl⟩

/-- Both subtasks are moved, then both calls find all completed and move the parent; the second finds
it gone. -/
def bothFinish : List (Act system) :=
  solo system 0 (.complete "task-001-a" "") 12 (host "a") ++
    solo system 1 (.complete "task-001-b" "") 17 (host "b") ++
    List.replicate 13 (.step 0 (host "a")) ++ List.replicate 8 (.step 1 (host "b"))

/-- Call `n` completes `sub`. -/
def completes (c : Config system) (n : Nat) (sub : String) : Bool :=
  match c.proc n with
  | some ⟨.complete id _, _⟩ => id == sub
  | _ => false

theorem ended_of_completes {c : Config system} (hq : c.Quiescent) {sub : String}
    (h : completes c n sub = true) : ∃ n artifact r, c.Ended n (.complete sub artifact) r := by
  unfold completes at h
  split at h
  · rename_i id artifact p hn
    obtain rfl := eq_of_beq h
    obtain ⟨r, hr⟩ := hq.ended hn
    exact ⟨n, artifact, r, hr⟩
  · cases h

theorem parent_completed_bothFinish : ∃ c : Config system,
    Run (OnlyCompletes ["task-001-a", "task-001-b"]) (.init twoClaimed) c ∧
      c.world.state.File .completed "task-001" ∧ ¬ c.world.state.File .decomposed "task-001" := by
  have hplay : (play (OnlyCompletes ["task-001-a", "task-001-b"]) (.init twoClaimed) bothFinish).any
      (fun c => (starts bothFinish).all c.atRest &&
        (completes c 0 "task-001-a" && completes c 1 "task-001-b")) = true := by
    decide +kernel
  obtain ⟨c, hrun, hq, hc⟩ := exists_quiescent_of_play hplay
  rw [Bool.and_eq_true] at hc
  refine ⟨c, hrun, parent_completed twoClaimed_decomposed hrun hq fun sub hsub => ?_⟩
  simp only [List.mem_cons, List.not_mem_nil, or_false] at hsub
  rcases hsub with rfl | rfl
  · exact ended_of_completes hq hc.1
  · exact ended_of_completes hq hc.2

end ClaudeSwarm.SwarmLib.Siblings
