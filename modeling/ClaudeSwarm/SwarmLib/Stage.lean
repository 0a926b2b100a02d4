import ClaudeSwarm.Interleave.Span
import ClaudeSwarm.SwarmLib.Lock
import Mathlib.Data.Finset.Option

/-!
# One stage for each task

An operation moves a task by writing its file to one stage directory and then removing it from
another. `claim_task` and `decompose_task` hold the pending lock meanwhile; `complete_task`,
`check_parent_completion` and `cleanup_stale_nodes` hold no lock that the others would wait for, so a
task that `complete_task` has read may have been put back into `pending/` when it is written to
`completed/` (`complete_races_cleanup`).

* `Placed`: a task that no call is moving is in one stage at most, and one that is being moved is in
  two. It holds along every run in which a task file is only written to a stage while the task is where
  the call has read it, and nowhere else (`Orderly`).
* `prog_ends`: a call that ended has ended its moves.
* **`stage_exclusive`**: when no call is in progress every task is in exactly one stage.
-/

namespace ClaudeSwarm.SwarmLib

open Interleave Data
open Python (PyError)

/-! ## Where a task is -/

/-- The stages that have a file of the task are those of `S`. -/
def Only (s : Tree) (id : String) (S : Finset Stage) : Prop := ∀ st, s.File st id ↔ st ∈ S

instance (s : Tree) (id : String) (S : Finset Stage) : Decidable (Only s id S) := by
  unfold Only
  infer_instance

theorem Only.unique {s : Tree} {id : String} {S S' : Finset Stage} (h : Only s id S)
    (h' : Only s id S') : S = S' :=
  Finset.ext fun st => (h st).symm.trans (h' st)

theorem file_put {s s' : Tree} {stage : Stage} {tmp : String × Doc}
    (hf : s'.files = Function.update s.files stage ((s.files stage).put tmp)) (st : Stage)
    (id : String) : s'.File st id ↔ (st = stage ∧ id = tmp.1) ∨ s.File st id := by
  unfold Tree.File
  rw [hf]
  by_cases hst : st = stage
  · subst hst
    by_cases hid : id = tmp.1
    · simp [Table.find?_put, hid]
    · simp [Table.find?_put, hid]
  · simp [hst]

theorem file_erase {s s' : Tree} {stage : Stage} {id' : String}
    (hf : s'.files = Function.update s.files stage ((s.files stage).erase id')) (st : Stage)
    (id : String) : s'.File st id ↔ s.File st id ∧ ¬ (st = stage ∧ id = id') := by
  unfold Tree.File
  rw [hf]
  by_cases hst : st = stage
  · subst hst
    by_cases hid : id = id'
    · simp [Table.find?_erase, hid]
    · simp [Table.find?_erase, hid]
  · simp [hst]

/-! ## Moves -/

/-- The operation creates the tasks whose files it writes to `st`. -/
def Op.Creates : Op → Stage → Bool
  | .create .., .pending | .decompose _ _, .pending => true
  | _, _ => false

/-- The moves the operations make. -/
def Stage.MovesTo : Stage → Stage → Bool
  | .pending, .claimed | .claimed, .completed | .pending, .decomposed | .decomposed, .completed
  | .claimed, .pending => true
  | _, _ => false

theorem Stage.MovesTo.ne {a b : Stage} (h : a.MovesTo b = true) : a ≠ b := by
  rintro rfl
  cases a <;> cases h

theorem Stage.MovesTo.not_both : ∀ a b : Stage, a.MovesTo b = true →
    ¬ (Stage.completed ∈ ({a, b} : Finset Stage) ∧ Stage.pending ∈ ({a, b} : Finset Stage)) := by
  decide

/-- The event puts a task into a second stage. -/
def opens : Event system → String → Prop
  | ⟨_, o, .rename st id, x⟩, id' => id' = id ∧ x = true ∧ o.Creates st = false
  | _, _ => False

/-- The event takes a task out of a stage. -/
def closes : Event system → String → Prop
  | ⟨_, _, .remove _ id, x⟩, id' => id' = id ∧ x = true
  | _, _ => False

/-- The event writes a task's file to a stage. -/
def lands : Event system → String → Prop
  | ⟨_, _, .rename _ id, x⟩, id' => id' = id ∧ x = true
  | _, _ => False

/-- Call `n` is moving task `id`. -/
abbrev Moving (n : Nat) (id : String) (w : World system) : Prop := Open opens closes n id w

/-- Call `n` is moving no task. -/
abbrev Idle (n : Nat) (w : World system) : Prop := OpenIn opens closes ∅ n w

/-- The stage in which a task was last read, newest command first. -/
def source : List (Event system) → String → Option Stage
  | [], _ => none
  | ⟨_, _, .read st id, _⟩ :: l, id' => if id = id' then some st else source l id'
  | _ :: l, id' => source l id'

/-- A task's file is written to a stage while the task is in the one where the call has read it, and
only there; the file of a new task, while there is none. -/
def Orderly : Guard system := fun w n o c =>
  match c with
  | .rename st id =>
    if o.Creates st then Only w.state id ∅
    else ∃ src, source (mine n w) id = some src ∧ Only w.state id {src}
  | _ => True

instance (w : World system) (n : Nat) (o : Op) (c : Cmd) : Decidable (Orderly w n o c) := by
  unfold Orderly
  split <;> infer_instance

theorem Orderly.creates {w : World system} {n : Nat} {o : Op} {st : Stage} {id : String}
    (h : Orderly w n o (.rename st id)) (hc : o.Creates st = true) : Only w.state id ∅ := by
  simpa [Orderly, hc] using h

theorem Orderly.moves {w : World system} {n : Nat} {o : Op} {st : Stage} {id : String}
    (h : Orderly w n o (.rename st id)) (hc : o.Creates st = false) :
    ∃ src, source (mine n w) id = some src ∧ Only w.state id {src} := by
  simpa [Orderly, hc] using h

/-- What is written to a stage is in one stage at most. -/
theorem Orderly.only {w : World system} {n : Nat} {o : Op} {st : Stage} {id : String}
    (h : Orderly w n o (.rename st id)) : ∃ S : Finset Stage, S.card ≤ 1 ∧ Only w.state id S := by
  cases hc : o.Creates st with
  | true => exact ⟨∅, by simp, h.creates hc⟩
  | false =>
    obtain ⟨src, -, hS⟩ := h.moves hc
    exact ⟨{src}, by simp, hS⟩

/-! ## The invariant -/

/-- The task was there from the start, or has been created since. -/
def Known (s₀ : Tree) (id : String) (w : World system) : Prop :=
  (∃ st, s₀.File st id) ∨ ∃ e ∈ w.trace, lands e id

/-- A task that nobody moves is in one stage at most, one that is moved is in two and moved by one
call, and none gets lost. -/
structure Placed (s₀ : Tree) (id : String) (w : World system) : Prop where
  still : (∀ n, ¬ Moving n id w) → ∃ p : Option Stage, Only w.state id p.toFinset
  moved : ∀ n, Moving n id w → ∃ a b, a.MovesTo b = true ∧ Only w.state id {a, b}
  unique : ∀ n m, Moving n id w → Moving m id w → n = m
  kept : Known s₀ id w → ∃ st, w.state.File st id

variable {s₀ : Tree} {w w' : World system} {e : Event system} {id : String}

/-- A task that an event does not touch. -/
theorem Placed.same (h : Placed s₀ id w) (hf : Fires w e w')
    (hfile : ∀ st, w'.state.File st id ↔ w.state.File st id) (ho : ¬ opens e id)
    (hc : ¬ closes e id) (hl : ¬ lands e id) : Placed s₀ id w' := by
  have hmove : ∀ n, Moving n id w' ↔ Moving n id w := open_same hf ho hc
  have honly : ∀ S, Only w.state id S → Only w'.state id S :=
    fun S hS st => (hfile st).trans (hS st)
  refine ⟨fun hn => ?_, fun n hn => ?_, fun n m hn hm => ?_, fun hk => ?_⟩
  · obtain ⟨p, hp⟩ := h.still fun n hw => hn n ((hmove n).mpr hw)
    exact ⟨p, honly _ hp⟩
  · obtain ⟨a, b, hab, hS⟩ := h.moved n ((hmove n).mp hn)
    exact ⟨a, b, hab, honly _ hS⟩
  · exact h.unique n m ((hmove n).mp hn) ((hmove m).mp hm)
  · obtain ⟨st, hst⟩ := h.kept (hk.imp_right fun ⟨e', he', hl'⟩ => by
      rw [hf.2, List.mem_cons] at he'
      rcases he' with rfl | he'
      · exact absurd hl' hl
      · exact ⟨e', he', hl'⟩)
    exact ⟨st, (hfile st).mpr hst⟩

/-- A task in fewer than two stages is not being moved. -/
theorem Placed.not_moving (h : Placed s₀ id w) {S : Finset Stage} (hS : Only w.state id S)
    (hcard : S.card ≤ 1) (n : Nat) : ¬ Moving n id w := by
  intro hn
  obtain ⟨a, b, hab, hab'⟩ := h.moved n hn
  rw [hS.unique hab', Finset.card_pair (Stage.MovesTo.ne hab)] at hcard
  omega

/-- A task is created. -/
theorem Placed.create (h : Placed s₀ id w) (hf : Fires w e w') {st : Stage}
    (hbefore : Only w.state id ∅) (hafter : Only w'.state id {st}) (ho : ¬ opens e id)
    (hc : ¬ closes e id) : Placed s₀ id w' := by
  have hmove : ∀ n, ¬ Moving n id w' := fun n hn =>
    h.not_moving hbefore (by simp) n ((open_same hf ho hc n).mp hn)
  refine ⟨fun _ => ⟨some st, by simpa using hafter⟩, fun n hn => absurd hn (hmove n),
    fun n m hn => absurd hn (hmove n), fun _ => ⟨st, (hafter st).mpr (by simp)⟩⟩

/-- A call begins to move a task. -/
theorem Placed.begin (h : Placed s₀ id w) (hf : Fires w e w') {a b : Stage} (hab : a.MovesTo b = true)
    (hbefore : Only w.state id {a}) (hafter : Only w'.state id {a, b}) (ho : opens e id) :
    Placed s₀ id w' := by
  have hown : Moving e.call id w' := (open_own hf id).mpr (Or.inl ho)
  have hmove : ∀ n, Moving n id w' → n = e.call := by
    intro n hn
    by_contra hne
    exact h.not_moving hbefore (by simp) n ((open_other hf (Ne.symm hne) id).mp hn)
  refine ⟨fun hn => absurd hown (hn _), fun n _ => ⟨a, b, hab, hafter⟩, fun n m hn hm => ?_,
    fun _ => ⟨a, (hafter a).mpr (by simp)⟩⟩
  rw [hmove n hn, hmove m hm]

/-- A call ends its move of a task. -/
theorem Placed.finish (h : Placed s₀ id w) (hf : Fires w e w') {b : Stage}
    (hown : Moving e.call id w) (hafter : Only w'.state id {b}) (ho : ¬ opens e id)
    (hc : closes e id) : Placed s₀ id w' := by
  have hmove : ∀ n, ¬ Moving n id w' := by
    intro n hn
    by_cases hne : e.call = n
    · subst hne
      exact ((open_own hf id).mp hn).elim ho fun hn => hn.2 hc
    · exact hne (h.unique _ _ hown ((open_other hf hne id).mp hn))
  refine ⟨fun _ => ⟨some b, by simpa using hafter⟩, fun n hn => absurd hn (hmove n),
    fun n m hn => absurd hn (hmove n), fun _ => ⟨b, (hafter b).mpr (by simp)⟩⟩

/-! ## The steps -/

/-- The orderly runs; whoever removes a file is moving the task. -/
def moving (s₀ : Tree) : Discipline system where
  Guard := Orderly
  Inv w := ∀ id, Placed s₀ id w
  Guar w e := ∀ st id, e.cmd = .remove st id → Moving e.call id w

/-- A command of operation `o` that moves no task and reads none. -/
def Quiet (o : Op) : Cmd → Prop
  | .rename st _ => o.Creates st = true
  | .remove _ _ | .read _ _ => False
  | _ => True

theorem still_of_quiet {c : Cmd} (h : Quiet .cleanup c) : c.IsStill := by
  cases c with
  | rename st id => cases h
  | remove st id => exact h.elim
  | _ => trivial

variable {n : Nat} {o : Op} {c : Cmd} {x : Resp c}

theorem Quiet.not_opens (h : Quiet o c) : ¬ opens ⟨n, o, c, x⟩ id := by
  cases c <;> first | exact not_false | exact fun ho => absurd (h.symm.trans ho.2.2) (by decide)

theorem Quiet.not_closes (h : Quiet o c) : ¬ closes ⟨n, o, c, x⟩ id := by
  cases c <;> first | exact not_false | exact h.elim

theorem Quiet.source (h : Quiet o c) (l : List (Event system)) :
    source (⟨n, o, c, x⟩ :: l) id = SwarmLib.source l id := by
  cases c <;> first | rfl | exact h.elim

theorem not_lands_of_still (h : c.IsStill) : ¬ lands ⟨n, o, c, x⟩ id := by
  cases c <;> first | exact not_false | exact h.elim

/-- A quiet command creates a task or moves none. -/
theorem placed_quiet (hp : ∀ id, Placed s₀ id w) (hq : Quiet o c) (hg : Orderly w n o c)
    (hf : Fires w ⟨n, o, c, x⟩ w') : ∀ id, Placed s₀ id w' := by
  intro id
  obtain ⟨i, hx⟩ := hf.1
  simp only at hx
  have ho : ¬ opens ⟨n, o, c, x⟩ id := hq.not_opens
  have hc : ¬ closes ⟨n, o, c, x⟩ id := hq.not_closes
  generalize hs' : w'.state = s' at hx
  cases filesEffect_of_exec hx with
  | still hstill hfiles =>
    refine (hp id).same hf (fun st => ?_) ho hc (not_lands_of_still hstill)
    rw [Tree.File, Tree.File, hs', hfiles]
  | @renamed stage id' tmp _ hid hfiles =>
    have hfile := fun st => (file_put (hs' ▸ hfiles) st id : w'.state.File st id ↔ _)
    by_cases hne : id = id'
    · have hbefore : Only w.state id ∅ := hne ▸ Orderly.creates hg hq
      have hafter : Only w'.state id {stage} := fun st => by
        rw [hfile, hbefore st, hid]
        simp [hne]
      exact (hp id).create hf hbefore hafter ho hc
    · refine (hp id).same hf (fun st => ?_) ho hc fun hl => hne hl.1
      rw [hfile, hid]
      simp [hne]
  | removed => exact hq.elim
  | notRenamed =>
    exact (hp id).same hf (fun st => by rw [hs']) ho hc fun hl => Bool.false_ne_true hl.2
  | notRemoved => exact hq.elim

/-- An assertion that the quiet commands of the call and all commands of other calls keep. -/
structure Framed (s₀ : Tree) (n : Nat) (o : Op) (A : World system → Prop) : Prop where
  stable : Stable (moving s₀) n A
  quiet : ∀ c, Quiet o c → Establishes (moving s₀) n o A c fun _ => A

/-- What a quiet command must keep besides the invariant. -/
theorem establishes_quiet {A : World system → Prop}
    (hA : ∀ w c x w', (∀ id, Placed s₀ id w) → Quiet o c → Orderly w n o c →
      Fires w ⟨n, o, c, x⟩ w' → A w → A w') :
    ∀ c, Quiet o c → Establishes (moving s₀) n o A c fun _ => A := by
  intro c hq w x w' hp hw hg hf
  refine ⟨?_, placed_quiet hp hq hg hf, hA w c x w' hp hq hg hf hw⟩
  rintro st id (rfl : c = _)
  exact hq.elim

theorem open_quiet (hq : Quiet o c) (hf : Fires w ⟨n, o, c, x⟩ w') (id : String) :
    Moving n id w' ↔ Moving n id w :=
  open_same hf hq.not_opens hq.not_closes n

theorem openIn_quiet {S : Set String} (hq : Quiet o c) (hf : Fires w ⟨n, o, c, x⟩ w')
    (h : OpenIn opens closes S n w) : OpenIn opens closes S n w' :=
  fun id hid => h id ((open_quiet hq hf id).mp hid)

/-- Call `n` is moving nothing. -/
theorem framed_idle : Framed s₀ n o (Idle n) where
  stable := stable_openIn
  quiet := establishes_quiet fun _ _ _ _ _ hq _ hf h => openIn_quiet hq hf h

/-- Call `n` is moving nothing, and has read task `id` in stage `st`. -/
def Ready (n : Nat) (id : String) (st : Stage) (w : World system) : Prop :=
  Idle n w ∧ source (mine n w) id = some st

theorem framed_ready {st : Stage} : Framed s₀ n o (Ready n id st) where
  stable := stable_and stable_openIn (stable_mine (p := fun l => source l id = some st))
  quiet := establishes_quiet fun w c x w' _ hq _ hf h => by
    refine ⟨openIn_quiet hq hf h.1, ?_⟩
    rw [mine_own hf rfl, hq.source]
    exact h.2

/-- Call `n` is moving task `id`, which is in stages `a` and `b`. -/
def Between (n : Nat) (id : String) (a b : Stage) (w : World system) : Prop :=
  OpenIn opens closes {id} n w ∧ Moving n id w ∧ Only w.state id {a, b}

/-- A task in two stages stays there unless it is removed from one. -/
theorem only_kept {a b : Stage} (hab : a.MovesTo b = true) (hS : Only w.state id {a, b})
    (hg : Orderly w e.call e.op e.cmd) (hr : ∀ st, e.cmd ≠ .remove st id) (hf : Fires w e w') :
    Only w'.state id {a, b} := by
  obtain ⟨m, o, c, x⟩ := e
  obtain ⟨i, hx⟩ := hf.1
  simp only at hx hg hr
  generalize w'.state = s' at hx
  cases filesEffect_of_exec hx with
  | still _ hfiles =>
    intro st
    rw [← hS st, Tree.File, Tree.File, hfiles]
  | @renamed stage id' tmp _ hid hfiles =>
    have hne : id ≠ id' := by
      rintro rfl
      obtain ⟨S, hcard, hS'⟩ := Orderly.only hg
      rw [hS'.unique hS, Finset.card_pair (Stage.MovesTo.ne hab)] at hcard
      omega
    intro st
    rw [file_put hfiles, hid, ← hS st]
    simp [hne]
  | @removed stage id' _ _ hfiles =>
    have hne : id ≠ id' := fun he => hr stage (he ▸ rfl)
    intro st
    rw [file_erase hfiles, ← hS st]
    simp [hne]
  | notRenamed => exact hS
  | notRemoved => exact hS

theorem framed_between {a b : Stage} (hab : a.MovesTo b = true) : Framed s₀ n o (Between n id a b) where
  stable := by
    intro w e w' hne hp hg hr hf hi' ⟨hin, hown, hS⟩
    refine ⟨stable_openIn w e w' hne hp hg hr hf hi' hin, (open_other hf hne id).mpr hown, ?_⟩
    exact only_kept hab hS hg
      (fun st he => hne ((hp id).unique _ _ (hr st id he) hown)) hf
  quiet := establishes_quiet fun w c x w' hp hq hg hf ⟨hin, hown, hS⟩ => by
    refine ⟨openIn_quiet hq hf hin, (open_quiet hq hf id).mpr hown, only_kept hab hS hg ?_ hf⟩
    rintro st (rfl : c = _)
    exact hq.elim

/-! ## Moving a task -/

/-- Reading a task. -/
theorem establishes_read {st : Stage} :
    Establishes (moving s₀) n o (Idle n) (.read st id) fun _ => Ready n id st := by
  intro w x w' hp hw _ hf
  have hfiles : w'.state.files = w.state.files := by
    obtain ⟨⟨i, hx⟩, -⟩ := hf
    exact congrArg Tree.files (Prod.mk.inj (Option.some.inj hx)).2.symm
  refine ⟨nofun, fun id' => ?_, fun id' hid => ?_, ?_⟩
  · exact (hp id').same hf (fun st' => by rw [Tree.File, Tree.File, hfiles]) not_false not_false
      not_false
  · exact hw id' ((open_same hf not_false not_false n).mp hid)
  · rw [mine_own hf rfl, source, if_pos rfl]

/-- Writing a task from `a` to `b` has begun the move, or failed. -/
def Begun (n : Nat) (id : String) (a b : Stage) : Bool → World system → Prop
  | true => Between n id a b
  | false => Idle n

/-- Writing a task that was read to another stage. -/
theorem establishes_rename {a b : Stage} (hab : a.MovesTo b = true) (hc : o.Creates b = false) :
    Establishes (moving s₀) n o (Ready n id a) (.rename b id) (Begun n id a b) := by
  intro w x w' hp hw hg hf
  obtain ⟨i, hx⟩ := hf.1
  simp only at hx
  generalize hs' : w'.state = s' at hx
  refine ⟨nofun, ?_⟩
  cases filesEffect_of_exec hx with
  | still hstill => exact hstill.elim
  | @renamed _ _ tmp _ hid hfiles =>
    have hfile := fun st id' => (file_put (hs' ▸ hfiles) st id' : w'.state.File st id' ↔ _)
    obtain ⟨src, hsrc, hS⟩ := Orderly.moves hg hc
    cases hw.2.symm.trans hsrc
    have hafter : Only w'.state id {a, b} := by
      intro st
      rw [hfile, hid, hS st]
      simp [or_comm]
    have ho : opens ⟨n, o, .rename b id, true⟩ id := ⟨rfl, rfl, hc⟩
    refine ⟨fun id' => ?_, fun id' hid' => ?_, (open_own hf id).mpr (Or.inl ho), hafter⟩
    · by_cases hne : id' = id
      · subst hne
        exact (hp id').begin hf hab hS hafter ho
      · refine (hp id').same hf (fun st => ?_) (fun h => hne h.1) not_false fun h => hne h.1
        rw [hfile, hid]
        simp [hne]
    · rcases (open_own hf id').mp hid' with ho | ⟨hbefore, -⟩
      · exact ho.1
      · exact (hw.1 id' hbefore).elim
  | notRenamed =>
    have hno : ∀ id', ¬ opens ⟨n, o, .rename b id, false⟩ id' := fun _ h => Bool.false_ne_true h.2.1
    refine ⟨fun id' => ?_, fun id' hid' => ?_⟩
    · exact (hp id').same hf (fun st => by rw [hs']) (hno id') not_false
        fun h => Bool.false_ne_true h.2
    · exact hw.1 id' ((open_same hf (hno id') not_false n).mp hid')

/-- Removing a task from the stage it was in. -/
theorem establishes_remove {a b : Stage} (hab : a.MovesTo b = true) :
    Establishes (moving s₀) n o (Between n id a b) (.remove a id)
      fun x w => x = true ∧ Idle n w := by
  intro w x w' hp ⟨hin, hown, hS⟩ _ hf
  obtain ⟨i, hx⟩ := hf.1
  simp only at hx
  generalize hs' : w'.state = s' at hx
  refine ⟨?_, ?_⟩
  · rintro st id' (he : Cmd.remove a id = .remove st id')
    cases he
    exact hown
  cases filesEffect_of_exec hx with
  | still hstill => exact hstill.elim
  | removed _ hfiles =>
    have hfile := fun st id' => (file_erase (hs' ▸ hfiles) st id' : w'.state.File st id' ↔ _)
    have hafter : Only w'.state id {b} := by
      intro st
      rw [hfile, hS st]
      by_cases hst : st = a <;> simp [hst, Stage.MovesTo.ne hab]
    have hc : closes ⟨n, o, .remove a id, true⟩ id := ⟨rfl, rfl⟩
    refine ⟨fun id' => ?_, rfl, fun id' hid' => ?_⟩
    · by_cases hne : id' = id
      · subst hne
        exact (hp id').finish hf hown hafter not_false hc
      · refine (hp id').same hf (fun st => ?_) not_false (fun h => hne h.1) not_false
        rw [hfile]
        simp [hne]
    · rcases (open_own hf id').mp hid' with ho | ⟨hbefore, hnc⟩
      · exact ho.elim
      · cases hin id' hbefore
        exact absurd hc hnc
  | notRemoved hno => exact absurd ((hS a).mpr (by simp)) hno

/-! ## The operations -/

section Outlines

variable {α : Type} {A : World system → Prop} {Q : Except PyError α → World system → Prop}

/-- A quiet command and what follows. -/
theorem quiet_then {c : Cmd} {f : Resp c → P α} (hq : Quiet o c) (hA : Framed s₀ n o A)
    (hf : ∀ x, Outline (moving s₀) n o Q (f x) A) : Outline (moving s₀) n o Q (cmd c >>= f) A :=
  outline_cmd (fun _ => A) (fun _ => hA.stable) (hA.quiet c hq) hf

theorem quiet_outline {p : P α} (h : p.Each (Quiet o)) (hA : Framed s₀ n o A) :
    Outline (moving s₀) n o (fun _ => A) p A :=
  outline_of_each hA.stable hA.quiet h

/-- A program of quiet commands and what follows. -/
theorem quiet_bind {β : Type} {p : P β} {f : β → P α} (h : p.Each (Quiet o))
    (hA : Framed s₀ n o A) (hraise : ∀ e w, A w → Q (.error e) w)
    (hf : ∀ a, Outline (moving s₀) n o Q (f a) A) : Outline (moving s₀) n o Q (p >>= f) A :=
  outline_bind (R := fun _ => A) hf (outline_mono (fun _ _ h => h)
    (fun r w _ h => by cases r with | ok _ => exact h | error e => exact hraise e w h)
    (quiet_outline h hA))

/-- What runs under a lock ends as it would without. -/
theorem withLock_outline {st : Stage} {body : P α} (hA : Framed s₀ n o A)
    (hQ : ∀ r, Framed s₀ n o (Q r)) (h : Outline (moving s₀) n o Q body A) :
    Outline (moving s₀) n o Q (withLock st id body) A := by
  refine quiet_then (c := .touch st id) trivial hA fun _ =>
    quiet_then (c := .openLock st id) trivial hA fun _ => ?_
  refine outline_finally (R := Q) (fun r => ?_)
    (quiet_then (c := .flock) trivial hA fun _ => outline_finally (R := Q) (fun r => ?_) h)
  · exact quiet_then (c := .close) trivial (hQ r) fun _ => outline_ret fun _ _ h => h
  · exact quiet_then (c := .unlock) trivial (hQ r) fun _ => outline_ret fun _ _ h => h

/-- A task is read, or the call raises. -/
theorem readYaml_outline {st : Stage} :
    Outline (moving s₀) n o (Interleave.Outcome (fun _ => Ready n id st) fun _ => Idle n) (readYaml st id)
      (Idle n) := by
  refine outline_cmd (c := Cmd.read st id) (fun _ => Ready n id st) (fun _ => (framed_ready (o := o)).stable)
    establishes_read fun data => ?_
  cases data with
  | some data => exact outline_ret fun _ _ h => h
  | none => exact outline_raise fun _ _ h => h.1

/-- A task that was read is written to another stage, or the call raises. -/
theorem atomicWriteYaml_outline {a b : Stage} {data : Doc} (hab : a.MovesTo b = true)
    (hc : o.Creates b = false) :
    Outline (moving s₀) n o (Interleave.Outcome (fun _ => Between n id a b) fun _ => Idle n)
      (atomicWriteYaml b id data) (Ready n id a) := by
  refine quiet_then (c := .writeTmp b id data) trivial framed_ready fun _ => ?_
  refine outline_cmd (M := system) (c := Cmd.rename b id) (Begun n id a b) (fun x => ?_)
    (establishes_rename hab hc) fun x => ?_
  · cases x with
    | true => exact (framed_between (o := o) hab).stable
    | false => exact (framed_idle (o := o)).stable
  · cases x with
    | true => exact outline_ret fun _ _ h => h
    | false => exact outline_raise fun _ _ h => h

/-- The move of a task is ended. -/
theorem removeYaml_outline {a b : Stage} (hab : a.MovesTo b = true) :
    Outline (moving s₀) n o (Interleave.Outcome (fun _ => Idle n) fun _ _ => False) (removeYaml a id)
      (Between n id a b) := by
  refine outline_cmd (c := Cmd.remove a id) (fun (x : Bool) w => x = true ∧ Idle n w)
    (fun x => stable_and stable_pure (framed_idle (o := o)).stable) (establishes_remove hab) fun x => ?_
  cases x with
  | true => exact outline_ret fun _ _ h => h.2
  | false => exact outline_pre (P := fun _ => False) (fun _ _ h => nomatch h.1) outline_false

/-- Writing the file of a new task is quiet. -/
theorem each_atomicWriteYaml {st : Stage} {data : Doc} (hc : o.Creates st = true) :
    (atomicWriteYaml st id data).Each (Quiet o) := by
  refine each_cmd (c := .writeTmp st id data) trivial fun _ =>
    each_cmd (c := .rename st id) hc fun x => ?_
  cases x <;> trivial

/-- Every outcome of the call leaves it idle. -/
abbrev Ends (n : Nat) : Except PyError α → World system → Prop := fun _ => Idle n

/-- Reading a task, and what follows. -/
theorem read_then {st : Stage} {f : Doc → P α}
    (hf : ∀ data, Outline (moving s₀) n o (Ends n) (f data) (Ready n id st)) :
    Outline (moving s₀) n o (Ends n) (readYaml st id >>= f) (Idle n) :=
  outline_bind hf readYaml_outline

/-- Moving a task that was read, unlocked or locked, and what follows. -/
theorem move_then {a b : Stage} {write : P Unit} {f : P α} (hab : a.MovesTo b = true)
    (hwrite : Outline (moving s₀) n o (Interleave.Outcome (fun _ => Between n id a b) fun _ => Idle n) write
      (Ready n id a))
    (hf : Outline (moving s₀) n o (Ends n) f (Idle n)) :
    Outline (moving s₀) n o (Ends n) (write >>= fun _ => removeYaml a id >>= fun _ => f)
      (Ready n id a) := by
  refine outline_bind (fun _ => ?_) hwrite
  exact outline_bind (fun _ => hf)
    (outline_mono (fun _ _ h => h) (fun r _ _ h => by cases r with | ok _ => exact h | error _ => exact h.elim)
      (removeYaml_outline hab))

/-- `_locked_write_yaml` of a task that was read. -/
theorem lockedWriteYaml_outline {a b : Stage} {data : Doc} (hab : a.MovesTo b = true)
    (hc : o.Creates b = false) :
    Outline (moving s₀) n o (Interleave.Outcome (fun _ => Between n id a b) fun _ => Idle n)
      (lockedWriteYaml b id data) (Ready n id a) :=
  withLock_outline framed_ready
    (fun r => by cases r with | ok _ => exact framed_between hab | error _ => exact framed_idle)
    (atomicWriteYaml_outline hab hc)

theorem ends_bind {β : Type} {p : P β} {f : β → P α}
    (hp : Outline (moving s₀) n o (Ends n) p (Idle n))
    (hf : ∀ a, Outline (moving s₀) n o (Ends n) (f a) (Idle n)) :
    Outline (moving s₀) n o (Ends n) (p >>= f) (Idle n) :=
  outline_bind (R := fun _ => Idle n) hf
    (outline_mono (fun _ _ h => h) (fun r _ _ h => by cases r <;> exact h) hp)

/-- A pending task is read under its lock, when it is there. -/
theorem taken_outline {body : Doc → P Doc} {missing taken : PyError}
    (hbody : ∀ task, Outline (moving s₀) n o (Ends n) (body task) (Ready n id .pending)) :
    Outline (moving s₀) n o (Ends n)
      (do
        if !(← cmd (.pathExists .pending id)) then
          .raise missing
        else do
          let task ← withLock .pending id do
            if !(← cmd (.pathExists .pending id)) then
              .raise taken
            else do
              let task ← readYaml .pending id
              body task
          cmd (.unlink .pending id)
          return task) (Idle n) := by
  refine quiet_then (c := .pathExists .pending id) trivial framed_idle fun found => ?_
  cases found with
  | false => exact outline_raise fun _ _ h => h
  | true =>
    refine ends_bind (withLock_outline framed_idle (fun _ => framed_idle) ?_) fun task =>
      quiet_then (c := .unlink .pending id) trivial framed_idle fun _ =>
        outline_ret fun _ _ h => h
    refine quiet_then (c := .pathExists .pending id) trivial framed_idle fun found => ?_
    cases found with
    | false => exact outline_raise fun _ _ h => h
    | true => exact read_then hbody

theorem claimTask_outline :
    Outline (moving s₀) n (.claim id) (Ends n) (claimTask id) (Idle n) := by
  refine taken_outline fun task => ?_
  refine quiet_then (c := .host) trivial framed_ready fun hostname =>
    quiet_then (c := .iso) trivial framed_ready fun claimed_at => ?_
  exact move_then (by decide) (atomicWriteYaml_outline (by decide) rfl)
    (outline_ret fun _ _ h => h)

theorem originalCompleteTask_outline {artifact : String} (hc : o.Creates .completed = false) :
    Outline (moving s₀) n o (Ends n) (originalCompleteTask id artifact) (Idle n) := by
  refine quiet_then (c := .pathExists .claimed id) trivial framed_idle fun found => ?_
  cases found with
  | false => exact outline_raise fun _ _ h => h
  | true =>
    refine read_then fun task => ?_
    refine quiet_then (c := .host) trivial framed_ready fun hostname =>
      quiet_then (c := .iso) trivial framed_ready fun completed_at => ?_
    exact move_then (by decide) (lockedWriteYaml_outline (by decide) hc)
      (outline_ret fun _ _ h => h)

theorem each_allCompleted : ∀ sub_ids, (allCompleted sub_ids).Each (Quiet o)
  | [] => trivial
  | sub_id :: sub_ids => by
    refine each_cmd (c := .pathExists .completed sub_id) trivial fun found => ?_
    cases found with
    | true => exact each_allCompleted sub_ids
    | false => trivial

theorem checkParentCompletion_outline (hc : o.Creates .completed = false) :
    Outline (moving s₀) n o (Ends n) (checkParentCompletion id) (Idle n) := by
  refine quiet_then (c := .pathExists .decomposed id) trivial framed_idle fun found => ?_
  cases found with
  | false => exact outline_ret fun _ _ h => h
  | true =>
    refine read_then fun parent => ?_
    simp only
    split
    · exact outline_ret fun _ _ h => h.1
    · refine quiet_bind (each_allCompleted _) framed_ready (fun _ _ h => h.1) fun all => ?_
      cases all with
      | false => exact outline_ret fun _ _ h => h.1
      | true =>
        refine quiet_then (c := .iso) trivial framed_ready fun completed_at => ?_
        exact move_then (by decide) (lockedWriteYaml_outline (by decide) hc)
          (outline_ret fun _ _ h => h)

/-- What the call returns is what the program before returned. -/
theorem completeTask_outline {artifact : String} :
    Outline (moving s₀) n (.complete id artifact) (Ends n) (completeTask id artifact) (Idle n) := by
  refine ends_bind (originalCompleteTask_outline rfl) fun task => ?_
  split
  · exact outline_ret fun _ _ h => h
  · exact ends_bind (checkParentCompletion_outline rfl) fun _ => outline_ret fun _ _ h => h

theorem each_createSubtasks {parent : Doc} (hc : o.Creates .pending = true) :
    ∀ subtasks i, (createSubtasks id parent i subtasks).Each (Quiet o)
  | [], _ => trivial
  | _ :: subtasks, i => by
    refine each_cmd (c := .host) trivial fun _ => each_cmd (c := .iso) trivial fun _ => ?_
    refine Prog.each_bind (fun _ => ?_) (each_atomicWriteYaml hc)
    refine Prog.each_bind (fun _ => ?_) (each_createSubtasks hc subtasks (i + 1))
    trivial

theorem decomposeTask_outline {subtasks : List Subtask} :
    Outline (moving s₀) n (.decompose id subtasks) (Ends n) (decomposeTask id subtasks)
      (Idle n) := by
  refine taken_outline fun parent => ?_
  refine quiet_bind (each_createSubtasks rfl subtasks 0) framed_ready (fun _ _ h => h.1)
    fun subtask_ids => ?_
  refine quiet_then (c := .iso) trivial framed_ready fun decomposed_at =>
    quiet_then (c := .host) trivial framed_ready fun decomposed_by => ?_
  exact move_then (by decide) (atomicWriteYaml_outline (by decide) rfl)
    (outline_ret fun _ _ h => h)

theorem each_nextRetries {task : Doc} : (nextRetries task).Each (Quiet o) := by
  unfold nextRetries
  split <;> trivial

theorem requeueOrphans_outline {cleaned : List String} :
    ∀ ids, Outline (moving s₀) n .cleanup (Ends n) (requeueOrphans cleaned ids) (Idle n)
  | [] => outline_ret fun _ _ h => h
  | id :: ids => by
    have hrest : Outline (moving s₀) n .cleanup (Ends n) (requeueOrphans cleaned ids)
        (Ready n id .claimed) :=
      outline_pre (fun _ _ h => h.1) (requeueOrphans_outline ids)
    refine read_then fun task => ?_
    simp only
    split
    · refine quiet_bind each_nextRetries framed_ready (fun _ _ h => h.1) fun retries => ?_
      split
      · exact move_then (by decide) (lockedWriteYaml_outline (by decide) rfl)
          (ends_bind (requeueOrphans_outline ids) fun _ => outline_ret fun _ _ h => h)
      · exact hrest
    · exact hrest

theorem each_withLock {st : Stage} {body : P α} (h : body.Each (Quiet o)) :
    (withLock st id body).Each (Quiet o) :=
  each_cmd (c := .touch st id) trivial fun _ => each_cmd (c := .openLock st id) trivial fun _ =>
    Prog.each_finally (q := cmd .close) ⟨trivial, fun _ => trivial⟩
      (each_cmd (c := .flock) trivial fun _ =>
        Prog.each_finally (q := cmd .unlock) ⟨trivial, fun _ => trivial⟩ h)

theorem each_createTask {title description project priority : String} {requires : List String}
    {estimated : Int} (hc : o.Creates .pending = true) :
    (createTask title description project priority requires estimated).Each (Quiet o) := by
  refine Prog.each_bind (fun task_id => ?_) (p := nextTaskId)
    (each_cmd (c := .glob .pending) trivial fun _ => each_cmd (c := .glob .claimed) trivial
      fun _ => each_cmd (c := .glob .completed) trivial fun _ => trivial)
  refine each_cmd (c := .host) trivial fun _ => each_cmd (c := .iso) trivial fun _ => ?_
  refine Prog.each_bind (fun _ => ?_) (each_withLock (each_atomicWriteYaml hc))
  trivial

/-- **A call that ended has ended its moves.** -/
theorem prog_ends (n : Nat) (o : Op) :
    Outline (moving s₀) n o (Ends n) (prog o) (Untouched n) := by
  refine outline_pre (P := Idle n) (fun _ _ h => openIn_of_untouched h) ?_
  cases o with
  | create => exact quiet_outline (each_createTask rfl) framed_idle
  | claim => exact claimTask_outline
  | complete => exact completeTask_outline
  | decompose => exact decomposeTask_outline
  | checkParent => exact checkParentCompletion_outline rfl
  | cleanup =>
    refine quiet_then (c := .stale) trivial framed_idle fun cleaned => ?_
    split
    · exact outline_ret fun _ _ h => h
    · exact quiet_then (c := .glob .claimed) trivial framed_idle fun ids =>
        ends_bind (requeueOrphans_outline ids) fun _ => outline_ret fun _ _ h => h

end Outlines

/-! ## Stages along a run -/

/-- No task is both pending and completed, not even while it is moved. -/
theorem Placed.not_both (h : Placed s₀ id w) :
    ¬ (w.state.File .completed id ∧ w.state.File .pending id) := by
  rintro ⟨hcompleted, hpending⟩
  by_cases hn : ∃ n, Moving n id w
  · obtain ⟨n, hn⟩ := hn
    obtain ⟨a, b, hab, hS⟩ := h.moved n hn
    exact Stage.MovesTo.not_both a b hab ⟨(hS .completed).mp hcompleted, (hS .pending).mp hpending⟩
  · obtain ⟨p, hp⟩ := h.still (not_exists.mp hn)
    have h₁ := (hp .completed).mp hcompleted
    have h₂ := (hp .pending).mp hpending
    rw [Option.mem_toFinset, Option.mem_def] at h₁ h₂
    cases h₁.symm.trans h₂

/-- **One stage for each task.** In every orderly run from a tree with each task in one stage at most,
no task is ever both completed and pending, and whenever no call is in progress every task that was
there or has been created is in exactly one stage. -/
theorem stage_exclusive {s : Tree} {c : Config system}
    (hs : ∀ id, ∃ p : Option Stage, Only s id p.toFinset) (h : Run Orderly (.init s) c) :
    (∀ id, ¬ (c.world.state.File .completed id ∧ c.world.state.File .pending id)) ∧
      (c.Quiescent → ∀ id, Known s id c.world →
        ∃ st, ∀ st', c.world.state.File st' id ↔ st' = st) := by
  have hinit : (moving s).Inv ⟨s, []⟩ := fun id =>
    ⟨fun _ => hs id, fun _ h => h.elim, fun _ _ h => h.elim,
      fun hk => hk.elim (fun h => h) fun ⟨_, he, _⟩ => absurd he List.not_mem_nil⟩
  have hsound := run_sound (D := moving s) (Q := fun n _ => Ends n) prog_ends hinit h
  refine ⟨fun id => (hsound.inv id).not_both, fun hq id hk => ?_⟩
  have hplaced := hsound.inv id
  obtain ⟨p, hp⟩ := hplaced.still fun n => not_open_of_quiescent hsound h hq n id
  obtain ⟨st, hst⟩ := hplaced.kept hk
  obtain rfl : p = some st := by simpa using (hp st).mp hst
  exact ⟨st, fun st' => by simpa [eq_comm] using hp st'⟩

/-! ## A task that is both pending and completed -/

/-- One task, claimed by `a`. -/
def oneClaimed : Tree :=
  .ofFiles (Function.update (fun _ => .empty) .claimed
    (Table.empty.put ("task-001", [("id", .str "task-001"), ("claimed_by", .str "a")])))

theorem oneClaimed_only (id : String) : ∃ p : Option Stage, Only oneClaimed id p.toFinset := by
  have hfile : ∀ st, oneClaimed.File st id ↔ _ :=
    fun st => file_put (s := .ofFiles fun _ => .empty) rfl st id
  refine ⟨if id = "task-001" then some .claimed else none, fun st => ?_⟩
  rw [hfile]
  by_cases hid : id = "task-001" <;> simp [hid, Tree.File, Tree.ofFiles]

/-- The cleaner finds `a` dead. -/
def cleaner : Env := ⟨"b", "1970-01-01T00:00:00Z", ["a"]⟩

/-- `a` reads its task to complete it, `b` puts it back, `a` goes on and then finds it gone. -/
def completeAndCleanup : List (Act system) :=
  solo system 0 (.complete "task-001" "") 4 (host "a") ++ solo system 1 .cleanup 11 cleaner ++
    List.replicate 8 (.step 0 (host "a"))

/-- With no call in progress, the task is both completed and pending. -/
theorem complete_races_cleanup :
    ∃ (s : Tree) (c : Config system), (∀ id, ∃ p : Option Stage, Only s id p.toFinset) ∧
      Run Free (.init s) c ∧ c.Quiescent ∧
      c.world.state.File .completed "task-001" ∧ c.world.state.File .pending "task-001" := by
  have hplay : (play Free (.init oneClaimed) completeAndCleanup).any (fun c =>
      (starts completeAndCleanup).all c.atRest &&
        decide (c.world.state.File .completed "task-001" ∧
          c.world.state.File .pending "task-001")) = true := by
    decide +kernel
  obtain ⟨c, hrun, hq, hc⟩ := exists_quiescent_of_play hplay
  exact ⟨oneClaimed, c, oneClaimed_only, hrun, hq, of_decide_eq_true hc⟩

/-- `a` completes its task. -/
def completeAlone : List (Act system) := solo system 0 (.complete "task-001" "") 12 (host "a")

theorem completeAlone_plays : (play Orderly (.init oneClaimed) completeAlone).isSome := by
  decide +kernel

theorem stage_exclusive_completeAlone :
    (∀ id, ¬ ((played Orderly _ _ completeAlone_plays).world.state.File .completed id ∧
      (played Orderly _ _ completeAlone_plays).world.state.File .pending id)) ∧
      ((played Orderly _ _ completeAlone_plays).Quiescent → ∀ id,
        Known oneClaimed id (played Orderly _ _ completeAlone_plays).world →
        ∃ st, ∀ st', (played Orderly _ _ completeAlone_plays).world.state.File st' id ↔ st' = st) :=
  stage_exclusive oneClaimed_only (run_played completeAlone_plays)

end ClaudeSwarm.SwarmLib
