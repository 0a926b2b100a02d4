import ClaudeSwarm.Outage.Placement
import ClaudeSwarm.SwarmLib.Names

/-!
# Fresh ids

`create_task` takes the greatest number it finds in `pending/`, `claimed/` and `completed/` and adds one.
It holds no lock from the scan to the write, and it looks neither into `decomposed/` nor into the trees of
the hosts, so two calls can be given one id, and an id whose task is out of sight is given again.

* `Scanned`: when a scan begins, the scanned directories show a number as great as any in use; nothing
  leaves `claimed/` for another place than `completed/` during a scan; no other task is created between
  the scan and the write.
* `Lawful`: what then holds of every command, given the ids in use before it.
* **`fresh_ids`**: in such runs `create_task` never writes where a file of the id is, and the id it
  returns was not in use and is given to no other task.
* `same_id`: two calls at the same time return the same id.
-/

namespace ClaudeSwarm.Outage

open Interleave Data
open Python (PyError)
open SwarmLib (Stage Doc Tree idNumber taskName subtaskId maxNumber getStr)

/-! ## Ids in use -/

/-- The id the event writes a file of. -/
def written (e : Event system) : Option String :=
  if succeeded e.cmd e.resp then e.cmd.puts.map Prod.snd else none

/-- The ids in use: those there from the start, and all that have been written. -/
def usedIds (old : List String) (l : List (Event system)) : List String :=
  old ++ l.filterMap written

/-- The operation is `create_task`. -/
def Op.IsCreate : Op → Bool
  | .create .. => true
  | _ => false

/-- The operation is `decompose_task`. -/
def Op.IsDecompose : Op → Bool
  | .decompose .. => true
  | _ => false

/-- The event writes the file of a new task. -/
def creates (e : Event system) : Bool := e.op.IsCreate && (written e).isSome

/-- The stage of the share the command lists. -/
def Cmd.globs : Cmd → Option Stage
  | .on .share (.glob st) => some st
  | _ => none

/-- The tasks that `glob("task-*.yaml")` finds in a stage of the share. -/
def globbed (s : State) (st : Stage) : List String :=
  (((s.trees .share).files st).rows.map Prod.fst).filter (·.startsWith "task-")

/-- The stage shows a number that is at least `k`. -/
def Shows (s : State) (st : Stage) (k : Int) : Prop :=
  ∃ id ∈ globbed s st, ∃ j ∈ idNumber id, k ≤ j

instance (s : State) (st : Stage) (k : Int) : Decidable (Shows s st k) := by
  unfold Shows
  infer_instance

/-- What has happened since call `n` began its scan, newest first. -/
def sinceScan (n : Nat) (l : List (Event system)) : List (Event system) :=
  l.takeWhile fun e => !(e.call == n && e.cmd.globs == some .pending)

/-- Some `create_task` has begun its scan and not ended it. -/
def Scanning (l : List (Event system)) : Prop :=
  ∃ e ∈ l, (e.op.IsCreate = true ∧ e.cmd.globs = some .pending) ∧
    ∀ e' ∈ l, e'.call = e.call → e'.cmd.globs ≠ some .completed

instance (l : List (Event system)) : Decidable (Scanning l) := by
  unfold Scanning
  infer_instance

/-- When a scan begins, the scanned stages show a number as great as any in use; no other task is created
between the scan and the write; and during a scan no task is taken out of `claimed/` unless it is in
`completed/`. -/
def Scanned (old : List String) : Guard system := fun w n o c =>
  (o.IsCreate = true → c.globs = some .pending →
    ∀ id ∈ usedIds old w.trace, ∀ k ∈ idNumber id,
      k ≤ 0 ∨ ∃ st ∈ [Stage.pending, .claimed, .completed], Shows w.state st k) ∧
  (o.IsCreate = true → c.puts.isSome = true → ∀ e ∈ sinceScan n w.trace, creates e = false) ∧
  ∀ q ∈ c.takes, q.1 = ⟨.share, .claimed⟩ → Scanning w.trace →
    w.state.File ⟨.share, .completed⟩ q.2

instance (old : List String) (w : World system) (n : Nat) (o : Op) (c : Cmd) :
    Decidable (Scanned old w n o c) := by
  unfold Scanned
  infer_instance

/-- No file of the id is there when `create_task` writes it. -/
def NoOverwrite : Guard system := fun w _ o c =>
  o.IsCreate = true → ∀ q ∈ c.puts, ∀ p, ¬ w.state.File p q.2

/-- What holds of every command, given what was executed before: a new task gets an id that is not in use,
and whatever else is written has a number that is. -/
structure Lawful (old : List String) (l : List (Event system)) (e : Event system) : Prop where
  fresh : e.op.IsCreate = true → ∀ q ∈ e.cmd.puts, q.2 ∉ usedIds old l
  numbered : e.op.IsCreate = false → ∀ q ∈ e.cmd.puts, ∀ k ∈ idNumber q.2,
    ∃ id ∈ usedIds old l, k ∈ idNumber id
  subtask : e.op.IsDecompose = true → ∀ id, e.cmd.puts = some (⟨.share, .pending⟩, id) →
    ∃ t i, id = subtaskId t i
  kept : ∀ id, e.cmd.takes ≠ some (⟨.share, .completed⟩, id)

/-- Every command was lawful. -/
def Chronicle (old : List String) : List (Event system) → Prop
  | [] => True
  | e :: l => Chronicle old l ∧ Lawful old l e

/-- The ids of all files are in use, and every command was lawful. -/
structure Recorded (old : List String) (w : World system) : Prop where
  files : ∀ p id, w.state.File p id → id ∈ usedIds old w.trace
  lawful : Chronicle old w.trace

/-- The runs whose scans see enough. -/
def scanning (old : List String) : Discipline system where
  Guard := Scanned old
  Inv := Recorded old
  Guar w e := Lawful old w.trace e ∧ NoOverwrite w e.call e.op e.cmd

variable {old : List String} {w w' : World system} {e : Event system} {id : String} {n : Nat} {o : Op}
  {c : Cmd} {x : Resp c} {k m : Int} {st : Stage} {p : Place}

theorem written_of_writes (h : writes e p id) : written e = some id := by
  rw [written, if_pos h.2, h.1]
  rfl

theorem writes_of_written (h : written e = some id) : ∃ p, writes e p id := by
  unfold written at h
  split at h
  · rename_i hx
    obtain ⟨⟨p, id'⟩, hp, rfl⟩ := Option.map_eq_some_iff.mp h
    exact ⟨p, hp, hx⟩
  · cases h

theorem mem_usedIds_cons {l : List (Event system)} :
    id ∈ usedIds old (e :: l) ↔ written e = some id ∨ id ∈ usedIds old l := by
  unfold usedIds
  rw [List.mem_append, List.mem_append, List.filterMap_cons]
  cases hw : written e with
  | none => simp
  | some id' =>
    simp only [List.mem_cons, Option.some.injEq]
    tauto

/-- A lawful command is recorded. -/
theorem Recorded.step (h : Recorded old w) (hl : Lawful old w.trace e) (hf : Fires w e w') :
    Recorded old w' := by
  obtain ⟨⟨i, hx⟩, htrace⟩ := hf
  refine ⟨fun p id hfile => ?_, htrace ▸ ⟨h.lawful, hl⟩⟩
  rw [htrace, mem_usedIds_cons]
  rcases (file_of_exec hx p id).mp hfile with hw | ⟨hold, -⟩
  · exact Or.inl (written_of_writes hw)
  · exact Or.inr (h.files p id hold)

theorem mem_globbed {s : State} :
    id ∈ globbed s st ↔ s.File ⟨.share, st⟩ id ∧ id.startsWith "task-" = true := by
  rw [globbed, List.mem_filter, State.File, Tree.File, List.mem_map]
  refine and_congr_left fun _ => ⟨?_, fun hfile => ?_⟩
  · rintro ⟨row, hrow, rfl⟩
    rw [Table.find?_of_mem hrow]
    rfl
  · obtain ⟨row, hrow⟩ := Option.isSome_iff_exists.mp hfile
    exact ⟨row, Table.find?_mem hrow, Table.find?_key hrow⟩

/-! ## Operations that create no task of their own -/

/-- The numbers of the ids in `S` are in use. -/
def Numbered (old : List String) (S : Set String) (w : World system) : Prop :=
  ∀ id ∈ S, ∀ k ∈ idNumber id, ∃ id₀ ∈ usedIds old w.trace, k ∈ idNumber id₀

theorem lasting_numbered {S : Set String} : Lasting (Numbered old S) := by
  intro w e w' hf h id hid k hk
  obtain ⟨id₀, hused, hk⟩ := h id hid k hk
  exact ⟨id₀, by rw [hf.2, mem_usedIds_cons]; exact Or.inr hused, hk⟩

theorem numbered_of_file (h : Recorded old w) (hfile : w.state.File p id) :
    Numbered old {id} w := by
  rintro _ rfl k hk
  exact ⟨_, h.files p _ hfile, hk⟩

/-- The command writes ids of `S` only, and takes nothing out of `completed/`. -/
structure Within (S : Set String) (o : Op) (c : Cmd) : Prop where
  puts : ∀ q, c.puts = some q → q.2 ∈ S
  subtask : o.IsDecompose = true → ∀ id, c.puts = some (⟨.share, .pending⟩, id) →
    ∃ t i, id = subtaskId t i
  takes : ∀ id, c.takes ≠ some (⟨.share, .completed⟩, id)

variable {S : Set String} {α : Type}

theorem lawful_of_within (ho : o.IsCreate = false) (hc : Within S o c) (h : Numbered old S w) :
    Lawful old w.trace ⟨n, o, c, x⟩ ∧ NoOverwrite w n o c :=
  ⟨⟨fun h => absurd (ho.symm.trans h) Bool.false_ne_true, fun _ q hq => h q.2 (hc.puts q hq),
    hc.subtask, hc.takes⟩, fun h => absurd (ho.symm.trans h) Bool.false_ne_true⟩

/-- Commands within `S` keep that its numbers are in use. -/
theorem kept_numbered (ho : o.IsCreate = false) :
    Kept (scanning old) (Within S o) n o (Numbered old S) where
  stable := lasting_numbered.stable
  own c hc w x w' hi hw _ hf := by
    have hl := lawful_of_within (n := n) (x := x) ho hc hw
    exact ⟨hl, hi.step hl.1 hf, lasting_numbered _ _ _ hf hw⟩

/-- Every outcome is fine. -/
abbrev AnyEnd : Except PyError α → World system → Prop := fun _ _ => True

theorem any_of_each {q : P α} (ho : o.IsCreate = false) (h : q.Each (Within S o)) :
    Outline (scanning old) n o AnyEnd q (Numbered old S) :=
  outline_mono (fun _ _ h => h) (fun _ _ _ _ => trivial) (kept_each (kept_numbered ho) h)

theorem within_of (hp : c.puts = none) (ht : c.takes = none) : Within S o c :=
  ⟨fun _ h => absurd (h.symm.trans hp) (Option.some_ne_none _),
    fun _ _ h => absurd (h.symm.trans hp) (Option.some_ne_none _),
    fun _ h => Option.some_ne_none _ (h.symm.trans ht)⟩

theorem within_locking (c : SwarmLib.Cmd) (hc : Locking c) : Within S o (.on .share c) := by
  cases c <;> first | exact within_of rfl rfl | exact hc.elim

/-- A test whether a file is there, and what follows. -/
theorem any_exists {root : Root} {f : Bool → P α} (ho : o.IsCreate = false)
    (hfalse : Outline (scanning old) n o AnyEnd (f false) fun _ => True)
    (htrue : Outline (scanning old) n o AnyEnd (f true) (Numbered old {id})) :
    Outline (scanning old) n o AnyEnd (on root (.pathExists st id) >>= f) fun _ => True := by
  refine outline_on (c := .pathExists st id)
    (fun (x : Bool) w => x = true → Numbered old {id} w) (fun _ => True) (fun x => ?_) stable_true
    (fun w x w' hi _ hg hf => ?_) (fun _ _ _ => trivial) fun x => ?_
  · intro w e w' _ _ _ _ hf _ h hx
    exact lasting_numbered _ _ _ hf (h hx)
  · have hl : Lawful old w.trace ⟨n, o, .on root (.pathExists st id), x⟩ ∧ NoOverwrite w n o _ :=
      lawful_of_within (S := ∅) ho (within_of rfl rfl) fun _ hid => hid.elim
    refine ⟨hl, hi.step hl.1 hf, ?_⟩
    cases x with
    | none => trivial
    | some found =>
      intro hfound
      refine lasting_numbered _ _ _ hf (numbered_of_file (p := ⟨root, st⟩) hi ?_)
      obtain ⟨⟨i, hx⟩, -⟩ := hf
      exact of_decide_eq_true ((exec_exists hx).symm.trans hfound)
  · cases x with
    | false => exact outline_pre (fun _ _ _ => trivial) hfalse
    | true => exact outline_pre (fun _ _ h => h rfl) htrue

theorem any_bind {β : Type} {q : P β} {f : β → P α} {A : World system → Prop}
    (hq : Outline (scanning old) n o AnyEnd q A)
    (hf : ∀ a, Outline (scanning old) n o AnyEnd (f a) fun _ => True) :
    Outline (scanning old) n o AnyEnd (q >>= f) A :=
  outline_bind (R := fun _ _ => True) hf
    (outline_mono (fun _ _ h => h) (fun r _ _ _ => by cases r <;> trivial) hq)

section Each

variable {host : String} {data : Doc} {src : Place}

/-- Operations that do not decompose, on ids of `S`. -/
theorem within_rename {root : Root} (ho : o.IsDecompose = false) (hid : id ∈ S) :
    Within S o (.on root (.rename st id)) :=
  ⟨fun _ h => Option.some.inj h ▸ hid, fun h => absurd (ho.symm.trans h) Bool.false_ne_true,
    fun _ h => Option.some_ne_none _ h.symm⟩

theorem within_remove {root : Root} (hp : (⟨root, st⟩ : Place) ≠ ⟨.share, .completed⟩) :
    Within S o (.on root (.remove st id)) :=
  ⟨fun _ h => absurd h.symm (Option.some_ne_none _), fun _ _ h => absurd h.symm (Option.some_ne_none _),
    fun _ h => hp (Prod.mk.inj (Option.some.inj h)).1⟩

theorem each_readYaml : (readYaml p id).Each (Within S o) := by
  refine each_on_bind (c := .read p.stage id) (within_of rfl rfl) fun data => ?_
  cases data <;> trivial

theorem each_removeYaml (hp : p ≠ ⟨.share, .completed⟩) : (removeYaml p id).Each (Within S o) := by
  refine each_on_bind (c := .remove p.stage id) (within_remove hp) fun x => ?_
  cases x <;> trivial

theorem each_atomicWriteYaml (hc : Within S o (.on p.root (.rename p.stage id))) :
    (atomicWriteYaml p id data).Each (Within S o) := by
  refine each_on_bind (c := .writeTmp p.stage id data) (within_of rfl rfl) fun _ =>
    each_on_bind (c := .rename p.stage id) hc fun x => ?_
  cases x <;> trivial

theorem each_lockedWriteYaml (ho : o.IsDecompose = false) (hid : id ∈ S) :
    (lockedWriteYaml st id data).Each (Within S o) :=
  each_withLock within_locking (each_atomicWriteYaml (within_rename ho hid))

theorem each_moveOrFallback {write : P Unit} (ho : o.IsDecompose = false) (hid : id ∈ S)
    (hsrc : src ≠ ⟨.share, .completed⟩) (hwrite : write.Each (Within S o)) :
    (moveOrFallback host src st id data write).Each (Within S o) := by
  refine each_exceptOSError (Prog.each_bind (fun _ => each_removeYaml hsrc) hwrite) fun e => ?_
  refine Prog.each_bind (p := cmd .healthy) (fun up => ?_) ⟨within_of rfl rfl, fun _ => trivial⟩
  cases up with
  | true => trivial
  | false =>
    exact Prog.each_bind
      (fun _ => each_exceptOSError (each_removeYaml hsrc) fun _ => Prog.each_ret _)
      (each_atomicWriteYaml (within_rename ho hid))

end Each

theorem claimTask_any {host : String} (ho : o.IsCreate = false) (hd : o.IsDecompose = false) :
    Outline (scanning old) n o AnyEnd (claimTask host id) fun _ => True := by
  refine any_exists ho (outline_raise fun _ _ _ => trivial) (any_of_each ho ?_)
  refine Prog.each_bind (fun task => each_on_bind (c := .unlink .pending id) (within_of rfl rfl)
    fun _ => Prog.each_ret _) (each_withLock within_locking ?_)
  refine each_on_bind (c := .pathExists .pending id) (within_of rfl rfl) fun found => ?_
  cases found with
  | false => trivial
  | true =>
    refine Prog.each_bind (fun task => ?_) each_readYaml
    refine each_on_bind (c := .host) (within_of rfl rfl) fun _ =>
      each_on_bind (c := .iso) (within_of rfl rfl) fun _ => ?_
    exact Prog.each_bind (fun _ => Prog.each_ret _) (each_moveOrFallback hd rfl (by simp)
      (each_atomicWriteYaml (within_rename hd rfl)))

theorem checkParentCompletion_any (ho : o.IsCreate = false) (hd : o.IsDecompose = false) :
    Outline (scanning old) n o AnyEnd (checkParentCompletion id) fun _ => True := by
  refine any_exists ho (outline_ret fun _ _ _ => trivial) (any_of_each ho ?_)
  refine Prog.each_bind (fun parent => ?_) each_readYaml
  simp only
  split
  · exact Prog.each_ret _
  · refine Prog.each_bind (fun all => ?_) (each_allCompleted (fun _ => within_of rfl rfl) _)
    cases all with
    | false => exact Prog.each_ret _
    | true =>
      exact each_on_bind (c := .iso) (within_of rfl rfl) fun _ =>
        Prog.each_bind (fun _ => Prog.each_bind (fun _ => Prog.each_ret _)
          (each_removeYaml (by simp))) (each_lockedWriteYaml hd rfl)

/-- What is claimed, on the share or by the host, and what follows. -/
theorem completeTask_any {host artifact : String} (ho : o.IsCreate = false)
    (hd : o.IsDecompose = false) :
    Outline (scanning old) n o AnyEnd (completeTask host id artifact) fun _ => True := by
  have hsrc : Outline (scanning old) n o
      (Outcome (fun src _ => src ≠ ⟨.share, .completed⟩) fun _ _ => True) (claimedPlace host id)
      fun _ => True := by
    have hlook : Kept (scanning old) (Within ∅ o) n o (Numbered old ∅) := kept_numbered ho
    refine outline_pre (P := Numbered old ∅) (fun _ _ _ id hid => hid.elim) ?_
    refine kept_look hlook (c := .pathExists .claimed id) (within_of rfl rfl) rfl fun found => ?_
    cases found with
    | true => exact outline_ret fun _ _ _ => by simp [Outcome]
    | false =>
      refine kept_look hlook (c := .pathExists .claimed id) (within_of rfl rfl) rfl fun found => ?_
      cases found with
      | true => exact outline_ret fun _ _ _ => by simp [Outcome]
      | false => exact outline_ret fun _ _ _ => by simp [Outcome]
  refine any_bind (outline_bind (fun src => ?_) hsrc) fun task => ?_
  · by_cases hne : src = ⟨.share, .completed⟩
    · exact outline_pre (P := fun _ => False) (fun _ _ h => h hne) outline_false
    · refine outline_pre (fun _ _ _ => trivial)
        (any_exists ho (outline_raise fun _ _ _ => trivial) (any_of_each ho ?_))
      refine Prog.each_bind (fun task => ?_) each_readYaml
      refine each_on_bind (c := .host) (within_of rfl rfl) fun _ =>
        each_on_bind (c := .iso) (within_of rfl rfl) fun _ => ?_
      exact Prog.each_bind (fun _ => Prog.each_ret _)
        (each_moveOrFallback hd rfl hne (each_lockedWriteYaml hd rfl))
  · split
    · exact outline_ret fun _ _ _ => trivial
    · exact any_bind (checkParentCompletion_any ho hd) fun _ => outline_ret fun _ _ _ => trivial

/-! ## Reconciling and decomposing -/

theorem each_reconcileFiles_within {host : String} (hd : o.IsDecompose = false) :
    ∀ {ids : List String}, (∀ id ∈ ids, id ∈ S) →
      (reconcileFiles host st ids).Each (Within S o)
  | [], _ => Prog.each_ret _
  | id :: ids, hids => by
    have hremove : (removeYaml ⟨.home host, st⟩ id >>= fun _ =>
        (pure [id] : P (List String))).Each (Within S o) :=
      Prog.each_bind (fun _ => Prog.each_ret _) (each_removeYaml (by simp))
    have hfile : (reconcileFile host st id).Each (Within S o) := by
      refine each_exceptOSError ?_ fun _ => Prog.each_ret _
      refine each_on_bind (c := .pathExists st id) (within_of rfl rfl) fun found => ?_
      cases found with
      | true => exact hremove
      | false =>
        exact Prog.each_bind (fun _ => Prog.each_bind (fun _ => hremove)
          (each_atomicWriteYaml (within_rename hd (hids id List.mem_cons_self)))) each_readYaml
    exact Prog.each_bind (fun _ => Prog.each_bind (fun _ => Prog.each_ret _)
      (each_reconcileFiles_within hd fun id' h => hids id' (List.mem_cons_of_mem id h))) hfile

/-- The files of the host's tree have ids in use. -/
theorem any_homeGlob {host : String} {f : List String → P α} (ho : o.IsCreate = false)
    (hf : ∀ ids, Outline (scanning old) n o AnyEnd (f ids) (Numbered old {id | id ∈ ids})) :
    Outline (scanning old) n o AnyEnd (cmd (.homeGlob host st) >>= f) fun _ => True := by
  refine outline_cmd (M := system) (c := Cmd.homeGlob host st)
    (fun (ids : List String) => Numbered old {id | id ∈ ids})
    (fun ids => lasting_numbered.stable) (fun w ids w' hi _ _ hfire => ?_) hf
  have hl : Lawful old w.trace ⟨n, o, .homeGlob host st, ids⟩ ∧ NoOverwrite w n o _ :=
    lawful_of_within (S := ∅) ho (within_of rfl rfl) fun _ hid => hid.elim
  refine ⟨hl, hi.step hl.1 hfire, lasting_numbered _ _ _ hfire fun id hid k hk => ?_⟩
  obtain ⟨⟨i, hx⟩, -⟩ := hfire
  have hids : ((w.state.trees (.home host)).files st).rows.map Prod.fst = ids :=
    (Prod.mk.inj (Option.some.inj hx)).1
  obtain ⟨row, hrow, rfl⟩ := List.mem_map.mp (hids ▸ hid)
  refine ⟨row.1, hi.files ⟨.home host, st⟩ row.1 ?_, hk⟩
  rw [State.File, Tree.File, Table.find?_of_mem hrow]
  rfl

theorem reconcileLocalTasks_any {host : String} (ho : o.IsCreate = false)
    (hd : o.IsDecompose = false) :
    Outline (scanning old) n o AnyEnd (reconcileLocalTasks host) fun _ => True := by
  have hlook : Kept (scanning old) (Within ∅ o) n o (Numbered old ∅) := kept_numbered ho
  refine outline_pre (P := Numbered old ∅) (fun _ _ _ id hid => hid.elim) ?_
  refine kept_cmd hlook (c := .healthy) (within_of rfl rfl) fun up => ?_
  cases up with
  | false => exact outline_ret fun _ _ _ => trivial
  | true =>
    refine outline_pre (fun _ _ _ => trivial) (any_homeGlob ho fun claimed => ?_)
    refine any_bind (any_of_each ho (each_reconcileFiles_within hd fun _ h => h)) fun moved => ?_
    refine any_homeGlob ho fun completed => ?_
    exact any_bind (any_of_each ho (each_reconcileFiles_within hd fun _ h => h)) fun rest =>
      outline_ret fun _ _ _ => trivial

/-- A task and its subtasks. -/
def Family (t : String) : Set String := {id | id = t ∨ ∃ i, id = subtaskId t i}

theorem numbered_family {t : String} (h : Numbered old {t} w) : Numbered old (Family t) w := by
  rintro id (rfl | ⟨i, rfl⟩) k hk
  · exact h id rfl k hk
  · rcases SwarmLib.idNumber_subtaskId t i with hsame | hnone
    · exact h t rfl k (hsame ▸ hk)
    · rw [hnone] at hk
      cases hk

theorem each_createSubtasks {t : String} {parent : Doc} :
    ∀ subtasks i, (createSubtasks t parent i subtasks).Each (Within (Family t) o)
  | [], _ => Prog.each_ret _
  | sub :: subtasks, i => by
    refine each_on_bind (c := .host) (within_of rfl rfl) fun _ =>
      each_on_bind (c := .iso) (within_of rfl rfl) fun _ => ?_
    have hrename : Within (Family t) o (.on .share (.rename .pending (subtaskId t i))) :=
      ⟨fun _ h => Option.some.inj h ▸ Or.inr ⟨i, rfl⟩,
        fun _ _ h => ⟨t, i, (Prod.mk.inj (Option.some.inj h)).2.symm⟩,
        fun _ h => Option.some_ne_none _ h.symm⟩
    exact Prog.each_bind (fun _ => Prog.each_bind (fun _ => Prog.each_ret _)
      (each_createSubtasks subtasks (i + 1))) (each_atomicWriteYaml hrename)

theorem decomposeTask_any {subtasks : List SwarmLib.Subtask} (ho : o.IsCreate = false) :
    Outline (scanning old) n o AnyEnd (decomposeTask id subtasks) fun _ => True := by
  refine any_exists ho (outline_raise fun _ _ _ => trivial)
    (outline_pre (fun _ _ h => numbered_family h) (any_of_each ho ?_))
  refine Prog.each_bind (fun parent => each_on_bind (c := .unlink .pending id) (within_of rfl rfl)
    fun _ => Prog.each_ret _) (each_withLock within_locking ?_)
  refine each_on_bind (c := .pathExists .pending id) (within_of rfl rfl) fun found => ?_
  cases found with
  | false => trivial
  | true =>
    refine Prog.each_bind (fun parent => ?_) each_readYaml
    refine Prog.each_bind (fun subtask_ids => ?_) (each_createSubtasks subtasks 0)
    refine each_on_bind (c := .iso) (within_of rfl rfl) fun _ =>
      each_on_bind (c := .host) (within_of rfl rfl) fun _ => ?_
    have hrename : Within (Family id) o (.on .share (.rename .decomposed id)) :=
      ⟨fun _ h => Option.some.inj h ▸ Or.inl rfl, fun _ _ h => (by cases h),
        fun _ h => Option.some_ne_none _ h.symm⟩
    exact Prog.each_bind (fun _ => Prog.each_bind (fun _ => Prog.each_ret _)
      (each_removeYaml (by simp))) (each_atomicWriteYaml hrename)

/-! ## Creating a task -/

/-- Unless a task was created since the scan of call `n` began, every number in use is at most `m`, or is
shown by one of the stages that are still to be listed. -/
def Bounded (old : List String) (n : Nat) (m : Int) (ahead : List Stage) (w : World system) : Prop :=
  (∀ e ∈ sinceScan n w.trace, creates e = false) →
    ∀ id ∈ usedIds old w.trace, ∀ k ∈ idNumber id, k ≤ m ∨ ∃ st ∈ ahead, Shows w.state st k

/-- The commands of a call that has begun its scan and not ended it. -/
def MidScan (l : List (Event system)) : Prop :=
  (∃ e ∈ l, e.op.IsCreate = true ∧ e.cmd.globs = some .pending) ∧
    ∀ e ∈ l, e.cmd.globs ≠ some .completed

theorem scanning_of_midScan (h : MidScan (mine n w)) : Scanning w.trace := by
  obtain ⟨⟨e, he, hscan⟩, hnot⟩ := h
  obtain ⟨hmem, hcall⟩ := List.mem_filter.mp he
  refine ⟨e, hmem, hscan, fun e' he' hsame => hnot e' (List.mem_filter.mpr ⟨he', ?_⟩)⟩
  rw [hsame]
  exact hcall

theorem sinceScan_cons (hf : Fires w e w') (he : ¬ (e.call = n ∧ e.cmd.globs = some .pending)) :
    sinceScan n w'.trace = e :: sinceScan n w.trace := by
  have hkeep : (!(e.call == n && e.cmd.globs == some .pending)) = true := by
    rw [Bool.not_eq_true', Bool.and_eq_false_iff, beq_eq_false_iff_ne, beq_eq_false_iff_ne]
    exact not_and_or.mp he
  rw [sinceScan, hf.2]
  exact List.takeWhile_cons_of_pos hkeep

/-- A file stays unless it is taken out. -/
theorem file_kept (hf : Fires w e w') (h : w.state.File p id) (hr : ¬ removes e p id) :
    w'.state.File p id := by
  obtain ⟨⟨i, hx⟩, -⟩ := hf
  exact (file_of_exec hx p id).mpr (Or.inr ⟨h, hr⟩)

/-- Nothing leaves `completed/`. -/
theorem shows_completed (hl : Lawful old w.trace e) (hf : Fires w e w')
    (h : Shows w.state .completed k) : Shows w'.state .completed k := by
  obtain ⟨id, hid, hj⟩ := h
  obtain ⟨hfile, hname⟩ := mem_globbed.mp hid
  exact ⟨id, mem_globbed.mpr ⟨file_kept hf hfile fun hr => hl.kept id hr.1, hname⟩, hj⟩

/-- During a scan what leaves `claimed/` is in `completed/`. -/
theorem shows_claimed (hg : Scanned old w e.call e.op e.cmd) (hscan : Scanning w.trace)
    (hf : Fires w e w') (h : Shows w.state .claimed k) :
    Shows w'.state .claimed k ∨ Shows w'.state .completed k := by
  obtain ⟨id, hid, hj⟩ := h
  obtain ⟨hfile, hname⟩ := mem_globbed.mp hid
  by_cases hr : removes e ⟨.share, .claimed⟩ id
  · have hdone : w.state.File ⟨.share, .completed⟩ id := hg.2.2 (_, id) hr.1 rfl hscan
    have hdone' : w'.state.File ⟨.share, .completed⟩ id := by
      refine file_kept hf hdone fun hr' => ?_
      cases (removes_unique hr hr').1
    exact Or.inr ⟨id, mem_globbed.mpr ⟨hdone', hname⟩, hj⟩
  · exact Or.inl ⟨id, mem_globbed.mpr ⟨file_kept hf hfile hr, hname⟩, hj⟩

/-- A command that is not the beginning of the scan. -/
theorem Bounded.step {ahead : List Stage} (h : Bounded old n m ahead w)
    (hl : Lawful old w.trace e) (hf : Fires w e w')
    (he : ¬ (e.call = n ∧ e.cmd.globs = some .pending))
    (hshow : ∀ k, (∃ st ∈ ahead, Shows w.state st k) → ∃ st ∈ ahead, Shows w'.state st k) :
    Bounded old n m ahead w' := by
  intro hcalm id hid k hk
  rw [sinceScan_cons hf he] at hcalm
  have hbound : ∀ id ∈ usedIds old w.trace, ∀ k ∈ idNumber id,
      k ≤ m ∨ ∃ st ∈ ahead, Shows w'.state st k := fun id hid k hk =>
    (h (fun e' he' => hcalm e' (List.mem_cons_of_mem e he')) id hid k hk).imp_right (hshow k)
  rw [hf.2, mem_usedIds_cons] at hid
  rcases hid with hw | hid
  · -- what was written is not a new task, so its number was in use before
    obtain ⟨p, hput, -⟩ := writes_of_written hw
    have hnot : e.op.IsCreate = false := by
      have hcalm := hcalm e List.mem_cons_self
      rwa [creates, hw, Option.isSome_some, Bool.and_true] at hcalm
    obtain ⟨id₀, hid₀, hk₀⟩ := hl.numbered hnot (p, id) hput k hk
    exact hbound id₀ hid₀ k hk₀
  · exact hbound id hid k hk

theorem stable_bounded_done : Stable (scanning old) n (Bounded old n m []) := by
  intro w e w' hn _ _ hl hf _ h
  exact h.step hl.1 hf (fun he => hn he.1) fun k ⟨_, hst, _⟩ => absurd hst List.not_mem_nil

theorem stable_bounded_completed : Stable (scanning old) n (Bounded old n m [.completed]) := by
  intro w e w' hn _ _ hl hf _ h
  refine h.step hl.1 hf (fun he => hn he.1) fun k ⟨st, hst, hshow⟩ => ?_
  obtain rfl := List.mem_singleton.mp hst
  exact ⟨_, hst, shows_completed hl.1 hf hshow⟩

theorem stable_bounded_claimed :
    Stable (scanning old) n fun w => MidScan (mine n w) ∧ Bounded old n m [.claimed, .completed] w := by
  intro w e w' hn _ hg hl hf _ ⟨hmid, h⟩
  refine ⟨by rwa [mine_other hf hn], h.step hl.1 hf (fun he => hn he.1) fun k ⟨st, hst, hshow⟩ => ?_⟩
  rw [List.mem_cons, List.mem_singleton] at hst
  rcases hst with rfl | rfl
  · rcases shows_claimed hg (scanning_of_midScan hmid) hf hshow with h | h
    · exact ⟨_, List.mem_cons_self, h⟩
    · exact ⟨_, List.mem_cons_of_mem _ List.mem_cons_self, h⟩
  · exact ⟨_, List.mem_cons_of_mem _ List.mem_cons_self, shows_completed hl.1 hf hshow⟩

theorem lawful_look (old : List String) (hp : c.puts = none) (ht : c.takes = none) :
    Lawful old w.trace ⟨n, o, c, x⟩ ∧ NoOverwrite w n o c := by
  have hputs : ∀ q, ¬ q ∈ c.puts := fun q hq => Option.some_ne_none q (hq.symm.trans hp)
  exact ⟨⟨fun _ q hq => absurd hq (hputs q), fun _ q hq => absurd hq (hputs q),
    fun _ _ hq => absurd hq (hputs _), fun _ hq => Option.some_ne_none _ (hq.symm.trans ht)⟩,
    fun _ q hq => absurd hq (hputs q)⟩

/-- What a scan of one stage answers. -/
theorem exec_glob {s s' : State} {i : SwarmLib.Env} {ids : Option (List String)}
    (h : exec n i s (.on .share (.glob st)) = some (ids, s')) : ids = some (globbed s st) ∧ s' = s := by
  simp only [exec] at h
  split at h
  · rename_i hfails
    cases hfails.2.2.1
  · obtain ⟨y, hy, he⟩ := Option.map_eq_some_iff.mp h
    cases hy
    cases he
    exact ⟨rfl, by rw [Function.update_eq_self]⟩

/-- The next stage is listed. -/
theorem Bounded.glob {ahead : List Stage} {ids : Option (List String)}
    (h : Bounded old n m (st :: ahead) w) (hst : st ≠ .pending)
    (hf : Fires w ⟨n, o, .on .share (.glob st), ids⟩ w') :
    ∃ l, ids = some l ∧ Bounded old n (maxNumber m l) ahead w' := by
  obtain ⟨i, hx⟩ := hf.1
  obtain ⟨rfl, hs⟩ := exec_glob hx
  refine ⟨_, rfl, ?_⟩
  have hkeep : Bounded old n m (st :: ahead) w' := by
    have hl := lawful_look (w := w) (n := n) (o := o) (c := .on .share (.glob st))
      (x := some (globbed w.state st)) old rfl rfl
    refine h.step hl.1 hf (fun he => hst ?_) fun k hk => ?_
    · exact Option.some.inj he.2
    · rwa [show w'.state = w.state from hs]
  intro hcalm id hid k hk
  rcases hkeep hcalm id hid k hk with hle | ⟨st', hst', hshow⟩
  · exact Or.inl (SwarmLib.le_maxNumber (Or.inl hle))
  · rcases List.mem_cons.mp hst' with rfl | hst'
    · obtain ⟨id', hid', j, hj, hkj⟩ := hshow
      rw [show w'.state = w.state from hs] at hid'
      exact Or.inl (hkj.trans (SwarmLib.le_maxNumber (Or.inr ⟨id', hid', hj⟩)))
    · exact Or.inr ⟨st', hst', hshow⟩

/-- The scan begins. -/
theorem establishes_pending (ho : o.IsCreate = true) :
    Establishes (scanning old) n o (Untouched n) (.on .share (.glob .pending)) fun ids =>
      ids.elim (fun _ => False) fun l w =>
        MidScan (mine n w) ∧ Bounded old n (maxNumber 0 l) [.claimed, .completed] w := by
  intro w ids w' hi hw hg hf
  have hl := lawful_look (w := w) (n := n) (o := o) (c := .on .share (.glob .pending)) (x := ids) old rfl rfl
  obtain ⟨i, hx⟩ := hf.1
  obtain ⟨rfl, hs⟩ := exec_glob hx
  refine ⟨hl, hi.step hl.1 hf, ⟨?_, ?_⟩, fun _ id hid k hk => ?_⟩
  · rw [mine_own hf rfl]
    exact ⟨_, List.mem_cons_self, ho, rfl⟩
  · rw [mine_own hf rfl, show mine n w = [] from hw]
    rintro e he
    rw [List.mem_singleton.mp he]
    exact fun h => Stage.noConfusion (Option.some.inj h)
  · rw [hf.2, mem_usedIds_cons] at hid
    have hid : id ∈ usedIds old w.trace :=
      hid.resolve_left fun h => Option.some_ne_none _ (h.symm.trans rfl)
    rcases hg.1 ho rfl id hid k hk with hle | ⟨st, hst, hshow⟩
    · exact Or.inl (SwarmLib.le_maxNumber (Or.inl hle))
    · rcases List.mem_cons.mp hst with rfl | hst
      · obtain ⟨id', hid', j, hj, hkj⟩ := hshow
        exact Or.inl (hkj.trans (SwarmLib.le_maxNumber (Or.inr ⟨id', hid', hj⟩)))
      · exact Or.inr ⟨st, hst, by rwa [show w'.state = w.state from hs]⟩

/-- A command that neither writes nor begins a scan. -/
structure Calm (c : Cmd) : Prop where
  puts : c.puts = none
  takes : c.takes = none
  globs : c.globs ≠ some .pending

theorem kept_bounded : Kept (scanning old) Calm n o (Bounded old n m []) where
  stable := stable_bounded_done
  own c hc w x w' hi hw _ hf := by
    have hl := lawful_look (w := w) (n := n) (o := o) (x := x) old hc.puts hc.takes
    refine ⟨hl, hi.step hl.1 hf, hw.step hl.1 hf (fun he => hc.globs he.2) ?_⟩
    exact fun k ⟨_, hst, _⟩ => absurd hst List.not_mem_nil

/-- What lasts is kept by calm commands. -/
theorem kept_lasting {L : World system → Prop} (hL : Lasting L) : Kept (scanning old) Calm n o L where
  stable := hL.stable
  own c hc w x w' hi hw _ hf := by
    have hl := lawful_look (w := w) (n := n) (o := o) (x := x) old hc.puts hc.takes
    exact ⟨hl, hi.step hl.1 hf, hL _ _ _ hf hw⟩

theorem calm_locking (c : SwarmLib.Cmd) (hc : Locking c) : Calm (.on .share c) := by
  cases c <;> first | exact hc.elim | exact ⟨rfl, rfl, by simp [Cmd.globs]⟩

/-- Call `n` has written the file of the new task. -/
def Gave (n : Nat) (id : String) (w : World system) : Prop :=
  ∃ e ∈ w.trace, e.call = n ∧ e.op.IsCreate = true ∧ writes e ⟨.share, .pending⟩ id

theorem lasting_gave : Lasting (Gave n id) := lasting_executed

/-- The file of the new task is written. -/
theorem establishes_new (ho : o.IsCreate = true) (hm : 0 ≤ m) :
    Establishes (scanning old) n o (Bounded old n m [])
      (.on .share (.rename .pending (taskName (m + 1).toNat))) fun x w =>
        x = some true → Gave n (taskName (m + 1).toNat) w := by
  intro w x w' hi hw hg hf
  have hnew : taskName (m + 1).toNat ∉ usedIds old w.trace := by
    intro hused
    have hnumber : ((m + 1).toNat : Int) ∈ idNumber (taskName (m + 1).toNat) :=
      SwarmLib.idNumber_taskName _
    rcases hw (hg.2.1 ho rfl) _ hused _ hnumber with hle | ⟨_, hst, _⟩
    · omega
    · exact absurd hst List.not_mem_nil
  have hl : Lawful old w.trace
      ⟨n, o, .on .share (.rename .pending (taskName (m + 1).toNat)), x⟩ := by
    refine ⟨fun _ q hq => ?_, fun h => absurd (ho.symm.trans h) (by decide), fun h => ?_,
      fun _ hq => Option.some_ne_none _ hq.symm⟩
    · rw [← Option.some.inj hq]
      exact hnew
    · cases o with
      | create => cases h
      | _ => cases ho
  refine ⟨⟨hl, fun _ q hq p hfile => ?_⟩, hi.step hl hf, fun hx => executed_now hf ?_⟩
  · rw [← Option.some.inj hq] at hfile
    exact hnew (hi.files p _ hfile)
  · exact ⟨rfl, ho, rfl, decide_eq_true hx⟩

/-- The scan, and what follows. -/
theorem nextTaskId_then {Q : Except PyError α → World system → Prop} {f : String → P α}
    (ho : o.IsCreate = true)
    (hf : ∀ m, 0 ≤ m → Outline (scanning old) n o Q (f (taskName (m + 1).toNat))
      (Bounded old n m [])) :
    Outline (scanning old) n o Q (nextTaskId >>= f) (Untouched n) := by
  rw [nextTaskId, Prog.bind_assoc]
  refine outline_on (c := .glob .pending) _ (fun _ => False) (fun _ => stable_bounded_claimed)
    stable_pure (establishes_pending ho) (fun _ _ h => h.elim) fun pending => ?_
  rw [Prog.bind_assoc]
  refine outline_on (c := .glob .claimed)
    (fun l => Bounded old n (maxNumber (maxNumber 0 pending) l) [.completed]) (fun _ => False)
    (fun _ => stable_bounded_completed) stable_pure (fun w ids w' hi hw hg hfire => ?_)
    (fun _ _ h => h.elim) fun claimed => ?_
  · have hl := lawful_look (w := w) (n := n) (o := o) (c := .on .share (.glob .claimed)) (x := ids)
      old rfl rfl
    obtain ⟨l, rfl, hnext⟩ := hw.2.glob (by decide) hfire
    exact ⟨hl, hi.step hl.1 hfire, hnext⟩
  rw [Prog.bind_assoc]
  refine outline_on (c := .glob .completed)
    (fun l => Bounded old n (maxNumber (maxNumber (maxNumber 0 pending) claimed) l) [])
    (fun _ => False) (fun _ => stable_bounded_done) stable_pure (fun w ids w' hi hw hg hfire => ?_)
    (fun _ _ h => h.elim) fun completed => ?_
  · have hl := lawful_look (w := w) (n := n) (o := o) (c := .on .share (.glob .completed)) (x := ids)
      old rfl rfl
    obtain ⟨l, rfl, hnext⟩ := hw.glob (by decide) hfire
    exact ⟨hl, hi.step hl.1 hfire, hnext⟩
  · refine hf _ (SwarmLib.le_maxNumber (Or.inl (SwarmLib.le_maxNumber (Or.inl ?_))))
    exact SwarmLib.le_maxNumber (Or.inl (le_refl 0))

/-- A task that was created was given its id by the call. -/
abbrev Named (n : Nat) : Except PyError Doc → World system → Prop :=
  Outcome (fun task w => ∃ j, getStr task "id" = some (taskName j) ∧ Gave n (taskName j) w)
    fun _ _ => True

/-- What holds when a call ends. -/
def Given (n : Nat) : (o : Op) → Except PyError (Ret o) → World system → Prop
  | .create .. => Named n
  | _ => fun _ _ => True

theorem createTask_outline {host title description project priority : String}
    {requires : List String} {estimated : Int} :
    Outline (scanning old) n (.create host title description project priority requires estimated)
      (Named n)
      (createTask host title description project priority requires estimated) (Untouched n) := by
  refine nextTaskId_then rfl fun m hm => ?_
  refine kept_look kept_bounded (c := .host) ⟨rfl, rfl, by simp [Cmd.globs]⟩ rfl fun created_by => ?_
  refine kept_look kept_bounded (c := .iso) ⟨rfl, rfl, by simp [Cmd.globs]⟩ rfl fun created_at => ?_
  refine outline_bind (R := fun _ => Gave n (taskName (m + 1).toNat)) (fun _ => ?_) ?_
  · refine outline_ret fun w _ h => ⟨(m + 1).toNat, ?_, h⟩
    simp [getStr]
  · refine outline_mono
      (Q := Outcome (fun _ => Gave n (taskName (m + 1).toNat)) fun _ _ => True) (fun _ _ h => h)
      (fun r _ _ h => ?_)
      (withLock_outline calm_locking kept_bounded (fun r => ?_) (fun _ _ _ => trivial) ?_)
    · cases r with
      | ok _ => exact h
      | error _ => trivial
    · cases r with
      | ok _ => exact kept_lasting lasting_gave
      | error _ => exact kept_lasting lasting_pure
    · refine kept_on kept_bounded (c := .writeTmp .pending (taskName (m + 1).toNat) _)
        ⟨rfl, rfl, by simp [Cmd.globs]⟩ (fun _ _ _ => trivial) fun _ => ?_
      refine outline_on (c := .rename .pending (taskName (m + 1).toNat))
        (fun (x : Bool) w => x = true → Gave n (taskName (m + 1).toNat) w) (fun _ => True)
        (fun x => ?_) stable_true (fun w x w' hi hw hg hfire => ?_) (fun _ _ _ => trivial) fun x => ?_
      · intro w e w' _ _ _ _ hfire _ h hx
        exact lasting_gave _ _ _ hfire (h hx)
      · obtain ⟨hl, hi', hgave⟩ := establishes_new rfl hm w x w' hi hw hg hfire
        refine ⟨hl, hi', ?_⟩
        cases x with
        | none => trivial
        | some x => exact fun hx => hgave (congrArg some hx)
      · cases x with
        | true => exact outline_ret fun _ _ h => h rfl
        | false => exact outline_raise fun _ _ _ => trivial

/-- **Every command is lawful**, and a new task has been given its id. -/
theorem prog_lawful {old : List String} (n : Nat) (o : Op) :
    Outline (scanning old) n o (Given n o) (prog o) (Untouched n) := by
  have hany : ∀ {o : Op}, o.IsCreate = false →
      Outline (scanning old) n o AnyEnd (prog o) (fun _ => True) →
      Outline (scanning old) n o (Given n o) (prog o) (Untouched n) := by
    intro o ho h
    refine outline_mono (fun _ _ _ => trivial) (fun r w _ _ => ?_) h
    cases o with
    | create => cases ho
    | _ => trivial
  cases o with
  | create => exact createTask_outline
  | claim => exact hany rfl (claimTask_any rfl rfl)
  | complete => exact hany rfl (completeTask_any rfl rfl)
  | decompose => exact hany rfl (decomposeTask_any rfl)
  | reconcile => exact hany rfl (reconcileLocalTasks_any rfl rfl)
  | weather h =>
    refine hany rfl (outline_pre (P := Numbered old ∅) (fun _ _ _ id hid => hid.elim) ?_)
    exact any_of_each rfl ⟨within_of rfl rfl, fun _ => trivial⟩

/-! ## Ids along a run -/

/-- What was executed at some point was lawful then. -/
theorem lawful_of_mem {l₂ : List (Event system)} :
    ∀ {l₁ : List (Event system)}, Chronicle old (l₁ ++ e :: l₂) → Lawful old l₂ e
  | [], h => h.2
  | _ :: _, h => lawful_of_mem h.1

/-- The id of a new task is given to no other task. -/
theorem given_once {e' : Event system} {j : Nat} (h : Chronicle old w.trace) (he : e ∈ w.trace)
    (hcreate : e.op.IsCreate = true) (hw : writes e p (taskName j)) (he' : e' ∈ w.trace)
    (ho' : e'.op.IsCreate = true ∨ e'.op.IsDecompose = true)
    (hw' : writes e' ⟨.share, .pending⟩ (taskName j)) : e'.call = e.call := by
  obtain ⟨l₁, l₂, hl⟩ := List.append_of_mem he
  rw [hl] at h he'
  rcases List.mem_append.mp he' with hlater | hlater
  · obtain ⟨a, b, hab⟩ := List.append_of_mem hlater
    rw [hab, List.append_assoc, List.cons_append] at h
    have hlawful : Lawful old (b ++ e :: l₂) e' := lawful_of_mem h
    rcases ho' with ho' | ho'
    · refine absurd ?_ (hlawful.fresh ho' _ hw'.1)
      have hmem : taskName j ∈ (b ++ e :: l₂).filterMap written :=
        List.mem_filterMap.mpr ⟨e, by simp, written_of_writes hw⟩
      exact List.mem_append_right old hmem
    · obtain ⟨t, i, ht⟩ := hlawful.subtask ho' _ hw'.1
      exact absurd ht (SwarmLib.taskName_ne_subtaskId j t i)
  · rcases List.mem_cons.mp hlater with rfl | hearlier
    · rfl
    · refine absurd ?_ ((lawful_of_mem h).fresh hcreate _ hw.1)
      have hmem : taskName j ∈ l₂.filterMap written :=
        List.mem_filterMap.mpr ⟨e', hearlier, written_of_writes hw'⟩
      exact List.mem_append_right old hmem

/-- **Fresh ids.** In every run whose scans see enough, from any state whose files have ids of `old`,
`create_task` never writes where a file of the id is, and the id it returns is a new one, which no other
`create_task` or `decompose_task` has given to a task. -/
theorem fresh_ids {old : List String} {s : State} {c : Config system}
    (hs : ∀ p id, s.File p id → id ∈ old) (h : Run (Scanned old) (.init s) c) :
    Run NoOverwrite (.init s) c ∧
      ∀ n host title description project priority requires estimated task,
        c.Returned n (.create host title description project priority requires estimated) task →
        ∃ id, getStr task "id" = some id ∧ id ∉ old ∧ Gave n id c.world ∧
          ∀ e ∈ c.world.trace, e.op.IsCreate = true ∨ e.op.IsDecompose = true →
            writes e ⟨.share, .pending⟩ id → e.call = n := by
  have hinit : (scanning old).Inv ⟨s, []⟩ :=
    ⟨fun p id hfile => List.mem_append_left _ (hs p id hfile), trivial⟩
  have hsound := run_sound (D := scanning old) (Q := Given) prog_lawful hinit h
  refine ⟨(run_obeys (D := scanning old) (Q := Given) (K := NoOverwrite) (fun _ _ hl => hl.2)
    prog_lawful hinit h).mono fun _ _ _ _ hg => hg.2, ?_⟩
  intro n host title description project priority requires estimated task hret
  obtain ⟨j, hid, hgave⟩ := hsound.returned hret
  have ⟨e, he, hn, hcreate, hw⟩ := hgave
  refine ⟨taskName j, hid, fun hold => ?_, hgave, fun e' he' ho' hw' => ?_⟩
  · obtain ⟨l₁, l₂, hl⟩ := List.append_of_mem he
    have hchron := hsound.inv.lawful
    rw [hl] at hchron
    exact (lawful_of_mem hchron).fresh hcreate _ hw.1 (List.mem_append_left _ hold)
  · exact (given_once hsound.inv.lawful he hcreate hw he' ho' hw').trans hn

/-! ## An id given twice -/

/-- The id of the task that call `n` returned. -/
def returnedId (c : Config system) (n : Nat) : Option String :=
  match c.proc n with
  | some ⟨.create .., .ret task⟩ => getStr task "id"
  | _ => none

theorem returned_of_id {c : Config system} (h : returnedId c n = some id) :
    ∃ host title description project priority requires estimated task,
      c.Returned n (.create host title description project priority requires estimated) task ∧
        getStr task "id" = some id := by
  unfold returnedId at h
  split at h
  · rename_i hproc
    exact ⟨_, _, _, _, _, _, _, _, hproc, h⟩
  · cases h

/-- No tasks. -/
def nothing : State := ⟨fun _ => .ofFiles fun _ => .empty, ⟨true, fun _ => false⟩⟩

/-- The host `a` and its clock. -/
def hostA : SwarmLib.Env := ⟨"a", "1970-01-01T00:00:00Z", []⟩

/-- `create_task("t")` on `a`. -/
def newTask : Op := .create "a" "t" "" "" "medium" [] 0

/-- Two calls scan before either writes. -/
def bothScan : List (Act system) :=
  solo system 0 newTask 3 hostA ++ solo system 1 newTask 12 hostA ++ List.replicate 9 (.step 0 hostA)

/-- Both return the same id. -/
theorem same_id : ∃ c : Config system, Run Free (.init nothing) c ∧ ∃ id, ∀ n ∈ [0, 1],
    ∃ host title description project priority requires estimated task,
      c.Returned n (.create host title description project priority requires estimated) task ∧
        getStr task "id" = some id := by
  have hplay : (play Free (.init nothing) bothScan).any (fun c =>
      [0, 1].all fun n => returnedId c n == some "task-001") = true := by
    decide +kernel
  obtain ⟨c, hrun, hc⟩ := exists_run_of_play hplay
  exact ⟨c, hrun, "task-001",
    fun n hn => returned_of_id (beq_iff_eq.mp (List.all_eq_true.mp hc n hn))⟩

/-- Two calls, one after the other. -/
def oneByOne : List (Act system) := solo system 0 newTask 12 hostA ++ solo system 1 newTask 12 hostA

theorem oneByOne_plays : (play (Scanned []) (.init nothing) oneByOne).isSome := by
  decide +kernel

theorem fresh_ids_oneByOne :
    Run NoOverwrite (.init nothing) (played (Scanned []) _ _ oneByOne_plays) ∧
      ∀ n host title description project priority requires estimated task,
        (played (Scanned []) _ _ oneByOne_plays).Returned n
          (.create host title description project priority requires estimated) task →
        ∃ id, getStr task "id" = some id ∧ id ∉ [] ∧
          Gave n id (played (Scanned []) _ _ oneByOne_plays).world ∧
          ∀ e ∈ (played (Scanned []) _ _ oneByOne_plays).world.trace,
            e.op.IsCreate = true ∨ e.op.IsDecompose = true →
              writes e ⟨.share, .pending⟩ id → e.call = n :=
  fresh_ids (fun _ _ hfile => absurd hfile Bool.false_ne_true)
    (run_played oneByOne_plays)

end ClaudeSwarm.Outage
