import ClaudeSwarm.Hydra.Registry
import ClaudeSwarm.Interleave.History
import ClaudeSwarm.Interleave.System

/-!
# Registries on one file

Every `BackgroundRegistry` reads the file once and saves its whole dictionary. Two that live at the
same time write over each other's entries (`registration_lost`): `dispatch_from_spec` makes a registry
for each dispatch it tracks, next to the one a monitor polls with.

Model: a store of the file, of the dictionaries of the registries made so far (`memory`), of the dispatch
records and of the machine. A call is one command. The machine may change between two calls (`move`).

* `Method.Saves`: when a call writes the file. `Covers`: the dictionary it writes is not behind it.
* `run_keeps`: what one call leaves of an entry of the dictionary.
* `kept_of_fires`: a call that meets `Abreast` loses nothing of the file but what `cleanup` removes.
* **`lossless_of_abreast`**: in every run of such calls, nothing is lost.
-/

namespace ClaudeSwarm.Hydra

open Interleave Data

/-- The file, the dictionary of each registry, the records, and the machine. -/
structure Desk where
  file : Tasks
  memory : Nat → Option Tasks
  records : Records
  view : View

namespace Snapshots

/-- What happens to the file: a registry is made, a method of one is called, or the machine changes. -/
inductive Cmd where
  | create (i : Nat)
  | call (i : Nat) (m : Method)
  | move (view : View)

/-- What a command answers. -/
def Resp : Cmd → Type
  | .create _ => Unit
  | .call _ m => m.Reply
  | .move _ => Unit

/-- A call of registry `i`, whose dictionary is `tasks`. -/
def called (s : Desk) (i : Nat) (tasks : Tasks) (m : Method) : Desk :=
  let out := m.run s.view tasks s.records
  { s with
    file := if out.saved then out.tasks else s.file
    memory := Function.update s.memory i (some out.tasks)
    records := out.records }

/-- One command. A registry is made once, and called after that. -/
def exec (_ : Nat) (_ : Unit) (s : Desk) : (c : Cmd) → Option (Resp c × Desk)
  | .create i =>
    match s.memory i with
    | none => some ((), { s with memory := Function.update s.memory i (some s.file) })
    | some _ => none
  | .call i m =>
    (s.memory i).map fun tasks => ((m.run s.view tasks s.records).reply, called s i tasks m)
  | .move view => some ((), { s with view })

/-- Registries on one file. -/
def system : System where
  sig := ⟨Cmd, Resp⟩
  store := ⟨Desk, Unit, exec⟩
  Err := Empty
  Op := Cmd
  Ret := Resp
  prog o := .op o .ret

end Snapshots

/-! ## What a call writes -/

namespace Method

variable (view : View) (tasks : Tasks) (records : Records)

/-- When a method writes the file. -/
def Saves : Method → Prop
  | .register _ => True
  | .poll => ∃ task ∈ tasks.rows, Registry.Ends view task
  | .cancel dispatch_id => ∃ task, tasks.find? dispatch_id = some task ∧ task.status = .running ∧
      ¬ (0 < task.pid ∧ view.signal task.pid = .denied)
  | .cleanup max_age_hours => ∃ task ∈ tasks.rows, Registry.isOld view max_age_hours task

/-- The method itself ends `task`. -/
def Settles (task : BackgroundTask) : Method → Prop
  | .register _ => False
  | .poll => Registry.Ends view task
  | .cancel dispatch_id => task.dispatchId = dispatch_id
  | .cleanup _ => False

theorem saved_iff (m : Method) : (m.run view tasks records).saved = true ↔ m.Saves view tasks := by
  cases m with
  | register r => exact ⟨fun _ => trivial, fun _ => rfl⟩
  | poll =>
    have hnil := @Registry.newly_eq_nil_iff view tasks.rows records
    simp only [run, Registry.poll, Saves, Bool.not_eq_true', List.isEmpty_eq_false_iff]
    rw [ne_eq, hnil]
    push Not
    rfl
  | cancel dispatch_id =>
    simp only [run, Registry.cancel, Saves]
    cases hf : tasks.find? dispatch_id with
    | none => simp
    | some task =>
      simp only [Option.some.injEq, exists_eq_left']
      split
      · simp [*]
      · split
        · simp [*]
        · rename_i h₁ h₂
          simp [not_not.mp h₁, h₂]
  | cleanup max_age_hours =>
    simp [run, Saves, Registry.toRemove]

/-- **One call on an entry of the dictionary.** Unless `cleanup` removes it, it stays, and unless it is
registered anew its status goes on saying that it has ended, or does so from now on. -/
theorem run_keeps {m : Method} {id : String} {task : BackgroundTask}
    (h : tasks.find? id = some task) (hsaves : m.Saves view tasks)
    (hkept : ∀ hours, m = .cleanup hours → id ∉ Registry.toRemove view hours tasks) :
    ∃ task', (m.run view tasks records).tasks.find? id = some task' ∧
      (¬ m.Registers id → task.status.Terminal ∨ m.Settles view task → task'.status.Terminal) := by
  cases m with
  | register r =>
    have hset := Registry.find?_setItem tasks id (Registry.registered view r)
    by_cases hid : id = r.dispatchId
    · rw [if_pos (show id = (Registry.registered view r).dispatchId from hid)] at hset
      exact ⟨_, hset, fun hno => absurd hid.symm hno⟩
    · rw [if_neg (show id ≠ (Registry.registered view r).dispatchId from hid), h] at hset
      exact ⟨task, hset, fun _ ht => ht.resolve_right not_false⟩
  | poll =>
    refine ⟨_, (@Registry.find?_poll view tasks _ records _ h).1, fun _ ht => ?_⟩
    rcases ht with ht | ht
    · have hs : task.status ≠ .running := fun hs => by rw [hs] at ht; exact ht
      rw [Registry.pollTask_of_not_running view hs]
      exact ht
    · exact Registry.terminal_of_ends view ht _
  | cancel dispatch_id =>
    obtain ⟨t, ht, hs, hsent⟩ := hsaves
    have hrun : (run view tasks records (.cancel dispatch_id)).tasks =
        Registry.setItem tasks { t with status := .canceled, completedAt := view.nowText } := by
      simp only [run, Registry.cancel, ht, ne_eq, hs, not_true, if_false, if_neg hsent]
    rw [hrun, Registry.find?_setItem]
    split
    · exact ⟨_, rfl, fun _ _ => trivial⟩
    · rename_i hid
      refine ⟨task, h, fun _ hterm => hterm.resolve_right fun he => hid ?_⟩
      exact (Table.find?_key h).symm.trans (he.trans (Table.find?_key ht).symm)
  | cleanup max_age_hours =>
    refine ⟨task, ?_, fun _ ht => ht.resolve_right not_false⟩
    rw [← h]
    exact (Registry.find?_cleanup view tasks id max_age_hours).trans (if_neg (hkept _ rfl))

end Method

/-! ## Nothing is lost -/

namespace Snapshots

/-- The dictionary a call is about to save is not behind the file: it has every entry of it, and where the
file says that a dispatch has ended, so does the dictionary, or the call itself finds out. -/
def Covers (view : View) (m : Method) (tasks file : Tasks) : Prop :=
  ∀ id task, file.find? id = some task → ∃ task', tasks.find? id = some task' ∧
    (task.status.Terminal → task'.status.Terminal ∨ m.Settles view task')

/-- A call that saves has a dictionary that is not behind the file, and a dispatch is not registered anew
when the file says that it has ended. -/
def Abreast : Guard system := fun w _ _ c =>
  match c with
  | .call i m => ∀ tasks, w.state.memory i = some tasks → m.Saves w.state.view tasks →
      Covers w.state.view m tasks w.state.file ∧
        ∀ id task, m.Registers id → w.state.file.find? id = some task → ¬ task.status.Terminal
  | _ => True

/-- The event is a registration of `id`. -/
def Registers (e : Event system) (id : String) : Prop :=
  match e with
  | ⟨_, _, .call _ m, _⟩ => m.Registers id
  | _ => False

/-- The event is a `cleanup` that removed `id`. -/
def Removes (e : Event system) (id : String) : Prop :=
  match e with
  | ⟨_, _, .call _ (.cleanup _), removed⟩ => id ∈ (show List String from removed)
  | _ => False

/-- What the file has of a dispatch it goes on having. -/
structure Kept (id : String) (file file' : Tasks) : Prop where
  listed : (file.find? id).isSome → (file'.find? id).isSome
  settled : ∀ task, file.find? id = some task → task.status.Terminal →
    ∃ task', file'.find? id = some task' ∧ task'.status.Terminal

/-- In every run under `G`: what is registered and not removed since is in the file, and what the file has
at some moment and no `cleanup` removes it goes on having, with a status that says that the dispatch has
ended if it did so then. -/
def Lossless (G : Guard system) (s : Desk) : Prop :=
  ∀ c₁ c, Run G (.init s) c₁ → Run G c₁ c → ∀ id,
    (Held Registers Removes id c.world.trace → (c.world.state.file.find? id).isSome) ∧
      ∀ since, c.world.trace = since ++ c₁.world.trace → (∀ e ∈ since, ¬ Removes e id) →
        Kept id c₁.world.state.file c.world.state.file

theorem Kept.refl (id : String) (file : Tasks) : Kept id file file :=
  ⟨fun h => h, fun task h ht => ⟨task, h, ht⟩⟩

theorem Kept.trans {id : String} {f₁ f₂ f₃ : Tasks} (h : Kept id f₁ f₂) (h' : Kept id f₂ f₃) :
    Kept id f₁ f₃ := by
  refine ⟨fun hl => h'.listed (h.listed hl), fun task hf ht => ?_⟩
  obtain ⟨task', hf', ht'⟩ := h.settled task hf ht
  exact h'.settled task' hf' ht'

/-- A call that saves a dictionary that is not behind the file. -/
theorem kept_of_run {m : Method} {id : String} {view : View} {tasks file : Tasks} {records : Records}
    (hsaves : m.Saves view tasks) (hcovers : Covers view m tasks file)
    (hnew : ∀ task, m.Registers id → file.find? id = some task → ¬ task.status.Terminal)
    (hkept : ∀ hours, m = .cleanup hours → id ∉ Registry.toRemove view hours tasks) :
    Kept id file (m.run view tasks records).tasks := by
  constructor
  · intro hl
    obtain ⟨task, hf⟩ := Option.isSome_iff_exists.mp hl
    obtain ⟨task', hm, -⟩ := hcovers id task hf
    obtain ⟨task'', hr, -⟩ := Method.run_keeps view tasks records hm hsaves hkept
    exact Option.isSome_iff_exists.mpr ⟨task'', hr⟩
  · intro task hf ht
    obtain ⟨task', hm, hterm⟩ := hcovers id task hf
    obtain ⟨task'', hr, hends⟩ := Method.run_keeps view tasks records hm hsaves hkept
    exact ⟨task'', hr, hends (fun hreg => hnew task hreg hf ht) (hterm ht)⟩

/-- **One call.** -/
theorem kept_of_fires {w w' : World system} {e : Event system} {id : String}
    (hg : Abreast w e.call e.op e.cmd) (hf : Fires w e w') (hid : ¬ Removes e id) :
    Kept id w.state.file w'.state.file := by
  obtain ⟨n, o, c, x⟩ := e
  obtain ⟨⟨i, hx⟩, -⟩ := hf
  simp only at hx
  generalize w'.state = s' at hx ⊢
  cases c with
  | create i =>
    simp only [system, exec] at hx
    split at hx
    · cases hx
      exact Kept.refl id _
    · cases hx
  | move view =>
    cases hx
    exact Kept.refl id _
  | call i m =>
    obtain ⟨tasks, htasks, hx⟩ := Option.map_eq_some_iff.mp hx
    cases hx
    cases hsaved : (m.run w.state.view tasks w.state.records).saved with
    | false =>
      simp only [called, hsaved]
      exact Kept.refl id _
    | true =>
      have hsaves := (Method.saved_iff w.state.view tasks w.state.records m).mp hsaved
      obtain ⟨hcovers, hnew⟩ := hg tasks htasks hsaves
      simp only [called, hsaved, if_true]
      refine kept_of_run hsaves hcovers (fun task => hnew id task) fun hours hm => ?_
      subst hm
      exact hid

/-- What is registered is in the file. -/
theorem listed_of_registers {w w' : World system} {e : Event system} {id : String}
    (hf : Fires w e w') (hid : Registers e id) : (w'.state.file.find? id).isSome := by
  obtain ⟨n, o, c, x⟩ := e
  obtain ⟨⟨i, hx⟩, -⟩ := hf
  simp only at hx
  generalize w'.state = s' at hx ⊢
  cases c with
  | create | move => exact hid.elim
  | call i m =>
    obtain ⟨tasks, -, hx⟩ := Option.map_eq_some_iff.mp hx
    cases hx
    cases m with
    | poll | cancel | cleanup => exact hid.elim
    | register r =>
      have hset := Registry.find?_setItem tasks id (Registry.registered w.state.view r)
      rw [if_pos (show id = (Registry.registered w.state.view r).dispatchId from hid.symm)] at hset
      exact Option.isSome_iff_exists.mpr ⟨_, hset⟩

variable {s : Desk} {c₁ c : Config system} {id : String}

theorem listed_of_held (h : Run Abreast (.init s) c) :
    Held Registers Removes id c.world.trace → (c.world.state.file.find? id).isSome := by
  refine run_inv (I := fun w => Held Registers Removes id w.trace → (w.state.file.find? id).isSome)
    (fun w e w' hi hg hf hh => ?_) (fun hh => by cases hh) h
  rw [hf.2] at hh
  rcases hh with hreg | ⟨hh, hrem⟩
  · exact listed_of_registers hf hreg
  · exact (kept_of_fires hg hf hrem).listed (hi hh)

/-- From one moment to a later one. -/
theorem kept_since (h : Run Abreast c₁ c) : ∃ since, c.world.trace = since ++ c₁.world.trace ∧
    ((∀ e ∈ since, ¬ Removes e id) → Kept id c₁.world.state.file c.world.state.file) := by
  refine run_inv (I := fun w : World system => ∃ since, w.trace = since ++ c₁.world.trace ∧
    ((∀ e ∈ since, ¬ Removes e id) → Kept id c₁.world.state.file w.state.file))
    (fun w e w' hi hg hf => ?_) ⟨[], rfl, fun _ => Kept.refl id _⟩ h
  obtain ⟨since, htrace, hkept⟩ := hi
  refine ⟨e :: since, by rw [hf.2, htrace, List.cons_append], fun hrem => ?_⟩
  rw [List.forall_mem_cons] at hrem
  exact (hkept hrem.2).trans (kept_of_fires hg hf hrem.1)

instance (id : String) : ∀ e : Event system, Decidable (Registers e id)
  | ⟨_, _, .call _ m, _⟩ => inferInstanceAs (Decidable (m.Registers id))
  | ⟨_, _, .create _, _⟩ | ⟨_, _, .move _, _⟩ => .isFalse not_false

instance (id : String) : ∀ e : Event system, Decidable (Removes e id)
  | ⟨_, _, .call _ (.cleanup _), (removed : List String)⟩ => inferInstanceAs (Decidable (id ∈ removed))
  | ⟨_, _, .call _ (.register _), _⟩ | ⟨_, _, .call _ .poll, _⟩ => .isFalse not_false
  | ⟨_, _, .call _ (.cancel _), _⟩ | ⟨_, _, .create _, _⟩ | ⟨_, _, .move _, _⟩ => .isFalse not_false

/-- No file, no registry, no process. -/
def emptyDesk : Desk where
  file := .empty
  memory _ := none
  records _ := none
  view :=
    { nowText := "", now := 0, mktime := fun _ => none, alive := fun _ => false,
      signal := fun _ => .gone, pidFile := fun _ => none }

/-- Two registries are made, then each registers a dispatch. -/
def bothRegister : List (Act system) :=
  solo system 0 (.create 0) 1 () ++ solo system 1 (.create 1) 1 () ++
    solo system 2 (.call 0 (.register ⟨"a", "h", "", none, "", 1, ""⟩)) 1 () ++
    solo system 3 (.call 1 (.register ⟨"b", "h", "", none, "", 2, ""⟩)) 1 ()

/-- The first registration is not in the file: the second registry was made before it. -/
theorem registration_lost : ¬ ∀ s, Lossless Free s := by
  intro h
  have hplay : (play Free (.init emptyDesk) bothRegister).any (fun c =>
      decide (Held Registers Removes "a" c.world.trace) &&
        (c.world.state.file.find? "a").isNone) = true := by
    decide +kernel
  obtain ⟨c, hrun, hc⟩ := exists_run_of_play hplay
  rw [Bool.and_eq_true, decide_eq_true_eq] at hc
  have hlisted := (h emptyDesk c c hrun .refl "a").1 hc.1
  rw [Option.isSome_iff_ne_none] at hlisted
  exact hlisted (Option.isNone_iff_eq_none.mp hc.2)

/-- **Nothing is lost** in a run in which every call that saves has a dictionary that is not behind the
file. -/
theorem lossless_of_abreast (s : Desk) : Lossless Abreast s := by
  intro c₁ c h₁ h id
  refine ⟨listed_of_held (h₁.trans h), fun since htrace hrem => ?_⟩
  obtain ⟨since', htrace', hkept⟩ := @kept_since _ _ id h
  obtain rfl := List.append_cancel_right (htrace.symm.trans htrace')
  exact hkept hrem

end Snapshots

end ClaudeSwarm.Hydra
