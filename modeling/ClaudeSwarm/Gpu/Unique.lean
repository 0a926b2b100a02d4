import ClaudeSwarm.Gpu.Discovery

/-!
# One active allocation for each GPU

`allocate_gpu` looks for an active row of the GPU and inserts one in a transaction that it opens
afterwards. Two calls that both look before either inserts give the GPU two active rows
(`two_active`).

* `Current`: what a call has read of a GPU is still so when it inserts.
* `allocateGpu_plain`: a call inserts only what it has read to be free.
* **`exclusive_of_current`**: where every insertion is current, no GPU ever has two active rows.
-/

namespace ClaudeSwarm.Gpu

open Interleave Data
open Python (PyError)

variable {T : Text}

/-- What an event has read of the active rows of a GPU. -/
def readActive (slot : Slot) : Event (system T) → Option (Option Nat)
  | ⟨_, _, .selectActive slot', x⟩ => if slot' = slot then some x else none
  | _ => none

/-- What call `n` has last read of the active rows of a GPU. -/
def lastRead (n : Nat) (slot : Slot) (w : World (system T)) : Option (Option Nat) :=
  (mine n w).findSome? (readActive slot)

/-- When a call inserts an allocation, what it has read of the GPU is still so: no other client's
allocation of it has become visible since. -/
def Current : Guard (system T) := fun w n _ c =>
  match c with
  | .insert r => lastRead n r.slot w =
      some (((w.state.view n).allocations.active r.slot).head?.map Allocation.id)
  | _ => True

instance (w : World (system T)) (n : Nat) (o : Op) (c : Cmd) : Decidable (Current w n o c) :=
  match c with
  | .insert _ => inferInstanceAs (Decidable (_ = _))
  | .time | .probe _ | .saveRow _ | .selectAvailable _ | .selectActive _ => .isTrue trivial
  | .release _ _ | .commit | .close => .isTrue trivial

/-- A write that is carried out, or not. -/
theorem all_of_change {α : Type} {n : Nat} {i : Env} {s s' : Database Tables} {a : α}
    {f : Tables → Tables} {x : Except PyError α} (h : s.All Tables.Exclusive)
    (hf : (f (s.view n)).Exclusive) (hx : change n i s a f = some (x, s')) :
    s'.All Tables.Exclusive := by
  unfold change at hx
  split at hx
  · rename_i s₁ hw
    cases hx
    exact h.write hf hw
  · split at hx <;> cases hx
    exact h

/-- **Commands.** What is inserted must be free; nothing else can make a GPU doubly allocated. -/
theorem exclusive_of_fires {w w' : World (system T)} {e : Event (system T)} (hf : Fires w e w')
    (h : w.state.All Tables.Exclusive)
    (hins : ∀ r, e.cmd = .insert r → (w.state.view e.call).Free r.slot) :
    w'.state.All Tables.Exclusive := by
  obtain ⟨n, o, c, x⟩ := e
  obtain ⟨⟨i, hx⟩, -⟩ := hf
  simp only at hx hins
  generalize w'.state = s' at hx ⊢
  cases c with
  | time | probe | selectAvailable | selectActive =>
    cases hx
    exact h
  | saveRow gpu => exact all_of_change h ((h.view n).saveRow gpu) hx
  | insert r => exact all_of_change h ((h.view n).insert (hins r rfl)) hx
  | release slot time => exact all_of_change h ((h.view n).release slot time) hx
  | commit =>
    cases hx
    exact h.commit n
  | close =>
    cases hx
    exact h.rollback n

/-- Under `Current`, no GPU is doubly allocated. -/
def allocating (T : Text) : Discipline (system T) where
  Guard := Current
  Inv w := w.state.All Tables.Exclusive
  Guar _ _ := True

/-- A program that keeps the discipline wherever it is run. -/
def Plain (T : Text) (α : Type) (p : P α) : Prop :=
  ∀ n o, Outline (allocating T) n o (fun _ _ => True) p fun _ => True

theorem plain_compositional : Prog.Compositional (Plain T) where
  ret a := fun n o => outline_ret fun _ _ _ => trivial
  bind hp hf := fun n o =>
    outline_bind (R := fun _ _ => True) (fun a => hf a n o)
      (outline_mono (fun _ _ h => h) (fun r _ _ _ => by cases r <;> trivial) (hp n o))

/-- The command inserts no allocation. -/
def Cmd.Keeps : Cmd → Prop
  | .insert _ => False
  | _ => True

/-- A command that inserts nothing. -/
theorem Cmd.Keeps.establishes {c : Cmd} (hc : c.Keeps) {n : Nat} {o : Op}
    {P : World (system T) → Prop} {P' : Resp c → World (system T) → Prop}
    (hP : ∀ w x w', P w → Fires w ⟨n, o, c, x⟩ w' → P' x w') :
    Establishes (allocating T) n o P c P' := by
  intro w x w' hi hw _ hf
  refine ⟨trivial, exclusive_of_fires hf hi fun r hr => ?_, hP w x w' hw hf⟩
  simp only at hr
  subst hr
  exact hc.elim

/-- A program that inserts nothing. -/
theorem plain_of_each {α : Type} {p : P α} (h : p.Each Cmd.Keeps) : Plain T α p := by
  intro n o
  exact outline_of_each stable_true (fun c hc => hc.establishes fun _ _ _ _ _ => trivial) h

theorem closing_plain {α : Type} {p : P α} (h : Plain T α p) : Plain T α (closing p) := by
  intro n o
  refine outline_finally (R := fun _ _ => True) (fun r => ?_) (h n o)
  have hclose : Plain T Unit (cmd .close) := plain_of_each ⟨trivial, fun _ => trivial⟩
  exact outline_mono (fun _ _ h => h) (fun r _ _ _ => by cases r <;> trivial) (hclose n o)

/-- A call that has read that a GPU is free inserts while it is. -/
theorem insert_plain (n : Nat) (o : Op) (r : Allocations.Request) {P' : World (system T) → Prop}
    (hread : ∀ w, P' w → lastRead n r.slot w = some none) :
    Establishes (allocating T) n o P' (.insert r) fun _ _ => True := by
  intro w x w' hi hw hg hf
  refine ⟨trivial, exclusive_of_fires hf hi fun r' hr' => ?_, trivial⟩
  cases hr'
  have hcur : lastRead n r.slot w =
      some (((w.state.view n).allocations.active r.slot).head?.map Allocation.id) := hg
  rw [hread w hw, Option.some_inj] at hcur
  exact List.head?_eq_none_iff.mp (Option.map_eq_none_iff.mp hcur.symm)

theorem allocateGpu_plain (host : String) (gpu_index : Int) (task_id model_name : String)
    (vram : Int) : Plain T Bool (allocateGpu host gpu_index task_id model_name vram) := by
  refine closing_plain fun n o => ?_
  have hstable : ∀ x, Stable (allocating T) n fun w => lastRead n ⟨host, gpu_index⟩ w = some x :=
    fun x => stable_mine (p := fun l => l.findSome? (readActive ⟨host, gpu_index⟩) = some x)
  refine outline_cmd (c := Cmd.selectActive ⟨host, gpu_index⟩)
    (fun x w => lastRead n ⟨host, gpu_index⟩ w = some x) hstable ?_ fun x => ?_
  · have hkeeps : Cmd.Keeps (.selectActive ⟨host, gpu_index⟩) := trivial
    refine hkeeps.establishes fun w x w' _ hf => ?_
    rw [lastRead, mine_own hf rfl]
    simp [readActive]
  cases x with
  | some id => exact outline_ret fun _ _ _ => trivial
  | none =>
    refine outline_cmd (c := Cmd.time) (fun _ w => lastRead n ⟨host, gpu_index⟩ w = some none)
      (fun _ => hstable none) ?_ fun now => ?_
    · have hkeeps : Cmd.Keeps .time := trivial
      refine hkeeps.establishes fun w x w' hw hf => ?_
      rw [lastRead, mine_own hf rfl]
      exact hw
    · refine outline_cmd (fun _ _ => True) (fun _ => stable_true)
        (insert_plain n o _ fun w hw => hw) fun x => ?_
      cases x with
      | error e => exact outline_raise fun _ _ _ => trivial
      | ok id =>
        have hcommit : Plain T Bool (cmd .commit >>= fun _ => .ret true) :=
          plain_of_each ⟨trivial, fun _ => trivial⟩
        exact hcommit n o

theorem each_saveEach : ∀ gpus, (saveEach gpus).Each Cmd.Keeps
  | [] => ⟨trivial, fun _ => trivial⟩
  | gpu :: gpus => by
    refine ⟨trivial, fun x => ?_⟩
    cases x with
    | error e => trivial
    | ok _ => exact each_saveEach gpus

theorem releaseGpu_plain (host : String) (gpu_index : Int) :
    Plain T Unit (releaseGpu host gpu_index) := by
  refine closing_plain (plain_of_each ⟨trivial, fun now => ⟨trivial, fun x => ?_⟩⟩)
  cases x with
  | error e => trivial
  | ok _ => exact ⟨trivial, fun _ => trivial⟩

/-- Every function of the database keeps the discipline. -/
theorem api_plain : (api T).All (Plain T) where
  time := plain_of_each ⟨trivial, fun _ => trivial⟩
  probeHost _ := plain_of_each ⟨trivial, fun _ => trivial⟩
  saveInventory _ := closing_plain (plain_of_each (each_saveEach _))
  getAvailableGpus _ _ := closing_plain (plain_of_each ⟨trivial, fun _ => trivial⟩)
  allocateGpu := allocateGpu_plain
  releaseGpu := releaseGpu_plain

theorem prog_plain (o : Op) : Plain T _ (prog T o) := by
  cases o with
  | allocate host gpu_index task_id model_name vram => exact allocateGpu_plain host gpu_index task_id model_name vram
  | release host gpu_index => exact releaseGpu_plain host gpu_index
  | schedule self q => exact schedule_all plain_compositional api_plain T self q

/-- **At most one active allocation.** In a run whose insertions are all current, no GPU has two
active rows, neither in what is committed nor in what is being written. -/
theorem exclusive_of_current {t : Tables} (ht : t.Exclusive) {c : Config (system T)}
    (h : Run Current (.init (Database.at_ t)) c) : c.world.state.All Tables.Exclusive := by
  have hsound := run_sound (D := allocating T) (Q := fun _ _ _ _ => True)
    (fun n o => outline_pre (fun _ _ _ => trivial) (prog_plain o n o)) (Database.all_at ht) h
  exact hsound.inv

/-! ## Two calls that look before either inserts -/

/-- The clock is at one second. -/
def tick : Env := ⟨1, ⟨"h", [], true, none⟩, false⟩

/-- No GPU, no allocation. -/
def noTables : Tables := ⟨Table.empty, Allocations.empty⟩

/-- Call 0 looks, call 1 allocates the GPU, call 0 goes on. -/
def bothLook : List (Act (system ascii)) :=
  solo (system ascii) 0 (.allocate "h" 0 "a" "" 0) 1 tick ++
    solo (system ascii) 1 (.allocate "h" 0 "b" "" 0) 5 tick ++ List.replicate 4 (.step 0 tick)

theorem bothLook_plays : (play Free (.init (Database.at_ noTables)) bothLook).isSome := by
  decide +kernel

theorem two_active : ∃ c : Config (system ascii), Run Free (.init (Database.at_ noTables)) c ∧
    ¬ c.world.state.committed.Exclusive := by
  refine ⟨played Free _ _ bothLook_plays, run_played bothLook_plays, fun h => ?_⟩
  have htwo : ((played Free _ _ bothLook_plays).world.state.committed.allocations.active
      ⟨"h", 0⟩).length = 2 := by
    decide +kernel
  have hone := h ⟨"h", 0⟩
  omega

/-- Two calls for one GPU, one after the other. -/
def oneByOne : List (Act (system ascii)) :=
  solo (system ascii) 0 (.allocate "h" 0 "a" "" 0) 5 tick ++
    solo (system ascii) 1 (.allocate "h" 0 "b" "" 0) 2 tick

theorem oneByOne_plays : (play Current (.init (Database.at_ noTables)) oneByOne).isSome := by
  decide +kernel

theorem exclusive_of_current_oneByOne :
    (played Current (.init (Database.at_ noTables)) oneByOne
      oneByOne_plays).world.state.All Tables.Exclusive :=
  exclusive_of_current (fun _ => Nat.zero_le _) (run_played oneByOne_plays)

end ClaudeSwarm.Gpu
