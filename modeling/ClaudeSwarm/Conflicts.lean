import ClaudeSwarm.Data.Dict
import ClaudeSwarm.Interleave.Alone
import ClaudeSwarm.Interleave.Span

/-!
# GPU slots in one file

Model of `claim_gpu_slot` and `release_gpu_slot` of `src/conflicts.py`. All slots are in one file, which a call reads,
changes and writes again as a whole, without a lock: two calls that both read before either writes lose the first
write, be it of the same slot (`slot_lost`) or of another one.

The key `gpu-{gpu_index}` of a slot is its index; a file that is not there has no slots. Who is alive is what
`get_live_agents` finds, and agents come and go (`Op.registry`).

* `Current`: what a call has read is still so when it writes, as far as it matters.
* `agree_computed`, `target_computed`: what a call writes is what it makes of what it has read.
* `owns_step`: the entry of a live agent's slot is its own.
* **`safe_of_current`**: in runs whose writes are current no slot has two live holders, and no call changes the entry of
  another slot.
-/

namespace ClaudeSwarm.Conflicts

open Data Interleave

/-! ## The code -/

/-- The entry of a slot. -/
structure Entry where
  agent_id : String
  model : String
  claimed_at : String
  deriving DecidableEq

/-- `data["slots"]`. -/
abbrev Slots := Dict Int Entry

/-- The agent in the entry of a slot. -/
def holder (slots : Slots) (gpu_index : Int) : Option String := (slots.get? gpu_index).map Entry.agent_id

/-- The file, and the ids of the agents that `get_live_agents` finds. -/
structure Shared where
  slots : Slots
  live : List String

/-- The steps of the functions; `registry` is what happens to the agents. -/
inductive Cmd where
  | read | getLiveAgents | now | write (data : Slots) | registry (live : List String)

/-- A write is answered by what it replaces, for the history; the code does not look at it. -/
abbrev Resp : Cmd → Type
  | .read | .write _ => Slots
  | .getLiveAgents => List String
  | .now => String
  | .registry _ => Unit

/-- The signature of the file and the registry. -/
abbrev fileSig : Sig := ⟨Cmd, Resp⟩

/-- One command; the time is an input. -/
def exec (time : String) (s : Shared) : (c : Cmd) → Option (Resp c × Shared)
  | .read => some (s.slots, s)
  | .getLiveAgents => some (s.live, s)
  | .now => some (time, s)
  | .write data => some (s.slots, { s with slots := data })
  | .registry live => some ((), { s with live := live })

/-- A program over the file. -/
abbrev P (α : Type) := Prog fileSig Empty α

/-- Issue one command. -/
abbrev cmd (c : Cmd) : P (Resp c) := Prog.cmd (S := fileSig) c

/-- The entry is set and the file written. -/
def record (data : Slots) (gpu_index : Int) (agent_id model : String) : P Bool := do
  let claimed_at ← cmd .now
  let _ ← cmd (.write (data.set gpu_index ⟨agent_id, model, claimed_at⟩))
  .ret true

/-- `claim_gpu_slot`. -/
def claimGpuSlot (gpu_index : Int) (agent_id model : String) : P Bool := do
  let data ← cmd .read
  match data.get? gpu_index with
  | none => record data gpu_index agent_id model
  | some existing =>
    if existing.agent_id ≠ agent_id then
      let live_ids ← cmd .getLiveAgents
      if existing.agent_id ∈ live_ids then .ret false else record data gpu_index agent_id model
    else record data gpu_index agent_id model

/-- `release_gpu_slot`. -/
def releaseGpuSlot (gpu_index : Int) (agent_id : String) : P Unit := do
  let data ← cmd .read
  if holder data gpu_index = some agent_id then do
    let _ ← cmd (.write (data.erase gpu_index))
    .ret ()
  else .ret ()

/-- The functions, and the agents that come and go. -/
inductive Op where
  | claim (gpu_index : Int) (agent_id model : String)
  | release (gpu_index : Int) (agent_id : String)
  | status
  | registry (live : List String)

/-- The slot of a call and its agent. -/
def Op.target : Op → Option (Int × String)
  | .claim gpu_index agent_id _ | .release gpu_index agent_id => some (gpu_index, agent_id)
  | .status | .registry _ => none

/-- The calls on one file. -/
abbrev system : System where
  sig := fileSig
  store := ⟨Shared, String, fun _ => exec⟩
  Err := Empty
  Op := Op
  Ret
    | .claim _ _ _ => Bool
    | .release _ _ | .registry _ => Unit
    | .status => Slots
  prog
    | .claim gpu_index agent_id model => claimGpuSlot gpu_index agent_id model
    | .release gpu_index agent_id => releaseGpuSlot gpu_index agent_id
    | .status => cmd .read
    | .registry live => cmd (.registry live)

/-! ## What should hold -/

/-- The agent and slot of a claim that is written. -/
def taken : Event system → Option (String × Int)
  | ⟨_, .claim gpu_index agent_id _, .write _, _⟩ => some (agent_id, gpu_index)
  | _ => none

/-- The agent and slot of a release that is written, or finds another's entry. -/
def freed : Event system → Option (String × Int)
  | ⟨_, .release gpu_index agent_id, .write _, _⟩ => some (agent_id, gpu_index)
  | ⟨_, .release gpu_index agent_id, .read, data⟩ =>
    if holder data gpu_index = some agent_id then none else some (agent_id, gpu_index)
  | _ => none

/-- The agent has claimed the slot and not released it. -/
def Holds (k : String × Int) (w : World system) : Prop :=
  Held (fun e k => taken e = some k) (fun e k => freed e = some k) k w.trace

/-- The same entries but for one slot. -/
def Agree (gpu_index : Int) (data data' : Slots) : Prop := ∀ k, k ≠ gpu_index → data.get? k = data'.get? k

/-- A write changes no entry but that of its call's slot. -/
def Frames : Event system → Prop
  | ⟨_, o, .write data, found⟩ =>
    ∀ gpu_index agent_id, o.target = some (gpu_index, agent_id) → Agree gpu_index found data
  | _ => True

/-- **Slots**: a claim that returned `True` was written, no slot has two live holders, and no call changes the entry of
another slot. -/
structure Safe (c : Config system) : Prop where
  claimed : ∀ n gpu_index agent_id model, c.Returned n (.claim gpu_index agent_id model) true →
    ∃ e ∈ c.world.trace, e.call = n ∧ taken e = some (agent_id, gpu_index)
  exclusive : ∀ gpu_index, ∀ a ∈ c.world.state.live, ∀ b ∈ c.world.state.live,
    Holds (a, gpu_index) c.world → Holds (b, gpu_index) c.world → a = b
  frames : ∀ e ∈ c.world.trace, Frames e

/-! ## What a call has read -/

/-- The file as an event has read it. -/
def readOf : Event system → Option Slots
  | ⟨_, _, .read, data⟩ => some data
  | _ => none

/-- The live agents as an event has found them. -/
def liveOf : Event system → Option (List String)
  | ⟨_, _, .getLiveAgents, live_ids⟩ => some live_ids
  | _ => none

/-- The file as call `n` has read it. -/
def lastRead (n : Nat) (w : World system) : Option Slots := (mine n w).findSome? readOf

/-- The live agents as call `n` has found them. -/
def lastLive (n : Nat) (w : World system) : Option (List String) := (mine n w).findSome? liveOf

/-- What a call has read is still so where it writes: the other slots have the entries it has read, and if the slot's
entry is that of another live agent, the call has read that, and found the agent alive if it has looked. An agent that
comes to life has its entry in the slots that it holds. -/
def Current : Guard system := fun w n o c =>
  match c with
  | .write _ => ∀ k ∈ o.target, ∃ data ∈ lastRead n w, Agree k.1 data w.state.slots ∧
      ∀ a ∈ holder w.state.slots k.1, a ≠ k.2 → a ∈ w.state.live →
        holder data k.1 = some a ∧ ∀ live_ids ∈ lastLive n w, a ∈ live_ids
  | .registry live => ∀ k ∈ w.trace.filterMap taken, k.1 ∈ live → k.1 ∉ w.state.live → Holds k w →
      holder w.state.slots k.2 = some k.1
  | _ => True

/-- What a call writes is made of what it has read, a claim where it has found nobody or nobody alive. -/
def Computed : Guard system := fun w n o c =>
  match c, o with
  | .write data, .claim gpu_index agent_id model => ∃ read, lastRead n w = some read ∧
      (∃ claimed_at, data = read.set gpu_index ⟨agent_id, model, claimed_at⟩) ∧
      ∀ a, holder read gpu_index = some a → a ≠ agent_id → ∃ live_ids, lastLive n w = some live_ids ∧ a ∉ live_ids
  | .write data, .release gpu_index agent_id => ∃ read, lastRead n w = some read ∧ data = read.erase gpu_index ∧
      holder read gpu_index = some agent_id
  | .write _, _ => False
  | _, _ => True

/-! ## The functions -/

section

variable {w w' : World system} {e : Event system} {n : Nat} {o : Op}

theorem lastRead_own (hf : Fires w e w') (hn : e.call = n) : lastRead n w' = (readOf e).or (lastRead n w) := by
  rw [lastRead, mine_own hf hn, List.findSome?_cons]
  cases readOf e <;> rfl

theorem lastLive_own (hf : Fires w e w') (hn : e.call = n) : lastLive n w' = (liveOf e).or (lastLive n w) := by
  rw [lastLive, mine_own hf hn, List.findSome?_cons]
  cases liveOf e <;> rfl

/-- The calls write what they compute. -/
def computing : Discipline system := ⟨Current, fun _ => True, fun w e => Computed w e.call e.op e.cmd⟩

/-- A claim that returns `True` was written. -/
def Claimed (n : Nat) : (o : Op) → Except Empty (system.Ret o) → World system → Prop
  | .claim gpu_index agent_id _, .ok true, w => ∃ e ∈ w.trace, e.call = n ∧ taken e = some (agent_id, gpu_index)
  | _, _, _ => True

/-- The call has read `data`, and found nobody else in the slot, or nobody alive. -/
def Clear (n : Nat) (gpu_index : Int) (agent_id : String) (data : Slots) (w : World system) : Prop :=
  lastRead n w = some data ∧ ∀ a, holder data gpu_index = some a → a ≠ agent_id →
    ∃ live_ids, lastLive n w = some live_ids ∧ a ∉ live_ids

theorem stable_clear {gpu_index : Int} {agent_id : String} {data : Slots} :
    Stable computing n (Clear n gpu_index agent_id data) :=
  stable_mine (p := fun l => l.findSome? readOf = some data ∧ ∀ a, holder data gpu_index = some a → a ≠ agent_id →
    ∃ live_ids, l.findSome? liveOf = some live_ids ∧ a ∉ live_ids)

theorem stable_lastRead {data : Slots} : Stable computing n fun w => lastRead n w = some data :=
  stable_mine (p := fun l => l.findSome? readOf = some data)

/-- The file is read. -/
theorem establishes_read {R : World system → Prop} :
    Establishes computing n o R .read fun data w => lastRead n w = some data := by
  intro w data w' _ _ _ hf
  refine ⟨?_, trivial, lastRead_own hf rfl⟩
  cases o <;> exact trivial

theorem record_outline {gpu_index : Int} {agent_id model : String} {data : Slots} :
    Outline computing n (.claim gpu_index agent_id model) (Claimed n (.claim gpu_index agent_id model))
      (record data gpu_index agent_id model) (Clear n gpu_index agent_id data) := by
  refine outline_cmd (fun _ => Clear n gpu_index agent_id data) (fun _ => stable_clear) ?_ fun claimed_at => ?_
  · intro w x w' _ hw _ hf
    refine ⟨trivial, trivial, (lastRead_own hf rfl).trans hw.1, fun a ha hne => ?_⟩
    obtain ⟨live_ids, hlive, hdead⟩ := hw.2 a ha hne
    exact ⟨live_ids, (lastLive_own hf rfl).trans hlive, hdead⟩
  refine outline_cmd (fun _ w => ∃ e ∈ w.trace, e.call = n ∧ taken e = some (agent_id, gpu_index))
    (fun _ => Lasting.stable lasting_executed) ?_ fun _ => outline_ret fun _ _ hw => hw
  intro w x w' _ hw _ hf
  exact ⟨⟨data, hw.1, ⟨claimed_at, rfl⟩, hw.2⟩, trivial, executed_now hf ⟨rfl, rfl⟩⟩

theorem claimGpuSlot_outline {gpu_index : Int} {agent_id model : String} :
    Outline computing n (.claim gpu_index agent_id model) (Claimed n (.claim gpu_index agent_id model))
      (claimGpuSlot gpu_index agent_id model) fun _ => True := by
  refine outline_cmd (fun data w => lastRead n w = some data) (fun _ => stable_lastRead) establishes_read fun data => ?_
  have hholder : ∀ a, holder data gpu_index = some a →
      ∃ existing, data.get? gpu_index = some existing ∧ existing.agent_id = a :=
    fun a ha => Option.map_eq_some_iff.mp ha
  cases hget : data.get? gpu_index with
  | none =>
    refine outline_pre (fun w _ hw => ⟨hw, fun a ha => ?_⟩) record_outline
    obtain ⟨existing, hexisting, -⟩ := hholder a ha
    rw [hget] at hexisting
    cases hexisting
  | some existing =>
    have hother : ∀ a, holder data gpu_index = some a → existing.agent_id = a := fun a ha => by
      obtain ⟨_, hexisting, rfl⟩ := hholder a ha
      rw [hget] at hexisting
      cases hexisting
      rfl
    by_cases hown : existing.agent_id = agent_id
    · simp only [hown, ne_eq, not_true_eq_false, if_false]
      exact outline_pre (fun w _ hw => ⟨hw, fun a ha hne => absurd ((hother a ha).symm.trans hown) hne⟩) record_outline
    · simp only [ne_eq, hown, not_false_eq_true, if_true]
      refine outline_cmd (c := Cmd.getLiveAgents)
        (fun live_ids w => lastRead n w = some data ∧ lastLive n w = some live_ids)
        (fun live_ids =>
          stable_mine (p := fun l => l.findSome? readOf = some data ∧ l.findSome? liveOf = some live_ids))
        (fun w x w' _ hw _ hf => ?_) fun live_ids => ?_
      · exact ⟨trivial, trivial, (lastRead_own hf rfl).trans hw, lastLive_own hf rfl⟩
      by_cases hlive : existing.agent_id ∈ live_ids
      · simp only [hlive, if_true]
        exact outline_ret fun _ _ _ => trivial
      · simp only [hlive, if_false]
        exact outline_pre (fun w _ hw => ⟨hw.1, fun a ha _ => ⟨live_ids, hw.2, hother a ha ▸ hlive⟩⟩) record_outline

theorem releaseGpuSlot_outline {gpu_index : Int} {agent_id : String} :
    Outline computing n (.release gpu_index agent_id) (Claimed n (.release gpu_index agent_id))
      (releaseGpuSlot gpu_index agent_id) fun _ => True := by
  refine outline_cmd (fun data w => lastRead n w = some data) (fun _ => stable_lastRead) establishes_read fun data => ?_
  by_cases hown : holder data gpu_index = some agent_id
  · simp only [hown, if_true]
    exact outline_cmd (fun _ _ => True) (fun _ => stable_true)
      (fun w x w' _ hw _ hf => ⟨⟨data, hw, rfl, hown⟩, trivial, trivial⟩) fun _ => outline_ret fun _ _ _ => trivial
  · simp only [hown, if_false]
    exact outline_ret fun _ _ _ => trivial

theorem prog_outline (n : Nat) (o : Op) : Outline computing n o (Claimed n o) (system.prog o) (Untouched n) := by
  refine outline_pre (P := fun _ => True) (fun _ _ _ => trivial) ?_
  cases o with
  | claim gpu_index agent_id model => exact claimGpuSlot_outline
  | release gpu_index agent_id => exact releaseGpuSlot_outline
  | status =>
    exact ⟨fun _ _ => True, fun _ => stable_true, fun _ _ _ _ _ _ _ => ⟨trivial, trivial, trivial⟩,
      fun _ _ _ _ => trivial⟩
  | registry live =>
    exact ⟨fun _ _ => True, fun _ => stable_true, fun _ _ _ _ _ _ _ => ⟨trivial, trivial, trivial⟩,
      fun _ _ _ _ => trivial⟩

/-! ## The invariant -/

/-- The slots that live agents hold have their entries. -/
def Owns (w : World system) : Prop := ∀ k, k.1 ∈ w.state.live → Holds k w → holder w.state.slots k.2 = some k.1

theorem holder_set {slots : Slots} {gpu_index : Int} {entry : Entry} :
    holder (slots.set gpu_index entry) gpu_index = some entry.agent_id := by
  rw [holder, Dict.get?_set, if_pos rfl, Option.map_some]

/-- What a call writes leaves the other slots as it has read them. -/
theorem agree_computed {data : Slots} {gpu_index : Int} {agent_id : String} (hc : Computed w n o (.write data))
    (ht : o.target = some (gpu_index, agent_id)) : ∃ read, lastRead n w = some read ∧ Agree gpu_index read data := by
  cases o with
  | claim =>
    cases ht
    obtain ⟨read, hread, ⟨claimed_at, rfl⟩, -⟩ := hc
    exact ⟨read, hread, fun k hk => by rw [Dict.get?_set, if_neg hk]⟩
  | release =>
    cases ht
    obtain ⟨read, hread, rfl, -⟩ := hc
    exact ⟨read, hread, fun k hk => by rw [Dict.get?_erase, if_neg hk]⟩
  | status | registry => cases ht

/-- A call that writes has a slot. -/
theorem target_computed {data : Slots} (hc : Computed w n o (.write data)) :
    ∃ gpu_index agent_id, o.target = some (gpu_index, agent_id) := by
  cases o with
  | claim gpu_index agent_id model => exact ⟨gpu_index, agent_id, rfl⟩
  | release gpu_index agent_id => exact ⟨gpu_index, agent_id, rfl⟩
  | status | registry => exact hc.elim

/-- What a current write leaves of the other slots. -/
theorem agree_current {data : Slots} {gpu_index : Int} {agent_id : String} (hg : Current w n o (.write data))
    (hc : Computed w n o (.write data)) (ht : o.target = some (gpu_index, agent_id)) :
    Agree gpu_index w.state.slots data := by
  obtain ⟨read, hread, hagree, -⟩ := hg _ ht
  obtain ⟨read', hread', hwrite⟩ := agree_computed hc ht
  rw [hread] at hread'
  cases hread'
  exact fun k hk => (hagree k hk).symm.trans (hwrite k hk)

/-- A current write finds no other live agent's entry in its slot. -/
theorem free_current {data : Slots} {gpu_index : Int} {agent_id a : String} (hg : Current w n o (.write data))
    (hc : Computed w n o (.write data)) (ht : o.target = some (gpu_index, agent_id))
    (ha : holder w.state.slots gpu_index = some a) (hlive : a ∈ w.state.live) : a = agent_id := by
  by_contra hne
  obtain ⟨read, hread, -, hseen⟩ := hg _ ht
  obtain ⟨hholder, hfound⟩ := hseen a ha hne hlive
  cases o with
  | claim =>
    cases ht
    obtain ⟨read', hread', -, hclear⟩ := hc
    cases hread.symm.trans hread'
    obtain ⟨live_ids, hlast, hdead⟩ := hclear a hholder hne
    exact hdead (hfound live_ids hlast)
  | release =>
    cases ht
    obtain ⟨read', hread', -, hown⟩ := hc
    cases hread.symm.trans hread'
    exact hne (Option.some.inj (hholder.symm.trans hown))
  | status | registry => cases ht

theorem exists_of_holds {k : String × Int} (h : Holds k w) : k ∈ w.trace.filterMap taken := by
  unfold Holds at h
  generalize w.trace = l at h ⊢
  induction l with
  | nil => exact h.elim
  | cons e l ih =>
    rw [List.mem_filterMap]
    rcases h with ht | ⟨h, -⟩
    · exact ⟨e, List.mem_cons_self, ht⟩
    · obtain ⟨e', he', ht⟩ := List.mem_filterMap.mp (ih h)
      exact ⟨e', List.mem_cons_of_mem e he', ht⟩

/-- Who holds a slot after a command. -/
theorem holds_fires {k : String × Int} (hf : Fires w e w') (h : Holds k w') :
    taken e = some k ∨ Holds k w ∧ freed e ≠ some k := by
  unfold Holds at h
  rwa [hf.2] at h

/-- Nothing is taken but by a write. -/
theorem write_of_taken {k : String × Int} (h : taken e = some k) : ∃ data, e.cmd = .write data := by
  obtain ⟨n, o, c, x⟩ := e
  cases c with
  | write data => exact ⟨data, rfl⟩
  | read | getLiveAgents | now | registry =>
    cases o <;> cases h

/-- A write. -/
theorem owns_write {data : Slots} {x : Slots} (h : Owns w) (hg : Current w n o (.write data))
    (hc : Computed w n o (.write data)) (hf : Fires w ⟨n, o, .write data, x⟩ w') : Owns w' := by
  have hstate : w'.state = { w.state with slots := data } := by
    obtain ⟨⟨i, hx⟩, -⟩ := hf
    exact (Prod.mk.inj (Option.some.inj hx)).2.symm
  intro k hlive hholds
  rw [hstate] at hlive ⊢
  obtain ⟨gpu_index, agent_id, ht⟩ := target_computed hc
  rcases holds_fires hf hholds with htaken | ⟨hholds, hkept⟩
  · cases o with
    | claim =>
      cases htaken
      obtain ⟨read, -, ⟨claimed_at, rfl⟩, -⟩ := hc
      exact holder_set
    | release | status | registry => cases htaken
  have hown := h k hlive hholds
  by_cases hslot : k.2 = gpu_index
  · rw [hslot] at hown ⊢
    have hagent := free_current hg hc ht hown hlive
    cases o with
    | claim =>
      cases ht
      obtain ⟨read, -, ⟨claimed_at, rfl⟩, -⟩ := hc
      rw [hagent]
      exact holder_set
    | release =>
      cases ht
      exact absurd (congrArg some (Prod.ext hagent.symm hslot.symm)) hkept
    | status | registry => cases ht
  · rw [holder, ← agree_current hg hc ht k.2 hslot]
    exact hown

/-- **A command** that is current keeps the entries of live holders. -/
theorem owns_step (h : Owns w) (hg : Current w e.call e.op e.cmd) (hc : Computed w e.call e.op e.cmd)
    (hf : Fires w e w') : Owns w' := by
  obtain ⟨n, o, c, x⟩ := e
  have hrest : (∀ data, c ≠ .write data) → ∀ k, Holds k w' → Holds k w := fun hquiet k hk => by
    rcases holds_fires hf hk with ht | ⟨hk, -⟩
    · obtain ⟨data, hdata⟩ := write_of_taken ht
      exact absurd hdata (hquiet data)
    · exact hk
  cases c with
  | write data => exact owns_write h hg hc hf
  | read | getLiveAgents | now =>
    have hstate : w'.state = w.state := by
      obtain ⟨⟨i, hx⟩, -⟩ := hf
      exact (Prod.mk.inj (Option.some.inj hx)).2.symm
    intro k hlive hholds
    rw [hstate] at hlive ⊢
    exact h k hlive (hrest (fun _ h => by cases h) k hholds)
  | registry live =>
    have hstate : w'.state = { w.state with live := live } := by
      obtain ⟨⟨i, hx⟩, -⟩ := hf
      exact (Prod.mk.inj (Option.some.inj hx)).2.symm
    intro k hlive hholds
    rw [hstate] at hlive ⊢
    have hbefore := hrest (fun _ h => by cases h) k hholds
    by_cases hold : k.1 ∈ w.state.live
    · exact h k hold hbefore
    · exact hg k (exists_of_holds hbefore) hlive hold hbefore

theorem frames_step (hg : Current w e.call e.op e.cmd) (hc : Computed w e.call e.op e.cmd) (hf : Fires w e w') :
    Frames e := by
  obtain ⟨n, o, c, x⟩ := e
  cases c with
  | write data =>
    obtain ⟨⟨i, hx⟩, -⟩ := hf
    have hfound : x = w.state.slots := (Prod.mk.inj (Option.some.inj hx)).1.symm
    intro gpu_index agent_id ht
    rw [hfound]
    exact agree_current hg hc ht
  | read | getLiveAgents | now | registry => exact trivial

/-- **Slots**: in a run whose writes are current no slot has two live holders, and no call changes the entry of another
slot. -/
theorem safe_of_current {s : Shared} {c : Config system} (h : Run Current (.init s) c) : Safe c := by
  have hsound := run_sound (D := computing) prog_outline trivial h
  have hcomputed := run_obeys (D := computing) (K := Computed) (fun _ _ hc => hc) prog_outline trivial h
  have hinv : Owns c.world ∧ ∀ e ∈ c.world.trace, Frames e := by
    refine run_inv (I := fun w => Owns w ∧ ∀ e ∈ w.trace, Frames e) (a := .init s) (fun w e w' hi hg hf => ?_)
      ⟨fun k _ hk => False.elim hk, fun e he => absurd he List.not_mem_nil⟩ hcomputed
    refine ⟨owns_step hi.1 hg.1 hg.2 hf, fun d hd => ?_⟩
    rw [hf.2, List.mem_cons] at hd
    rcases hd with rfl | hd
    · exact frames_step hg.1 hg.2 hf
    · exact hi.2 d hd
  refine ⟨fun n gpu_index agent_id model hret => hsound.returned hret,
    fun gpu_index a ha b hb hholds hholds' => ?_, hinv.2⟩
  exact Option.some.inj ((hinv.1 (a, gpu_index) ha hholds).symm.trans (hinv.1 (b, gpu_index) hb hholds'))

end

/-! ## Two agents -/

instance (gpu_index : Int) (data data' : Slots) : Decidable (Agree gpu_index data data') :=
  decidable_of_iff (∀ k ∈ data.keys ++ data'.keys, k ≠ gpu_index → data.get? k = data'.get? k) ⟨fun h k hk => by
    by_cases hmem : k ∈ data.keys ++ data'.keys
    · exact h k hmem hk
    · rw [List.mem_append, not_or] at hmem
      have hnone : ∀ d : Slots, k ∉ d.keys → d.get? k = none := fun d hd => by
        cases hget : d.get? k with
        | none => rfl
        | some v => exact absurd (Dict.mem_keys_iff.mpr ⟨v, hget⟩) hd
      rw [hnone data hmem.1, hnone data' hmem.2], fun h k _ => h k⟩

instance (k : String × Int) (w : World system) : Decidable (Holds k w) := decidableHeld _ _ k _

instance (w : World system) (n : Nat) (o : Op) (c : Cmd) : Decidable (Current w n o c) :=
  match c with
  | .write _ => inferInstanceAs (Decidable (∀ k ∈ o.target, ∃ data ∈ lastRead n w, Agree k.1 data w.state.slots ∧
      ∀ a ∈ holder w.state.slots k.1, a ≠ k.2 → a ∈ w.state.live →
        holder data k.1 = some a ∧ ∀ live_ids ∈ lastLive n w, a ∈ live_ids))
  | .registry live => inferInstanceAs (Decidable (∀ k ∈ w.trace.filterMap taken, k.1 ∈ live → k.1 ∉ w.state.live →
      Holds k w → holder w.state.slots k.2 = some k.1))
  | .read | .getLiveAgents | .now => .isTrue trivial

/-- No slots, and some agents. -/
def unclaimed (live : List String) : Shared := ⟨.empty, live⟩

/-- Both read, then both write. -/
def bothRead : List (Act system) :=
  solo system 0 (.claim 0 "a" "") 1 "t" ++ solo system 1 (.claim 0 "b" "") 3 "t" ++ List.replicate 2 (.step 0 "t")

theorem bothRead_plays : (play Free (.init (unclaimed ["a", "b"])) bothRead).isSome := by
  decide +kernel

/-- Both claim the slot. -/
theorem slot_lost : ¬ ∀ (live : List String) (c : Config system), Run Free (.init (unclaimed live)) c → Safe c := by
  intro hall
  have hsafe := hall _ _ (run_played bothRead_plays)
  have hlive : ∀ a ∈ ["a", "b"], a ∈ (played Free _ _ bothRead_plays).world.state.live := by decide +kernel
  have hholds : ∀ a ∈ ["a", "b"], Holds (a, 0) (played Free _ _ bothRead_plays).world := by decide +kernel
  have hsame := hsafe.exclusive 0 "a" (hlive "a" (by decide)) "b" (hlive "b" (by decide)) (hholds "a" (by decide))
    (hholds "b" (by decide))
  exact absurd hsame (by decide)

/-- One claims the slot, the other does not get it; the first goes, and the other claims it. -/
def oneByOne : List (Act system) :=
  solo system 0 (.claim 0 "a" "") 3 "t" ++ solo system 1 (.claim 0 "b" "") 2 "t" ++
    solo system 2 (.registry ["b"]) 1 "t" ++ solo system 3 (.claim 0 "b" "") 4 "t"

theorem oneByOne_plays : (play Current (.init (unclaimed ["a", "b"])) oneByOne).isSome := by
  decide +kernel

/-- `safe_of_current` of these calls. -/
theorem safe_of_current_oneByOne : Safe (played Current _ _ oneByOne_plays) :=
  safe_of_current (run_played oneByOne_plays)

end ClaudeSwarm.Conflicts
