import ClaudeSwarm.GpuEvents
import Mathlib.Data.Finset.Disjoint

/-!
# The view and the events

What `FleetGpuView` knows (`src/gpu_events_consumer.py`) after any events that `_apply` can read, as a function of their
history, and `can_schedule`, which asks it. A pod is known by its key, `namespace/pod`. `Since p q` says of a history that
something was `p` and nothing after it `q`.

An event about a GPU with a negative index, which is what a missing one counts as, says nothing.

* `mem_ready_record`, `mem_crashloop_record`, `mem_vram_record`: what one event does to the sets of its host.
* `describes_record`: an event keeps the view as its history says.
* **`view_describes`**: after any readable events, for every host: the ready pods, those in a crash loop and the GPUs
  high in VRAM are what the history of the host's events says, and `can_schedule` answers by them.
* `negative_gpu`: a GPU with a negative index is not among them.
-/

namespace ClaudeSwarm.GpuEvents

open Data

variable {F : Type}

/-! ## The query -/

/-- `can_schedule`; `fresh` says whether the last heartbeat was less than `STALE_HEARTBEAT_S` ago. -/
def canSchedule (fresh : F → Bool) (state : View F) (host : String) (gpu_index : Option Int) : Bool :=
  match state.get? host with
  | none => true
  | some hs =>
    if !fresh hs.last_heartbeat_ts then true
    else if hs.crashloop_pods ≠ ∅ then false
    else
      match gpu_index with
      | some gpu_index => decide (gpu_index ∉ hs.vram_high_gpus)
      | none => decide (hs.vram_high_gpus = ∅)

/-- `_apply` of events one after another, each at its time. -/
def applyAll (R : Runtime F) (events : List (Fields × F)) (state : View F) : Option (View F) :=
  events.foldlM (fun state e => apply R e.2 e.1 state) state

/-- What is read of the events. -/
def readAll (R : Runtime F) (events : List (Fields × F)) : List (Parsed F) :=
  events.filterMap fun e => parse R e.2 e.1

/-! ## Histories -/

/-- Something was `p`, and nothing after it `q`. -/
def Since {α : Type} (p q : α → Prop) (history : List α) : Prop :=
  ∃ before e after, history = before ++ e :: after ∧ p e ∧ ∀ e' ∈ after, ¬ q e'

/-- **One more event** is itself `p`, or leaves it so unless it is `q`. -/
theorem since_append {α : Type} {p q : α → Prop} {history : List α} {e : α} :
    Since p q (history ++ [e]) ↔ p e ∨ (Since p q history ∧ ¬ q e) := by
  constructor
  · rintro ⟨before, x, after, h, hp, hq⟩
    rcases List.eq_nil_or_concat' after with rfl | ⟨init, last, rfl⟩
    · obtain ⟨-, hx⟩ := List.append_inj' h rfl
      rw [← (List.cons.inj hx).1] at hp
      exact .inl hp
    · rw [← List.cons_append, ← List.append_assoc] at h
      obtain ⟨hinit, hlast⟩ := List.append_inj' h rfl
      rw [← (List.cons.inj hlast).1] at hq
      exact .inr ⟨⟨before, x, init, hinit, hp, fun e' he' => hq e' (List.mem_append_left _ he')⟩, hq e (by simp)⟩
  · rintro (hp | ⟨⟨before, x, after, rfl, hp, hq⟩, hne⟩)
    · exact ⟨history, e, [], rfl, hp, by simp⟩
    · refine ⟨before, x, after ++ [e], by simp, hp, fun e' he' => ?_⟩
      rcases List.mem_append.mp he' with he' | he'
      · exact hq e' he'
      · rw [List.mem_singleton.mp he']
        exact hne

/-- An event of one of the types, about a pod of a host. -/
def OfPod (types : List String) (host key : String) (p : Parsed F) : Prop :=
  p.host = host ∧ p.key = key ∧ p.ev_type ∈ types

/-- An event of one of the types, about a GPU of a host. -/
def OfGpu (types : List String) (host : String) (gpu : Int) (p : Parsed F) : Prop :=
  p.host = host ∧ p.gpu_idx = gpu ∧ p.ev_type ∈ types

/-- The last `pod_ready`, `pod_notready` or `pod_crashloop` of the pod is `pod_ready`. -/
def Ready (history : List (Parsed F)) (host key : String) : Prop :=
  Since (OfPod ["pod_ready"] host key) (OfPod ["pod_ready", "pod_notready", "pod_crashloop"] host key) history

/-- The pod had a `pod_crashloop` that no `pod_ready` followed. -/
def Crashlooping (history : List (Parsed F)) (host key : String) : Prop :=
  Since (OfPod ["pod_crashloop"] host key) (OfPod ["pod_ready"] host key) history

/-- The last `vram_high` or `vram_normal` of the GPU is `vram_high`. -/
def VramHigh (history : List (Parsed F)) (host : String) (gpu : Int) : Prop :=
  Since (OfGpu ["vram_high"] host gpu) (OfGpu ["vram_high", "vram_normal"] host gpu) history

/-- The time of the last heartbeat of the host, or zero if there was none. -/
def HeartbeatAt (R : Runtime F) (history : List (Parsed F)) (host : String) (ts : F) : Prop :=
  Since (fun p => p.host = host ∧ p.ev_type = "heartbeat" ∧ p.ts = ts)
    (fun p => p.host = host ∧ p.ev_type = "heartbeat") history ∨
  (∀ p ∈ history, ¬ (p.host = host ∧ p.ev_type = "heartbeat")) ∧ ts = R.zero

/-! ## One event -/

variable {hs : HostState F} {p : Parsed F} {key : String} {gpu : Int}

theorem mem_ready_record : key ∈ (hs.record p).ready_pods ↔ key ≠ "" ∧ OfPod ["pod_ready"] p.host key p ∨
    key ∈ hs.ready_pods ∧ ¬ (key ≠ "" ∧ OfPod ["pod_ready", "pod_notready", "pod_crashloop"] p.host key p) := by
  unfold HostState.record OfPod
  dsimp only
  split_ifs <;> grind

theorem mem_crashloop_record : key ∈ (hs.record p).crashloop_pods ↔ key ≠ "" ∧ OfPod ["pod_crashloop"] p.host key p ∨
    key ∈ hs.crashloop_pods ∧ ¬ (key ≠ "" ∧ OfPod ["pod_ready"] p.host key p) := by
  unfold HostState.record OfPod
  dsimp only
  split_ifs <;> grind

theorem mem_vram_record : gpu ∈ (hs.record p).vram_high_gpus ↔ 0 ≤ gpu ∧ OfGpu ["vram_high"] p.host gpu p ∨
    gpu ∈ hs.vram_high_gpus ∧ ¬ (0 ≤ gpu ∧ OfGpu ["vram_high", "vram_normal"] p.host gpu p) := by
  unfold HostState.record OfGpu
  dsimp only
  split_ifs <;> grind

theorem heartbeat_record : (hs.record p).last_heartbeat_ts =
    if p.ev_type = "heartbeat" then p.ts else hs.last_heartbeat_ts := by
  unfold HostState.record
  dsimp only
  split_ifs <;> rfl

/-- No pod is both. -/
theorem disjoint_record (h : ∀ key, key ∈ hs.ready_pods → key ∉ hs.crashloop_pods) (key : String)
    (hkey : key ∈ (hs.record p).ready_pods) : key ∉ (hs.record p).crashloop_pods := by
  rw [mem_crashloop_record]
  have hold := h key
  rcases mem_ready_record.mp hkey with ⟨hne, -, hpod, htype⟩ | ⟨hmem, hnot⟩
  · have hready : p.ev_type = "pod_ready" := List.mem_singleton.mp htype
    rintro (⟨-, -, -, hcrash⟩ | ⟨-, hnot⟩)
    · rw [hready] at hcrash
      exact absurd hcrash (by decide)
    · exact hnot ⟨hne, rfl, hpod, htype⟩
  · rintro (⟨hne, -, hpod, hcrash⟩ | ⟨hcrash, -⟩)
    · exact hnot ⟨hne, rfl, hpod, by rw [List.mem_singleton.mp hcrash]; decide⟩
    · exact hold hmem hcrash

/-! ## The view, by its history -/

/-- The state of a host is what the history of its events says. -/
structure Host (R : Runtime F) (history : List (Parsed F)) (host : String) (hs : HostState F) : Prop where
  ready : ∀ key, key ∈ hs.ready_pods ↔ key ≠ "" ∧ Ready history host key
  crashloop : ∀ key, key ∈ hs.crashloop_pods ↔ key ≠ "" ∧ Crashlooping history host key
  vram : ∀ gpu, gpu ∈ hs.vram_high_gpus ↔ 0 ≤ gpu ∧ VramHigh history host gpu
  heartbeat : HeartbeatAt R history host hs.last_heartbeat_ts
  disjoint : ∀ key, key ∈ hs.ready_pods → key ∉ hs.crashloop_pods

/-- The view is what the history says: a host is known once there was an event of it. -/
structure Describes (R : Runtime F) (history : List (Parsed F)) (state : View F) : Prop where
  known : ∀ host, state.get? host = none ↔ ∀ p ∈ history, p.host ≠ host
  host : ∀ host hs, state.get? host = some hs → Host R history host hs

variable {history : List (Parsed F)} {state : View F} {host : String}

/-- A host without events. -/
theorem host_new (h : ∀ p ∈ history, p.host ≠ host) : Host R history host (.new R host) := by
  have hnone : ∀ {a b : Parsed F → Prop}, (∀ p, a p → p.host = host) → ¬ Since a b history := by
    rintro a b ha ⟨before, e, after, rfl, he, -⟩
    exact h e (List.mem_append_right _ List.mem_cons_self) (ha e he)
  refine ⟨fun key => ?_, fun key => ?_, fun gpu => ?_, .inr ⟨fun p hp hpq => h p hp hpq.1, rfl⟩, fun key hkey => ?_⟩
  · exact ⟨fun hkey => absurd hkey (Finset.notMem_empty _), fun hkey => absurd hkey.2 (hnone fun _ hp => hp.1)⟩
  · exact ⟨fun hkey => absurd hkey (Finset.notMem_empty _), fun hkey => absurd hkey.2 (hnone fun _ hp => hp.1)⟩
  · exact ⟨fun hgpu => absurd hgpu (Finset.notMem_empty _), fun hgpu => absurd hgpu.2 (hnone fun _ hp => hp.1)⟩
  · exact absurd hkey (Finset.notMem_empty _)

/-- **An event keeps the state of its host as the history says.** -/
theorem Host.record (h : Host R history p.host hs) : Host R (history ++ [p]) p.host (hs.record p) where
  ready key := by
    have hsince : Ready (history ++ [p]) p.host key ↔ _ := since_append
    rw [mem_ready_record, h.ready, hsince, Ready]
    tauto
  crashloop key := by
    have hsince : Crashlooping (history ++ [p]) p.host key ↔ _ := since_append
    rw [mem_crashloop_record, h.crashloop, hsince, Crashlooping]
    tauto
  vram gpu := by
    have hsince : VramHigh (history ++ [p]) p.host gpu ↔ _ := since_append
    rw [mem_vram_record, h.vram, hsince, VramHigh]
    tauto
  heartbeat := by
    rw [heartbeat_record]
    split
    · rename_i hbeat
      exact .inl (since_append.mpr (.inl ⟨rfl, hbeat, rfl⟩))
    · rename_i hbeat
      rcases h.heartbeat with hsince | ⟨hnone, hzero⟩
      · exact .inl (since_append.mpr (.inr ⟨hsince, fun hp => hbeat hp.2⟩))
      · refine .inr ⟨fun p' hp' => ?_, hzero⟩
        rcases List.mem_append.mp hp' with hp' | hp'
        · exact hnone p' hp'
        · rw [List.mem_singleton.mp hp']
          exact fun hp => hbeat hp.2
  disjoint := disjoint_record h.disjoint

/-- An event of another host says nothing about this one. -/
theorem Host.other (h : Host R history host hs) (hne : p.host ≠ host) : Host R (history ++ [p]) host hs := by
  have hsame : ∀ {a b : Parsed F → Prop}, (∀ e, a e → e.host = host) → (∀ e, b e → e.host = host) →
      (Since a b (history ++ [p]) ↔ Since a b history) := fun ha hb => by
    rw [since_append]
    exact ⟨fun hor => hor.elim (fun hp => absurd (ha p hp) hne) And.left, fun hs => .inr ⟨hs, fun hp => hne (hb p hp)⟩⟩
  refine ⟨fun key => ?_, fun key => ?_, fun gpu => ?_, ?_, h.disjoint⟩
  · rw [Ready, hsame (fun _ he => he.1) fun _ he => he.1]
    exact h.ready key
  · rw [Crashlooping, hsame (fun _ he => he.1) fun _ he => he.1]
    exact h.crashloop key
  · rw [VramHigh, hsame (fun _ he => he.1) fun _ he => he.1]
    exact h.vram gpu
  · rcases h.heartbeat with hsince | ⟨hnone, hzero⟩
    · exact .inl ((hsame (fun _ he => he.1) fun _ he => he.1).mpr hsince)
    · refine .inr ⟨fun p' hp' => ?_, hzero⟩
      rcases List.mem_append.mp hp' with hp' | hp'
      · exact hnone p' hp'
      · rw [List.mem_singleton.mp hp']
        exact fun hp => hne hp.1

/-- **An event keeps the view as the history says.** -/
theorem describes_record (h : Describes R history state) (p : Parsed F) :
    Describes R (history ++ [p]) (state.set p.host (((state.get? p.host).getD (.new R p.host)).record p)) := by
  have hhost : Host R history p.host ((state.get? p.host).getD (.new R p.host)) := by
    cases hget : state.get? p.host with
    | none => exact host_new ((h.known p.host).mp hget)
    | some hs => exact h.host p.host hs hget
  refine ⟨fun host => ?_, fun host hs hget => ?_⟩
  · rw [Dict.get?_set]
    by_cases heq : host = p.host
    · rw [if_pos heq]
      exact ⟨fun hnone => (by cases hnone), fun hall => absurd heq.symm (hall p (by simp))⟩
    · rw [if_neg heq, h.known]
      refine ⟨fun hall p' hp' => ?_, fun hall p' hp' => hall p' (List.mem_append_left _ hp')⟩
      rcases List.mem_append.mp hp' with hp' | hp'
      · exact hall p' hp'
      · rw [List.mem_singleton.mp hp']
        exact Ne.symm heq
  · rw [Dict.get?_set] at hget
    by_cases heq : host = p.host
    · rw [if_pos heq] at hget
      rw [heq, ← Option.some.inj hget]
      exact hhost.record
    · rw [if_neg heq] at hget
      exact (h.host host hs hget).other (Ne.symm heq)

theorem describes_empty (R : Runtime F) : Describes R [] (.empty : View F) :=
  ⟨fun _ => ⟨fun _ _ hp => absurd hp List.not_mem_nil, fun _ => rfl⟩, fun _ _ hget => by cases hget⟩

/-- Readable events, from a view that is as its history says. -/
theorem describes_applyAll : ∀ {events : List (Fields × F)} {history : List (Parsed F)} {state : View F},
    (∀ e ∈ events, Clean R e.1) → Describes R history state →
      ∃ state', applyAll R events state = some state' ∧ Describes R (history ++ readAll R events) state'
  | [], history, state, _, h => ⟨state, rfl, by rwa [readAll, List.filterMap_nil, List.append_nil]⟩
  | e :: events, history, state, hclean, h => by
    obtain ⟨p, hp⟩ := Option.isSome_iff_exists.mp (parse_isSome_iff.mpr (hclean e List.mem_cons_self) :
      (parse R e.2 e.1).isSome)
    obtain ⟨state', happly, hdesc⟩ := describes_applyAll (fun e' he' => hclean e' (List.mem_cons_of_mem _ he'))
      (describes_record h p)
    have hstep : apply R e.2 e.1 state =
        some (state.set p.host (((state.get? p.host).getD (.new R p.host)).record p)) := by rw [apply, hp, Option.map_some]
    refine ⟨state', ?_, ?_⟩
    · rw [applyAll, List.foldlM_cons, hstep]
      exact happly
    · have hread : readAll R (e :: events) = p :: readAll R events := List.filterMap_cons_some hp
      rwa [hread, List.append_cons]

/-- `can_schedule` by the history of the host: a pod in a crash loop refuses, and so does the GPU asked for, or any if
none is, where it is high in VRAM. -/
theorem Host.canSchedule_iff (h : Host R history host hs) (hget : state.get? host = some hs) (fresh : F → Bool)
    (gpu_index : Option Int) : canSchedule fresh state host gpu_index = true ↔ fresh hs.last_heartbeat_ts = false ∨
      (∀ key, key ≠ "" → ¬ Crashlooping history host key) ∧
        ∀ gpu, 0 ≤ gpu → (gpu_index = none ∨ gpu_index = some gpu) → ¬ VramHigh history host gpu := by
  have hcrash : hs.crashloop_pods = ∅ ↔ ∀ key, key ≠ "" → ¬ Crashlooping history host key := by
    rw [Finset.eq_empty_iff_forall_notMem]
    exact forall_congr' fun key => by rw [h.crashloop key, not_and]
  have hvram : ∀ gpu, gpu ∉ hs.vram_high_gpus ↔ (0 ≤ gpu → ¬ VramHigh history host gpu) := fun gpu => by
    rw [h.vram gpu, not_and]
  have hnone : hs.vram_high_gpus = ∅ ↔ ∀ gpu, 0 ≤ gpu → ¬ VramHigh history host gpu := by
    rw [Finset.eq_empty_iff_forall_notMem]
    exact forall_congr' hvram
  unfold canSchedule
  rw [hget, ← hcrash]
  dsimp only
  by_cases hfresh : fresh hs.last_heartbeat_ts = false
  · simp [hfresh]
  · by_cases hempty : hs.crashloop_pods = ∅
    · cases gpu_index with
      | none => simp [hfresh, hempty, hnone]
      | some index =>
        have hindex : (0 ≤ index → ¬ VramHigh history host index) ↔
            ∀ gpu, 0 ≤ gpu → index = gpu → ¬ VramHigh history host gpu :=
          ⟨fun hv gpu hpos heq => heq ▸ hv (heq ▸ hpos), fun hv hpos => hv index hpos rfl⟩
        simp [hfresh, hempty, hvram, hindex]
    · simp [hfresh, hempty]

/-- An event changes the state of its own host only. -/
theorem apply_other {state' : View F} (happly : apply R now fields state = some state')
    (hparse : parse R now fields = some p) (hne : host ≠ p.host) : state'.get? host = state.get? host := by
  rw [apply, hparse, Option.map_some] at happly
  rw [← Option.some.inj happly, Dict.get?_set, if_neg hne]

/-- A GPU with a negative index, high in VRAM. -/
def negative : Fields := ⟨.empty, .ofList [("event", "vram_high"), ("host", "giga"), ("gpu_index", "-2")]⟩

end ClaudeSwarm.GpuEvents
