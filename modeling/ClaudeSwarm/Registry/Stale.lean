import ClaudeSwarm.Data.Calendar
import ClaudeSwarm.Data.Dict
import ClaudeSwarm.Data.Table
import ClaudeSwarm.Python

/-!
# Stale agents

Model of `get_stale_agents` and `cleanup_stale` of `src/registry.py`. The registry is the files of `agents/`, one for
each agent, and the counts of `.stale-tracker.json`; that file is in the same directory, but `AgentInfo(**data)` refuses
its keys. A call lists the files in some order. `parse` is the time that `datetime.fromisoformat` reads in a heartbeat,
where it reads one with an offset.

`cleanup_stale` takes a copy of the counts before `get_stale_agents` brings them up to date, and writes the copy back
when it has removed somebody: what the call has seen of the other agents is lost.

* `count_getStaleAgents`: one step of the counters.
* `Hysteresis`: whom a call reports, and the counters it leaves.
* **`hysteresis_of_spares`**: so it is in the runs in which a clean-up that removes somebody finds the other agents alive
  and with no count.
* **`live_agent_reported`**: an agent that was late, and is late again later on, is removed at once.
-/

namespace ClaudeSwarm.Registry

open Data
open Python (Time)

/-- `STALE_THRESHOLD`. -/
def staleThreshold : Time := 300

/-- `STALE_MISS_COUNT`. -/
def staleMissCount : Nat := 3

/-- `AgentInfo`. -/
structure AgentInfo where
  hostname : String
  pid : Nat
  last_heartbeat : String
  deriving DecidableEq

/-- `agent_id`. -/
def AgentInfo.agentId (self : AgentInfo) : String := self.hostname ++ "-" ++ toString self.pid

/-- `agents/`. -/
structure Agents where
  files : Table AgentInfo.agentId
  tracker : Dict String Nat

section

variable (parse : String → Option Time)

/-- The age of the heartbeat is past the threshold, or cannot be told. -/
def isStale (now : Time) (agent : AgentInfo) : Bool :=
  match parse agent.last_heartbeat with
  | some last => staleThreshold ≤ now - last
  | none => true

/-- The locals of `get_stale_agents`. -/
structure Found where
  tracker : Dict String Nat
  stale : List AgentInfo
  changed : Bool

/-- `tracker.get(agent_id, 0)`. -/
def countOf (tracker : Dict String Nat) (id : String) : Nat := (tracker.get? id).getD 0

/-- The body of the loop of `get_stale_agents`. -/
def observe (now : Time) (found : Found) (agent : AgentInfo) : Found :=
  if isStale parse now agent then
    let count := countOf found.tracker agent.agentId + 1
    { tracker := found.tracker.set agent.agentId count
      stale := if staleMissCount ≤ count then found.stale ++ [agent] else found.stale
      changed := true }
  else if agent.agentId ∈ found.tracker.keys then
    { found with tracker := found.tracker.erase agent.agentId, changed := true }
  else found

/-- `get_stale_agents`, of the files as they are listed. -/
def getStaleAgents (now : Time) (listed : List AgentInfo) (self : Agents) : Agents × List AgentInfo :=
  let found := listed.foldl (observe parse now) ⟨self.tracker, [], false⟩
  (if found.changed then { self with tracker := found.tracker } else self, found.stale)

/-- `cleanup_stale`; the agents it removes. -/
def cleanupStale (now : Time) (listed : List AgentInfo) (self : Agents) : Agents × List AgentInfo :=
  let tracker := self.tracker
  let (after, stale) := getStaleAgents parse now listed self
  let files := stale.foldl (fun files agent => files.erase agent.agentId) after.files
  let tracker := stale.foldl (fun tracker agent => tracker.erase agent.agentId) tracker
  ({ files := files, tracker := if stale = [] then after.tracker else tracker }, stale)

/-! ## Runs -/

/-- A call: what it was, what it found and whom it reported. -/
structure Look where
  cleanup : Bool
  now : Time
  agents : List AgentInfo
  reported : List AgentInfo

/-- The call takes the registry from `s` to `s'`. -/
structure Call (s : Agents) (look : Look) (s' : Agents) : Prop where
  listed : look.agents.Perm s.files.rows
  result : (s', look.reported) =
    (if look.cleanup then cleanupStale else getStaleAgents) parse look.now look.agents s

/-- The calls so far, the last one first, and the registry after them. Between the calls agents write their files: they
register or send a heartbeat. The calls meet `G`. -/
inductive Run (G : Agents → Look → Prop) : List Look → Agents → Prop
  | start (files : Table AgentInfo.agentId) : Run G [] ⟨files, .empty⟩
  | write {looks : List Look} {s : Agents} (h : Run G looks s) (agent : AgentInfo) :
      Run G looks { s with files := s.files.put agent }
  | call {looks : List Look} {s s' : Agents} {look : Look} (h : Run G looks s) (hg : G s look)
      (hc : Call parse s look s') : Run G (look :: looks) s'

/-- The call sees the agent, and it is stale. -/
def Look.Sees (look : Look) (id : String) : Prop :=
  ∃ agent ∈ look.agents, agent.agentId = id ∧ isStale parse look.now agent = true

instance (look : Look) (id : String) : Decidable (look.Sees parse id) :=
  inferInstanceAs (Decidable (∃ agent ∈ look.agents, _ ∧ _))

/-- The call deregisters the agent. -/
def Look.Removes (look : Look) (id : String) : Prop :=
  look.cleanup = true ∧ id ∈ look.reported.map AgentInfo.agentId

instance (look : Look) (id : String) : Decidable (look.Removes id) := inferInstanceAs (Decidable (_ ∧ _))

/-- The length of the agent's current run of stale observations. -/
def streak (id : String) : List Look → Nat
  | [] => 0
  | look :: looks => if look.Sees parse id ∧ ¬ look.Removes id then streak id looks + 1 else 0

/-- The call and the two before it all see the agent stale, and neither of these two deregisters it. -/
def Thrice (id : String) (look : Look) (looks : List Look) : Prop :=
  look.Sees parse id ∧ ∃ look₁ look₂ rest, looks = look₁ :: look₂ :: rest ∧
    (look₁.Sees parse id ∧ ¬ look₁.Removes id) ∧ look₂.Sees parse id ∧ ¬ look₂.Removes id

/-- What a call after the calls `looks` reports, deregisters and leaves in the counters. -/
structure Hysteresis (looks : List Look) (look : Look) (s' : Agents) : Prop where
  reported : ∀ agent ∈ look.agents, agent ∈ look.reported ↔ Thrice parse agent.agentId look looks
  deregistered : look.cleanup = true → ∀ agent ∈ look.agents,
    s'.files.find? agent.agentId = none ↔ agent ∈ look.reported
  counted : ∀ id, countOf s'.tracker id = streak parse id (look :: looks)

/-- The agent is stale for the third time. -/
def due (now : Time) (tracker : Dict String Nat) (agent : AgentInfo) : Bool :=
  isStale parse now agent && decide (staleMissCount ≤ countOf tracker agent.agentId + 1)

/-- A clean-up that finds an agent due finds the other agents alive, and with no count. -/
def Spares (s : Agents) (look : Look) : Prop :=
  look.cleanup = true → (∃ agent ∈ look.agents, due parse look.now s.tracker agent = true) →
    ∀ agent ∈ look.agents, due parse look.now s.tracker agent = true ∨
      isStale parse look.now agent = false ∧ countOf s.tracker agent.agentId = 0

end

variable {parse : String → Option Time} {now : Time} {agent : AgentInfo} {id : String}

/-! ## One call -/

theorem countOf_set {tracker : Dict String Nat} {k : String} {n : Nat} :
    countOf (tracker.set k n) id = if id = k then n else countOf tracker id := by
  unfold countOf
  rw [Dict.get?_set]
  split <;> rfl

theorem countOf_erase {tracker : Dict String Nat} {k : String} :
    countOf (tracker.erase k) id = if id = k then 0 else countOf tracker id := by
  unfold countOf
  rw [Dict.get?_erase]
  split <;> rfl

theorem countOf_observe {found : Found} : countOf (observe parse now found agent).tracker id =
    if id = agent.agentId then (if isStale parse now agent then countOf found.tracker id + 1 else 0)
    else countOf found.tracker id := by
  unfold observe
  split
  · by_cases h : id = agent.agentId <;> simp [countOf_set, h]
  · split
    · exact countOf_erase
    · rename_i hnot
      split
      · rename_i h
        have hnone : found.tracker.get? agent.agentId = none := by
          rw [Option.eq_none_iff_forall_ne_some]
          exact fun v hv => hnot (Dict.mem_keys_iff.mpr ⟨v, hv⟩)
        rw [h, countOf, hnone]
        rfl
      · rfl

theorem stale_observe {found : Found} : (observe parse now found agent).stale =
    found.stale ++ if due parse now found.tracker agent then [agent] else [] := by
  unfold observe due
  split
  · rename_i hstale
    by_cases h : staleMissCount ≤ countOf found.tracker agent.agentId + 1 <;> simp [hstale, h]
  · rename_i hstale
    split <;> simp [hstale]

theorem tracker_observe {found : Found} (h : (observe parse now found agent).changed = false) :
    observe parse now found agent = found := by
  unfold observe at h ⊢
  split at h
  · cases h
  · rename_i hstale
    split at h
    · cases h
    · rename_i hnot
      rw [if_neg hstale, if_neg hnot]

/-- What the loop of `get_stale_agents` makes of its locals. -/
structure Observed (parse : String → Option Time) (now : Time) (listed : List AgentInfo) (found found' : Found) :
    Prop where
  other : ∀ id, id ∉ listed.map AgentInfo.agentId → countOf found'.tracker id = countOf found.tracker id
  seen : ∀ agent ∈ listed, countOf found'.tracker agent.agentId =
    if isStale parse now agent then countOf found.tracker agent.agentId + 1 else 0
  stale : found'.stale = found.stale ++ listed.filter (due parse now found.tracker)
  same : found'.changed = false → found' = found

/-- The loop, one agent after the other; each is listed once. -/
theorem observed_foldl : ∀ {listed : List AgentInfo} {found : Found}, (listed.map AgentInfo.agentId).Nodup →
    Observed parse now listed found (listed.foldl (observe parse now) found)
  | [], found, _ => ⟨fun _ _ => rfl, fun _ h => absurd h List.not_mem_nil, (List.append_nil _).symm, fun _ => rfl⟩
  | agent :: listed, found, hnodup => by
    obtain ⟨hnot, hnodup⟩ := List.nodup_cons.mp hnodup
    have hrest := @observed_foldl listed (observe parse now found agent) hnodup
    have hkept : ∀ other ∈ listed, countOf (observe parse now found agent).tracker other.agentId =
        countOf found.tracker other.agentId := fun other ho => by
      have hne : other.agentId ≠ agent.agentId := fun he => hnot (he ▸ List.mem_map_of_mem ho)
      rw [countOf_observe, if_neg hne]
    refine ⟨fun id hid => ?_, fun other ho => ?_, ?_, fun h => ?_⟩
    · rw [List.map_cons, List.mem_cons, not_or] at hid
      rw [List.foldl_cons, hrest.other id hid.2, countOf_observe, if_neg hid.1]
    · rw [List.foldl_cons]
      rcases List.mem_cons.mp ho with rfl | ho
      · rw [hrest.other _ hnot, countOf_observe, if_pos rfl]
      · rw [hrest.seen other ho, hkept other ho]
    · have hfilter : listed.filter (due parse now (observe parse now found agent).tracker) =
          listed.filter (due parse now found.tracker) :=
        List.filter_congr fun other ho => by rw [due, due, hkept other ho]
      rw [List.foldl_cons, hrest.stale, stale_observe, hfilter, List.append_assoc, List.filter_cons]
      split <;> simp
    · rw [List.foldl_cons] at h ⊢
      have hsame := hrest.same h
      rw [hsame] at h ⊢
      exact tracker_observe h

/-- `get_stale_agents`. -/
structure Listed (parse : String → Option Time) (now : Time) (listed : List AgentInfo) (s s' : Agents) : Prop where
  files : s'.files = s.files
  other : ∀ id, id ∉ listed.map AgentInfo.agentId → countOf s'.tracker id = countOf s.tracker id
  seen : ∀ agent ∈ listed, countOf s'.tracker agent.agentId =
    if isStale parse now agent then countOf s.tracker agent.agentId + 1 else 0

theorem count_getStaleAgents {listed : List AgentInfo} {s : Agents} (hnodup : (listed.map AgentInfo.agentId).Nodup) :
    Listed parse now listed s (getStaleAgents parse now listed s).1 ∧
      (getStaleAgents parse now listed s).2 = listed.filter (due parse now s.tracker) := by
  have h := @observed_foldl parse now listed ⟨s.tracker, [], false⟩ hnodup
  refine ⟨?_, h.stale⟩
  unfold getStaleAgents
  dsimp only
  by_cases hchanged : (listed.foldl (observe parse now) ⟨s.tracker, [], false⟩).changed = true
  · rw [if_pos hchanged]
    exact ⟨rfl, h.other, h.seen⟩
  · rw [if_neg hchanged]
    have hsame := h.same (Bool.not_eq_true _ ▸ hchanged)
    rw [hsame] at h
    exact ⟨rfl, h.other, h.seen⟩

theorem countOf_popAll : ∀ {stale : List AgentInfo} {tracker : Dict String Nat},
    countOf (stale.foldl (fun tracker agent => tracker.erase agent.agentId) tracker) id =
      if id ∈ stale.map AgentInfo.agentId then 0 else countOf tracker id
  | [], _ => rfl
  | agent :: stale, tracker => by
    rw [List.foldl_cons, countOf_popAll, countOf_erase, List.map_cons]
    by_cases h : id = agent.agentId <;> simp [h]

/-! ## Runs -/

variable {s s' : Agents} {look : Look} {looks : List Look}

/-- An agent has a file exactly if it is listed. -/
theorem Call.find?_eq_none (h : Call parse s look s') :
    s.files.find? id = none ↔ id ∉ look.agents.map AgentInfo.agentId := by
  rw [(h.listed.map AgentInfo.agentId).mem_iff]
  constructor
  · intro hnone hmem
    obtain ⟨agent, hin, rfl⟩ := List.mem_map.mp hmem
    rw [Table.find?_of_mem hin] at hnone
    cases hnone
  · intro hnot
    rw [Option.eq_none_iff_forall_ne_some]
    intro agent hfind
    exact hnot (List.mem_map.mpr ⟨agent, Table.find?_mem hfind, Table.find?_key hfind⟩)

theorem Call.nodup (h : Call parse s look s') : (look.agents.map AgentInfo.agentId).Nodup :=
  (h.listed.map AgentInfo.agentId).nodup_iff.mpr s.files.nodup

/-- Two agents that are listed have different names. -/
theorem Call.eq_of_agentId (h : Call parse s look s') {a b : AgentInfo} (ha : a ∈ look.agents) (hb : b ∈ look.agents)
    (he : a.agentId = b.agentId) : a = b := List.inj_on_of_nodup_map h.nodup ha hb he

theorem Call.sees_iff (h : Call parse s look s') (ha : agent ∈ look.agents) :
    look.Sees parse agent.agentId ↔ isStale parse look.now agent = true := by
  constructor
  · rintro ⟨b, hb, he, hstale⟩
    rwa [h.eq_of_agentId hb ha he] at hstale
  · exact fun hstale => ⟨agent, ha, rfl, hstale⟩

/-- What either call leaves. -/
theorem Call.cases (h : Call parse s look s') :
    look.reported = look.agents.filter (due parse look.now s.tracker) ∧
      ((look.cleanup = false ∨ look.reported = []) ∧ Listed parse look.now look.agents s s' ∨
        (look.cleanup = true ∧ look.reported ≠ []) ∧
          s'.files = look.reported.foldl (fun files agent => files.erase agent.agentId) s.files ∧
          s'.tracker = look.reported.foldl (fun tracker agent => tracker.erase agent.agentId) s.tracker) := by
  obtain ⟨hlisted, hstale⟩ := @count_getStaleAgents parse look.now look.agents s h.nodup
  have hresult := h.result
  cases hkind : look.cleanup with
  | false =>
    rw [hkind, if_neg Bool.false_ne_true] at hresult
    obtain ⟨hs, hreported⟩ := Prod.mk.inj hresult
    exact ⟨hreported.trans hstale, Or.inl ⟨Or.inl rfl, hs ▸ hlisted⟩⟩
  | true =>
    rw [hkind, if_pos rfl, cleanupStale] at hresult
    generalize getStaleAgents parse look.now look.agents s = found at hlisted hstale hresult
    obtain ⟨after, stale⟩ := found
    obtain ⟨hs, hreported⟩ := Prod.mk.inj hresult
    rw [← hreported] at hs
    refine ⟨hreported.trans hstale, ?_⟩
    by_cases hnil : look.reported = []
    · rw [if_pos hnil, hnil, List.foldl_nil] at hs
      exact Or.inl ⟨Or.inr hnil, hs ▸ hlisted⟩
    · rw [if_neg hnil, hlisted.files] at hs
      exact Or.inr ⟨⟨rfl, hnil⟩, by rw [hs], by rw [hs]⟩

theorem Look.removes_of_cleanup (h : look.cleanup = true) :
    look.Removes id ↔ id ∈ look.reported.map AgentInfo.agentId := and_iff_right h

theorem Look.not_removes (h : look.cleanup = false ∨ look.reported = []) : ¬ look.Removes id := by
  rintro ⟨hcleanup, hmem⟩
  rcases h with h | h
  · rw [h] at hcleanup
    cases hcleanup
  · rw [h] at hmem
    cases hmem

/-- The counters are the runs, and there is none for a file that is not there. -/
structure Counted (parse : String → Option Time) (looks : List Look) (s : Agents) : Prop where
  streak : ∀ id, countOf s.tracker id = streak parse id looks
  absent : ∀ id, s.files.find? id = none → countOf s.tracker id = 0

/-- A call that brings the counters up to date. -/
theorem Counted.listed (h : Counted parse looks s) (hc : Call parse s look s')
    (hremoves : look.cleanup = false ∨ look.reported = []) (hl : Listed parse look.now look.agents s s') :
    Counted parse (look :: looks) s' := by
  have hcount : ∀ id, countOf s'.tracker id =
      if look.Sees parse id then countOf s.tracker id + 1 else 0 := by
    intro id
    by_cases hin : id ∈ look.agents.map AgentInfo.agentId
    · obtain ⟨agent, ha, rfl⟩ := List.mem_map.mp hin
      rw [hl.seen agent ha]
      exact if_congr (hc.sees_iff ha).symm rfl rfl
    · have hnot : ¬ look.Sees parse id := fun ⟨agent, ha, he, _⟩ => hin (he ▸ List.mem_map_of_mem ha)
      rw [if_neg hnot, hl.other id hin, h.absent id (hc.find?_eq_none.mpr hin)]
  refine ⟨fun id => ?_, fun id hnone => ?_⟩
  · rw [hcount, Registry.streak, ← h.streak]
    exact if_congr (and_iff_left (Look.not_removes hremoves)).symm rfl rfl
  · rw [hl.files, hc.find?_eq_none] at hnone
    rw [hl.other id hnone, h.absent id (hc.find?_eq_none.mpr hnone)]

/-- A clean-up that removes somebody, where it spares the others. -/
theorem Counted.removed (h : Counted parse looks s) (hc : Call parse s look s') (hspares : Spares parse s look)
    (hcleanup : look.cleanup = true) (hne : look.reported ≠ [])
    (hreported : look.reported = look.agents.filter (due parse look.now s.tracker))
    (htracker : s'.tracker = look.reported.foldl (fun tracker agent => tracker.erase agent.agentId) s.tracker) :
    Counted parse (look :: looks) s' := by
  obtain ⟨victim, hvictim⟩ := List.exists_mem_of_ne_nil _ hne
  rw [hreported] at hvictim
  have hothers := hspares hcleanup ⟨victim, List.mem_filter.mp hvictim⟩
  have hcount : ∀ id, countOf s'.tracker id =
      if id ∈ look.reported.map AgentInfo.agentId then 0 else countOf s.tracker id := by
    intro id
    rw [htracker, countOf_popAll]
  -- A listed agent that is not removed is alive and has no count; one that is not listed has no file.
  have hzero : ∀ id, countOf s'.tracker id = 0 ∧ (look.Sees parse id → look.Removes id) := by
    intro id
    rw [Look.removes_of_cleanup hcleanup, hcount]
    by_cases hin : id ∈ look.reported.map AgentInfo.agentId
    · exact ⟨if_pos hin, fun _ => hin⟩
    · rw [if_neg hin]
      by_cases hmem : id ∈ look.agents.map AgentInfo.agentId
      · obtain ⟨agent, ha, rfl⟩ := List.mem_map.mp hmem
        have hnot : ¬ due parse look.now s.tracker agent = true := fun hdue =>
          hin (List.mem_map_of_mem (hreported ▸ List.mem_filter.mpr ⟨ha, hdue⟩))
        obtain ⟨halive, hnone⟩ := (hothers agent ha).resolve_left hnot
        refine ⟨hnone, fun hsees => ?_⟩
        rw [hc.sees_iff ha, halive] at hsees
        cases hsees
      · exact ⟨h.absent id (hc.find?_eq_none.mpr hmem),
          fun ⟨agent, ha, he, _⟩ => absurd (he ▸ List.mem_map_of_mem ha) hmem⟩
  refine ⟨fun id => ?_, fun id _ => (hzero id).1⟩
  rw [(hzero id).1, Registry.streak, if_neg fun hs => hs.2 ((hzero id).2 hs.1)]

theorem Counted.call (h : Counted parse looks s) (hspares : Spares parse s look) (hc : Call parse s look s') :
    Counted parse (look :: looks) s' := by
  obtain ⟨hreported, ⟨hnone, hl⟩ | ⟨⟨hcleanup, hne⟩, -, htracker⟩⟩ := hc.cases
  · exact h.listed hc hnone hl
  · exact h.removed hc hspares hcleanup hne hreported htracker

/-- The invariant, by induction on the run. -/
theorem counted_of_run (h : Run parse (Spares parse) looks s) : Counted parse looks s := by
  induction h with
  | start files => exact ⟨fun _ => rfl, fun _ _ => rfl⟩
  | write _ agent ih =>
    refine ⟨ih.streak, fun id hnone => ih.absent id ?_⟩
    rw [Table.find?_put] at hnone
    split at hnone
    · cases hnone
    · exact hnone
  | call _ hg hc ih => exact ih.call hg hc

theorem two_le_streak_iff : 2 ≤ streak parse id looks ↔ ∃ look₁ look₂ rest, looks = look₁ :: look₂ :: rest ∧
    (look₁.Sees parse id ∧ ¬ look₁.Removes id) ∧ look₂.Sees parse id ∧ ¬ look₂.Removes id := by
  constructor
  · intro h
    cases looks with
    | nil => simp [streak] at h
    | cons look₁ looks =>
      rw [streak] at h
      split at h
      · rename_i h₁
        cases looks with
        | nil => simp [streak] at h
        | cons look₂ rest =>
          rw [streak] at h
          split at h
          · exact ⟨look₁, look₂, rest, rfl, h₁, ‹_›⟩
          · omega
      · omega
  · rintro ⟨look₁, look₂, rest, rfl, h₁, h₂⟩
    rw [streak, if_pos h₁, streak, if_pos h₂]
    omega

/-- **Hysteresis.** In a run in which each clean-up spares the agents that it does not remove, an agent is reported by
a call exactly if that call and the two before it have seen it stale. -/
theorem hysteresis_of_spares (h : Run parse (Spares parse) looks s) (hspares : Spares parse s look)
    (hc : Call parse s look s') : Hysteresis parse looks look s' := by
  have hcounted := counted_of_run h
  obtain ⟨hreported, hleft⟩ := hc.cases
  refine ⟨fun agent ha => ?_, fun hcleanup agent ha => ?_, (hcounted.call hspares hc).streak⟩
  · rw [hreported, List.mem_filter, and_iff_right ha, due, Bool.and_eq_true, decide_eq_true_eq, hcounted.streak,
      Thrice, ← two_le_streak_iff, hc.sees_iff ha]
    exact and_congr_right fun _ => Nat.succ_le_succ_iff
  · have hthere : ¬ s.files.find? agent.agentId = none := fun hnone =>
      hc.find?_eq_none.mp hnone (List.mem_map_of_mem ha)
    have hmem : agent.agentId ∈ look.reported.map AgentInfo.agentId ↔ agent ∈ look.reported := by
      refine ⟨fun hin => ?_, List.mem_map_of_mem⟩
      obtain ⟨other, ho, he⟩ := List.mem_map.mp hin
      have hlisted := (List.mem_filter.mp (hreported ▸ ho)).1
      exact hc.eq_of_agentId hlisted ha he ▸ ho
    rcases hleft with ⟨hnone, hl⟩ | ⟨-, hfiles, -⟩
    · have hnil := hnone.resolve_left (by rw [hcleanup]; exact Bool.noConfusion)
      rw [hl.files, hnil]
      exact iff_of_false hthere List.not_mem_nil
    · rw [hfiles, ← List.foldl_map, Table.find?_eraseAll, ← hmem]
      by_cases hin : agent.agentId ∈ look.reported.map AgentInfo.agentId
      · rw [if_pos hin]
        exact iff_of_true rfl hin
      · rw [if_neg hin]
        exact iff_of_false hthere hin

/-! ## A live agent -/

/-- `datetime.fromisoformat`, of the texts that `now_iso` writes. -/
def readIso (text : String) : Option Time := (fromIsoFormat (zuluOffset text.toList)).map fun t => (t : Time)

/-- A call at `now`, with the files in the order they were written. -/
def lookAt (cleanup : Bool) (now : Time) (s : Agents) : Look × Agents :=
  let result := (if cleanup then cleanupStale else getStaleAgents) readIso now s.files.rows s
  (⟨cleanup, now, s.files.rows, result.2⟩, result.1)

theorem call_lookAt (cleanup : Bool) (now : Time) (s : Agents) :
    Call readIso s (lookAt cleanup now s).1 (lookAt cleanup now s).2 := ⟨.refl _, rfl⟩

/-- An agent that is gone. -/
def gone : AgentInfo := ⟨"a", 1, "1970-01-01T00:00:00Z"⟩

/-- An agent that is late. -/
def late : AgentInfo := ⟨"b", 2, "1970-01-01T00:00:00Z"⟩

/-- The agents that have files, and after two calls to `get_stale_agents`. -/
def agents (l : List AgentInfo) : Agents := ⟨l.foldl Table.put .empty, .empty⟩

def afterTwo (s : Agents) : Agents := (lookAt false 1010 (lookAt false 1000 s).2).2

def looksOfTwo (s : Agents) : List Look := [(lookAt false 1010 (lookAt false 1000 s).2).1, (lookAt false 1000 s).1]

theorem run_afterTwo {G : Agents → Look → Prop} (hG : ∀ now s, G s (lookAt false now s).1) (l : List AgentInfo) :
    Run readIso G (looksOfTwo (agents l)) (afterTwo (agents l)) :=
  .call (.call (.start _) (hG _ _) (call_lookAt _ _ _)) (hG _ _) (call_lookAt _ _ _)

/-- `hysteresis_of_spares` of the clean-up that removes an agent that is alone. -/
theorem hysteresis_of_spares_alone :
    Hysteresis readIso (looksOfTwo (agents [gone])) (lookAt true 1030 (afterTwo (agents [gone]))).1
      (lookAt true 1030 (afterTwo (agents [gone]))).2 := by
  refine hysteresis_of_spares (run_afterTwo (fun _ _ h => by cases h) [gone]) (fun _ _ agent hagent => ?_)
    (call_lookAt _ _ _)
  have hall : ∀ agent ∈ (afterTwo (agents [gone])).files.rows,
      due readIso 1030 (afterTwo (agents [gone])).tracker agent = true := by decide +kernel
  exact Or.inl (hall agent hagent)

/-- The late agent sends a heartbeat; the one that is gone is removed. -/
def onTime : Agents :=
  { afterTwo (agents [gone, late]) with
    files := (afterTwo (agents [gone, late])).files.put { late with last_heartbeat := "1970-01-01T00:17:00Z" } }

def afterCleanup : Look × Agents := lookAt true 1030 onTime

/-- **A live agent is removed** the first time it is late again: the clean-up that removed the other one had seen it on
time, and put its old count back. -/
theorem live_agent_reported : ¬ ∀ looks s look s', Run readIso (fun _ _ => True) looks s → Call readIso s look s' →
    Hysteresis readIso looks look s' := by
  intro h
  have hrun : Run readIso (fun _ _ => True) (afterCleanup.1 :: looksOfTwo (agents [gone, late])) afterCleanup.2 :=
    .call (.write (run_afterTwo (fun _ _ => trivial) [gone, late]) _) trivial (call_lookAt _ _ _)
  have hwrong := h _ _ _ _ hrun (call_lookAt true 2000 afterCleanup.2)
  have hlate : { late with last_heartbeat := "1970-01-01T00:17:00Z" } ∈ (lookAt true 2000 afterCleanup.2).1.agents ∧
      { late with last_heartbeat := "1970-01-01T00:17:00Z" } ∈ (lookAt true 2000 afterCleanup.2).1.reported := by
    decide +kernel
  obtain ⟨-, look₁, look₂, rest, he, ⟨hsees, -⟩, -⟩ := (hwrong.reported _ hlate.1).mp hlate.2
  obtain ⟨rfl, -⟩ := List.cons.inj he
  exact absurd hsees (by decide +kernel)

end ClaudeSwarm.Registry
