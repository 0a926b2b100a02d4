import ClaudeSwarm.Data.Dict
import ClaudeSwarm.Data.JsonTrip
import ClaudeSwarm.Redis.Store
import Mathlib.Data.List.Induction

/-!
# The registry in Redis

Model of `src/registry_redis.py` (`register`, `update_agent`, `list_agents`), of `register_agent` and `list_agents` of
`src/redis_client.py` under it, and of the conflicts that `src/conflicts.py` reads off the list. Keys expire
(`Reachable.gone`), but not while an agent's own entry is looked for. `t` is the text of a time.

Two encodings meet here. `register` hands model, project, capabilities and context over as the argument that
`register_agent` calls `capabilities`, so that they become the JSON text of one field; `list_agents` looks for `model`
and `project` in fields of their own and takes the whole of that text for the capabilities. `update_agent` writes fields
of their own, but names the host `hostname` where the list looks for `host`, and under the key of the new host and pid.

* `getD_updateAll`: what is in the hash of an agent after its calls.
* `roundTrip_iff_kept`: an agent's entry and the caller's object agree exactly if each field has the value that was
  sent last under the agent's final key.
* **`list_agrees_iff`**: for a new agent whose host and pid are left alone that is so if the model and the project are
  empty or have been updated, and the capabilities have been.
* **`registered_agent_differs`**: an agent that works on the project it has registered.
-/

namespace ClaudeSwarm.Registry.Redis

open Data
open ClaudeSwarm.Redis (Hash)
open Python (PyError)

/-! ## Agents -/

/-- `AgentInfo`. -/
structure AgentInfo where
  hostname : String
  pid : Int
  state : String := "idle"
  project : String := ""
  task_id : String := ""
  model : String := ""
  session_context : String := ""
  started_at : String := ""
  last_heartbeat : String := ""
  registered_at : String := ""
  capabilities : Json := .obj []

namespace AgentInfo

/-- `agent_id`. -/
def agentId (self : AgentInfo) : String := self.hostname ++ "-" ++ toString self.pid

end AgentInfo

/-- `f"agent:{host}:{pid}"`. -/
def agentKey (host : String) (pid : Int) : String := "agent:" ++ host ++ ":" ++ toString pid

/-- A dictionary of capabilities. -/
def capsJson (caps : Dict String Bool) : Json := .obj (caps.entries.map fun c => (c.1, .bool c.2))

/-- The fields of an agent that hold a string. -/
inductive Field where
  | hostname | state | project | task_id | model | session_context | started_at | last_heartbeat | registered_at
  deriving DecidableEq

/-- One of the keyword arguments of `update_agent`. -/
inductive Arg where
  | text (field : Field) (v : String)
  | pid (v : Int)
  | capabilities (v : Dict String Bool)

/-- The name of a field. -/
def Field.name : Field → String
  | .hostname => "hostname"
  | .state => "state"
  | .project => "project"
  | .task_id => "task_id"
  | .model => "model"
  | .session_context => "session_context"
  | .started_at => "started_at"
  | .last_heartbeat => "last_heartbeat"
  | .registered_at => "registered_at"

/-- `setattr(agent, k, v)`. -/
def AgentInfo.setattr (self : AgentInfo) : Arg → AgentInfo
  | .text .hostname v => { self with hostname := v }
  | .text .state v => { self with state := v }
  | .text .project v => { self with project := v }
  | .text .task_id v => { self with task_id := v }
  | .text .model v => { self with model := v }
  | .text .session_context v => { self with session_context := v }
  | .text .started_at v => { self with started_at := v }
  | .text .last_heartbeat v => { self with last_heartbeat := v }
  | .text .registered_at v => { self with registered_at := v }
  | .pid v => { self with pid := v }
  | .capabilities v => { self with capabilities := capsJson v }

/-- `json.dumps(v) if isinstance(v, (dict, list)) else str(v)`, under the name of the argument. -/
def Arg.field : Arg → String × String
  | .text field v => (field.name, v)
  | .pid v => ("pid", toString v)
  | .capabilities v => ("capabilities", Json.dumps (capsJson v))

/-! ## The calls -/

/-- The keys `agent:*`. -/
abbrev Store := Dict String Hash

/-- `HSET`. -/
def hset (s : Store) (key : String) (mapping : List (String × String)) : Store :=
  s.set key (((s.get? key).getD .empty).set mapping)

/-- The dictionary that `register` gives to `register_agent`. -/
def registration (model project session_context : String) (caps : Dict String Bool) : Json :=
  .obj [("model", .str model), ("project", .str project), ("capabilities", capsJson caps),
    ("session_context", .str session_context)]

/-- What `register_agent` writes. -/
def registerFields (t host : String) (pid : Int) (capabilities : Json) : List (String × String) :=
  [("host", host), ("pid", toString pid), ("registered_at", t), ("last_heartbeat", t),
    ("capabilities", Json.dumps capabilities)]

/-- `register`. -/
def register (t now host : String) (pid : Int) (caps : Dict String Bool) (model project session_context : String)
    (s : Store) : Store × AgentInfo :=
  let agent : AgentInfo :=
    { hostname := host, pid := pid, model := model, project := project, capabilities := capsJson caps, state := "idle",
      started_at := now, registered_at := now, last_heartbeat := now, session_context := session_context }
  (hset s (agentKey host pid) (registerFields t host pid (registration model project session_context caps)), agent)

/-- `update_agent`. -/
def updateAgent (s : Store) (agent : AgentInfo) (kwargs : List Arg) : Store × AgentInfo :=
  let agent := kwargs.foldl AgentInfo.setattr agent
  (if kwargs = [] then s else hset s (agentKey agent.hostname agent.pid) (kwargs.map Arg.field), agent)

/-- `json.loads`, and a list of names in place of a dictionary. A list with other elements ends as a dictionary whose
keys are no strings, if as one at all. -/
def readCaps (raw_caps : String) : Except PyError Json :=
  match Json.loads raw_caps with
  | none => .error .jsonDecode
  | some (.arr l) =>
    match Json.strings l with
    | some names => .ok (.obj (names.map fun c => (c, .bool true)))
    | none => .error (.typeError "unhashable type")
  | some caps => .ok caps

/-- `int(data.get("pid", 0))`. -/
def readPid : Option String → Except PyError Int
  | none => .ok 0
  | some text =>
    match Python.int text with
    | some pid => .ok pid
    | none => .error (.valueError ("invalid literal for int() with base 10: '" ++ text ++ "'"))

/-- The body of the loop of `list_agents`. -/
def readAgent (data : Hash) : Except PyError AgentInfo := do
  let caps ← readCaps ((data.get "capabilities").getD "\x7b\x7d")
  let pid ← readPid (data.get "pid")
  return {
    hostname := (data.get "host").getD ""
    pid := pid
    model := (data.get "model").getD ""
    project := (data.get "project").getD ""
    capabilities := caps
    state := (data.get "state").getD "idle"
    task_id := (data.get "task_id").getD ""
    started_at := (data.get "started_at").getD ((data.get "registered_at").getD "")
    registered_at := (data.get "registered_at").getD ""
    last_heartbeat := (data.get "last_heartbeat").getD "" }

/-- `list_agents`. -/
def listAgents (s : Store) : Except PyError (List AgentInfo) := s.entries.mapM fun e => readAgent e.2

/-! ## Conflicts -/

/-- The body of the loop of `get_working_agents_by_project`. -/
def addWorking (project_agents : Dict String (List AgentInfo)) (agent : AgentInfo) : Dict String (List AgentInfo) :=
  if agent.state = "working" ∧ agent.project ≠ "" then
    project_agents.set agent.project ((project_agents.get? agent.project).getD [] ++ [agent])
  else project_agents

/-- `get_working_agents_by_project`, of the agents listed. -/
def getWorkingAgentsByProject (agents : List AgentInfo) : Dict String (List AgentInfo) :=
  agents.foldl addWorking .empty

/-- What `check_project_conflict` returns. -/
structure Conflict where
  conflict : Bool
  agents : List String
  safe : Bool

/-- `check_project_conflict`, of the agents listed. -/
def checkProjectConflict (agents : List AgentInfo) (project my_agent_id : String) : Conflict :=
  let others := (((getWorkingAgentsByProject agents).get? project).getD []).filter fun a => a.agentId ≠ my_agent_id
  ⟨0 < others.length, others.map AgentInfo.agentId, others.length = 0⟩

/-! ## What is to agree -/

/-- The calls of one agent. -/
def updateAll (s : Store) (agent : AgentInfo) (calls : List (List Arg)) : Store × AgentInfo :=
  calls.foldl (fun (s, agent) kwargs => updateAgent s agent kwargs) (s, agent)

/-- The stores that the agents' calls lead to. -/
inductive Reachable : Store → Prop
  | empty : Reachable .empty
  | register {s : Store} (h : Reachable s) (t now host : String) (pid : Int) (caps : Dict String Bool)
      (model project session_context : String) :
    Reachable (register t now host pid caps model project session_context s).1
  | update {s : Store} (h : Reachable s) (agent : AgentInfo) (kwargs : List Arg) :
    Reachable (updateAgent s agent kwargs).1
  /-- The key expires, or the agent deregisters. -/
  | gone {s : Store} (h : Reachable s) (key : String) : Reachable (s.erase key)

/-- The key of an agent. -/
def AgentInfo.key (self : AgentInfo) : String := agentKey self.hostname self.pid

/-- Two dictionaries are equal. -/
def SameDict (v v' : Json) : Prop := (∃ l, v = .obj l) ∧ (∃ l, v' = .obj l) ∧ ∀ key, v.get? key = v'.get? key

/-- What is listed is what the caller has. -/
structure Same (listed agent : AgentInfo) : Prop where
  hostname : listed.hostname = agent.hostname
  pid : listed.pid = agent.pid
  state : listed.state = agent.state
  project : listed.project = agent.project
  task_id : listed.task_id = agent.task_id
  model : listed.model = agent.model
  capabilities : SameDict listed.capabilities agent.capabilities

/-- The entry of the agent is listed as the caller has it, and while it works on a project the others see the
conflict. -/
def RoundTrip (s : Store) (agent : AgentInfo) : Prop :=
  ∃ agents data listed, listAgents s = .ok agents ∧ s.get? agent.key = some data ∧ readAgent data = .ok listed ∧
    Same listed agent ∧ (agent.state = "working" → agent.project ≠ "" → ∀ my_agent_id ≠ agent.agentId,
      agent.agentId ∈ (checkProjectConflict agents agent.project my_agent_id).agents)

/-- The fields that an agent's calls send to a key, in order. -/
def sentTo (key : String) : AgentInfo → List (List Arg) → List (String × String)
  | _, [] => []
  | agent, kwargs :: calls =>
    let agent := kwargs.foldl AgentInfo.setattr agent
    (if agent.key = key then kwargs.map Arg.field else []) ++ sentTo key agent calls

/-- What was sent last for a field, or else what was there after the registration. -/
def heldOf (base : Hash) (sent : List (String × String)) (field : String) : Option String :=
  (sent.reverse.lookup field).or (base.get field)

/-- Each field has the value that was sent last, or the default where none was. -/
structure Kept (base : Hash) (sent : List (String × String)) (agent : AgentInfo) : Prop where
  hostname : (base.get "host").getD "" = agent.hostname
  pid : readPid (heldOf base sent "pid") = .ok agent.pid
  state : (heldOf base sent "state").getD "idle" = agent.state
  project : (heldOf base sent "project").getD "" = agent.project
  task_id : (heldOf base sent "task_id").getD "" = agent.task_id
  model : (heldOf base sent "model").getD "" = agent.model
  capabilities : ∃ caps, readCaps ((heldOf base sent "capabilities").getD "\x7b\x7d") = .ok caps ∧
    SameDict caps agent.capabilities

/-- An agent registers and then makes calls to `update_agent`. -/
structure Session where
  t : String
  now : String
  host : String
  pid : Int
  caps : Dict String Bool
  model : String
  project : String
  session_context : String
  calls : List (List Arg)

namespace Session

variable (self : Session) (s : Store)

/-- After the registration. -/
def registered : Store × AgentInfo :=
  register self.t self.now self.host self.pid self.caps self.model self.project self.session_context s

/-- After the calls. -/
def final : Store × AgentInfo := updateAll (self.registered s).1 (self.registered s).2 self.calls

/-- What is under the agent's last key before the calls. -/
def base : Hash := ((self.registered s).1.get? (self.final s).2.key).getD .empty

/-- What the calls send to that key. -/
def sent : List (String × String) := sentTo (self.final s).2.key (self.registered s).2 self.calls

end Session

/-! ## Entries can be read -/

variable {s s' : Store} {agent listed : AgentInfo} {data : Hash} {key : String}

theorem whole_capsJson (caps : Dict String Bool) : Json.Whole (capsJson caps) := by
  refine .obj fun m hm => ?_
  obtain ⟨c, -, rfl⟩ := List.mem_map.mp hm
  exact .bool c.2

theorem readCaps_capsJson (caps : Dict String Bool) : readCaps (Json.dumps (capsJson caps)) = .ok (capsJson caps) := by
  unfold readCaps
  rw [Json.loads_dumps (whole_capsJson caps)]
  rfl

theorem readCaps_registration (model project session_context : String) (caps : Dict String Bool) :
    readCaps (Json.dumps (registration model project session_context caps)) =
      .ok (registration model project session_context caps) := by
  have hwhole : Json.Whole (registration model project session_context caps) := by
    refine .obj fun m hm => ?_
    simp only [List.mem_cons, List.not_mem_nil, or_false] at hm
    rcases hm with rfl | rfl | rfl | rfl
    · exact .str _
    · exact .str _
    · exact whole_capsJson caps
    · exact .str _
  unfold readCaps
  rw [Json.loads_dumps hwhole]
  rfl

theorem readPid_toString (pid : Int) : readPid (some (toString pid)) = .ok pid := by
  simp only [readPid, Python.int_str]

/-- The texts of the two fields that are not read as they are. -/
structure Legible (data : Hash) : Prop where
  capabilities : ∀ text, data.get "capabilities" = some text → ∃ caps, readCaps text = .ok caps
  pid : ∀ text, data.get "pid" = some text → ∃ pid, readPid (some text) = .ok pid

/-- A field with such a text. -/
def LegibleField (f : String × String) : Prop :=
  (f.1 = "capabilities" → ∃ caps, readCaps f.2 = .ok caps) ∧ (f.1 = "pid" → ∃ pid, readPid (some f.2) = .ok pid)

theorem legible_empty : Legible .empty where
  capabilities _ h := by cases h
  pid _ h := by cases h

theorem Legible.set : ∀ {fields : List (String × String)} {data : Hash}, Legible data →
    (∀ f ∈ fields, LegibleField f) → Legible (data.set fields)
  | [], _, h, _ => h
  | f :: fields, data, h, hf => by
    have hfirst := hf f List.mem_cons_self
    refine @Legible.set fields (data.put f) ⟨fun text ht => ?_, fun text ht => ?_⟩
      fun g hg => hf g (List.mem_cons_of_mem _ hg)
    · rw [Hash.get_put] at ht
      split at ht
      · rename_i hname
        cases ht
        exact hfirst.1 hname.symm
      · exact h.capabilities text ht
    · rw [Hash.get_put] at ht
      split at ht
      · rename_i hname
        cases ht
        exact hfirst.2 hname.symm
      · exact h.pid text ht

/-- The names of the fields that hold a string are not those of the others. -/
theorem Field.name_ne (field : Field) : field.name ≠ "capabilities" ∧ field.name ≠ "pid" ∧ field.name ≠ "host" := by
  cases field <;> decide

theorem legible_plain {name v : String} (h : name ≠ "capabilities") (h' : name ≠ "pid") : LegibleField (name, v) :=
  ⟨fun he => absurd he h, fun he => absurd he h'⟩

theorem legible_pid (pid : Int) : LegibleField ("pid", toString pid) := by
  refine ⟨fun h => ?_, fun _ => ⟨pid, readPid_toString pid⟩⟩
  have hne : "pid" ≠ "capabilities" := by decide
  exact absurd h hne

theorem legible_capabilities {v : String} (hv : ∃ caps, readCaps v = .ok caps) : LegibleField ("capabilities", v) := by
  refine ⟨fun _ => hv, fun h => ?_⟩
  have hne : "capabilities" ≠ "pid" := by decide
  exact absurd h hne

theorem legible_field : ∀ arg : Arg, LegibleField arg.field
  | .text field _ => legible_plain field.name_ne.1 field.name_ne.2.1
  | .pid v => legible_pid v
  | .capabilities v => legible_capabilities ⟨_, readCaps_capsJson v⟩

theorem get?_hset {mapping : List (String × String)} {key' : String} : (hset s key mapping).get? key' =
    if key' = key then some (((s.get? key).getD .empty).set mapping) else s.get? key' := Dict.get?_set

theorem legible_getD (h : ∀ key data, s.get? key = some data → Legible data) : Legible ((s.get? key).getD .empty) := by
  cases hkey : s.get? key with
  | none => exact legible_empty
  | some data => exact h key data hkey

/-- **Every entry can be read.** -/
theorem legible_of_reachable (h : Reachable s) : ∀ key data, s.get? key = some data → Legible data := by
  induction h with
  | empty => exact fun _ _ h => by cases h
  | @register s _ t now host pid caps model project session_context ih =>
    intro key data hkey
    rw [register, get?_hset] at hkey
    split at hkey
    · cases hkey
      refine (legible_getD ih).set fun f hf => ?_
      simp only [registerFields, List.mem_cons, List.not_mem_nil, or_false] at hf
      rcases hf with rfl | rfl | rfl | rfl | rfl
      · exact legible_plain (by decide) (by decide)
      · exact legible_pid pid
      · exact legible_plain (by decide) (by decide)
      · exact legible_plain (by decide) (by decide)
      · exact legible_capabilities ⟨_, readCaps_registration model project session_context caps⟩
    · exact ih key data hkey
  | @update s _ agent kwargs ih =>
    intro key data hkey
    rw [updateAgent] at hkey
    split at hkey
    · exact ih key data hkey
    · rw [get?_hset] at hkey
      split at hkey
      · cases hkey
        refine (legible_getD ih).set fun f hf => ?_
        obtain ⟨arg, -, rfl⟩ := List.mem_map.mp hf
        exact legible_field arg
      · exact ih key data hkey
  | gone _ gone ih =>
    intro key data hkey
    rw [Dict.get?_erase] at hkey
    split at hkey
    · cases hkey
    · exact ih key data hkey

theorem exists_readAgent (h : Legible data) : ∃ caps pid,
    readCaps ((data.get "capabilities").getD "\x7b\x7d") = .ok caps ∧ readPid (data.get "pid") = .ok pid := by
  have hcaps : ∃ caps, readCaps ((data.get "capabilities").getD "\x7b\x7d") = .ok caps := by
    cases hc : data.get "capabilities" with
    | none => exact ⟨.obj [], rfl⟩
    | some text => exact h.capabilities text hc
  have hpid : ∃ pid, readPid (data.get "pid") = .ok pid := by
    cases hp : data.get "pid" with
    | none => exact ⟨0, rfl⟩
    | some text => exact h.pid text hp
  obtain ⟨caps, hcaps⟩ := hcaps
  obtain ⟨pid, hpid⟩ := hpid
  exact ⟨caps, pid, hcaps, hpid⟩

/-! ## The agent's own entry -/

theorem get_set_reverse {field : String} {fields : List (String × String)} :
    (data.set fields).get field = (fields.reverse.lookup field).or (data.get field) := by
  induction fields using List.reverseRecOn with
  | nil => rfl
  | append_singleton fields f ih =>
    rw [Hash.set, List.foldl_append, List.foldl_cons, List.foldl_nil, Hash.get_put, List.reverse_append,
      List.reverse_singleton, List.singleton_append, List.lookup_cons]
    by_cases h : field = f.1
    · simp [h]
    · rw [if_neg h, beq_false_of_ne h]
      exact ih

theorem updateAgent_fst {kwargs : List Arg} : (updateAgent s agent kwargs).1 =
    if kwargs = [] then s else hset s (updateAgent s agent kwargs).2.key (kwargs.map Arg.field) := rfl

/-- The hash of a key after an agent's calls. -/
theorem getD_updateAll : ∀ {calls : List (List Arg)} {s : Store} {agent : AgentInfo},
    ((updateAll s agent calls).1.get? key).getD .empty = ((s.get? key).getD .empty).set (sentTo key agent calls)
  | [], _, _ => rfl
  | kwargs :: calls, s, agent => by
    have hrest := @getD_updateAll calls (updateAgent s agent kwargs).1 (updateAgent s agent kwargs).2
    have hfirst : ((updateAgent s agent kwargs).1.get? key).getD .empty = ((s.get? key).getD .empty).set
        (if (updateAgent s agent kwargs).2.key = key then kwargs.map Arg.field else []) := by
      rw [updateAgent_fst]
      by_cases hnil : kwargs = []
      · subst hnil
        simp
      · rw [if_neg hnil, get?_hset]
        by_cases hkey : (updateAgent s agent kwargs).2.key = key
        · subst hkey
          rw [if_pos rfl, if_pos rfl, Option.getD_some]
        · rw [if_neg hkey, if_neg (fun he => hkey he.symm)]
          rfl
    rw [updateAll, List.foldl_cons]
    refine hrest.trans ?_
    rw [hfirst, sentTo, Hash.set, Hash.set, Hash.set, ← List.foldl_append]
    rfl

/-- The agent's last call put its key there, or its registration did. -/
theorem isSome_updateAll : ∀ {calls : List (List Arg)} {s : Store} {agent : AgentInfo},
    (s.get? agent.key).isSome → ((updateAll s agent calls).1.get? (updateAll s agent calls).2.key).isSome
  | [], _, _, h => h
  | kwargs :: calls, s, agent, h => by
    refine @isSome_updateAll calls (updateAgent s agent kwargs).1 (updateAgent s agent kwargs).2 ?_
    rw [updateAgent_fst]
    by_cases hnil : kwargs = []
    · subst hnil
      exact h
    · rw [if_neg hnil, get?_hset, if_pos rfl]
      rfl

theorem reachable_updateAll : ∀ {calls : List (List Arg)} {s : Store} {agent : AgentInfo}, Reachable s →
    Reachable (updateAll s agent calls).1
  | [], _, _, h => h
  | kwargs :: calls, s, agent, h =>
    @reachable_updateAll calls (updateAgent s agent kwargs).1 (updateAgent s agent kwargs).2 (h.update agent kwargs)

/-! ## The list -/

theorem mapM_ok {α β : Type} {f : α → Except PyError β} : ∀ {l : List α}, (∀ a ∈ l, ∃ b, f a = .ok b) →
    ∃ bs, l.mapM f = .ok bs ∧ ∀ a ∈ l, ∃ b ∈ bs, f a = .ok b
  | [], _ => ⟨[], rfl, fun _ h => absurd h List.not_mem_nil⟩
  | a :: l, h => by
    obtain ⟨b, hb⟩ := h a List.mem_cons_self
    obtain ⟨bs, hbs, hall⟩ := mapM_ok fun a' ha' => h a' (List.mem_cons_of_mem _ ha')
    refine ⟨b :: bs, by rw [List.mapM_cons, hb, hbs]; rfl, fun a' ha' => ?_⟩
    rcases List.mem_cons.mp ha' with rfl | ha'
    · exact ⟨b, List.mem_cons_self, hb⟩
    · obtain ⟨b', hin, hb'⟩ := hall a' ha'
      exact ⟨b', List.mem_cons_of_mem _ hin, hb'⟩

/-- `list_agents` raises nothing, and lists every entry. -/
theorem exists_listAgents (h : Reachable s) : ∃ agents, listAgents s = .ok agents ∧
    ∀ key data, s.get? key = some data → ∃ listed ∈ agents, readAgent data = .ok listed := by
  have hread : ∀ e ∈ s.entries, ∃ listed, readAgent e.2 = .ok listed := by
    intro e he
    obtain ⟨caps, pid, hcaps, hpid⟩ := exists_readAgent (legible_of_reachable h e.1 e.2 (Dict.mem_entries_iff.mp he))
    exact ⟨_, by rw [readAgent, hcaps, hpid]; rfl⟩
  obtain ⟨agents, hlist, hall⟩ := mapM_ok hread
  exact ⟨agents, hlist, fun key data hkey => hall (key, data) (Dict.mem_entries_iff.mpr hkey)⟩

theorem get?_addWorking {d : Dict String (List AgentInfo)} {project : String} :
    ((addWorking d agent).get? project).getD [] = ((d.get? project).getD []) ++
      if agent.state = "working" ∧ agent.project ≠ "" ∧ agent.project = project then [agent] else [] := by
  unfold addWorking
  split
  · rename_i hworking
    rw [Dict.get?_set]
    by_cases h : project = agent.project
    · subst h
      simp [hworking]
    · rw [if_neg h, if_neg fun hw => h hw.2.2.symm, List.append_nil]
  · rename_i hidle
    rw [if_neg fun hw => hidle ⟨hw.1, hw.2.1⟩, List.append_nil]

/-- Working agents are found under their project. -/
theorem mem_getWorkingAgents {agents : List AgentInfo} (h : agent ∈ agents) (hstate : agent.state = "working")
    (hproject : agent.project ≠ "") :
    agent ∈ ((getWorkingAgentsByProject agents).get? agent.project).getD [] := by
  have hkeeps : ∀ {agents : List AgentInfo} {d : Dict String (List AgentInfo)}, agent ∈ agents ∨
      agent ∈ (d.get? agent.project).getD [] → agent ∈ ((agents.foldl addWorking d).get? agent.project).getD [] := by
    intro agents
    induction agents with
    | nil => exact fun h => h.resolve_left List.not_mem_nil
    | cons a agents ih =>
      intro d h
      refine ih ?_
      rw [get?_addWorking, List.mem_append]
      rcases h with h | h
      · rcases List.mem_cons.mp h with rfl | h
        · exact Or.inr (Or.inr (by rw [if_pos ⟨hstate, hproject, rfl⟩]; exact List.mem_singleton_self _))
        · exact Or.inl h
      · exact Or.inr (Or.inl h)
  exact hkeeps (Or.inl h)

/-- A listed agent that has the caller's fields makes the conflict seen. -/
theorem mem_conflict {agents : List AgentInfo} (h : listed ∈ agents) (hsame : Same listed agent)
    (hstate : agent.state = "working") (hproject : agent.project ≠ "") {my_agent_id : String}
    (hother : my_agent_id ≠ agent.agentId) :
    agent.agentId ∈ (checkProjectConflict agents agent.project my_agent_id).agents := by
  have hid : listed.agentId = agent.agentId := by rw [AgentInfo.agentId, AgentInfo.agentId, hsame.hostname, hsame.pid]
  have hmem := mem_getWorkingAgents h (hsame.state.trans hstate) (hsame.project ▸ hproject)
  rw [hsame.project] at hmem
  refine List.mem_map.mpr ⟨listed, List.mem_filter.mpr ⟨hmem, ?_⟩, hid⟩
  rw [hid]
  exact decide_eq_true hother.symm

/-! ## The trip -/

theorem ne_host_of_mem_sentTo {f : String × String} : ∀ {calls : List (List Arg)} {agent : AgentInfo},
    f ∈ sentTo key agent calls → f.1 ≠ "host"
  | kwargs :: calls, agent, h => by
    rw [sentTo, List.mem_append] at h
    rcases h with h | h
    · split at h
      · obtain ⟨arg, -, rfl⟩ := List.mem_map.mp h
        cases arg with
        | text field v => exact field.name_ne.2.2
        | pid v =>
          have hne : "pid" ≠ "host" := by decide
          exact hne
        | capabilities v =>
          have hne : "capabilities" ≠ "host" := by decide
          exact hne
      · cases h
    · exact ne_host_of_mem_sentTo h

theorem lookup_host {sent : List (String × String)} (h : ∀ f ∈ sent, f.1 ≠ "host") :
    sent.reverse.lookup "host" = none := by
  rw [List.lookup_eq_none_iff]
  intro f hf
  exact bne_iff_ne.mpr (h f (List.mem_reverse.mp hf)).symm

/-- An entry that is read. -/
theorem readAgent_eq {caps : Json} {pid : Int} (hcaps : readCaps ((data.get "capabilities").getD "\x7b\x7d") = .ok caps)
    (hpid : readPid (data.get "pid") = .ok pid) : ∃ listed, readAgent data = .ok listed ∧
      (Same listed agent ↔ (data.get "host").getD "" = agent.hostname ∧ pid = agent.pid ∧
        (data.get "state").getD "idle" = agent.state ∧ (data.get "project").getD "" = agent.project ∧
        (data.get "task_id").getD "" = agent.task_id ∧ (data.get "model").getD "" = agent.model ∧
        SameDict caps agent.capabilities) := by
  refine ⟨_, by rw [readAgent, hcaps, hpid]; rfl, ?_⟩
  constructor
  · intro h
    exact ⟨h.hostname, h.pid, h.state, h.project, h.task_id, h.model, h.capabilities⟩
  · rintro ⟨hhost, hp, hstate, hproject, htask, hmodel, hc⟩
    exact ⟨hhost, hp, hstate, hproject, htask, hmodel, hc⟩

/-- The fields of the hash are what is held. -/
theorem same_iff_kept {base : Hash} {sent : List (String × String)} {caps : Json} {pid : Int}
    (hhost : ∀ f ∈ sent, f.1 ≠ "host") (hdata : data = base.set sent)
    (hcaps : readCaps ((data.get "capabilities").getD "\x7b\x7d") = .ok caps)
    (hpid : readPid (data.get "pid") = .ok pid) :
    ((data.get "host").getD "" = agent.hostname ∧ pid = agent.pid ∧
        (data.get "state").getD "idle" = agent.state ∧ (data.get "project").getD "" = agent.project ∧
        (data.get "task_id").getD "" = agent.task_id ∧ (data.get "model").getD "" = agent.model ∧
        SameDict caps agent.capabilities) ↔ Kept base sent agent := by
  have hget : ∀ field, data.get field = heldOf base sent field := fun field => by rw [hdata, get_set_reverse]; rfl
  have hhost' : data.get "host" = base.get "host" := by
    rw [hdata, get_set_reverse, lookup_host hhost, Option.none_or]
  simp only [hget] at hcaps hpid ⊢
  rw [← hget "host", hhost']
  constructor
  · rintro ⟨hh, rfl, hstate, hproject, htask, hmodel, hc⟩
    exact ⟨hh, hpid, hstate, hproject, htask, hmodel, caps, hcaps, hc⟩
  · intro h
    obtain ⟨caps', hcaps', hc⟩ := h.capabilities
    cases hcaps.symm.trans hcaps'
    cases hpid.symm.trans h.pid
    exact ⟨h.hostname, rfl, h.state, h.project, h.task_id, h.model, hc⟩

/-- **The round trip.** -/
theorem roundTrip_iff_kept (self : Session) (hs : Reachable s) :
    RoundTrip (self.final s).1 (self.final s).2 ↔ Kept (self.base s) (self.sent s) (self.final s).2 := by
  have hregistered : Reachable (self.registered s).1 := .register hs ..
  have hfinal : Reachable (self.final s).1 := reachable_updateAll hregistered
  have hthere : ((self.final s).1.get? (self.final s).2.key).isSome := by
    refine isSome_updateAll ?_
    rw [Session.registered, register, get?_hset, AgentInfo.key, if_pos rfl]
    rfl
  obtain ⟨data, hdata⟩ := Option.isSome_iff_exists.mp hthere
  have hset : data = (self.base s).set (self.sent s) := by
    have hget := @getD_updateAll (self.final s).2.key self.calls (self.registered s).1 (self.registered s).2
    rw [← Session.final, hdata] at hget
    exact hget
  obtain ⟨agents, hlist, hall⟩ := exists_listAgents hfinal
  obtain ⟨caps, pid, hcaps, hpid⟩ := exists_readAgent (legible_of_reachable hfinal _ data hdata)
  obtain ⟨listed, hread, hsame⟩ := @readAgent_eq (self.final s).2 data caps pid hcaps hpid
  have hhost : ∀ f ∈ self.sent s, f.1 ≠ "host" := fun f hf => ne_host_of_mem_sentTo hf
  rw [← same_iff_kept hhost hset hcaps hpid, ← hsame]
  constructor
  · rintro ⟨-, data', listed', -, hdata', hread', hsame', -⟩
    cases hdata.symm.trans hdata'
    cases hread.symm.trans hread'
    exact hsame'
  · intro h
    obtain ⟨listed', hin, hread'⟩ := hall _ data hdata
    cases hread.symm.trans hread'
    exact ⟨agents, data, listed, hlist, hdata, hread, h,
      fun hstate hproject my_agent_id hother => mem_conflict hin h hstate hproject hother⟩

/-! ## An agent that stays what it is -/

/-- The argument is neither `hostname` nor `pid`. -/
def Arg.Stays (arg : Arg) : Prop := arg.field.1 ≠ "hostname" ∧ arg.field.1 ≠ "pid"

/-- A field that holds a string. -/
def AgentInfo.textOf (self : AgentInfo) : Field → String
  | .hostname => self.hostname
  | .state => self.state
  | .project => self.project
  | .task_id => self.task_id
  | .model => self.model
  | .session_context => self.session_context
  | .started_at => self.started_at
  | .last_heartbeat => self.last_heartbeat
  | .registered_at => self.registered_at

theorem Field.name_inj {f g : Field} (h : f.name = g.name) : f = g := by
  revert h
  cases f <;> cases g <;> decide

theorem textOf_setattr (field : Field) : ∀ arg : Arg, (agent.setattr arg).textOf field =
    if field.name = arg.field.1 then arg.field.2 else agent.textOf field
  | .text f v => by
    by_cases h : f = field
    · subst h
      rw [Arg.field, if_pos rfl]
      cases f <;> rfl
    · rw [Arg.field, if_neg fun he => h (Field.name_inj he).symm]
      cases f <;> cases field <;> first | rfl | exact absurd rfl h
  | .pid v => by
    rw [Arg.field, if_neg field.name_ne.2.1]
    cases field <;> rfl
  | .capabilities v => by
    rw [Arg.field, if_neg field.name_ne.1]
    cases field <;> rfl

/-- A field after some assignments. -/
theorem textOf_setattrAll (field : Field) {args : List Arg} : (args.foldl AgentInfo.setattr agent).textOf field =
    ((args.map Arg.field).reverse.lookup field.name).getD (agent.textOf field) := by
  induction args using List.reverseRecOn with
  | nil => rfl
  | append_singleton args arg ih =>
    rw [List.foldl_append, List.foldl_cons, List.foldl_nil, textOf_setattr, List.map_append, List.reverse_append,
      List.map_singleton, List.reverse_singleton, List.singleton_append, List.lookup_cons]
    by_cases h : field.name = arg.field.1
    · rw [if_pos h, h]
      simp
    · rw [if_neg h, beq_false_of_ne h]
      exact ih

theorem pid_setattrAll : ∀ {args : List Arg} {agent : AgentInfo}, (∀ arg ∈ args, arg.Stays) →
    (args.foldl AgentInfo.setattr agent).pid = agent.pid
  | [], _, _ => rfl
  | arg :: args, agent, h => by
    rw [List.foldl_cons, pid_setattrAll fun a ha => h a (List.mem_cons_of_mem _ ha)]
    cases arg with
    | text f v => cases f <;> rfl
    | pid v => exact absurd rfl (h _ List.mem_cons_self).2
    | capabilities v => rfl

theorem hostname_setattrAll {args : List Arg} (h : ∀ arg ∈ args, arg.Stays) :
    (args.foldl AgentInfo.setattr agent).hostname = agent.hostname := by
  have htext := @textOf_setattrAll agent .hostname args
  have hnone : (args.map Arg.field).reverse.lookup Field.hostname.name = none := by
    rw [List.lookup_eq_none_iff]
    intro f hf
    obtain ⟨arg, harg, rfl⟩ := List.mem_map.mp (List.mem_reverse.mp hf)
    exact bne_iff_ne.mpr (h arg harg).1.symm
  rwa [hnone] at htext

theorem key_setattrAll {args : List Arg} (h : ∀ arg ∈ args, arg.Stays) :
    (args.foldl AgentInfo.setattr agent).key = agent.key := by
  rw [AgentInfo.key, AgentInfo.key, hostname_setattrAll h, pid_setattrAll h]

/-- All its calls go to one key. -/
theorem sentTo_of_stays : ∀ {calls : List (List Arg)} {agent : AgentInfo}, (∀ arg ∈ calls.flatten, arg.Stays) →
    sentTo agent.key agent calls = calls.flatten.map Arg.field
  | [], _, _ => rfl
  | kwargs :: calls, agent, h => by
    rw [List.flatten_cons] at h
    have hfirst := @key_setattrAll agent kwargs fun arg ha => h arg (List.mem_append_left _ ha)
    have hrest := @sentTo_of_stays calls (kwargs.foldl AgentInfo.setattr agent)
      fun arg ha => h arg (List.mem_append_right _ ha)
    rw [hfirst] at hrest
    rw [sentTo, hfirst, if_pos rfl, hrest, List.flatten_cons, List.map_append]

theorem snd_updateAll : ∀ {calls : List (List Arg)} {s : Store} {agent : AgentInfo},
    (updateAll s agent calls).2 = calls.flatten.foldl AgentInfo.setattr agent
  | [], _, _ => rfl
  | kwargs :: calls, s, agent => by
    rw [List.flatten_cons, List.foldl_append]
    exact @snd_updateAll calls (updateAgent s agent kwargs).1 (updateAgent s agent kwargs).2

/-- The capabilities after some assignments. -/
theorem capabilities_setattrAll {args : List Arg} :
    ((args.map Arg.field).reverse.lookup "capabilities" = none ∧ (∀ v, Arg.capabilities v ∉ args) ∧
        (args.foldl AgentInfo.setattr agent).capabilities = agent.capabilities) ∨
      ∃ v, (args.map Arg.field).reverse.lookup "capabilities" = some (Json.dumps (capsJson v)) ∧
        Arg.capabilities v ∈ args ∧ (args.foldl AgentInfo.setattr agent).capabilities = capsJson v := by
  induction args using List.reverseRecOn with
  | nil => exact Or.inl ⟨rfl, fun _ => List.not_mem_nil, rfl⟩
  | append_singleton args arg ih =>
    simp only [List.foldl_append, List.foldl_cons, List.foldl_nil, List.map_append, List.reverse_append,
      List.map_singleton, List.reverse_singleton, List.singleton_append, List.mem_append, List.mem_singleton]
    cases arg with
    | capabilities v => exact Or.inr ⟨v, rfl, Or.inr rfl, rfl⟩
    | pid v =>
      rcases ih with ⟨hnone, hno, hsame⟩ | ⟨w, hsome, hin, hset⟩
      · exact Or.inl ⟨hnone, fun v' h => h.elim (hno v') (by simp), hsame⟩
      · exact Or.inr ⟨w, hsome, Or.inl hin, hset⟩
    | text field v =>
      have hne : ("capabilities" == (Arg.text field v).field.1) = false := beq_false_of_ne field.name_ne.1.symm
      have hkept : ∀ a : AgentInfo, (a.setattr (.text field v)).capabilities = a.capabilities := fun a => by
        cases field <;> rfl
      rw [List.lookup_cons, hne, hkept]
      rcases ih with ⟨hnone, hno, hsame⟩ | ⟨w, hsome, hin, hset⟩
      · exact Or.inl ⟨hnone, fun v' h => h.elim (hno v') (by simp), hsame⟩
      · exact Or.inr ⟨w, hsome, Or.inl hin, hset⟩

theorem mem_of_lookup {l : List (String × String)} {field v : String} (h : l.lookup field = some v) :
    (field, v) ∈ l := by
  obtain ⟨l₁, l₂, rfl, -⟩ := List.lookup_eq_some_iff.mp h
  exact List.mem_append_right _ List.mem_cons_self

/-- The fields that `register_agent` leaves to be updated. -/
theorem lookup_registerFields {t host : String} {pid : Int} {caps : Json} {field : Field}
    (h : field = .state ∨ field = .project ∨ field = .task_id ∨ field = .model) :
    (registerFields t host pid caps).reverse.lookup field.name = none := by
  rcases h with rfl | rfl | rfl | rfl <;> simp [registerFields, Field.name]

/-- What is left of a field's first value when it is sent. -/
theorem getD_eq_iff {field : Field} {args : List Arg} {v : String} :
    ((args.map Arg.field).reverse.lookup field.name).getD "" =
        ((args.map Arg.field).reverse.lookup field.name).getD v ↔
      v = "" ∨ ∃ v', Arg.text field v' ∈ args := by
  cases hlookup : (args.map Arg.field).reverse.lookup field.name with
  | some text =>
    have hmem := List.mem_reverse.mp (mem_of_lookup hlookup)
    obtain ⟨arg, harg, he⟩ := List.mem_map.mp hmem
    refine iff_of_true rfl (Or.inr ⟨text, ?_⟩)
    cases arg with
    | text f v' =>
      obtain ⟨hname, rfl⟩ := Prod.mk.inj he
      rwa [← Field.name_inj hname]
    | pid v' => exact absurd (Prod.mk.inj he).1.symm field.name_ne.2.1
    | capabilities v' => exact absurd (Prod.mk.inj he).1.symm field.name_ne.1
  | none =>
    rw [List.lookup_eq_none_iff] at hlookup
    constructor
    · exact fun h => Or.inl h.symm
    · rintro (h | ⟨v', hin⟩)
      · exact h.symm
      · have hne := hlookup _ (List.mem_reverse.mpr (List.mem_map_of_mem hin))
        exact absurd rfl (bne_iff_ne.mp hne)

/-- The registration is no dictionary of capabilities. -/
theorem not_sameDict_registration (model project session_context : String) (caps caps' : Dict String Bool) :
    ¬ SameDict (registration model project session_context caps) (capsJson caps') := by
  rintro ⟨-, -, h⟩
  have hmodel : (capsJson caps').get? "model" = some (.str model) := (h "model").symm
  obtain ⟨l₁, l₂, hl, -⟩ := List.lookup_eq_some_iff.mp hmodel
  have hmem : ("model", Json.str model) ∈ (caps'.entries.map fun c => (c.1, Json.bool c.2)).reverse := by
    rw [hl]
    exact List.mem_append_right _ List.mem_cons_self
  obtain ⟨c, -, hc⟩ := List.mem_map.mp (List.mem_reverse.mp hmem)
  cases (Prod.mk.inj hc).2

theorem sameDict_capsJson (caps : Dict String Bool) : SameDict (capsJson caps) (capsJson caps) :=
  ⟨⟨_, rfl⟩, ⟨_, rfl⟩, fun _ => rfl⟩

/-- **A new agent whose host and pid are left alone.** -/
theorem kept_iff_of_stays (self : Session) (hnew : s.get? (agentKey self.host self.pid) = none)
    (hstays : ∀ arg ∈ self.calls.flatten, arg.Stays) :
    Kept (self.base s) (self.sent s) (self.final s).2 ↔
      (self.model = "" ∨ ∃ v, Arg.text .model v ∈ self.calls.flatten) ∧
      (self.project = "" ∨ ∃ v, Arg.text .project v ∈ self.calls.flatten) ∧
      ∃ v, Arg.capabilities v ∈ self.calls.flatten := by
  have hlast : (self.final s).2 = self.calls.flatten.foldl AgentInfo.setattr (self.registered s).2 := snd_updateAll
  have hkey : (self.final s).2.key = agentKey self.host self.pid := by
    rw [hlast, key_setattrAll hstays]
    rfl
  have hsent : self.sent s = self.calls.flatten.map Arg.field := by
    have hsentTo := @sentTo_of_stays self.calls (self.registered s).2 hstays
    rw [Session.sent, hkey]
    exact hsentTo
  have hbase : self.base s = Hash.set .empty (registerFields self.t self.host self.pid
      (registration self.model self.project self.session_context self.caps)) := by
    rw [Session.base, hkey, Session.registered, register, get?_hset, if_pos rfl, hnew]
    rfl
  have hheld : ∀ field : String, heldOf (self.base s) (self.sent s) field =
      ((self.calls.flatten.map Arg.field).reverse.lookup field).or ((registerFields self.t self.host self.pid
        (registration self.model self.project self.session_context self.caps)).reverse.lookup field) := by
    intro field
    rw [heldOf, hsent, hbase, get_set_reverse]
    exact congrArg _ (Option.or_none)
  have hplain : ∀ field : Field, field = .state ∨ field = .project ∨ field = .task_id ∨ field = .model →
      heldOf (self.base s) (self.sent s) field.name =
        (self.calls.flatten.map Arg.field).reverse.lookup field.name := fun field hfield => by
    rw [hheld, lookup_registerFields hfield, Option.or_none]
  have hpidNone : (self.calls.flatten.map Arg.field).reverse.lookup "pid" = none := by
    rw [List.lookup_eq_none_iff]
    intro f hf
    obtain ⟨arg, harg, rfl⟩ := List.mem_map.mp (List.mem_reverse.mp hf)
    exact bne_iff_ne.mpr (hstays arg harg).2.symm
  have htext : ∀ field : Field, (self.final s).2.textOf field =
      ((self.calls.flatten.map Arg.field).reverse.lookup field.name).getD ((self.registered s).2.textOf field) :=
    fun field => by rw [hlast, textOf_setattrAll]
  have hcaps := @capabilities_setattrAll (self.registered s).2 self.calls.flatten
  rw [← hlast] at hcaps
  rw [← getD_eq_iff, ← getD_eq_iff]
  constructor
  · intro h
    refine ⟨?_, ?_, ?_⟩
    · have hmodel := h.model
      rw [show "model" = Field.model.name from rfl, hplain .model (by simp)] at hmodel
      exact hmodel.trans (htext .model)
    · have hproject := h.project
      rw [show "project" = Field.project.name from rfl, hplain .project (by simp)] at hproject
      exact hproject.trans (htext .project)
    · rcases hcaps with ⟨hnone, -, hsame⟩ | ⟨v, -, hin, -⟩
      · obtain ⟨caps, hread, hdict⟩ := h.capabilities
        rw [hheld, hnone, Option.none_or] at hread
        have hregistration := readCaps_registration self.model self.project self.session_context self.caps
        cases hregistration.symm.trans hread
        rw [hsame] at hdict
        exact absurd hdict (not_sameDict_registration _ _ _ _ _)
      · exact ⟨v, hin⟩
  · rintro ⟨hmodel, hproject, v, hv⟩
    refine ⟨?_, ?_, ?_, ?_, ?_, ?_, ?_⟩
    · rw [hbase, hlast, hostname_setattrAll hstays]
      rfl
    · rw [hheld, hpidNone, hlast, pid_setattrAll hstays]
      exact readPid_toString self.pid
    · exact (congrArg (Option.getD · "idle") (hplain .state (by simp))).trans (htext .state).symm
    · exact (congrArg (Option.getD · "") (hplain .project (by simp))).trans (hproject.trans (htext .project).symm)
    · exact (congrArg (Option.getD · "") (hplain .task_id (by simp))).trans (htext .task_id).symm
    · exact (congrArg (Option.getD · "") (hplain .model (by simp))).trans (hmodel.trans (htext .model).symm)
    · rcases hcaps with ⟨-, hno, -⟩ | ⟨w, hsome, -, hset⟩
      · exact absurd hv (hno v)
      · refine ⟨capsJson w, ?_, by rw [hset]; exact sameDict_capsJson w⟩
        rw [hheld, hsome]
        exact readCaps_capsJson w

/-- **When the list agrees with the caller**, whatever the agent updates, and what that comes to for a new agent. -/
theorem list_agrees_iff (self : Session) (hs : Reachable s) :
    (RoundTrip (self.final s).1 (self.final s).2 ↔ Kept (self.base s) (self.sent s) (self.final s).2) ∧
      (s.get? (agentKey self.host self.pid) = none → (∀ arg ∈ self.calls.flatten, arg.Stays) →
        (RoundTrip (self.final s).1 (self.final s).2 ↔
          (self.model = "" ∨ ∃ v, Arg.text .model v ∈ self.calls.flatten) ∧
          (self.project = "" ∨ ∃ v, Arg.text .project v ∈ self.calls.flatten) ∧
          ∃ v, Arg.capabilities v ∈ self.calls.flatten)) :=
  ⟨roundTrip_iff_kept self hs, fun hnew hstays =>
    (roundTrip_iff_kept self hs).trans (kept_iff_of_stays self hnew hstays)⟩

/-! ## An agent at work -/

/-- An agent registers for a project and goes to work. -/
def atWork (calls : List (List Arg)) : Session :=
  ⟨"0.0", "1970-01-01T00:00:00Z", "a", 1, .ofList [("gpu", true)], "opus", "/p", "", [.text .state "working"] :: calls⟩

/-- `list_agrees_iff` where it then updates what it had registered. -/
theorem list_agrees_iff_updated :
    RoundTrip ((atWork [[.text .project "/p", .text .model "opus", .capabilities .empty]]).final .empty).1
      ((atWork [[.text .project "/p", .text .model "opus", .capabilities .empty]]).final .empty).2 := by
  refine ((list_agrees_iff (atWork [[.text .project "/p", .text .model "opus", .capabilities .empty]]) .empty).2 rfl
    (fun arg harg => ?_)).mpr ⟨Or.inr ⟨"opus", ?_⟩, Or.inr ⟨"/p", ?_⟩, .empty, ?_⟩
  · simp only [atWork, List.flatten_cons, List.flatten_nil, List.append_nil, List.cons_append, List.nil_append,
      List.mem_cons, List.not_mem_nil, or_false] at harg
    rcases harg with rfl | rfl | rfl | rfl <;> simp [Arg.Stays, Arg.field, Field.name]
  all_goals simp [atWork]

/-- **An agent at work is not seen.** It has only registered for its project, and the others see no conflict there. -/
theorem registered_agent_differs : ¬ RoundTrip ((atWork []).final .empty).1 ((atWork []).final .empty).2 ∧
    (listAgents ((atWork []).final .empty).1).toOption.map (fun agents => (checkProjectConflict agents "/p" "").conflict) =
      some false := by
  refine ⟨fun h => ?_, by decide +kernel⟩
  have hkept := (roundTrip_iff_kept (atWork []) .empty).mp h
  obtain ⟨-, -, v, hv⟩ := (kept_iff_of_stays (atWork []) rfl (by simp [atWork, Arg.Stays, Arg.field, Field.name])).mp hkept
  simp [atWork] at hv

end ClaudeSwarm.Registry.Redis
