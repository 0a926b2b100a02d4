import ClaudeSwarm.Data.Dict
import ClaudeSwarm.Data.Json
import ClaudeSwarm.Interleave.System
import ClaudeSwarm.Interleave.Alone

/-!
# IPC agents

Model of `register`, `deregister`, `refresh_heartbeat`, `update_status`, `list_agents` and `cleanup_stale` of
`src/ipc/agent.py`, and of `send` and `broadcast` of `src/ipc/direct.py`, Redis command by Redis command; a pipeline
is a transaction, and a Lua script is one command. An agent is a hash with an expiry, a member of the index, and a
member of the set of its project.

A hash whose key does not exist is empty. A key that expires may do so at any time (`expire`). The agent that a
function falls back to, `_current_agent_id`, is its argument already; the heartbeat thread is any number of calls of
`refresh_heartbeat`. An envelope's id and timestamp, which are new for each, the trimming of streams and the counters
are left out.

* `each_register`, `each_listAgents`, `each_cleanupStale`, `each_broadcast`: the commands that a function may issue.
* `runs_spares`: what leaves the hashes and the sets of the projects as they are.
-/

namespace ClaudeSwarm.Ipc.Agents

open Data Interleave

/-! ## Redis -/

/-- An agent hash. -/
abbrev Hash := Dict String String

/-- `Envelope`, as `send` and `broadcast` build it. -/
structure Envelope where
  sender : String
  recipient : String
  message_type : String
  payload : Json
  priority : Int
  ttl : Int

/-- An entry of an inbox, or of the DLQ, if it was not `delivered`. -/
structure Mail where
  recipient : String
  envelope : Envelope
  delivered : Bool

/-- The keys of the agents: their hashes, and which of these have an expiry; the index and the sets of the projects;
the inboxes that have a consumer group; and what was added to inboxes and the DLQ. -/
structure Keys where
  hash : String → Hash
  volatile : String → Bool
  index : List String
  project : String → List String
  inboxes : List String
  mail : List Mail

namespace Keys

/-- No agents yet. -/
def fresh : Keys := ⟨fun _ => .empty, fun _ => false, [], fun _ => [], [], []⟩

/-- The hash of the agent exists. -/
def Live (s : Keys) (agent_id : String) : Prop := (s.hash agent_id).entries ≠ []

instance (s : Keys) (agent_id : String) : Decidable (s.Live agent_id) :=
  inferInstanceAs (Decidable ((s.hash agent_id).entries ≠ []))

/-- `HSET`; a key that it creates has no expiry. -/
def hset (s : Keys) (agent_id : String) (fields : Hash) : Keys :=
  { s with
    hash := Function.update s.hash agent_id ((s.hash agent_id).update fields)
    volatile := if s.Live agent_id then s.volatile else Function.update s.volatile agent_id false }

/-- `EXPIRE`, which does nothing on a key that does not exist. -/
def expire (s : Keys) (agent_id : String) : Keys :=
  if s.Live agent_id then { s with volatile := Function.update s.volatile agent_id true } else s

/-- `DEL`. -/
def delete (s : Keys) (agent_id : String) : Keys :=
  { s with
    hash := Function.update s.hash agent_id .empty
    volatile := Function.update s.volatile agent_id false }

/-- `SADD` on the index. -/
def sadd (s : Keys) (agent_id : String) : Keys := { s with index := s.index.insert agent_id }

/-- A pipeline of `SREM` on the index. -/
def srem (s : Keys) (agent_ids : List String) : Keys :=
  { s with index := s.index.filter fun a => !agent_ids.contains a }

/-- `SADD` on the set of a project. -/
def saddProject (s : Keys) (project agent_id : String) : Keys :=
  { s with project := Function.update s.project project ((s.project project).insert agent_id) }

/-- `SREM` on the set of a project. -/
def sremProject (s : Keys) (project agent_id : String) : Keys :=
  { s with project := Function.update s.project project ((s.project project).filter (· ≠ agent_id)) }

/-- `SEND_ATOMIC`. -/
def sendAtomic (s : Keys) (env : Envelope) (recipient : String) : Bool × Keys :=
  if recipient ∈ s.index then (true, { s with mail := s.mail ++ [⟨recipient, env, true⟩] })
  else (false, { s with mail := s.mail ++ [⟨recipient, env, false⟩] })

/-- `BROADCAST_ATOMIC`. -/
def broadcastAtomic (s : Keys) (env : Envelope) (sender : String) : Nat × Keys :=
  let recipients := s.index.filter (· ≠ sender)
  (recipients.length, { s with mail := s.mail ++ recipients.map fun agent_id => ⟨agent_id, env, true⟩ })

end Keys

/-- A command; `time` is `time.time()`, `hgetallEach` a pipeline, and `lapse` the end of a key whose time is up. -/
inductive Cmd where
  | time
  | hset (agent_id : String) (fields : Hash)
  | expire (agent_id : String)
  | existsKey (agent_id : String)
  | hgetall (agent_id : String)
  | hgetallEach (agent_ids : List String)
  | delete (agent_id : String)
  | sadd (agent_id : String)
  | srem (agent_ids : List String)
  | smembers
  | saddProject (project agent_id : String)
  | sremProject (project agent_id : String)
  | smembersProject (project : String)
  | ensureGroup (agent_id : String)
  | sendAtomic (env : Envelope) (recipient : String)
  | broadcastAtomic (env : Envelope) (sender : String)
  | lapse (agent_id : String)

abbrev Resp : Cmd → Type
  | .time => String
  | .existsKey _ => Bool
  | .hgetall _ => Hash
  | .hgetallEach _ => List Hash
  | .smembers | .smembersProject _ => List String
  | .sendAtomic .. => Bool
  | .broadcastAtomic .. => Nat
  | _ => Unit

/-- One command, at a time. -/
def exec (_ : Nat) (now : String) (s : Keys) : (c : Cmd) → Option (Resp c × Keys)
  | .time => some (now, s)
  | .hset agent_id fields => some ((), s.hset agent_id fields)
  | .expire agent_id => some ((), s.expire agent_id)
  | .existsKey agent_id => some (decide (s.Live agent_id), s)
  | .hgetall agent_id => some (s.hash agent_id, s)
  | .hgetallEach agent_ids => some (agent_ids.map s.hash, s)
  | .delete agent_id => some ((), s.delete agent_id)
  | .sadd agent_id => some ((), s.sadd agent_id)
  | .srem agent_ids => some ((), s.srem agent_ids)
  | .smembers => some (s.index, s)
  | .saddProject project agent_id => some ((), s.saddProject project agent_id)
  | .sremProject project agent_id => some ((), s.sremProject project agent_id)
  | .smembersProject project => some (s.project project, s)
  | .ensureGroup agent_id => some ((), { s with inboxes := s.inboxes.insert agent_id })
  | .sendAtomic env recipient => some (s.sendAtomic env recipient)
  | .broadcastAtomic env sender => some (s.broadcastAtomic env sender)
  | .lapse agent_id => if s.Live agent_id ∧ s.volatile agent_id then some ((), s.delete agent_id) else none

abbrev sig : Sig := ⟨Cmd, Resp⟩

abbrev store : Store sig := ⟨Keys, String, exec⟩

/-- What the functions raise. -/
inductive Exc where
  | runtimeError (msg : String)
  | valueError (msg : String)

abbrev P (α : Type) := Prog sig Exc α

/-- Issue one command. -/
def cmd (c : Cmd) : P (Resp c) := @Prog.cmd sig Exc c

/-! ## `agent.py` -/

/-- Where an instance runs; its `CLAUDE_SESSION_ID` may be unset. -/
structure Instance where
  hostname : String
  pid : String
  session_id : Option String

/-- `_make_agent_id`. -/
def Instance.agentId (i : Instance) : String :=
  let session_id := (i.session_id.getD "0000").toList
  i.hostname ++ ":" ++ i.pid ++ ":" ++ .ofList ((session_id ++ List.replicate 4 '0').take 4)

/-- The fields of a new hash. -/
def agentData (i : Instance) (project model registered_at last_heartbeat : String) : Hash :=
  .ofList [("hostname", i.hostname), ("pid", i.pid), ("session_id", i.session_id.getD ""), ("project", project),
    ("model", model), ("status", "online"), ("registered_at", registered_at), ("last_heartbeat", last_heartbeat)]

/-- `if project: r.sadd(…)`. -/
def addToProject (project agent_id : String) : P Unit :=
  if project = "" then .ret () else cmd (.saddProject project agent_id)

/-- `register`. -/
def register (i : Instance) (project model : String) : P String := do
  let registered_at ← cmd .time
  let last_heartbeat ← cmd .time
  cmd (.hset i.agentId (agentData i project model registered_at last_heartbeat))
  cmd (.expire i.agentId)
  cmd (.sadd i.agentId)
  addToProject project i.agentId
  cmd (.ensureGroup i.agentId)
  return i.agentId

/-- `data.get("project", "")`. -/
def projectOf (data : Hash) : String := (data.get? "project").getD ""

/-- `if project: r.srem(…)`. -/
def removeFromProject (project agent_id : String) : P Unit :=
  if project = "" then .ret () else cmd (.sremProject project agent_id)

/-- `deregister`. -/
def deregister (agent_id : String) : P Bool :=
  if agent_id = "" then .ret false
  else do
    let data ← cmd (.hgetall agent_id)
    cmd (.srem [agent_id])
    removeFromProject (projectOf data) agent_id
    cmd (.delete agent_id)
    return true

/-- `refresh_heartbeat`. -/
def refreshHeartbeat (agent_id : String) : P Bool :=
  if agent_id = "" then .ret false
  else do
    match ← cmd (.existsKey agent_id) with
    | false => return false
    | true =>
      let now ← cmd .time
      cmd (.hset agent_id (.ofList [("last_heartbeat", now)]))
      cmd (.expire agent_id)
      return true

/-- `if fields: r.hset(…)`. -/
def setFields (agent_id : String) (fields : Hash) : P Unit :=
  if fields.entries = [] then .ret () else cmd (.hset agent_id fields)

/-- `update_status`. -/
def updateStatus (agent_id : String) (fields : Hash) : P Bool :=
  if agent_id = "" then .ret false
  else do
    match ← cmd (.existsKey agent_id) with
    | false => return false
    | true =>
      setFields agent_id fields
      return true

/-- `if stale: … r.srem(…)`. -/
def removeStale (stale : List String) : P Unit := if stale = [] then .ret () else cmd (.srem stale)

/-- The ids that `list_agents` looks up. -/
def memberIds (project : Option String) : P (List String) :=
  match project.filter (· ≠ "") with
  | some project => cmd (.smembersProject project)
  | none => cmd .smembers

/-- The agents that are listed: those with a hash, each with its id. -/
def listed (found : List (String × Hash)) : List Hash :=
  (found.filter fun p => p.2.entries ≠ []).map fun p => p.2.set "agent_id" p.1

/-- `list_agents`; `sorted` puts the ids in order. -/
def listAgents (project : Option String) : P (List Hash) := do
  let agent_ids ← memberIds project
  let agent_ids := agent_ids.mergeSort
  if agent_ids = [] then return []
  else
    let results ← cmd (.hgetallEach agent_ids)
    let found := agent_ids.zip results
    removeStale ((found.filter fun p => p.2.entries = []).map Prod.fst)
    return listed found

/-- The loop of `cleanup_stale`. -/
def staleIds : List String → P (List String)
  | [] => .ret []
  | agent_id :: all_ids => do
    let there ← cmd (.existsKey agent_id)
    let stale ← staleIds all_ids
    return if there then stale else agent_id :: stale

/-- `cleanup_stale`. -/
def cleanupStale : P (List String) := do
  let all_ids ← cmd .smembers
  let stale ← staleIds all_ids
  removeStale stale
  return stale

/-! ## `direct.py` -/

/-- `{"text": payload}`, if it is a text. -/
def wrap : Json → Json
  | .str text => .obj [("text", .str text)]
  | payload => payload

/-- `Envelope`, whose priority is checked. -/
def envelope (sender recipient message_type : String) (payload : Json) (priority ttl : Int) : P Envelope :=
  if 0 ≤ priority ∧ priority ≤ 5 then .ret ⟨sender, recipient, message_type, payload, priority, ttl⟩
  else .raise (.valueError ("Priority must be 0-5, got " ++ toString priority))

def notRegistered : Exc := .runtimeError "Not registered — call ipc.register() first"

/-- `send`. -/
def send (recipient : String) (payload : Json) (priority ttl : Int) (sender : String) : P Bool :=
  if sender = "" then .raise notRegistered
  else do
    let env ← envelope sender recipient "direct" (wrap payload) priority ttl
    cmd (.sendAtomic env recipient)

/-- The loop of `broadcast` over the members of a project. -/
def sendEach (payload : Json) (priority ttl : Int) (sender : String) : List String → P Nat
  | [] => .ret 0
  | member :: members =>
    if member = sender then sendEach payload priority ttl sender members
    else do
      let delivered ← send member payload priority ttl sender
      let count ← sendEach payload priority ttl sender members
      return if delivered then count + 1 else count

/-- `broadcast`. -/
def broadcast (payload : Json) (priority ttl : Int) (sender : String) (project : Option String) : P Nat :=
  if sender = "" then .raise notRegistered
  else match project.filter (· ≠ "") with
    | some project => do
      let members ← cmd (.smembersProject project)
      sendEach (wrap payload) priority ttl sender members
    | none => do
      let env ← envelope sender "*" "broadcast" (wrap payload) priority ttl
      cmd (.broadcastAtomic env sender)

/-! ## What the functions do -/

/-- A command that leaves the hashes and the sets of the projects as they are. -/
def Cmd.Spares : Cmd → Prop
  | .hset .. | .delete _ | .saddProject .. | .sremProject .. | .lapse _ => False
  | _ => True

/-- A command that does not wait for a key to expire. -/
def Cmd.Answers : Cmd → Prop
  | .lapse _ => False
  | _ => True

variable {n : Nat} {s s' : Keys}

theorem exec_answers (n : Nat) (s : Keys) (c : Cmd) (hc : c.Answers) :
    ∃ now x s', store.exec n now s c = some (x, s') := by
  cases c with
  | lapse agent_id => exact hc.elim
  | _ => exact ⟨"", _, _, rfl⟩

theorem exec_lapse {a now : String} {x : Unit} (h : store.exec n now s (.lapse a) = some (x, s')) :
    s.Live a ∧ s.volatile a = true ∧ s' = s.delete a := by
  have hx : (if s.Live a ∧ s.volatile a then some ((), s.delete a) else none) = some (x, s') := h
  split at hx
  · rename_i hif
    exact ⟨hif.1, hif.2, (Prod.mk.inj (Option.some.inj hx)).2.symm⟩
  · cases hx

/-- `SEND_ATOMIC` only adds to the mail. -/
theorem exec_sendAtomic {env : Envelope} {recipient now : String} {x : Bool}
    (h : store.exec n now s (.sendAtomic env recipient) = some (x, s')) : ∃ mail, s' = { s with mail := mail } := by
  have hsend : s.sendAtomic env recipient = (x, s') := Option.some.inj h
  unfold Keys.sendAtomic at hsend
  split at hsend
  · exact ⟨_, (Prod.mk.inj hsend).2.symm⟩
  · exact ⟨_, (Prod.mk.inj hsend).2.symm⟩

theorem exec_spares {c : Cmd} {now : String} {x : Resp c} (h : store.exec n now s c = some (x, s'))
    (hc : c.Spares) : s'.hash = s.hash ∧ s'.project = s.project := by
  cases c with
  | hset | delete | saddProject | sremProject | lapse => exact hc.elim
  | expire agent_id =>
    cases h
    unfold Keys.expire
    split
    · exact ⟨rfl, rfl⟩
    · exact ⟨rfl, rfl⟩
  | sendAtomic env recipient =>
    obtain ⟨mail, rfl⟩ := exec_sendAtomic h
    exact ⟨rfl, rfl⟩
  | _ =>
    cases h
    exact ⟨rfl, rfl⟩

/-- What such commands leave as it is. -/
theorem runs_spares {α : Type} {p : P α} (hp : p.Each Cmd.Spares) {r : Except Exc α} (h : store.Runs n p s r s') :
    s'.hash = s.hash ∧ s'.project = s.project := by
  have hends : store.Ends n (fun _ => True) (fun s₁ => s₁.hash = s.hash ∧ s₁.project = s.project) p
      fun _ s₁ => s₁.hash = s.hash ∧ s₁.project = s.project := by
    refine Store.ends_each (fun (c : Cmd) (hc : c.Spares) _ s₁ x s₂ _ hs₁ hx => ⟨trivial, ?_⟩) hp
    have hspares := exec_spares hx hc
    exact ⟨hspares.1.trans hs₁.1, hspares.2.trans hs₁.2⟩
  exact hends.runs trivial ⟨rfl, rfl⟩ h

theorem each_addToProject {ok : Cmd → Prop} {project agent_id : String} (h : ok (.saddProject project agent_id)) :
    (addToProject project agent_id).Each ok := by
  unfold addToProject
  split
  · trivial
  · exact ⟨h, fun _ => trivial⟩

theorem each_register {ok : Cmd → Prop} {i : Instance} (htime : ok .time)
    (hset : ∀ fields, ok (.hset i.agentId fields)) (hexpire : ok (.expire i.agentId)) (hadd : ok (.sadd i.agentId))
    (hproject : ∀ project, ok (.saddProject project i.agentId)) (hensure : ok (.ensureGroup i.agentId))
    (project model : String) : (register i project model).Each ok := by
  refine Prog.each_cmd_bind htime fun _ => Prog.each_cmd_bind htime fun _ => Prog.each_cmd_bind (hset _) fun _ =>
    Prog.each_cmd_bind hexpire fun _ => Prog.each_cmd_bind hadd fun _ =>
      Prog.each_bind (fun _ => Prog.each_cmd_bind hensure fun _ => ?_) (each_addToProject (hproject project))
  trivial

theorem each_removeStale {ok : Cmd → Prop} {stale : List String} (h : ok (.srem stale)) :
    (removeStale stale).Each ok := by
  unfold removeStale
  split
  · trivial
  · exact ⟨h, fun _ => trivial⟩

theorem each_listAgents {ok : Cmd → Prop} (hmembers : ∀ project, ok (.smembersProject project)) (hall : ok .smembers)
    (hget : ∀ ids, ok (.hgetallEach ids)) (hrem : ∀ stale, ok (.srem stale)) (project : Option String) :
    (listAgents project).Each ok := by
  refine Prog.each_bind (fun agent_ids => ?_) ?_
  · dsimp only
    split
    · trivial
    · refine Prog.each_cmd_bind (hget _) fun results => ?_
      refine Prog.each_bind (fun _ => ?_) (each_removeStale (hrem _))
      trivial
  · unfold memberIds
    split
    · exact ⟨hmembers _, fun _ => trivial⟩
    · exact ⟨hall, fun _ => trivial⟩

theorem each_staleIds {ok : Cmd → Prop} (hget : ∀ agent_id, ok (.existsKey agent_id)) :
    ∀ all_ids : List String, (staleIds all_ids).Each ok
  | [] => trivial
  | agent_id :: all_ids => by
    refine Prog.each_cmd_bind (hget agent_id) fun _ => Prog.each_bind (fun _ => ?_) (each_staleIds hget all_ids)
    trivial

theorem each_cleanupStale {ok : Cmd → Prop} (hall : ok .smembers) (hget : ∀ agent_id, ok (.existsKey agent_id))
    (hrem : ∀ stale, ok (.srem stale)) : cleanupStale.Each ok := by
  refine Prog.each_cmd_bind hall fun all_ids => Prog.each_bind (fun stale => ?_) (each_staleIds hget all_ids)
  refine Prog.each_bind (fun _ => ?_) (each_removeStale (hrem stale))
  trivial

theorem each_envelope {ok : Cmd → Prop} (sender recipient message_type : String) (payload : Json)
    (priority ttl : Int) : (envelope sender recipient message_type payload priority ttl).Each ok := by
  unfold envelope
  split
  · trivial
  · trivial

theorem each_send {ok : Cmd → Prop} {recipient : String} (h : ∀ env, ok (.sendAtomic env recipient)) (payload : Json)
    (priority ttl : Int) (sender : String) : (send recipient payload priority ttl sender).Each ok := by
  unfold send
  split
  · trivial
  · refine Prog.each_bind (fun env => ?_) (each_envelope ..)
    exact ⟨h env, fun _ => trivial⟩

theorem each_sendEach {ok : Cmd → Prop} {payload : Json} {priority ttl : Int} {sender : String} :
    ∀ {members : List String}, (∀ env, ∀ member ∈ members, ok (.sendAtomic env member)) →
      (sendEach payload priority ttl sender members).Each ok
  | [], _ => trivial
  | member :: members, h => by
    have hrest : (sendEach payload priority ttl sender members).Each ok :=
      each_sendEach fun env m hm => h env m (List.mem_cons_of_mem member hm)
    unfold sendEach
    split
    · exact hrest
    · refine Prog.each_bind (fun _ => Prog.each_bind (fun _ => ?_) hrest)
        (each_send (fun env => h env member List.mem_cons_self) ..)
      trivial

theorem each_broadcast {ok : Cmd → Prop} (hmembers : ∀ project, ok (.smembersProject project))
    (hsend : ∀ env recipient, ok (.sendAtomic env recipient)) (hall : ∀ env sender, ok (.broadcastAtomic env sender))
    (payload : Json) (priority ttl : Int) (sender : String) (project : Option String) :
    (broadcast payload priority ttl sender project).Each ok := by
  unfold broadcast
  split
  · trivial
  · split
    · exact Prog.each_cmd_bind (hmembers _) fun members => each_sendEach fun env member _ => hsend env member
    · refine Prog.each_bind (fun env => ?_) (each_envelope ..)
      exact ⟨hall env sender, fun _ => trivial⟩

/-! ## Calls -/

/-- An operation of an agent, or the expiry of a key. -/
inductive Op where
  | register (i : Instance) (project model : String)
  | deregister (agent_id : String)
  | refreshHeartbeat (agent_id : String)
  | updateStatus (agent_id : String) (fields : Hash)
  | listAgents (project : Option String)
  | cleanupStale
  | send (recipient : String) (payload : Json) (priority ttl : Int) (sender : String)
  | broadcast (payload : Json) (priority ttl : Int) (sender : String) (project : Option String)
  | expire (agent_id : String)

abbrev Ret : Op → Type
  | .register .. => String
  | .listAgents _ => List Hash
  | .cleanupStale => List String
  | .broadcast .. => Nat
  | .expire _ => Unit
  | _ => Bool

def prog : (o : Op) → P (Ret o)
  | .register i project model => Agents.register i project model
  | .deregister agent_id => Agents.deregister agent_id
  | .refreshHeartbeat agent_id => Agents.refreshHeartbeat agent_id
  | .updateStatus agent_id fields => Agents.updateStatus agent_id fields
  | .listAgents project => Agents.listAgents project
  | .cleanupStale => Agents.cleanupStale
  | .send recipient payload priority ttl sender => Agents.send recipient payload priority ttl sender
  | .broadcast payload priority ttl sender project => Agents.broadcast payload priority ttl sender project
  | .expire agent_id => cmd (.lapse agent_id)

/-- The agents of any number of processes. -/
abbrev system : System := ⟨sig, store, Exc, Op, Ret, prog⟩

end ClaudeSwarm.Ipc.Agents
