import ClaudeSwarm.Ipc.Agents
import Mathlib.Data.Fintype.EquivFin

/-!
# The projects of the agents

The project of an agent is stored twice, in its hash and as a member of a set. Calls one after the other, with keys
that expire between them: `register` does not take the agent out of the set it was in, `update_status` writes to the
hash alone, and neither an expiry nor a cleanup takes an agent out of the set of its project.

* `indexed_iff_inSync`: what is listed and sent is right exactly if the sets are those of the hashes.
* `inSync_register`, `inSync_updateStatus`, `inSync_expire`: exactly when a call keeps them so.
* **`indexed_throughout_iff`**: so a sequence of calls is right throughout exactly if every call of it meets the
  condition.
* `moved`: an agent that registers with another project.
-/

namespace ClaudeSwarm.Ipc.Agents

open Data Interleave

/-! ## What should hold -/

/-- The project of the agent's hash; an agent without a hash has none. -/
def Keys.projectOf (s : Keys) (agent_id : String) : String := Agents.projectOf (s.hash agent_id)

/-- **The projects are right**: `list_agents` of a project lists exactly the agents whose live hash has it, and
`broadcast` to it sends to no other agents. -/
structure Indexed (s : Keys) : Prop where
  listed : ∀ p, p ≠ "" → ∀ n r s', store.Runs n (listAgents (some p)) s r s' →
    ∃ agents, r = .ok agents ∧ ∀ a, (∃ data ∈ agents, data.get? "agent_id" = some a) ↔ s.projectOf a = p
  sent : ∀ p, p ≠ "" → ∀ n payload priority ttl sender r s',
    store.Runs n (broadcast payload priority ttl sender (some p)) s r s' →
      ∃ sent, s'.mail = s.mail ++ sent ∧ ∀ m ∈ sent, s.projectOf m.recipient = p

/-- Calls, one after the other, each with the state before it. -/
inductive Sequence (s₀ : Keys) : List (Keys × Op) → Keys → Prop
  | start : Sequence s₀ [] s₀
  | call {l : List (Keys × Op)} {s s' : Keys} (h : Sequence s₀ l s) (n : Nat) (o : Op) (r : Except Exc (Ret o))
      (hr : store.Runs n (prog o) s r s') : Sequence s₀ (l ++ [(s, o)]) s'

/-- **The condition of a call**: an agent that registers has no live hash with another project, `update_status` does
not change the project of a live agent, and only an agent without a project expires. -/
def Settles (s : Keys) : Op → Prop
  | .register i project _ => s.projectOf i.agentId = "" ∨ s.projectOf i.agentId = project
  | .updateStatus agent_id fields => agent_id ≠ "" → s.Live agent_id → ∀ project,
      fields.get? "project" = some project → project = s.projectOf agent_id
  | .expire agent_id => s.projectOf agent_id = ""
  | _ => True

/-! ## In sync -/

/-- The sets of the projects are those of the hashes. -/
def InSync (s : Keys) : Prop := ∀ p a, p ≠ "" → (a ∈ s.project p ↔ s.projectOf a = p)

variable {n : Nat} {s s' : Keys} {p a : String}

theorem live_of_projectOf (hp : p ≠ "") (h : s.projectOf a = p) : s.Live a := by
  intro hnone
  have hempty : (s.hash a).get? "project" = none := by rw [Dict.get?, hnone]; rfl
  rw [Keys.projectOf, projectOf, hempty] at h
  exact hp h.symm

theorem runs_removeStale {α : Type} {stale : List String} {x : α} {r : Except Exc α}
    (h : store.Runs n (removeStale stale >>= fun _ => .ret x) s r s') : r = .ok x := by
  unfold removeStale at h
  split at h
  · exact h.1
  · obtain ⟨_, _, _, -, hr⟩ := h
    exact hr.1

/-- What `list_agents` of a project lists. -/
theorem runs_listAgents (hp : p ≠ "") {r : Except Exc (List Hash)} (h : store.Runs n (listAgents (some p)) s r s') :
    r = .ok (listed ((s.project p).mergeSort.map fun a => (a, s.hash a))) := by
  have hids : memberIds (some p) = cmd (.smembersProject p) := by
    simp [memberIds, Option.filter, hp]
  unfold listAgents at h
  rw [hids] at h
  obtain ⟨_, ids, _, hx, h⟩ := h
  cases hx
  dsimp only [Prog.bind] at h
  split at h
  · rename_i hnil
    rw [hnil]
    exact h.1
  · obtain ⟨_, results, _, hx, h⟩ := h
    cases hx
    have hzip : (s.project p).mergeSort.zip ((s.project p).mergeSort.map s.hash) =
        (s.project p).mergeSort.map fun a => (a, s.hash a) := by
      rw [List.zip_eq_zipWith, List.zipWith_map_right, List.zipWith_self]
    rw [← hzip]
    exact runs_removeStale h

theorem exists_runs_listAgents (n : Nat) (p : String) (s : Keys) :
    ∃ r s', store.Runs n (listAgents (some p)) s r s' :=
  store.exists_runs_each n (exec_answers n) (each_listAgents (fun _ => trivial) trivial (fun _ => trivial)
    (fun _ => trivial) _) s

theorem mem_listed {ids : List String} : (∃ data ∈ listed (ids.map fun a => (a, s.hash a)),
    data.get? "agent_id" = some a) ↔ a ∈ ids ∧ s.Live a := by
  unfold listed
  constructor
  · rintro ⟨data, hdata, ha⟩
    obtain ⟨⟨b, hash⟩, hb, rfl⟩ := List.mem_map.mp hdata
    rw [Dict.get?_set, if_pos rfl] at ha
    cases ha
    obtain ⟨hmem, hlive⟩ := List.mem_filter.mp hb
    obtain ⟨c, hc, he⟩ := List.mem_map.mp hmem
    obtain ⟨rfl, rfl⟩ := Prod.mk.inj he
    exact ⟨hc, of_decide_eq_true hlive⟩
  · rintro ⟨ha, hlive⟩
    have hfound : (a, s.hash a) ∈ (ids.map fun a => (a, s.hash a)).filter fun p => p.2.entries ≠ [] :=
      List.mem_filter.mpr ⟨List.mem_map_of_mem ha, decide_eq_true hlive⟩
    exact ⟨_, List.mem_map_of_mem hfound, by rw [Dict.get?_set, if_pos rfl]⟩

/-- `send`, of a registered sender and a valid priority. -/
theorem send_valid {recipient sender : String} {payload : Json} {priority ttl : Int} (hsender : sender ≠ "")
    (hpriority : 0 ≤ priority ∧ priority ≤ 5) : send recipient payload priority ttl sender =
      cmd (.sendAtomic ⟨sender, recipient, "direct", wrap payload, priority, ttl⟩ recipient) := by
  rw [send, if_neg hsender, envelope, if_pos hpriority]
  rfl

theorem send_invalid {recipient sender : String} {payload : Json} {priority ttl : Int} (hsender : sender ≠ "")
    (hpriority : ¬ (0 ≤ priority ∧ priority ≤ 5)) :
    ∃ e, send recipient payload priority ttl sender = .raise e := by
  rw [send, if_neg hsender, envelope, if_neg hpriority]
  exact ⟨_, rfl⟩

theorem mail_sendAtomic {env : Envelope} {recipient : String} :
    ∃ delivered, (s.sendAtomic env recipient).2.mail = s.mail ++ [⟨recipient, env, delivered⟩] := by
  unfold Keys.sendAtomic
  split
  · exact ⟨true, rfl⟩
  · exact ⟨false, rfl⟩

/-- The loop of `broadcast`, at a member that is not the sender. -/
theorem sendEach_cons {member sender : String} {members : List String} {payload : Json} {priority ttl : Int}
    (hsender : sender ≠ "") (hpriority : 0 ≤ priority ∧ priority ≤ 5) (hmember : member ≠ sender) :
    sendEach payload priority ttl sender (member :: members) =
      (cmd (.sendAtomic ⟨sender, member, "direct", wrap payload, priority, ttl⟩ member) >>= fun delivered =>
        sendEach payload priority ttl sender members >>= fun count =>
          .ret (if delivered then count + 1 else count)) := by
  rw [sendEach, if_neg hmember, send_valid hsender hpriority]
  rfl

/-- The loop of `broadcast` sends to every member but the sender. -/
theorem runs_sendEach {payload : Json} {priority ttl : Int} {sender : String} (hsender : sender ≠ "")
    (hpriority : 0 ≤ priority ∧ priority ≤ 5) : ∀ {members : List String} {s : Keys} {r : Except Exc Nat},
      store.Runs n (sendEach payload priority ttl sender members) s r s' →
        ∃ sent, s'.mail = s.mail ++ sent ∧ sent.map Mail.recipient = members.filter (· ≠ sender)
  | [], s, r, h => ⟨[], by rw [h.2, List.append_nil], rfl⟩
  | member :: members, s, r, h => by
    by_cases hmember : member = sender
    · rw [sendEach, if_pos hmember] at h
      obtain ⟨sent, hmail, hsent⟩ := runs_sendEach hsender hpriority h
      exact ⟨sent, hmail, by rw [hsent, List.filter_cons_of_neg (by simpa using hmember)]⟩
    · rw [sendEach_cons hsender hpriority hmember] at h
      obtain ⟨_, delivered, s₁, hx, h⟩ := h
      obtain ⟨d, hd⟩ := @mail_sendAtomic s ⟨sender, member, "direct", wrap payload, priority, ttl⟩ member
      have hs₁ : s₁ = (s.sendAtomic ⟨sender, member, "direct", wrap payload, priority, ttl⟩ member).2 :=
        (Prod.mk.inj (Option.some.inj hx)).2.symm
      have hrest : ∃ r₁, store.Runs n (sendEach payload priority ttl sender members) s₁ r₁ s' := by
        obtain ⟨count, s₂, hrest, hret⟩ | ⟨e, hrest, -⟩ := (store.runs_bind n (p := sendEach ..)).mp h
        · exact ⟨_, hret.2 ▸ hrest⟩
        · exact ⟨_, hrest⟩
      obtain ⟨r₁, hrest⟩ := hrest
      obtain ⟨sent, hmail, hsent⟩ := runs_sendEach hsender hpriority hrest
      refine ⟨⟨member, ⟨sender, member, "direct", wrap payload, priority, ttl⟩, d⟩ :: sent, ?_, ?_⟩
      · rw [hmail, hs₁, hd, List.append_assoc, List.singleton_append]
      · rw [List.map_cons, hsent, List.filter_cons_of_pos (by simpa using hmember)]

/-- Nothing is sent with a priority that is not valid. -/
theorem runs_sendEach_invalid {payload : Json} {priority ttl : Int} {sender : String} (hsender : sender ≠ "")
    (hpriority : ¬ (0 ≤ priority ∧ priority ≤ 5)) : ∀ {members : List String} {s : Keys} {r : Except Exc Nat},
      store.Runs n (sendEach payload priority ttl sender members) s r s' → s' = s
  | [], s, r, h => h.2
  | member :: members, s, r, h => by
    unfold sendEach at h
    by_cases hmember : member = sender
    · rw [if_pos hmember] at h
      exact runs_sendEach_invalid hsender hpriority h
    · rw [if_neg hmember] at h
      obtain ⟨e, he⟩ : ∃ e, send member payload priority ttl sender = .raise e := send_invalid hsender hpriority
      rw [he] at h
      exact h.2

theorem broadcast_project (hp : p ≠ "") {payload : Json} {priority ttl : Int} {sender : String}
    (hsender : sender ≠ "") : broadcast payload priority ttl sender (some p) =
      (cmd (.smembersProject p) >>= fun members => sendEach (wrap payload) priority ttl sender members) := by
  have hsome : (some p).filter (fun q => decide (q ≠ "")) = some p := by simp [Option.filter, hp]
  rw [broadcast, if_neg hsender, hsome]

/-- **What is listed and sent is right exactly if the sets are those of the hashes.** -/
theorem indexed_iff_inSync : Indexed s ↔ InSync s := by
  constructor
  · intro h p a hp
    constructor
    · intro ha
      obtain ⟨sender, hfresh⟩ := Infinite.exists_notMem_finset ("" :: s.project p).toFinset
      rw [List.mem_toFinset, List.mem_cons, not_or] at hfresh
      have heach : (sendEach (wrap .null) 3 0 sender (s.project p)).Each Cmd.Answers :=
        each_sendEach fun _ _ _ => trivial
      obtain ⟨r, s', hrun⟩ := store.exists_runs_each 0 (exec_answers 0) heach s
      have hbroadcast : store.Runs 0 (broadcast .null 3 0 sender (some p)) s r s' := by
        rw [broadcast_project hp hfresh.1]
        exact ⟨"", _, _, rfl, hrun⟩
      obtain ⟨sent, hmail, hsent⟩ := h.sent p hp 0 .null 3 0 sender _ s' hbroadcast
      obtain ⟨sent', hmail', hsent'⟩ := runs_sendEach hfresh.1 (by decide) hrun
      obtain rfl : sent = sent' := List.append_cancel_left (hmail.symm.trans hmail')
      have hmem : a ∈ sent.map Mail.recipient := by
        rw [hsent', List.mem_filter]
        exact ⟨ha, decide_eq_true fun he => hfresh.2 (he ▸ ha)⟩
      obtain ⟨m, hm, rfl⟩ := List.mem_map.mp hmem
      exact hsent m hm
    · intro ha
      obtain ⟨r, s', hrun⟩ := exists_runs_listAgents 0 p s
      obtain ⟨agents, hagents, hlist⟩ := h.listed p hp 0 r s' hrun
      obtain rfl := Except.ok.inj ((runs_listAgents hp hrun).symm.trans hagents)
      have hmem := (hlist a).mpr ha
      rw [mem_listed, List.mem_mergeSort] at hmem
      exact hmem.1
  · intro h
    refine ⟨fun p hp n r s' hrun => ?_, fun p hp n payload priority ttl sender r s' hrun => ?_⟩
    · refine ⟨_, runs_listAgents hp hrun, fun a => ?_⟩
      rw [mem_listed, List.mem_mergeSort, h p a hp]
      exact ⟨And.left, fun ha => ⟨ha, live_of_projectOf hp ha⟩⟩
    · by_cases hsender : sender = ""
      · rw [broadcast, if_pos hsender] at hrun
        exact ⟨[], by rw [hrun.2, List.append_nil], by simp⟩
      · rw [broadcast_project hp hsender] at hrun
        obtain ⟨_, members, _, hx, hrun⟩ := hrun
        cases hx
        by_cases hpriority : 0 ≤ priority ∧ priority ≤ 5
        · obtain ⟨sent, hmail, hsent⟩ := runs_sendEach hsender hpriority hrun
          refine ⟨sent, hmail, fun m hm => (h p _ hp).mp ?_⟩
          have hmem : m.recipient ∈ (s.project p).filter (· ≠ sender) := hsent ▸ List.mem_map_of_mem hm
          exact List.mem_of_mem_filter hmem
        · exact ⟨[], by rw [runs_sendEach_invalid hsender hpriority hrun, List.append_nil], by simp⟩

/-! ## Calls -/

/-- The set of a project, when an agent was added to it. -/
theorem runs_addToProject {α : Type} {project agent_id : String} {q : P α} {r : Except Exc α}
    (h : store.Runs n (addToProject project agent_id >>= fun _ => q) s r s') :
    ∃ s₁, store.Runs n q s₁ r s' ∧ s₁.hash = s.hash ∧ ∀ p, p ≠ "" → ∀ a,
      a ∈ s₁.project p ↔ a ∈ s.project p ∨ p = project ∧ a = agent_id := by
  unfold addToProject at h
  by_cases hproject : project = ""
  · rw [if_pos hproject] at h
    refine ⟨s, h, rfl, fun p hp a => ?_⟩
    rw [or_iff_left fun he => hp (he.1.trans hproject)]
  · rw [if_neg hproject] at h
    obtain ⟨_, _, s₁, hx, h⟩ := h
    cases hx
    refine ⟨_, h, rfl, fun p _ a => ?_⟩
    by_cases hp : p = project
    · subst hp
      simp [Keys.saddProject, or_comm]
    · simp [Keys.saddProject, hp]

/-- The set of a project, when an agent was taken out of it. -/
theorem runs_removeFromProject {α : Type} {project agent_id : String} {q : P α} {r : Except Exc α}
    (h : store.Runs n (removeFromProject project agent_id >>= fun _ => q) s r s') :
    ∃ s₁, store.Runs n q s₁ r s' ∧ s₁.hash = s.hash ∧ ∀ p, p ≠ "" → ∀ a,
      a ∈ s₁.project p ↔ a ∈ s.project p ∧ ¬ (p = project ∧ a = agent_id) := by
  unfold removeFromProject at h
  by_cases hproject : project = ""
  · rw [if_pos hproject] at h
    refine ⟨s, h, rfl, fun p hp a => ?_⟩
    rw [and_iff_left fun he => hp (he.1.trans hproject)]
  · rw [if_neg hproject] at h
    obtain ⟨_, _, s₁, hx, h⟩ := h
    cases hx
    refine ⟨_, h, rfl, fun p _ a => ?_⟩
    by_cases hp : p = project
    · subst hp
      simp [Keys.sremProject]
    · simp [Keys.sremProject, hp]

theorem projectOf_hset {agent_id : String} {fields : Hash} : (s.hset agent_id fields).projectOf a =
    if a = agent_id then ((fields.get? "project").or ((s.hash agent_id).get? "project")).getD ""
    else s.projectOf a := by
  by_cases ha : a = agent_id
  · subst ha
    simp [Keys.projectOf, projectOf, Keys.hset, Dict.get?_update]
  · simp [Keys.projectOf, Keys.hset, ha]

theorem projectOf_delete {agent_id : String} :
    (s.delete agent_id).projectOf a = if a = agent_id then "" else s.projectOf a := by
  by_cases ha : a = agent_id
  · subst ha
    simp [Keys.projectOf, projectOf, Keys.delete]
  · simp [Keys.projectOf, Keys.delete, ha]

/-- Where the hashes are the same, so are the projects. -/
theorem projectOf_of_hash (h : s'.hash = s.hash) : s'.projectOf a = s.projectOf a := by
  rw [Keys.projectOf, h, Keys.projectOf]

theorem get?_agentData (i : Instance) (project model registered_at last_heartbeat : String) :
    (agentData i project model registered_at last_heartbeat).get? "project" = some project := rfl

/-- What `register` leaves of hashes and projects. -/
theorem runs_register {i : Instance} {project model : String} {r : Except Exc String}
    (h : store.Runs n (register i project model) s r s') :
    (∀ a, s'.projectOf a = if a = i.agentId then project else s.projectOf a) ∧
      ∀ p, p ≠ "" → ∀ a, a ∈ s'.project p ↔ a ∈ s.project p ∨ p = project ∧ a = i.agentId := by
  obtain ⟨t₁, _, _, hx, t₂, _, _, hy, _, _, s₁, hset, _, _, s₂, hexpire, _, _, s₃, hadd, h⟩ := h
  cases hx
  cases hy
  cases hset
  obtain ⟨he, he'⟩ := exec_spares hexpire trivial
  obtain ⟨ha, ha'⟩ := exec_spares hadd trivial
  obtain ⟨s₄, h, hhash, hproject⟩ := runs_addToProject h
  obtain ⟨_, _, s₅, hensure, -, rfl⟩ := h
  obtain ⟨hg, hg'⟩ := exec_spares hensure trivial
  have hbefore : s₃.project = s.project := ha'.trans he'
  refine ⟨fun a => ?_, fun p hp a => ?_⟩
  · rw [projectOf_of_hash (hg.trans (hhash.trans (ha.trans he))), projectOf_hset, get?_agentData]
    rfl
  · rw [hg', hproject p hp a, hbefore]

theorem inSync_register (h : InSync s) {i : Instance} {project model : String} {r : Except Exc String}
    (hr : store.Runs n (register i project model) s r s') :
    InSync s' ↔ s.projectOf i.agentId = "" ∨ s.projectOf i.agentId = project := by
  obtain ⟨hof, hmem⟩ := runs_register hr
  constructor
  · intro hs'
    by_contra hnot
    rw [not_or] at hnot
    have ha := (hmem _ hnot.1 i.agentId).mpr (.inl ((h _ _ hnot.1).mpr rfl))
    have hproject := (hs' _ _ hnot.1).mp ha
    rw [hof, if_pos rfl] at hproject
    exact hnot.2 hproject.symm
  · intro hold p a hp
    rw [hmem p hp, hof, h p a hp]
    by_cases ha : a = i.agentId
    · subst ha
      rw [if_pos rfl]
      constructor
      · rintro (hthere | ⟨hthere, -⟩)
        · rcases hold with hold | hold
          · exact absurd (hthere.symm.trans hold) hp
          · exact hold.symm.trans hthere
        · exact hthere.symm
      · intro he
        exact .inr ⟨he.symm, rfl⟩
    · rw [if_neg ha, or_iff_left fun he => ha he.2]

theorem inSync_deregister (h : InSync s) {agent_id : String} {r : Except Exc Bool}
    (hr : store.Runs n (deregister agent_id) s r s') : InSync s' := by
  unfold deregister at hr
  split at hr
  · exact hr.2 ▸ h
  · obtain ⟨_, _, _, hx, _, _, s₁, hrem, hr⟩ := hr
    cases hx
    cases hrem
    obtain ⟨s₂, hr, hhash, hproject⟩ := runs_removeFromProject hr
    obtain ⟨_, _, s₃, hdel, -, rfl⟩ := hr
    cases hdel
    intro p a hp
    have hmem : a ∈ (s₂.delete agent_id).project p ↔ a ∈ s₂.project p := Iff.rfl
    rw [hmem, hproject p hp a, projectOf_delete, projectOf_of_hash hhash]
    have hsame : a ∈ (s.srem [agent_id]).project p ↔ s.projectOf a = p := h p a hp
    rw [hsame]
    by_cases ha : a = agent_id
    · subst ha
      rw [if_pos rfl]
      exact ⟨fun he => absurd ⟨he.1.symm, rfl⟩ he.2, fun he => absurd he.symm hp⟩
    · rw [if_neg ha, and_iff_left fun he => ha he.2]
      rfl

/-- What `update_status` leaves of hashes. -/
theorem runs_updateStatus {agent_id : String} {fields : Hash} {r : Except Exc Bool}
    (hr : store.Runs n (updateStatus agent_id fields) s r s') :
    s' = s ∧ (agent_id = "" ∨ ¬ s.Live agent_id ∨ fields.entries = []) ∨
      agent_id ≠ "" ∧ s.Live agent_id ∧ s' = s.hset agent_id fields := by
  unfold updateStatus at hr
  split at hr
  · exact .inl ⟨hr.2, .inl ‹_›⟩
  · obtain ⟨_, there, _, hx, hr⟩ := hr
    cases hx
    by_cases hlive : s.Live agent_id
    · rw [decide_eq_true hlive] at hr
      by_cases hfields : fields.entries = []
      · rw [setFields, if_pos hfields] at hr
        exact .inl ⟨hr.2, .inr (.inr hfields)⟩
      · rw [setFields, if_neg hfields] at hr
        obtain ⟨_, _, s₁, hset, -, rfl⟩ := hr
        cases hset
        exact .inr ⟨‹_›, hlive, rfl⟩
    · rw [decide_eq_false hlive] at hr
      exact .inl ⟨hr.2, .inr (.inl hlive)⟩

theorem inSync_updateStatus (h : InSync s) {agent_id : String} {fields : Hash} {r : Except Exc Bool}
    (hr : store.Runs n (updateStatus agent_id fields) s r s') :
    InSync s' ↔ (agent_id ≠ "" → s.Live agent_id → ∀ project, fields.get? "project" = some project →
      project = s.projectOf agent_id) := by
  rcases runs_updateStatus hr with ⟨rfl, hnothing⟩ | ⟨hid, hlive, rfl⟩
  · refine iff_of_true h fun hid hlive project hproject => ?_
    have hentries := (hnothing.resolve_left hid).resolve_left (not_not_intro hlive)
    rw [Dict.get?, hentries] at hproject
    cases hproject
  · cases hfields : fields.get? "project" with
    | none =>
      refine iff_of_true (fun p a hp => ?_) fun _ _ _ he => by cases he
      rw [projectOf_hset, hfields]
      have hmem : a ∈ (s.hset agent_id fields).project p ↔ s.projectOf a = p := h p a hp
      rw [hmem]
      by_cases ha : a = agent_id
      · subst ha
        rw [if_pos rfl]
        rfl
      · rw [if_neg ha]
    | some project =>
      have hof : (s.hset agent_id fields).projectOf agent_id = project := by
        rw [projectOf_hset, if_pos rfl, hfields]
        rfl
      constructor
      · intro hs' _ _ project' he
        cases he
        by_cases hproject : project = ""
        · by_contra hne
          have hmem := (h _ agent_id (fun he => hne (hproject.trans he.symm))).mpr rfl
          have hback := (hs' _ agent_id (fun he => hne (hproject.trans he.symm))).mp hmem
          exact hne (hof.symm.trans hback)
        · exact ((h _ agent_id hproject).mp ((hs' _ agent_id hproject).mpr hof)).symm
      · intro hkeep p a hp
        have hsame := hkeep hid hlive project rfl
        have hmem : a ∈ (s.hset agent_id fields).project p ↔ s.projectOf a = p := h p a hp
        rw [hmem]
        by_cases ha : a = agent_id
        · subst ha
          rw [hof, hsame]
        · rw [projectOf_hset, if_neg ha]

theorem inSync_refreshHeartbeat (h : InSync s) {agent_id : String} {r : Except Exc Bool}
    (hr : store.Runs n (refreshHeartbeat agent_id) s r s') : InSync s' := by
  unfold refreshHeartbeat at hr
  split at hr
  · exact hr.2 ▸ h
  · obtain ⟨_, there, _, hx, hr⟩ := hr
    cases hx
    by_cases hlive : s.Live agent_id
    · rw [decide_eq_true hlive] at hr
      obtain ⟨t, _, _, hx, _, _, s₁, hset, _, _, s₂, hexpire, -, rfl⟩ := hr
      cases hx
      cases hset
      obtain ⟨he, he'⟩ := exec_spares hexpire trivial
      intro p a hp
      rw [he', projectOf_of_hash he, projectOf_hset]
      have hmem : a ∈ (s.hset agent_id (.ofList [("last_heartbeat", t)])).project p ↔ s.projectOf a = p := h p a hp
      rw [hmem]
      by_cases ha : a = agent_id
      · subst ha
        rw [if_pos rfl]
        rfl
      · rw [if_neg ha]
    · rw [decide_eq_false hlive] at hr
      exact hr.2 ▸ h

theorem inSync_expire (h : InSync s) {agent_id : String} {r : Except Exc Unit}
    (hr : store.Runs n (cmd (.lapse agent_id)) s r s') : InSync s' ↔ s.projectOf agent_id = "" := by
  obtain ⟨_, _, _, hx, -, rfl⟩ := hr
  obtain ⟨-, -, rfl⟩ := exec_lapse hx
  constructor
  · intro hs'
    by_contra hne
    have hback := (hs' _ agent_id hne).mp ((h _ agent_id hne).mpr rfl)
    rw [projectOf_delete, if_pos rfl] at hback
    exact hne hback.symm
  · intro hnone p a hp
    have hmem : a ∈ (s.delete agent_id).project p ↔ s.projectOf a = p := h p a hp
    rw [hmem, projectOf_delete]
    by_cases ha : a = agent_id
    · subst ha
      rw [if_pos rfl, hnone]
    · rw [if_neg ha]

theorem inSync_spares {α : Type} (h : InSync s) {q : P α} (hq : q.Each Cmd.Spares) {r : Except Exc α}
    (hr : store.Runs n q s r s') : InSync s' := by
  obtain ⟨hhash, hproject⟩ := runs_spares hq hr
  intro p a hp
  rw [hproject, projectOf_of_hash hhash]
  exact h p a hp

/-- **Exactly when a call keeps the sets right.** -/
theorem inSync_call (h : InSync s) {o : Op} {r : Except Exc (Ret o)} (hr : store.Runs n (prog o) s r s') :
    InSync s' ↔ Settles s o := by
  cases o with
  | register i project model => exact inSync_register h hr
  | deregister agent_id => exact iff_of_true (inSync_deregister h hr) trivial
  | refreshHeartbeat agent_id => exact iff_of_true (inSync_refreshHeartbeat h hr) trivial
  | updateStatus agent_id fields => exact inSync_updateStatus h hr
  | listAgents project =>
    refine iff_of_true (inSync_spares h ?_ hr) trivial
    exact each_listAgents (fun _ => trivial) trivial (fun _ => trivial) (fun _ => trivial) project
  | cleanupStale =>
    refine iff_of_true (inSync_spares h ?_ hr) trivial
    exact each_cleanupStale trivial (fun _ => trivial) fun _ => trivial
  | send recipient payload priority ttl sender =>
    refine iff_of_true (inSync_spares h ?_ hr) trivial
    exact each_send (fun _ => trivial) payload priority ttl sender
  | broadcast payload priority ttl sender project =>
    refine iff_of_true (inSync_spares h ?_ hr) trivial
    exact each_broadcast (fun _ => trivial) (fun _ _ => trivial) (fun _ _ => trivial) payload priority ttl sender
      project
  | expire agent_id => exact inSync_expire h hr

/-! ## Sequences -/

theorem inSync_fresh : InSync .fresh := by
  intro p a hp
  constructor
  · intro ha
    cases ha
  · intro he
    exact absurd he.symm hp

/-- **A sequence of calls is right throughout exactly if every call meets the condition.** -/
theorem indexed_throughout_iff {l : List (Keys × Op)} (h : Sequence .fresh l s) :
    ((∀ x ∈ l, Indexed x.1) ∧ Indexed s) ↔ ∀ x ∈ l, Settles x.1 x.2 := by
  induction h with
  | start => simp [indexed_iff_inSync.mpr inSync_fresh]
  | @call l s s' hl n o r hr ih =>
    have hlast : Indexed s → (Indexed s' ↔ Settles s o) := fun hs => by
      rw [indexed_iff_inSync]
      exact inSync_call (indexed_iff_inSync.mp hs) hr
    constructor
    · rintro ⟨hall, hs'⟩
      have hs : Indexed s := hall (s, o) (by simp)
      have hbefore := ih.mp ⟨fun x hx => hall x (List.mem_append_left _ hx), hs⟩
      intro x hx
      rcases List.mem_append.mp hx with hx | hx
      · exact hbefore x hx
      · obtain rfl := List.mem_singleton.mp hx
        exact (hlast hs).mp hs'
    · intro hsettles
      obtain ⟨hall, hs⟩ := ih.mpr fun x hx => hsettles x (List.mem_append_left _ hx)
      refine ⟨fun x hx => ?_, (hlast hs).mpr (hsettles (s, o) (by simp))⟩
      rcases List.mem_append.mp hx with hx | hx
      · exact hall x hx
      · obtain rfl := List.mem_singleton.mp hx
        exact hs

/-- An instance. -/
def giga : Instance := ⟨"giga", "17", none⟩

theorem exists_runs_register (i : Instance) (project model : String) (s : Keys) :
    ∃ r s', store.Runs 0 (prog (.register i project model)) s r s' :=
  store.exists_runs_each 0 (exec_answers 0) (each_register trivial (fun _ => trivial) trivial trivial
    (fun _ => trivial) trivial project model) s

/-- An agent that registers twice, with the same project. -/
theorem indexed_throughout_iff_again : ∃ l s, Sequence .fresh l s ∧ l.length = 2 ∧
    (((∀ x ∈ l, Indexed x.1) ∧ Indexed s) ↔ ∀ x ∈ l, Settles x.1 x.2) := by
  obtain ⟨r₁, s₁, h₁⟩ := exists_runs_register giga "alpha" "opus" .fresh
  obtain ⟨r₂, s₂, h₂⟩ := exists_runs_register giga "alpha" "opus" s₁
  have hsequence := (Sequence.start.call 0 _ r₁ h₁).call 0 _ r₂ h₂
  exact ⟨_, s₂, hsequence, rfl, indexed_throughout_iff hsequence⟩

/-- An agent that registers again, with another project, is still listed with its first. -/
theorem moved : ∃ l s, Sequence .fresh l s ∧ ¬ Indexed s := by
  obtain ⟨r₁, s₁, h₁⟩ := exists_runs_register giga "alpha" "opus" .fresh
  obtain ⟨r₂, s₂, h₂⟩ := exists_runs_register giga "beta" "opus" s₁
  refine ⟨_, s₂, (Sequence.start.call 0 _ r₁ h₁).call 0 _ r₂ h₂, fun h => ?_⟩
  have hfirst : giga.agentId ∈ s₁.project "alpha" :=
    ((runs_register h₁).2 "alpha" (by decide) giga.agentId).mpr (.inr ⟨rfl, rfl⟩)
  have hstill : giga.agentId ∈ s₂.project "alpha" :=
    ((runs_register h₂).2 "alpha" (by decide) giga.agentId).mpr (.inl hfirst)
  have hproject := (runs_register h₂).1 giga.agentId
  rw [if_pos rfl, ((indexed_iff_inSync.mp h) "alpha" giga.agentId (by decide)).mp hstill] at hproject
  exact absurd hproject (by decide)

end ClaudeSwarm.Ipc.Agents
