import ClaudeSwarm.Interleave.Span
import ClaudeSwarm.Ipc.Agents

/-!
# The presence of the agents

Calls of any number of processes, command by command, with keys that expire between them. A cleanup looks for hashes
that are gone and removes the ids afterwards: an agent that has registered again in the meantime is removed too.
`update_status` writes to a hash that it has found: one that has expired in the meantime comes back without an expiry.
`register` writes a hash and sets its expiry in two commands.

* `live_exec`, `index_exec`: what a command leaves.
* `register_outline`: a call of `register`, among others.
* `volatile_or_open`: a hash without an expiry belongs to a call that has yet to set it.
* **`present_of_orderly`**: the agents of an orderly run.
* `removed_and_kept`: a live agent that is removed, and a hash that stays.
-/

namespace ClaudeSwarm.Ipc.Agents

open Data Interleave

/-! ## What should hold -/

/-- The command takes the agent away: its hash expires or is deleted, or it deregisters. -/
def Removes (o : Op) (c : Cmd) (agent_id : String) : Prop :=
  c = .lapse agent_id ∨ c = .delete agent_id ∨ o = .deregister agent_id ∧ ∃ ids, c = .srem ids

/-- **A live agent is reachable**: when a call of `register` has returned, and nothing has taken the agent away since,
it is in the index, and `SEND_ATOMIC` delivers to its inbox. -/
def Reachable (c : Config system) : Prop :=
  ∀ n i project model id, c.Returned n (.register i project model) id →
    (∀ e ∈ others n c.world, ¬ Removes e.op e.cmd i.agentId) →
      i.agentId ∈ c.world.state.index ∧ ∀ env, (c.world.state.sendAtomic env i.agentId).1 = true

/-- **Every agent hash has an expiry.** -/
def Expires (c : Config system) : Prop := ∀ a, c.world.state.Live a → c.world.state.volatile a = true

/-- A call of `register` writes the hash, and comes to its end. -/
def Begins (e : Event system) (agent_id : String) : Prop :=
  (∃ i project model, e.op = .register i project model) ∧ ∃ fields, e.cmd = .hset agent_id fields

def Finishes (e : Event system) (agent_id : String) : Prop := e.cmd = .ensureGroup agent_id

/-- A call of `register` or `refresh_heartbeat` writes the hash, and sets its expiry. -/
def Writes (e : Event system) (agent_id : String) : Prop :=
  (∃ fields, e.cmd = .hset agent_id fields) ∧ ∀ id fields, e.op ≠ .updateStatus id fields

def Limits (e : Event system) (agent_id : String) : Prop := e.cmd = .expire agent_id

/-- No call is between the two. -/
def Settled (c : Config system) : Prop := ∀ n a, ¬ Open Writes Limits n a c.world

/-- **The condition of a command**: a cleanup removes ids whose hash is still gone; nothing takes an agent away while
a call of `register` is on its way for it; and `update_status` writes to a hash that is still there. -/
def Orderly : Guard system := fun w _ o c =>
  (∀ ids, c = .srem ids → ∀ a ∈ ids, ¬ w.state.Live a ∨ o = .deregister a) ∧
  (∀ a, Removes o c a → ∀ n, ¬ Open Begins Finishes n a w) ∧
  (∀ id fields, o = .updateStatus id fields → ∀ a fields', c = .hset a fields' → w.state.Live a)

/-! ## Commands -/

variable {n : Nat} {s s' : Keys} {a : String}

theorem live_iff : s.Live a ↔ ∃ k v, (s.hash a).get? k = some v := by
  constructor
  · intro h
    obtain ⟨e, he⟩ := List.exists_mem_of_ne_nil _ h
    exact ⟨e.1, e.2, Dict.mem_entries_iff.mp he⟩
  · rintro ⟨k, v, hv⟩ hnone
    rw [Dict.get?, hnone] at hv
    cases hv

/-- A hash that is written is there, if it was or something is written. -/
theorem live_hset {agent_id : String} {fields : Hash} : (s.hset agent_id fields).Live a ↔
    s.Live a ∨ a = agent_id ∧ fields.entries ≠ [] := by
  by_cases ha : a = agent_id
  · subst ha
    rw [live_iff, live_iff, and_iff_right rfl]
    have hget : ∀ k, ((s.hset a fields).hash a).get? k = (fields.get? k).or ((s.hash a).get? k) := fun k => by
      have hhash : (s.hset a fields).hash a = (s.hash a).update fields := Function.update_self ..
      rw [hhash, Dict.get?_update]
    constructor
    · rintro ⟨k, v, hv⟩
      rw [hget, Option.or_eq_some_iff] at hv
      rcases hv with hv | hv
      · refine .inr fun hnone => ?_
        rw [Dict.get?, hnone] at hv
        cases hv
      · exact .inl ⟨k, v, hv.2⟩
    · rintro (⟨k, v, hv⟩ | hne)
      · cases hf : fields.get? k with
        | none => exact ⟨k, v, by rw [hget, hf, hv]; rfl⟩
        | some v' => exact ⟨k, v', by rw [hget, hf]; rfl⟩
      · obtain ⟨e, he⟩ := List.exists_mem_of_ne_nil _ hne
        exact ⟨e.1, e.2, by rw [hget, Dict.mem_entries_iff.mp he]; rfl⟩
  · have hsame : (s.hset agent_id fields).hash a = s.hash a := Function.update_of_ne ha _ _
    rw [Keys.Live, hsame, or_iff_left fun h => ha h.1]
    rfl

theorem live_delete {agent_id : String} : (s.delete agent_id).Live a ↔ s.Live a ∧ a ≠ agent_id := by
  by_cases ha : a = agent_id
  · subst ha
    simp [Keys.Live, Keys.delete, Dict.empty]
  · have hsame : (s.delete agent_id).hash a = s.hash a := Function.update_of_ne ha _ _
    rw [Keys.Live, hsame, and_iff_left ha]
    rfl

/-- A hash is there until it expires or is deleted. -/
theorem live_exec {c : Cmd} {now : String} {x : Resp c} (h : store.exec n now s c = some (x, s'))
    (hlapse : c ≠ .lapse a) (hdelete : c ≠ .delete a) (hlive : s.Live a) : s'.Live a := by
  cases c with
  | hset agent_id fields =>
    cases h
    exact live_hset.mpr (.inl hlive)
  | delete agent_id =>
    cases h
    exact live_delete.mpr ⟨hlive, fun he => hdelete (he ▸ rfl)⟩
  | lapse agent_id =>
    obtain ⟨-, -, rfl⟩ := exec_lapse h
    exact live_delete.mpr ⟨hlive, fun he => hlapse (he ▸ rfl)⟩
  | saddProject | sremProject =>
    cases h
    exact hlive
  | _ =>
    have hspares := (exec_spares h trivial).1
    rw [Keys.Live, hspares]
    exact hlive

/-- An id is in the index until a command removes it. -/
theorem index_exec {c : Cmd} {now : String} {x : Resp c} (h : store.exec n now s c = some (x, s'))
    (hsrem : ∀ ids, c = .srem ids → a ∉ ids) (hindex : a ∈ s.index) : a ∈ s'.index := by
  cases c with
  | srem ids =>
    cases h
    exact List.mem_filter.mpr ⟨hindex, by simpa using hsrem ids rfl⟩
  | sadd agent_id =>
    cases h
    exact List.mem_insert_of_mem hindex
  | expire agent_id =>
    cases h
    unfold Keys.expire
    split
    · exact hindex
    · exact hindex
  | sendAtomic env recipient =>
    obtain ⟨mail, rfl⟩ := exec_sendAtomic h
    exact hindex
  | lapse agent_id =>
    obtain ⟨-, -, rfl⟩ := exec_lapse h
    exact hindex
  | _ =>
    cases h
    exact hindex

/-! ## A call of `register` -/

/-- Orderly runs. -/
def orderly : Discipline system := ⟨Orderly, fun _ => True, fun _ _ => True⟩

variable {w w' : World system} {e : Event system}

/-- What a command of an orderly run leaves of an agent, if it does not take it away. -/
theorem present_fires (horderly : Orderly w e.call e.op e.cmd) (hf : Fires w e w') (hstays : ¬ Removes e.op e.cmd a)
    (hlive : w.state.Live a) : w'.state.Live a ∧ (a ∈ w.state.index → a ∈ w'.state.index) := by
  obtain ⟨i, hx⟩ := hf.1
  refine ⟨live_exec hx (fun hc => hstays (.inl hc)) (fun hc => hstays (.inr (.inl hc))) hlive, ?_⟩
  refine index_exec hx fun ids hc hmem => ?_
  rcases horderly.1 ids hc a hmem with hgone | hop
  · exact hgone hlive
  · exact hstays (.inr (.inr ⟨hop, ids, hc⟩))

/-- While a call of `register` is on its way, nothing takes the agent away. -/
theorem stays_of_open (horderly : Orderly w e.call e.op e.cmd) (hopen : Open Begins Finishes n a w) :
    ¬ Removes e.op e.cmd a := fun hr => horderly.2.1 a hr n hopen

/-- The call has written the hash, and perhaps added the agent to the index. -/
def Underway (n : Nat) (a : String) (indexed : Prop) (w : World system) : Prop :=
  Open Begins Finishes n a w ∧ w.state.Live a ∧ (indexed → a ∈ w.state.index)

theorem stable_underway {indexed : Prop} : Stable orderly n (Underway n a indexed) := by
  rintro w e w' hn - hg - hf - ⟨hopen, hlive, hindex⟩
  obtain ⟨hlive', hindex'⟩ := present_fires hg hf (stays_of_open hg hopen) hlive
  exact ⟨(open_other hf hn a).mpr hopen, hlive', fun hi => hindex' (hindex hi)⟩

/-- The call has ended. -/
def Present (n : Nat) (a : String) (w : World system) : Prop :=
  (∀ e ∈ others n w, ¬ Removes e.op e.cmd a) → w.state.Live a ∧ a ∈ w.state.index

theorem stable_present : Stable orderly n (Present n a) := by
  intro w e w' hn _ hg _ hf _ hpresent hclear
  rw [others_other hf hn] at hclear
  obtain ⟨hlive, hindex⟩ := hpresent fun e' he' => hclear e' (List.mem_cons_of_mem e he')
  obtain ⟨hlive', hindex'⟩ := present_fires hg hf (hclear e List.mem_cons_self) hlive
  exact ⟨hlive', hindex' hindex⟩

variable {i : Instance} {project model : String}

/-- A command of the call that neither ends it nor takes the agent away. -/
theorem establishes_underway {c : Cmd} {indexed indexed' : Prop} (hends : ∀ b, c ≠ .ensureGroup b)
    (hstays : ∀ o, ¬ Removes o c a)
    (hindex : ∀ {now s x s'}, store.exec n now s c = some (x, s') → indexed' → indexed ∨ a ∈ s'.index) :
    Establishes orderly n (.register i project model) (Underway n a indexed) c
      fun _ => Underway n a indexed' := by
  rintro w x w' - ⟨hopen, hlive, hbefore⟩ hg hf
  obtain ⟨hlive', hindex'⟩ := present_fires (e := ⟨n, _, c, x⟩) hg hf (hstays _) hlive
  obtain ⟨now, hx⟩ := hf.1
  refine ⟨trivial, trivial, (open_own hf a).mpr (.inr ⟨hopen, hends a⟩), hlive', fun hi => ?_⟩
  rcases hindex hx hi with hi | hi
  · exact hindex' (hbefore hi)
  · exact hi

/-- **A call of `register`, among others.** -/
theorem register_outline : Outline orderly n (.register i project model)
    (fun r w => ∀ id, r = .ok id → Present n i.agentId w) (register i project model) (Untouched n) := by
  refine outline_cmd (fun _ _ => True) (fun _ => stable_true) (fun _ _ _ _ _ _ _ => ⟨trivial, trivial, trivial⟩)
    fun t₁ => outline_cmd (fun _ _ => True) (fun _ => stable_true) (fun _ _ _ _ _ _ _ => ⟨trivial, trivial, trivial⟩)
      fun t₂ => ?_
  refine outline_cmd (fun _ => Underway n i.agentId False) (fun _ => stable_underway) ?_ fun _ => ?_
  · intro w x w' _ _ hg hf
    obtain ⟨now, hx⟩ := hf.1
    refine ⟨trivial, trivial, (open_own hf _).mpr (.inl ⟨⟨i, project, model, rfl⟩, _, rfl⟩), ?_, False.elim⟩
    have hstate : w'.state = w.state.hset i.agentId (agentData i project model t₁ t₂) :=
      (Prod.mk.inj (Option.some.inj hx)).2.symm
    rw [hstate]
    exact live_hset.mpr (.inr ⟨rfl, List.cons_ne_nil _ _⟩)
  refine outline_cmd (fun _ => Underway n i.agentId False) (fun _ => stable_underway)
    (establishes_underway (fun _ h => by cases h) (fun _ h => by simp [Removes] at h) fun _ h => h.elim) fun _ => ?_
  refine outline_cmd (fun _ => Underway n i.agentId True) (fun _ => stable_underway)
    (establishes_underway (fun _ h => by cases h) (fun _ h => by simp [Removes] at h) fun hx _ => ?_) fun _ => ?_
  · right
    cases hx
    exact List.mem_insert_self
  refine outline_bind (R := fun _ => Underway n i.agentId True) (fun _ => ?_) ?_
  · refine outline_cmd (fun _ => Present n i.agentId) (fun _ => stable_present) ?_ fun _ =>
      outline_ret fun w _ hw id _ => hw
    rintro w x w' - ⟨hopen, hlive, hindex⟩ hg hf
    obtain ⟨hlive', hindex'⟩ := present_fires (e := ⟨n, _, _, x⟩) hg hf (stays_of_open hg hopen) hlive
    exact ⟨trivial, trivial, fun _ => ⟨hlive', hindex' (hindex trivial)⟩⟩
  · unfold addToProject
    split
    · exact outline_ret fun w _ hw => hw
    · exact outline_cmd (fun _ => Underway n i.agentId True) (fun _ => stable_underway)
        (establishes_underway (fun _ h => by cases h) (fun _ h => by simp [Removes] at h) fun _ h => .inl h)
        fun _ => outline_ret fun w _ hw => hw

/-- Every call among others; only that of `register` is of interest. -/
def Left (n : Nat) : (o : Op) → Except Exc (Ret o) → World system → Prop
  | .register i _ _, r, w => ∀ id, r = .ok id → Present n i.agentId w
  | _, _, _ => True

theorem prog_outline (n : Nat) (o : Op) : Outline orderly n o (Left n o) (prog o) (Untouched n) := by
  have hother : ∀ {o : Op}, (∀ r w, Left n o r w) → Outline orderly n o (Left n o) (prog o) (Untouched n) :=
    fun {o} h => outline_mono (fun _ _ _ => trivial) (fun r w _ _ => h r w) (outline_of_each stable_true
      (fun _ _ _ _ _ _ _ _ _ => ⟨trivial, trivial, trivial⟩) (Prog.each_true (prog o)))
  cases o with
  | register i project model => exact register_outline
  | _ => exact hother fun _ _ => trivial

/-! ## Expiry -/

theorem volatile_hset {agent_id : String} {fields : Hash} (hlive : s.Live agent_id) :
    (s.hset agent_id fields).volatile = s.volatile := if_pos hlive

theorem volatile_hset_of_ne {agent_id : String} {fields : Hash} (ha : a ≠ agent_id) :
    (s.hset agent_id fields).volatile a = s.volatile a := by
  unfold Keys.hset
  dsimp only
  split
  · rfl
  · exact Function.update_of_ne ha _ _

/-- A hash that has no expiry when a command has been executed had none before it, or the command has written it. -/
theorem volatile_exec {c : Cmd} {now : String} {x : Resp c} (h : store.exec n now s c = some (x, s'))
    (hlive : s'.Live a) (hvolatile : s'.volatile a ≠ true) :
    c ≠ .expire a ∧ ((∃ fields, c = .hset a fields ∧ ¬ s.Live a) ∨ s.Live a ∧ s.volatile a ≠ true) := by
  cases c with
  | hset agent_id fields =>
    cases h
    refine ⟨Cmd.noConfusion, ?_⟩
    by_cases ha : a = agent_id
    · subst ha
      by_cases hbefore : s.Live a
      · rw [volatile_hset hbefore] at hvolatile
        exact .inr ⟨hbefore, hvolatile⟩
      · exact .inl ⟨fields, rfl, hbefore⟩
    · rw [volatile_hset_of_ne ha] at hvolatile
      exact .inr ⟨(live_hset.mp hlive).resolve_right fun he => ha he.1, hvolatile⟩
  | expire agent_id =>
    have hx : s.expire agent_id = s' := (Prod.mk.inj (Option.some.inj h)).2
    unfold Keys.expire at hx
    by_cases hthere : s.Live agent_id
    · rw [if_pos hthere] at hx
      subst hx
      have ha : a ≠ agent_id := fun he => hvolatile (by simp [he])
      refine ⟨fun he => ha (Cmd.expire.inj he).symm, .inr ⟨hlive, fun hv => hvolatile ?_⟩⟩
      rw [← hv]
      exact Function.update_of_ne ha _ _
    · rw [if_neg hthere] at hx
      subst hx
      exact ⟨fun he => hthere ((Cmd.expire.inj he) ▸ hlive), .inr ⟨hlive, hvolatile⟩⟩
  | delete agent_id =>
    cases h
    obtain ⟨hlive, ha⟩ := live_delete.mp hlive
    refine ⟨Cmd.noConfusion, .inr ⟨hlive, fun hv => hvolatile ?_⟩⟩
    rw [← hv]
    exact Function.update_of_ne ha _ _
  | lapse agent_id =>
    obtain ⟨-, -, rfl⟩ := exec_lapse h
    obtain ⟨hlive, ha⟩ := live_delete.mp hlive
    refine ⟨Cmd.noConfusion, .inr ⟨hlive, fun hv => hvolatile ?_⟩⟩
    rw [← hv]
    exact Function.update_of_ne ha _ _
  | sendAtomic env recipient =>
    obtain ⟨mail, rfl⟩ := exec_sendAtomic h
    exact ⟨Cmd.noConfusion, .inr ⟨hlive, hvolatile⟩⟩
  | _ =>
    cases h
    exact ⟨Cmd.noConfusion, .inr ⟨hlive, hvolatile⟩⟩

/-- A hash without an expiry belongs to a call that has yet to set it. -/
def Owed (w : World system) : Prop :=
  ∀ a, w.state.Live a → w.state.volatile a ≠ true → ∃ n, Open Writes Limits n a w

theorem owed_fires (horderly : Orderly w e.call e.op e.cmd) (hf : Fires w e w') (h : Owed w) : Owed w' := by
  intro a hlive hvolatile
  obtain ⟨now, hx⟩ := hf.1
  obtain ⟨hexpire, hcase⟩ := volatile_exec hx hlive hvolatile
  rcases hcase with ⟨fields, hset, hgone⟩ | ⟨hlive, hvolatile⟩
  · refine ⟨e.call, (open_own hf a).mpr (.inl ⟨⟨fields, hset⟩, fun id fields' hop => ?_⟩)⟩
    exact hgone (horderly.2.2 id fields' hop a fields hset)
  · obtain ⟨n, hopen⟩ := h a hlive hvolatile
    by_cases hn : e.call = n
    · subst hn
      exact ⟨e.call, (open_own hf a).mpr (.inr ⟨hopen, hexpire⟩)⟩
    · exact ⟨n, (open_other hf hn a).mpr hopen⟩

/-! ## Runs -/

variable {c : Config system}

theorem volatile_or_open (h : Run Orderly (.init .fresh) c) : Owed c.world := by
  have hfresh : Owed (Config.init (M := system) Keys.fresh).world := fun _ hlive => absurd rfl hlive
  exact run_inv (I := Owed) (fun _ _ _ howed hg hf => owed_fires hg hf howed) hfresh h

/-- **The agents of an orderly run**: a live agent is reachable, and every hash has an expiry when no call is between
writing it and setting its expiry. -/
theorem present_of_orderly (h : Run Orderly (.init .fresh) c) : Reachable c ∧ (Settled c → Expires c) := by
  constructor
  · intro n i project model id hret hclear
    have hpresent : Left n (.register i project model) (.ok id) c.world :=
      (run_sound (D := orderly) prog_outline trivial h).returned hret
    have hindex := (hpresent id rfl hclear).2
    exact ⟨hindex, fun env => by rw [Keys.sendAtomic, if_pos hindex]⟩
  · intro hsettled a hlive
    by_contra hvolatile
    obtain ⟨n, hopen⟩ := volatile_or_open h a hlive hvolatile
    exact hsettled n a hopen

/-- An instance. -/
def tera : Instance := ⟨"tera", "4711", some "c0ffee"⟩

/-- Calls of `register` only. -/
def Op.isRegister : Op → Bool
  | .register .. => true
  | _ => false

def onlyRegister : Guard system := fun _ _ o _ => o.isRegister = true

instance (w : World system) (n : Nat) (o : Op) (c : Cmd) : Decidable (onlyRegister w n o c) :=
  inferInstanceAs (Decidable (o.isRegister = true))

theorem orderly_of_registers (h : Run onlyRegister (.init Keys.fresh) c) :
    Run Orderly (.init Keys.fresh) c := by
  have heach : ∀ o : Op, (prog o).Each fun (c : Cmd) => o.isRegister = true →
      (∀ ids, c ≠ .srem ids) ∧ ∀ a, c ≠ .lapse a ∧ c ≠ .delete a := by
    intro o
    cases o with
    | register i project model =>
      exact each_register (by simp) (by simp) (by simp) (by simp) (by simp) (by simp) project model
    | _ => exact Prog.each_mono (fun _ _ ho => by cases ho) (Prog.each_true _)
  refine (run_each heach h).mono fun w n o c hg => ?_
  obtain ⟨hsrem, haway⟩ := hg.2 hg.1
  refine ⟨fun ids hc => absurd hc (hsrem ids), fun a hr => ?_, fun id fields ho => ?_⟩
  · rcases hr with hc | hc | ⟨-, ids, hc⟩
    · exact absurd hc (haway a).1
    · exact absurd hc (haway a).2
    · exact absurd hc (hsrem ids)
  · rw [ho] at hg
    cases hg.1

/-- An agent that has registered. -/
theorem present_of_orderly_one : ∃ c, c.Returned 0 (.register tera "" "opus") tera.agentId ∧
    c.world.trace.length = 6 ∧ Reachable c ∧ (Settled c → Expires c) := by
  have hplay : (play onlyRegister (.init Keys.fresh)
      (solo system 0 (.register tera "" "opus") 6 "0.0")).isSome = true := by decide +kernel
  exact ⟨played _ _ _ hplay, rfl, rfl, present_of_orderly (orderly_of_registers (run_played hplay))⟩

/-- A cleanup finds an id whose hash has expired, and removes it when the agent has registered again. -/
def removedSchedule : List (Act system) :=
  solo system 0 (.register tera "" "opus") 6 "0.0" ++ solo system 1 (.expire tera.agentId) 1 "0.0" ++
    solo system 2 .cleanupStale 2 "0.0" ++ solo system 3 (.register tera "" "opus") 6 "0.0" ++ [.step 2 "0.0"]

/-- `update_status` finds a hash, which expires before it writes. -/
def keptSchedule : List (Act system) :=
  solo system 0 (.register tera "" "opus") 6 "0.0" ++
    solo system 1 (.updateStatus tera.agentId (.ofList [("status", "busy")])) 1 "0.0" ++
    solo system 2 (.expire tera.agentId) 1 "0.0" ++ [.step 1 "0.0"]

/-- A live agent that is removed, and a hash that stays. -/
theorem removed_and_kept : (∃ c, Run Free (.init Keys.fresh) c ∧ ¬ Reachable c) ∧
    ∃ c, Run Free (.init Keys.fresh) c ∧ c.Quiescent ∧ ¬ Expires c := by
  constructor
  · have hplay : (play Free (.init Keys.fresh) removedSchedule).isSome = true := by decide +kernel
    refine ⟨played _ _ _ hplay, run_played hplay, fun h => ?_⟩
    have hothers : others 3 (played _ _ _ hplay).world = [⟨2, .cleanupStale, .srem [tera.agentId], ()⟩] := rfl
    have hindex := (h 3 tera "" "opus" tera.agentId rfl (by rw [hothers]; simp [Removes])).1
    have hnone : (played _ _ _ hplay).world.state.index = [] := rfl
    rw [hnone] at hindex
    cases hindex
  · have hplay : (play Free (.init Keys.fresh) keptSchedule).any (fun c : Config system =>
        (starts keptSchedule).all c.atRest &&
          (decide (c.world.state.Live tera.agentId) && !c.world.state.volatile tera.agentId)) = true := by
      decide +kernel
    obtain ⟨c, hc, hquiet, ht⟩ := exists_quiescent_of_play hplay
    rw [Bool.and_eq_true, decide_eq_true_iff] at ht
    refine ⟨c, hc, hquiet, fun h => ?_⟩
    rw [h tera.agentId ht.1] at ht
    exact Bool.noConfusion ht.2

end ClaudeSwarm.Ipc.Agents
