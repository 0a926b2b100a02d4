import ClaudeSwarm.Interleave.Span
import ClaudeSwarm.Ipc.Direct

/-!
# The inboxes

What a command does to an inbox: it adds an entry, delivers some, or acknowledges some (`Change`), and a call of `recv`,
among any others.

* `change_exec`: what each command does.
* **`recv_outline`**: what a call of `recv` acknowledges it has read, and what it has read it returns, unless it has no
  envelope or one that has expired.
* **`run_exclusive`**: with one reader at a time an entry is read by one call, which settles it.
-/

namespace ClaudeSwarm.Ipc.Direct

open Interleave
open Redis (StreamId Queue)

/-! ## What a command does to an inbox -/

/-- The entries that a command adds to inboxes. -/
def adds : (c : Cmd) → Resp c → List (String × StreamId × Fields)
  | .sendAtomic envelope recipient, (true, id) => [(recipient, id, ⟨some envelope, none⟩)]
  | .xaddInbox agent_id fields, id => [(agent_id, id, fields)]
  | _, _ => []

/-- The entries that it reads from them. -/
def readings : (c : Cmd) → Resp c → List (String × StreamId × Fields)
  | .xreadgroup agent_id _ _, some entries => entries.map (agent_id, ·)
  | _, _ => []

/-- The entries that it acknowledges. -/
def acks : Cmd → List (String × StreamId)
  | .xack agent_id ids => ids.map (agent_id, ·)
  | _ => []

/-- What the command, with its answer, does to the inbox of an agent. -/
inductive Change (agent_id : String) (q : Queue Fields) (c : Cmd) (x : Resp c) : Queue Fields → Prop
  | same (hadds : ∀ p ∈ adds c x, p.1 ≠ agent_id) (hreadings : ∀ p ∈ readings c x, p.1 ≠ agent_id)
      (hacks : ∀ p ∈ acks c, p.1 ≠ agent_id) : Change agent_id q c x q
  | add (now : Nat) (fields : Fields) (hadds : adds c x = [(agent_id, q.log.next now, fields)])
      (hreadings : readings c x = []) (hacks : acks c = []) : Change agent_id q c x (q.add now fields)
  | ensure (hadds : adds c x = []) (hreadings : readings c x = []) (hacks : acks c = []) :
      Change agent_id q c x q.ensure
  | reread (now count : Nat) (hadds : adds c x = [])
      (hreadings : readings c x = (q.pending.take count).map (agent_id, ·)) (hacks : acks c = []) :
      Change agent_id q c x (q.redeliver now count)
  | read (now count : Nat) (hgroup : q.group.isSome) (hadds : adds c x = [])
      (hreadings : readings c x = (q.waiting.take count).map (agent_id, ·)) (hacks : acks c = []) :
      Change agent_id q c x (q.deliver now count)
  | ack (ids : List StreamId) (hadds : adds c x = []) (hreadings : readings c x = [])
      (hacks : acks c = ids.map (agent_id, ·)) : Change agent_id q c x (q.ack ids)

variable {R : Operators} {S : Server} {n : Nat} {s s' : Keys} {a : String} {c : Cmd} {x : Resp c}

theorem inbox_onInbox {agent_id : String} {f : Queue Fields → Queue Fields} :
    (s.onInbox agent_id f).inbox a = if a = agent_id then f (s.inbox a) else s.inbox a := by
  unfold Keys.onInbox
  dsimp only
  rw [Function.update_apply]
  split
  · rename_i ha
    rw [ha]
  · rfl

/-- A command that concerns no inbox. -/
theorem change_none {q : Queue Fields} (hadds : adds c x = []) (hreadings : readings c x = []) (hacks : acks c = []) :
    Change a q c x q := by
  refine .same (fun p hp => ?_) (fun p hp => ?_) fun p hp => ?_
  · exact absurd (hadds ▸ hp) List.not_mem_nil
  · exact absurd (hreadings ▸ hp) List.not_mem_nil
  · exact absurd (hacks ▸ hp) List.not_mem_nil

/-- A command that concerns one inbox. -/
theorem change_onInbox {agent_id : String} {f : Queue Fields → Queue Fields} (hadds : ∀ p ∈ adds c x, p.1 = agent_id)
    (hreadings : ∀ p ∈ readings c x, p.1 = agent_id) (hacks : ∀ p ∈ acks c, p.1 = agent_id)
    (h : Change agent_id (s.inbox agent_id) c x (f (s.inbox agent_id))) (a : String) :
    Change a (s.inbox a) c x ((s.onInbox agent_id f).inbox a) := by
  rw [inbox_onInbox]
  split
  · rename_i ha
    rw [ha]
    exact h
  · rename_i ha
    exact .same (fun p hp he => ha (he.symm.trans (hadds p hp))) (fun p hp he => ha (he.symm.trans (hreadings p hp)))
      fun p hp he => ha (he.symm.trans (hacks p hp))

theorem fst_of_mem_map {α β : Type} {a : α} {l : List β} : ∀ p ∈ l.map (a, ·), p.1 = a := fun p hp => by
  obtain ⟨b, -, rfl⟩ := List.mem_map.mp hp
  rfl

/-- **What each command does to an inbox.** -/
theorem change_exec {now : Nat} (h : (store R S).exec n now s c = some (x, s')) (a : String) :
    Change a (s.inbox a) c x (s'.inbox a) := by
  have hnone : ∀ {α : Type} {P : α → Prop}, ∀ p ∈ ([] : List α), P p := fun _ hp => absurd hp List.not_mem_nil
  cases c with
  | sendAtomic envelope recipient =>
    rcases exec_sendAtomic h with ⟨-, rfl, rfl⟩ | ⟨-, rfl, rfl⟩
    · exact change_onInbox (by simp [adds]) hnone hnone (.add now _ rfl rfl rfl) a
    · exact change_none rfl rfl rfl
  | xreadgroup agent_id pending count =>
    rcases exec_xreadgroup h with ⟨-, rfl, rfl⟩ | ⟨hgroup, ⟨-, rfl, rfl⟩ | ⟨-, rfl, rfl⟩⟩
    · exact change_none rfl rfl rfl
    · exact change_onInbox hnone fst_of_mem_map hnone (.reread now count rfl rfl rfl) a
    · exact change_onInbox hnone fst_of_mem_map hnone (.read now count hgroup rfl rfl rfl) a
  | xack agent_id ids =>
    cases h
    exact change_onInbox hnone hnone fst_of_mem_map (.ack ids rfl rfl rfl) a
  | ensureGroup agent_id =>
    cases h
    exact change_onInbox hnone hnone hnone (.ensure rfl rfl rfl) a
  | xaddInbox agent_id fields =>
    cases h
    exact change_onInbox (by simp [adds]) hnone hnone (.add now fields rfl rfl rfl) a
  | xtrimDlq cutoff =>
    rcases exec_xtrimDlq h with ⟨-, rfl, rfl⟩ | ⟨rfl, rfl⟩
    · exact change_none rfl rfl rfl
    · exact change_none rfl rfl rfl
  | _ =>
    cases h
    exact change_none rfl rfl rfl

namespace Change

variable {q q' : Queue Fields} {e : StreamId × Fields} (h : Change a q c x q')

include h

/-- An entry stays in its inbox. -/
theorem mem_of_mem (he : e ∈ q.log.entries) : e ∈ q'.log.entries := by
  cases h with
  | add now fields => exact Redis.Log.mem_add.mpr (.inl he)
  | _ => exact he

theorem last_le : q.log.last ≤ q'.log.last := by
  cases h with
  | add now fields => exact Nat.le_of_lt (q.log.last_lt_next now)
  | _ => exact Nat.le_refl _

/-- An entry that is new has been added. -/
theorem mem_cases (he : e ∈ q'.log.entries) : e ∈ q.log.entries ∨ (a, e) ∈ adds c x := by
  cases h with
  | add now fields hadds =>
    rcases Redis.Log.mem_add.mp he with he | rfl
    · exact .inl he
    · exact .inr (hadds ▸ List.mem_singleton_self _)
  | _ => exact .inl he

/-- What is added is new, and unsettled. -/
theorem of_adds (he : (a, e) ∈ adds c x) : q.log.last < e.1 ∧ e ∈ q'.unsettled := by
  cases h with
  | same hadds => exact absurd rfl (hadds _ he)
  | add now fields hadds =>
    rw [hadds, List.mem_singleton] at he
    cases he
    refine ⟨q.log.last_lt_next now, ?_⟩
    rw [Queue.unsettled_add]
    exact List.mem_append_right _ (List.mem_singleton_self _)
  | ensure hadds => exact absurd (hadds ▸ he) List.not_mem_nil
  | reread now count hadds => exact absurd (hadds ▸ he) List.not_mem_nil
  | read now count hgroup hadds => exact absurd (hadds ▸ he) List.not_mem_nil
  | ack ids hadds => exact absurd (hadds ▸ he) List.not_mem_nil

/-- What is read was unsettled, is so still, and waits no longer. -/
theorem of_readings (he : (a, e) ∈ readings c x) : e ∈ q.unsettled ∧ e ∈ q'.unsettled ∧ e ∉ q'.waiting := by
  cases h with
  | same _ hreadings => exact absurd rfl (hreadings _ he)
  | add _ _ _ hreadings => exact absurd (hreadings ▸ he) List.not_mem_nil
  | ensure _ hreadings => exact absurd (hreadings ▸ he) List.not_mem_nil
  | ack _ _ hreadings => exact absurd (hreadings ▸ he) List.not_mem_nil
  | reread now count _ hreadings =>
    obtain ⟨e', he', heq⟩ := List.mem_map.mp (hreadings ▸ he)
    cases heq
    have hpending : e ∈ q.pending := List.mem_of_mem_take he'
    rw [Queue.unsettled_redeliver, Queue.waiting_redeliver]
    exact ⟨List.mem_append_left _ hpending, List.mem_append_left _ hpending,
      fun hw => Nat.lt_irrefl _ (Queue.lt_of_pending hpending hw)⟩
  | read now count hgroup _ hreadings =>
    obtain ⟨e', he', heq⟩ := List.mem_map.mp (hreadings ▸ he)
    cases heq
    have hwaiting : e ∈ q.waiting := List.mem_of_mem_take he'
    rw [Queue.unsettled_deliver hgroup, Queue.waiting_deliver hgroup]
    refine ⟨List.mem_append_right _ hwaiting, List.mem_append_right _ hwaiting, fun hw => ?_⟩
    have hnodup : (q.waiting.map Prod.fst).Nodup := q.ascending_waiting.imp Nat.ne_of_lt
    exact Redis.not_mem_take hnodup hw (List.mem_map_of_mem he')

/-- What is unsettled was so, or has been added. -/
theorem unsettled_cases (he : e ∈ q'.unsettled) : e ∈ q.unsettled ∨ (a, e) ∈ adds c x := by
  cases h with
  | same => exact .inl he
  | add now fields hadds =>
    rw [Queue.unsettled_add] at he
    rw [hadds, ← List.map_singleton (f := (a, ·))]
    exact (List.mem_append.mp he).imp_right List.mem_map_of_mem
  | ensure => exact .inl (Queue.unsettled_ensure ▸ he)
  | reread => exact .inl (Queue.unsettled_redeliver ▸ he)
  | read _ _ hgroup => exact .inl (Queue.unsettled_deliver hgroup ▸ he)
  | ack ids =>
    rcases Queue.mem_unsettled_ack.mp he with he | ⟨he, -⟩
    · exact .inl (List.mem_append_right _ he)
    · exact .inl (List.mem_append_left _ he)

/-- It stays so until it is acknowledged. -/
theorem unsettled_of (he : e ∈ q.unsettled) : e ∈ q'.unsettled ∨ (a, e.1) ∈ acks c := by
  cases h with
  | same => exact .inl he
  | add now fields =>
    rw [Queue.unsettled_add]
    exact .inl (List.mem_append_left _ he)
  | ensure => exact .inl (Queue.unsettled_ensure.symm ▸ he)
  | reread => exact .inl (Queue.unsettled_redeliver.symm ▸ he)
  | read _ _ hgroup => exact .inl ((Queue.unsettled_deliver hgroup).symm ▸ he)
  | ack ids _ _ hacks =>
    by_cases hid : e.1 ∈ ids
    · exact .inr (hacks ▸ List.mem_map_of_mem hid)
    · exact .inl (Queue.mem_unsettled_ack.mpr ((List.mem_append.mp he).symm.imp_right fun hp => ⟨hp, hid⟩))

/-- What waits did so, or has been added. -/
theorem waiting_cases (he : e ∈ q'.waiting) : e ∈ q.waiting ∨ (a, e) ∈ adds c x := by
  cases h with
  | same => exact .inl he
  | add now fields hadds =>
    rw [Queue.waiting_add] at he
    rw [hadds, ← List.map_singleton (f := (a, ·))]
    exact (List.mem_append.mp he).imp_right List.mem_map_of_mem
  | ensure => exact .inl (Queue.waiting_ensure ▸ he)
  | reread => exact .inl (Queue.waiting_redeliver ▸ he)
  | read _ _ hgroup => exact .inl (List.mem_of_mem_drop (Queue.waiting_deliver hgroup ▸ he))
  | ack ids => exact .inl (Queue.waiting_ack ids ▸ he)

/-- What is acknowledged and not settled had not been delivered. -/
theorem waiting_of_acks (hacks : (a, e.1) ∈ acks c) (he : e ∈ q'.unsettled) : e ∈ q.waiting := by
  cases h with
  | same _ _ hnone => exact absurd rfl (hnone _ hacks)
  | add _ _ _ _ hnone => exact absurd (hnone ▸ hacks) List.not_mem_nil
  | ensure _ _ hnone => exact absurd (hnone ▸ hacks) List.not_mem_nil
  | reread _ _ _ _ hnone => exact absurd (hnone ▸ hacks) List.not_mem_nil
  | read _ _ _ _ _ hnone => exact absurd (hnone ▸ hacks) List.not_mem_nil
  | ack ids _ _ hids =>
    have hid : e.1 ∈ ids := by
      obtain ⟨id, hid, heq⟩ := List.mem_map.mp (hids ▸ hacks)
      exact (Prod.mk.inj heq).2 ▸ hid
    exact (Queue.mem_unsettled_ack.mp he).resolve_right fun hp => hp.2 hid

end Change

/-! ## What the calls have done -/

/-- What `is_expired` said of an envelope. -/
def verdicts : (c : Cmd) → Resp c → List (Envelope × Option Bool)
  | .isExpired env, x => [(env, x)]
  | _, _ => []

/-- Call `n` has read the entry of an inbox. -/
def Got (n : Nat) (p : String × StreamId × Fields) (w : World (system R S)) : Prop :=
  ∃ e ∈ w.trace, e.call = n ∧ p ∈ readings e.cmd e.resp

/-- Call `n` has acknowledged what it has read. -/
def Done (n : Nat) (w : World (system R S)) : Prop := ∃ e ∈ w.trace, e.call = n ∧ acks e.cmd ≠ []

variable {w w' : World (system R S)} {e : Event (system R S)} {p : String × StreamId × Fields}

theorem got_fires (hf : Fires w e w') : Got n p w' ↔ e.call = n ∧ p ∈ readings e.cmd e.resp ∨ Got n p w := by
  simp only [Got, hf.2, List.mem_cons]
  constructor
  · rintro ⟨e', rfl | he', h⟩
    · exact .inl h
    · exact .inr ⟨e', he', h⟩
  · rintro (h | ⟨e', he', h⟩)
    · exact ⟨e, .inl rfl, h⟩
    · exact ⟨e', .inr he', h⟩

theorem done_fires (hf : Fires w e w') : Done n w' ↔ e.call = n ∧ acks e.cmd ≠ [] ∨ Done n w := by
  simp only [Done, hf.2, List.mem_cons]
  constructor
  · rintro ⟨e', rfl | he', h⟩
    · exact .inl h
    · exact .inr ⟨e', he', h⟩
  · rintro (h | ⟨e', he', h⟩)
    · exact ⟨e, .inl rfl, h⟩
    · exact ⟨e', .inr he', h⟩

/-- An entry that has been read is in its inbox, and waits no longer; and a verdict is one at some time. -/
structure Sane (w : World (system R S)) : Prop where
  kept : ∀ n p, Got n p w → p.2 ∈ (w.state.inbox p.1).log.entries ∧ p.2 ∉ (w.state.inbox p.1).waiting
  asked : ∀ e ∈ w.trace, ∀ v ∈ verdicts e.cmd e.resp, ∃ now, v.2 = v.1.isExpired R now

theorem change_fires (hf : Fires w e w') (a : String) :
    Change a (w.state.inbox a) e.cmd e.resp (w'.state.inbox a) := by
  obtain ⟨now, hx⟩ := hf.1
  exact change_exec hx a

/-- What is in an inbox is not added to it. -/
theorem not_adds_of_mem (hf : Fires w e w') (hp : p.2 ∈ (w.state.inbox p.1).log.entries) :
    p ∉ adds e.cmd e.resp := fun hadds =>
  Nat.not_lt.mpr ((w.state.inbox p.1).log.le_last _ hp) ((change_fires hf p.1).of_adds hadds).1

theorem verdicts_exec {now : Nat} (h : (store R S).exec n now s c = some (x, s')) :
    ∀ v ∈ verdicts c x, v.2 = v.1.isExpired R s.clock := by
  cases c with
  | isExpired env =>
    cases h
    intro v hv
    rw [List.mem_singleton.mp hv]
  | _ => exact fun _ hv => absurd hv List.not_mem_nil

theorem sane_fires (h : Sane w) (hf : Fires w e w') : Sane w' := by
  refine ⟨fun n p hgot => ?_, fun e' he' v hv => ?_⟩
  · have hchange := change_fires hf p.1
    rcases (got_fires hf).mp hgot with ⟨-, hread⟩ | hgot
    · obtain ⟨-, hunsettled, hwaits⟩ := hchange.of_readings hread
      exact ⟨Queue.mem_entries_of_unsettled hunsettled, hwaits⟩
    · obtain ⟨hmem, hwaits⟩ := h.kept n p hgot
      refine ⟨hchange.mem_of_mem hmem, fun hw => ?_⟩
      rcases hchange.waiting_cases hw with hw | hadds
      · exact hwaits hw
      · exact not_adds_of_mem hf hmem hadds
  · rw [hf.2, List.mem_cons] at he'
    rcases he' with rfl | he'
    · obtain ⟨now, hx⟩ := hf.1
      exact ⟨w.state.clock, verdicts_exec hx v hv⟩
    · exact h.asked e' he' v hv

/-! ## A call of `recv`, among others -/

/-- So far a call has read only. -/
def Reading (l : List (Event (system R S))) : Prop := ∀ e ∈ l, acks e.cmd = [] ∧ verdicts e.cmd e.resp = []

/-- Of every call: `recv` reads before it does anything else, and what a call acknowledges is all that it has read. -/
structure Proper (w : World (system R S)) (n : Nat) (o : Op) (c : Cmd) : Prop where
  reads : ∀ a pending count, c = .xreadgroup a pending count →
    (∃ k auto_ack, o = .recv a k auto_ack) ∧ Reading (mine n w)
  settles : ∀ a ids, c = .xack a ids → ∀ e ∈ mine n w, ∀ p ∈ readings e.cmd e.resp, p.1 = a ∧ p.2.1 ∈ ids

/-- The discipline of the calls of `recv`. -/
def receiving (G : Guard (system R S)) : Discipline (system R S) := ⟨G, Sane, fun w e => Proper w e.call e.op e.cmd⟩

/-- These are the entries that a call has read. -/
structure Read (a : String) (entries : List (StreamId × Fields)) (l : List (Event (system R S))) : Prop where
  only : ∀ e ∈ l, ∀ p ∈ readings e.cmd e.resp, p.1 = a ∧ p.2 ∈ entries
  all : ∀ p ∈ entries, ∃ e ∈ l, (a, p) ∈ readings e.cmd e.resp

/-- The envelope of an entry is among those that are returned, if it has not expired. -/
def Judged (fields : Fields) (envelopes : List Envelope) (l : List (Event (system R S))) : Prop :=
  ∀ env, fields.envelope.bind (Envelope.fromJson R) = some env →
    env ∈ envelopes ∨ ∃ e ∈ l, ∃ v ∈ verdicts e.cmd e.resp, v.1 = env ∧ v.2 ≠ some false

/-- What a call of `recv` returns, and has acknowledged. -/
structure Received (a : String) (envelopes : List Envelope) (l : List (Event (system R S))) : Prop where
  returned : ∀ env ∈ envelopes, ∃ e ∈ l, ∃ p ∈ readings e.cmd e.resp, p.1 = a ∧
    p.2.2.envelope.bind (Envelope.fromJson R) = some env
  judged : ∀ e ∈ l, ∀ p ∈ readings e.cmd e.resp, Judged p.2.2 envelopes l
  acked : ∀ e ∈ l, ∀ k ∈ acks e.cmd, ∃ e' ∈ l, ∃ p ∈ readings e'.cmd e'.resp, p.1 = k.1 ∧ p.2.1 = k.2

variable {G : Guard (system R S)} {o : Op} {count : Int} {auto_ack : Bool}

/-- An assertion of call `n` about what it has done itself. -/
def Own (n : Nat) (A : List (Event (system R S)) → Prop) (w : World (system R S)) : Prop := A (mine n w)

theorem stable_own {D : Discipline (system R S)} {A : List (Event (system R S)) → Prop} : Stable D n (Own n A) :=
  stable_mine

theorem own_next {A : List (Event (system R S)) → Prop} (hf : Fires w ⟨n, o, c, x⟩ w')
    (h : A (⟨n, o, c, x⟩ :: mine n w)) : Own n A w' := by
  have hown : mine n w' = ⟨n, o, c, x⟩ :: mine n w := mine_own hf rfl
  unfold Own
  rw [hown]
  exact h

/-- A command of a call with such assertions. -/
theorem outline_own {α : Type} {Q : Except Exc α → World (system R S) → Prop} {f : Resp c → P α}
    {A : List (Event (system R S)) → Prop} (A' : Resp c → List (Event (system R S)) → Prop)
    (hproper : ∀ w : World (system R S), A (mine n w) → Proper w n o c)
    (hnext : ∀ x own, A own → A' x (⟨n, o, c, x⟩ :: own))
    (hf : ∀ x, Outline (receiving G) n o Q (f x) (Own n (A' x))) :
    Outline (receiving G) n o Q (Prog.cmd c >>= f) (Own n A) := by
  refine outline_cmd (fun x => Own n (A' x)) (fun x => stable_mine) ?_ hf
  intro w x w' hsane hA _ hfire
  exact ⟨hproper w hA, sane_fires hsane hfire, own_next hfire (hnext x _ hA)⟩

theorem readings_xreadgroup {pending : Bool} {k : Nat} {x : Option (List (StreamId × Fields))} :
    readings (.xreadgroup a pending k) x = (x.getD []).map (a, ·) := by
  cases x <;> rfl

/-- What has been read, when some more has been. -/
theorem Read.more {l : List (StreamId × Fields)} {own : List (Event (system R S))} (h : Read a l own) {pending : Bool}
    {k : Nat} {x : Option (List (StreamId × Fields))} :
    Read a (l ++ x.getD []) (⟨n, o, .xreadgroup a pending k, x⟩ :: own) := by
  refine ⟨fun e he p hp => ?_, fun p hp => ?_⟩
  · rcases List.mem_cons.mp he with rfl | he
    · rw [readings_xreadgroup] at hp
      obtain ⟨q, hq, rfl⟩ := List.mem_map.mp hp
      exact ⟨rfl, List.mem_append_right _ hq⟩
    · obtain ⟨ha, hmem⟩ := h.only e he p hp
      exact ⟨ha, List.mem_append_left _ hmem⟩
  · rcases List.mem_append.mp hp with hp | hp
    · obtain ⟨e, he, hread⟩ := h.all p hp
      exact ⟨e, List.mem_cons_of_mem _ he, hread⟩
    · exact ⟨_, List.mem_cons_self, readings_xreadgroup.symm ▸ List.mem_map_of_mem hp⟩

/-- Where nothing is said of exceptions. -/
theorem outline_raises {α β : Type} {D : Discipline (system R S)} {p : P α} {A : World (system R S) → Prop}
    {B : α → World (system R S) → Prop} {Q : Except Exc β → World (system R S) → Prop} (hQ : ∀ e w, Q (.error e) w)
    (h : Outline D n o (Outcome B fun _ _ => True) p A) : Outline D n o (Outcome B fun e => Q (.error e)) p A := by
  refine outline_mono (fun _ _ h => h) (fun r w _ hr => ?_) h
  cases r with
  | ok a => exact hr
  | error e => exact hQ e w

/-- Reading some more. -/
theorem streamReadGroup_outline {pending : Bool} {l : List (StreamId × Fields)} {k : Int} :
    Outline (receiving G) n (.recv a k auto_ack)
      (Outcome (fun entries => Own n fun own => Reading own ∧ Read a (l ++ entries) own) fun _ _ => True)
      (streamReadGroup a count pending) (Own n fun own => Reading own ∧ Read a l own) := by
  unfold streamReadGroup
  split
  · exact outline_raise fun _ _ _ => trivial
  · refine outline_own (fun x own => Reading own ∧ Read a (l ++ x.getD []) own) (fun w h => ?_) (fun x own h => ?_) fun x => ?_
    · refine ⟨fun b pending' count' hc => ?_, fun _ _ hc => by cases hc⟩
      cases hc
      exact ⟨⟨k, auto_ack, rfl⟩, h.1⟩
    · refine ⟨fun e he => ?_, h.2.more⟩
      rcases List.mem_cons.mp he with rfl | he
      · exact ⟨rfl, rfl⟩
      · exact h.1 e he
    · cases x with
      | none => exact outline_raise fun _ _ _ => trivial
      | some entries => exact outline_ret fun _ _ h => h

/-- A command that reads nothing. -/
theorem Read.other {l : List (StreamId × Fields)} {own : List (Event (system R S))} (h : Read a l own)
    {e : Event (system R S)} (he : readings e.cmd e.resp = []) : Read a l (e :: own) := by
  refine ⟨fun e' he' p hp => ?_, fun p hp => ?_⟩
  · rcases List.mem_cons.mp he' with rfl | he'
    · exact absurd (he ▸ hp) List.not_mem_nil
    · exact h.only e' he' p hp
  · obtain ⟨e', he', hread⟩ := h.all p hp
    exact ⟨e', List.mem_cons_of_mem _ he', hread⟩

theorem Judged.mono {fields : Fields} {envelopes envelopes' : List Envelope} {l l' : List (Event (system R S))}
    (h : Judged fields envelopes l) (henvelopes : envelopes ⊆ envelopes') (hl : l ⊆ l') :
    Judged fields envelopes' l' := fun env henv =>
  (h env henv).imp (fun hmem => henvelopes hmem) fun ⟨e, he, hv⟩ => ⟨e, hl he, hv⟩

theorem lasting_judged {fields : Fields} {envelopes : List Envelope} :
    Lasting (Own (R := R) (S := S) n (Judged fields envelopes)) := by
  intro w e w' hf h
  unfold Own at h ⊢
  by_cases hn : e.call = n
  · rw [mine_own hf hn]
    exact h.mono (List.Subset.refl _) (List.subset_cons_self _ _)
  · rw [mine_other hf hn]
    exact h

/-- What a call has read, of which it has acknowledged nothing. -/
def Kept (a : String) (l : List (StreamId × Fields)) (own : List (Event (system R S))) : Prop :=
  (∀ e ∈ own, acks e.cmd = []) ∧ Read a l own

/-- One entry of the loop. -/
theorem accept_outline {l : List (StreamId × Fields)} {fields : Fields} :
    Outline (receiving G) n (.recv a count auto_ack)
      (Outcome (fun env => Own n fun own => Kept a l own ∧ Judged fields env.toList own ∧
        ∀ e ∈ env, fields.envelope.bind (Envelope.fromJson R) = some e) fun _ _ => True)
      (accept R fields) (Own n (Kept a l)) := by
  unfold accept
  cases hparse : fields.envelope.bind (Envelope.fromJson R) with
  | none =>
    refine outline_ret fun w _ h => ⟨h, fun env henv => ?_, fun e he => by cases he⟩
    rw [hparse] at henv
    cases henv
  | some env =>
    refine outline_own (fun x own => Kept a l own ∧ ∃ e ∈ own, (env, x) ∈ verdicts e.cmd e.resp)
      (fun w _ => ⟨fun _ _ _ hc => (by cases hc), fun _ _ hc => (by cases hc)⟩) (fun x own h => ?_) fun x => ?_
    · refine ⟨⟨fun e he => ?_, h.2.other rfl⟩, _, List.mem_cons_self, List.mem_singleton_self _⟩
      rcases List.mem_cons.mp he with rfl | he
      · rfl
      · exact h.1 e he
    · refine outline_ret fun w _ h => ⟨h.1, fun env' henv' => ?_, fun e he => ?_⟩
      · rw [hparse] at henv'
        cases henv'
        obtain ⟨-, e, he, hv⟩ := h
        by_cases hx : x = some false
        · exact .inl (by simp [hx])
        · exact .inr ⟨e, he, _, hv, rfl, hx⟩
      · split at he
        · cases he
          rfl
        · cases he

/-- What the loop has made of some of it: the envelopes, and the ids. -/
structure Sorted (a : String) (l entries : List (StreamId × Fields)) (sorted : List Envelope × List StreamId)
    (own : List (Event (system R S))) : Prop where
  kept : Kept a l own
  ids : sorted.2 = entries.map Prod.fst
  judged : ∀ p ∈ entries, Judged p.2 sorted.1 own
  from_ : ∀ env ∈ sorted.1, ∃ p ∈ entries, p.2.envelope.bind (Envelope.fromJson R) = some env

/-- **The loop of `recv`.** -/
theorem sort_outline {l : List (StreamId × Fields)} (entries : List (StreamId × Fields)) :
    Outline (receiving G) n (.recv a count auto_ack)
      (Outcome (fun sorted => Own n (Sorted a l entries sorted)) fun _ _ => True)
      (sort R entries) (Own n (Kept a l)) := by
  induction entries with
  | nil =>
    exact outline_ret fun w _ h => ⟨h, rfl, fun _ hp => absurd hp List.not_mem_nil, fun _ henv => absurd henv List.not_mem_nil⟩
  | cons entry entries ih =>
    obtain ⟨stream_id, fields⟩ := entry
    refine outline_bind (fun env => ?_) accept_outline
    refine outline_bind (R := fun sorted w => Own n (Sorted a l entries sorted) w ∧
      Own n (Judged fields env.toList) w ∧ ∀ e ∈ env, fields.envelope.bind (Envelope.fromJson R) = some e)
      (fun sorted => outline_ret fun w _ h => ?_) ?_
    · obtain ⟨⟨hkept, hids, hjudged, hfrom⟩, hfirst, hparse⟩ := h
      refine ⟨hkept, by rw [hids]; rfl, fun p hp => ?_, fun env' henv' => ?_⟩
      · rcases List.mem_cons.mp hp with rfl | hp
        · exact hfirst.mono (List.subset_append_left _ _) (List.Subset.refl _)
        · exact (hjudged p hp).mono (List.subset_append_right _ _) (List.Subset.refl _)
      · rcases List.mem_append.mp henv' with henv' | henv'
        · exact ⟨_, List.mem_cons_self, hparse _ (Option.mem_toList.mp henv')⟩
        · obtain ⟨p, hp, hfields⟩ := hfrom env' henv'
          exact ⟨p, List.mem_cons_of_mem _ hp, hfields⟩
    · have hlasts : Lasting (M := system R S) fun w => Own n (Judged fields env.toList) w ∧
          ∀ e ∈ env, fields.envelope.bind (Envelope.fromJson R) = some e := lasting_judged.and lasting_pure
      refine outline_mono (fun w _ h => ⟨h.1, h.2⟩) (fun r w _ h => ?_) (outline_frame hlasts ih)
      cases r with
      | ok sorted => exact h
      | error e => trivial

theorem readNew_outline {l : List (StreamId × Fields)} {k remaining : Int} :
    Outline (receiving G) n (.recv a k auto_ack)
      (Outcome (fun entries => Own n fun own => Reading own ∧ Read a (l ++ entries) own) fun _ _ => True)
      (readNew a remaining) (Own n fun own => Reading own ∧ Read a l own) := by
  unfold readNew
  split
  · exact streamReadGroup_outline
  · exact outline_ret fun w _ h => ⟨h.1, (List.append_nil l).symm ▸ h.2⟩

/-- What is known of a call of `recv` that has returned. -/
def Returns (n : Nat) (a : String) (r : Except Exc (List Envelope)) (w : World (system R S)) : Prop :=
  ∀ envelopes, r = .ok envelopes → Own n (Received a envelopes) w

/-- The end of `recv`. -/
theorem acknowledge_outline {l : List (StreamId × Fields)} {envelopes : List Envelope} {ids : List StreamId} :
    Outline (receiving G) n (.recv a count auto_ack) (Returns n a)
      (acknowledge auto_ack a ids >>= fun _ => (.ret envelopes : P (List Envelope)))
      (Own n (Sorted a l l (envelopes, ids))) := by
  have hreceived : ∀ {own : List (Event (system R S))}, Read a l own → (∀ p ∈ l, Judged p.2 envelopes own) →
      (∀ env ∈ envelopes, ∃ p ∈ l, p.2.envelope.bind (Envelope.fromJson R) = some env) →
        (∀ e ∈ own, ∀ k ∈ acks e.cmd, k.1 = a ∧ k.2 ∈ l.map Prod.fst) → Received a envelopes own := by
    intro own hread hjudged hfrom hacks
    refine ⟨fun env henv => ?_, fun e he p hp => hjudged _ (hread.only e he p hp).2, fun e he k hk => ?_⟩
    · obtain ⟨p, hp, hparse⟩ := hfrom env henv
      obtain ⟨e, he, hreading⟩ := hread.all p hp
      exact ⟨e, he, _, hreading, rfl, hparse⟩
    · obtain ⟨ha, hid⟩ := hacks e he k hk
      obtain ⟨p, hp, hid⟩ := List.mem_map.mp hid
      obtain ⟨e', he', hreading⟩ := hread.all p hp
      exact ⟨e', he', _, hreading, ha.symm, hid⟩
  unfold acknowledge
  split
  · refine outline_own (fun _ own => Received a envelopes own) (fun w h => ?_) (fun x own h => ?_) fun x =>
      outline_ret fun w _ h envs henvs => by
        cases henvs
        exact h
    · obtain ⟨⟨-, hread⟩, hids, -⟩ := h
      have hids : ids = l.map Prod.fst := hids
      refine ⟨fun _ _ _ hc => (by cases hc), fun b ids' hc e' he' p hp => ?_⟩
      cases hc
      obtain ⟨ha, hmem⟩ := hread.only e' he' p hp
      exact ⟨ha, hids ▸ List.mem_map_of_mem hmem⟩
    · obtain ⟨⟨hnone, hread⟩, hids, hjudged, hfrom⟩ := h
      have hids : ids = l.map Prod.fst := hids
      refine hreceived (hread.other rfl) (fun p hp => (hjudged p hp).mono (List.Subset.refl _) (List.subset_cons_self _ _))
        hfrom fun e he k hk => ?_
      rcases List.mem_cons.mp he with rfl | he
      · obtain ⟨id, hid, rfl⟩ := List.mem_map.mp hk
        exact ⟨rfl, hids ▸ hid⟩
      · exact absurd (hnone e he ▸ hk) List.not_mem_nil
  · refine outline_ret fun w _ h envs henvs => ?_
    cases henvs
    obtain ⟨⟨hnone, hread⟩, -, hjudged, hfrom⟩ := h
    exact hreceived hread hjudged hfrom fun e he k hk => absurd (hnone e he ▸ hk) List.not_mem_nil

/-- **A call of `recv`, among others.** -/
theorem recv_outline :
    Outline (receiving (R := R) (S := S) G) n (.recv a count auto_ack) (Returns n a) (recv R a count auto_ack)
      (Untouched n) := by
  have hraise : ∀ (e : Exc) (w : World (system R S)), Returns n a (.error e) w := fun _ _ _ h => by cases h
  have hstart : ∀ w : World (system R S), (receiving G).Inv w → Untouched n w →
      Own n (fun own => Reading own ∧ Read a [] own) w := by
    intro w _ h
    have hnone : mine n w = [] := h
    unfold Own
    rw [hnone]
    exact ⟨fun _ he => absurd he List.not_mem_nil, fun _ he => absurd he List.not_mem_nil,
      fun _ hp => absurd hp List.not_mem_nil⟩
  unfold recv
  split
  · exact outline_raise fun w _ _ => hraise _ w
  · refine outline_bind (R := fun entries => Own n fun own => Reading own ∧ Read a ([] ++ entries) own)
      (fun entries => ?_) (outline_raises (Q := Returns n a) hraise (outline_pre hstart streamReadGroup_outline))
    refine outline_bind (R := fun new => Own n fun own => Reading own ∧ Read a ([] ++ entries ++ new) own)
      (fun new => ?_) (outline_raises (Q := Returns n a) hraise readNew_outline)
    exact outline_bind (R := fun sorted => Own n (Sorted a (entries ++ new) (entries ++ new) sorted))
      (fun sorted => acknowledge_outline) (outline_raises (Q := Returns n a) hraise
        (outline_pre (fun w _ h => ⟨fun e he => (h.1 e he).1, h.2⟩) (sort_outline (entries ++ new))))

/-! ## Every call, among others -/

theorem readings_of_ne (h : ∀ a pending count, c ≠ .xreadgroup a pending count) : readings c x = [] := by
  cases c with
  | xreadgroup a pending count => exact absurd rfl (h a pending count)
  | _ => rfl

/-- An operation that does not read inboxes. -/
theorem other_outline (ho : ∀ a k b, o ≠ .recv a k b) :
    Outline (receiving (R := R) (S := S) G) n o (fun _ _ => True) (prog R o) (Untouched n) := by
  have hne : ∀ c, Issues o c → ∀ a pending count, c ≠ .xreadgroup a pending count := by
    rintro c hissues a pending count rfl
    cases hissues
    exact ho _ _ _ rfl
  have hstart : ∀ w : World (system R S), (receiving G).Inv w → Untouched n w →
      Own n (fun own => ∀ e ∈ own, readings e.cmd e.resp = []) w := by
    intro w _ h
    have hnone : mine n w = [] := h
    unfold Own
    rw [hnone]
    exact fun _ he => absurd he List.not_mem_nil
  refine outline_mono hstart (fun _ _ _ _ => trivial) (outline_of_each stable_own (fun c hissues => ?_) (each_prog o))
  intro w x w' hsane hown _ hf
  refine ⟨⟨fun a pending count hc => absurd hc (hne c hissues a pending count), fun a ids _ e he p hp => ?_⟩,
    sane_fires hsane hf, own_next hf fun e he => ?_⟩
  · exact absurd (hown e he ▸ hp) List.not_mem_nil
  · rcases List.mem_cons.mp he with rfl | he
    · exact readings_of_ne (hne c hissues)
    · exact hown e he

/-- What is known of a call that has ended. -/
def Left (n : Nat) : (o : Op) → Except Exc (Ret o) → World (system R S) → Prop
  | .recv a _ _, r, w => Returns n a r w
  | _, _, _ => True

theorem outline_prog (n : Nat) : ∀ o : Op,
    Outline (receiving (R := R) (S := S) G) n o (Left n o) (prog R o) (Untouched n)
  | .recv _ _ _ => recv_outline
  | .send _ _ _ _ _ => other_outline fun _ _ _ h => by cases h
  | .sweepPending _ => other_outline fun _ _ _ h => by cases h
  | .requeue _ _ => other_outline fun _ _ _ h => by cases h
  | .purge _ => other_outline fun _ _ _ h => by cases h
  | .pruneOldMessages _ => other_outline fun _ _ _ h => by cases h
  | .tick _ => other_outline fun _ _ _ h => by cases h
  | .setIndex _ => other_outline fun _ _ _ h => by cases h

theorem sane_init (s : Keys) : Sane (R := R) (S := S) ⟨s, []⟩ := by
  refine ⟨fun n p hgot => ?_, fun _ he => absurd he List.not_mem_nil⟩
  obtain ⟨e, he, -⟩ := hgot
  exact absurd he List.not_mem_nil

variable {cfg : Config (system R S)}

/-- The commands of a run are proper. -/
theorem run_proper (h : Run G (.init s) cfg) :
    Run (fun w n o c => (G w n o c ∧ Proper w n o c) ∧ Issues o c) (.init s) cfg :=
  run_each each_prog (run_obeys (D := receiving G) (K := fun w n o c => Proper w n o c) (fun _ _ h => h) outline_prog
    (sane_init s) h)

/-- **What a call of `recv` has returned.** -/
theorem run_received (h : Run G (.init s) cfg) {k : Int} {envelopes : List Envelope}
    (hr : cfg.Returned n (.recv a k auto_ack) envelopes) : Received a envelopes (mine n cfg.world) :=
  (run_sound (D := receiving G) outline_prog (sane_init s) h).returned hr envelopes rfl

/-- The last command of `recv` is its acknowledgement. -/
theorem concludes_recv {k : Int} : (recv R a k auto_ack).Concludes fun c => acks c ≠ [] := by
  unfold recv
  split
  · trivial
  · refine Prog.concludes_bind (fun entries => Prog.concludes_bind (fun new => Prog.concludes_bind (fun sorted => ?_)
      (each_sort (fun _ h => h rfl) _)) ?_) (each_streamReadGroup fun _ h => h rfl)
    · unfold acknowledge
      split
      · exact ⟨fun _ _ => ⟨_, rfl⟩, fun _ => trivial⟩
      · trivial
    · unfold readNew
      split
      · exact each_streamReadGroup fun _ h => h rfl
      · trivial

/-- The last command of an operation, if it has one. -/
def Last : Op → Cmd → Prop
  | .recv _ _ _, c => acks c ≠ []
  | _, _ => False

/-- **A call of `recv` that has acknowledged has returned.** -/
theorem run_returned (h : Run G (.init s) cfg) (he : e ∈ cfg.world.trace) {k : Int} (ho : e.op = .recv a k auto_ack)
    (hacks : acks e.cmd ≠ []) : ∃ envelopes, cfg.Returned e.call (.recv a k auto_ack) envelopes := by
  have hlast : ∀ o : Op, (prog R o).Concludes (Last o) := by
    intro o
    cases o with
    | recv a k auto_ack => exact concludes_recv
    | _ => exact Prog.concludes_of_each (Prog.each_mono (fun _ _ hl => hl) (Prog.each_true _))
  obtain ⟨call, op, c, x⟩ := e
  obtain rfl : op = .recv a k auto_ack := ho
  exact run_concludes hlast h _ he hacks

/-! ## One reader -/

/-- One reader at a time: a call reads an inbox when every other call that has read from it has acknowledged what it
has read. -/
def OneReader : Guard (system R S) := fun w n _ c =>
  match c with
  | .xreadgroup a _ _ => ∀ e ∈ w.trace, e.call ≠ n → (∃ p ∈ readings e.cmd e.resp, p.1 = a) →
      ∃ e' ∈ w.trace, e'.call = e.call ∧ acks e'.cmd ≠ []
  | _ => True

/-- Whether that is so. -/
def oneReader (w : World (system R S)) (n : Nat) : Cmd → Bool
  | .xreadgroup a _ _ => w.trace.all fun e =>
    e.call == n || (readings e.cmd e.resp).all (·.1 ≠ a) || w.trace.any fun e' => e'.call == e.call && acks e'.cmd ≠ []
  | _ => true

theorem oneReader_sound (h : oneReader w n c = true) : OneReader w n o c := by
  cases c with
  | xreadgroup a pending count =>
    intro e he hne hread
    obtain ⟨p, hp, hpa⟩ := hread
    have hall := List.all_eq_true.mp h e he
    rw [Bool.or_eq_true, Bool.or_eq_true] at hall
    rcases hall with (hcall | hnone) | hdone
    · exact absurd (eq_of_beq hcall) hne
    · exact absurd hpa (by simpa using List.all_eq_true.mp hnone p hp)
    · obtain ⟨e', he', hacks⟩ := List.any_eq_true.mp hdone
      rw [Bool.and_eq_true, decide_eq_true_eq] at hacks
      exact ⟨e', he', eq_of_beq hacks.1, hacks.2⟩
  | _ => trivial

theorem OneReader.done {m : Nat} {o : Op} {pending : Bool} {k : Nat} (h : OneReader w n o (.xreadgroup p.1 pending k))
    (hm : m ≠ n) (hgot : Got m p w) : Done m w := by
  obtain ⟨e, he, rfl, hp⟩ := hgot
  exact h e he hm ⟨p, hp, rfl⟩

/-- What a call has read and acknowledged is settled, and nobody else has read it. -/
structure Exclusive (w : World (system R S)) : Prop where
  settled : ∀ n p, Got n p w → Done n w → p.2 ∉ (w.state.inbox p.1).unsettled
  unique : ∀ n m p, Got n p w → Got m p w → n = m

/-- What is read is read by `XREADGROUP`. -/
theorem cmd_of_readings (hp : p ∈ readings c x) : ∃ pending k, c = .xreadgroup p.1 pending k := by
  cases c with
  | xreadgroup a pending k =>
    rw [readings_xreadgroup] at hp
    obtain ⟨q, -, rfl⟩ := List.mem_map.mp hp
    exact ⟨pending, k, rfl⟩
  | _ => exact absurd hp List.not_mem_nil

theorem cmd_of_acks (h : acks c ≠ []) : ∃ a ids, c = .xack a ids := by
  cases c with
  | xack a ids => exact ⟨a, ids, rfl⟩
  | _ => exact absurd rfl h

/-- What a call acknowledges is all that it has read. -/
theorem mem_acks (hproper : Proper w e.call e.op e.cmd) (hacks : acks e.cmd ≠ []) (hgot : Got e.call p w) :
    (p.1, p.2.1) ∈ acks e.cmd := by
  obtain ⟨a, ids, hc⟩ := cmd_of_acks hacks
  obtain ⟨e', he', hcall, hp⟩ := hgot
  obtain ⟨ha, hid⟩ := hproper.settles a ids hc e' (List.mem_filter.mpr ⟨he', by simpa using hcall⟩) p hp
  rw [hc, ha]
  exact List.mem_map_of_mem hid

theorem exclusive_fires (h : Exclusive w) (hsane : Sane w) (hproper : Proper w e.call e.op e.cmd)
    (hone : OneReader w e.call e.op e.cmd) (hf : Fires w e w') : Exclusive w' := by
  -- A call that reads has acknowledged nothing yet, and nobody else has read what it reads.
  have hfresh : ∀ p, p ∈ readings e.cmd e.resp → ¬ Done e.call w' ∧ ∀ m, Got m p w → m = e.call := by
    intro p hp
    obtain ⟨pending, k, hc⟩ := cmd_of_readings hp
    refine ⟨fun hdone => ?_, fun m hgot => ?_⟩
    · rcases (done_fires hf).mp hdone with ⟨-, hacks⟩ | ⟨e', he', hcall, hacks⟩
      · rw [hc] at hacks
        exact hacks rfl
      · exact hacks ((hproper.reads _ _ _ hc).2 e' (List.mem_filter.mpr ⟨he', by simpa using hcall⟩)).1
    · by_contra hm
      rw [hc] at hone
      exact h.settled m p hgot (hone.done hm hgot) ((change_fires hf p.1).of_readings hp).1
  refine ⟨fun n p hgot hdone hun => ?_, fun n m p hn hm => ?_⟩
  · rcases (got_fires hf).mp hgot with ⟨rfl, hp⟩ | hgot
    · exact (hfresh p hp).1 hdone
    · obtain ⟨hmem, hwaits⟩ := hsane.kept n p hgot
      have hbefore : p.2 ∈ (w.state.inbox p.1).unsettled :=
        ((change_fires hf p.1).unsettled_cases hun).resolve_right (not_adds_of_mem hf hmem)
      rcases (done_fires hf).mp hdone with ⟨rfl, hacks⟩ | hdone
      · exact hwaits ((change_fires hf p.1).waiting_of_acks (mem_acks hproper hacks hgot) hun)
      · exact h.settled n p hgot hdone hbefore
  · rcases (got_fires hf).mp hn with ⟨rfl, hp⟩ | hn
    · rcases (got_fires hf).mp hm with ⟨rfl, -⟩ | hm
      · rfl
      · exact ((hfresh p hp).2 m hm).symm
    · rcases (got_fires hf).mp hm with ⟨rfl, hp⟩ | hm
      · exact (hfresh p hp).2 n hn
      · exact h.unique n m p hn hm

theorem exclusive_init (s : Keys) : Exclusive (R := R) (S := S) ⟨s, []⟩ := by
  constructor
  · rintro n p ⟨e, he, -⟩
    exact absurd he List.not_mem_nil
  · rintro n m p ⟨e, he, -⟩
    exact absurd he List.not_mem_nil

/-- **Where there is one reader, an entry is read by one call.** -/
theorem run_exclusive (hG : ∀ w n o c, G w n o c → OneReader w n o c) (h : Run G (.init s) cfg) :
    Exclusive cfg.world := by
  have hinv : Exclusive cfg.world ∧ Sane cfg.world := by
    refine run_inv (I := fun w => Exclusive w ∧ Sane w) (fun w e w' hI hg hf => ?_) ⟨exclusive_init s, sane_init s⟩
      (run_proper h)
    exact ⟨exclusive_fires hI.1 hI.2 hg.1.2 (hG _ _ _ _ hg.1.1) hf, sane_fires hI.2 hf⟩
  exact hinv.1

end ClaudeSwarm.Ipc.Direct
