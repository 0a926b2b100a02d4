import ClaudeSwarm.Ipc.Recv

/-!
# The ledger of direct messages

Calls of `send`, `recv`, `sweep_pending` and `requeue` by any number of processes, on a server that trims nothing. A
message moves by being copied: every entry of an inbox or of the DLQ that was ever made is in the `history`, and a call
takes an entry away only when it has returned its message, found it expired, or made a newer copy of it (`Careful`).

* `ledger_fires`: what is known of the copies is kept by a command; so the newest copy of a message is still there, or
  `recv` has taken it.
* **`run_careful`**: the commands of such calls are careful.
-/

namespace ClaudeSwarm.Ipc.Direct

open Data Interleave
open Redis (StreamId Log Queue)

/-! ## Copies -/

/-- The entries that a command adds to the DLQ. -/
def dlqAdds : (c : Cmd) → Resp c → List (StreamId × Fields)
  | .sendAtomic envelope _, (false, id) => [(id, ⟨some envelope, some "recipient_not_found"⟩)]
  | .xaddDlq fields, id => [(id, fields)]
  | _, _ => []

/-- An entry of an inbox, or of the DLQ. -/
abbrev Copy := Option String × StreamId × Fields

/-- The stream of a place. -/
def Keys.log (s : Keys) : Option String → Log Fields
  | some a => (s.inbox a).log
  | none => s.dlq

/-- There is no message yet. -/
def Keys.Blank (s : Keys) : Prop := ∀ place, (s.log place).entries = []

/-- The copies that a command makes. -/
def made (c : Cmd) (x : Resp c) : List Copy :=
  (adds c x).map (fun p => (some p.1, p.2)) ++ (dlqAdds c x).map (none, ·)

variable {R : Operators} {S : Server} {n : Nat} {s s' : Keys} {a : String} {c : Cmd} {x : Resp c}
  {w w' : World (system R S)} {e : Event (system R S)}

/-- The copies that were ever made, newest first. -/
def history (w : World (system R S)) : List Copy := w.trace.flatMap fun e => made e.cmd e.resp

/-- The newest copy of a message. -/
def Newest (v : Json) (k : Copy) : List Copy → Prop
  | [] => False
  | k' :: l => k'.2.2.envelope = some v ∧ k = k' ∨ k'.2.2.envelope ≠ some v ∧ Newest v k l

theorem Newest.mem {v : Json} {k : Copy} : ∀ {l : List Copy}, Newest v k l → k ∈ l ∧ k.2.2.envelope = some v
  | _ :: _, .inl ⟨hv, hk⟩ => ⟨hk ▸ List.mem_cons_self, hk ▸ hv⟩
  | _ :: _, .inr ⟨_, h⟩ => ⟨List.mem_cons_of_mem _ h.mem.1, h.mem.2⟩

theorem exists_newest {v : Json} : ∀ {l : List Copy} {k : Copy}, k ∈ l → k.2.2.envelope = some v → ∃ k, Newest v k l
  | k' :: l, k, hk, hv => by
    by_cases hv' : k'.2.2.envelope = some v
    · exact ⟨k', .inl ⟨hv', rfl⟩⟩
    · rcases List.mem_cons.mp hk with rfl | hk
      · exact absurd hv hv'
      · obtain ⟨k, h⟩ := exists_newest hk hv
        exact ⟨k, .inr ⟨hv', h⟩⟩

theorem history_fires (hf : Fires w e w') : history w' = made e.cmd e.resp ++ history w := by
  unfold history
  rw [hf.2, List.flatMap_cons]

theorem mem_history {k : Copy} (he : e ∈ w.trace) (hk : k ∈ made e.cmd e.resp) : k ∈ history w :=
  List.mem_flatMap.mpr ⟨e, he, hk⟩

/-- A command makes one copy, if any. -/
theorem made_cases (c : Cmd) (x : Resp c) : made c x = [] ∨ ∃ k, made c x = [k] := by
  cases c with
  | sendAtomic envelope recipient =>
    obtain ⟨delivered, id⟩ := x
    cases delivered with
    | true => exact .inr ⟨_, rfl⟩
    | false => exact .inr ⟨_, rfl⟩
  | xaddInbox agent_id fields => exact .inr ⟨_, rfl⟩
  | xaddDlq fields => exact .inr ⟨_, rfl⟩
  | _ => exact .inl rfl

theorem mem_made {k : Copy} : k ∈ made c x ↔ (∃ a, k.1 = some a ∧ (a, k.2) ∈ adds c x) ∨ k.1 = none ∧ k.2 ∈ dlqAdds c x := by
  obtain ⟨place, p⟩ := k
  unfold made
  rw [List.mem_append, List.mem_map, List.mem_map]
  constructor
  · rintro (⟨q, hq, heq⟩ | ⟨q, hq, heq⟩)
    · cases heq
      exact .inl ⟨q.1, rfl, hq⟩
    · cases heq
      exact .inr ⟨rfl, hq⟩
  · rintro (⟨a, ha, hq⟩ | ⟨ha, hq⟩)
    · exact .inl ⟨_, hq, by rw [← ha]⟩
    · exact .inr ⟨_, hq, by rw [← ha]⟩

/-! ## What a command does to the streams -/

/-- The server trims nothing. -/
def Server.Untrimmed (S : Server) : Prop := ∀ l, S.dropped l = 0

/-- The DLQ after a command, on such a server. -/
structure DlqChange (l : Log Fields) (c : Cmd) (x : Resp c) (l' : Log Fields) : Prop where
  mem : ∀ p, p ∈ l'.entries ↔ p ∈ l.entries ∧ (∀ ids, c = .xdelDlq ids → p.1 ∉ ids) ∨ p ∈ dlqAdds c x
  new : ∀ p ∈ dlqAdds c x, l.last < p.1
  last_le : l.last ≤ l'.last

theorem dlqChange_same {l : Log Fields} (hadds : dlqAdds c x = []) (hdel : ∀ ids, c ≠ .xdelDlq ids) :
    DlqChange l c x l := by
  refine ⟨fun p => ?_, fun p hp => absurd (hadds ▸ hp) List.not_mem_nil, Nat.le_refl _⟩
  rw [hadds]
  simp only [List.not_mem_nil, or_false, iff_self_and]
  exact fun _ ids hc => absurd hc (hdel ids)

theorem dlqChange_add {l : Log Fields} {now : Nat} {fields : Fields} (hadds : dlqAdds c x = [(l.next now, fields)])
    (hdel : ∀ ids, c ≠ .xdelDlq ids) : DlqChange l c x (l.add now fields) := by
  refine ⟨fun p => ?_, fun p hp => ?_, Nat.le_of_lt (l.last_lt_next now)⟩
  · rw [hadds, Log.mem_add, List.mem_singleton]
    exact or_congr_left ⟨fun h => ⟨h, fun ids hc => absurd hc (hdel ids)⟩, And.left⟩
  · rw [hadds, List.mem_singleton] at hp
    exact hp ▸ l.last_lt_next now

theorem addDlq_eq (hS : S.Untrimmed) (s : Keys) (now : Nat) (fields : Fields) :
    (s.addDlq S now fields).dlq = s.dlq.add now fields := by
  unfold Keys.addDlq
  dsimp only
  rw [hS, Nat.zero_min]
  rfl

theorem dlqChange_exec (hS : S.Untrimmed) {now : Nat} (h : (store R S).exec n now s c = some (x, s'))
    (hc : ∀ k, c ≠ .xtrimDlq k) : DlqChange s.dlq c x s'.dlq := by
  cases c with
  | sendAtomic envelope recipient =>
    rcases exec_sendAtomic h with ⟨-, rfl, rfl⟩ | ⟨-, rfl, rfl⟩
    · exact dlqChange_same rfl fun _ h => by cases h
    · rw [addDlq_eq hS]
      exact dlqChange_add rfl fun _ h => by cases h
  | xaddDlq fields =>
    cases h
    rw [addDlq_eq hS]
    exact dlqChange_add rfl fun _ h => by cases h
  | xdelDlq ids =>
    cases h
    refine ⟨fun p => ?_, fun _ hp => absurd hp List.not_mem_nil, Nat.le_refl _⟩
    have hdel : p ∈ (s.dlq.del ids).entries ↔ p ∈ s.dlq.entries ∧ (!ids.contains p.1) = true := Log.mem_keep
    refine hdel.trans ?_
    simp [dlqAdds]
  | xtrimDlq cutoff => exact absurd rfl (hc cutoff)
  | xreadgroup agent_id pending count =>
    rcases exec_xreadgroup h with ⟨-, rfl, rfl⟩ | ⟨-, ⟨-, rfl, rfl⟩ | ⟨-, rfl, rfl⟩⟩
    · exact dlqChange_same rfl fun _ h => by cases h
    · exact dlqChange_same rfl fun _ h => by cases h
    · exact dlqChange_same rfl fun _ h => by cases h
  | _ =>
    cases h
    exact dlqChange_same rfl fun _ h => by cases h

/-- What a command does to the streams. -/
structure Grows (s : Keys) (c : Cmd) (x : Resp c) (s' : Keys) : Prop where
  mem : ∀ k ∈ made c x, k.2 ∈ (s'.log k.1).entries ∧ (s.log k.1).last < k.2.1
  cases : ∀ place p, p ∈ (s'.log place).entries → p ∈ (s.log place).entries ∨ (place, p) ∈ made c x
  last_le : ∀ place, (s.log place).last ≤ (s'.log place).last

theorem grows_exec (hS : S.Untrimmed) {now : Nat} (h : (store R S).exec n now s c = some (x, s'))
    (hc : ∀ k, c ≠ .xtrimDlq k) : Grows s c x s' := by
  have hdlq := dlqChange_exec hS h hc
  refine ⟨fun k hk => ?_, fun place p hp => ?_, fun place => ?_⟩
  · obtain ⟨place, p⟩ := k
    rcases mem_made.mp hk with ⟨a, rfl, hadds⟩ | ⟨rfl, hadds⟩
    · obtain ⟨hlast, hunsettled⟩ := (change_exec h a).of_adds hadds
      exact ⟨Queue.mem_entries_of_unsettled hunsettled, hlast⟩
    · exact ⟨(hdlq.mem p).mpr (.inr hadds), hdlq.new p hadds⟩
  · cases place with
    | some a => exact ((change_exec h a).mem_cases hp).imp_right fun hadds => mem_made.mpr (.inl ⟨a, rfl, hadds⟩)
    | none =>
      rcases (hdlq.mem p).mp hp with ⟨hp, -⟩ | hadds
      · exact .inl hp
      · exact .inr (mem_made.mpr (.inr ⟨rfl, hadds⟩))
  · cases place with
    | some a => exact (change_exec h a).last_le
    | none => exact hdlq.last_le

/-! ## The ledger -/

/-- The operations that move messages; `recv` acknowledges what it reads. -/
def Moves : Op → Prop
  | .purge _ | .pruneOldMessages _ => False
  | .recv _ _ auto_ack => auto_ack = true
  | _ => True

instance (o : Op) : Decidable (Moves o) :=
  match o with
  | .purge _ | .pruneOldMessages _ => isFalse id
  | .recv _ _ auto_ack => inferInstanceAs (Decidable (auto_ack = true))
  | .send _ _ _ _ _ | .sweepPending _ | .requeue _ _ | .tick _ | .setIndex _ => isTrue trivial

/-- A requeue adds the message to an inbox. -/
def Requeues (e : Event (system R S)) (v : Json) : Prop :=
  (∃ d r, e.op = .requeue d r) ∧ ∃ a f, e.cmd = .xaddInbox a f ∧ f.envelope = some v

/-- **The condition of a message that is sent**: its time limit can be added to its time, and compared. -/
def Punctual (R : Operators) : Cmd → Prop
  | .sendAtomic envelope _ => ∀ env, Envelope.fromJson R envelope = some env → ∀ now, env.isExpired R now ≠ none
  | _ => True

/-- The copy is there. -/
def There (s : Keys) : Copy → Prop
  | (some a, p) => p ∈ (s.inbox a).unsettled
  | (none, p) => p ∈ s.dlq.entries

/-- A call of `recv` has acknowledged it. -/
def Taken (w : World (system R S)) (k : Copy) : Prop :=
  ∃ e ∈ w.trace, (∃ a m b, e.op = .recv a m b) ∧ ∃ a, k.1 = some a ∧ (a, k.2.1) ∈ acks e.cmd

/-- The message has been sent, by a call of its own. -/
def Sent (w : World (system R S)) (v : Json) : Prop :=
  ∃ e ∈ w.trace, ∃ (env : Envelope) (r : String), e.cmd = .sendAtomic env.toJson r ∧ env.toJson = v ∧ env.Valid R ∧
    env.id = some (.str (toString e.call)) ∧ ∀ now, env.isExpired R now ≠ none

/-- The entry is not the newest copy of its message. -/
def Superseded (place : Option String) (id : StreamId) (w : World (system R S)) : Prop :=
  ∀ v f, ¬ Newest v (place, id, f) (history w)

/-- Of every command: a message is sent once, copies are made of copies, and a copy that is taken away is not the
newest, but for what `recv` returns. -/
structure Careful (w : World (system R S)) (n : Nat) (o : Op) (c : Cmd) : Prop where
  issues : Issues o c
  sends : ∀ v r, c = .sendAtomic v r → (∃ env : Envelope, env.toJson = v ∧ env.Valid R ∧
    env.id = some (.str (toString n))) ∧ ∀ e ∈ mine n w, ∀ v' r', e.cmd ≠ .sendAtomic v' r'
  copies : ∀ f, (c = .xaddDlq f ∨ ∃ a, c = .xaddInbox a f) → ∀ v, f.envelope = some v →
    ∃ k ∈ history w, k.2.2.envelope = some v
  sweeps : ∀ a ids, (∃ b, o = .sweepPending b) → c = .xack a ids → ∀ id ∈ ids, Superseded (some a) id w
  deletes : ∀ ids, c = .xdelDlq ids → ∀ id ∈ ids, Superseded none id w ∧
    ∀ f v, (none, id, f) ∈ history w → f.envelope = some v → ∃ e ∈ w.trace, Requeues e v

/-- What is known of the copies. -/
structure Ledger (w : World (system R S)) : Prop where
  le : ∀ k ∈ history w, k.2.1 ≤ (w.state.log k.1).last
  entries : ∀ place p, p ∈ (w.state.log place).entries → (place, p) ∈ history w
  unique : ∀ k ∈ history w, ∀ k' ∈ history w, k.1 = k'.1 → k.2.1 = k'.2.1 → k = k'
  newest : ∀ v k, Newest v k (history w) → There w.state k ∨ Taken w k
  dlq : ∀ p, (none, p) ∈ history w → p ∈ w.state.dlq.entries ∨
    ∀ v, p.2.envelope = some v → ∃ e ∈ w.trace, Requeues e v
  sent : ∀ k ∈ history w, ∀ v, k.2.2.envelope = some v → Sent w v

theorem not_xtrimDlq {o : Op} (hmoves : Moves o) (hissues : Issues o c) : ∀ k, c ≠ .xtrimDlq k := by
  rintro k rfl
  cases hissues
  exact hmoves

theorem mem_history_fires (hf : Fires w e w') {k : Copy} :
    k ∈ history w' ↔ k ∈ made e.cmd e.resp ∨ k ∈ history w := by
  rw [history_fires hf, List.mem_append]

theorem exists_fires {q : Event (system R S) → Prop} (hf : Fires w e w') (h : ∃ e' ∈ w.trace, q e') :
    ∃ e' ∈ w'.trace, q e' := lasting_executed w e w' hf h

/-- The newest copy stays there, until `recv` takes it. -/
theorem there_fires (hS : S.Untrimmed) (hmoves : Moves e.op) (hcareful : Careful w e.call e.op e.cmd)
    (hf : Fires w e w') {k : Copy} {v : Json} (hnewest : Newest v k (history w)) (h : There w.state k) :
    There w'.state k ∨ Taken w' k := by
  obtain ⟨now, hx⟩ := hf.1
  obtain ⟨place, p⟩ := k
  cases place with
  | some a =>
    refine ((change_fires hf a).unsettled_of h).imp_right fun hacks => ?_
    obtain ⟨b, ids, hc⟩ := cmd_of_acks (List.ne_nil_of_mem hacks)
    rw [hc] at hacks
    obtain ⟨id, hid, heq⟩ := List.mem_map.mp hacks
    cases heq
    have hissues := hcareful.issues
    rw [hc] at hissues
    generalize ho : e.op = o at hissues
    cases hissues with
    | recvAck => exact ⟨e, hf.2 ▸ List.mem_cons_self, ⟨_, _, _, ho⟩, _, rfl, hc ▸ List.mem_map_of_mem hid⟩
    | sweepAck => exact absurd hnewest (hcareful.sweeps _ _ ⟨_, ho⟩ hc _ hid v p.2)
  | none =>
    refine .inl (((dlqChange_exec hS hx (not_xtrimDlq hmoves hcareful.issues)).mem p).mpr (.inl ⟨h, fun ids hc hid => ?_⟩))
    exact (hcareful.deletes ids hc p.1 hid).1 v p.2 hnewest

theorem newest_fires (hf : Fires w e w') {k : Copy} {v : Json} (h : Newest v k (history w')) :
    k ∈ made e.cmd e.resp ∨ Newest v k (history w) := by
  rw [history_fires hf] at h
  rcases made_cases e.cmd e.resp with hmade | ⟨k', hmade⟩
  · rw [hmade] at h
    exact .inr h
  · rw [hmade] at h ⊢
    rcases h with ⟨-, rfl⟩ | ⟨-, h⟩
    · exact .inl List.mem_cons_self
    · exact .inr h

/-- The messages of new copies. -/
theorem made_envelope {k : Copy} {v : Json} (hk : k ∈ made c x) (hv : k.2.2.envelope = some v) :
    (∃ r, c = .sendAtomic v r) ∨ ∃ f, (c = .xaddDlq f ∨ ∃ a, c = .xaddInbox a f) ∧ f.envelope = some v := by
  cases c with
  | sendAtomic envelope recipient =>
    obtain ⟨delivered, id⟩ := x
    cases delivered with
    | true =>
      rw [List.mem_singleton.mp hk] at hv
      cases hv
      exact .inl ⟨recipient, rfl⟩
    | false =>
      rw [List.mem_singleton.mp hk] at hv
      cases hv
      exact .inl ⟨recipient, rfl⟩
  | xaddInbox agent_id fields =>
    rw [List.mem_singleton.mp hk] at hv
    exact .inr ⟨fields, .inr ⟨agent_id, rfl⟩, hv⟩
  | xaddDlq fields =>
    rw [List.mem_singleton.mp hk] at hv
    exact .inr ⟨fields, .inl rfl, hv⟩
  | _ => exact absurd hk List.not_mem_nil

theorem ledger_fires (hS : S.Untrimmed) (h : Ledger w) (hmoves : Moves e.op) (hpunctual : Punctual R e.cmd)
    (hcareful : Careful w e.call e.op e.cmd) (hf : Fires w e w') : Ledger w' := by
  obtain ⟨now, hx⟩ := hf.1
  have hgrows := grows_exec hS hx (not_xtrimDlq hmoves hcareful.issues)
  refine ⟨fun k hk => ?_, fun place p hp => ?_, fun k hk k' hk' hplace hid => ?_, fun v k hk => ?_, fun p hp => ?_,
    fun k hk v hv => ?_⟩
  · rcases (mem_history_fires hf).mp hk with hk | hk
    · exact (w'.state.log k.1).le_last _ (hgrows.mem k hk).1
    · exact (h.le k hk).trans (hgrows.last_le k.1)
  · rw [mem_history_fires hf, or_comm]
    exact (hgrows.cases place p hp).imp_left (h.entries place p)
  · have hnew : ∀ k ∈ made e.cmd e.resp, ∀ k' ∈ history w, k.1 = k'.1 → k.2.1 ≠ k'.2.1 := by
      intro k hk k' hk' hplace hid
      have hlt : (w.state.log k.1).last < k.2.1 := (hgrows.mem k hk).2
      exact Nat.not_lt.mpr (hplace ▸ h.le k' hk') (hid ▸ hlt)
    rcases (mem_history_fires hf).mp hk with hk | hk
    · rcases (mem_history_fires hf).mp hk' with hk' | hk'
      · rcases made_cases e.cmd e.resp with hmade | ⟨k₀, hmade⟩
        · exact absurd (hmade ▸ hk) List.not_mem_nil
        · rw [hmade, List.mem_singleton] at hk hk'
          rw [hk, hk']
      · exact absurd hid (hnew k hk k' hk' hplace)
    · rcases (mem_history_fires hf).mp hk' with hk' | hk'
      · exact absurd hid.symm (hnew k' hk' k hk hplace.symm)
      · exact h.unique k hk k' hk' hplace hid
  · rcases newest_fires hf hk with hk | hnewest
    · obtain ⟨place, p⟩ := k
      rcases mem_made.mp hk with ⟨a, rfl, hadds⟩ | ⟨rfl, -⟩
      · exact .inl ((change_fires hf a).of_adds hadds).2
      · exact .inl (hgrows.mem _ hk).1
    · rcases h.newest v k hnewest with hthere | ⟨e', he', htaken⟩
      · exact there_fires hS hmoves hcareful hf hnewest hthere
      · exact .inr ⟨e', hf.2 ▸ List.mem_cons_of_mem e he', htaken⟩
  · rcases (mem_history_fires hf).mp hp with hp | hp
    · exact .inl (hgrows.mem _ hp).1
    · rcases h.dlq p hp with hmem | hrequeued
      · by_cases hgone : ∃ ids, e.cmd = .xdelDlq ids ∧ p.1 ∈ ids
        · obtain ⟨ids, hc, hid⟩ := hgone
          exact .inr fun v hv => exists_fires hf ((hcareful.deletes ids hc p.1 hid).2 p.2 v hp hv)
        · have hdlq := dlqChange_exec hS hx (not_xtrimDlq hmoves hcareful.issues)
          exact .inl ((hdlq.mem p).mpr (.inl ⟨hmem, fun ids hc hid => hgone ⟨ids, hc, hid⟩⟩))
      · exact .inr fun v hv => exists_fires hf (hrequeued v hv)
  · have hold : ∀ k ∈ history w, k.2.2.envelope = some v → Sent w' v := fun k hk hv =>
      exists_fires hf (h.sent k hk v hv)
    rcases (mem_history_fires hf).mp hk with hk | hk
    · rcases made_envelope hk hv with ⟨r, hc⟩ | ⟨f, hc, hf'⟩
      · obtain ⟨⟨env, rfl, hvalid, hid⟩, -⟩ := hcareful.sends v r hc
        rw [hc] at hpunctual
        exact ⟨e, hf.2 ▸ List.mem_cons_self, env, r, hc, rfl, hvalid, hid, hpunctual env (Envelope.fromJson_toJson hvalid)⟩
      · obtain ⟨k', hk', hv'⟩ := hcareful.copies f hc v hf'
        exact hold k' hk' hv'
    · exact hold k hk hv

/-! ## The calls, among each other -/

/-- The discipline of the calls that move messages. -/
def moving (G : Guard (system R S)) : Discipline (system R S) :=
  ⟨fun w n o c => G w n o c ∧ Moves o ∧ Punctual R c, Ledger, fun w e => Careful w e.call e.op e.cmd⟩

/-- A command that neither makes a copy nor takes one away, but for what `recv` returns. -/
def Plain (o : Op) : Cmd → Prop
  | .sendAtomic .. | .xaddDlq _ | .xaddInbox .. | .xdelDlq _ => False
  | .xack .. => ∀ b, o ≠ .sweepPending b
  | _ => True

variable {o : Op} {G : Guard (system R S)}

theorem careful_of_plain (hissues : Issues o c) (hplain : Plain o c) : Careful w n o c := by
  refine ⟨hissues, fun v r hc => ?_, fun f hc => ?_, fun b ids ho hc => ?_, fun ids hc => ?_⟩
  · subst hc
    exact hplain.elim
  · rcases hc with rfl | ⟨b, rfl⟩
    · exact hplain.elim
    · exact hplain.elim
  · subst hc
    obtain ⟨b', ho⟩ := ho
    exact absurd ho (hplain b')
  · subst hc
    exact hplain.elim

theorem grows_fires (hS : S.Untrimmed) (hmoves : Moves o) (hissues : Issues o c) (hf : Fires w ⟨n, o, c, x⟩ w') :
    Grows w.state c x w'.state := by
  obtain ⟨now, hx⟩ := hf.1
  exact grows_exec hS hx (not_xtrimDlq hmoves hissues)

/-- A command of a call. -/
theorem outline_moving {α : Type} {Q : Except Exc α → World (system R S) → Prop} {f : Resp c → P α}
    {A : World (system R S) → Prop} (hS : S.Untrimmed) (A' : Resp c → World (system R S) → Prop)
    (hs : ∀ x, Stable (moving G) n (A' x)) (hcareful : ∀ w, Ledger w → A w → Careful w n o c)
    (hA : ∀ w x w', Ledger w → Ledger w' → A w → Fires w ⟨n, o, c, x⟩ w' → A' x w')
    (hf : ∀ x, Outline (moving G) n o Q (f x) (A' x)) : Outline (moving G) n o Q (Prog.cmd c >>= f) A := by
  refine outline_cmd A' hs (fun w x w' hledger hw hg hfire => ?_) hf
  have hafter : Ledger w' := ledger_fires hS hledger hg.2.1 hg.2.2 (hcareful w hledger hw) hfire
  exact ⟨hcareful w hledger hw, hafter, hA w x w' hledger hafter hw hfire⟩

/-- An operation whose commands are plain. -/
theorem plain_outline (hS : S.Untrimmed) (ho : ∀ c, Issues o c → Plain o c) :
    Outline (moving G) n o (fun _ _ => True) (prog R o) fun _ => True := by
  refine outline_of_each stable_true (fun c hissues w x w' hledger _ hg hf => ?_) (each_prog o)
  have hcareful : Careful w n o c := careful_of_plain hissues (ho c hissues)
  exact ⟨hcareful, ledger_fires hS hledger hg.2.1 hg.2.2 hcareful hf, trivial⟩

theorem lasting_history {k : Copy} : Lasting fun w : World (system R S) => k ∈ history w := fun _ _ _ hf h =>
  (mem_history_fires hf).mpr (.inr h)

/-- The entry is not the newest copy of its message, and its id is given out. -/
def Gone (place : Option String) (id : StreamId) (w : World (system R S)) : Prop :=
  Superseded place id w ∧ id ≤ (w.state.log place).last

theorem gone_fires (hS : S.Untrimmed) {place : Option String} {id : StreamId} (hmoves : Moves e.op)
    (hissues : Issues e.op e.cmd) (hf : Fires w e w') (h : Gone place id w) : Gone place id w' := by
  obtain ⟨hsuperseded, hid⟩ := h
  have hgrows : Grows w.state e.cmd e.resp w'.state := grows_fires hS hmoves hissues hf
  refine ⟨fun v f hnewest => ?_, hid.trans (hgrows.last_le place)⟩
  rcases newest_fires hf hnewest with hmade | hnewest
  · exact Nat.not_lt.mpr hid (hgrows.mem _ hmade).2
  · exact hsuperseded v f hnewest

theorem stable_gone (hS : S.Untrimmed) {place : Option String} {id : StreamId} :
    Stable (moving G) n (Gone place id) := fun _ _ _ _ _ hg hcareful hf _ h =>
  gone_fires hS hg.2.1 hcareful.issues hf h

/-- A copy of a copy supersedes it. -/
theorem gone_of_copy (hledger : Ledger w) (hledger' : Ledger w') (hf : Fires w e w') {k k' : Copy}
    (hk : k ∈ history w) (hmade : made e.cmd e.resp = [k']) (hne : k'.1 ≠ k.1)
    (hsame : k'.2.2.envelope = k.2.2.envelope) : Gone k.1 k.2.1 w' := by
  have hhistory : history w' = k' :: history w := by rw [history_fires hf, hmade, List.singleton_append]
  refine ⟨fun v f hnewest => ?_, hledger'.le k (hhistory ▸ List.mem_cons_of_mem k' hk)⟩
  rw [hhistory] at hnewest
  rcases hnewest with ⟨-, heq⟩ | ⟨hother, hnewest⟩
  · exact hne (congrArg Prod.fst heq).symm
  · obtain ⟨hmem, hv⟩ := hnewest.mem
    have hsame' : (k.1, k.2.1, f) = k := hledger.unique _ hmem k hk rfl rfl
    rw [← hsame'] at hsame
    exact hother (hsame.trans hv)

/-- **The loop of `sweep_pending`.** -/
theorem sweepEach_outline (hS : S.Untrimmed) : ∀ pending : List (StreamId × Nat),
    Outline (moving G) n (.sweepPending a) (fun _ _ => True) (sweepEach a pending) fun _ => True
  | [] => outline_ret fun _ _ _ => trivial
  | (mid, idle_ms) :: pending => by
    refine outline_moving hS (fun x w => ∀ fields ∈ x, (some a, mid, fields) ∈ history w) (fun x => ?_)
      (fun _ _ _ => careful_of_plain (.xrangeInbox mid) trivial) (fun w x w' _ hledger' _ hf fields hx => ?_) fun x => ?_
    · rintro w e w' - - - - hf - h fields hx
      exact lasting_history w e w' hf (h fields hx)
    · obtain ⟨now, hexec⟩ := hf.1
      have hread : (w.state.inbox a).log.entry? mid = x ∧ w.state = w'.state := Prod.mk.inj (Option.some.inj hexec)
      refine hledger'.entries (some a) (mid, fields) ?_
      rw [← hread.2]
      exact Log.entry?_eq_some.mp (hread.1.trans hx)
    · cases x with
      | none => exact outline_pre (fun _ _ _ => trivial) (sweepEach_outline hS pending)
      | some fields =>
        refine outline_moving hS (fun _ => Gone (some a) mid) (fun _ => stable_gone hS) (fun w hledger h => ?_)
          (fun w x w' hledger hledger' h hf => ?_) fun new_stream_id => ?_
        · refine ⟨.xaddDlq _, fun _ _ hc => (by cases hc), fun f hc v hv => ?_, fun _ _ _ hc => (by cases hc),
            fun _ hc => (by cases hc)⟩
          rcases hc with hc | ⟨b, hc⟩
          · cases hc
            exact ⟨_, h fields rfl, hv⟩
          · cases hc
        · exact gone_of_copy (e := ⟨n, .sweepPending a, _, x⟩) (k := (some a, mid, fields)) hledger hledger' hf
            (h fields rfl) rfl (fun h => by cases h) rfl
        · refine outline_moving hS (fun _ => Gone (some a) mid) (fun _ => stable_gone hS)
            (fun _ _ _ => careful_of_plain (.persist _ _ _) trivial) (fun w x w' hledger hledger' h hf => ?_) fun _ => ?_
          · exact gone_fires (e := ⟨n, .sweepPending a, _, x⟩) hS trivial (.persist _ _ _) hf h
          · refine outline_moving hS (fun _ _ => True) (fun _ => stable_true) (fun w hledger h => ?_)
              (fun _ _ _ _ _ _ _ => trivial) fun _ => ?_
            · refine ⟨.sweepAck _, fun _ _ hc => (by cases hc), fun f hc => ?_, fun b ids _ hc id hid => ?_,
                fun _ hc => (by cases hc)⟩
              · rcases hc with hc | ⟨b, hc⟩
                · cases hc
                · cases hc
              · cases hc
                rw [List.mem_singleton.mp hid]
                exact h.1
            · exact outline_bind (R := fun _ _ => True) (fun _ => outline_ret fun _ _ _ => trivial)
                (outline_mono (fun _ _ h => h) (fun r _ _ _ => by cases r <;> trivial) (sweepEach_outline hS pending))

/-- **A call of `requeue`.** -/
theorem requeue_outline (hS : S.Untrimmed) {d : StreamId} {r : Option String} :
    Outline (moving G) n (.requeue d r) (fun _ _ => True) (requeue R d r) fun _ => True := by
  refine outline_moving hS (fun x w => ∀ fields ∈ x, (none, d, fields) ∈ history w) (fun x => ?_)
    (fun _ _ _ => careful_of_plain .xrangeDlq trivial) (fun w x w' _ hledger' _ hf fields hx => ?_) fun x => ?_
  · rintro w e w' - - - - hf - h fields hx
    exact lasting_history w e w' hf (h fields hx)
  · obtain ⟨now, hexec⟩ := hf.1
    have hread : w.state.dlq.entry? d = x ∧ w.state = w'.state := Prod.mk.inj (Option.some.inj hexec)
    refine hledger'.entries none (d, fields) ?_
    rw [← hread.2]
    exact Log.entry?_eq_some.mp (hread.1.trans hx)
  · cases hparse : x.bind (readEnvelope R) with
    | none => exact outline_ret fun _ _ _ => trivial
    | some p =>
      obtain ⟨raw_env, env⟩ := p
      obtain ⟨fields, rfl, hfields⟩ := Option.bind_eq_some_iff.mp hparse
      have hraw : fields.envelope = some raw_env := by
        obtain ⟨v, hv, hv'⟩ := Option.bind_eq_some_iff.mp hfields
        obtain ⟨_, -, heq⟩ := Option.map_eq_some_iff.mp hv'
        cases heq
        exact hv
      refine outline_moving hS (fun _ w => (none, d, fields) ∈ history w) (fun _ => lasting_history.stable)
        (fun _ _ _ => careful_of_plain (.ensureGroup _) trivial)
        (fun w _ w' _ _ h hf => lasting_history w _ w' hf (h fields rfl)) fun _ => ?_
      refine outline_moving hS (fun _ w => (Gone none d w ∧ (none, d, fields) ∈ history w) ∧
          ∃ e ∈ w.trace, Requeues e raw_env)
        (fun _ => stable_and (stable_and (stable_gone hS) lasting_history.stable) lasting_executed.stable)
        (fun w _ h => ?_) (fun w x w' hledger hledger' h hf => ?_) fun _ => ?_
      · refine ⟨.xaddInbox _ _, fun _ _ hc => (by cases hc), fun f hc v hv => ?_, fun _ _ _ hc => (by cases hc),
          fun _ hc => (by cases hc)⟩
        rcases hc with hc | ⟨b, hc⟩
        · cases hc
        · cases hc
          exact ⟨_, h, hraw.trans hv⟩
      · refine ⟨⟨?_, lasting_history w _ w' hf h⟩, executed_now hf ⟨⟨d, r, rfl⟩, _, _, rfl, rfl⟩⟩
        exact gone_of_copy (e := ⟨n, .requeue d r, _, x⟩) (k := (none, d, fields)) hledger hledger' hf h rfl
          (fun h => by cases h) hraw.symm
      · refine outline_moving hS (fun _ _ => True) (fun _ => stable_true) (fun w hledger h => ?_)
          (fun _ _ _ _ _ _ _ => trivial) fun _ => ?_
        · refine ⟨.requeueDel, fun _ _ hc => (by cases hc), fun f hc => ?_, fun _ _ _ hc => (by cases hc),
            fun ids hc id hid => ?_⟩
          · rcases hc with hc | ⟨b, hc⟩
            · cases hc
            · cases hc
          · cases hc
            obtain ⟨⟨hgone, hmem⟩, hrequeued⟩ := h
            rw [List.mem_singleton.mp hid]
            refine ⟨hgone.1, fun f v hf hv => ?_⟩
            have hsame : (none, d, f) = ((none, d, fields) : Copy) := hledger.unique _ hf _ hmem rfl rfl
            cases hsame
            have hv' : raw_env = v := Option.some.inj (hraw.symm.trans hv)
            exact hv' ▸ hrequeued
        · exact outline_moving hS (fun _ _ => True) (fun _ => stable_true)
            (fun _ _ _ => careful_of_plain .requeueMark trivial) (fun _ _ _ _ _ _ _ => trivial)
            fun _ => outline_ret fun _ _ _ => trivial

theorem postInit_eq_some {env env' : Envelope} (h : Envelope.postInit R env = some env') : env' = env ∧ env.Valid R := by
  unfold Envelope.postInit at h
  split at h
  · rename_i t hmt
    split at h
    · rename_i hvalid
      cases h
      exact ⟨rfl, ⟨t, hvalid.1, hmt⟩, hvalid.2⟩
    · cases h
  · cases h

/-- **A call of `send`.** -/
theorem send_outline (hS : S.Untrimmed) {recipient sender : String} {payload : Json} {priority ttl : Int} :
    Outline (moving G) n (.send recipient payload priority ttl sender) (fun _ _ => True)
      (send R recipient payload priority ttl sender) (Untouched n) := by
  unfold send
  split
  · exact outline_raise fun _ _ _ => trivial
  · refine outline_moving hS (fun id => Own n fun own => id = toString n ∧ ∀ e ∈ own, ∀ v r, e.cmd ≠ .sendAtomic v r)
      (fun _ => stable_own) (fun _ _ _ => careful_of_plain .uuid trivial) (fun w id w' _ _ h hf => ?_) fun id => ?_
    · obtain ⟨now, hexec⟩ := hf.1
      have hid : toString n = id ∧ w.state = w'.state := Prod.mk.inj (Option.some.inj hexec)
      have hnone : mine n w = [] := h
      refine own_next hf ⟨hid.1.symm, fun e he v r => ?_⟩
      rw [hnone, List.mem_singleton] at he
      subst he
      exact fun hc => by cases hc
    · refine outline_moving hS
        (fun _ => Own n fun own => id = toString n ∧ ∀ e ∈ own, ∀ v r, e.cmd ≠ .sendAtomic v r) (fun _ => stable_own)
        (fun _ _ _ => careful_of_plain .sendTime trivial) (fun w _ w' _ _ h hf => ?_) fun now => ?_
      · refine own_next hf ⟨h.1, fun e he v r => ?_⟩
        rcases List.mem_cons.mp he with rfl | he
        · exact fun hc => by cases hc
        · exact h.2 e he v r
      · cases hinit : Envelope.postInit R (envelope R recipient payload priority ttl sender id now) with
        | none => exact outline_raise fun _ _ _ => trivial
        | some env =>
          obtain ⟨rfl, hvalid⟩ := postInit_eq_some hinit
          refine outline_moving hS (fun _ _ => True) (fun _ => stable_true) (fun w _ h => ?_)
            (fun _ _ _ _ _ _ _ => trivial) fun _ => outline_ret fun _ _ _ => trivial
          refine ⟨.sendAtomic _, fun v r hc => ?_, fun f hc => ?_, fun _ _ _ hc => (by cases hc),
            fun _ hc => (by cases hc)⟩
          · cases hc
            exact ⟨⟨_, rfl, hvalid, by rw [← h.1]; rfl⟩, h.2⟩
          · rcases hc with hc | ⟨b, hc⟩
            · cases hc
            · cases hc

theorem sweepPending_outline (hS : S.Untrimmed) :
    Outline (moving G) n (.sweepPending a) (fun _ _ => True) (sweepPending a) fun _ => True := by
  unfold sweepPending
  split
  · exact outline_ret fun _ _ _ => trivial
  · exact outline_moving hS (fun _ _ => True) (fun _ => stable_true) (fun _ _ _ => careful_of_plain .xpending trivial)
      (fun _ _ _ _ _ _ _ => trivial) fun raw => sweepEach_outline hS _

/-- An operation that is not among these. -/
theorem outline_unmoved {A : World (system R S) → Prop} (ho : ¬ Moves o) :
    Outline (moving G) n o (fun _ _ => True) (prog R o) A :=
  outline_unguarded (D := moving G) (fun _ _ h => ho h.2.1) (fun _ _ _ _ => trivial) _

theorem outline_moves (hS : S.Untrimmed) (n : Nat) : ∀ o : Op,
    Outline (moving G) n o (fun _ _ => True) (prog R o) (Untouched n)
  | .send _ _ _ _ _ => send_outline hS
  | .recv _ _ _ => outline_pre (fun _ _ _ => trivial) (plain_outline hS fun c hissues => by
      cases hissues with
      | recvAck => exact fun _ h => by cases h
      | _ => trivial)
  | .sweepPending _ => outline_pre (fun _ _ _ => trivial) (sweepPending_outline hS)
  | .requeue _ _ => outline_pre (fun _ _ _ => trivial) (requeue_outline hS)
  | .purge _ => outline_unmoved fun h => h
  | .pruneOldMessages _ => outline_unmoved fun h => h
  | .tick _ => outline_pre (fun _ _ _ => trivial) (plain_outline hS fun c hissues => by cases hissues; trivial)
  | .setIndex _ => outline_pre (fun _ _ _ => trivial) (plain_outline hS fun c hissues => by cases hissues; trivial)

theorem ledger_init (h : s.Blank) : Ledger (R := R) (S := S) ⟨s, []⟩ := by
  refine ⟨fun _ hk => absurd hk List.not_mem_nil, fun place p hp => ?_, fun _ hk => absurd hk List.not_mem_nil,
    fun _ _ hk => hk.elim, fun _ hp => absurd hp List.not_mem_nil, fun _ hk => absurd hk List.not_mem_nil⟩
  exact absurd (h place ▸ hp) List.not_mem_nil

variable {cfg : Config (system R S)}

/-- **The commands of these calls are careful.** -/
theorem run_careful (hG : ∀ w n o c, G w n o c → Moves o ∧ Punctual R c) (hS : S.Untrimmed) (h0 : s.Blank)
    (h : Run G (.init s) cfg) :
    Run (fun w n o c => (G w n o c ∧ Moves o ∧ Punctual R c) ∧ Careful w n o c) (.init s) cfg :=
  run_obeys (D := moving G) (K := fun w n o c => Careful w n o c) (fun _ _ h => h) (outline_moves hS) (ledger_init h0)
    (h.mono fun w n o c hg => ⟨hg, hG w n o c hg⟩)

end ClaudeSwarm.Ipc.Direct
