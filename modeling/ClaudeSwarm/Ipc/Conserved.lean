import ClaudeSwarm.Ipc.Ledger

/-!
# Direct messages are conserved

`Ledger.lean` says where the newest copy of a message is. Here every inbox has one reader at a time, and a requeue adds
a copy only while no other is on its way: then there is at most one, whoever has read it and not acknowledged it holds
it, and a copy that is there after that was requeued (`Once`).

* `once_fires`: a command keeps this.
* **`conserved_of_settled`**: no message is lost or returned twice, when moreover the time limit of a message is a
  number that Python can add to a time.
* `requeued_twice`: two requeues of one entry.
-/

namespace ClaudeSwarm.Ipc.Direct

open Data Interleave
open Redis (StreamId Queue)

variable {R : Operators} {S : Server} {s : Keys} {w w' : World (system R S)} {e : Event (system R S)}
  {p : String × StreamId × Fields} {v : Json} {n m : Nat}

/-! ## What should hold -/

/-- Calls of these, with one reader for each inbox. -/
def Exchange : Guard (system R S) := fun w n o c => Moves o ∧ OneReader w n o c

/-- The message is undelivered, or pending. -/
def Delivering (s : Keys) (v : Json) : Prop := ∃ a, ∃ p ∈ (s.inbox a).unsettled, p.2.envelope = some v

/-- It is in the DLQ. -/
def InDlq (s : Keys) (v : Json) : Prop := ∃ p ∈ s.dlq.entries, p.2.envelope = some v

/-- A call of `recv` has returned it. -/
def HasReturned (cfg : Config (system R S)) (v : Json) : Prop :=
  ∃ n a k b envelopes env, cfg.Returned n (.recv a k b) envelopes ∧ env ∈ envelopes ∧ env.toJson = v

/-- A call that has read it found that it had expired, and has acknowledged it. -/
def FoundExpired (w : World (system R S)) (v : Json) : Prop :=
  ∃ n p, Got n p w ∧ p.2.2.envelope = some v ∧
    (∃ e ∈ w.trace, e.call = n ∧ ∃ q ∈ verdicts e.cmd e.resp, q.1.toJson = v ∧ q.2 = some true) ∧
      ∃ e ∈ w.trace, e.call = n ∧ (p.1, p.2.1) ∈ acks e.cmd

/-- Call `n` had acknowledged what it read, with which it returns, when the message was requeued. -/
def RequeuedSince (n : Nat) (v : Json) (l : List (Event (system R S))) : Prop :=
  ∃ l₁ e l₂, l = l₁ ++ e :: l₂ ∧ Requeues e v ∧ ∃ e' ∈ l₂, e'.call = n ∧ acks e'.cmd ≠ []

/-- And it was requeued before call `m` read it. -/
def RequeuedBetween (n m : Nat) (v : Json) (l : List (Event (system R S))) : Prop :=
  ∃ l₁ e l₂, l = l₁ ++ e :: l₂ ∧ e.call = m ∧ (∃ p ∈ readings e.cmd e.resp, p.2.2.envelope = some v) ∧
    RequeuedSince n v l₂

/-- The message that a command sends, and whether its recipient was in the index. -/
def sends : (c : Cmd) → Resp c → Option (Json × Bool)
  | .sendAtomic envelope _, (delivered, _) => some (envelope, delivered)
  | _, _ => none

/-- **Messages are conserved**: none is lost, and none is returned by two calls of `recv` unless it was requeued in
between. -/
structure Conserved (cfg : Config (system R S)) : Prop where
  known : ∀ e ∈ cfg.world.trace, ∀ v, sends e.cmd e.resp = some (v, true) →
    Delivering cfg.world.state v ∨ HasReturned cfg v ∨ FoundExpired cfg.world v ∨ InDlq cfg.world.state v
  unknown : ∀ e ∈ cfg.world.trace, ∀ v, sends e.cmd e.resp = some (v, false) →
    InDlq cfg.world.state v ∨ ∃ e' ∈ cfg.world.trace, Requeues e' v
  once : ∀ n m, n ≠ m → ∀ a k b a' k' b' envelopes envelopes', cfg.Returned n (.recv a k b) envelopes →
    cfg.Returned m (.recv a' k' b') envelopes' → ∀ env ∈ envelopes, env ∈ envelopes' →
      RequeuedBetween n m env.toJson cfg.world.trace ∨ RequeuedBetween m n env.toJson cfg.world.trace

/-- **The condition of a requeue**: no copy of the message is undelivered or pending, and whoever has read one has
acknowledged it. -/
def Lone (w : World (system R S)) : Cmd → Prop
  | .xaddInbox _ fields => ∀ v, fields.envelope = some v →
      ¬ Delivering w.state v ∧ ∀ n p, Got n p w → p.2.2.envelope = some v → Done n w
  | _ => True

/-- Such calls, when they meet these conditions. -/
def Settling : Guard (system R S) := fun w n o c => Exchange w n o c ∧ Lone w c ∧ Punctual R c

/-! ## One copy at a time -/

/-- The entry is undelivered or pending, and has the message. -/
def OnWay (s : Keys) (v : Json) (p : String × StreamId × Fields) : Prop :=
  p.2 ∈ (s.inbox p.1).unsettled ∧ p.2.2.envelope = some v

/-- A message has one copy on its way. -/
structure Once (w : World (system R S)) : Prop where
  single : ∀ v p q, OnWay w.state v p → OnWay w.state v q → p = q
  held : ∀ n p v, Got n p w → ¬ Done n w → p.2.2.envelope = some v → ∀ q, OnWay w.state v q → q = p
  since : ∀ n p v, Got n p w → Done n w → p.2.2.envelope = some v → ∀ q, OnWay w.state v q → RequeuedSince n v w.trace
  between : ∀ n m p q v, n ≠ m → Got n p w → Got m q w → p.2.2.envelope = some v → q.2.2.envelope = some v →
    RequeuedBetween n m v w.trace ∨ RequeuedBetween m n v w.trace

theorem RequeuedSince.cons {l : List (Event (system R S))} (h : RequeuedSince n v l) : RequeuedSince n v (e :: l) := by
  obtain ⟨l₁, e', l₂, rfl, hsince⟩ := h
  exact ⟨e :: l₁, e', l₂, rfl, hsince⟩

theorem RequeuedBetween.cons {l : List (Event (system R S))} (h : RequeuedBetween n m v l) :
    RequeuedBetween n m v (e :: l) := by
  obtain ⟨l₁, e', l₂, rfl, hbetween⟩ := h
  exact ⟨e :: l₁, e', l₂, rfl, hbetween⟩

theorem onWay_cases (hf : Fires w e w') (h : OnWay w'.state v p) : OnWay w.state v p ∨ p ∈ adds e.cmd e.resp :=
  ((change_fires hf p.1).unsettled_cases h.1).imp_left fun hun => ⟨hun, h.2⟩

theorem id_toJson (env : Envelope) : env.toJson.get? "id" = env.id := by
  obtain ⟨sender, recipient, message_type, payload, id, timestamp, correlation_id, reply_to, ttl, priority, sequence,
    final⟩ := env
  cases id with
  | none =>
    cases timestamp with
    | none => rfl
    | some timestamp => rfl
  | some id =>
    cases timestamp with
    | none => rfl
    | some timestamp => rfl

/-- A message that is being sent has not been sent. -/
theorem not_sent (hcareful : Careful w e.call e.op e.cmd) {r : String} (hc : e.cmd = .sendAtomic v r) : ¬ Sent w v := by
  rintro ⟨e', he', env', r', hc', hv', -, hid', -⟩
  obtain ⟨⟨env, hv, -, hid⟩, hfirst⟩ := hcareful.sends v r hc
  have hids : some (Json.str (toString e'.call)) = some (Json.str (toString e.call)) := by
    rw [← hid, ← hid', ← id_toJson, ← id_toJson, hv, hv']
  have hcall : e'.call = e.call := Int.ofNat.inj (Python.str_inj (Json.str.inj (Option.some.inj hids)))
  exact hfirst e' (List.mem_filter.mpr ⟨he', by simpa using hcall⟩) _ _ hc'

/-- An entry is added where its message has no other copy on its way, and whoever has read it is done. -/
theorem adds_alone (hledger : Ledger w) (hsane : Sane w) (hcareful : Careful w e.call e.op e.cmd)
    (hlone : Lone w e.cmd) (hp : p ∈ adds e.cmd e.resp) (hv : p.2.2.envelope = some v) :
    (∀ q, ¬ OnWay w.state v q) ∧ ∀ n q, Got n q w → q.2.2.envelope = some v → Done n w ∧ Requeues e v := by
  obtain ⟨call, op, c, x⟩ := e
  cases c with
  | sendAtomic envelope recipient =>
    obtain ⟨delivered, id⟩ := x
    cases delivered with
    | false => exact absurd hp List.not_mem_nil
    | true =>
      rw [List.mem_singleton.mp hp] at hv
      cases hv
      have hnew : ∀ q : String × StreamId × Fields, q.2 ∈ (w.state.inbox q.1).log.entries →
          q.2.2.envelope ≠ some v := fun q hq hv =>
        not_sent hcareful rfl (hledger.sent _ (hledger.entries (some q.1) q.2 hq) v hv)
      exact ⟨fun q hq => hnew q (Queue.mem_entries_of_unsettled hq.1) hq.2,
        fun n q hgot hv => absurd hv (hnew q (hsane.kept n q hgot).1)⟩
  | xaddInbox agent_id fields =>
    rw [List.mem_singleton.mp hp] at hv
    obtain ⟨hway, hdone⟩ := hlone v hv
    refine ⟨fun q hq => hway ⟨q.1, q.2, hq⟩, fun n q hgot hq => ⟨hdone n q hgot hq, ?_, agent_id, fields, rfl, hv⟩⟩
    have hissues : Issues op (.xaddInbox agent_id fields) := hcareful.issues
    cases hissues
    exact ⟨_, _, rfl⟩
  | _ => exact absurd hp List.not_mem_nil

theorem adds_unique {c : Cmd} {x : Resp c} {q : String × StreamId × Fields} (hp : p ∈ adds c x) (hq : q ∈ adds c x) :
    p = q := by
  have hmade : ∀ {p}, p ∈ adds c x → (some p.1, p.2) ∈ made c x := fun hp => mem_made.mpr (.inl ⟨_, rfl, hp⟩)
  have hp := hmade hp
  have hq := hmade hq
  rcases made_cases c x with hnil | ⟨k, hk⟩
  · exact absurd (hnil ▸ hp) List.not_mem_nil
  · rw [hk, List.mem_singleton] at hp hq
    have heq : (some p.1, p.2) = (some q.1, q.2) := hp.trans hq.symm
    exact Prod.ext (Option.some.inj (Prod.mk.inj heq).1) (Prod.mk.inj heq).2

/-- Nothing is added by a command that reads. -/
theorem adds_of_readings {c : Cmd} {x : Resp c} (hp : p ∈ readings c x) : adds c x = [] := by
  obtain ⟨pending, k, rfl⟩ := cmd_of_readings hp
  rfl

/-- What is read is on its way. -/
theorem onWay_of_readings (hf : Fires w e w') (hp : p ∈ readings e.cmd e.resp) (hv : p.2.2.envelope = some v) :
    OnWay w.state v p := ⟨((change_fires hf p.1).of_readings hp).1, hv⟩

/-- A call that reads an entry comes after whoever has read the message. -/
theorem Once.reads (h : Once w) (hone : OneReader w e.call e.op e.cmd) (hf : Fires w e w') (hnm : m ≠ e.call)
    {q : String × StreamId × Fields} (hp : p ∈ readings e.cmd e.resp) (hq : Got m q w) (hv : p.2.2.envelope = some v)
    (hv' : q.2.2.envelope = some v) : RequeuedBetween m e.call v w'.trace := by
  have hway : OnWay w.state v p := onWay_of_readings hf hp hv
  have hdone : Done m w := by
    by_contra hnot
    obtain rfl := h.held m q v hq hnot hv' p hway
    obtain ⟨pending, k, hc⟩ := cmd_of_readings hp
    rw [hc] at hone
    exact hnot (hone.done hnm hq)
  exact ⟨[], e, w.trace, hf.2, rfl, ⟨p, hp, hv⟩, h.since m q v hq hdone hv' p hway⟩

theorem once_fires (h : Once w) (hledger : Ledger w) (hsane : Sane w) (hexclusive' : Exclusive w')
    (hproper : Proper w e.call e.op e.cmd) (hcareful : Careful w e.call e.op e.cmd)
    (hone : OneReader w e.call e.op e.cmd) (hlone : Lone w e.cmd) (hf : Fires w e w') : Once w' := by
  have halone := fun {p v} => adds_alone (p := p) (v := v) hledger hsane hcareful hlone
  -- What had been read when an entry is added.
  have hread : ∀ {n p q}, Got n p w' → q ∈ adds e.cmd e.resp → Got n p w := fun hgot hq =>
    ((got_fires hf).mp hgot).resolve_left fun hp => absurd (adds_of_readings hp.2 ▸ hq) List.not_mem_nil
  refine ⟨fun v p q hp hq => ?_, fun n p v hgot hdone hv q hq => ?_, fun n p v hgot hdone hv q hq => ?_,
    fun n m p q v hnm hp hq hv hv' => ?_⟩
  · rcases onWay_cases hf hp with hp₀ | hadd
    · rcases onWay_cases hf hq with hq₀ | hadd
      · exact h.single v p q hp₀ hq₀
      · exact absurd hp₀ ((halone hadd hq.2).1 p)
    · rcases onWay_cases hf hq with hq₀ | hadd'
      · exact absurd hq₀ ((halone hadd hp.2).1 q)
      · exact adds_unique hadd hadd'
  · have hnot : ¬ Done n w := fun hd => hdone ((done_fires hf).mpr (.inr hd))
    rcases onWay_cases hf hq with hq₀ | hadd
    · rcases (got_fires hf).mp hgot with ⟨-, hp⟩ | hgot
      · exact h.single v q p hq₀ (onWay_of_readings hf hp hv)
      · exact h.held n p v hgot hnot hv q hq₀
    · exact absurd ((halone hadd hq.2).2 n p (hread hgot hadd) hv).1 hnot
  · rw [hf.2]
    rcases onWay_cases hf hq with hq₀ | hadd
    · -- A call that is done reads no more.
      have hgot₀ : Got n p w := ((got_fires hf).mp hgot).resolve_left fun hp => by
        obtain ⟨rfl, hp⟩ := hp
        obtain ⟨pending, k, hc⟩ := cmd_of_readings hp
        rcases (done_fires hf).mp hdone with ⟨-, hacks⟩ | ⟨e', he', hcall, hacks⟩
        · rw [hc] at hacks
          exact hacks rfl
        · exact hacks ((hproper.reads _ _ _ hc).2 e' (List.mem_filter.mpr ⟨he', by simpa using hcall⟩)).1
      by_cases hdone₀ : Done n w
      · exact (h.since n p v hgot₀ hdone₀ hv q hq₀).cons
      · obtain rfl := h.held n p v hgot₀ hdone₀ hv q hq₀
        exact absurd hq.1 (hexclusive'.settled n q hgot hdone)
    · obtain ⟨hdone₀, hrequeues⟩ := (halone hadd hq.2).2 n p (hread hgot hadd) hv
      exact ⟨[], e, w.trace, rfl, hrequeues, hdone₀⟩
  · rcases (got_fires hf).mp hp with ⟨rfl, hreading⟩ | hp
    · rcases (got_fires hf).mp hq with ⟨rfl, -⟩ | hq
      · exact absurd rfl hnm
      · exact .inr (h.reads hone hf hnm.symm hreading hq hv hv')
    · rcases (got_fires hf).mp hq with ⟨rfl, hreading⟩ | hq
      · exact .inl (h.reads hone hf hnm hreading hp hv' hv)
      · rw [hf.2]
        exact (h.between n m p q v hnm hp hq hv hv').imp RequeuedBetween.cons RequeuedBetween.cons

/-! ## Every run -/

variable {cfg : Config (system R S)}

/-- What is known in every state that such calls reach. -/
structure Settled (w : World (system R S)) : Prop where
  ledger : Ledger w
  sane : Sane w
  exclusive : Exclusive w
  once : Once w

theorem once_init (h : s.Blank) : Once (R := R) (S := S) ⟨s, []⟩ := by
  have hgot : ∀ n p, ¬ Got n p (⟨s, []⟩ : World (system R S)) := by
    rintro n p ⟨e, he, -⟩
    exact List.not_mem_nil he
  refine ⟨fun v p q hp => ?_, fun n p v h => (hgot n p h).elim, fun n p v h => (hgot n p h).elim,
    fun n m p q v _ h => (hgot n p h).elim⟩
  have hmem : p.2 ∈ (s.log (some p.1)).entries := Queue.mem_entries_of_unsettled hp.1
  exact absurd (h (some p.1) ▸ hmem) List.not_mem_nil

theorem run_settled (hS : S.Untrimmed) (h0 : s.Blank) (h : Run Settling (.init s) cfg) : Settled cfg.world := by
  have hproper := run_proper (run_careful (fun _ _ _ _ hg => ⟨hg.1.1, hg.2.2⟩) hS h0 h)
  refine run_inv (I := Settled) (fun w e w' hI hg hf => ?_) ⟨ledger_init h0, sane_init s, ?_, once_init h0⟩ hproper
  · obtain ⟨⟨⟨⟨hsettling, hmoves, hpunctual⟩, hcareful⟩, hproper⟩, -⟩ := hg
    obtain ⟨⟨-, hone⟩, hlone, -⟩ := hsettling
    have hexclusive' : Exclusive w' := exclusive_fires hI.exclusive hI.sane hproper hone hf
    exact ⟨ledger_fires hS hI.ledger hmoves hpunctual hcareful hf, sane_fires hI.sane hf, hexclusive',
      once_fires hI.once hI.ledger hI.sane hexclusive' hproper hcareful hone hlone hf⟩
  · exact exclusive_init s

/-- What is sent is read as it was. -/
theorem Settled.parse (h : Settled cfg.world) (hgot : Got n p cfg.world) (hv : p.2.2.envelope = some v) :
    ∃ env, Envelope.fromJson R v = some env ∧ env.toJson = v ∧ ∀ now, env.isExpired R now ≠ none := by
  have hmem : (some p.1, p.2) ∈ history cfg.world := h.ledger.entries _ _ (h.sane.kept n p hgot).1
  obtain ⟨e, -, env, r, -, rfl, hvalid, -, hexpires⟩ := h.ledger.sent _ hmem v hv
  exact ⟨env, Envelope.fromJson_toJson hvalid, rfl, hexpires⟩

/-- What `recv` has taken it has returned, or found expired. -/
theorem Settled.taken (h : Settled cfg.world) (hrun : Run Settling (.init s) cfg) {k : Copy} (hk : k ∈ history cfg.world)
    (hv : k.2.2.envelope = some v) (htaken : Taken cfg.world k) : HasReturned cfg v ∨ FoundExpired cfg.world v := by
  obtain ⟨e, he, ⟨a, count, auto_ack, ho⟩, b, hb, hacks⟩ := htaken
  obtain ⟨envelopes, hr⟩ := run_returned hrun he ho (List.ne_nil_of_mem hacks)
  have hreceived : Received a envelopes (mine e.call cfg.world) := run_received hrun hr
  obtain ⟨e', he', p, hp, hpb, hpid⟩ := hreceived.acked e (List.mem_filter.mpr ⟨he, by simp⟩) _ hacks
  obtain ⟨hmem', hcall'⟩ := List.mem_filter.mp he'
  have hgot : Got e.call p cfg.world := ⟨e', hmem', by simpa using hcall', hp⟩
  have hentry : (some p.1, p.2) = k := by
    refine h.ledger.unique _ (h.ledger.entries _ _ (h.sane.kept _ p hgot).1) k hk ?_ hpid
    rw [hb, hpb]
  have hpv : p.2.2.envelope = some v := by rw [← hv, ← hentry]
  obtain ⟨env, hparse, hjson, hexpires⟩ := h.parse hgot hpv
  rcases hreceived.judged e' he' p hp env (by rw [hpv]; exact hparse) with henv | ⟨e₂, he₂, q, hq, hq₁, hq₂⟩
  · exact .inl ⟨_, _, _, _, envelopes, env, hr, henv, hjson⟩
  · obtain ⟨hmem₂, hcall₂⟩ := List.mem_filter.mp he₂
    obtain ⟨now, hnow⟩ := h.sane.asked e₂ hmem₂ q hq
    have hverdict : q.2 = some true := by
      rw [hq₁] at hnow
      have hsome := hexpires now
      rw [← hnow] at hsome
      cases hq₃ : q.2 with
      | none => exact absurd hq₃ hsome
      | some verdict =>
        cases verdict with
        | true => rfl
        | false => exact absurd hq₃ hq₂
    refine .inr ⟨e.call, p, hgot, hpv, ⟨e₂, hmem₂, by simpa using hcall₂, q, hq, hq₁ ▸ hjson, hverdict⟩, e, he, rfl, ?_⟩
    rw [hpb, hpid]
    exact hacks

/-- What is sent has a first copy. -/
theorem made_of_sends {c : Cmd} {x : Resp c} {delivered : Bool} (h : sends c x = some (v, delivered)) :
    ∃ k ∈ made c x, k.2.2.envelope = some v ∧ (delivered = false → k.1 = none) := by
  cases c with
  | sendAtomic envelope recipient =>
    obtain ⟨known, id⟩ := x
    cases h
    cases delivered with
    | true => exact ⟨_, List.mem_cons_self, rfl, fun h => by cases h⟩
    | false => exact ⟨_, List.mem_cons_self, rfl, fun _ => rfl⟩
  | _ => cases h

/-- **Direct messages are conserved**, where a requeue adds a message only while no other copy of it is on its way,
and the time limit of every message can be added to its time. -/
theorem conserved_of_settled (hS : S.Untrimmed) (h0 : s.Blank) (h : Run Settling (.init s) cfg) : Conserved cfg := by
  have hsettled := run_settled hS h0 h
  have hledger := hsettled.ledger
  refine ⟨fun e he v hsends => ?_, fun e he v hsends => ?_, fun n m hnm a k b a' k' b' envs envs' hn hm env henv henv' => ?_⟩
  · obtain ⟨k₀, hmade, hv₀, -⟩ := made_of_sends hsends
    obtain ⟨k, hk⟩ := exists_newest (mem_history he hmade) hv₀
    obtain ⟨hmem, hv⟩ := hk.mem
    rcases hledger.newest v k hk with hthere | htaken
    · obtain ⟨place, p⟩ := k
      cases place with
      | some a => exact .inl ⟨a, p, hthere, hv⟩
      | none => exact .inr (.inr (.inr ⟨p, hthere, hv⟩))
    · rcases hsettled.taken h hmem hv htaken with hr | hexpired
      · exact .inr (.inl hr)
      · exact .inr (.inr (.inl hexpired))
  · obtain ⟨⟨place, p⟩, hmade, hv, hplace⟩ := made_of_sends hsends
    obtain rfl : place = none := hplace rfl
    rcases hledger.dlq p (mem_history he hmade) with hmem | hrequeued
    · exact .inl ⟨p, hmem, hv⟩
    · exact .inr (hrequeued v hv)
  · obtain ⟨e, he, p, hp, -, hparse⟩ := (run_received h hn).returned env henv
    obtain ⟨e', he', q, hq, -, hparse'⟩ := (run_received h hm).returned env henv'
    have hread : ∀ {n e p}, e ∈ mine n cfg.world → p ∈ readings e.cmd e.resp →
        p.2.2.envelope.bind (Envelope.fromJson R) = some env → Got n p cfg.world ∧ p.2.2.envelope = some env.toJson := by
      intro n e p he hp hparse
      obtain ⟨hmem, hcall⟩ := List.mem_filter.mp he
      have hgot : Got n p cfg.world := ⟨e, hmem, by simpa using hcall, hp⟩
      obtain ⟨v, hv, hparse⟩ := Option.bind_eq_some_iff.mp hparse
      obtain ⟨env₀, hparse₀, hjson, -⟩ := hsettled.parse hgot hv
      obtain rfl : env₀ = env := Option.some.inj (hparse₀.symm.trans hparse)
      exact ⟨hgot, hjson ▸ hv⟩
    obtain ⟨hgot, hv⟩ := hread he hp hparse
    obtain ⟨hgot', hv'⟩ := hread he' hq hparse'
    exact hsettled.once.between n m p q env.toJson hnm hgot hgot' hv hv'

/-! ## Runs on a server that trims nothing -/

/-- A number of whole seconds. -/
def seconds : Json → Option Int
  | .int i => some i
  | .float text => Python.int (String.ofList (text.toList.takeWhile (· ≠ '.')))
  | _ => none

/-- Python's operators on numbers of whole seconds. -/
def wholeSeconds : Operators where
  le a b := do return (← seconds a) ≤ (← seconds b)
  add a b := do return .float (Python.wholeSeconds.str ((← seconds a) + (← seconds b) : Int))
  exceeds now a := (seconds a).map fun i => ((i : Python.Time) < now : Bool)
  ofTime now := .float (Python.wholeSeconds.str now)
  str
    | .str text => text
    | value => value.dumps

/-- It trims nothing. -/
def untrimmed : Server := ⟨fun _ => 0, fun _ _ => 0, true⟩

/-- Agents that have registered. -/
def Keys.registered (index : List String) : Keys := ⟨index, fun _ => Queue.empty.ensure, .empty, .empty, 0⟩

theorem blank_registered (index : List String) : (Keys.registered index).Blank := by
  intro place
  cases place <;> rfl

/-- What a call of `recv` has returned. -/
def received (cfg : Config (system R S)) (n : Nat) : List Envelope :=
  match cfg.proc n with
  | some ⟨.recv _ _ _, .ret envelopes⟩ => envelopes
  | _ => []

theorem exists_returned {cfg : Config (system R S)} {env : Envelope} (h : env ∈ received cfg n) :
    ∃ a k b envelopes, cfg.Returned n (.recv a k b) envelopes ∧ env ∈ envelopes := by
  unfold received at h
  split at h
  · rename_i a k b envelopes hn
    exact ⟨a, k, b, envelopes, hn, h⟩
  · exact absurd h List.not_mem_nil

/-- Such operators, and such a server. -/
abbrev plain : System := system wholeSeconds untrimmed

/-- A message for `b`, who is not in the index, two requeues of it, and two calls of `recv`. -/
def twoRequeues : List (Act plain) :=
  solo plain 0 (.send "b" (.str "hello") 3 0 "a") 3 0 ++ [.start 1 (.requeue 1 none), .start 2 (.requeue 1 none),
    .step 1 0, .step 2 0] ++ List.replicate 4 (.step 1 0) ++ List.replicate 4 (.step 2 0) ++
    solo plain 3 (.recv "b" 1 true) 4 0 ++ solo plain 4 (.recv "b" 1 true) 4 0

/-- Whether such a call may do it. -/
def exchanged (w : World plain) (n : Nat) (o : Op) (c : Cmd) : Prop := Moves o ∧ oneReader w n c = true

instance (w : World plain) (n : Nat) (o : Op) (c : Cmd) : Decidable (exchanged w n o c) :=
  inferInstanceAs (Decidable (Moves o ∧ oneReader w n c = true))

/-- Whether no entry is added to an inbox after calls 3 and 4 have begun. -/
def requeuedFirst (l : List (Event plain)) : Prop :=
  l.Pairwise fun e e' => adds e.cmd e.resp = [] ∨ e'.call ≠ 3 ∧ e'.call ≠ 4

instance : DecidablePred requeuedFirst := fun l => inferInstanceAs (Decidable (l.Pairwise _))

/-- **Both requeues read the entry before one deletes it**, and two calls of `recv` return the message. -/
theorem requeued_twice :
    ∃ cfg : Config plain, Run Exchange (.init (Keys.registered [])) cfg ∧ cfg.Quiescent ∧ ¬ Conserved cfg := by
  have hplay : (play exchanged (.init (M := plain) (Keys.registered [])) twoRequeues).any (fun cfg =>
      (starts twoRequeues).all cfg.atRest && (!(received cfg 3).isEmpty && decide (received cfg 3 = received cfg 4) &&
        decide (requeuedFirst cfg.world.trace))) = true := by decide +kernel
  obtain ⟨cfg, hcfg, hquiet, ht⟩ := exists_quiescent_of_play hplay
  refine ⟨cfg, hcfg.mono fun w n o c hg => ⟨hg.1, oneReader_sound hg.2⟩, hquiet, fun h => ?_⟩
  simp only [Bool.and_eq_true, Bool.not_eq_true', List.isEmpty_eq_false_iff, decide_eq_true_eq] at ht
  obtain ⟨⟨hne, hsame⟩, hfirst⟩ := ht
  obtain ⟨env, henv⟩ := List.exists_mem_of_ne_nil _ hne
  obtain ⟨a, k, b, envelopes, hr, hmem⟩ := exists_returned henv
  obtain ⟨a', k', b', envelopes', hr', hmem'⟩ := exists_returned (hsame ▸ henv)
  have hnot : ∀ {n m}, n = 3 ∨ n = 4 → ¬ RequeuedBetween n m env.toJson cfg.world.trace := by
    rintro n m hn ⟨l₁, e, l, hl, -, -, l₂, e', l₃, rfl, ⟨-, b, f, hc, -⟩, e₂, he₂, hcall, -⟩
    have hpair : requeuedFirst (l₁ ++ e :: (l₂ ++ e' :: l₃)) := hl ▸ hfirst
    have hlater := (List.pairwise_append.mp (List.pairwise_cons.mp (List.pairwise_append.mp hpair).2.1).2).2.1
    rcases (List.pairwise_cons.mp hlater).1 e₂ he₂ with hnone | hother
    · obtain ⟨call, op, c, x⟩ := e'
      obtain rfl : c = .xaddInbox b f := hc
      cases hnone
    · rcases hn with rfl | rfl
      · exact hother.1 hcall
      · exact hother.2 hcall
  rcases h.once 3 4 (by decide) a k b a' k' b' envelopes envelopes' hr hr' env hmem hmem' with hb | hb
  · exact hnot (.inl rfl) hb
  · exact hnot (.inr rfl) hb

/-- Whether a command sends no message with a time limit, and requeues none. -/
def lasting : Cmd → Bool
  | .sendAtomic envelope _ => (Envelope.fromJson wholeSeconds envelope).all fun env => env.ttl = .int 0
  | .xaddInbox _ _ => false
  | _ => true

theorem lone_of_lasting {w : World plain} {c : Cmd} (h : lasting c = true) : Lone w c ∧ Punctual wholeSeconds c := by
  cases c with
  | sendAtomic envelope recipient =>
    refine ⟨trivial, fun env henv now => ?_⟩
    have hall : (Envelope.fromJson wholeSeconds envelope).all (fun env => env.ttl = .int 0) = true := h
    rw [henv] at hall
    have httl : env.ttl = .int 0 := by simpa using hall
    have hexpired : env.isExpired wholeSeconds now = some false := by
      unfold Envelope.isExpired
      rw [httl]
      rfl
    rw [hexpired]
    exact fun hnone => by cases hnone
  | xaddInbox agent_id fields => cases h
  | _ => exact ⟨trivial, trivial⟩

/-- Such calls, without these. -/
def plainly (w : World plain) (n : Nat) (o : Op) (c : Cmd) : Prop := exchanged w n o c ∧ lasting c = true

instance (w : World plain) (n : Nat) (o : Op) (c : Cmd) : Decidable (plainly w n o c) :=
  inferInstanceAs (Decidable (exchanged w n o c ∧ lasting c = true))

/-- A message is sent and received. -/
def sentOnce : List (Act plain) :=
  solo plain 0 (.send "b" (.str "hello") 3 0 "a") 3 0 ++ solo plain 1 (.recv "b" 1 true) 4 0

theorem conserved_of_settled_one :
    ∃ cfg : Config plain, Run Settling (.init (Keys.registered ["b"])) cfg ∧ cfg.world.trace.length = 7 ∧
      (received cfg 1).length = 1 ∧ Conserved cfg := by
  have hplay : (play plainly (.init (M := plain) (Keys.registered ["b"])) sentOnce).any (fun cfg =>
      cfg.world.trace.length == 7 && (received cfg 1).length == 1) = true := by decide +kernel
  obtain ⟨cfg, hcfg, ht⟩ := exists_run_of_play hplay
  rw [Bool.and_eq_true, beq_iff_eq, beq_iff_eq] at ht
  have hrun : Run Settling (.init (Keys.registered ["b"])) cfg := hcfg.mono fun w n o c hg =>
    ⟨⟨hg.1.1, oneReader_sound hg.1.2⟩, lone_of_lasting hg.2⟩
  exact ⟨cfg, hrun, ht.1, ht.2, conserved_of_settled (fun _ => rfl) (blank_registered _) hrun⟩

end ClaudeSwarm.Ipc.Direct
