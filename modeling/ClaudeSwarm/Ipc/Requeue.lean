import ClaudeSwarm.Interleave.Alone
import ClaudeSwarm.Ipc.Conserved

/-!
# Requeued messages

Calls of `requeue` (`src/ipc/dlq.py`) and `recv`, with any others but `sweep_pending`, whatever is in the DLQ and the
inboxes before; every inbox has one reader. A requeue finds an entry of the DLQ, adds it to an inbox and deletes it, in
commands of their own.

* `runs_recv`: what a call of `recv` returns when it runs alone. `later_of_unsettled`: so a message that is unsettled is
  returned, once enough calls have been made.
* **`exactlyOnce_of_undisturbed`**: an entry is requeued and returned once, where no requeue looks for an entry that
  another one has found and not yet deleted, the recipient has a name, and the message has not expired when it is
  received (`Undisturbed`).
* `both_requeue`: two requeues of one entry return `True`.
-/

namespace ClaudeSwarm.Ipc.Direct

open Interleave
open Python (Time)
open Redis (StreamId Log Queue)

variable {R : Operators} {S : Server} {n m : Nat} {s s' : Keys} {a : String} {c : Cmd} {x : Resp c}
  {w w' : World (system R S)} {e : Event (system R S)} {p : String × StreamId × Fields} {o : Op}
  {G : Guard (system R S)} {env : Envelope} {d : StreamId} {r : Option String}

/-! ## What the calls do -/

/-- The entry of the DLQ that a command finds. -/
def finds : (c : Cmd) → Resp c → List (StreamId × Fields)
  | .xrangeDlq id, some fields => [(id, fields)]
  | _, _ => []

/-- Call `n` has found the entry, with an envelope that can be read. -/
def Found (n : Nat) (d : StreamId) (w : World (system R S)) : Prop :=
  ∃ e ∈ w.trace, e.call = n ∧ ∃ q ∈ finds e.cmd e.resp, q.1 = d ∧ (readEnvelope R q.2).isSome

/-- A requeue has added the entry to an inbox. -/
def Requeued (p : String × StreamId × Fields) (w : World (system R S)) : Prop :=
  ∃ e ∈ w.trace, (∃ d r, e.op = .requeue d r) ∧ p ∈ adds e.cmd e.resp

/-- Call `n` has requeued entry `d` of the DLQ, whose envelope is `env`, as entry `p` of an inbox. -/
def Copied (n : Nat) (d : StreamId) (r : Option String) (p : String × StreamId × Fields) (env : Envelope)
    (w : World (system R S)) : Prop :=
  ∃ fields raw_env, readEnvelope R fields = some (raw_env, env) ∧ p.1 = recipientOf R r env ∧
    p.2.2 = ⟨some raw_env, none⟩ ∧ (∃ e ∈ w.trace, e.call = n ∧ (d, fields) ∈ finds e.cmd e.resp) ∧
      ∃ e ∈ w.trace, e.call = n ∧ e.op = .requeue d r ∧ p ∈ adds e.cmd e.resp

/-- The operations: `recv` acknowledges what it reads, and nothing is swept out of the inboxes. -/
def Receives : Op → Prop
  | .sweepPending _ => False
  | .recv _ _ auto_ack => auto_ack = true
  | _ => True

instance (o : Op) : Decidable (Receives o) :=
  match o with
  | .sweepPending _ => isFalse id
  | .recv _ _ auto_ack => inferInstanceAs (Decidable (auto_ack = true))
  | .send _ _ _ _ _ | .requeue _ _ | .purge _ | .pruneOldMessages _ | .tick _ | .setIndex _ => isTrue trivial

/-- Calls of these, with one reader for each inbox. -/
def Delivery : Guard (system R S) := fun w n o c => Receives o ∧ OneReader w n o c

/-- **The condition of a command**: a requeue does not look for an entry that another one has found and not yet deleted,
the recipient has a name, and what was requeued has not expired when it is received. -/
def Undisturbed : Guard (system R S) := fun w n _ c =>
  match c with
  | .xrangeDlq d => ∀ m, m ≠ n → Found m d w → d ∉ w.state.dlq.ids
  | .xaddInbox a _ => a ≠ ""
  | .isExpired env => ∀ p, Got n p w → Requeued p w → p.2.2.envelope.bind (Envelope.fromJson R) = some env →
      env.isExpired R w.state.clock = some false
  | _ => True

/-- Calls of `recv` of one agent, one after the other, each at a time of its own; and what they return. -/
def Recvs (R : Operators) (S : Server) (a : String) :
    (calls : List (Time × Int)) → Keys → List (List Envelope) → Keys → Prop
  | [], s, results, s' => results = [] ∧ s' = s
  | (now, count) :: calls, s, results, s' => ∃ n envelopes s₁ rest,
      (store R S).Runs n (recv R a count true) { s with clock := now } (.ok envelopes) s₁ ∧
        results = envelopes :: rest ∧ Recvs R S a calls s₁ rest s'

/-- The message of an unsettled entry is returned by one of as many calls as there are unsettled entries, at times when
it has not expired, and settled then. -/
def Later (R : Operators) (S : Server) (s : Keys) (p : String × StreamId × Fields) (env : Envelope) : Prop :=
  ∀ calls : List (Time × Int), (∀ c ∈ calls, 1 ≤ c.2 ∧ env.isExpired R c.1 = some false) →
    (s.inbox p.1).unsettled.length ≤ calls.length →
      (∃ results s', Recvs R S p.1 calls s results s') ∧ ∀ results s', Recvs R S p.1 calls s results s' →
        (∃ envelopes ∈ results, env ∈ envelopes) ∧ p.2 ∉ (s'.inbox p.1).unsettled

/-- A call of `recv` has read the entry, and returned the envelope. -/
def HasDelivered (cfg : Config (system R S)) (p : String × StreamId × Fields) (env : Envelope) : Prop :=
  ∃ n k envelopes, cfg.Returned n (.recv p.1 k true) envelopes ∧ env ∈ envelopes ∧ Got n p cfg.world

/-- **Exactly once**: one requeue of an entry returns `True`, and what it has added is read by one call, and is either
settled and returned, or unsettled still and returned later. -/
structure ExactlyOnce (cfg : Config (system R S)) : Prop where
  single : ∀ d n m r r', cfg.Returned n (.requeue d r) true → cfg.Returned m (.requeue d r') true → n = m
  delivered : ∀ n d r, cfg.Returned n (.requeue d r) true → ∃ p env, Copied n d r p env cfg.world ∧
    (∀ m m', Got m p cfg.world → Got m' p cfg.world → m = m') ∧
      (HasDelivered cfg p env ∧ p.2 ∉ (cfg.world.state.inbox p.1).unsettled ∨
        p.2 ∈ (cfg.world.state.inbox p.1).unsettled ∧ (cfg.Quiescent → Later R S cfg.world.state p env))

/-! ## A call of `recv` that runs alone -/

/-- What `recv` makes of an entry at a time. -/
def accepted (R : Operators) (now : Time) (p : StreamId × Fields) : List Envelope :=
  ((p.2.envelope.bind (Envelope.fromJson R)).filter fun env => env.isExpired R now = some false).toList

theorem runs_accept {fields : Fields} {q : Except Exc (Option Envelope)} :
    (store R S).Runs n (accept R fields) s q s' ↔
      q = .ok ((fields.envelope.bind (Envelope.fromJson R)).filter fun env => env.isExpired R s.clock = some false) ∧
        s' = s := by
  unfold accept
  cases hparse : fields.envelope.bind (Envelope.fromJson R) with
  | none => rfl
  | some env =>
    have hfilter : (some env).filter (fun env => decide (env.isExpired R s.clock = some false)) =
        if env.isExpired R s.clock = some false then some env else none := by
      simp [Option.filter]
    rw [hfilter]
    constructor
    · rintro ⟨now, y, s₁, hy, hr⟩
      cases hy
      exact hr
    · exact fun hr => ⟨0, _, s, rfl, hr⟩

theorem runs_sort : ∀ {entries : List (StreamId × Fields)} {s s' : Keys}
    {q : Except Exc (List Envelope × List StreamId)}, (store R S).Runs n (sort R entries) s q s' ↔
      q = .ok (entries.flatMap (accepted R s.clock), entries.map Prod.fst) ∧ s' = s
  | [], _, _, _ => Iff.rfl
  | (stream_id, fields) :: entries, s, s', q => by
    rw [sort, Store.runs_bind_of (store R S) n fun _ _ => runs_accept,
      Store.runs_bind_of (store R S) n fun _ _ => runs_sort]
    rfl

/-- What a call of `recv` returns, and leaves. -/
structure Drained (R : Operators) (s : Keys) (a : String) (k : Nat) (q : Except Exc (List Envelope)) (s' : Keys) :
    Prop where
  result : q = .ok (((s.inbox a).unsettled.take k).flatMap (accepted R s.clock))
  unsettled : (s'.inbox a).unsettled = (s.inbox a).unsettled.drop k
  group : (s'.inbox a).group.isSome

theorem isSome_redeliver {q : Queue Fields} {now k : Nat} (h : q.group.isSome) : (q.redeliver now k).group.isSome := by
  unfold Queue.redeliver
  rwa [Option.isSome_map]

theorem isSome_deliver {q : Queue Fields} {now k : Nat} (h : q.group.isSome) : (q.deliver now k).group.isSome := by
  unfold Queue.deliver
  rwa [Option.isSome_map]

theorem isSome_ack {q : Queue Fields} {ids : List StreamId} (h : q.group.isSome) : (q.ack ids).group.isSome := by
  unfold Queue.ack
  rwa [Option.isSome_map]

theorem deliver_zero (q : Queue Fields) (now : Nat) : q.deliver now 0 = q := by
  obtain ⟨log, group, pos, delivered_le, pending_le⟩ := q
  cases group <;> simp [Queue.deliver, Redis.Group.deliver]

theorem ack_nil (q : Queue Fields) : q.ack [] = q := by
  obtain ⟨log, group, pos, delivered_le, pending_le⟩ := q
  cases group <;> simp [Queue.ack, Redis.Group.ack]

theorem onInbox_self (s : Keys) (a : String) {f : Queue Fields → Queue Fields} :
    (s.onInbox a f).inbox a = f (s.inbox a) := by
  rw [inbox_onInbox, if_pos rfl]

theorem onInbox_id {f : Queue Fields → Queue Fields} (h : f (s.inbox a) = s.inbox a) : s.onInbox a f = s := by
  unfold Keys.onInbox
  rw [h, Function.update_eq_self]

/-- `stream_read_group`, where there is a group. -/
theorem runs_streamReadGroup {count : Int} {pending : Bool} (hc : 1 ≤ count) (hgroup : (s.inbox a).group.isSome)
    {q : Except Exc (List (StreamId × Fields))} (hr : (store R S).Runs n (streamReadGroup a count pending) s q s') :
    ∃ now, q = .ok ((if pending then (s.inbox a).pending else (s.inbox a).waiting).take count.toNat) ∧
      s' = s.onInbox a fun q => if pending then q.redeliver now count.toNat else q.deliver now count.toNat := by
  unfold streamReadGroup at hr
  rw [if_neg (by omega)] at hr
  obtain ⟨now, y, s₁, hy, hr⟩ := hr
  rcases exec_xreadgroup hy with ⟨hnone, -, -⟩ | ⟨-, ⟨rfl, rfl, rfl⟩ | ⟨rfl, rfl, rfl⟩⟩
  · rw [Option.isNone_iff_eq_none.mp hnone] at hgroup
    cases hgroup
  · exact ⟨now, hr.1, hr.2⟩
  · exact ⟨now, hr.1, hr.2⟩

theorem runs_readNew {remaining : Int} (hgroup : (s.inbox a).group.isSome) {q : Except Exc (List (StreamId × Fields))}
    (hr : (store R S).Runs n (readNew a remaining) s q s') :
    ∃ now, q = .ok ((s.inbox a).waiting.take remaining.toNat) ∧ s' = s.onInbox a (·.deliver now remaining.toNat) := by
  unfold readNew at hr
  split at hr
  · rename_i hpos
    obtain ⟨now, hq, hs⟩ := runs_streamReadGroup (by omega) hgroup hr
    exact ⟨now, hq, hs⟩
  · rename_i hpos
    have hzero : remaining.toNat = 0 := by omega
    obtain ⟨rfl, rfl⟩ := hr
    rw [hzero]
    exact ⟨0, rfl, (onInbox_id (deliver_zero _ 0)).symm⟩

theorem runs_acknowledge {ids : List StreamId} {q : Except Exc Unit}
    (hr : (store R S).Runs n (acknowledge true a ids) s q s') : q = .ok () ∧ s' = s.onInbox a (·.ack ids) := by
  unfold acknowledge at hr
  split at hr
  · obtain ⟨now, y, s₁, hy, rfl, rfl⟩ := hr
    cases hy
    exact ⟨rfl, rfl⟩
  · rename_i hids
    obtain rfl : ids = [] := by simpa using hids
    obtain ⟨rfl, rfl⟩ := hr
    rw [onInbox_id (ack_nil _)]
    exact ⟨rfl, rfl⟩

/-- **A call of `recv`** takes the first of the unsettled entries. -/
theorem runs_recv {k : Int} (ha : a ≠ "") (hk : 1 ≤ k) (hgroup : (s.inbox a).group.isSome)
    {q : Except Exc (List Envelope)} (hr : (store R S).Runs n (recv R a k true) s q s') :
    Drained R s a k.toNat q s' := by
  unfold recv at hr
  rw [if_neg ha] at hr
  rcases (Store.runs_bind (store R S) n).mp hr with ⟨entries, s₁, hread, hr₁⟩ | ⟨err, hread, -⟩
  · obtain ⟨now₁, hentries, rfl⟩ := runs_streamReadGroup hk hgroup hread
    have hentries : entries = (s.inbox a).pending.take k.toNat := Except.ok.inj hentries
    have hgroup₁ : ((s.onInbox a (·.redeliver now₁ k.toNat)).inbox a).group.isSome := by
      rw [onInbox_self]
      exact isSome_redeliver hgroup
    rcases (Store.runs_bind (store R S) n).mp hr₁ with ⟨new, s₂, hnew, hr₂⟩ | ⟨err, hnew, -⟩
    · obtain ⟨now₂, hnews, rfl⟩ := runs_readNew hgroup₁ hnew
      have hremaining : (k - entries.length).toNat = k.toNat - ((s.inbox a).pending.take k.toNat).length := by
        rw [hentries]
        omega
      have hall : entries ++ new = (s.inbox a).unsettled.take k.toNat := by
        have hnews : new = ((s.onInbox a (·.redeliver now₁ k.toNat)).inbox a).waiting.take (k - entries.length).toNat :=
          Except.ok.inj hnews
        rw [Queue.take_unsettled, hnews, hremaining, onInbox_self, Queue.waiting_redeliver, hentries]
      rw [Store.runs_bind_of (store R S) n fun _ _ => runs_sort, hall] at hr₂
      rcases (Store.runs_bind (store R S) n).mp hr₂ with ⟨_, s₃, hack, rfl, rfl⟩ | ⟨err, hack, -⟩
      · obtain ⟨-, rfl⟩ := runs_acknowledge hack
        refine ⟨rfl, ?_, ?_⟩
        · rw [onInbox_self, onInbox_self, onInbox_self, hremaining, ← Queue.unsettled_drain hgroup]
          rfl
        · rw [onInbox_self, onInbox_self, onInbox_self]
          exact isSome_ack (isSome_deliver (isSome_redeliver hgroup))
      · cases (runs_acknowledge hack).1
    · obtain ⟨_, hx, -⟩ := runs_readNew hgroup₁ hnew
      cases hx
  · obtain ⟨_, hx, -⟩ := runs_streamReadGroup hk hgroup hread
    cases hx

/-! ## Calls one after the other -/

theorem exists_exec (R : Operators) (S : Server) (n : Nat) (s : Keys) (c : Cmd) :
    ∃ now x s', (store R S).exec n now s c = some (x, s') := by
  refine ⟨(0 : Nat), ?_⟩
  cases c with
  | sendAtomic envelope recipient =>
    by_cases h : recipient ∈ s.index
    · exact ⟨_, _, if_pos h⟩
    · exact ⟨_, _, if_neg h⟩
  | xreadgroup agent_id pending count =>
    by_cases h : (s.inbox agent_id).group.isNone = true
    · exact ⟨_, _, if_pos h⟩
    · cases pending with
      | true => exact ⟨_, _, if_neg h⟩
      | false => exact ⟨_, _, if_neg h⟩
  | xtrimDlq cutoff =>
    by_cases h : S.minid = true
    · exact ⟨_, _, if_pos h⟩
    · exact ⟨_, _, if_neg h⟩
  | _ => exact ⟨_, _, rfl⟩

theorem exists_recvs (ha : a ≠ "") : ∀ {calls : List (Time × Int)} {s : Keys}, (∀ c ∈ calls, 1 ≤ c.2) →
    (s.inbox a).group.isSome → ∃ results s', Recvs R S a calls s results s'
  | [], s, _, _ => ⟨[], s, rfl, rfl⟩
  | (now, count) :: calls, s, hcounts, hgroup => by
    obtain ⟨q, s₁, hr⟩ := (store R S).exists_runs 0 (exists_exec R S 0) (recv R a count true) { s with clock := now }
    have hdrained := runs_recv (s := { s with clock := now }) ha (hcounts _ List.mem_cons_self) hgroup hr
    obtain ⟨results, s', hrest⟩ := exists_recvs ha (fun c hc => hcounts c (List.mem_cons_of_mem _ hc)) hdrained.group
    rw [hdrained.result] at hr
    exact ⟨_, s', 0, _, s₁, results, hr, rfl, hrest⟩

/-- What is unsettled after such calls was so before. -/
theorem recvs_unsettled (ha : a ≠ "") {q : StreamId × Fields} : ∀ {calls : List (Time × Int)} {s : Keys}
    {results : List (List Envelope)}, (∀ c ∈ calls, 1 ≤ c.2) → (s.inbox a).group.isSome →
      Recvs R S a calls s results s' → q ∈ (s'.inbox a).unsettled → q ∈ (s.inbox a).unsettled
  | [], _, _, _, _, h, hq => h.2 ▸ hq
  | (now, count) :: calls, s, results, hcounts, hgroup, h, hq => by
    obtain ⟨n, envelopes, s₁, rest, hr, -, hrest⟩ := h
    have hdrained := runs_recv (s := { s with clock := now }) ha (hcounts _ List.mem_cons_self) hgroup hr
    have hmem := recvs_unsettled ha (fun c hc => hcounts c (List.mem_cons_of_mem _ hc)) hdrained.group hrest hq
    rw [hdrained.unsettled] at hmem
    exact List.mem_of_mem_drop hmem

/-- An entry that is among the first of a list is not among the others. -/
theorem not_mem_drop {q : Queue Fields} {k : Nat} {u : StreamId × Fields} (h : u ∈ q.unsettled.take k) :
    u ∉ q.unsettled.drop k := fun hdrop =>
  Redis.not_mem_take q.nodup_unsettled hdrop (List.mem_map_of_mem h)

/-- **What is unsettled is returned later.** -/
theorem later_of_unsettled (ha : p.1 ≠ "") (hparse : p.2.2.envelope.bind (Envelope.fromJson R) = some env) :
    ∀ {calls : List (Time × Int)} {s : Keys}, (s.inbox p.1).group.isSome → p.2 ∈ (s.inbox p.1).unsettled →
      (∀ c ∈ calls, 1 ≤ c.2 ∧ env.isExpired R c.1 = some false) → (s.inbox p.1).unsettled.length ≤ calls.length →
        ∀ results s', Recvs R S p.1 calls s results s' →
          (∃ envelopes ∈ results, env ∈ envelopes) ∧ p.2 ∉ (s'.inbox p.1).unsettled
  | [], s, _, hp, _, hlength, _, _, _ => absurd hp (by simp [List.length_eq_zero_iff.mp (Nat.le_zero.mp hlength)])
  | (now, count) :: calls, s, hgroup, hp, hcalls, hlength, results, s', h => by
    obtain ⟨n, envelopes, s₁, rest, hr, rfl, hrest⟩ := h
    obtain ⟨hcount, hfresh⟩ := hcalls _ List.mem_cons_self
    have hlater := fun c hc => hcalls c (List.mem_cons_of_mem _ hc)
    obtain ⟨hresult, hunsettled, hgroup₁⟩ := runs_recv (s := { s with clock := now }) ha hcount hgroup hr
    rw [← List.take_append_drop count.toNat (s.inbox p.1).unsettled] at hp
    rcases List.mem_append.mp hp with hfirst | hrestp
    · refine ⟨⟨envelopes, List.mem_cons_self, ?_⟩, fun hmem => ?_⟩
      · have henvelopes : envelopes = ((s.inbox p.1).unsettled.take count.toNat).flatMap (accepted R now) :=
          Except.ok.inj hresult
        rw [henvelopes]
        refine List.mem_flatMap.mpr ⟨p.2, hfirst, ?_⟩
        rw [accepted, hparse]
        simpa [Option.filter] using hfresh
      · have hmem₁ := recvs_unsettled ha (fun c hc => (hlater c hc).1) hgroup₁ hrest hmem
        rw [hunsettled] at hmem₁
        exact not_mem_drop hfirst hmem₁
    · have hshort : (s₁.inbox p.1).unsettled.length ≤ calls.length := by
        rw [hunsettled, List.length_drop]
        have hpos : 0 < (s.inbox p.1).unsettled.length := List.length_pos_of_mem (List.mem_of_mem_drop hrestp)
        have hlength : (s.inbox p.1).unsettled.length ≤ calls.length + 1 := hlength
        have hle : ({ s with clock := now } : Keys).inbox p.1 = s.inbox p.1 := rfl
        rw [hle]
        omega
      have hp₁ : p.2 ∈ (s₁.inbox p.1).unsettled := by
        rw [hunsettled]
        exact hrestp
      obtain ⟨⟨envs, henvs, hmem⟩, hsettled⟩ := later_of_unsettled ha hparse hgroup₁ hp₁ hlater hshort rest s' hrest
      exact ⟨⟨envs, List.mem_cons_of_mem _ henvs, hmem⟩, hsettled⟩

/-! ## A call of `requeue`, among others -/

/-- A command leaves the group of an inbox. -/
theorem Change.group_isSome {q q' : Queue Fields} (h : Change a q c x q') (hq : q.group.isSome) : q'.group.isSome := by
  cases h with
  | same => exact hq
  | add => exact hq
  | ensure => rfl
  | reread => exact isSome_redeliver hq
  | read => exact isSome_deliver hq
  | ack => exact isSome_ack hq

/-- The discipline of the calls of `requeue`: an entry is added to an inbox that has a group. -/
def requeuing (G : Guard (system R S)) : Discipline (system R S) :=
  ⟨G, fun _ => True, fun w e => ∀ a f, e.cmd = .xaddInbox a f → ((w.state.inbox a).group).isSome⟩

/-- What is known of a call of `requeue` that has ended. -/
def Ended (n : Nat) : (o : Op) → Except Exc (Ret o) → World (system R S) → Prop
  | .requeue d r, q, w => q = .ok true → ∃ p env, Copied n d r p env w
  | _, _, _ => True

theorem lasting_group : Lasting fun w : World (system R S) => ((w.state.inbox a).group).isSome := fun _ _ _ hf h =>
  (change_fires hf a).group_isSome h

/-- A command that adds nothing to an inbox. -/
theorem establishes_quiet {A : World (system R S) → Prop} {A' : Resp c → World (system R S) → Prop}
    (hc : ∀ a f, c ≠ .xaddInbox a f) (hA : ∀ w x w', A w → Fires w ⟨n, o, c, x⟩ w' → A' x w') :
    Establishes (requeuing (R := R) (S := S) G) n o A c A' := fun w x w' _ hw _ hf =>
  ⟨fun a f h => absurd h (hc a f), trivial, hA w x w' hw hf⟩

/-- The call has found entry `d`, and added entry `p` to an inbox. -/
def Added (n : Nat) (d : StreamId) (r : Option String) (fields : Fields) (p : String × StreamId × Fields)
    (w : World (system R S)) : Prop :=
  (∃ e ∈ w.trace, e.call = n ∧ (d, fields) ∈ finds e.cmd e.resp) ∧
    ∃ e ∈ w.trace, e.call = n ∧ e.op = .requeue d r ∧ p ∈ adds e.cmd e.resp

theorem lasting_added {fields : Fields} : Lasting (Added (R := R) (S := S) n d r fields p) :=
  lasting_executed.and lasting_executed

/-- **A call of `requeue`.** -/
theorem requeued_outline : Outline (requeuing (R := R) (S := S) G) n (.requeue d r) (Ended n (.requeue d r))
    (requeue R d r) fun _ => True := by
  refine outline_cmd (fun x w => ∀ fields ∈ x, ∃ e ∈ w.trace, e.call = n ∧ (d, fields) ∈ finds e.cmd e.resp)
    (fun x => ?_) (establishes_quiet (fun _ _ h => by cases h) fun w x w' _ hf fields hx => ?_) fun x => ?_
  · rintro w e w' - - - - hf - h fields hx
    exact lasting_executed w e w' hf (h fields hx)
  · obtain rfl : x = some fields := hx
    exact executed_now hf ⟨rfl, List.mem_singleton_self _⟩
  · cases hparse : x.bind (readEnvelope R) with
    | none => exact outline_ret fun _ _ _ h => by cases h
    | some q =>
      obtain ⟨raw_env, env⟩ := q
      obtain ⟨fields, rfl, hfields⟩ := Option.bind_eq_some_iff.mp hparse
      refine outline_cmd (fun _ w => (∃ e ∈ w.trace, e.call = n ∧ (d, fields) ∈ finds e.cmd e.resp) ∧
          ((w.state.inbox (recipientOf R r env)).group).isSome) (fun _ => (lasting_executed.and lasting_group).stable)
        (establishes_quiet (fun _ _ h => by cases h) fun w x w' h hf => ⟨lasting_executed _ _ _ hf (h fields rfl), ?_⟩)
        fun _ => ?_
      · obtain ⟨now, hx⟩ := hf.1
        have hstate := (Prod.mk.inj (Option.some.inj hx)).2
        rw [← hstate, onInbox_self]
        rfl
      · refine outline_cmd (fun id => Added n d r fields (recipientOf R r env, id, ⟨some raw_env, none⟩))
          (fun _ => lasting_added.stable) (fun w x w' _ h _ hf => ?_) fun id => ?_
        · refine ⟨fun a f hc => ?_, trivial, lasting_executed _ _ _ hf h.1,
            executed_now hf ⟨rfl, rfl, List.mem_singleton_self _⟩⟩
          cases hc
          exact h.2
        · refine outline_cmd (fun _ => Added n d r fields (recipientOf R r env, id, ⟨some raw_env, none⟩))
            (fun _ => lasting_added.stable)
            (establishes_quiet (fun _ _ h => by cases h) fun w _ w' h hf => lasting_added w _ w' hf h) fun _ => ?_
          refine outline_cmd (fun _ => Added n d r fields (recipientOf R r env, id, ⟨some raw_env, none⟩))
            (fun _ => lasting_added.stable)
            (establishes_quiet (fun _ _ h => by cases h) fun w _ w' h hf => lasting_added w _ w' hf h) fun _ => ?_
          exact outline_ret fun w _ h _ => ⟨_, env, fields, raw_env, hfields, rfl, rfl, h.1, h.2⟩

/-- Any other call. -/
theorem unqueued_outline {A : World (system R S) → Prop} (ho : ∀ d r, o ≠ .requeue d r) :
    Outline (requeuing (R := R) (S := S) G) n o (fun _ _ => True) (prog R o) A := by
  refine outline_pre (fun _ _ _ => trivial) (outline_of_each stable_true (fun c hissues => ?_) (each_prog o))
  refine establishes_quiet (fun a f hc => ?_) fun _ _ _ _ _ => trivial
  subst hc
  cases hissues
  exact ho _ _ rfl

theorem outline_ended (n : Nat) : ∀ o : Op,
    Outline (requeuing (R := R) (S := S) G) n o (Ended n o) (prog R o) (Untouched n)
  | .requeue _ _ => outline_pre (fun _ _ _ => trivial) requeued_outline
  | .send _ _ _ _ _ => unqueued_outline fun _ _ h => by cases h
  | .recv _ _ _ => unqueued_outline fun _ _ h => by cases h
  | .sweepPending _ => unqueued_outline fun _ _ h => by cases h
  | .purge _ => unqueued_outline fun _ _ h => by cases h
  | .pruneOldMessages _ => unqueued_outline fun _ _ h => by cases h
  | .tick _ => unqueued_outline fun _ _ h => by cases h
  | .setIndex _ => unqueued_outline fun _ _ h => by cases h

/-! ## What is known of the requeued entries -/

theorem requeued_fires (hf : Fires w e w') :
    Requeued p w' ↔ (∃ d r, e.op = .requeue d r) ∧ p ∈ adds e.cmd e.resp ∨ Requeued p w := by
  simp only [Requeued, hf.2, List.mem_cons]
  constructor
  · rintro ⟨e', rfl | he', h⟩
    · exact .inl h
    · exact .inr ⟨e', he', h⟩
  · rintro (h | ⟨e', he', h⟩)
    · exact ⟨e, .inl rfl, h⟩
    · exact ⟨e', .inr he', h⟩

theorem found_fires (hf : Fires w e w') :
    Found n d w' ↔ e.call = n ∧ (∃ q ∈ finds e.cmd e.resp, q.1 = d ∧ (readEnvelope R q.2).isSome) ∨ Found n d w := by
  simp only [Found, hf.2, List.mem_cons]
  constructor
  · rintro ⟨e', rfl | he', h⟩
    · exact .inl h
    · exact .inr ⟨e', he', h⟩
  · rintro (h | ⟨e', he', h⟩)
    · exact ⟨e, .inl rfl, h⟩
    · exact ⟨e', .inr he', h⟩

/-- What is found is there. -/
theorem mem_of_finds (hf : Fires w e w') {q : StreamId × Fields} (hq : q ∈ finds e.cmd e.resp) :
    e.cmd = .xrangeDlq q.1 ∧ q.1 ∈ w.state.dlq.ids := by
  obtain ⟨now, hx⟩ := hf.1
  obtain ⟨call, op, c, x⟩ := e
  cases c with
  | xrangeDlq id =>
    have hread : w.state.dlq.entry? id = x := (Prod.mk.inj (Option.some.inj hx)).1
    cases x with
    | none => exact absurd hq List.not_mem_nil
    | some fields =>
      obtain rfl := List.mem_singleton.mp hq
      exact ⟨rfl, List.mem_map_of_mem (Log.entry?_eq_some.mp hread)⟩
  | _ => exact absurd hq List.not_mem_nil

/-- What is added by a requeue is added by `XADD`. -/
theorem cmd_of_requeue (hissues : Issues e.op e.cmd) (ho : ∃ d r, e.op = .requeue d r) (hp : p ∈ adds e.cmd e.resp) :
    ∃ f, e.cmd = .xaddInbox p.1 f := by
  obtain ⟨d, r, ho⟩ := ho
  obtain ⟨call, op, c, x⟩ := e
  obtain rfl : op = .requeue d r := ho
  have hissues : Issues (.requeue d r) c := hissues
  cases hissues with
  | xaddInbox a v => exact ⟨_, by rw [List.mem_singleton.mp hp]⟩
  | _ => exact absurd hp List.not_mem_nil

/-- What is known of what has been requeued. -/
structure Single (w : World (system R S)) : Prop where
  found : ∀ n m d, Found n d w → Found m d w → n = m
  mem : ∀ p, Requeued p w → p.2 ∈ (w.state.inbox p.1).log.entries
  group : ∀ p, Requeued p w → (w.state.inbox p.1).group.isSome
  named : ∀ p, Requeued p w → p.1 ≠ ""
  there : ∀ p, Requeued p w → p.2 ∈ (w.state.inbox p.1).unsettled ∨
    ∃ e ∈ w.trace, (∃ k, e.op = .recv p.1 k true) ∧ (p.1, p.2.1) ∈ acks e.cmd
  fresh : ∀ e ∈ w.trace, ∀ v ∈ verdicts e.cmd e.resp, ∀ p, Got e.call p w → Requeued p w →
    p.2.2.envelope.bind (Envelope.fromJson R) = some v.1 → v.2 = some false

theorem single_fires (h : Single w) (hsane : Sane w) (hissues : Issues e.op e.cmd) (hreceives : Receives e.op)
    (hproper : Proper w e.call e.op e.cmd) (hundisturbed : Undisturbed w e.call e.op e.cmd)
    (hgroup : ∀ a f, e.cmd = .xaddInbox a f → ((w.state.inbox a).group).isSome) (hf : Fires w e w') : Single w' := by
  refine ⟨fun n m d hn hm => ?_, fun p hp => ?_, fun p hp => ?_, fun p hp => ?_, fun p hp => ?_,
    fun e' he' v hv p hgot hp hparse => ?_⟩
  · -- Who looks for an entry finds it when nobody else has.
    have hfirst : ∀ {m}, (∃ q ∈ finds e.cmd e.resp, q.1 = d ∧ (readEnvelope R q.2).isSome) → Found m d w →
        m = e.call := by
      rintro m ⟨q, hq, rfl, -⟩ hm
      obtain ⟨hc, hthere⟩ := mem_of_finds hf hq
      rw [hc] at hundisturbed
      by_contra hne
      exact hundisturbed m hne hm hthere
    rcases (found_fires hf).mp hn with ⟨rfl, hfinds⟩ | hn
    · rcases (found_fires hf).mp hm with ⟨rfl, -⟩ | hm
      · rfl
      · exact (hfirst hfinds hm).symm
    · rcases (found_fires hf).mp hm with ⟨rfl, hfinds⟩ | hm
      · exact hfirst hfinds hn
      · exact h.found n m d hn hm
  · rcases (requeued_fires hf).mp hp with ⟨-, hadds⟩ | hp
    · exact Queue.mem_entries_of_unsettled ((change_fires hf p.1).of_adds hadds).2
    · exact (change_fires hf p.1).mem_of_mem (h.mem p hp)
  · rcases (requeued_fires hf).mp hp with ⟨ho, hadds⟩ | hp
    · obtain ⟨f, hc⟩ := cmd_of_requeue hissues ho hadds
      exact (change_fires hf p.1).group_isSome (hgroup _ f hc)
    · exact (change_fires hf p.1).group_isSome (h.group p hp)
  · rcases (requeued_fires hf).mp hp with ⟨ho, hadds⟩ | hp
    · obtain ⟨f, hc⟩ := cmd_of_requeue hissues ho hadds
      rw [hc] at hundisturbed
      exact hundisturbed
    · exact h.named p hp
  · rcases (requeued_fires hf).mp hp with ⟨-, hadds⟩ | hp
    · exact .inl ((change_fires hf p.1).of_adds hadds).2
    · rcases h.there p hp with hun | hacked
      · refine ((change_fires hf p.1).unsettled_of hun).imp_right fun hacks => ?_
        refine ⟨e, hf.2 ▸ List.mem_cons_self, ?_, hacks⟩
        obtain ⟨a, ids, hc⟩ := cmd_of_acks (List.ne_nil_of_mem hacks)
        rw [hc] at hissues hacks
        obtain rfl : p.1 = a := fst_of_mem_map (p.1, p.2.1) hacks
        generalize e.op = o at hissues hreceives
        cases hissues with
        | recvAck => exact ⟨_, rfl⟩
        | sweepAck => exact hreceives.elim
      · exact .inr (lasting_executed _ _ _ hf hacked)
  · rcases (requeued_fires hf).mp hp with ⟨-, hadds⟩ | hp
    · -- What has been read is not added now.
      have hread : Got e'.call p w := ((got_fires hf).mp hgot).resolve_left fun hp =>
        absurd (adds_of_readings hp.2 ▸ hadds) List.not_mem_nil
      exact absurd hadds (not_adds_of_mem hf (hsane.kept _ p hread).1)
    · rw [hf.2, List.mem_cons] at he'
      rcases he' with rfl | he'
      · obtain ⟨now, hx⟩ := hf.1
        have hverdict := verdicts_exec hx v hv
        have hread : Got e'.call p w := ((got_fires hf).mp hgot).resolve_left fun hp => by
          obtain ⟨pending, k, hc⟩ := cmd_of_readings hp.2
          obtain ⟨call, op, c, x⟩ := e'
          obtain rfl : c = .xreadgroup p.1 pending k := hc
          exact absurd hv List.not_mem_nil
        obtain ⟨call, op, c, x⟩ := e'
        cases c with
        | isExpired env =>
          obtain rfl := List.mem_singleton.mp hv
          rw [hverdict]
          exact hundisturbed p hread hp hparse
        | _ => exact absurd hv List.not_mem_nil
      · rcases (got_fires hf).mp hgot with ⟨hcall, hreading⟩ | hgot
        · -- A call that reads has asked nothing yet.
          obtain ⟨pending, k, hc⟩ := cmd_of_readings hreading
          have hnone := ((hproper.reads _ _ _ hc).2 e' (List.mem_filter.mpr ⟨he', by simp [hcall]⟩)).2
          exact absurd (hnone ▸ hv) List.not_mem_nil
        · exact h.fresh e' he' v hv p hgot hp hparse

/-! ## Every run -/

variable {cfg : Config (system R S)}

theorem single_init (s : Keys) : Single (R := R) (S := S) ⟨s, []⟩ := by
  have hnone : ∀ p, ¬ Requeued p (⟨s, []⟩ : World (system R S)) := by
    rintro p ⟨e, he, -⟩
    exact List.not_mem_nil he
  refine ⟨fun n m d hn => ?_, fun p h => (hnone p h).elim, fun p h => (hnone p h).elim, fun p h => (hnone p h).elim,
    fun p h => (hnone p h).elim, fun _ he => absurd he List.not_mem_nil⟩
  obtain ⟨e, he, -⟩ := hn
  exact absurd he List.not_mem_nil

theorem run_single (h : Run (fun w n o c => Delivery w n o c ∧ Undisturbed w n o c) (.init s) cfg) :
    Single cfg.world ∧ Sane cfg.world := by
  have hgroups := run_obeys (D := requeuing (R := R) (S := S) _)
    (K := fun w _ _ c => ∀ a f, c = .xaddInbox a f → ((w.state.inbox a).group).isSome) (fun _ _ h => h) outline_ended
    trivial h
  refine run_inv (I := fun w => Single w ∧ Sane w) (fun w e w' hI hg hf => ?_) ⟨single_init s, sane_init s⟩
    (run_proper hgroups)
  obtain ⟨⟨⟨⟨⟨hreceives, -⟩, hundisturbed⟩, hgroup⟩, hproper⟩, hissues⟩ := hg
  exact ⟨single_fires hI.1 hI.2 hissues hreceives hproper hundisturbed hgroup hf, sane_fires hI.2 hf⟩

/-- What a call of `recv` has acknowledged it has returned, if it was requeued. -/
theorem delivered_of_acks (hsingle : Single cfg.world) (hsane : Sane cfg.world) (h : Run G (.init s) cfg)
    (hrequeued : Requeued p cfg.world) (hparse : p.2.2.envelope.bind (Envelope.fromJson R) = some env)
    (he : e ∈ cfg.world.trace) {k : Int} (ho : e.op = .recv p.1 k true) (hacks : (p.1, p.2.1) ∈ acks e.cmd) :
    Got e.call p cfg.world ∧ HasDelivered cfg p env := by
  obtain ⟨envelopes, hr⟩ := run_returned h he ho (List.ne_nil_of_mem hacks)
  have hreceived : Received p.1 envelopes (mine e.call cfg.world) := run_received h hr
  obtain ⟨e', he', q, hq, hqa, hqid⟩ := hreceived.acked e (List.mem_filter.mpr ⟨he, by simp⟩) _ hacks
  obtain ⟨hmem', hcall'⟩ := List.mem_filter.mp he'
  have hgot : Got e.call q cfg.world := ⟨e', hmem', by simpa using hcall', hq⟩
  obtain rfl : q = p := by
    have hqlog := (hsane.kept _ q hgot).1
    rw [hqa] at hqlog
    exact Prod.ext hqa (Log.eq_of_fst hqlog (hsingle.mem p hrequeued) hqid)
  refine ⟨hgot, e.call, k, envelopes, hr, ?_, hgot⟩
  refine (hreceived.judged e' he' q hq env hparse).resolve_right fun hnot => ?_
  obtain ⟨e₂, he₂, v, hv, hv₁, hv₂⟩ := hnot
  obtain ⟨hmem₂, hcall₂⟩ := List.mem_filter.mp he₂
  have hcall₂ : e₂.call = e.call := by simpa using hcall₂
  exact hv₂ (hsingle.fresh e₂ hmem₂ v hv q (hcall₂ ▸ hgot) hrequeued (hv₁ ▸ hparse))

theorem found_of_copied (h : ∃ p env, Copied n d r p env w) : Found n d w := by
  obtain ⟨p, env, fields, raw_env, hfields, -, -, ⟨e, he, hcall, hfinds⟩, -⟩ := h
  exact ⟨e, he, hcall, _, hfinds, rfl, Option.isSome_of_mem hfields⟩

/-- **A requeued message is delivered exactly once**, where nothing disturbs it. -/
theorem exactlyOnce_of_undisturbed (h : Run (fun w n o c => Delivery w n o c ∧ Undisturbed w n o c) (.init s) cfg) :
    ExactlyOnce cfg := by
  obtain ⟨hsingle, hsane⟩ := run_single h
  have hexclusive := run_exclusive (fun _ _ _ _ hg => hg.1.2) h
  have hcopied : ∀ {n d r}, cfg.Returned n (.requeue d r) true → ∃ p env, Copied n d r p env cfg.world := fun hr =>
    (run_sound (D := requeuing _) outline_ended trivial h).returned hr rfl
  refine ⟨fun d n m r r' hn hm => ?_, fun n d r hr => ?_⟩
  · exact hsingle.found n m d (found_of_copied (hcopied hn)) (found_of_copied (hcopied hm))
  · obtain ⟨p, env, hc⟩ := hcopied hr
    refine ⟨p, env, hc, fun m m' hm hm' => hexclusive.unique m m' p hm hm', ?_⟩
    obtain ⟨fields, raw_env, hfields, -, hentry, -, e, he, -, ho, hadds⟩ := hc
    have hrequeued : Requeued p cfg.world := ⟨e, he, ⟨d, r, ho⟩, hadds⟩
    have hparse : p.2.2.envelope.bind (Envelope.fromJson R) = some env := by
      obtain ⟨raw, -, hraw⟩ := Option.bind_eq_some_iff.mp hfields
      obtain ⟨env', hparse, heq⟩ := Option.map_eq_some_iff.mp hraw
      cases heq
      rw [hentry]
      exact hparse
    by_cases hun : p.2 ∈ (cfg.world.state.inbox p.1).unsettled
    · have hnamed := hsingle.named p hrequeued
      have hgroup := hsingle.group p hrequeued
      exact .inr ⟨hun, fun _ calls hcalls hlength => ⟨exists_recvs hnamed (fun c hc => (hcalls c hc).1) hgroup,
        later_of_unsettled hnamed hparse hgroup hun hcalls hlength⟩⟩
    · obtain ⟨e', he', ⟨k, ho'⟩, hacks⟩ := (hsingle.there p hrequeued).resolve_left hun
      exact .inl ⟨(delivered_of_acks hsingle hsane h hrequeued hparse he' ho' hacks).2, hun⟩

/-! ## Two runs -/

/-- Whether such a call may do it. -/
def receives (w : World plain) (n : Nat) (o : Op) (c : Cmd) : Prop := Receives o ∧ oneReader w n c = true

instance (w : World plain) (n : Nat) (o : Op) (c : Cmd) : Decidable (receives w n o c) :=
  inferInstanceAs (Decidable (Receives o ∧ oneReader w n c = true))

/-- Whether a command finds an entry before any other does, and nothing that it judges has a time limit. -/
def undisturbed (w : World plain) : Cmd → Bool
  | .xrangeDlq _ => w.trace.all fun e => (finds e.cmd e.resp).isEmpty
  | .xaddInbox a _ => a ≠ ""
  | .isExpired env => env.ttl = .int 0
  | _ => true

theorem undisturbed_sound {w : World plain} {c : Cmd} (h : undisturbed w c = true) : Undisturbed w n o c := by
  cases c with
  | xrangeDlq d =>
    rintro m - ⟨e, he, -, q, hq, -⟩
    have hempty : finds e.cmd e.resp = [] := List.isEmpty_iff.mp (List.all_eq_true.mp h e he)
    exact absurd (hempty ▸ hq) List.not_mem_nil
  | xaddInbox a f =>
    have hnamed : a ≠ "" := of_decide_eq_true h
    exact hnamed
  | isExpired env =>
    have httl : env.ttl = .int 0 := of_decide_eq_true h
    have hfresh : env.isExpired wholeSeconds w.state.clock = some false := by
      unfold Envelope.isExpired
      rw [httl]
      rfl
    exact fun _ _ _ _ => hfresh
  | _ => trivial

/-- Whether call `n` is a requeue of entry `d`, to its recipient, which has returned `True`. -/
def requeuedBy (cfg : Config plain) (n : Nat) (d : StreamId) : Bool :=
  match cfg.proc n with
  | some ⟨.requeue d' none, .ret result⟩ => d' == d && result
  | _ => false

theorem returned_of_requeuedBy {cfg : Config plain} (h : requeuedBy cfg n d = true) :
    cfg.Returned n (.requeue d none) true := by
  unfold requeuedBy at h
  split at h
  · rename_i d' result hn
    rw [Bool.and_eq_true, beq_iff_eq] at h
    obtain ⟨rfl, rfl⟩ := h
    exact hn
  · cases h

/-- Such calls, which nothing disturbs. -/
def calmly (w : World plain) (n : Nat) (o : Op) (c : Cmd) : Prop := receives w n o c ∧ undisturbed w c = true

instance (w : World plain) (n : Nat) (o : Op) (c : Cmd) : Decidable (calmly w n o c) :=
  inferInstanceAs (Decidable (receives w n o c ∧ undisturbed w c = true))

/-- A message for `b`, who is not in the index, a requeue of it, and a call of `recv`. -/
def requeuedOnce : List (Act plain) :=
  solo plain 0 (.send "b" (.str "hello") 3 0 "a") 3 0 ++ solo plain 1 (.requeue 1 none) 5 0 ++
    solo plain 2 (.recv "b" 1 true) 4 0

theorem exactlyOnce_of_undisturbed_one :
    ∃ cfg : Config plain, Run (fun w n o c => Delivery w n o c ∧ Undisturbed w n o c) (.init (Keys.registered [])) cfg ∧
      cfg.Returned 1 (.requeue 1 none) true ∧ (received cfg 2).length = 1 ∧ ExactlyOnce cfg := by
  have hplay : (play calmly (.init (M := plain) (Keys.registered [])) requeuedOnce).any (fun cfg =>
      requeuedBy cfg 1 1 && (received cfg 2).length == 1) = true := by decide +kernel
  obtain ⟨cfg, hcfg, ht⟩ := exists_run_of_play hplay
  rw [Bool.and_eq_true, beq_iff_eq] at ht
  have hrun : Run (fun w n o c => Delivery w n o c ∧ Undisturbed w n o c) (.init (Keys.registered [])) cfg :=
    hcfg.mono fun w n o c hg => ⟨⟨hg.1.1, oneReader_sound hg.1.2⟩, undisturbed_sound hg.2⟩
  exact ⟨cfg, hrun, returned_of_requeuedBy ht.1, ht.2, exactlyOnce_of_undisturbed hrun⟩

/-- **Both requeues return `True`**, when both look for the entry before one deletes it. -/
theorem both_requeue :
    ∃ cfg : Config plain, Run Delivery (.init (Keys.registered [])) cfg ∧ cfg.Quiescent ∧ ¬ ExactlyOnce cfg := by
  have hplay : (play receives (.init (M := plain) (Keys.registered [])) twoRequeues).any (fun cfg =>
      (starts twoRequeues).all cfg.atRest && (requeuedBy cfg 1 1 && requeuedBy cfg 2 1)) = true := by decide +kernel
  obtain ⟨cfg, hcfg, hquiet, ht⟩ := exists_quiescent_of_play hplay
  rw [Bool.and_eq_true] at ht
  refine ⟨cfg, hcfg.mono fun w n o c hg => ⟨hg.1, oneReader_sound hg.2⟩, hquiet, fun h => ?_⟩
  exact absurd (h.single 1 1 2 none none (returned_of_requeuedBy ht.1) (returned_of_requeuedBy ht.2)) (by decide)

end ClaudeSwarm.Ipc.Direct
