import ClaudeSwarm.Cascade.Sqlite
import ClaudeSwarm.Interleave.Outline
import ClaudeSwarm.Ipc.Stream

/-!
# RPC responses

Model of `request`, `respond`, `respond_stream`, `request_stream` and `cleanup_expired_rpcs` of `src/ipc/rpc.py`,
Redis command by Redis command, by any number of agents; `RPC_REQUEST_ATOMIC` is one command, and so is the pipeline
of the cleanup. The script takes the last element off the response list before it sets the expiry, which it sets on
no key then: so no response list ever has one, and what is pushed when its request is no longer pending stays.

A list without elements is no key. `list_wait` either takes an element or, where there is none, gives up in its own
time; with a timeout of 0 it waits for ever. A stream is read for a number of turns, after which its reader no longer
asks. The id of a request, which is new, is given; the counters are left out.

* `not_volatile`: no response list ever has an expiry.
* `noLeak_exec_iff`: exactly which commands leak.
* **`noLeak_of_timely`**: a run without such commands.
* `late_response`: a response that comes when its request has timed out.
-/

namespace ClaudeSwarm.Ipc.Rpc

open Data Interleave
open Python (Time truncate)
open Cascade.Sqlite (truthy)

/-! ## Redis -/

/-- An element of a response list. -/
inductive Item where
  | placeholder
  | response (env : Envelope)

/-- The response lists, which of them have an expiry, the pending requests with their deadlines, and what was sent to
the inboxes. -/
structure Keys where
  responses : String → List Item
  volatile : String → Bool
  pending : List (String × Time)
  inboxes : List (String × Envelope)

namespace Keys

/-- No request yet. -/
def fresh : Keys := ⟨fun _ => [], fun _ => false, [], []⟩

/-- What a list is set to; a list without elements is no key, and has no expiry. -/
def setList (s : Keys) (id : String) (items : List Item) : Keys :=
  { s with
    responses := Function.update s.responses id items
    volatile := if items = [] then Function.update s.volatile id false else s.volatile }

/-- `LPUSH`. -/
def lpush (s : Keys) (id : String) (item : Item) : Keys := s.setList id (item :: s.responses id)

/-- `RPUSH`. -/
def rpush (s : Keys) (id : String) (item : Item) : Keys := s.setList id (s.responses id ++ [item])

/-- `LPOP`. -/
def lpop (s : Keys) (id : String) : Keys := s.setList id (s.responses id).tail

/-- `DEL`. -/
def del (s : Keys) (id : String) : Keys := s.setList id []

/-- `EXPIRE`, which does nothing where there is no key, and deletes it at once if the time is not positive. -/
def expire (s : Keys) (id : String) (seconds : Int) : Keys :=
  if s.responses id = [] then s
  else if seconds ≤ 0 then s.del id
  else { s with volatile := Function.update s.volatile id true }

/-- `ZADD`. -/
def zadd (s : Keys) (id : String) (deadline : Time) : Keys :=
  { s with pending := s.pending.filter (fun p => p.1 ≠ id) ++ [(id, deadline)] }

/-- `ZREM`. -/
def zrem (s : Keys) (ids : List String) : Keys :=
  { s with pending := s.pending.filter fun p => !ids.contains p.1 }

/-- `RPC_REQUEST_ATOMIC`. -/
def rpcRequest (s : Keys) (id target : String) (env : Envelope) (ttl : Int) (deadline : Time) : Keys :=
  let s := (((s.del id).rpush id .placeholder).lpop id).expire id ttl
  { s with inboxes := s.inboxes ++ [(target, env)] }.zadd id deadline

/-- The request is pending. -/
def Pending (s : Keys) (id : String) : Prop := id ∈ s.pending.map Prod.fst

instance (s : Keys) (id : String) : Decidable (s.Pending id) :=
  inferInstanceAs (Decidable (id ∈ s.pending.map Prod.fst))

end Keys

/-- A command; `time` is `time.time()`, `delEach` a pipeline, and `lapse` the end of a key whose time is up. -/
inductive Cmd where
  | time
  | rpcRequest (id target : String) (env : Envelope) (ttl : Int) (deadline : Time)
  | blpop (id : String) (timeout : Int)
  | lpush (id : String) (item : Item)
  | zrem (ids : List String)
  | zrangebyscore (max : Time)
  | delEach (ids : List String)
  | lapse (id : String)

abbrev Resp : Cmd → Type
  | .time => Time
  | .blpop .. => Option Item
  | .zrangebyscore _ => List String
  | _ => Unit

/-- One command, at a time. -/
def exec (_ : Nat) (now : Time) (s : Keys) : (c : Cmd) → Option (Resp c × Keys)
  | .time => some (now, s)
  | .rpcRequest id target env ttl deadline => some ((), s.rpcRequest id target env ttl deadline)
  | .blpop id timeout =>
    match (s.responses id).head? with
    | some item => some (some item, s.lpop id)
    | none => if 0 < timeout then some (none, s) else none
  | .lpush id item => some ((), s.lpush id item)
  | .zrem ids => some ((), s.zrem ids)
  | .zrangebyscore max => some ((s.pending.filter fun p => p.2 ≤ max).map Prod.fst, s)
  | .delEach ids => some ((), ids.foldl Keys.del s)
  | .lapse id => if s.responses id ≠ [] ∧ s.volatile id then some ((), s.del id) else none

abbrev sig : Sig := ⟨Cmd, Resp⟩

abbrev store : Store sig := ⟨Keys, Time, exec⟩

/-- What the functions raise; `jsonDecode` is for an element that is no envelope. -/
inductive Exc where
  | runtimeError (msg : String)
  | rpcTimeout (correlation_id : String) (timeout : Time)
  | rpcError (correlation_id : String) (error : Json)
  | jsonDecode

abbrev P (α : Type) := Prog sig Exc α

/-- Issue one command. -/
def cmd (c : Cmd) : P (Resp c) := @Prog.cmd sig Exc c

/-! ## `rpc.py` -/

def notRegistered : Exc := .runtimeError "Not registered — call ipc.register() first"

/-- The envelope of a request, under its id. -/
def requestEnvelope (id sender target method : String) (params : List (String × Json)) (stream : Bool) : Envelope :=
  let payload := [("method", .str method), ("params", .obj params)]
  ⟨sender, target, payload ++ if stream then [("stream", .bool true)] else [], id, 0, true⟩

/-- What `request` makes of an answer. -/
def outcome (id : String) (timeout : Time) : Option Item → P Envelope
  | none => .raise (.rpcTimeout id timeout)
  | some .placeholder => .raise .jsonDecode
  | some (.response env) =>
    match ((Json.obj env.payload).get? "error").filter truthy with
    | some error => .raise (.rpcError id error)
    | none => .ret env

/-- `request`. -/
def request (id target method : String) (params : List (String × Json)) (timeout : Time) (sender : String) :
    P Envelope :=
  if sender = "" then .raise notRegistered
  else do
    let now ← cmd .time
    cmd (.rpcRequest id target (requestEnvelope id sender target method params false) (truncate timeout + 5)
      (now + timeout))
    let result ← cmd (.blpop id (truncate timeout))
    cmd (.zrem [id])
    outcome id timeout result

/-- `respond`. -/
def respond (sender : String) (request_env : Envelope) (result : List (String × Json)) : P Bool :=
  if sender = "" then .raise notRegistered
  else do
    cmd (.lpush request_env.correlation_id
      (.response ⟨sender, request_env.sender, result, request_env.correlation_id, 0, true⟩))
    return true

/-- Envelopes that are pushed, one after the other. -/
def pushEach (id : String) : List Envelope → P Unit
  | [] => .ret ()
  | env :: envs => do
    cmd (.lpush id (.response env))
    pushEach id envs

/-- `respond_stream`. -/
def respondStream (sender : String) (request_env : Envelope) (chunks : List (List (String × Json))) : P Nat :=
  if sender = "" then .raise notRegistered
  else do
    pushEach request_env.correlation_id (responses sender request_env 0 chunks)
    return chunks.length

/-- The end of `request_stream` without a final chunk. -/
def giveUp (id : String) (timeout : Time) : P (List Envelope) := do
  cmd (.zrem [id])
  .raise (.rpcTimeout id timeout)

/-- The loop of `request_stream`, with the chunks that it yields. -/
def yieldChunks (id : String) (timeout deadline : Time) : Nat → P (List Envelope)
  | 0 => .ret []
  | turns + 1 => do
    let now ← cmd .time
    if deadline ≤ now then giveUp id timeout
    else
      let later ← cmd .time
      let remaining := truncate (deadline - later)
      if remaining ≤ 0 then giveUp id timeout
      else
        match ← cmd (.blpop id (min remaining 5)) with
        | none => yieldChunks id timeout deadline turns
        | some .placeholder => .raise .jsonDecode
        | some (.response env) =>
          if turns = 0 then return [env]
          else if env.final then do
            cmd (.zrem [id])
            return [env]
          else do
            let rest ← yieldChunks id timeout deadline turns
            return env :: rest

/-- `request_stream`, read for so many turns of its loop. -/
def requestStream (id target method : String) (params : List (String × Json)) (timeout : Time) (sender : String)
    (turns : Nat) : P (List Envelope) :=
  if sender = "" then .raise notRegistered
  else do
    let now ← cmd .time
    cmd (.rpcRequest id target (requestEnvelope id sender target method params true) (truncate timeout + 5)
      (now + timeout))
    yieldChunks id timeout (now + timeout) turns

/-- `cleanup_expired_rpcs`. -/
def cleanupExpiredRpcs : P Nat := do
  let now ← cmd .time
  let expired ← cmd (.zrangebyscore now)
  if expired = [] then return 0
  else
    cmd (.zrem expired)
    cmd (.delEach expired)
    return expired.length

/-- An operation of an agent, or the expiry of a key. -/
inductive Op where
  | request (id target method : String) (params : List (String × Json)) (timeout : Time) (sender : String)
  | respond (sender : String) (request_env : Envelope) (result : List (String × Json))
  | respondStream (sender : String) (request_env : Envelope) (chunks : List (List (String × Json)))
  | requestStream (id target method : String) (params : List (String × Json)) (timeout : Time) (sender : String)
      (turns : Nat)
  | cleanupExpiredRpcs
  | expire (id : String)

abbrev Ret : Op → Type
  | .request .. => Envelope
  | .respond .. => Bool
  | .respondStream .. | .cleanupExpiredRpcs => Nat
  | .requestStream .. => List Envelope
  | .expire _ => Unit

def prog : (o : Op) → P (Ret o)
  | .request id target method params timeout sender => Rpc.request id target method params timeout sender
  | .respond sender request_env result => Rpc.respond sender request_env result
  | .respondStream sender request_env chunks => Rpc.respondStream sender request_env chunks
  | .requestStream id target method params timeout sender turns =>
    Rpc.requestStream id target method params timeout sender turns
  | .cleanupExpiredRpcs => Rpc.cleanupExpiredRpcs
  | .expire id => cmd (.lapse id)

/-- Any number of agents. -/
abbrev system : System := ⟨sig, store, Exc, Op, Ret, prog⟩

/-! ## What should hold -/

/-- **No response is leaked**: a response list that is there has an expiry, or its request is pending. -/
def NoLeak (s : Keys) : Prop := ∀ id, s.responses id ≠ [] → s.volatile id = true ∨ s.Pending id

/-- **The condition of a command**: a response is pushed while its request is pending, and a request is taken off the
pending ones, by its requester or by a cleanup, while its response list is empty. -/
def Timely (s : Keys) : Cmd → Prop
  | .lpush id _ => s.Pending id
  | .zrem ids => ∀ id ∈ ids, s.responses id = []
  | _ => True

instance (s : Keys) : (c : Cmd) → Decidable (Timely s c)
  | .lpush id _ => inferInstanceAs (Decidable (s.Pending id))
  | .zrem ids => inferInstanceAs (Decidable (∀ id ∈ ids, s.responses id = []))
  | .time | .rpcRequest .. | .blpop .. | .zrangebyscore _ | .delEach _ | .lapse _ => isTrue trivial

/-- Every command meets it. -/
def timely : Guard system := fun w _ _ c => Timely w.state c

instance (w : World system) (n : Nat) (o : Op) (c : Cmd) : Decidable (timely w n o c) :=
  inferInstanceAs (Decidable (Timely w.state c))

/-! ## Commands -/

variable {n : Nat} {s s' : Keys} {id id' : String}

theorem responses_setList {items : List Item} :
    (s.setList id items).responses id' = if id' = id then items else s.responses id' :=
  Function.update_apply ..

/-- No response list has an expiry. -/
def NoExpiry (s : Keys) : Prop := ∀ id, s.volatile id = false

theorem noExpiry_setList {items : List Item} (h : NoExpiry s) : NoExpiry (s.setList id items) := by
  intro id'
  unfold Keys.setList
  dsimp only
  split
  · rw [Function.update_apply]
    split
    · rfl
    · exact h id'
  · exact h id'

/-- The list that the script leaves, on which `EXPIRE` does nothing. -/
def emptied (s : Keys) (id : String) : Keys := ((s.del id).rpush id .placeholder).lpop id

theorem responses_emptied : (emptied s id).responses id' = if id' = id then [] else s.responses id' := by
  unfold emptied Keys.lpop Keys.rpush Keys.del
  simp only [responses_setList, if_pos]
  split
  · rfl
  · rfl

theorem rpcRequest_eq {target : String} {env : Envelope} {ttl : Int} {deadline : Time} :
    s.rpcRequest id target env ttl deadline =
      { emptied s id with inboxes := (emptied s id).inboxes ++ [(target, env)] }.zadd id deadline := by
  have hnone : (emptied s id).responses id = [] := by rw [responses_emptied, if_pos rfl]
  have hexpire : (emptied s id).expire id ttl = emptied s id := if_pos hnone
  unfold Keys.rpcRequest
  rw [← emptied, hexpire]

theorem pending_zadd {deadline : Time} : (s.zadd id deadline).Pending id' ↔ s.Pending id' ∨ id' = id := by
  by_cases h : id' = id
  · simp [Keys.Pending, Keys.zadd, h]
  · simp [Keys.Pending, Keys.zadd, h]

theorem pending_zrem {ids : List String} : (s.zrem ids).Pending id' ↔ s.Pending id' ∧ id' ∉ ids := by
  simp only [Keys.Pending, Keys.zrem, List.mem_map, List.mem_filter]
  constructor
  · rintro ⟨p, ⟨hp, hids⟩, rfl⟩
    exact ⟨⟨p, hp, rfl⟩, by simpa using hids⟩
  · rintro ⟨⟨p, hp, rfl⟩, hids⟩
    exact ⟨p, ⟨hp, by simpa using hids⟩, rfl⟩

/-- Deleting lists leaves the pending requests, and no list that was not there. -/
theorem foldl_del (ids : List String) : ∀ {s : Keys}, (ids.foldl Keys.del s).pending = s.pending ∧
    (∀ id, (ids.foldl Keys.del s).responses id ≠ [] → s.responses id ≠ []) ∧
      (NoExpiry s → NoExpiry (ids.foldl Keys.del s)) := by
  induction ids with
  | nil => exact ⟨rfl, fun _ h => h, id⟩
  | cons id ids ih =>
    intro s
    obtain ⟨hpending, hresponses, hexpiry⟩ := ih (s := s.del id)
    refine ⟨hpending, fun id' h => ?_, fun h => hexpiry (noExpiry_setList h)⟩
    have hdel := hresponses id' h
    rw [Keys.del, responses_setList] at hdel
    split at hdel
    · exact absurd rfl hdel
    · exact hdel

theorem blpop_cases {timeout : Int} {now : Time} {x : Option Item}
    (h : store.exec n now s (.blpop id timeout) = some (x, s')) : s' = s ∨ s' = s.lpop id := by
  have hx : exec n now s (.blpop id timeout) = some (x, s') := h
  unfold exec at hx
  dsimp only at hx
  split at hx
  · cases hx
    exact .inr rfl
  · split at hx
    · cases hx
      exact .inl rfl
    · cases hx

/-- **No command gives a response list an expiry.** -/
theorem noExpiry_exec {c : Cmd} {now : Time} {x : Resp c} (h : NoExpiry s)
    (hx : store.exec n now s c = some (x, s')) : NoExpiry s' := by
  cases c with
  | rpcRequest id target env ttl deadline =>
    have hs' : s.rpcRequest id target env ttl deadline = s' := (Prod.mk.inj (Option.some.inj hx)).2
    rw [← hs', rpcRequest_eq]
    exact noExpiry_setList (noExpiry_setList (noExpiry_setList h))
  | blpop id timeout =>
    rcases blpop_cases hx with rfl | rfl
    · exact h
    · exact noExpiry_setList h
  | lpush id item =>
    cases hx
    exact noExpiry_setList h
  | delEach ids =>
    cases hx
    exact (foldl_del ids).2.2 h
  | lapse id =>
    have hlapse : (if s.responses id ≠ [] ∧ s.volatile id then some ((), s.del id) else none) = some (x, s') := hx
    split at hlapse
    · cases hlapse
      exact noExpiry_setList h
    · cases hlapse
  | _ =>
    cases hx
    exact h

/-- What is pending, when no list was added and no request taken off. -/
theorem noLeak_of_subset (h : NoLeak s) (hnone : NoExpiry s)
    (hresponses : ∀ id, s'.responses id ≠ [] → s.responses id ≠ [])
    (hpending : ∀ id, s'.responses id ≠ [] → s.Pending id → s'.Pending id) : NoLeak s' := by
  intro id hid
  rcases h id (hresponses id hid) with hvolatile | hp
  · rw [hnone id] at hvolatile
    cases hvolatile
  · exact .inr (hpending id hid hp)

theorem noLeak_lpush_iff {item : Item} (h : NoLeak s) (hnone : NoExpiry s) :
    NoLeak (s.lpush id item) ↔ s.Pending id := by
  constructor
  · intro hs'
    have hthere : (s.lpush id item).responses id ≠ [] := by
      rw [Keys.lpush, responses_setList, if_pos rfl]
      exact List.cons_ne_nil _ _
    have hfalse : (s.lpush id item).volatile id = false := noExpiry_setList hnone id
    rcases hs' id hthere with hvolatile | hp
    · rw [hfalse] at hvolatile
      cases hvolatile
    · exact hp
  · intro hp id' hid'
    by_cases he : id' = id
    · exact .inr (he ▸ hp)
    · rw [Keys.lpush, responses_setList, if_neg he] at hid'
      rcases h id' hid' with hvolatile | hp'
      · rw [hnone id'] at hvolatile
        cases hvolatile
      · exact .inr hp'

theorem noLeak_zrem_iff {ids : List String} (h : NoLeak s) (hnone : NoExpiry s) :
    NoLeak (s.zrem ids) ↔ ∀ id ∈ ids, s.responses id = [] := by
  constructor
  · intro hs' id hid
    by_contra hthere
    have hfalse : (s.zrem ids).volatile id = false := hnone id
    rcases hs' id hthere with hvolatile | hp
    · rw [hfalse] at hvolatile
      cases hvolatile
    · exact (pending_zrem.mp hp).2 hid
  · intro hempty
    exact noLeak_of_subset h hnone (fun _ h => h) fun id hid hp =>
      pending_zrem.mpr ⟨hp, fun hmem => hid (hempty id hmem)⟩

/-- **Exactly which commands leak a response.** -/
theorem noLeak_exec_iff {c : Cmd} {now : Time} {x : Resp c} (h : NoLeak s) (hnone : NoExpiry s)
    (hx : store.exec n now s c = some (x, s')) : NoLeak s' ↔ Timely s c := by
  cases c with
  | lpush id item =>
    cases hx
    exact noLeak_lpush_iff h hnone
  | zrem ids =>
    cases hx
    exact noLeak_zrem_iff h hnone
  | rpcRequest id target env ttl deadline =>
    have hs' : s.rpcRequest id target env ttl deadline = s' := (Prod.mk.inj (Option.some.inj hx)).2
    rw [← hs', rpcRequest_eq]
    refine iff_of_true ?_ trivial
    refine noLeak_of_subset h hnone (fun id' hid' => ?_) fun id' _ hp => pending_zadd.mpr (.inl hp)
    have hid : (emptied s id).responses id' ≠ [] := hid'
    rw [responses_emptied] at hid
    split at hid
    · exact absurd rfl hid
    · exact hid
  | blpop id timeout =>
    refine iff_of_true ?_ trivial
    rcases blpop_cases hx with rfl | rfl
    · exact h
    · refine noLeak_of_subset h hnone (fun id' hid' hnil => hid' ?_) fun _ _ hp => hp
      rw [Keys.lpop, responses_setList]
      split
      · rename_i he
        rw [← he, hnil]
        rfl
      · exact hnil
  | delEach ids =>
    cases hx
    obtain ⟨hpending, hresponses, -⟩ := foldl_del ids (s := s)
    refine iff_of_true (noLeak_of_subset h hnone hresponses fun id _ hp => ?_) trivial
    rw [Keys.Pending, hpending]
    exact hp
  | lapse id =>
    have hlapse : (if s.responses id ≠ [] ∧ s.volatile id then some ((), s.del id) else none) = some (x, s') := hx
    rw [if_neg fun hv => by rw [hnone id] at hv; cases hv.2] at hlapse
    cases hlapse
  | time | zrangebyscore =>
    cases hx
    exact iff_of_true h trivial

/-! ## Runs -/

variable {c : Config system}

/-- In no run does a response list have an expiry. -/
theorem not_volatile {G : Guard system} (h : Run G (.init Keys.fresh) c) : NoExpiry c.world.state :=
  run_inv (I := fun w => NoExpiry w.state) (fun _ _ _ hI _ hf => by
    obtain ⟨⟨now, hx⟩, -⟩ := hf
    exact noExpiry_exec hI hx) (fun _ => rfl) h

/-- **A run whose commands are timely leaks no response.** -/
theorem noLeak_of_timely (h : Run timely (.init Keys.fresh) c) : NoLeak c.world.state := by
  have hinv : NoLeak c.world.state ∧ NoExpiry c.world.state := by
    refine run_inv (I := fun w => NoLeak w.state ∧ NoExpiry w.state) (fun w e w' hI hg hf => ?_)
      ⟨fun _ hid => absurd rfl hid, fun _ => rfl⟩ h
    obtain ⟨⟨now, hx⟩, -⟩ := hf
    exact ⟨(noLeak_exec_iff hI.1 hI.2 hx).mpr hg, noExpiry_exec hI.2 hx⟩
  exact hinv.1

/-- A request, as its responder reads it. -/
def ping : Envelope := requestEnvelope "r-1" "giga" "tera" "ping" [] false

/-- A response in time. -/
theorem noLeak_of_timely_one : ∃ c : Config system, Run timely (.init Keys.fresh) c ∧ c.Quiescent ∧
    c.world.trace.length = 5 ∧ NoLeak c.world.state := by
  have hplay : (play timely (.init Keys.fresh) (solo system 0 (.request "r-1" "tera" "ping" [] 30 "giga") 2 0 ++
      solo system 1 (.respond "tera" ping []) 1 0 ++ [.step 0 0, .step 0 0])).any (fun c : Config system =>
        (starts (solo system 0 (.request "r-1" "tera" "ping" [] 30 "giga") 2 0 ++
          solo system 1 (.respond "tera" ping []) 1 0 ++ [.step 0 0, .step 0 0])).all c.atRest &&
            c.world.trace.length == 5) = true := by decide +kernel
  obtain ⟨c, hc, hquiet, hlen⟩ := exists_quiescent_of_play hplay
  exact ⟨c, hc, hquiet, eq_of_beq hlen, noLeak_of_timely hc⟩

/-- The request has timed out when the response is pushed: the list stays, without an expiry, and nobody is left to
take it off. -/
theorem late_response :
    ∃ c : Config system, Run Free (.init Keys.fresh) c ∧ c.Quiescent ∧ ¬ NoLeak c.world.state := by
  have hplay : (play Free (.init Keys.fresh) (solo system 0 (.request "r-1" "tera" "ping" [] 30 "giga") 4 0 ++
      solo system 1 (.respond "tera" ping []) 1 0)).any (fun c : Config system =>
        (starts (solo system 0 (.request "r-1" "tera" "ping" [] 30 "giga") 4 0 ++
          solo system 1 (.respond "tera" ping []) 1 0)).all c.atRest &&
            (!(c.world.state.responses "r-1").isEmpty && !decide (c.world.state.Pending "r-1"))) = true := by
    decide +kernel
  obtain ⟨c, hc, hquiet, ht⟩ := exists_quiescent_of_play hplay
  simp only [Bool.and_eq_true, Bool.not_eq_true', List.isEmpty_eq_false_iff, decide_eq_false_iff_not] at ht
  refine ⟨c, hc, hquiet, fun h => ?_⟩
  rcases h "r-1" ht.1 with hvolatile | hp
  · rw [not_volatile hc] at hvolatile
    cases hvolatile
  · exact ht.2 hp

end ClaudeSwarm.Ipc.Rpc
