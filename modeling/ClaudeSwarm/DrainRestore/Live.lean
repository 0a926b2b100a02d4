import ClaudeSwarm.DrainRestore.Checkpoint
import ClaudeSwarm.Interleave.Reading

/-!
# Draining a live swarm

`drain` (`scripts/phase1_drain_restore.py`) command by command, between the commands of other clients, which may be any:
among them the claims and registrations of `src/redis_client.py`. The pages of a `SCAN` or an `XRANGE` are read at once;
a string that is gone by the time it is read is `other`. Time passes by `tick`.

* `yields_drain`: run alone, it is `DrainRestore.drain`.
* `refused_of_live`: that refuses while a claimed task is held by a live agent, if one is held under a host's name.
* **`safe_of_careful`**: it takes the keyspace of one moment without such tasks, or raises, in all runs in which that is
  so and no other client writes, and no key expires, while it reads.
* `agent_drained`: a task claimed as `host:pid` does not keep `drain` from taking a checkpoint.
-/

namespace ClaudeSwarm.DrainRestore.Live

open Data Redis.Keyspace Interleave
open Python (Time)

variable {Score : Type}

/-! ## The server -/

/-- The database and the clock. -/
structure Server (Score : Type) where
  db : Db Score
  clock : Time

/-- A type of values. -/
inductive Kind where
  | string | hash | list | set | zset | stream
  deriving DecidableEq

/-- The type of a value. -/
def kindOf : Value Score → Kind
  | .string _ => .string
  | .hash _ _ => .hash
  | .list _ _ => .list
  | .set _ _ => .set
  | .zset _ _ => .zset
  | .stream _ => .stream

/-- What is read of a key that is not there. -/
def Kind.absent : Kind → Snapshot Score
  | .string => .other
  | .hash => .hash []
  | .list => .list []
  | .set => .set []
  | .zset => .zset []
  | .stream => .stream []

/-- A reading command. -/
inductive Query where
  | zcard (key : String)
  | scan (start : String)
  | zrange (key : String)
  | hget (key field : String)
  | type (key : String)
  | read (kind : Kind) (key : String)

/-- What a reading command answers; `none` stands for a `WRONGTYPE` error, except in `type`. -/
def Query.Resp (Score : Type) : Query → Type
  | .zcard _ => Option Nat
  | .scan _ => List String
  | .zrange _ => Option (List String)
  | .hget _ _ => Option (Option String)
  | .type _ => Option Kind
  | .read _ _ => Option (Snapshot Score)

/-- A command: a query, a write of another client, which may find nothing to write, or the passing of time. -/
inductive Cmd (Score : Type) where
  | ask (q : Query)
  | update (f : Time → Db Score → Option (Db Score))
  | tick (d : Time)

/-- What a command answers: `update`, whether it wrote; `tick`, whether all keys are still there. -/
def Resp : Cmd Score → Type
  | .ask q => q.Resp Score
  | .update _ => Bool
  | .tick _ => Bool

abbrev sig (Score : Type) : Sig := ⟨Cmd Score, Resp⟩

/-- A sorted set, empty if there is none. -/
def ranked (s : Server Score) (key : String) : Option (List (String × Score)) :=
  match (get s.clock s.db key).map Entry.value with
  | none => some []
  | some (.zset members _) => some members.rows
  | some _ => none

/-- `HGET`. -/
def hget (s : Server Score) (key field : String) : Option (Option String) :=
  match (get s.clock s.db key).map Entry.value with
  | none => some none
  | some (.hash fields _) => some ((fields.find? field).map Prod.snd)
  | some _ => none

section

variable [LinearOrder Score]

/-- A read of a value as one of type `kind`. -/
def readAs (s : Server Score) (kind : Kind) (key : String) : Option (Snapshot Score) :=
  match (get s.clock s.db key).map Entry.value with
  | none => some kind.absent
  | some v => if kindOf v = kind then some (serialise v) else none

/-- The answer to a query. -/
def answer (s : Server Score) : (q : Query) → q.Resp Score
  | .zcard key => (ranked s key).map List.length
  | .scan start => (keys s.clock s.db).filter (matchesStart start)
  | .zrange key => (ranked s key).map fun members => (members.insertionSort rankedBefore).map Prod.fst
  | .hget key field => hget s key field
  | .type key => (get s.clock s.db key).map fun e => kindOf e.value
  | .read kind key => readAs s kind key

/-- Execute one command. -/
def exec (_ : Nat) (_ : Unit) (s : Server Score) : (c : Cmd Score) → Option (Resp c × Server Score)
  | .ask q => some (answer s q, s)
  | .update f => some ((f s.clock s.db).isSome, { s with db := (f s.clock s.db).getD s.db })
  | .tick d =>
    if 0 ≤ d then
      some (s.db.rows.all fun e => e.isLive (s.clock + d) = e.isLive s.clock, { s with clock := s.clock + d })
    else none

/-- The store. -/
abbrev store (Score : Type) [LinearOrder Score] : Store (sig Score) := ⟨Server Score, Unit, exec⟩

end

/-- A program of a client. -/
abbrev P (Score α : Type) := Prog (sig Score) Error α

/-! ## The code -/

/-- A query, which raises an exception if the key has another type. -/
def ask (q : Query) : P Score (q.Resp Score) := .op (Cmd.ask q) .ret

/-- The value of an answer. -/
def orRaise {α : Type} : Option α → P Score α
  | none => .raise .wrongType
  | some a => .ret a

/-- The loop over the claimed tasks. -/
def countLive (live_hosts : List String) : List String → P Score Nat
  | [] => return 0
  | tid :: rest => do
    let claimed_by ← ask (.hget ("task:" ++ tid) "claimed_by")
    let claimed_by ← orRaise claimed_by
    let live_claimed ← countLive live_hosts rest
    return if claimed_by.getD "" ∈ live_hosts then live_claimed + 1 else live_claimed

/-- `_live_claimed_count`. -/
def liveClaimedCount : P Score (Nat × Nat) := do
  let total ← ask (.zcard "tasks:claimed")
  let total ← orRaise total
  if total = 0 then return (0, 0)
  let batch ← ask (.scan "agent:")
  let task_ids ← ask (.zrange "tasks:claimed")
  let task_ids ← orRaise task_ids
  let live_claimed ← countLive (batch.filterMap hostPart) task_ids
  return (total, live_claimed)

/-- `_serialise_key`. -/
def serialiseKey (key : String) : P Score (Snapshot Score) := do
  match ← ask (.type key) with
  | none => return .other
  | some ktype =>
    let value ← ask (.read ktype key)
    orRaise value

/-- The loop over the keys. -/
def snapshot : List String → P Score (Checkpoint Score)
  | [] => return []
  | key :: keys => do
    let value ← serialiseKey key
    let rest ← snapshot keys
    return (key, value) :: rest

/-- `drain`. -/
def drain : P Score (Checkpoint Score) := do
  let (claimed_count, live_claimed) ← liveClaimedCount
  if live_claimed ≠ 0 then .raise (.refused live_claimed claimed_count)
  let keys ← ask (.scan "")
  snapshot keys

/-! ## The calls -/

/-- A call of `drain`, or a program of another client. -/
inductive Op (Score : Type) where
  | drain
  | client (p : P Score Unit)

/-- What a call returns. -/
def Ret : Op Score → Type
  | .drain => Checkpoint Score
  | .client _ => Unit

/-- The program of a call. -/
def prog : (o : Op Score) → P Score (Ret o)
  | .drain => drain
  | .client p => p

/-- Any number of clients on one server. -/
abbrev system (Score : Type) [LinearOrder Score] : System where
  sig := sig Score
  store := store Score
  Err := Error
  Op := Op Score
  Ret := Ret
  prog := prog

/-! ## Other clients -/

/-- A write that fails changes nothing. -/
def attempt (f : Db Score → Option (Db Score)) (r : Db Score) : Db Score := (f r).getD r

/-- `AGENT_TTL`. -/
def agentTtl : Time := 300

/-- The key of an agent. -/
def agentKey (host : String) (pid : Int) : String := "agent:" ++ host ++ ":" ++ toString pid

/-- A write, as a program. -/
def write (f : Time → Db Score → Option (Db Score)) : P Score Unit := .op (Cmd.update f) fun _ => .ret ()

/-- `register_agent`; the times and `capabilities` are text. -/
def registerAgent (host : String) (pid : Int) (registered_at last_heartbeat : String) (capabilities : Option String) :
    P Score Unit := do
  let data := [("host", host), ("pid", toString pid), ("registered_at", registered_at),
    ("last_heartbeat", last_heartbeat)]
  let data := data ++ (capabilities.map fun c => ("capabilities", c)).toList
  write fun now r => hset now r (agentKey host pid) data
  write fun now r => some (expire now r (agentKey host pid) agentTtl)

/-- `create_task`; `seconds` is `int(time.time())`. -/
def createTask (task_id data : String) (priority seconds : Int) (created_at : String) : P Int Unit :=
  write fun now r => some <|
    attempt (fun r => zadd now r "tasks:pending" [(task_id, priority * 1000 + seconds)]) <|
      attempt (fun r => hset now r ("task:" ++ task_id)
        [("id", task_id), ("state", "pending"), ("priority", toString priority), ("created_at", created_at),
          ("data", data)]) r

section

variable [LinearOrder Score]

/-- `ZPOPMIN`. -/
def zpopmin (now : Time) (r : Db Score) (key : String) : Option ((String × Score) × Db Score) :=
  match (get now r key).map Entry.value with
  | some (.zset members _) =>
    (members.rows.insertionSort rankedBefore).head?.map fun first =>
      (first, (Value.zset? (members.erase first.1)).elim (r.erase key) (put now r key))
  | _ => none

/-- `CLAIM_SCRIPT`; an error ends it. -/
def claimScript (stamp claimer : String) (now : Time) (r : Db Score) : Option (Db Score) :=
  (zpopmin now r "tasks:pending").map fun ((task_id, score), r) =>
    (zadd now r "tasks:claimed" [(task_id, score)]).elim r fun r =>
      attempt (fun r => hset now r ("task:" ++ task_id)
        [("state", "claimed"), ("claimed_at", stamp), ("claimed_by", claimer)]) r

/-- `claim_task`. -/
def claimTask (claimer stamp : String) : P Score Unit := write (claimScript stamp claimer)

end

/-! ## Safety -/

variable (now : Time) (r : Db Score)

/-- `claimed_by` is the name, as `host:pid` or as `host`, of an agent that has not expired. -/
def Names (claimed_by : String) : Prop :=
  ∃ host pid, (get now r (agentKey host pid)).isSome ∧ (claimed_by = host ∨ claimed_by = host ++ ":" ++ toString pid)

/-- A task of `tasks:claimed`, and who claimed it. -/
structure Held (id claimed_by : String) : Prop where
  claimed : ∃ members h, (get now r "tasks:claimed").map Entry.value = some (.zset members h) ∧
    ∃ score, (id, score) ∈ members.rows
  claimer : ∃ fields h, (get now r ("task:" ++ id)).map Entry.value = some (.hash fields h) ∧
    fields.find? "claimed_by" = some ("claimed_by", claimed_by)

/-- A live agent holds a task. -/
def LiveClaim : Prop := ∃ id claimed_by, Held now r id claimed_by ∧ Names now r claimed_by

/-- If a live agent holds a task, then one is held under a name without a colon. -/
def NamedByHost : Prop :=
  LiveClaim now r → ∃ id claimed_by, Held now r id claimed_by ∧ Names now r claimed_by ∧ ':' ∉ claimed_by.toList

variable {now r}

/-- **Drain safety**: `drain` raises if a live agent holds a task while it reads, and otherwise what it takes is the
keyspace of one moment at which no live agent held a task. -/
structure Safe [LinearOrder Score] (G : Guard (system Score)) (s : Server Score) (c : Config (system Score)) :
    Prop where
  refused : ∀ n res c₁, c.Ended n .drain res → Acts G (.init s) c n .drain c₁ →
    LiveClaim c₁.world.state.clock c₁.world.state.db → ∃ e, res = .error e
  atomic : ∀ n (cp : Checkpoint Score), c.Returned n .drain cp → ∃ c₁, Acts G (.init s) c n .drain c₁ ∧
    ¬ LiveClaim c₁.world.state.clock c₁.world.state.db ∧
    cp = checkpoint c₁.world.state.clock c₁.world.state.db

/-! ## A live claim is seen -/

theorem hgetOr_eq (s : Server Score) (key field : String) :
    hgetOr s.clock s.db key field = (hget s key field).map fun value => value.getD "" := by
  unfold hget hgetOr
  cases (get s.clock s.db key).map Entry.value with
  | none => rfl
  | some v => cases v <;> rfl

theorem scan_all (s : Server Score) : (keys s.clock s.db).filter (matchesStart "") = keys s.clock s.db :=
  List.filter_eq_self.mpr fun _ _ => rfl

theorem countLive_cons (now : Time) (r : Db Score) (live_hosts rest : List String) (tid : String) :
    DrainRestore.countLive now r live_hosts (tid :: rest) =
      (hgetOr now r ("task:" ++ tid) "claimed_by").bind fun claimed_by =>
        (DrainRestore.countLive now r live_hosts rest).map fun live_claimed =>
          if claimed_by ∈ live_hosts then live_claimed + 1 else live_claimed := by
  conv_lhs => unfold DrainRestore.countLive
  cases hgetOr now r ("task:" ++ tid) "claimed_by" with
  | none => rfl
  | some claimed_by => cases DrainRestore.countLive now r live_hosts rest <;> rfl

section

variable {claimed_by id host : String} {pid : Int}

/-- An agent's host is among the hosts of the live agents, if its name has no colon. -/
theorem mem_liveHosts (hlive : (get now r (agentKey host pid)).isSome) (hcolon : ':' ∉ host.toList) :
    host ∈ liveHosts now r := by
  obtain ⟨e, he⟩ := Option.isSome_iff_exists.mp hlive
  have hkey : agentKey host pid ∈ keys now r := mem_keys_iff.mpr ⟨e, he⟩
  have htext : (agentKey host pid).toList = "agent".toList ++ ':' :: (host.toList ++ ':' :: (toString pid).toList) := by
    simp [agentKey]
  refine List.mem_filterMap.mpr ⟨agentKey host pid, List.mem_filter.mpr ⟨hkey, ?_⟩, ?_⟩
  · unfold agentKey
    rw [String.append_assoc, String.append_assoc]
    exact matchesStart_append _ _
  · rw [hostPart, htext, List.splitOn_append_cons_self_of_not_mem (by decide),
      List.splitOn_append_cons_self_of_not_mem hcolon]
    exact congrArg some String.ofList_toList

/-- A name without a colon is a host's. -/
theorem mem_of_names (h : Names now r claimed_by) (hcolon : ':' ∉ claimed_by.toList) :
    claimed_by ∈ liveHosts now r := by
  obtain ⟨host, pid, hlive, rfl | rfl⟩ := h
  · exact mem_liveHosts hlive hcolon
  · simp at hcolon

/-- A task that is claimed under the name of a live host is counted. -/
theorem countLive_ne_zero {live_hosts : List String} (hmem : claimed_by ∈ live_hosts)
    (hget : hgetOr now r ("task:" ++ id) "claimed_by" = some claimed_by) : ∀ {ids : List String} {count : Nat},
    id ∈ ids → DrainRestore.countLive now r live_hosts ids = some count → count ≠ 0
  | tid :: rest, count, hid, hcount => by
    rw [countLive_cons] at hcount
    obtain ⟨claimer, hclaimer, hcount⟩ := Option.bind_eq_some_iff.mp hcount
    obtain ⟨live_claimed, hlive, rfl⟩ := Option.map_eq_some_iff.mp hcount
    rcases List.mem_cons.mp hid with rfl | hid
    · rw [hget] at hclaimer
      cases hclaimer
      rw [if_pos hmem]
      exact Nat.succ_ne_zero _
    · have hrest := countLive_ne_zero hmem hget hid hlive
      split
      · exact Nat.succ_ne_zero _
      · exact hrest

end

/-! ## `drain`, run alone -/

section

variable [LinearOrder Score] {n : Nat} {s : Server Score} {α β : Type}

/-- The outcome of a computation that a `WRONGTYPE` error may end. -/
def orError : Option α → Except Error α
  | none => .error .wrongType
  | some a => .ok a

theorem yields_ask {q : Query} {f : q.Resp Score → P Score α} {y : Except Error α}
    (h : (store Score).Yields n (f (answer s q)) s y) : (store Score).Yields n (ask q >>= f) s y := by
  refine Store.yields_op ⟨(), rfl⟩ (fun i x s' hx => ?_) h
  cases hx
  exact ⟨rfl, rfl⟩

theorem yields_countLive (live_hosts : List String) : ∀ ids : List String,
    (store Score).Yields n (countLive live_hosts ids) s
      (orError (DrainRestore.countLive s.clock s.db live_hosts ids))
  | [] => Store.yields_ret
  | tid :: rest => by
    have hrest := yields_countLive live_hosts rest
    rw [countLive_cons, hgetOr_eq]
    refine yields_ask ?_
    rw [answer]
    cases hget s ("task:" ++ tid) "claimed_by" with
    | none => exact Store.yields_bind_error Store.yields_raise
    | some claimed_by =>
      refine Store.yields_bind Store.yields_ret ?_
      cases hcount : DrainRestore.countLive s.clock s.db live_hosts rest with
      | none =>
        rw [hcount] at hrest
        exact Store.yields_bind_error hrest
      | some live_claimed =>
        rw [hcount] at hrest
        exact Store.yields_bind hrest Store.yields_ret

theorem yields_liveClaimedCount :
    (store Score).Yields n liveClaimedCount s (orError (DrainRestore.liveClaimedCount s.clock s.db)) := by
  unfold DrainRestore.liveClaimedCount
  refine yields_ask ?_
  rw [answer, ranked]
  cases hget : (get s.clock s.db "tasks:claimed").map Entry.value with
  | none => exact Store.yields_bind Store.yields_ret Store.yields_ret
  | some v =>
    cases v with
    | zset members hne =>
      refine Store.yields_bind Store.yields_ret ?_
      rw [if_neg fun h => hne (List.length_eq_zero_iff.mp h)]
      have hrange : answer s (.zrange "tasks:claimed") =
          some ((members.rows.insertionSort rankedBefore).map Prod.fst) := by
        rw [answer, ranked, hget]
        rfl
      refine yields_ask (yields_ask ?_)
      rw [hrange]
      refine Store.yields_bind Store.yields_ret ?_
      have hcount := yields_countLive (n := n) (s := s) (liveHosts s.clock s.db)
        ((members.rows.insertionSort rankedBefore).map Prod.fst)
      simp only
      cases hlive : DrainRestore.countLive s.clock s.db (liveHosts s.clock s.db)
        ((members.rows.insertionSort rankedBefore).map Prod.fst) with
      | none =>
        rw [hlive] at hcount
        exact Store.yields_bind_error hcount
      | some live_claimed =>
        rw [hlive] at hcount
        exact Store.yields_bind hcount Store.yields_ret
    | _ => exact Store.yields_bind_error Store.yields_raise

/-- A key that is read at one moment. -/
theorem yields_serialiseKey (key : String) :
    (store Score).Yields n (serialiseKey key) s (.ok (DrainRestore.serialiseKey s.clock s.db key)) := by
  unfold DrainRestore.serialiseKey
  refine yields_ask ?_
  rw [answer]
  cases hget : get s.clock s.db key with
  | none => exact Store.yields_ret
  | some e =>
    refine yields_ask ?_
    rw [answer, readAs, hget]
    simp only [Option.map_some, if_true]
    exact Store.yields_ret

theorem yields_snapshot : ∀ ks : List String, (store Score).Yields n (snapshot ks) s
    (.ok (ks.map fun key => (key, DrainRestore.serialiseKey s.clock s.db key)))
  | [] => Store.yields_ret
  | key :: ks => Store.yields_bind (yields_serialiseKey key) (Store.yields_bind (yields_snapshot ks) Store.yields_ret)

/-- **Run alone, it is `DrainRestore.drain`.** -/
theorem yields_drain : (store Score).Yields n drain s (DrainRestore.drain s.clock s.db) := by
  have hcount := yields_liveClaimedCount (n := n) (s := s)
  unfold DrainRestore.drain
  cases hlive : DrainRestore.liveClaimedCount s.clock s.db with
  | none =>
    rw [hlive] at hcount
    exact Store.yields_bind_error hcount
  | some counts =>
    obtain ⟨claimed_count, live_claimed⟩ := counts
    rw [hlive] at hcount
    refine Store.yields_bind hcount ?_
    simp only
    by_cases hzero : live_claimed = 0
    · rw [if_neg (not_not.mpr hzero), if_neg (not_not.mpr hzero)]
      refine yields_ask ?_
      rw [answer, scan_all]
      exact yields_snapshot _
    · rw [if_pos hzero, if_pos hzero]
      exact Store.yields_bind_error Store.yields_raise

end

/-- **A task held under a host's name is refused.** -/
theorem refused_of_live [LinearOrder Score] (hnamed : NamedByHost now r) (hlive : LiveClaim now r) :
    ∃ e, DrainRestore.drain now r = .error e := by
  obtain ⟨id, claimed_by, hheld, hnames, hcolon⟩ := hnamed hlive
  obtain ⟨members, hne, hclaimed, score, hscore⟩ := hheld.claimed
  obtain ⟨fields, hne', hhash, hfield⟩ := hheld.claimer
  have hget : hgetOr now r ("task:" ++ id) "claimed_by" = some claimed_by := by
    rw [hgetOr, hhash]
    simp only [hfield]
    rfl
  have hid : id ∈ (members.rows.insertionSort rankedBefore).map Prod.fst :=
    List.mem_map.mpr ⟨(id, score), (List.mem_insertionSort rankedBefore).mpr hscore, rfl⟩
  have hcounts : DrainRestore.liveClaimedCount now r =
      (DrainRestore.countLive now r (liveHosts now r)
        ((members.rows.insertionSort rankedBefore).map Prod.fst)).map fun live_claimed =>
          (members.rows.length, live_claimed) := by
    unfold DrainRestore.liveClaimedCount
    rw [hclaimed]
  unfold DrainRestore.drain
  rw [hcounts]
  cases hall : DrainRestore.countLive now r (liveHosts now r)
    ((members.rows.insertionSort rankedBefore).map Prod.fst) with
  | none => exact ⟨_, rfl⟩
  | some live_claimed =>
    exact ⟨.refused live_claimed members.rows.length,
      if_pos (countLive_ne_zero (mem_of_names hnames hcolon) hget hid hall)⟩

/-! ## Runs -/

/-- What queries see of two servers is the same. -/
def Same (s s' : Server Score) : Prop := s.db = s'.db ∧ ∀ e ∈ s'.db.rows, e.isLive s.clock = e.isLive s'.clock

section

variable {s s' : Server Score}

theorem get_same (h : Same s s') (key : String) : get s.clock s.db key = get s'.clock s'.db key := by
  unfold Redis.Keyspace.get
  rw [h.1]
  cases hfind : s'.db.find? key with
  | none => rfl
  | some e =>
    have hlive := h.2 e (Table.find?_mem hfind)
    rw [Option.filter_some, Option.filter_some, hlive]

theorem keys_same (h : Same s s') : keys s.clock s.db = keys s'.clock s'.db := by
  unfold Redis.Keyspace.keys
  rw [h.1, List.filter_congr h.2]

theorem answer_same [LinearOrder Score] (h : Same s s') (q : Query) : answer s q = answer s' q := by
  cases q with
  | zcard key => rw [answer, answer, ranked, ranked, get_same h]
  | scan start => rw [answer, answer, keys_same h]
  | zrange key => rw [answer, answer, ranked, ranked, get_same h]
  | hget key field => rw [answer, answer, hget, hget, get_same h]
  | type key => rw [answer, answer, get_same h]
  | read kind key => rw [answer, answer, readAs, readAs, get_same h]

end

/-- The command wrote nothing, and no key expired by it. -/
def quiet : (c : Cmd Score) → Resp c → Prop
  | .ask _, _ => True
  | .update _, wrote => wrote = false
  | .tick _, kept => kept = true

/-- A query. -/
def Reads (c : Cmd Score) : Prop := ∃ q, c = .ask q

section

variable {α β : Type}

theorem each_ask {q : Query} {f : q.Resp Score → P Score α} (hf : ∀ x, (f x).Each Reads) : (ask q >>= f).Each Reads :=
  ⟨⟨q, rfl⟩, hf⟩

theorem each_orRaise {f : α → P Score β} (hf : ∀ x, (f x).Each Reads) : ∀ a : Option α, (orRaise a >>= f).Each Reads
  | none => trivial
  | some a => hf a

theorem each_countLive (live_hosts : List String) : ∀ ids, (countLive live_hosts ids : P Score Nat).Each Reads
  | [] => trivial
  | _ :: rest => each_ask (each_orRaise fun _ => Prog.each_bind (fun _ => by trivial) (each_countLive live_hosts rest))

theorem each_liveClaimedCount : (liveClaimedCount : P Score _).Each Reads := by
  refine each_ask (each_orRaise fun total => ?_)
  by_cases htotal : total = 0
  · rw [if_pos htotal]
    trivial
  · rw [if_neg htotal]
    exact each_ask fun _ => each_ask (each_orRaise fun _ => Prog.each_bind (fun _ => by trivial) (each_countLive _ _))

theorem each_serialiseKey (key : String) : (serialiseKey key : P Score _).Each Reads := by
  refine each_ask fun ktype => ?_
  cases ktype with
  | none => trivial
  | some ktype =>
    refine each_ask fun value => ?_
    cases value <;> trivial

theorem each_snapshot : ∀ ks, (snapshot ks : P Score _).Each Reads
  | [] => trivial
  | key :: ks =>
    Prog.each_bind (fun _ => Prog.each_bind (fun _ => by trivial) (each_snapshot ks)) (each_serialiseKey key)

/-- **It only reads.** -/
theorem each_drain : (drain : P Score _).Each Reads := by
  refine Prog.each_bind (fun counts => ?_) each_liveClaimedCount
  obtain ⟨claimed_count, live_claimed⟩ := counts
  by_cases hzero : live_claimed = 0
  · simp only [hzero]
    exact each_ask each_snapshot
  · simp only [if_pos hzero]
    trivial

end

variable [LinearOrder Score]

theorem same_of_quiet {m : Nat} {i : Unit} {s s' : Server Score} : ∀ {cmd : Cmd Score} {x : Resp cmd}, quiet cmd x →
    exec m i s cmd = some (x, s') → Same s s'
  | .ask q, x, _, hx => by
    cases hx
    exact ⟨rfl, fun _ _ => rfl⟩
  | .update f, x, hquiet, hx => by
    obtain ⟨hwrote, rfl⟩ := Prod.mk.inj (Option.some.inj hx)
    have hnone : f s.clock s.db = none := Option.not_isSome_iff_eq_none.mp (by rw [hwrote, hquiet]; decide)
    refine ⟨?_, fun _ _ => rfl⟩
    rw [hnone]
    rfl
  | .tick d, x, hquiet, hx => by
    by_cases hd : 0 ≤ d
    · obtain ⟨hkept, rfl⟩ := Prod.mk.inj (Option.some.inj ((if_pos hd).symm.trans hx))
      have hall := List.all_eq_true.mp (hkept.trans hquiet)
      exact ⟨rfl, fun e he => (of_decide_eq_true (hall e he)).symm⟩
    · cases (if_neg hd).symm.trans hx

/-- What `drain` sees of the server. -/
def view : View (system Score) where
  Reads := Reads
  Same := Same
  Still e := quiet e.cmd e.resp
  refl _ := ⟨rfl, fun _ _ => rfl⟩
  symm h := ⟨h.1.symm, fun e he => (h.2 e (h.1 ▸ he)).symm⟩
  trans h h' := ⟨h.1.trans h'.1, fun e he => (h.2 e (h'.1 ▸ he)).trans (h'.2 e he)⟩
  read hc hx := by
    obtain ⟨q, rfl⟩ := hc
    cases hx
    exact ⟨rfl, fun s₁ h => ⟨(), by rw [← answer_same h]; rfl⟩⟩
  still := by
    rintro w ⟨m, o, cmd, x⟩ w' hquiet ⟨⟨i, hx⟩, -⟩
    exact @same_of_quiet _ _ m i _ _ cmd x hquiet hx

/-- While it reads, the others leave the server as it is, and if live agents hold tasks, one does under a
host's name. -/
def Careful : Guard (system Score) := fun w n o _ => match o with
  | .drain => NamedByHost w.state.clock w.state.db ∧ view.Undisturbed n w
  | .client _ => True

/-- **Drain safety** holds in every careful run. -/
theorem safe_of_careful {s : Server Score} {c : Config (system Score)} (h : Run Careful (.init s) c) :
    Safe Careful s c := by
  have houtcome : ∀ {n res c₁}, c.Ended n .drain res → Acts Careful (.init s) c n .drain c₁ →
      NamedByHost c₁.world.state.clock c₁.world.state.db ∧
        res = DrainRestore.drain c₁.world.state.clock c₁.world.state.db := fun {n res c₁} hr hacts => by
    have hreads : ((system Score).prog .drain).Each view.Reads := each_drain
    have hruns := View.one_moment (fun w cmd hg => hg.2) hreads hacts hr
    obtain ⟨cmd, hguard⟩ := hacts.guarded
    exact ⟨hguard.1, ((yields_drain res _).mp hruns).1⟩
  constructor
  · intro n res c₁ hr hacts hlive
    obtain ⟨hnamed, rfl⟩ := houtcome hr hacts
    exact refused_of_live hnamed hlive
  · intro n cp hr
    rcases exists_acts h hr with hprog | ⟨c₁, hacts⟩
    · cases hprog
    · have hended : c.Ended n .drain (.ok cp) := hr
      obtain ⟨hnamed, hdrain⟩ := houtcome hended hacts
      refine ⟨c₁, hacts, fun hlive => ?_, drain_ok hdrain.symm⟩
      obtain ⟨e, he⟩ := refused_of_live hnamed hlive
      rw [he] at hdrain
      cases hdrain

/-- No agent is registered, and no other call has executed anything since the last command. -/
def Deserted : Guard (system Score) := fun w n _ _ =>
  (∀ key ∈ keys w.state.clock w.state.db, matchesStart "agent:" key = false) ∧ (others n w).isEmpty = true

instance (w : World (system Score)) (n : Nat) (o : Op Score) (c : Cmd Score) : Decidable (Deserted w n o c) :=
  inferInstanceAs (Decidable (_ ∧ _))

theorem careful_of_deserted (w : World (system Score)) (n : Nat) (o : Op Score) (c : Cmd Score)
    (h : Deserted w n o c) : Careful w n o c := by
  cases o with
  | client p => trivial
  | drain =>
    refine ⟨fun hlive => ?_, fun _ e he => ?_⟩
    · obtain ⟨_, _, -, host, pid, hagent, -⟩ := hlive
      obtain ⟨e, he⟩ := Option.isSome_iff_exists.mp hagent
      have hmatch : matchesStart "agent:" (agentKey host pid) = true := by
        unfold agentKey
        rw [String.append_assoc, String.append_assoc]
        exact matchesStart_append _ _
      rw [h.1 _ (mem_keys_iff.mpr ⟨e, he⟩)] at hmatch
      cases hmatch
    · rw [List.isEmpty_iff.mp h.2] at he
      cases he

/-- A task that a host claimed whose agents are gone. -/
def orphaned : Server Int where
  db := attempt (fun r => zadd 0 r "tasks:claimed" [("t", 5000)])
    (attempt (fun r => hset 0 r "task:t" [("claimed_by", "h")]) .empty)
  clock := 0

/-- Call `n` has returned a checkpoint that passes `test`. -/
def returnedWith (n : Nat) (test : Checkpoint Int → Bool) (c : Config (system Int)) : Bool :=
  match c.proc n with
  | some ⟨.drain, .ret cp⟩ => test cp
  | _ => false

theorem returned_of_test {n : Nat} {test : Checkpoint Int → Bool} {c : Config (system Int)}
    (h : returnedWith n test c = true) : ∃ cp, c.Returned n .drain cp ∧ test cp = true := by
  unfold returnedWith at h
  split at h
  · exact ⟨_, ‹_›, h⟩
  · cases h

/-- `safe_of_careful` of a swarm with an orphan. -/
theorem safe_of_careful_orphan : ∃ c, Run Careful (.init orphaned) c ∧ (∃ cp, c.Returned 0 .drain cp) ∧
    Safe Careful orphaned c := by
  have hplay : (play Deserted (.init orphaned) (solo (system Int) 0 .drain 9 ())).any
      (returnedWith 0 fun cp => cp.length = 2) = true := by decide +kernel
  obtain ⟨c, hrun, htest⟩ := exists_run_of_play hplay
  obtain ⟨cp, hcp, -⟩ := returned_of_test htest
  have hcareful : Run Careful (.init orphaned) c := hrun.mono careful_of_deserted
  exact ⟨c, hcareful, ⟨cp, hcp⟩, safe_of_careful hcareful⟩

/-- The checkpoint has the agent `h:1` and a task that it claimed. -/
def showsClaim (cp : Checkpoint Int) : Bool :=
  cp.any (fun p => p.1 == agentKey "h" 1) &&
    (cp.any (fun p => p.1 == "tasks:claimed" && match p.2 with
      | .zset members => members.any fun m => m.1 == "t"
      | _ => false) &&
    cp.any fun p => p.1 == "task:t" && match p.2 with
      | .hash fields => fields.any fun f => f == ("claimed_by", "h:1")
      | _ => false)

theorem get_of_mem_checkpoint {key : String} {value : Snapshot Score}
    (h : (key, value) ∈ checkpoint now r) : ∃ e, get now r key = some e ∧ value = serialise e.value := by
  obtain ⟨key', hkey, heq⟩ := List.mem_map.mp h
  obtain ⟨rfl, rfl⟩ := Prod.mk.inj heq
  obtain ⟨e, he⟩ := mem_keys_iff.mp hkey
  refine ⟨e, he, ?_⟩
  rw [DrainRestore.serialiseKey, he]
  rfl

theorem liveClaim_of_showsClaim {now : Time} {r : Db Int} (h : showsClaim (checkpoint now r) = true) :
    LiveClaim now r := by
  simp only [showsClaim, Bool.and_eq_true, List.any_eq_true] at h
  obtain ⟨⟨⟨k₁, v₁⟩, hmem₁, hkey₁⟩, ⟨⟨k₂, v₂⟩, hmem₂, hkey₂, hclaimed⟩, ⟨k₃, v₃⟩, hmem₃, hkey₃, hfields⟩ := h
  obtain rfl : k₁ = agentKey "h" 1 := eq_of_beq hkey₁
  obtain rfl : k₂ = "tasks:claimed" := eq_of_beq hkey₂
  obtain rfl : k₃ = "task:t" := eq_of_beq hkey₃
  obtain ⟨e₁, hget₁, -⟩ := get_of_mem_checkpoint hmem₁
  obtain ⟨e₂, hget₂, rfl⟩ := get_of_mem_checkpoint hmem₂
  obtain ⟨e₃, hget₃, rfl⟩ := get_of_mem_checkpoint hmem₃
  refine ⟨"t", "h:1", ⟨?_, ?_⟩, "h", 1, Option.isSome_iff_exists.mpr ⟨e₁, hget₁⟩, .inr rfl⟩
  · rw [hget₂]
    cases hvalue : e₂.value with
    | zset members hne =>
      rw [hvalue] at hclaimed
      obtain ⟨⟨id, score⟩, hmem, hid⟩ := List.any_eq_true.mp hclaimed
      obtain rfl : id = "t" := eq_of_beq hid
      exact ⟨members, hne, by rw [Option.map_some, hvalue], score, (List.mem_insertionSort rankedBefore).mp hmem⟩
    | _ =>
      rw [hvalue] at hclaimed
      cases hclaimed
  · rw [show "task:" ++ "t" = "task:t" from rfl, hget₃]
    cases hvalue : e₃.value with
    | hash fields hne =>
      rw [hvalue] at hfields
      obtain ⟨f, hmem, hf⟩ := List.any_eq_true.mp hfields
      obtain rfl : f = ("claimed_by", "h:1") := eq_of_beq hf
      exact ⟨fields, hne, by rw [Option.map_some, hvalue], Table.find?_of_mem hmem⟩
    | _ =>
      rw [hvalue] at hfields
      cases hfields

/-- An agent registers, a task is made, the agent claims it, and `drain` runs. -/
def busy : List (Act (system Int)) :=
  solo _ 0 (Op.client (registerAgent "h" 1 "0.0" "0.0" none)) 2 () ++
    solo _ 1 (Op.client (createTask "t" "\x7b\x7d" 5 0 "0.0")) 1 () ++
    solo _ 2 (Op.client (claimTask "h:1" "0.0")) 1 () ++ solo _ 3 Op.drain 11 ()

/-- **The task of a live agent is drained**: `h:1` is not the name of a host. -/
theorem agent_drained : ¬ ∀ c, Run Free (.init (⟨.empty, 0⟩ : Server Int)) c → Safe Free ⟨.empty, 0⟩ c := by
  intro h
  have hplay : (play Free (.init (⟨.empty, 0⟩ : Server Int)) busy).any (returnedWith 3 showsClaim) = true := by
    decide +kernel
  obtain ⟨c, hrun, htest⟩ := exists_run_of_play hplay
  obtain ⟨cp, hcp, hshows⟩ := returned_of_test htest
  obtain ⟨c₁, -, hnone, rfl⟩ := (h c hrun).atomic 3 cp hcp
  exact hnone (liveClaim_of_showsClaim hshows)

end ClaudeSwarm.DrainRestore.Live
