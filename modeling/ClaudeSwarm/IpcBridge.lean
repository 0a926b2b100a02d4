import ClaudeSwarm.Data.Dict
import ClaudeSwarm.Data.JsonTrip
import ClaudeSwarm.Redis.Streams

/-!
# The event bridge

Model of `publish` and `consume` of `src/ipc_bridge.py`. `consume` acknowledges each event as it puts
it on its list; an envelope that is no JSON is skipped, but one that is JSON and no object raises an
exception, and the handler around the loop returns an empty list. Then the events before it, which
are acknowledged, are lost, and those after it too.

`json.loads` is a parameter (`Json.Loaded`), since it raises more than the error that the loop expects.
The channel answers every command.

* `drain_clean`, `drain_escapes`: the loop.
* **`losesNothing_iff`**: exactly when a call of `consume` does what it should.
* `acked_and_lost`: a batch with an envelope that is a list.
* **`session_in_order`**: over a channel that only `publish` writes to, each event is returned once and in order.
-/

namespace ClaudeSwarm.IpcBridge

open Data Redis

/-! ## The code -/

/-- What is consumed. -/
structure Event where
  id : StreamId
  type : Json
  data : Json
  sender : Json
  timestamp : Json

/-- An entry of a channel's stream, with its fields. -/
abbrev Message := StreamId × Dict String String

/-- A channel, and the group of the agent that consumes from it once it is there. -/
structure Channel where
  stream : Log (Dict String String)
  group : Option Group

/-- What the body of the loop does with a message. -/
inductive Handled where
  | event (e : Event)
  | skipped
  /-- An exception that the loop does not catch. -/
  | escapes

variable (loads : String → Json.Loaded)

/-- The event of an object. -/
def eventOf (id : StreamId) (env : Json) : Event :=
  { id := id
    type := (env.get? "type").getD (.str "")
    data := (env.get? "data").getD (.obj [])
    sender := (env.get? "sender").getD (.str "")
    timestamp := (env.get? "ts").getD (.int 0) }

/-- The body of the loop; a value that is no object has no `get`. -/
def handle (m : Message) : Handled :=
  match loads ((m.2.get? "envelope").getD "{}") with
  | .decodeError => .skipped
  | .otherError => .escapes
  | .value env =>
    match env with
    | .obj l => .event (eventOf m.1 (.obj l))
    | _ => .escapes

/-- The loop: its list, or the exception, and the messages that are acknowledged. -/
def drain : List Message → Except Unit (List Event) × List StreamId
  | [] => (.ok [], [])
  | m :: messages =>
    match handle loads m with
    | .skipped => drain messages
    | .escapes => (.error (), [])
    | .event e => ((drain messages).1.map (e :: ·), m.1 :: (drain messages).2)

/-- `xgroup_create(stream, group, id="0")`. -/
def Channel.ensured (c : Channel) : Group := c.group.getD .start

/-- The messages that the call reads; redis-py refuses a count below 1. -/
def Channel.batch (c : Channel) (count : Int) : List Message := c.ensured.fresh c.stream count.toNat

/-- The group when they are read. -/
def Channel.read (c : Channel) (count : Int) (now : Nat) : Group := c.ensured.deliver now (c.batch count)

/-- `except Exception: return []`. -/
def orEmpty : Except Unit (List Event) → List Event
  | .ok events => events
  | .error () => []

/-- `consume`. -/
def consume (c : Channel) (count : Int) (now : Nat) : List Event × Channel :=
  let drained := drain loads (c.batch count)
  (orEmpty drained.1, { c with group := some ((c.read count now).ack drained.2) })

/-- `publish`, at a time; approximate trimming takes the `trimmed` oldest entries. -/
def publish (c : Channel) (now trimmed : Nat) (event_type : String) (data : Json)
    (agent_id : Option String) (ts : Json) (priority : Int) : Channel :=
  let envelope := Json.dumps (.obj [("type", .str event_type), ("data", data),
    ("sender", .str (agent_id.getD "unknown")), ("ts", ts), ("priority", .int priority)])
  { c with stream := (c.stream.add now (.ofList [("envelope", envelope)])).trim trimmed }

/-! ## What should hold -/

/-- The event of a well-formed message. -/
def event? (m : Message) : Option Event :=
  match handle loads m with
  | .event e => some e
  | _ => none

/-- The message raises an exception that the loop does not catch. -/
def Escapes (m : Message) : Prop := handle loads m = .escapes

/-- The call acknowledges the message: it is pending when it is read, and not when the call returns. -/
def Acknowledges (c : Channel) (count : Int) (now : Nat) (id : StreamId) : Prop :=
  (c.read count now).Pends id ∧ ¬ ((consume loads c count now).2.ensured).Pends id

/-- The call returns the well-formed events of its batch, in the order of the stream, among them every
message that it acknowledges; a malformed message does not keep another one out of the list. -/
structure LosesNothing (c : Channel) (count : Int) (now : Nat) : Prop where
  returned : (consume loads c count now).1 = (c.batch count).filterMap (event? loads)
  acknowledged : ∀ id, Acknowledges loads c count now id →
    ∃ e ∈ (consume loads c count now).1, e.id = id
  others : ∀ m ∈ c.batch count, ∀ e, event? loads m = some e → e ∈ (consume loads c count now).1

/-! ## The loop -/

variable {loads} {m : Message} {messages : List Message} {c : Channel} {count : Int} {now : Nat}

theorem handle_of_event {e : Event} (h : event? loads m = some e) : handle loads m = .event e := by
  unfold event? at h
  cases hm : handle loads m with
  | event e' =>
    rw [hm] at h
    cases h
    rfl
  | skipped =>
    rw [hm] at h
    cases h
  | escapes =>
    rw [hm] at h
    cases h

/-- An event has the id of its message. -/
theorem id_of_event {e : Event} (h : event? loads m = some e) : e.id = m.1 := by
  have hm := handle_of_event h
  unfold handle at hm
  split at hm
  · cases hm
  · cases hm
  · split at hm
    · cases hm
      rfl
    · cases hm

/-- Where nothing escapes, the loop comes to its end. -/
theorem drain_clean : ∀ {messages : List Message}, (∀ m ∈ messages, ¬ Escapes loads m) →
    drain loads messages =
      (.ok (messages.filterMap (event? loads)), (messages.filterMap (event? loads)).map Event.id)
  | [], _ => rfl
  | m :: messages, h => by
    have ih := drain_clean fun m' hm' => h m' (List.mem_cons_of_mem m hm')
    have hm := h m List.mem_cons_self
    rw [drain, ih]
    cases hhandle : handle loads m with
    | event e =>
      have he : event? loads m = some e := by rw [event?, hhandle]
      rw [List.filterMap_cons_some he, List.map_cons, id_of_event he]
      rfl
    | skipped =>
      have he : event? loads m = none := by rw [event?, hhandle]
      rw [List.filterMap_cons_none he]
    | escapes => exact absurd hhandle hm

/-- Where something does, the list is dropped. -/
theorem drain_escapes : ∀ {messages : List Message}, (∃ m ∈ messages, Escapes loads m) →
    (drain loads messages).1 = .error ()
  | [], h => by
    obtain ⟨m, hm, -⟩ := h
    cases hm
  | m :: messages, h => by
    rw [drain]
    cases hhandle : handle loads m with
    | escapes => rfl
    | event e =>
      obtain ⟨m', hm', hesc⟩ := h
      have hne : m' ≠ m := fun he => by
        rw [he, Escapes, hhandle] at hesc
        cases hesc
      have ih := drain_escapes ⟨m', (List.mem_cons.mp hm').resolve_left hne, hesc⟩
      exact congrArg (Except.map (e :: ·)) ih
    | skipped =>
      obtain ⟨m', hm', hesc⟩ := h
      have hne : m' ≠ m := fun he => by
        rw [he, Escapes, hhandle] at hesc
        cases hesc
      exact drain_escapes ⟨m', (List.mem_cons.mp hm').resolve_left hne, hesc⟩

/-- Without an event nothing is acknowledged. -/
theorem drain_acks_nil : ∀ {messages : List Message}, (∀ m ∈ messages, event? loads m = none) →
    (drain loads messages).2 = []
  | [], _ => rfl
  | m :: messages, h => by
    have ih := drain_acks_nil fun m' hm' => h m' (List.mem_cons_of_mem m hm')
    rw [drain]
    cases hhandle : handle loads m with
    | event e =>
      have hm := h m List.mem_cons_self
      rw [event?, hhandle] at hm
      cases hm
    | skipped => exact ih
    | escapes => rfl

/-! ## The call -/

theorem fst_consume : (consume loads c count now).1 = orEmpty (drain loads (c.batch count)).1 := rfl

/-- What is acknowledged is what the loop says. -/
theorem acknowledges_iff {id : StreamId} : Acknowledges loads c count now id ↔
    (c.read count now).Pends id ∧ id ∈ (drain loads (c.batch count)).2 := by
  have hensured : (consume loads c count now).2.ensured =
      (c.read count now).ack (drain loads (c.batch count)).2 := rfl
  rw [Acknowledges, hensured, Group.pends_ack]
  exact and_congr_right fun hpends => by simp [hpends]

/-- A batch from which nothing escapes. -/
theorem losesNothing_of_clean (h : ∀ m ∈ c.batch count, ¬ Escapes loads m) :
    LosesNothing loads c count now := by
  have hreturned : (consume loads c count now).1 = (c.batch count).filterMap (event? loads) := by
    rw [fst_consume, drain_clean h]
    rfl
  refine ⟨hreturned, fun id hid => ?_, fun m hm e he => ?_⟩
  · have hacks := (acknowledges_iff.mp hid).2
    rw [drain_clean h] at hacks
    rw [hreturned]
    exact List.mem_map.mp hacks
  · rw [hreturned]
    exact List.mem_filterMap.mpr ⟨m, hm, he⟩

/-- A batch without a well-formed message. -/
theorem losesNothing_of_none (h : ∀ m ∈ c.batch count, event? loads m = none) :
    LosesNothing loads c count now := by
  by_cases hesc : ∃ m ∈ c.batch count, Escapes loads m
  · have hreturned : (consume loads c count now).1 = [] := by
      rw [fst_consume, drain_escapes hesc]
      rfl
    refine ⟨?_, fun id hid => ?_, fun m hm e he => ?_⟩
    · rw [hreturned, List.filterMap_eq_nil_iff.mpr h]
    · have hacks := (acknowledges_iff.mp hid).2
      rw [drain_acks_nil h] at hacks
      cases hacks
    · rw [h m hm] at he
      cases he
  · exact losesNothing_of_clean fun m hm hm' => hesc ⟨m, hm, hm'⟩

/-- **A call loses nothing** if and only if no message of its batch raises an exception that the loop
does not catch, or the batch has no well-formed message at all. -/
theorem losesNothing_iff (loads : String → Json.Loaded) (c : Channel) (count : Int) (now : Nat) :
    LosesNothing loads c count now ↔
      (∀ m ∈ c.batch count, ¬ Escapes loads m) ∨ ∀ m ∈ c.batch count, event? loads m = none := by
  constructor
  · intro h
    by_cases hesc : ∃ m ∈ c.batch count, Escapes loads m
    · right
      have hreturned := h.returned
      rw [fst_consume, drain_escapes hesc] at hreturned
      exact List.filterMap_eq_nil_iff.mp hreturned.symm
    · exact .inl fun m hm hm' => hesc ⟨m, hm, hm'⟩
  · rintro (h | h)
    · exact losesNothing_of_clean h
    · exact losesNothing_of_none h

/-! ## JSON -/

/-- What `publish` adds is an event, with what was published. -/
theorem event_publish {event_type : String} {data : Json} (hdata : data.Proper)
    {agent_id : Option String} {ts : Json} (hts : ts.Proper) {priority : Int} :
    ∃ fields, (∀ trimmed, publish c now trimmed event_type data agent_id ts priority =
        { c with stream := (c.stream.add now fields).trim trimmed }) ∧
      event? Json.load (c.stream.next now, fields) =
        some ⟨c.stream.next now, .str event_type, data, .str (agent_id.getD "unknown"), ts⟩ := by
  refine ⟨_, fun _ => rfl, ?_⟩
  have hproper : (Json.obj [("type", .str event_type), ("data", data),
      ("sender", .str (agent_id.getD "unknown")), ("ts", ts), ("priority", .int priority)]).Proper := by
    refine .obj fun m hm => ?_
    simp only [List.mem_cons, List.not_mem_nil, or_false] at hm
    rcases hm with rfl | rfl | rfl | rfl | rfl
    · exact .str _
    · exact hdata
    · exact .str _
    · exact hts
    · exact .int _
  have hget (v : String) : (Dict.ofList [("envelope", v)]).get? "envelope" = some v := rfl
  rw [event?, handle, hget, Option.getD_some, Json.load, Json.loads_dumps_proper hproper]
  rfl

/-! ## Sessions -/

/-- What the agent has still to read. -/
def Channel.unread (c : Channel) : List Message := c.stream.after c.ensured.delivered

/-- Agents publish and one of them consumes, on a channel that was empty: the events published and the
events returned, each in order. What is trimmed has been read. -/
inductive Session : Channel → List Event → List Event → Prop
  | start : Session ⟨.empty, none⟩ [] []
  | publish {c : Channel} {published consumed : List Event} (h : Session c published consumed) (now trimmed : Nat)
      (event_type : String) {data : Json} (hdata : data.Proper) (agent_id : Option String) {ts : Json}
      (hts : ts.Proper) (priority : Int) (htrim : ∀ m ∈ c.stream.entries.take trimmed, m.1 ≤ c.ensured.delivered)
      (hle : trimmed ≤ c.stream.entries.length) :
      Session (publish c now trimmed event_type data agent_id ts priority)
        (published ++ [⟨c.stream.next now, .str event_type, data, .str (agent_id.getD "unknown"), ts⟩]) consumed
  | consume {c : Channel} {published consumed : List Event} (h : Session c published consumed) (count : Int)
      (now : Nat) : Session (consume Json.load c count now).2 published
        (consumed ++ (consume Json.load c count now).1)

/-- A session: what was published is what was returned and then what is unread, each message of which is an
event, and nothing is left pending. -/
structure InOrder (c : Channel) (published consumed : List Event) : Prop where
  delivered : c.ensured.delivered ≤ c.stream.last
  events : ∀ m ∈ c.unread, (event? Json.load m).isSome
  split : published = consumed ++ c.unread.filterMap (event? Json.load)
  settled : c.ensured.pending = []

theorem InOrder.publish {published consumed : List Event} (h : InOrder c published consumed) {trimmed : Nat}
    {fields : Dict String String} {e : Event} (he : event? Json.load (c.stream.next now, fields) = some e)
    (htrim : ∀ m ∈ c.stream.entries.take trimmed, m.1 ≤ c.ensured.delivered)
    (hle : trimmed ≤ c.stream.entries.length) :
    InOrder { c with stream := (c.stream.add now fields).trim trimmed } (published ++ [e]) consumed := by
  have hunread : Channel.unread { c with stream := (c.stream.add now fields).trim trimmed } =
      c.unread ++ [(c.stream.next now, fields)] := by
    have hnone : (c.stream.entries.take trimmed).filter (fun m => c.ensured.delivered < m.1) = [] :=
      List.filter_eq_nil_iff.mpr fun m hm => by simpa using htrim m hm
    have hadded : (c.stream.add now fields).entries.take trimmed = c.stream.entries.take trimmed :=
      List.take_append_of_le_length hle
    calc ((c.stream.add now fields).entries.drop trimmed).filter (fun m => c.ensured.delivered < m.1)
        = (c.stream.add now fields).after c.ensured.delivered := by
          rw [Log.after]
          conv_rhs => rw [← List.take_append_drop trimmed (c.stream.add now fields).entries, List.filter_append]
          rw [hadded, hnone, List.nil_append]
      _ = c.unread ++ [(c.stream.next now, fields)] := Log.after_add h.delivered
  refine ⟨Nat.le_of_lt (Nat.lt_of_le_of_lt h.delivered (c.stream.last_lt_next now)), fun m hm => ?_, ?_, h.settled⟩
  · rw [hunread, List.mem_append, List.mem_singleton] at hm
    rcases hm with hm | rfl
    · exact h.events m hm
    · rw [he]
      rfl
  · rw [hunread, List.filterMap_append, List.filterMap_cons_some he, List.filterMap_nil, ← List.append_assoc, ← h.split]

theorem InOrder.consume {published consumed : List Event} (h : InOrder c published consumed) :
    InOrder (consume Json.load c count now).2 published (consumed ++ (consume Json.load c count now).1) := by
  have hbatch : ∀ m ∈ c.batch count, (event? Json.load m).isSome := fun m hm => h.events m (List.mem_of_mem_take hm)
  have hclean : ∀ m ∈ c.batch count, ¬ Escapes Json.load m := fun m hm hesc => by
    have := hbatch m hm
    rw [event?, hesc] at this
    cases this
  have hunread : (IpcBridge.consume Json.load c count now).2.unread = c.unread.drop count.toNat :=
    c.ensured.after_deliver c.stream now count.toNat
  have hreturned : (IpcBridge.consume Json.load c count now).1 =
      (c.unread.take count.toNat).filterMap (event? Json.load) := by
    rw [fst_consume, drain_clean hclean]
    rfl
  refine ⟨?_, fun m hm => h.events m (List.mem_of_mem_drop (hunread ▸ hm)), ?_, ?_⟩
  · show (c.read count now).delivered ≤ c.stream.last
    rw [Channel.read, Group.deliver]
    cases hlast : (c.batch count).getLast? with
    | none => exact h.delivered
    | some e => exact c.stream.le_last e (List.mem_of_mem_filter (List.mem_of_mem_take (List.mem_of_getLast? hlast)))
  · rw [hunread, hreturned, List.append_assoc, ← List.filterMap_append, List.take_append_drop]
    exact h.split
  · have hpending : (IpcBridge.consume Json.load c count now).2.ensured.pending =
      (c.ensured.pending ++ (c.batch count).map fun m => (m.1, now)).filter
        fun p => !(drain Json.load (c.batch count)).2.contains p.1 := rfl
    rw [hpending, h.settled, List.nil_append, List.filter_eq_nil_iff]
    intro p hp
    obtain ⟨m, hm, rfl⟩ := List.mem_map.mp hp
    obtain ⟨e, he⟩ := Option.isSome_iff_exists.mp (hbatch m hm)
    have hmem : m.1 ∈ (drain Json.load (c.batch count)).2 := by
      rw [drain_clean hclean, ← id_of_event he]
      exact List.mem_map_of_mem (List.mem_filterMap.mpr ⟨m, hm, he⟩)
    simpa using hmem

/-- **In a session** each event is returned once, in order, or has still to be read, and is acknowledged when it is
returned. -/
theorem session_in_order {published consumed : List Event} (h : Session c published consumed) :
    InOrder c published consumed := by
  induction h with
  | start => exact ⟨Nat.le_refl _, fun _ hm => absurd hm List.not_mem_nil, rfl, rfl⟩
  | publish _ now trimmed event_type hdata agent_id hts priority htrim hle ih =>
    obtain ⟨fields, hpublish, he⟩ := event_publish hdata hts
    rw [hpublish]
    exact ih.publish he htrim hle
  | consume _ count now ih => exact ih.consume

/-- A channel with one event. -/
def posted : Channel := publish ⟨.empty, none⟩ 1 0 "task.created" (.obj []) none (.int 0) 3

theorem session_in_order_posted :
    InOrder (consume Json.load posted 10 0).2
      [⟨(.empty : Log (Dict String String)).next 1, .str "task.created", .obj [], .str "unknown", .int 0⟩]
      (consume Json.load posted 10 0).1 := by
  have hposted : Session posted _ [] := .publish .start 1 0 "task.created" (.obj fun _ hm => absurd hm List.not_mem_nil)
    none (.int 0) 3 (fun _ hm => absurd hm List.not_mem_nil) (Nat.zero_le _)
  have h := session_in_order (hposted.consume 10 0)
  rwa [List.nil_append, List.nil_append] at h

/-- A message with an envelope. -/
def enveloped (id : StreamId) (envelope : String) : Message := (id, .ofList [("envelope", envelope)])

/-- Two messages: an object and a list. -/
def objectAndList : Channel where
  stream := (Log.empty.add 1 (enveloped 0 "{}").2).add 2 (enveloped 0 "[]").2
  group := none

/-- **The event is acknowledged and lost.** -/
theorem acked_and_lost : ¬ ∀ c count now, LosesNothing Json.load c count now := by
  intro h
  have hbatch : objectAndList.batch 10 =
      [enveloped (StreamId.ofMs 1) "{}", enveloped (StreamId.ofMs 2) "[]"] := by
    decide +kernel
  have hlist : Escapes Json.load (enveloped (StreamId.ofMs 2) "[]") := rfl
  have hobject : event? Json.load (enveloped (StreamId.ofMs 1) "{}") ≠ none := fun he => by
    cases he
  rcases (losesNothing_iff Json.load objectAndList 10 0).mp (h _ _ _) with hclean | hnone
  · rw [hbatch] at hclean
    exact hclean _ (List.mem_cons_of_mem _ List.mem_cons_self) hlist
  · rw [hbatch] at hnone
    exact hobject (hnone _ List.mem_cons_self)

end ClaudeSwarm.IpcBridge
