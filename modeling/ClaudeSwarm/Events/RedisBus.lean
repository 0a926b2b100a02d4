import ClaudeSwarm.Cascade.Sqlite
import ClaudeSwarm.Events.History
import Mathlib.Data.List.Induction

/-!
# The event bus on Redis

Model of `src/events_redis.py`, with `emit_event` and `query_events` of `src/redis_client.py`, over the histories of the
other bus. The stream is read oldest first, and the limit is on what is read, before the filters. `time` is the text of
`time.time()` at a microsecond, and `fromisoformat` reads a text as milliseconds, if it can; both are arbitrary. The data
of an entry is kept as it is, not as JSON text.

* `foldl_emit`: the entries of a history; the ids of a millisecond are numbered.
* `query_accepted`, `query_refused`: what `query` returns.
* `eq_flip_iff`: two lists in opposite orders are equal if they have the same members, and one at most.
* `query_iff`, `sinceLastSession_iff`: when the answers are those of the other bus.
* **`dropIn_iff`**: the two together.
* `backwards`: two commits, and a query for everything.
-/

namespace ClaudeSwarm.EventsRedis

open Data Events
open Cascade.Sqlite (truthy)

/-! ## The stream -/

/-- An entry of the stream. -/
structure Entry where
  stream_id : Nat × Nat
  type : String
  timestamp : String
  data : Dict String Json

/-- What a query raises: redis-py refuses the count, or the server the command. -/
inductive Error where
  | dataError
  | responseError

/-- The id of an entry that is added in a millisecond. -/
def nextId (last : Option (Nat × Nat)) (now : Nat) : Nat × Nat :=
  match last with
  | none => (now, 0)
  | some (ms, seq) => if ms < now then (now, 0) else (ms, seq + 1)

/-- XRANGE from `start` on; no start is `-`. -/
def xrange (stream : List Entry) (start : Option Int) (count : Int) : Except Error (List Entry) :=
  if count < 1 then .error .dataError
  else if 2 ^ 63 ≤ count ∨ start.any (fun ms => ms < 0 ∨ 2 ^ 64 ≤ ms) then .error .responseError
  else .ok ((stream.filter fun e => start.all (· ≤ e.stream_id.1)).take count.toNat)

/-! ## The code -/

/-- `data` of `emit`, before the details. -/
def fieldsOf (e : Emission) : Dict String Json :=
  .ofList [("hostname", .str e.hostname), ("pid", .str (toString e.pid)), ("project", .str e.project),
    ("agent_id", .str e.agent_id)]

/-- What `emit` passes on. -/
def dataOf (e : Emission) : Dict String Json := (fieldsOf e).update e.details

/-- `entry` of `query`. -/
def Entry.dict (evt : Entry) : Dict String Json :=
  (Dict.ofList [("type", .str evt.type), ("timestamp", .str evt.timestamp),
    ("stream_id", .str (toString evt.stream_id.1 ++ "-" ++ toString evt.stream_id.2))]).update evt.data

/-- A value that is a text. -/
def text? : Json → Option String
  | .str s => some s
  | _ => none

section

variable (time : Nat → String) (fromisoformat : String → Option Int)

/-- `emit_event`. -/
def emitEvent (stream : List Entry) (micro : Nat) (event_type : String) (data : Dict String Json) : List Entry :=
  stream ++ [⟨nextId (stream.getLast?.map Entry.stream_id) (micro / 1000), event_type, time micro, data⟩]

/-- `emit`. -/
def emit (stream : List Entry) (e : Emission) : List Entry := emitEvent time stream e.micro e.event_type (dataOf e)

/-- `query_events`. -/
def queryEvents (stream : List Entry) (start : Option Int) (count : Int) (event_type : Option String) :
    Except Error (List Entry) :=
  (xrange stream start count).map fun raw => raw.filter fun fields => !excludes event_type (some fields.type)

/-- `start` of `query`. -/
def startOf : Json → Option Int
  | .str since => if since = "" then none else fromisoformat (.ofList (zuluOffset since.toList))
  | _ => none

/-- `query`; an entry that is returned stands for its `dict`. -/
def query (stream : List Entry) (since : Json) (event_type project hostname_filter : Option String) (limit : Int) :
    Except Error (List Entry) :=
  (queryEvents stream (startOf fromisoformat since) limit event_type).map fun raw => raw.filter fun evt =>
    !(excludes project ((evt.dict.get? "project").bind text?) ||
      excludes hostname_filter ((evt.dict.get? "hostname").bind text?))

/-- `since_last_session`. -/
def sinceLastSession (stream : List Entry) (gethostname host : String) : Except Error (List Entry) := do
  let host := if host = "" then gethostname else host
  let all_events ← query fromisoformat stream (.str "") (some "session_end") none (some host) 1
  let last_ts := all_events.getLast?.map fun evt => (evt.dict.get? "timestamp").getD (.str "")
  match last_ts.filter truthy with
  | some last_ts => query fromisoformat stream last_ts none none none 100
  | none => query fromisoformat stream (.str "") none none none 50

end

/-! ## A history -/

/-- The id of an emission. -/
def idIn (es : List Emission) (e : Emission) : Nat × Nat :=
  (e.micro / 1000, es.countP fun e' => e'.micro / 1000 = e.micro / 1000 ∧ e'.micro < e.micro)

/-- The entry of an emission. -/
def entryIn (time : Nat → String) (es : List Emission) (e : Emission) : Entry :=
  ⟨idIn es e, e.event_type, time e.micro, dataOf e⟩

/-- What the entry of an emission has at a key. -/
def shown (e : Emission) (key value : String) : Option String := (e.details.get? key).elim (some value) text?

/-- The filters of a query let the entry of the emission through. -/
def visible (q : Query) (e : Emission) : Bool :=
  !excludes q.eventType (some e.event_type) &&
    !(excludes q.project (shown e "project" e.project) || excludes q.hostname (shown e "hostname" e.hostname))

/-- Redis takes a start and a limit. -/
structure Accepted (start : Option Int) (limit : Int) : Prop where
  count : 1 ≤ limit ∧ limit < 2 ^ 63
  start : ∀ ms, start = some ms → 0 ≤ ms ∧ ms < 2 ^ 64

section

variable (time : Nat → String) (fromisoformat : String → Option Int) (h : History)

/-- The stream. -/
def stream : List Entry := h.emissions.foldl (emit time) []

/-- The emissions from `start` on. -/
def readFrom (start : Option Int) : List Emission :=
  h.emissions.filter fun e => start.all fun ms : Int => ms ≤ (e.micro / 1000 : Nat)

/-- Both buses return these emissions. -/
def Agree (files : List Event) (redis : Except Error (List Entry)) (l : List Emission) : Prop :=
  files = l.map Emission.event ∧ redis = .ok (l.map (entryIn time h.emissions))

/-- **The same answer** to a query: what it asks for. -/
def QueryAgrees (q : Query) : Prop :=
  Agree time h (Events.query h.files q)
    (query fromisoformat (stream time h) (.str (q.since.getD "")) q.eventType q.project q.hostname q.limit) (h.wanted q)

/-- **The same answer** after a session: what came from the end of the host's last session on. -/
def SinceAgrees (gethostname host : String) : Prop :=
  Agree time h (Events.sinceLastSession h.files gethostname (some host))
    (sinceLastSession fromisoformat (stream time h) gethostname host)
    (h.wanted { since := h.lastEnd (if host = "" then gethostname else host) })

/-- One emission at most is asked for, and it is the one that Redis lets through among the first `limit`. -/
structure Served (q : Query) : Prop where
  accepted : Accepted (startOf fromisoformat (.str (q.since.getD ""))) q.limit
  one : q.limit = 1 ∨ (h.matching q).length ≤ 1
  newest : ∀ e,
    (e ∈ (readFrom h (startOf fromisoformat (.str (q.since.getD "")))).take q.limit.toNat ∧ visible q e) ↔
      (h.matching q).getLast? = some e

/-- Where Redis begins after a session: at the time that the very first event shows, if that is the end of a session of
the host. -/
def resumed (host : String) : Option Json :=
  ((h.emissions.head?.filter (visible { eventType := some "session_end", hostname := some host })).map fun e =>
    (e.details.get? "timestamp").getD (.str (time e.micro))).filter truthy

/-- Redis begins where the last session ended, and one emission at most came since. -/
structure Resumed (host : String) : Prop where
  start : ∀ ms, (resumed time h host).bind (startOf fromisoformat) = some ms → 0 ≤ ms ∧ ms < 2 ^ 64
  same : readFrom h ((resumed time h host).bind (startOf fromisoformat)) =
    h.emissions.filter fun e => e.reaches (h.lastEnd host)
  one : (h.emissions.filter fun e => e.reaches (h.lastEnd host)).length ≤ 1

end

/-! ## The entries of a history -/

variable {time : Nat → String} {fromisoformat : String → Option Int} {h : History}

theorem idIn_append {es : List Emission} {e e' : Emission} (hlt : e'.micro < e.micro) :
    idIn (es ++ [e]) e' = idIn es e' := by
  have hnot : ¬ e.micro < e'.micro := by omega
  simp [idIn, List.countP_append, hnot]

theorem nextId_new {last : Nat × Nat} {now : Nat} (hlt : last.1 < now) : nextId (some last) now = (now, 0) := if_pos hlt

theorem nextId_same {last : Nat × Nat} {now : Nat} (hlt : ¬ last.1 < now) :
    nextId (some last) now = (last.1, last.2 + 1) := if_neg hlt

/-- The ids of a millisecond are numbered. -/
theorem nextId_last {es : List Emission} {e : Emission}
    (hrising : (es ++ [e]).Pairwise fun e e' => e.micro < e'.micro) :
    nextId (es.getLast?.map (idIn es)) (e.micro / 1000) = idIn (es ++ [e]) e := by
  rcases List.eq_nil_or_concat es with rfl | ⟨es, last, rfl⟩
  · simp [nextId, idIn]
  · rw [List.concat_eq_append] at hrising ⊢
    obtain ⟨hes, -, hbefore⟩ := List.pairwise_append.mp hrising
    obtain ⟨-, -, hlast⟩ := List.pairwise_append.mp hes
    have hle : ∀ x ∈ es, x.micro < last.micro := fun x hx => hlast x hx last (List.mem_singleton_self last)
    have hlt : last.micro < e.micro :=
      hbefore last (List.mem_append_right es (List.mem_singleton_self last)) e (List.mem_singleton_self e)
    rw [List.getLast?_append_of_ne_nil es (List.cons_ne_nil last []), List.getLast?_singleton, Option.map_some]
    by_cases hms : last.micro / 1000 < e.micro / 1000
    · rw [nextId_new hms]
      refine congrArg (Prod.mk _) (List.countP_eq_zero.mpr fun x hx hsame => ?_).symm
      have hsame := of_decide_eq_true hsame
      rcases List.mem_append.mp hx with hx | hx
      · rcases List.mem_append.mp hx with hx | hx
        · have := hle x hx
          omega
        · rw [List.mem_singleton.mp hx] at hsame
          omega
      · rw [List.mem_singleton.mp hx] at hsame
        omega
    · have heq : last.micro / 1000 = e.micro / 1000 := by omega
      have hcongr : es.countP (fun x => x.micro / 1000 = e.micro / 1000 ∧ x.micro < last.micro) =
          es.countP fun x => x.micro / 1000 = e.micro / 1000 ∧ x.micro < e.micro := by
        refine List.countP_congr fun x hx => ?_
        have := hle x hx
        simp only [decide_eq_true_iff]
        omega
      rw [nextId_same hms]
      simpa [idIn, List.countP_append, heq, hlt] using hcongr

theorem foldl_emit : ∀ {es : List Emission}, es.Pairwise (fun e e' => e.micro < e'.micro) →
    es.foldl (emit time) [] = es.map (entryIn time es) := by
  intro es
  induction es using List.reverseRecOn with
  | nil => exact fun _ => rfl
  | append_singleton es e ih =>
    intro hrising
    obtain ⟨hes, -, hbefore⟩ := List.pairwise_append.mp hrising
    have hsame : es.map (entryIn time es) = es.map (entryIn time (es ++ [e])) := by
      refine List.map_congr_left fun e' he' => ?_
      rw [entryIn, entryIn, idIn_append (hbefore e' he' e (List.mem_singleton_self e))]
    rw [List.foldl_append, ih hes, List.foldl_cons, List.foldl_nil, emit, emitEvent, List.map_append, hsame,
      List.map_singleton, ← hsame, List.getLast?_map, Option.map_map]
    have hid : nextId (es.getLast?.map (Entry.stream_id ∘ entryIn time es)) (e.micro / 1000) = idIn (es ++ [e]) e :=
      nextId_last hrising
    rw [hid, hsame]
    rfl

theorem eq_of_micro {es : List Emission} (hrising : es.Pairwise fun e e' => e.micro < e'.micro) {e e' : Emission}
    (he : e ∈ es) (he' : e' ∈ es) (hmicro : e.micro = e'.micro) : e = e' :=
  List.inj_on_of_nodup_map (List.pairwise_map.mpr (hrising.imp fun hlt => hlt.ne)) he he' hmicro

/-- A later emission of a millisecond has a greater number. -/
theorem countP_lt {es : List Emission} {e e' : Emission} (he : e ∈ es) (hms : e.micro / 1000 = e'.micro / 1000)
    (hlt : e.micro < e'.micro) : (idIn es e).2 < (idIn es e').2 := by
  simp only [idIn, List.countP_eq_length_filter, hms]
  have hsub : (es.filter fun x => x.micro / 1000 = e'.micro / 1000 ∧ x.micro < e.micro).Sublist
      (es.filter fun x => x.micro / 1000 = e'.micro / 1000 ∧ x.micro < e'.micro) := by
    refine List.monotone_filter_right es fun x hx => ?_
    obtain ⟨hxms, hxlt⟩ := of_decide_eq_true hx
    exact decide_eq_true ⟨hxms, hxlt.trans hlt⟩
  refine lt_of_le_of_ne hsub.length_le fun hlength => ?_
  have hmem : e ∈ es.filter fun x => x.micro / 1000 = e'.micro / 1000 ∧ x.micro < e'.micro :=
    List.mem_filter.mpr ⟨he, decide_eq_true ⟨hms, hlt⟩⟩
  rw [← hsub.eq_of_length hlength] at hmem
  exact lt_irrefl _ (of_decide_eq_true (List.mem_filter.mp hmem).2).2

theorem entryIn_inj {es : List Emission} (hrising : es.Pairwise fun e e' => e.micro < e'.micro) {e e' : Emission}
    (he : e ∈ es) (he' : e' ∈ es) (hentry : entryIn time es e = entryIn time es e') : e = e' := by
  have hid : idIn es e = idIn es e' := congrArg Entry.stream_id hentry
  have hms : e.micro / 1000 = e'.micro / 1000 := congrArg Prod.fst hid
  have hnumber : (idIn es e).2 = (idIn es e').2 := congrArg Prod.snd hid
  refine eq_of_micro hrising he he' (le_antisymm (not_lt.mp fun hlt => ?_) (not_lt.mp fun hlt => ?_))
  · exact (countP_lt he' hms.symm hlt).ne' hnumber
  · exact (countP_lt he hms hlt).ne hnumber

/-! ## The answers -/

section

variable {es : List Emission} {e : Emission}

/-- What the details have at a key comes before what `emit` knows. -/
theorem dict_text {key value : String} (hkey : (fieldsOf e).get? key = some (.str value)) :
    ((entryIn time es e).dict.get? key).bind text? = shown e key value := by
  rw [Entry.dict, Dict.get?_update, entryIn, dataOf, Dict.get?_update, hkey, shown]
  cases e.details.get? key <;> rfl

theorem project_shown : ((entryIn time es e).dict.get? "project").bind text? = shown e "project" e.project :=
  dict_text (by simp [fieldsOf, Dict.ofList, Dict.get?_set])

theorem hostname_shown : ((entryIn time es e).dict.get? "hostname").bind text? = shown e "hostname" e.hostname :=
  dict_text (by simp [fieldsOf, Dict.ofList, Dict.get?_set])

/-- Neither does `emit` know a time; the entry has one. -/
theorem timestamp_shown :
    (entryIn time es e).dict.get? "timestamp" = some ((e.details.get? "timestamp").getD (.str (time e.micro))) := by
  have hfields : (fieldsOf e).get? "timestamp" = none := by simp [fieldsOf, Dict.ofList, Dict.get?_set]
  have hentry : (Dict.ofList [("type", Json.str e.event_type), ("timestamp", .str (time e.micro)),
      ("stream_id", .str (toString (idIn es e).1 ++ "-" ++ toString (idIn es e).2))]).get? "timestamp" =
        some (.str (time e.micro)) := by
    simp [Dict.ofList, Dict.get?_set]
  rw [Entry.dict, Dict.get?_update, entryIn, dataOf, Dict.get?_update, hfields, hentry]
  cases e.details.get? "timestamp" <;> rfl

end

theorem stream_eq : stream time h = h.emissions.map (entryIn time h.emissions) := foldl_emit h.rising

theorem query_accepted {since : Json} {limit : Int} (hacc : Accepted (startOf fromisoformat since) limit) (q : Query) :
    query fromisoformat (stream time h) since q.eventType q.project q.hostname limit =
      .ok ((((readFrom h (startOf fromisoformat since)).take limit.toNat).filter (visible q)).map
        (entryIn time h.emissions)) := by
  have hstart : ¬ (2 ^ 63 ≤ limit ∨ (startOf fromisoformat since).any (fun ms => ms < 0 ∨ 2 ^ 64 ≤ ms) = true) := by
    rintro (hlimit | hstart)
    · exact absurd hacc.count.2 (not_lt.mpr hlimit)
    · obtain ⟨ms, hms, hbad⟩ := (Option.any_eq_true _ _).mp hstart
      have := hacc.start ms hms
      have := of_decide_eq_true hbad
      omega
  have hread : (h.emissions.map (entryIn time h.emissions)).filter
      (fun e => (startOf fromisoformat since).all (· ≤ e.stream_id.1)) =
        (readFrom h (startOf fromisoformat since)).map (entryIn time h.emissions) := List.filter_map
  rw [query, queryEvents, xrange, if_neg (not_lt.mpr hacc.count.1), if_neg hstart, stream_eq, hread, ← List.map_take]
  simp only [Except.map, List.filter_map, List.filter_filter, Function.comp_def, project_shown, hostname_shown]
  congr 3
  funext e
  exact Bool.and_comm _ _

theorem query_refused {since : Json} {limit : Int} (hnot : ¬ Accepted (startOf fromisoformat since) limit)
    (event_type project hostname_filter : Option String) (l : List Entry) :
    query fromisoformat (stream time h) since event_type project hostname_filter limit ≠ .ok l := by
  rw [query, queryEvents, xrange]
  by_cases hcount : limit < 1
  · rw [if_pos hcount]
    exact fun heq => by cases heq
  rw [if_neg hcount]
  by_cases hstart : 2 ^ 63 ≤ limit ∨ (startOf fromisoformat since).any (fun ms => ms < 0 ∨ 2 ^ 64 ≤ ms) = true
  · rw [if_pos hstart]
    exact fun heq => by cases heq
  · refine absurd ⟨⟨not_lt.mp hcount, not_le.mp fun hlimit => hstart (.inl hlimit)⟩, fun ms hms => ?_⟩ hnot
    by_contra hbad
    exact hstart (.inr ((Option.any_eq_true _ _).mpr ⟨ms, hms, decide_eq_true (by omega)⟩))

/-- **Opposite orders.** Two lists in opposite orders are equal if they have the same members, and one at most. -/
theorem eq_flip_iff {α : Type} {r : α → α → Prop} (hasymm : ∀ a b, r a b → ¬ r b a) {l l' : List α}
    (h : l.Pairwise r) (h' : l'.Pairwise fun a b => r b a) : l = l' ↔ l'.length ≤ 1 ∧ ∀ a, a ∈ l ↔ a ∈ l' := by
  constructor
  · rintro rfl
    refine ⟨not_lt.mp fun hlength => ?_, fun a => Iff.rfl⟩
    have hsame := List.pairwise_iff_getElem.mp h 0 1 (by omega) hlength (by omega)
    exact hasymm _ _ hsame (List.pairwise_iff_getElem.mp h' 0 1 (by omega) hlength (by omega))
  · rintro ⟨hlength, hmem⟩
    have hone : l'.Pairwise r := by
      cases l' with
      | nil => exact .nil
      | cons a rest =>
        cases rest with
        | nil => exact List.pairwise_singleton r a
        | cons b rest =>
          rw [List.length_cons, List.length_cons] at hlength
          omega
    have hirrefl : Std.Irrefl r := ⟨fun a ha => hasymm a a ha ha⟩
    have hantisymm : Std.Antisymm r := ⟨fun a b hab hba => absurd hba (hasymm a b hab)⟩
    exact h.eq_of_mem_iff hone hmem

/-- What a query asks for is one emission at most. -/
theorem wanted_le_one {q : Query} (hlimit : 1 ≤ q.limit) :
    (h.wanted q).length ≤ 1 ↔ q.limit = 1 ∨ (h.matching q).length ≤ 1 := by
  rw [History.wanted, List.length_take, List.length_reverse]
  omega

theorem mem_take_iff {α : Type} : ∀ {l : List α} {n : Nat}, 1 ≤ n → (l.take n).length ≤ 1 →
    ∀ a, a ∈ l.take n ↔ l.head? = some a
  | [], n, _, _, a => by simp
  | x :: l, n + 1, _, hone, a => by
    rw [List.take_succ_cons, List.length_cons] at hone
    have hrest : l.take n = [] := List.length_eq_zero_iff.mp (by omega)
    rw [List.take_succ_cons, hrest, List.mem_singleton, List.head?_cons, Option.some_inj]
    exact eq_comm

theorem mem_wanted {q : Query} (hlimit : 1 ≤ q.limit) (hone : (h.wanted q).length ≤ 1) (e : Emission) :
    e ∈ h.wanted q ↔ (h.matching q).getLast? = some e := by
  rw [History.wanted, mem_take_iff (by omega) hone, List.head?_reverse]

theorem map_inj_mem {α β : Type} {f : α → β} {s : List α} (hinj : ∀ a ∈ s, ∀ b ∈ s, f a = f b → a = b) :
    ∀ {l l' : List α}, l ⊆ s → l' ⊆ s → l.map f = l'.map f → l = l'
  | [], [], _, _, _ => rfl
  | a :: l, b :: l', hl, hl', hmap => by
    rw [List.map_cons, List.map_cons, List.cons.injEq] at hmap
    obtain ⟨ha, hl⟩ := List.cons_subset.mp hl
    obtain ⟨hb, hl'⟩ := List.cons_subset.mp hl'
    rw [hinj a ha b hb hmap.1, map_inj_mem hinj hl hl' hmap.2]

/-- The same emissions in both answers. -/
theorem agree_iff {files : List Event} {l l' : List Emission} (hfiles : files = l'.map Emission.event)
    (hl : l.Sublist h.emissions) (hl' : l'.Sublist h.emissions.reverse) :
    Agree time h files (.ok (l.map (entryIn time h.emissions))) l' ↔ l = l' := by
  constructor
  · rintro ⟨-, hentries⟩
    have hmap : l.map (entryIn time h.emissions) = l'.map (entryIn time h.emissions) := Except.ok.inj hentries
    exact map_inj_mem (fun a ha b hb => entryIn_inj h.rising ha hb) hl.subset
      (fun e he => List.mem_reverse.mp (hl'.subset he)) hmap
  · rintro rfl
    exact ⟨hfiles, rfl⟩

/-- Redis's emissions are in the order of the history, those of the other bus in the opposite order. -/
theorem eq_wanted_iff {l l' : List Emission} (hl : l.Sublist h.emissions) (hl' : l'.Sublist h.emissions.reverse) :
    l = l' ↔ l'.length ≤ 1 ∧ ∀ e, e ∈ l ↔ e ∈ l' :=
  eq_flip_iff (fun _ _ hab hba => lt_asymm hab hba) (h.rising.sublist hl) (h.falling.sublist hl')

theorem wanted_sublist (q : Query) : (h.wanted q).Sublist h.emissions.reverse :=
  (List.take_sublist _ _).trans List.filter_sublist.reverse

theorem take_sublist_of_readFrom (start : Option Int) (n : Nat) :
    ((readFrom h start).take n).Sublist h.emissions := (List.take_sublist _ _).trans List.filter_sublist

/-- **When a query gets the same answer.** -/
theorem query_iff (q : Query) : QueryAgrees time fromisoformat h q ↔ Served fromisoformat h q := by
  by_cases hacc : Accepted (startOf fromisoformat (.str (q.since.getD ""))) q.limit
  · have hsub := @take_sublist_of_readFrom h (startOf fromisoformat (.str (q.since.getD ""))) q.limit.toNat
    rw [QueryAgrees, query_accepted hacc,
      agree_iff (h.query_files q) (List.filter_sublist.trans hsub) (wanted_sublist q),
      eq_wanted_iff (List.filter_sublist.trans hsub) (wanted_sublist q), wanted_le_one hacc.count.1]
    constructor
    · rintro ⟨hone, hmem⟩
      refine ⟨hacc, hone, fun e => ?_⟩
      rw [← mem_wanted hacc.count.1 ((wanted_le_one hacc.count.1).mpr hone), ← hmem e, List.mem_filter]
    · rintro ⟨-, hone, hnewest⟩
      refine ⟨hone, fun e => ?_⟩
      rw [mem_wanted hacc.count.1 ((wanted_le_one hacc.count.1).mpr hone), ← hnewest e, List.mem_filter]
  · exact ⟨fun hagree => absurd hagree.2 (query_refused hacc _ _ _ _), fun hserved => absurd hserved.accepted hacc⟩

theorem take_le_one {α : Type} {l : List α} {n : Nat} (hn : 2 ≤ n) : (l.take n).length ≤ 1 ↔ l.length ≤ 1 := by
  rw [List.length_take]
  omega

theorem take_of_one {α : Type} {l : List α} {n : Nat} (hn : 2 ≤ n) (hone : l.length ≤ 1) : l.take n = l :=
  List.take_of_length_le (by omega)

theorem visible_all (since : Option String) (limit : Int) (e : Emission) :
    visible { since := since, limit := limit } e = true := rfl

theorem getLast?_filter_one {α β : Type} (p : α → Bool) (f : α → β) (l : List α) :
    (((l.take 1).filter p).map f).getLast? = (l.head?.filter p).map f := by
  cases l with
  | nil => rfl
  | cons a l =>
    rw [List.take_succ_cons, List.take_zero, List.head?_cons, List.filter_singleton, Option.filter_some]
    cases p a <;> rfl

theorem readFrom_none : readFrom h none = h.emissions := List.filter_eq_self.mpr fun _ _ => rfl

/-- What Redis reads after a session. -/
theorem sinceLastSession_eq (gethostname host : String) :
    ∃ limit : Int, (limit = 100 ∨ limit = 50) ∧
      sinceLastSession fromisoformat (stream time h) gethostname host =
        query fromisoformat (stream time h) ((resumed time h (if host = "" then gethostname else host)).getD (.str ""))
          none none none limit := by
  generalize hhost : (if host = "" then gethostname else host) = host'
  have hnone : startOf fromisoformat (.str "") = none := rfl
  have hacc : Accepted (startOf fromisoformat (.str "")) 1 := by
    rw [hnone]
    exact ⟨⟨le_rfl, by norm_num⟩, fun ms hms => by cases hms⟩
  have hfirst : query fromisoformat (stream time h) (.str "") (some "session_end") none (some host') 1 =
      .ok (((h.emissions.take 1).filter (visible { eventType := some "session_end", hostname := some host' })).map
        (entryIn time h.emissions)) := by
    have hquery := @query_accepted time fromisoformat h (.str "") 1 hacc
      { eventType := some "session_end", hostname := some host' }
    rw [hnone, readFrom_none] at hquery
    exact hquery
  have hlast : (((((h.emissions.take 1).filter
      (visible { eventType := some "session_end", hostname := some host' })).map (entryIn time h.emissions)).getLast?.map
        fun evt => (evt.dict.get? "timestamp").getD (.str "")).filter truthy) = resumed time h host' := by
    rw [getLast?_filter_one, Option.map_map]
    simp only [Function.comp_def, timestamp_shown, Option.getD_some]
    rfl
  simp only [sinceLastSession, hhost]
  rw [hfirst]
  simp only [bind, Except.bind, hlast]
  cases resumed time h host' with
  | none => exact ⟨50, .inr rfl, rfl⟩
  | some last_ts => exact ⟨100, .inl rfl, rfl⟩

theorem wanted_since (since : Option String) :
    h.wanted { since := since } = (h.emissions.filter fun e => e.reaches since).reverse.take 100 := by
  have hmatching : h.matching { since := since } = h.emissions.filter fun e => e.reaches since :=
    List.filter_congr fun e _ => Bool.and_true (e.reaches since)
  rw [History.wanted, hmatching]
  rfl

theorem reverse_of_one {α : Type} {l : List α} (hone : l.length ≤ 1) : l.reverse = l := by
  cases l with
  | nil => rfl
  | cons a l =>
    have hnil : l = [] := List.length_eq_zero_iff.mp (by simpa using hone)
    rw [hnil, List.reverse_singleton]

/-- **When a session gets the same answer.** -/
theorem sinceLastSession_iff (gethostname host : String) :
    SinceAgrees time fromisoformat h gethostname host ↔
      Resumed time fromisoformat h (if host = "" then gethostname else host) := by
  obtain ⟨limit, hlimit, hredis⟩ := @sinceLastSession_eq time fromisoformat h gethostname host
  have hfiles := @History.sinceLastSession_files h gethostname (some host)
  have hargument : ((some host).filter (· ≠ "")).getD gethostname = if host = "" then gethostname else host := by
    by_cases hempty : host = "" <;> simp [hempty, Option.filter_some]
  rw [hargument] at hfiles
  rw [SinceAgrees, hredis]
  generalize (if host = "" then gethostname else host) = host' at hfiles ⊢
  have hstart : startOf fromisoformat ((resumed time h host').getD (.str "")) =
      (resumed time h host').bind (startOf fromisoformat) := by
    cases resumed time h host' <;> rfl
  have htwo : 2 ≤ limit.toNat := by omega
  by_cases hacc : ∀ ms, (resumed time h host').bind (startOf fromisoformat) = some ms → 0 ≤ ms ∧ ms < 2 ^ 64
  · have hread : query fromisoformat (stream time h) ((resumed time h host').getD (.str "")) none none none limit =
        .ok (((readFrom h ((resumed time h host').bind (startOf fromisoformat))).take limit.toNat).map
          (entryIn time h.emissions)) := by
      have hquery := @query_accepted time fromisoformat h ((resumed time h host').getD (.str "")) limit
        ⟨⟨by omega, by omega⟩, by rwa [hstart]⟩ {}
      rw [hstart, List.filter_eq_self.mpr fun e _ => visible_all none 100 e] at hquery
      exact hquery
    have hsub := @take_sublist_of_readFrom h ((resumed time h host').bind (startOf fromisoformat)) limit.toNat
    rw [hread, agree_iff hfiles hsub (wanted_sublist _)]
    constructor
    · intro heq
      have hone := ((eq_wanted_iff hsub (wanted_sublist _)).mp heq).1
      have hspan : (h.emissions.filter fun e => e.reaches (h.lastEnd host')).length ≤ 1 := by
        rwa [wanted_since, take_le_one (by decide), List.length_reverse] at hone
      rw [← heq, take_le_one htwo] at hone
      rw [take_of_one htwo hone, wanted_since, reverse_of_one hspan,
        take_of_one (by decide) hspan] at heq
      exact ⟨hacc, heq, hspan⟩
    · intro hresumed
      have hone := hresumed.one
      rw [hresumed.same, take_of_one htwo hone, wanted_since, reverse_of_one hone,
        take_of_one (by decide) hone]
  · have hrefused : ¬ Accepted (startOf fromisoformat ((resumed time h host').getD (.str ""))) limit := by
      rw [hstart]
      exact fun haccepted => hacc haccepted.start
    exact ⟨fun hagree => absurd hagree.2 (query_refused hrefused _ _ _ _),
      fun hresumed => absurd hresumed.start hacc⟩

/-- **A drop-in replacement**, exactly where one event at most is asked for, and Redis finds it too. -/
theorem dropIn_iff (time : Nat → String) (fromisoformat : String → Option Int) (h : History) :
    (∀ q, QueryAgrees time fromisoformat h q ↔ Served fromisoformat h q) ∧
      ∀ gethostname host, SinceAgrees time fromisoformat h gethostname host ↔
        Resumed time fromisoformat h (if host = "" then gethostname else host) :=
  ⟨query_iff, sinceLastSession_iff⟩

/-! ## Two commits -/

/-- The `n`-th commit of a process. -/
def commit (n : Nat) : Emission := ⟨"commit", "/opt/p", .empty, "", "a", 1, n, 1700000000000000 + n * 1000000⟩

/-- Two commits. -/
def twoCommits : History where
  emissions := [commit 1, commit 2]
  rising := by decide
  dated := by decide

/-- The text of a whole second, and the milliseconds of a text. -/
def wholeSecond (micro : Nat) : String := toString (micro / 1000000) ++ ".0"

/-- The milliseconds of a text with an offset. -/
def milliseconds (text : String) : Option Int := (fromIsoFormat text.toList).map (· * 1000)

/-- Everything is asked for, and Redis returns the older commit first. -/
theorem backwards : ¬ QueryAgrees wholeSecond milliseconds twoCommits {} := by
  rw [query_iff]
  intro hserved
  exact absurd hserved.one (by decide)

end ClaudeSwarm.EventsRedis
