import Mathlib.Data.List.Count
import Mathlib.Data.List.Sort
import Mathlib.Data.String.Basic

/-!
# The consumer of events

Model of `query` and `EventConsumer` (`src/events.py`). Events are files named after the moment they were
written; `query` reads them newest first. `EventConsumer` keeps the last sequence number it has seen of each
agent and drops what is not above it, so an event that comes after a later one of its agent is taken for a
duplicate.

* `process_append`: a consumer sees the batches as one stream.
* `mark_spec`: the mark of an agent is the highest number of the agent in the stream.
* `count_tracked`: an event is delivered once if it first comes above the mark, and otherwise not at all.
* **`deliveredOnce_iff`**: every event is delivered exactly once if and only if each agent's events first come in
  the order of their numbers, which are positive, and an event without agent or number comes once.
* `process_falling`: of a stream in descending order only the newest event of each agent is delivered.
-/

namespace ClaudeSwarm.Events

/-- An event, as far as it is read. -/
structure Event where
  type : Option String
  timestamp : Option String
  hostname : Option String
  project : Option String
  agentId : Option String
  sequence : Option Int
  deriving DecidableEq

/-- `event.get("agent_id", "")`. -/
def Event.agent (e : Event) : String := e.agentId.getD ""

/-- `event.get("sequence", 0)`. -/
def Event.seq (e : Event) : Int := e.sequence.getD 0

/-- The event has an agent and a sequence number. -/
def Event.Tracked (e : Event) : Prop := e.agent ≠ "" ∧ e.seq ≠ 0

instance (e : Event) : Decidable e.Tracked := inferInstanceAs (Decidable (_ ∧ _))

/-! ## `query` -/

/-- A file of the event bus; one that is not JSON is not read. -/
structure File where
  name : String
  event : Option Event

/-- The arguments of `query`. -/
structure Query where
  since : Option String := none
  eventType : Option String := none
  project : Option String := none
  hostname : Option String := none
  limit : Int := 100

/-- `arg and value != arg`. -/
def excludes (arg value : Option String) : Bool := (arg.filter (· ≠ "")).isSome && value != arg

/-- The loop of `query`, with `room` events to go. -/
def collect (q : Query) : Nat → List File → List Event
  | 0, _ => []
  | _, [] => []
  | room + 1, f :: files =>
    match f.event with
    | none => collect q (room + 1) files
    | some event =>
      if (q.since.filter (· ≠ "")).any fun since => event.timestamp.getD "" < since then []
      else if excludes q.eventType event.type || excludes q.project event.project
          || excludes q.hostname event.hostname then collect q (room + 1) files
      else event :: collect q room files

/-- `query`. -/
def query (files : List File) (q : Query) : List Event :=
  collect q q.limit.toNat (files.insertionSort fun f g => g.name ≤ f.name)

/-! ## `EventConsumer` -/

/-- `_last_seen`. -/
abbrev LastSeen := String → Option Int

/-- `process`: the new events, and what has been seen after them. -/
def process (last_seen : LastSeen) : List Event → List Event × LastSeen
  | [] => ([], last_seen)
  | event :: events =>
    if event.agent = "" ∨ event.seq = 0 then
      let (new_events, seen) := process last_seen events
      (event :: new_events, seen)
    else if event.seq > (last_seen event.agent).getD 0 then
      let (new_events, seen) := process (Function.update last_seen event.agent (some event.seq)) events
      (event :: new_events, seen)
    else process last_seen events

/-- What `process` returns for one batch after the other. -/
def processEach (last_seen : LastSeen) : List (List Event) → List (List Event)
  | [] => []
  | batch :: batches =>
    let (new_events, seen) := process last_seen batch
    new_events :: processEach seen batches

/-- What a consumer that has seen nothing returns. -/
def returned (batches : List (List Event)) : List (List Event) := processEach (fun _ => none) batches

/-- Every event is in exactly one of the returned lists, once. -/
def DeliveredOnce (batches : List (List Event)) : Prop :=
  ∀ e ∈ batches.flatten, (returned batches).flatten.count e = 1

/-- The numbers of an agent's events are positive, and an event first comes after events with lower numbers only;
an event without agent or number comes once. -/
structure InOrder (stream : List Event) : Prop where
  tracked : ∀ before e after, stream = before ++ e :: after → e ∉ before → e.Tracked →
    0 < e.seq ∧ ∀ e' ∈ before, e'.Tracked → e'.agent = e.agent → e'.seq < e.seq
  untracked : ∀ e ∈ stream, ¬ e.Tracked → stream.count e = 1

/-! ## The stream -/

section

variable {seen : LastSeen} {e : Event} {stream : List Event}

theorem process_cons_untracked (h : ¬ e.Tracked) :
    process seen (e :: stream) = (e :: (process seen stream).1, (process seen stream).2) := by
  rw [Event.Tracked, not_and_or, not_not, not_not] at h
  rw [process, if_pos h]

theorem process_cons_new (h : e.Tracked) (hnew : (seen e.agent).getD 0 < e.seq) :
    process seen (e :: stream) =
      (e :: (process (Function.update seen e.agent (some e.seq)) stream).1,
        (process (Function.update seen e.agent (some e.seq)) stream).2) := by
  rw [process, if_neg (not_or.mpr h), if_pos hnew]

theorem process_cons_old (h : e.Tracked) (hold : ¬ (seen e.agent).getD 0 < e.seq) :
    process seen (e :: stream) = process seen stream := by
  rw [process, if_neg (not_or.mpr h), if_neg hold]

/-- A consumer sees the batches as one stream. -/
theorem process_append : ∀ (seen : LastSeen) (l l' : List Event),
    process seen (l ++ l') =
      ((process seen l).1 ++ (process (process seen l).2 l').1, (process (process seen l).2 l').2)
  | seen, [], l' => rfl
  | seen, e :: l, l' => by
    rw [List.cons_append]
    by_cases h : e.Tracked
    · by_cases hnew : (seen e.agent).getD 0 < e.seq
      · rw [process_cons_new h hnew, process_cons_new h hnew, process_append _ l l']
        rfl
      · rw [process_cons_old h hnew, process_cons_old h hnew, process_append seen l l']
    · rw [process_cons_untracked h, process_cons_untracked h, process_append seen l l']
      rfl

theorem processEach_flatten : ∀ (batches : List (List Event)) (seen : LastSeen),
    (processEach seen batches).flatten = (process seen batches.flatten).1
  | [], seen => rfl
  | batch :: batches, seen => by
    rw [List.flatten_cons, process_append, ← processEach_flatten batches]
    rfl

/-- An event without agent or number is returned as often as it comes. -/
theorem count_untracked (h : ¬ e.Tracked) : ∀ (stream : List Event) (seen : LastSeen),
    (process seen stream).1.count e = stream.count e
  | [], seen => rfl
  | e' :: stream, seen => by
    by_cases ht : e'.Tracked
    · have hne : e' ≠ e := fun he => h (he ▸ ht)
      rw [List.count_cons_of_ne hne]
      by_cases hnew : (seen e'.agent).getD 0 < e'.seq
      · rw [process_cons_new ht hnew, List.count_cons_of_ne hne, count_untracked h stream]
      · rw [process_cons_old ht hnew, count_untracked h stream]
    · rw [process_cons_untracked ht, List.count_cons, List.count_cons, count_untracked h stream]

/-- **Marks.** What a stream leaves as the mark of an agent is the mark before it, or the number of one of the
agent's events that is above it; no event of the agent is above the new mark. -/
theorem mark_spec : ∀ (stream : List Event) (seen : LastSeen) (agent : String),
    let mark := ((process seen stream).2 agent).getD 0
    (seen agent).getD 0 ≤ mark ∧ (∀ e ∈ stream, e.Tracked → e.agent = agent → e.seq ≤ mark) ∧
      (mark = (seen agent).getD 0 ∨ ∃ e ∈ stream, e.Tracked ∧ e.agent = agent ∧ mark = e.seq)
  | [], seen, agent => ⟨Int.le_refl _, by simp, Or.inl rfl⟩
  | e :: stream, seen, agent => by
    dsimp only
    by_cases ht : e.Tracked
    · by_cases hnew : (seen e.agent).getD 0 < e.seq
      · rw [process_cons_new ht hnew]
        obtain ⟨hle, hall, hmax⟩ := mark_spec stream (Function.update seen e.agent (some e.seq)) agent
        dsimp only at hle hall hmax ⊢
        by_cases hagent : agent = e.agent
        · subst hagent
          rw [Function.update_self, Option.getD_some] at hle hmax
          refine ⟨by omega, fun e' he' ht' ha => ?_, ?_⟩
          · rcases List.mem_cons.mp he' with rfl | he'
            · exact hle
            · exact hall e' he' ht' ha
          · rcases hmax with hmax | ⟨e', he', h⟩
            · exact Or.inr ⟨e, List.mem_cons_self, ht, rfl, hmax⟩
            · exact Or.inr ⟨e', List.mem_cons_of_mem _ he', h⟩
        · rw [Function.update_of_ne hagent] at hle hmax
          refine ⟨hle, fun e' he' ht' ha => ?_, hmax.imp id fun ⟨e', he', h⟩ => ⟨e', List.mem_cons_of_mem _ he', h⟩⟩
          rcases List.mem_cons.mp he' with rfl | he'
          · exact absurd ha.symm hagent
          · exact hall e' he' ht' ha
      · rw [process_cons_old ht hnew]
        obtain ⟨hle, hall, hmax⟩ := mark_spec stream seen agent
        refine ⟨hle, fun e' he' ht' ha => ?_, hmax.imp id fun ⟨e', he', h⟩ => ⟨e', List.mem_cons_of_mem _ he', h⟩⟩
        rcases List.mem_cons.mp he' with rfl | he'
        · rw [ha] at hnew
          omega
        · exact hall e' he' ht' ha
    · rw [process_cons_untracked ht]
      obtain ⟨hle, hall, hmax⟩ := mark_spec stream seen agent
      refine ⟨hle, fun e' he' ht' ha => ?_, hmax.imp id fun ⟨e', he', h⟩ => ⟨e', List.mem_cons_of_mem _ he', h⟩⟩
      rcases List.mem_cons.mp he' with rfl | he'
      · exact absurd ht' ht
      · exact hall e' he' ht' ha

/-- What is not above the mark is not returned. -/
theorem count_of_mark (ht : e.Tracked) : ∀ (stream : List Event) (seen : LastSeen),
    e.seq ≤ (seen e.agent).getD 0 → (process seen stream).1.count e = 0
  | [], seen, _ => rfl
  | e' :: stream, seen, hle => by
    by_cases ht' : e'.Tracked
    · by_cases hnew : (seen e'.agent).getD 0 < e'.seq
      · have hne : e' ≠ e := by
          rintro rfl
          omega
        rw [process_cons_new ht' hnew, List.count_cons_of_ne hne]
        refine count_of_mark ht stream _ ?_
        by_cases ha : e.agent = e'.agent
        · rw [ha, Function.update_self, Option.getD_some]
          rw [ha] at hle
          omega
        · rwa [Function.update_of_ne ha]
      · rw [process_cons_old ht' hnew]
        exact count_of_mark ht stream seen hle
    · rw [process_cons_untracked ht', List.count_cons_of_ne (by rintro rfl; exact ht' ht)]
      exact count_of_mark ht stream seen hle

/-- What is returned was given. -/
theorem sublist_process : ∀ (stream : List Event) (seen : LastSeen), (process seen stream).1.Sublist stream
  | [], _ => List.Sublist.refl _
  | e :: stream, seen => by
    by_cases ht : e.Tracked
    · by_cases hnew : (seen e.agent).getD 0 < e.seq
      · rw [process_cons_new ht hnew]
        exact (sublist_process stream _).cons_cons e
      · rw [process_cons_old ht hnew]
        exact (sublist_process stream seen).cons e
    · rw [process_cons_untracked ht]
      exact (sublist_process stream seen).cons_cons e

/-- **Once or never.** An event is returned once if it first comes above the mark, and otherwise not at all. -/
theorem count_tracked {before after : List Event} (ht : e.Tracked) (hfirst : e ∉ before) :
    (process seen (before ++ e :: after)).1.count e =
      if ((process seen before).2 e.agent).getD 0 < e.seq then 1 else 0 := by
  have hbefore : (process seen before).1.count e = 0 :=
    List.count_eq_zero.mpr fun h => hfirst ((sublist_process before seen).subset h)
  rw [process_append, List.count_append, hbefore, Nat.zero_add]
  split
  · rename_i hnew
    rw [process_cons_new ht hnew, List.count_cons_self, count_of_mark ht]
    rw [Function.update_self, Option.getD_some]
  · rename_i hold
    rw [process_cons_old ht hold, count_of_mark ht]
    omega

/-- The mark of a new consumer is below a number that is positive and above those before it. -/
theorem mark_lt_iff {before : List Event} :
    ((process (fun _ => none) before).2 e.agent).getD 0 < e.seq ↔
      0 < e.seq ∧ ∀ e' ∈ before, e'.Tracked → e'.agent = e.agent → e'.seq < e.seq := by
  obtain ⟨hle, hall, hmax⟩ := mark_spec before (fun _ => none) e.agent
  rw [Option.getD_none] at hle hmax
  constructor
  · intro h
    exact ⟨by omega, fun e' he' ht' ha => Int.lt_of_le_of_lt (hall e' he' ht' ha) h⟩
  · rintro ⟨hpos, hlow⟩
    rcases hmax with hmax | ⟨e', he', ht', ha, hmax⟩
    · rw [hmax]
      exact hpos
    · rw [hmax]
      exact hlow e' he' ht' ha

end

/-- **Delivered once.** -/
theorem deliveredOnce_iff (batches : List (List Event)) : DeliveredOnce batches ↔ InOrder batches.flatten := by
  unfold DeliveredOnce returned
  rw [processEach_flatten]
  generalize batches.flatten = stream
  constructor
  · intro h
    refine ⟨fun before e after hs hfirst ht => ?_, fun e he ht => ?_⟩
    · subst hs
      have hone := h e (by simp)
      rw [count_tracked ht hfirst] at hone
      split at hone
      · exact mark_lt_iff.mp ‹_›
      · cases hone
    · rw [← count_untracked ht]
      exact h e he
  · intro h e he
    by_cases ht : e.Tracked
    · obtain ⟨before, after, rfl, hfirst⟩ := List.eq_append_cons_of_mem he
      rw [count_tracked ht hfirst, if_pos (mark_lt_iff.mpr (h.tracked before e after rfl hfirst ht))]
    · rw [count_untracked ht]
      exact h.untracked e he ht

/-! ## Newest first -/

/-- None of its agent in the stream has a higher number. -/
abbrev Event.Newest (e : Event) (stream : List Event) : Prop := ∀ e' ∈ stream, e'.agent = e.agent → e'.seq ≤ e.seq

/-- In descending order only the newest event of each agent is delivered, if it is above the mark. -/
theorem process_falling : ∀ {stream : List Event} {seen : LastSeen}, (∀ e ∈ stream, e.Tracked) →
    (stream.Pairwise fun e e' => e.agent = e'.agent → e'.seq < e.seq) →
    (process seen stream).1 = stream.filter fun e => e.Newest stream ∧ (seen e.agent).getD 0 < e.seq
  | [], seen, _, _ => rfl
  | e :: stream, seen, htracked, hdesc => by
    have ht := htracked e List.mem_cons_self
    have hrest : ∀ e' ∈ stream, e'.Tracked := fun e' he' => htracked e' (List.mem_cons_of_mem _ he')
    obtain ⟨hlow, hdesc⟩ := List.pairwise_cons.mp hdesc
    have hnewest : e.Newest (e :: stream) := List.forall_mem_cons.mpr ⟨fun _ => le_refl _, fun e' he' ha =>
      (hlow e' he' ha.symm).le⟩
    by_cases hnew : (seen e.agent).getD 0 < e.seq
    · rw [process_cons_new ht hnew, List.filter_cons, if_pos (decide_eq_true ⟨hnewest, hnew⟩),
        process_falling hrest hdesc]
      refine congrArg _ (List.filter_congr fun x hx => decide_eq_decide.mpr ?_)
      by_cases ha : e.agent = x.agent
      · -- the mark is now the number of `e`, and `x` is below both
        have := hlow x hx ha
        rw [← ha, Function.update_self, Option.getD_some]
        exact ⟨fun h => absurd h.2 (by omega), fun h => absurd (h.1 e List.mem_cons_self ha) (by omega)⟩
      · rw [Function.update_of_ne (Ne.symm ha), Event.Newest, Event.Newest, List.forall_mem_cons]
        exact and_congr_left' ⟨fun h => ⟨fun h' => absurd h' ha, h⟩, And.right⟩
    · rw [process_cons_old ht hnew, List.filter_cons, if_neg (by simp [hnew]), process_falling hrest hdesc]
      refine List.filter_congr fun x hx => decide_eq_decide.mpr (and_congr_left fun hx' => ?_)
      rw [Event.Newest, Event.Newest, List.forall_mem_cons]
      refine ⟨fun h => ⟨fun ha => ?_, h⟩, And.right⟩
      rw [← ha] at hx'
      omega

/-- The event number `n` of an agent. -/
def eventOf (n : Int) : Event := ⟨some "commit", some "2026-01-01T00:00:00", some "h", some "", some "h-1", some n⟩

/-- The files of two events of an agent. -/
def twoFiles : List File :=
  [⟨"20260101T000001-h-1.json", some (eventOf 1)⟩, ⟨"20260101T000002-h-1.json", some (eventOf 2)⟩]

theorem older_lost : ¬ ∀ batches : List (List Event),
    (∀ e ∈ batches.flatten, ∀ e' ∈ batches.flatten, (e.agent, e.seq) = (e'.agent, e'.seq) → e = e') →
      DeliveredOnce batches := by
  intro h
  have hquery : [query twoFiles {}] = [[eventOf 2, eventOf 1]] := by decide +kernel
  have hall := h [query twoFiles {}]
  rw [hquery] at hall
  exact absurd (hall (by decide) (eventOf 1) (by decide)) (by decide)

end ClaudeSwarm.Events
