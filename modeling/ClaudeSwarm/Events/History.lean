import ClaudeSwarm.Data.CalendarOrder
import ClaudeSwarm.Data.Dict
import ClaudeSwarm.Data.Json
import ClaudeSwarm.Events.Consumer

/-!
# The event bus over a history

Model of `emit` and `since_last_session` of `src/events.py`, with `query` of the consumer's model. A history is what has
been emitted since the last rotation: each emission has a moment of its own, which its file is named after. The schema of
the details, which no query reads, is left out.

* `collect_falling`: the loop of `query` over files in order: its `break` drops nothing that passes;
  `collect_break`: what it drops otherwise.
* `newest_first`: the order of the files' names is that of the moments.
* **`query_files`**: `query` returns the newest events that pass all filters, newest first.
* `lastEnd_files`: the moment that `since_last_session` asks from.
* **`process_files`**: what a consumer makes of what `query` returns.
-/

namespace ClaudeSwarm.Events

open Data

/-- An event that is emitted: the arguments of `emit`, with no details as an empty dictionary, and what it reads of the
host, the process and the clock, in microseconds. -/
structure Emission where
  event_type : String
  project : String
  details : Dict String Json
  agent_id : String
  hostname : String
  pid : Nat
  sequence : Nat
  micro : Nat

namespace Emission

variable (e : Emission)

/-- `_now_iso`. -/
def timestamp : String := .ofList (isoFormat (e.micro / 1000000))

/-- `_event_filename`. -/
def filename : String :=
  .ofList (stampFormat e.micro ("-" ++ e.hostname ++ "-" ++ toString e.pid ++ ".json").toList)

/-- What `emit` writes. -/
def event : Event where
  type := some e.event_type
  timestamp := some e.timestamp
  hostname := some e.hostname
  project := some e.project
  agentId := some (if e.agent_id = "" then e.hostname ++ "-" ++ toString e.pid else e.agent_id)
  sequence := some e.sequence

/-- The file that `emit` adds. -/
def file : File := ⟨e.filename, some e.event⟩

/-- The filters of a query let the event through. -/
def passes (q : Query) : Bool :=
  !(excludes q.eventType (some e.event_type) || excludes q.project (some e.project) ||
    excludes q.hostname (some e.hostname))

/-- The event is not before `since`. -/
def reaches (since : Option String) : Bool := !(since.filter (· ≠ "")).any fun since => e.timestamp < since

end Emission

/-- The event is not before `since`, and the filters of the query let it through. -/
def Event.meets (q : Query) (event : Event) : Bool :=
  !(q.since.filter (· ≠ "")).any (fun since => event.timestamp.getD "" < since) &&
    !(excludes q.eventType event.type || excludes q.project event.project || excludes q.hostname event.hostname)

/-- `last_end` of `since_last_session`. -/
def lastEnd (files : List File) (host : String) : Option String :=
  (((files.insertionSort fun f g => g.name ≤ f.name).filterMap File.event).find? fun event =>
    event.type = some "session_end" ∧ event.hostname = some host).bind Event.timestamp

/-- `since_last_session`. -/
def sinceLastSession (files : List File) (gethostname : String) (hostname : Option String) : List Event :=
  query files { since := lastEnd files ((hostname.filter (· ≠ "")).getD gethostname) }

/-- What has been emitted, oldest first. -/
structure History where
  emissions : List Emission
  rising : emissions.Pairwise fun e e' => e.micro < e'.micro
  dated : ∀ e ∈ emissions, e.micro < 253402300800000000

/-! ## The loop of `query` -/

/-- What comes after an event that is before `since` is before it too. -/
theorem any_mono {since : Option String} {x y : String} (hle : y ≤ x)
    (h : since.any (fun since => x < since) = true) : since.any (fun since => y < since) = true := by
  rw [Option.any_eq_true] at h ⊢
  obtain ⟨text, htext, hlt⟩ := h
  exact ⟨text, htext, decide_eq_true (hle.trans_lt (of_decide_eq_true hlt))⟩

theorem meets_of_kept {q : Query} {event : Event}
    (hreach : ¬ (q.since.filter (· ≠ "")).any (fun since => event.timestamp.getD "" < since) = true)
    (hpass : ¬ (excludes q.eventType event.type || excludes q.project event.project ||
      excludes q.hostname event.hostname) = true) : event.meets q = true := by
  rw [Event.meets, Bool.eq_false_iff.mpr hreach, Bool.eq_false_iff.mpr hpass]
  rfl

/-- The events in files whose timestamps fall: the `break` drops none that meets the query. -/
theorem collect_falling (q : Query) : ∀ (room : Nat) (files : List File),
    (files.filterMap File.event).Pairwise (fun e e' => e'.timestamp.getD "" ≤ e.timestamp.getD "") →
      collect q room files = ((files.filterMap File.event).filter (·.meets q)).take room
  | 0, files, _ => by rw [collect, List.take_zero]
  | room + 1, [], _ => rfl
  | room + 1, ⟨name, none⟩ :: files, hfalling => collect_falling q (room + 1) files hfalling
  | room + 1, ⟨name, some event⟩ :: files, hfalling => by
    have hcons : (⟨name, some event⟩ :: files : List File).filterMap File.event = event :: files.filterMap File.event :=
      rfl
    rw [hcons] at hfalling ⊢
    obtain ⟨hle, hrest⟩ := List.pairwise_cons.mp hfalling
    rw [collect]
    dsimp only
    split
    · -- the loop ends here, and nothing after it reaches `since` either
      rename_i hbefore
      have hnone : (event :: files.filterMap File.event).filter (·.meets q) = [] := by
        refine List.filter_eq_nil_iff.mpr fun event' hevent' hmeets => ?_
        have hbefore' : (q.since.filter (· ≠ "")).any (fun since => event'.timestamp.getD "" < since) = true := by
          rcases List.mem_cons.mp hevent' with rfl | hevent'
          · exact hbefore
          · exact any_mono (hle event' hevent') hbefore
        rw [Event.meets, hbefore'] at hmeets
        cases hmeets
      rw [hnone]
      rfl
    · rename_i hreach
      split
      · rename_i hexcluded
        rw [List.filter_cons_of_neg (by simp [Event.meets, hexcluded]), collect_falling q (room + 1) files hrest]
      · rename_i hpass
        rw [List.filter_cons_of_pos (meets_of_kept hreach hpass), List.take_succ_cons,
          collect_falling q room files hrest]

/-- An event before `since` ends the loop. -/
theorem collect_break (q : Query) {f : File} {event : Event} {l₂ : List File} (hf : f.event = some event)
    (hbefore : (q.since.filter (· ≠ "")).any (fun since => event.timestamp.getD "" < since) = true) :
    ∀ (room : Nat) (l₁ : List File), collect q room (l₁ ++ f :: l₂) = collect q room l₁
  | 0, l₁ => by rw [collect, collect]
  | room + 1, [] => by
    obtain ⟨name, event'⟩ := f
    obtain rfl : event' = some event := hf
    exact if_pos hbefore
  | room + 1, f' :: l₁ => by
    rw [List.cons_append, collect, collect, collect_break q hf hbefore (room + 1) l₁,
      collect_break q hf hbefore room l₁]

/-- What the loop returns meets the query. -/
theorem collect_meets (q : Query) : ∀ (room : Nat) (files : List File),
    (collect q room files).Sublist ((files.filterMap File.event).filter (·.meets q))
  | 0, files => by
    rw [collect]
    exact List.nil_sublist _
  | room + 1, [] => List.nil_sublist _
  | room + 1, ⟨name, none⟩ :: files => collect_meets q (room + 1) files
  | room + 1, ⟨name, some event⟩ :: files => by
    have hcons : (⟨name, some event⟩ :: files : List File).filterMap File.event = event :: files.filterMap File.event :=
      rfl
    rw [hcons, collect]
    dsimp only
    split
    · exact List.nil_sublist _
    · rename_i hreach
      split
      · exact (collect_meets q (room + 1) files).trans ((List.sublist_cons_self _ _).filter _)
      · rename_i hpass
        rw [List.filter_cons_of_pos (meets_of_kept hreach hpass)]
        exact (collect_meets q room files).cons_cons event

theorem Emission.tracked {e : Emission} (hpos : 0 < e.sequence) : e.event.Tracked := by
  refine ⟨fun hnone => ?_, by simpa [Event.seq, Emission.event] using hpos.ne'⟩
  simp only [Event.agent, Emission.event, Option.getD_some] at hnone
  split at hnone
  · have hlength := congrArg String.length hnone
    simp at hlength
  · exact absurd hnone ‹_›

namespace History

variable (h : History)

/-- The files of the event bus. -/
def files : List File := h.emissions.map Emission.file

/-- The events from `since` on that pass the filters. -/
def matching (q : Query) : List Emission := h.emissions.filter fun e => e.reaches q.since && e.passes q

/-- **What a query asks for**: the newest `limit` events that match all filters, newest first. -/
def wanted (q : Query) : List Emission := (h.matching q).reverse.take q.limit.toNat

/-- When the host's last session ended. -/
def lastEnd (host : String) : Option String :=
  (h.emissions.reverse.find? fun e => e.event_type = "session_end" ∧ e.hostname = host).map Emission.timestamp

/-! ## Order -/

variable {h : History}

theorem falling : h.emissions.reverse.Pairwise fun e e' => e'.micro < e.micro :=
  List.pairwise_reverse.mpr h.rising

theorem filename_lt {e e' : Emission} (hlt : e.micro < e'.micro) (hdate : e'.micro < 253402300800000000) :
    e.filename < e'.filename := by
  rw [String.lt_iff_toList_lt, Emission.filename, Emission.filename, String.toList_ofList, String.toList_ofList]
  exact stampFormat_lt hlt hdate _ _

theorem timestamp_le {e e' : Emission} (hle : e.micro ≤ e'.micro) (hdate : e'.micro < 253402300800000000) :
    e.timestamp ≤ e'.timestamp := by
  refine le_of_not_gt fun hlt => ?_
  have := (isoFormat_lt_iff (by omega) (by omega)).mp hlt
  omega

/-- **Newest first.** -/
theorem newest_first : (h.files.insertionSort fun f g => g.name ≤ f.name) = h.emissions.reverse.map Emission.file := by
  have hperm : (h.files.insertionSort fun f g => g.name ≤ f.name).Perm (h.emissions.reverse.map Emission.file) :=
    (List.perm_insertionSort _ _).trans (h.emissions.reverse_perm.symm.map Emission.file)
  have hsorted : (h.emissions.reverse.map Emission.file).Pairwise fun f g => g.name < f.name := by
    refine List.pairwise_map.mpr (h.falling.imp_of_mem fun he _ hlt => ?_)
    exact filename_lt hlt (h.dated _ (List.mem_reverse.mp he))
  have hinj : ∀ f ∈ h.emissions.reverse.map Emission.file, ∀ g ∈ h.emissions.reverse.map Emission.file,
      f.name = g.name → f = g := by
    have hnodup : ((h.emissions.reverse.map Emission.file).map File.name).Nodup :=
      List.pairwise_map.mpr (hsorted.imp fun hlt => hlt.ne')
    exact fun f hf g hg => List.inj_on_of_nodup_map hnodup hf hg
  refine hperm.eq_of_pairwise (fun f g hf hg hle hle' => ?_) (List.pairwise_insertionSort _ _)
    (hsorted.imp fun hlt => hlt.le)
  exact hinj f (hperm.mem_iff.mp hf) g hg (le_antisymm hle' hle)

/-! ## The loop -/

theorem collect_map (q : Query) (room : Nat) (es : List Emission)
    (hfalling : es.Pairwise fun e e' => e'.timestamp ≤ e.timestamp) :
    collect q room (es.map Emission.file) =
      ((es.filter fun e => e.reaches q.since && e.passes q).take room).map Emission.event := by
  have hevents : (es.map Emission.file).filterMap File.event = es.map Emission.event := by
    rw [List.filterMap_map, ← List.filterMap_eq_map]
    rfl
  rw [collect_falling q room, hevents, List.filter_map, List.map_take]
  · rfl
  · rw [hevents]
    exact List.pairwise_map.mpr hfalling

theorem timestamps_falling : h.emissions.reverse.Pairwise fun e e' => e'.timestamp ≤ e.timestamp :=
  h.falling.imp_of_mem fun he _ hlt => timestamp_le hlt.le (h.dated _ (List.mem_reverse.mp he))

/-- **What `query` returns.** -/
theorem query_files (q : Query) : query h.files q = (h.wanted q).map Emission.event := by
  rw [query, newest_first, collect_map q _ _ timestamps_falling, wanted, matching, List.filter_reverse]

/-- Where `since_last_session` begins. -/
theorem lastEnd_files (host : String) : Events.lastEnd h.files host = h.lastEnd host := by
  have hevents : (h.emissions.reverse.map Emission.file).filterMap File.event =
      h.emissions.reverse.map Emission.event := by
    rw [List.filterMap_map, ← List.filterMap_eq_map]
    rfl
  rw [Events.lastEnd, newest_first, hevents, List.find?_map, lastEnd, Option.bind_map]
  simp only [Function.comp_def, Emission.event, Option.some.injEq]
  exact (Option.map_eq_bind).symm

/-- **What `since_last_session` returns.** -/
theorem sinceLastSession_files (gethostname : String) (hostname : Option String) :
    sinceLastSession h.files gethostname hostname =
      (h.wanted { since := h.lastEnd ((hostname.filter (· ≠ "")).getD gethostname) }).map Emission.event := by
  rw [sinceLastSession, lastEnd_files, query_files]

/-! ## A consumer that polls -/

/-- Each agent numbers what it emits, from 1 on. -/
structure Numbered (h : History) : Prop where
  rising : h.emissions.Pairwise fun e e' => e.event.agent = e'.event.agent → e.sequence < e'.sequence
  positive : ∀ e ∈ h.emissions, 0 < e.sequence

/-- Of what a query asks for, the newest of each agent. -/
def newest (h : History) (q : Query) : List Emission :=
  (h.wanted q).filter fun e => ∀ e' ∈ h.wanted q, e'.event.agent = e.event.agent → e'.micro ≤ e.micro

theorem wanted_sublist (q : Query) : (h.wanted q).Sublist h.emissions.reverse :=
  (List.take_sublist _ _).trans (List.filter_sublist.reverse)

/-- **What a poll delivers**: of each agent the newest event that the query returns, if it is above the mark. The
other events of the agent that it returns are not above the new mark. -/
theorem process_files (hnum : h.Numbered) (q : Query) (seen : LastSeen) :
    (process seen (query h.files q)).1 =
        ((h.newest q).filter fun e => (seen e.event.agent).getD 0 < e.sequence).map Emission.event ∧
      ∀ e ∈ h.wanted q, e.sequence ≤ ((process seen (query h.files q)).2 e.event.agent).getD 0 := by
  have hfalling : (h.wanted q).Pairwise fun e e' => e'.event.agent = e.event.agent → e'.sequence < e.sequence :=
    (List.pairwise_reverse.mpr hnum.rising).sublist (wanted_sublist q)
  -- the numbers of an agent are in the order of the moments
  have hsame : ∀ e ∈ h.wanted q, ∀ e' ∈ h.wanted q, e'.event.agent = e.event.agent →
      (e'.sequence ≤ e.sequence ↔ e'.micro ≤ e.micro) := by
    have hboth := hfalling.and (h.falling.sublist (wanted_sublist q))
    refine List.Pairwise.forall_of_forall_of_flip (fun e _ _ => by simp) (hboth.imp ?_) (hboth.imp ?_)
    · exact fun hlt ha => iff_of_true (hlt.1 ha).le hlt.2.le
    · exact fun hlt ha => iff_of_false (not_le.mpr (hlt.1 ha.symm)) (not_le.mpr hlt.2)
  have htracked : ∀ e ∈ (h.wanted q).map Emission.event, e.Tracked := List.forall_mem_map.mpr fun e he =>
    e.tracked (hnum.positive e (List.mem_reverse.mp ((wanted_sublist q).subset he)))
  have hseq : ((h.wanted q).map Emission.event).Pairwise fun e e' => e.agent = e'.agent → e'.seq < e.seq :=
    List.pairwise_map.mpr (hfalling.imp fun hlt ha => Int.ofNat_lt.mpr (hlt ha.symm))
  rw [query_files]
  refine ⟨?_, fun e he => (mark_spec _ seen _).2.1 _ (List.mem_map_of_mem he) (htracked _ (List.mem_map_of_mem he)) rfl⟩
  rw [process_falling htracked hseq, List.filter_map, newest, List.filter_filter]
  refine congrArg _ (List.filter_congr fun e he => ?_)
  simp only [Function.comp_apply, Event.Newest, List.forall_mem_map]
  rw [← Bool.decide_and, decide_eq_decide, and_comm]
  refine and_congr Iff.rfl (forall₂_congr fun e' he' => forall_congr' fun ha => ?_)
  exact Int.ofNat_le.trans (hsame e he e' he' ha)

/-- Two commits of one process. -/
def twice : History :=
  ⟨[⟨"commit", "p", .empty, "", "h", 1, 1, 0⟩, ⟨"commit", "p", .empty, "", "h", 1, 2, 1⟩], by simp, by simp⟩

theorem process_files_twice : (process (fun _ => none) (query twice.files {})).1 =
    ((twice.newest {}).filter fun e => (0 : Int) < e.sequence).map Emission.event :=
  (process_files ⟨by simp [twice], by simp [twice]⟩ {} fun _ => none).1

end History

end ClaudeSwarm.Events
