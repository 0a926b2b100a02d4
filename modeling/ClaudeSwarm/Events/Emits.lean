import ClaudeSwarm.Data.Table
import ClaudeSwarm.Events.History
import ClaudeSwarm.Interleave.System

/-!
# Events that are emitted at once

Any number of calls of `emit` (`src/events.py`), by any processes, interleaved in any order under one clock; `query`
looks at what they have written. A call reads the clock twice: for the timestamp of the event, to the second, and
then for the name of its file, to the microsecond.

* `filename_lt_iff`: the order of the names.
* `rows_written`: files of which no two have one name are all there.
* **`complete_iff`**: when no event is lost, in its file or to a query.
* `slow_emit`: an event that is named late ends the query before it has come to the others.
-/

namespace ClaudeSwarm.Events

open Data Interleave
open Python (PyError)

/-! ## The system -/

/-- A microsecond that a `datetime` can stand for. -/
abbrev Moment := Fin 253402300800000000

/-- The arguments of `emit`, with no details as an empty dictionary, and the process that calls it. -/
structure Args where
  hostname : String
  pid : Nat
  event_type : String
  project : String
  details : Dict String Json
  agent_id : String

/-- What a call writes: `stamped` and `named` are what the clock showed. -/
structure Emit extends Args where
  sequence : Nat
  stamped : Moment
  named : Moment

namespace Emit

variable (e : Emit)

/-- The emission, at a moment. -/
def at_ (micro : Moment) : Emission :=
  ⟨e.event_type, e.project, e.details, e.agent_id, e.hostname, e.pid, e.sequence, micro⟩

/-- `_event_filename`. -/
def filename : String := (e.at_ e.named).filename

/-- The event. -/
def event : Event := (e.at_ e.stamped).event

/-- When the event was stamped. -/
def timestamp : String := (e.at_ e.stamped).timestamp

theorem timestamp_event : e.event.timestamp = some e.timestamp := rfl

/-- The file. -/
def file : File := ⟨e.filename, some e.event⟩

theorem name_file : e.file.name = e.filename := rfl

/-- The text after the moment in the name of the file. -/
def origin : String := "-" ++ e.hostname ++ "-" ++ toString e.pid ++ ".json"

end Emit

/-- The clock, the sequence counters of the processes, the files, and what has been written, newest first. -/
structure Bus where
  now : Moment
  sequences : String × Nat → Nat
  files : Table File.name
  written : List Emit

/-- A command. -/
inductive Cmd where
  | now
  | nextSequence (process : String × Nat)
  | write (e : Emit)

/-- The answer of each command. -/
abbrev Resp : Cmd → Type
  | .now => Moment
  | .nextSequence _ => Nat
  | .write _ => Unit

abbrev sig : Sig := ⟨Cmd, Resp⟩

/-- A command, executed at the time that the clock shows. -/
def perform (s : Bus) : (c : Cmd) → Resp c × Bus
  | .now => (s.now, s)
  | .nextSequence process =>
    (s.sequences process + 1,
      { s with sequences := Function.update s.sequences process (s.sequences process + 1) })
  | .write e => ((), { s with files := s.files.put e.file, written := e :: s.written })

/-- Time passes, and a command is executed. -/
def exec (_ : Nat) (now : Moment) (s : Bus) (c : Cmd) : Option (Resp c × Bus) :=
  if s.now ≤ now then some (perform { s with now := now } c) else none

abbrev store : Store sig := ⟨Bus, Moment, exec⟩

/-- `emit`. -/
def emit (args : Args) : Prog sig PyError String := do
  let stamped ← @Prog.cmd sig PyError .now
  let sequence ← @Prog.cmd sig PyError (.nextSequence (args.hostname, args.pid))
  let named ← @Prog.cmd sig PyError .now
  let e : Emit := { args with sequence, stamped, named }
  @Prog.cmd sig PyError (.write e)
  return e.filename

/-- Any number of calls. -/
abbrev system : System := ⟨sig, store, PyError, Args, fun _ => String, emit⟩

/-! ## What should hold -/

/-- Nothing has been emitted. -/
def Bus.Empty (s : Bus) : Prop := s.files = .empty ∧ s.written = []

/-- The events that are stored. -/
def Bus.stored (s : Bus) : List Event := s.files.rows.filterMap File.event

/-- The stored events that a query asks for. -/
def Bus.asked (s : Bus) (q : Query) : List Event := s.stored.filter (·.meets q)

/-- The files are those that were written: none was written over another. -/
def NoneReplaced (s : Bus) : Prop := s.files.rows.Perm (s.written.map Emit.file)

/-- If there are no more than its limit, the query returns the stored events that it asks for. -/
def Complete (s : Bus) (q : Query) : Prop :=
  ((s.asked q).length : Int) ≤ q.limit → (query s.files.rows q).Perm (s.asked q)

/-- The file of `e` comes before that of `e'`: it was named in an earlier microsecond, or in the same one and what
follows in its name is less. -/
def Precedes (e e' : Emit) : Prop := e.named < e'.named ∨ e.named = e'.named ∧ e.origin < e'.origin

/-- No two were named by one process in one microsecond. -/
def Apart (written : List Emit) : Prop :=
  written.Pairwise fun e e' => ¬ (e.named = e'.named ∧ e.hostname = e'.hostname ∧ e.pid = e'.pid)

/-- What is named before another was not stamped in a later second. -/
def InTime (written : List Emit) : Prop :=
  ∀ e ∈ written, ∀ e' ∈ written, Precedes e e' → (e.stamped : Nat) / 1000000 ≤ (e'.stamped : Nat) / 1000000

instance (e e' : Emit) : Decidable (Precedes e e') := inferInstanceAs (Decidable (_ ∨ _ ∧ _))

instance (written : List Emit) : Decidable (Apart written) :=
  inferInstanceAs (Decidable (written.Pairwise fun e e' => ¬ (e.named = e'.named ∧ e.hostname = e'.hostname ∧
    e.pid = e'.pid)))

instance (written : List Emit) : Decidable (InTime written) :=
  inferInstanceAs (Decidable (∀ e ∈ written, ∀ e' ∈ written, Precedes e e' →
    (e.stamped : Nat) / 1000000 ≤ (e'.stamped : Nat) / 1000000))

/-! ## Names -/

section

variable {e e' : Emit}

theorem toList_filename : e.filename.toList = stampFormat e.named e.origin.toList := String.toList_ofList

/-- **The order of the names.** -/
theorem filename_lt_iff : e.filename < e'.filename ↔ Precedes e e' := by
  rw [String.lt_iff_toList_lt, toList_filename, toList_filename, stampFormat_lt_iff e.named.isLt e'.named.isLt,
    ← String.lt_iff_toList_lt, Precedes, Fin.lt_def, Fin.ext_iff]

theorem origin_inj (h : e.origin = e'.origin) : e.hostname = e'.hostname ∧ e.pid = e'.pid := by
  have hdigits : ∀ n : Nat, (toString n).toList = Nat.toDigits 10 n := fun n => Nat.toList_repr
  have hchars := congrArg String.toList h
  simp only [Emit.origin, String.toList_append, hdigits] at hchars
  have hdash := List.append_cancel_right hchars
  rw [List.append_assoc, List.append_assoc, List.append_assoc, List.append_assoc] at hdash
  obtain ⟨hhost, hpid⟩ := Python.dash_toDigits (List.append_cancel_left hdash)
  exact ⟨String.toList_inj.mp hhost, hpid⟩

/-- **One name** is that of one process in one microsecond. -/
theorem filename_inj (h : e.filename = e'.filename) :
    e.named = e'.named ∧ e.hostname = e'.hostname ∧ e.pid = e'.pid := by
  have hnot : ∀ {a b : Emit}, a.filename = b.filename → ¬ Precedes a b := by
    intro a b he hlt
    have hname := filename_lt_iff.mpr hlt
    rw [he] at hname
    exact lt_irrefl _ hname
  have hnamed : e.named = e'.named := le_antisymm
    (le_of_not_gt fun hlt => hnot h.symm (.inl hlt)) (le_of_not_gt fun hlt => hnot h (.inl hlt))
  have horigin : e.origin = e'.origin := le_antisymm
    (le_of_not_gt fun hlt => hnot h.symm (.inr ⟨hnamed.symm, hlt⟩))
    (le_of_not_gt fun hlt => hnot h (.inr ⟨hnamed, hlt⟩))
  exact ⟨hnamed, origin_inj horigin⟩

theorem filename_eq (hnamed : e.named = e'.named) (hhost : e.hostname = e'.hostname) (hpid : e.pid = e'.pid) :
    e.filename = e'.filename := by
  rw [← String.toList_inj, toList_filename, toList_filename, Emit.origin, Emit.origin, hnamed, hhost, hpid]

theorem apart_iff {written : List Emit} : Apart written ↔ (written.map Emit.filename).Nodup := by
  rw [List.Nodup, List.pairwise_map]
  constructor
  · exact fun h => h.imp fun hne he => hne (filename_inj he)
  · exact fun h => h.imp fun hne he => hne (filename_eq he.1 he.2.1 he.2.2)

theorem timestamp_lt_iff : e.timestamp < e'.timestamp ↔
    (e.stamped : Nat) / 1000000 < (e'.stamped : Nat) / 1000000 := by
  have hbound : ∀ m : Moment, (m : Nat) / 1000000 < 253402300800 := fun m => by omega
  exact isoFormat_lt_iff (hbound e.stamped) (hbound e'.stamped)

end

/-! ## Files -/

/-- What the writes leave, the last one first. -/
def filesOf (written : List Emit) : Table File.name := written.foldr (fun e files => files.put e.file) .empty

theorem mem_filesOf {f : File} : ∀ {written : List Emit}, f ∈ (filesOf written).rows → ∃ e ∈ written, e.file = f
  | [], h => absurd h List.not_mem_nil
  | e :: written, h => by
    rcases Table.mem_put.mp h with ⟨hmem, -⟩ | rfl
    · obtain ⟨e', he', rfl⟩ := mem_filesOf hmem
      exact ⟨e', List.mem_cons_of_mem _ he', rfl⟩
    · exact ⟨e, List.mem_cons_self, rfl⟩

/-- Files of which no two have one name are all there. -/
theorem rows_written : ∀ {written : List Emit}, Apart written →
    (filesOf written).rows = (written.map Emit.file).reverse
  | [], _ => rfl
  | e :: written, h => by
    obtain ⟨hne, hrest⟩ := List.pairwise_cons.mp h
    have hnone : (filesOf written).find? e.filename = none := by
      cases hfind : (filesOf written).find? e.filename with
      | none => rfl
      | some f =>
        obtain ⟨e', he', rfl⟩ := mem_filesOf (Table.find?_mem hfind)
        exact absurd (filename_inj (Table.find?_key hfind).symm) (hne e' he')
    show ((filesOf written).erase e.filename).rows ++ [e.file] = _
    rw [Table.erase_of_none hnone, rows_written hrest, List.map_cons, List.reverse_cons]

/-- The files are those of the writes. -/
theorem files_of_run {s₀ : Bus} {c : Config system} (hempty : s₀.Empty) (hrun : Run Free (.init s₀) c) :
    c.world.state.files = filesOf c.world.state.written := by
  refine run_inv (I := fun w : World system => w.state.files = filesOf w.state.written) (fun w e w' h _ hf => ?_) ?_ hrun
  · obtain ⟨n, o, cmd, x⟩ := e
    obtain ⟨⟨now, hx⟩, -⟩ := hf
    simp only [exec] at hx
    split at hx
    swap
    · cases hx
    have hstate := (Prod.mk.inj (Option.some.inj hx)).2
    rw [← hstate]
    cases cmd with
    | now => exact h
    | nextSequence process => exact h
    | write e =>
      show w.state.files.put e.file = filesOf (e :: w.state.written)
      rw [h]
      rfl
  · show s₀.files = filesOf s₀.written
    rw [hempty.1, hempty.2]
    rfl

/-! ## Queries -/

section

variable {s : Bus}

/-- The files in the order in which `query` reads them. -/
def newestFirst (s : Bus) : List File := s.files.rows.insertionSort fun f g => g.name ≤ f.name

theorem perm_newestFirst : (newestFirst s).Perm s.files.rows := List.perm_insertionSort _ _

theorem pairwise_newestFirst : (newestFirst s).Pairwise fun f g => g.name < f.name := by
  have hsorted : (newestFirst s).Pairwise fun f g => g.name ≤ f.name := List.pairwise_insertionSort _ _
  have hnodup : ((newestFirst s).map File.name).Nodup :=
    (perm_newestFirst.map File.name).nodup_iff.mpr s.files.nodup
  exact (hsorted.and (List.pairwise_map.mp hnodup)).imp fun h => h.1.lt_of_ne (Ne.symm h.2)

/-- What is asked for, in any order. -/
theorem perm_asked (q : Query) : (((newestFirst s).filterMap File.event).filter (·.meets q)).Perm (s.asked q) :=
  (perm_newestFirst.filterMap File.event).filter _

/-- Events whose files are in order. -/
theorem complete_of_inTime (hfiles : s.files = filesOf s.written) (htime : InTime s.written) (q : Query) :
    Complete s q := by
  intro hlimit
  have hfalling : ((newestFirst s).filterMap File.event).Pairwise
      fun e e' => e'.timestamp.getD "" ≤ e.timestamp.getD "" := by
    refine List.pairwise_filterMap.mpr (pairwise_newestFirst.imp_of_mem fun {f g} hf hg hlt event he event' he' => ?_)
    rw [perm_newestFirst.mem_iff, hfiles] at hf hg
    obtain ⟨e, hmem, rfl⟩ := mem_filesOf hf
    obtain ⟨e', hmem', rfl⟩ := mem_filesOf hg
    cases he
    cases he'
    rw [Emit.timestamp_event, Emit.timestamp_event, Option.getD_some, Option.getD_some]
    refine le_of_not_gt fun hgt => ?_
    have hle := htime e' hmem' e hmem (filename_lt_iff.mp hlt)
    exact absurd (timestamp_lt_iff.mp hgt) (not_lt.mpr hle)
  have hquery : query s.files.rows q =
      (((newestFirst s).filterMap File.event).filter (·.meets q)).take q.limit.toNat := collect_falling q _ _ hfalling
  rw [hquery, List.take_of_length_le]
  · exact perm_asked q
  · rw [(perm_asked q).length_eq]
    omega

/-- A file that is in the wrong place hides those behind it. -/
theorem inTime_of_complete (hthere : ∀ e ∈ s.written, e.file ∈ s.files.rows) (h : ∀ q, Complete s q) :
    InTime s.written := by
  intro e he e' he' hbefore
  by_contra hlate
  have hstamp : e'.timestamp < e.timestamp := timestamp_lt_iff.mpr (not_le.mp hlate)
  have hname : e.filename < e'.filename := filename_lt_iff.mpr hbefore
  -- the query asks for what is not before the event that was named first
  obtain ⟨q, hq⟩ : ∃ q : Query, q = { since := some e.timestamp, limit := s.stored.length } := ⟨_, rfl⟩
  have hsince : q.since.filter (· ≠ "") = some e.timestamp := by
    rw [hq]
    refine Option.filter_eq_some_iff.mpr ⟨rfl, decide_eq_true fun hnil => ?_⟩
    rw [hnil, String.lt_iff_toList_lt] at hstamp
    exact absurd hstamp (List.not_lt_nil _)
  obtain ⟨l₁, l₂, hsplit⟩ := List.append_of_mem (perm_newestFirst.mem_iff.mpr (hthere e' he'))
  have hbehind : e.file ∈ l₂ := by
    have hmem := perm_newestFirst.mem_iff.mpr (hthere e he)
    have hpair := pairwise_newestFirst (s := s)
    rw [hsplit] at hmem hpair
    rcases List.mem_append.mp hmem with hmem | hmem
    · have hlt := (List.pairwise_append.mp hpair).2.2 e.file hmem e'.file List.mem_cons_self
      rw [Emit.name_file, Emit.name_file] at hlt
      exact absurd hlt (lt_asymm hname)
    · rcases List.mem_cons.mp hmem with heq | hmem
      · have hsame := congrArg File.name heq
        rw [Emit.name_file, Emit.name_file] at hsame
        exact absurd hsame hname.ne
      · exact hmem
  have hasked : (s.asked q).length ≤ s.stored.length := List.length_filter_le _ _
  have hperm := h q (by
    rw [hq] at hasked ⊢
    exact Int.ofNat_le.mpr hasked)
  have hquery : query s.files.rows q = collect q q.limit.toNat l₁ := by
    show collect q _ (newestFirst s) = _
    rw [hsplit]
    refine collect_break q rfl ?_ _ _
    rw [hsince, Emit.timestamp_event, Option.getD_some, Option.any_some]
    exact decide_eq_true hstamp
  -- the event is asked for, and not among what is returned
  have hmeets : e.event.meets q = true := by
    rw [Event.meets, hsince, Emit.timestamp_event, Option.getD_some, Option.any_some,
      decide_eq_false (lt_irrefl e.timestamp), hq]
    rfl
  have hlength := hperm.length_eq
  rw [hquery, ← (perm_asked q).length_eq, hsplit, List.filterMap_append, List.filter_append, List.length_append]
    at hlength
  have hle := (collect_meets q q.limit.toNat l₁).length_le
  have hpos : 0 < (((e'.file :: l₂).filterMap File.event).filter (·.meets q)).length :=
    List.length_pos_of_mem (List.mem_filter.mpr
      ⟨List.mem_filterMap.mpr ⟨e.file, List.mem_cons_of_mem _ hbehind, rfl⟩, hmeets⟩)
  omega

end

/-- **No event is lost.** -/
theorem complete_iff (s₀ : Bus) (c : Config system) (hempty : s₀.Empty) (hrun : Run Free (.init s₀) c) :
    (NoneReplaced c.world.state ∧ ∀ q, Complete c.world.state q) ↔
      Apart c.world.state.written ∧ InTime c.world.state.written := by
  have hfiles := files_of_run hempty hrun
  constructor
  · rintro ⟨hperm, hcomplete⟩
    have hthere : ∀ e ∈ c.world.state.written, e.file ∈ c.world.state.files.rows := fun e he =>
      hperm.mem_iff.mpr (List.mem_map_of_mem he)
    refine ⟨apart_iff.mpr ?_, inTime_of_complete hthere hcomplete⟩
    have hnodup := (hperm.map File.name).nodup_iff.mp c.world.state.files.nodup
    rwa [List.map_map] at hnodup
  · rintro ⟨hapart, htime⟩
    refine ⟨?_, complete_of_inTime hfiles htime⟩
    rw [NoneReplaced, hfiles, rows_written hapart]
    exact List.reverse_perm _

/-- Two calls by processes of two hosts, each of which executes its four commands at these moments. -/
def twoEmits (schedule : List (Nat × Moment)) : List (Act system) :=
  .start 0 ⟨"a", 1, "commit", "", .empty, ""⟩ :: .start 1 ⟨"b", 1, "commit", "", .empty, ""⟩ ::
    schedule.map fun step => .step step.1 step.2

def noEvents : Bus := ⟨0, fun _ => 0, .empty, []⟩

/-- One after the other. -/
def inTurn : List (Nat × Moment) := [(0, 1), (0, 2), (0, 3), (0, 4), (1, 1000000), (1, 1000001), (1, 1000002), (1, 1000003)]

theorem complete_inTurn : ∃ c : Config system, Run Free (.init noEvents) c ∧ c.world.state.written.length = 2 ∧
    NoneReplaced c.world.state ∧ ∀ q, Complete c.world.state q := by
  obtain ⟨c, hrun, hc⟩ := @exists_run_of_play _ Free _ (.init noEvents) (twoEmits inTurn)
    (fun c => decide (c.world.state.written.length = 2 ∧ Apart c.world.state.written ∧ InTime c.world.state.written))
    (by decide +kernel)
  obtain ⟨hlength, hwritten⟩ := of_decide_eq_true hc
  exact ⟨c, hrun, hlength, (complete_iff noEvents c ⟨rfl, rfl⟩ hrun).mpr hwritten⟩

/-- The first call stamps its event in the first second and names it in the third. -/
def slowly : List (Nat × Moment) :=
  [(0, 999999), (1, 1000000), (1, 1000001), (1, 1000002), (1, 1000003), (0, 2000000), (0, 2000001), (0, 2000002)]

/-- **An event that is named late**: a query does not come to the other one. -/
theorem slow_emit : ¬ ∀ (s₀ : Bus) (c : Config system), s₀.Empty → Run Free (.init s₀) c →
    NoneReplaced c.world.state ∧ ∀ q, Complete c.world.state q := by
  intro h
  obtain ⟨c, hrun, hc⟩ := @exists_run_of_play _ Free _ (.init noEvents) (twoEmits slowly)
    (fun c => decide (¬ InTime c.world.state.written)) (by decide +kernel)
  obtain ⟨hperm, hcomplete⟩ := h noEvents c ⟨rfl, rfl⟩ hrun
  refine of_decide_eq_true hc (inTime_of_complete (fun e he => ?_) hcomplete)
  exact hperm.mem_iff.mpr (List.mem_map_of_mem he)

end ClaudeSwarm.Events
