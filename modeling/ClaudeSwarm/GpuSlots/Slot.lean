import ClaudeSwarm.Data.Calendar
import ClaudeSwarm.GpuSlots.Redis

/-!
# The text of a slot file

Model of how `src/gpu_slots.py` writes and reads the text of a slot file. A claimed slot's file holds
one line, `host:pid|claimed_at|heartbeat|deadline` (`slotLine`); an older format had
`host:pid:claimed_at`. `claim_slot` and `claim_slot_with_deadline` look at the text in their own way
(`check`): they split the whole of it at the colons, so that in the line they now write the part after
the first colon is no number.

* `Holder`: a process with a host name that the format can hold.
* `Proc.Plain.parse_line`: the line is read back.
* **`check_of_names`**: a text that begins with a holder's `host:pid|` is held, whoever asks.
* `staleHeartbeat_iff`: how old a line is.
-/

namespace ClaudeSwarm.GpuSlots

open Data
open Python (strip digits)

/-! ## The clock -/

/-- A reading of the clock, in microseconds since the epoch; `datetime` ends with the year 9999. -/
structure Clock where
  micros : Nat
  inRange : micros < 253402300800000000
  deriving DecidableEq

namespace Clock

theorem epoch_inRange : 0 < 253402300800000000 := by decide

/-- `int(time.time())`. -/
def seconds (t : Clock) : Nat := t.micros / 1000000

/-- `now_iso()`. -/
def nowIso (t : Clock) : String := .ofList (isoFormat t.seconds)

theorem seconds_lt (t : Clock) : t.seconds < 253402300800 := by
  have := t.inRange
  unfold seconds
  omega

end Clock

/-! ## Reading and writing -/

/-- What `_parse_slot_info` returns. -/
structure SlotInfo where
  hostname : String
  pid : Nat
  claimed_at : String
  heartbeat : String
  deadline_ts : Nat
  deriving DecidableEq

/-- `int(part) if part.isdigit() else 0`. -/
def natOrZero (part : List Char) : Nat := (digits part).getD 0

/-- `_parse_slot_info`; `none` is the empty dict. -/
def parseSlotInfo (content : String) : Option SlotInfo :=
  let content := strip content.toList
  if content = [] then none
  else if '|' ∈ content then
    let base := content.takeWhile (· != '|')
    let ext_parts := ((content.dropWhile (· != '|')).tail).splitOn '|'
    match base.splitOn ':' with
    | host :: pid :: _ => some
      { hostname := .ofList host
        pid := natOrZero pid
        claimed_at := .ofList (ext_parts.getD 0 [])
        heartbeat := .ofList (ext_parts.getD 1 [])
        deadline_ts := natOrZero (ext_parts.getD 2 []) }
    | _ => none
  else
    match content.splitOn ':' with
    | host :: pid :: timestamp => some
      { hostname := .ofList host
        pid := natOrZero pid
        claimed_at := .ofList (List.intercalate [':'] timestamp)
        heartbeat := ""
        deadline_ts := 0 }
    | _ => none

/-- The text `host:pid|claimed_at|heartbeat|deadline_ts` and a newline. -/
def slotLine (host : String) (pid : Nat) (claimed_at heartbeat : String) (deadline_ts : Int) : String :=
  host ++ ":" ++ toString pid ++ "|" ++ claimed_at ++ "|" ++ heartbeat ++ "|" ++
    toString deadline_ts ++ "\n"

/-- What the first lines of `claim_slot` make of the text of the file. -/
inductive Check where
  | free
  | held
  /-- Held if that process of the caller's host is alive. -/
  | probe (pid : Nat)
  deriving DecidableEq

/-- The content-based check of `claim_slot`; a part that is no number counts as 0. -/
def check (hostname : String) (text : String) : Check :=
  let content := strip text.toList
  if content = [] then .free
  else
    match content.splitOn ':' with
    | holder_host :: pid :: _ =>
      let holder_pid := (Python.int (.ofList pid)).getD 0
      if String.ofList holder_host = hostname ∧ 0 < holder_pid then .probe holder_pid.toNat else .held
    | _ => .free

/-- `datetime.now(UTC) - datetime.fromisoformat(heartbeat.replace("Z", "+00:00"))` is more than
`stale_threshold` seconds. -/
def staleHeartbeat (info : SlotInfo) (stale_threshold : Int) (now : Clock) : Bool :=
  match fromIsoFormat (zuluOffset info.heartbeat.toList) with
  | some dt => decide (dt * 1000000 + stale_threshold * 1000000 < now.micros)
  | none => false

/-- `time.time() > deadline_ts`, when there is a deadline. -/
def pastDeadline (info : SlotInfo) (now : Clock) : Bool :=
  info.deadline_ts != 0 && decide (info.deadline_ts * 1000000 < now.micros)

/-! ## Lines -/

/-- A process with a host name without colon, bar or surrounding blanks, and a positive pid. -/
structure Holder extends Proc where
  colon : ':' ∉ host.toList
  bar : '|' ∉ host.toList
  stripped : strip host.toList = host.toList
  pid_pos : 0 < pid
  deriving DecidableEq

instance : Coe Holder Proc := ⟨Holder.toProc⟩

/-- A process with such a host name, and any pid. -/
structure Proc.Plain (r : Proc) : Prop where
  colon : ':' ∉ r.host.toList
  bar : '|' ∉ r.host.toList
  stripped : strip r.host.toList = r.host.toList

theorem Holder.plain (p : Holder) : p.toProc.Plain := ⟨p.colon, p.bar, p.stripped⟩

/-- The text of the process with which its lines begin. -/
def Proc.tag (p : Proc) : List Char := p.host.toList ++ ':' :: (toString p.pid).toList ++ ['|']

/-- The text begins as a line of `p`. -/
def Names (p : Proc) (text : String) : Prop := p.tag <+: text.toList

/-- A line of `p`. -/
def Proc.line (p : Proc) (claimed_at heartbeat : String) (deadline_ts : Int) : String :=
  slotLine p.host p.pid claimed_at heartbeat deadline_ts

section Lines

variable {r : Proc} {p : Holder} {claimed_at heartbeat : String} {deadline_ts : Int}

theorem toList_line : (r.line claimed_at heartbeat deadline_ts).toList =
    r.tag ++ (claimed_at.toList ++ '|' :: (heartbeat.toList ++ '|' ::
      ((toString deadline_ts).toList ++ ['\n']))) := by
  simp [Proc.line, slotLine, Proc.tag]

theorem names_line : Names r (r.line claimed_at heartbeat deadline_ts) := by
  rw [Names, toList_line]
  exact List.prefix_append _ _

theorem isSpace_numeral {c : Char} (h : Python.isNumeral c = true) : Python.isSpace c = false := by
  rcases Bool.or_eq_true _ _ ▸ h with h | h
  · exact Python.isSpace_of_isDigit h
  · obtain rfl := eq_of_beq h
    decide

/-- A digit is no separator. -/
theorem not_mem_toString {n : Nat} {c : Char} (hc : c.isDigit = false) :
    c ∉ (toString n).toList := by
  intro h
  have hdigits : (toString n).toList = Nat.toDigits 10 n := Nat.toList_repr
  rw [hdigits] at h
  rw [Nat.isDigit_of_mem_toDigits (by decide) (by decide) h] at hc
  cases hc

theorem tag_append (l : List Char) :
    r.tag ++ l = r.host.toList ++ ':' :: ((toString r.pid).toList ++ '|' :: l) := by
  simp only [Proc.tag, List.append_assoc, List.cons_append, List.nil_append]

/-- Stripping a text of `r` leaves what follows the host name. -/
theorem strip_of_names {text : String} (h : Names r text) :
    ∃ l, strip text.toList =
      r.host.toList.dropWhile Python.isSpace ++ ':' :: ((toString r.pid).toList ++ '|' :: l) := by
  obtain ⟨l, hl⟩ := h
  refine ⟨(l.reverse.dropWhile Python.isSpace).reverse, ?_⟩
  rw [← hl, Proc.tag, List.append_assoc, List.singleton_append,
    Python.strip_append_cons (by decide), Python.dropWhile_append_cons (by decide), List.append_assoc,
    List.cons_append]

/-- What comes before a character the first part does not have. -/
theorem takeWhile_of_not_mem {c : Char} {a : List Char} (h : c ∉ a) (r : List Char) :
    (a ++ r).takeWhile (· != c) = a ++ r.takeWhile (· != c) :=
  List.takeWhile_append_of_pos fun _ hx => bne_iff_ne.mpr fun he => h (he ▸ hx)

theorem dropWhile_of_not_mem {c : Char} {a : List Char} (h : c ∉ a) (r : List Char) :
    (a ++ r).dropWhile (· != c) = r.dropWhile (· != c) :=
  List.dropWhile_append_of_pos fun _ hx => bne_iff_ne.mpr fun he => h (he ▸ hx)

/-- The first part of a split text. -/
theorem splitOn_eq_cons (c : Char) (l : List Char) :
    ∃ rest, l.splitOn c = l.takeWhile (· != c) :: rest := by
  by_cases h : c ∈ l
  · obtain ⟨a, b, rfl, ha⟩ := List.eq_append_cons_of_mem h
    refine ⟨b.splitOn c, ?_⟩
    rw [List.splitOn_append_cons_self, List.splitOn_eq_singleton ha, takeWhile_of_not_mem ha]
    simp
  · refine ⟨[], ?_⟩
    have htake := takeWhile_of_not_mem h []
    rw [List.append_nil, List.takeWhile_nil, List.append_nil] at htake
    rw [List.splitOn_eq_singleton h, htake]

/-- **What begins as a line is held**, when the host name has no colon. -/
theorem check_of_names {text : String} (hcolon : ':' ∉ r.host.toList) (h : Names r text)
    (hostname : String) : check hostname text = .held := by
  obtain ⟨l, hl⟩ := strip_of_names h
  obtain ⟨rest, hrest⟩ := splitOn_eq_cons ':' ((toString r.pid).toList ++ '|' :: l)
  have hhost : ':' ∉ r.host.toList.dropWhile Python.isSpace := fun hmem =>
    hcolon ((List.dropWhile_sublist _).mem hmem)
  have hpart := takeWhile_of_not_mem (not_mem_toString (n := r.pid) (c := ':') (by decide)) ('|' :: l)
  rw [hpart] at hrest
  have hint : Python.int (.ofList ((toString r.pid).toList ++ ('|' :: l).takeWhile (· != ':'))) =
      none :=
    Python.int_eq_none (c := '|') (by simp) (by decide) (by decide) (by decide)
  have hne : r.host.toList.dropWhile Python.isSpace ++ ':' :: ((toString r.pid).toList ++ '|' :: l) ≠ [] := by
    simp
  simp only [check, hl, hne, List.splitOn_append_cons_self, List.splitOn_eq_singleton hhost, hrest, hint,
    List.cons_append, List.nil_append, if_false, Option.getD_none, lt_irrefl, and_false]

/-- A line, stripped of its newline. -/
theorem strip_line (hr : r.Plain) : strip (r.line claimed_at heartbeat deadline_ts).toList =
    r.tag ++ (claimed_at.toList ++ '|' :: (heartbeat.toList ++ '|' ::
      (toString deadline_ts).toList)) := by
  have hspace : ∀ c ∈ (toString deadline_ts).toList, Python.isSpace c = false := fun c hc =>
    isSpace_numeral (Python.isNumeral_str deadline_ts c hc)
  have hend : ((toString deadline_ts).toList ++ ['\n']).reverse.dropWhile Python.isSpace =
      (toString deadline_ts).toList.reverse := by
    have hnewline : Python.isSpace '\n' = true := by decide
    rw [List.reverse_append, List.reverse_singleton, List.singleton_append,
      List.dropWhile_cons_of_pos hnewline]
    exact Python.dropWhile_of_strip (Python.strip_eq_self fun c hc =>
      hspace c (List.mem_reverse.mp hc))
  have hline : (r.line claimed_at heartbeat deadline_ts).toList =
      (r.tag ++ (claimed_at.toList ++ '|' :: heartbeat.toList)) ++ '|' ::
        ((toString deadline_ts).toList ++ ['\n']) := by
    rw [toList_line]
    simp
  rw [hline, Python.strip_append_cons (by decide), hend, List.reverse_reverse, tag_append,
    Python.dropWhile_append_cons (by decide), Python.dropWhile_of_strip hr.stripped, tag_append]
  simp

theorem digits_toString (n : Nat) : digits (toString n).toList = some n := by
  have hdigits : (toString n).toList = Nat.toDigits 10 n := Nat.toList_repr
  rw [hdigits, Python.digits_toDigits]

theorem natOrZero_toString (i : Int) : natOrZero (toString i).toList = i.toNat := by
  cases i with
  | ofNat n =>
    have hn : (toString (Int.ofNat n)).toList = (toString n).toList := rfl
    rw [natOrZero, hn, digits_toString]
    rfl
  | negSucc n =>
    have hn : (toString (Int.negSucc n)).toList = '-' :: Nat.toDigits 10 (n + 1) := by
      show ("-" ++ Nat.repr (n + 1)).toList = _
      rw [String.toList_append, Nat.toList_repr]
      rfl
    have hminus : Char.isDigit '-' = false := by decide
    rw [natOrZero, hn]
    simp [digits, hminus]

/-- **A line is read back.** -/
theorem Proc.Plain.parse_line (hr : r.Plain) (hc : '|' ∉ claimed_at.toList) (hh : '|' ∉ heartbeat.toList) :
    parseSlotInfo (r.line claimed_at heartbeat deadline_ts) =
      some ⟨r.host, r.pid, claimed_at, heartbeat, deadline_ts.toNat⟩ := by
  have hd : '|' ∉ (toString deadline_ts).toList := fun h =>
    absurd (Python.isNumeral_str deadline_ts '|' h) (by decide)
  have hbase : '|' ∉ r.host.toList ++ ':' :: (toString r.pid).toList := by
    have hpid : '|' ∉ (toString r.pid).toList := not_mem_toString (by decide)
    simp only [List.mem_append, List.mem_cons, not_or]
    exact ⟨hr.bar, by decide, hpid⟩
  have hline : strip (r.line claimed_at heartbeat deadline_ts).toList =
      (r.host.toList ++ ':' :: (toString r.pid).toList) ++ '|' :: (claimed_at.toList ++ '|' ::
        (heartbeat.toList ++ '|' :: (toString deadline_ts).toList)) := by
    rw [strip_line hr, tag_append]
    simp
  have hext : (claimed_at.toList ++ '|' :: (heartbeat.toList ++ '|' ::
      (toString deadline_ts).toList)).splitOn '|' =
        [claimed_at.toList, heartbeat.toList, (toString deadline_ts).toList] := by
    rw [List.splitOn_append_cons_self, List.splitOn_append_cons_self, List.splitOn_eq_singleton hc,
      List.splitOn_eq_singleton hh, List.splitOn_eq_singleton hd]
    rfl
  have hparts : (r.host.toList ++ ':' :: (toString r.pid).toList).splitOn ':' =
      [r.host.toList, (toString r.pid).toList] := by
    rw [List.splitOn_append_cons_self, List.splitOn_eq_singleton hr.colon,
      List.splitOn_eq_singleton (not_mem_toString (by decide))]
    rfl
  have htake := takeWhile_of_not_mem hbase ('|' :: (claimed_at.toList ++ '|' ::
    (heartbeat.toList ++ '|' :: (toString deadline_ts).toList)))
  have hdrop := dropWhile_of_not_mem hbase ('|' :: (claimed_at.toList ++ '|' ::
    (heartbeat.toList ++ '|' :: (toString deadline_ts).toList)))
  rw [List.takeWhile_cons_of_neg (by simp), List.append_nil] at htake
  rw [List.dropWhile_cons_of_neg (by simp)] at hdrop
  unfold parseSlotInfo
  rw [hline, if_neg (by simp), if_pos (by simp), htake, hdrop, List.tail_cons, hext]
  simp only [hparts, List.getD_cons_zero, List.getD_cons_succ, natOrZero_toString, String.ofList_toList]
  simp only [natOrZero, digits_toString, Option.getD_some]

theorem parseSlotInfo_line (hc : '|' ∉ claimed_at.toList) (hh : '|' ∉ heartbeat.toList) :
    parseSlotInfo (p.line claimed_at heartbeat deadline_ts) =
      some ⟨p.host, p.pid, claimed_at, heartbeat, deadline_ts.toNat⟩ := p.plain.parse_line hc hh

/-- A time has no bar. -/
theorem nowIso_bar (t : Clock) : '|' ∉ t.nowIso.toList := by
  intro h
  rw [Clock.nowIso, String.toList_ofList] at h
  rcases mem_isoFormat h with h | h
  · exact absurd h (by decide)
  · exact absurd h (by decide)

/-- How old a heartbeat is. -/
theorem staleHeartbeat_iff {info : SlotInfo} {t now : Clock} (h : info.heartbeat = t.nowIso)
    (stale_threshold : Int) : staleHeartbeat info stale_threshold now = true ↔
      t.seconds * 1000000 + stale_threshold * 1000000 < (now.micros : Int) := by
  rw [staleHeartbeat, h, Clock.nowIso, String.toList_ofList,
    fromIsoFormat_isoFormat t.seconds_lt]
  exact decide_eq_true_iff

end Lines

end ClaudeSwarm.GpuSlots
