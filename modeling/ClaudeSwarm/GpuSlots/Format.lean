import ClaudeSwarm.GpuSlots.Recorded
import ClaudeSwarm.Interleave.Span

/-!
# The format of a slot file, and its renewal

Two formats of a line: `host:pid|claimed_at|heartbeat|deadline`, which the module writes, and `host:pid:claimed_at`,
which it used to write. `_parse_slot_info` tells them apart by the bar. `heartbeat_slot` reads a line and writes it again
with a new heartbeat, in commands of which any number of calls may be in the middle.

* `parse_legacyLine`: the old line is read back, with the colons of its time.
* `renewed_fires`: what the calls leave of a file.
* **`slot_format_round_trip`**: both lines are read back, and after any heartbeats on its host a line is what it was, but
  for its heartbeat.
-/

namespace ClaudeSwarm.GpuSlots

open Data
open Python (PyError strip)

/-! ## Two formats -/

/-- A text for a time: it is not empty, and has no bar and no surrounding blanks. -/
structure Timestamp (text : String) : Prop where
  ne : text ≠ ""
  bar : '|' ∉ text.toList
  stripped : strip text.toList = text.toList

theorem length_nowIso (t : Clock) : t.nowIso.toList.length = 20 := by
  rw [Clock.nowIso, String.toList_ofList, length_isoFormat]

/-- The text `host:pid:claimed_at` and a newline. -/
def legacyLine (host : String) (pid : Nat) (claimed_at : String) : String :=
  host ++ ":" ++ toString pid ++ ":" ++ claimed_at ++ "\n"

variable {r : Proc} {claimed_at heartbeat : String} {deadline_ts : Nat}

/-- **The old line is read back.** -/
theorem parse_legacyLine (hr : r.Plain) (hc : Timestamp claimed_at) :
    parseSlotInfo (legacyLine r.host r.pid claimed_at) = some ⟨r.host, r.pid, claimed_at, "", 0⟩ := by
  have hpid : ∀ {c : Char}, c.isDigit = false → c ∉ (toString r.pid).toList := not_mem_toString
  have hend : (claimed_at.toList ++ ['\n']).reverse.dropWhile Python.isSpace = claimed_at.toList.reverse := by
    have hnewline : Python.isSpace '\n' = true := by decide
    rw [List.reverse_append, List.reverse_singleton, List.singleton_append, List.dropWhile_cons_of_pos hnewline]
    exact Python.dropWhile_reverse_of_strip hc.stripped
  have hline : strip (legacyLine r.host r.pid claimed_at).toList =
      r.host.toList ++ ':' :: ((toString r.pid).toList ++ ':' :: claimed_at.toList) := by
    have htext : (legacyLine r.host r.pid claimed_at).toList =
        (r.host.toList ++ ':' :: (toString r.pid).toList) ++ ':' :: (claimed_at.toList ++ ['\n']) := by
      simp [legacyLine]
    rw [htext, Python.strip_append_cons (by decide), hend, List.reverse_reverse,
      Python.dropWhile_append_cons (by decide), Python.dropWhile_of_strip hr.stripped]
    simp
  have hbar : '|' ∉ r.host.toList ++ ':' :: ((toString r.pid).toList ++ ':' :: claimed_at.toList) := by
    simp only [List.mem_append, List.mem_cons, not_or]
    exact ⟨hr.bar, by decide, hpid (by decide), by decide, hc.bar⟩
  have hparts : (r.host.toList ++ ':' :: ((toString r.pid).toList ++ ':' :: claimed_at.toList)).splitOn ':' =
      r.host.toList :: (toString r.pid).toList :: claimed_at.toList.splitOn ':' := by
    rw [List.splitOn_append_cons_self, List.splitOn_append_cons_self, List.splitOn_eq_singleton hr.colon,
      List.splitOn_eq_singleton (hpid (by decide))]
    rfl
  unfold parseSlotInfo
  rw [hline, if_neg (by simp), if_neg hbar]
  simp only [hparts, String.ofList_toList, natOrZero, digits_toString, Option.getD_some]
  rw [List.intercalate_splitOn, String.ofList_toList]

namespace Lockfile

open Interleave

/-! ## Renewals -/

/-- Only heartbeats of the host change the slot's file. -/
def Renewing (host : String) (gpu_id : Int) : Guard system := fun _ _ o c =>
  c.changes gpu_id = true → ∃ p, o = .heartbeat p gpu_id ∧ p.host = host

/-- The text that a command writes to the slot's file. -/
def Cmd.text (gpu_id : Int) : Cmd → Option String
  | .write gpu text => if gpu = gpu_id then some text else none
  | _ => none

/-- The last text written to the slot's file. -/
def lastText (gpu_id : Int) (w : World system) : Option String := w.trace.findSome? fun e => e.cmd.text gpu_id

/-- A call empties the file, to write it. -/
def opens (gpu_id : Int) (e : Event system) (_ : Unit) : Prop := e.cmd = .openWrite gpu_id

def closes (gpu_id : Int) (e : Event system) (_ : Unit) : Prop := (e.cmd.text gpu_id).isSome

/-- The line of a process with another heartbeat. -/
def renewedLine (r : Proc) (claimed_at : String) (deadline_ts : Nat) (t : Clock) : String :=
  r.line claimed_at t.nowIso deadline_ts

/-- **What the calls leave of the file**: it is as it was, or some call is writing it, or it is the line that was last
written. -/
def Renewed (r : Proc) (claimed_at : String) (deadline_ts : Nat) (gpu_id : Int) (text : String) (w : World system) : Prop :=
  ((∀ e ∈ w.trace, e.cmd.changes gpu_id = false) ∧ w.state.text gpu_id = text) ∨
    (w.state.text gpu_id = "" ∧ ∃ n, Open (opens gpu_id) (closes gpu_id) n () w) ∨
      ∃ t, w.state.text gpu_id = renewedLine r claimed_at deadline_ts t ∧
        lastText gpu_id w = some (renewedLine r claimed_at deadline_ts t)

/-- What a heartbeat does to the file: it empties it, and then writes the line. -/
def Renews (r : Proc) (claimed_at : String) (deadline_ts : Nat) (gpu_id : Int) (w : World system)
    (e : Event system) : Prop :=
  e.cmd.changes gpu_id = true → e.cmd = .openWrite gpu_id ∨ (∃ e' ∈ w.trace, e'.cmd.changes gpu_id = true) ∧
    ∃ t, e.cmd = .write gpu_id (renewedLine r claimed_at deadline_ts t)

theorem length_line {h h' : String} {d : Int} (hlen : h'.toList.length = h.toList.length) :
    (r.line claimed_at h' d).toList.length = (r.line claimed_at h d).toList.length := by
  rw [toList_line, toList_line]
  simp only [List.length_append, List.length_cons, hlen]

/-- A line is as long as another. -/
theorem length_renewedLine (t t' : Clock) : (renewedLine r claimed_at deadline_ts t').toList.length =
    (renewedLine r claimed_at deadline_ts t).length := by
  have hlen : t'.nowIso.toList.length = t.nowIso.toList.length := (length_nowIso t').trans (length_nowIso t).symm
  exact (length_line hlen).trans String.length_toList

theorem overlay_of_length {text old : String} (h : old.toList.length = text.length) : overlay text old = text := by
  rw [overlay, List.drop_of_length_le h.le]
  simp

theorem findSome_of_none {w w' : World system} {e : Event system} {gpu_id : Int} (hf : Fires w e w')
    (h : e.cmd.text gpu_id = none) : lastText gpu_id w' = lastText gpu_id w := by
  rw [lastText, hf.2, List.findSome?_cons, h]
  rfl

theorem text_of_not {c : Cmd} {gpu_id : Int} (h : c.changes gpu_id = false) : c.text gpu_id = none := by
  cases c with
  | write gpu text => exact if_neg (by simpa [Cmd.changes] using h)
  | _ => rfl

variable {gpu_id : Int} {text : String} {w w' : World system} {e : Event system}

/-- **A command of these calls.** -/
theorem renewed_fires (h : Renewed r claimed_at deadline_ts gpu_id text w)
    (he : Renews r claimed_at deadline_ts gpu_id w e) (hf : Fires w e w') :
    Renewed r claimed_at deadline_ts gpu_id text w' := by
  obtain ⟨i, hx⟩ := hf.1
  cases hc : e.cmd.changes gpu_id with
  | false =>
    have htext : w'.state.text gpu_id = w.state.text gpu_id := text_of_not_changes hx hc
    have hnone : e.cmd.text gpu_id = none := text_of_not hc
    rcases h with ⟨hnot, hsame⟩ | ⟨hempty, n, hopen⟩ | ⟨t, hsame, hlast⟩
    · refine .inl ⟨fun e' he' => ?_, htext.trans hsame⟩
      rw [hf.2, List.mem_cons] at he'
      rcases he' with rfl | he'
      · exact hc
      · exact hnot e' he'
    · refine .inr (.inl ⟨htext.trans hempty, n, (open_same hf ?_ ?_ n).mpr hopen⟩)
      · intro hop
        have hop : e.cmd = .openWrite gpu_id := hop
        rw [hop] at hc
        simp [Cmd.changes] at hc
      · intro hcl
        have hcl : (e.cmd.text gpu_id).isSome := hcl
        rw [hnone] at hcl
        cases hcl
    · exact .inr (.inr ⟨t, htext.trans hsame, (findSome_of_none hf hnone).trans hlast⟩)
  | true =>
    obtain ⟨call, op, c, x⟩ := e
    rcases he hc with hopen | ⟨⟨e', he', hchanged⟩, t, hwrite⟩
    · obtain rfl : c = .openWrite gpu_id := hopen
      have hx : some ((), w.state.setText gpu_id "") = some (x, w'.state) := hx
      have hstate : w.state.setText gpu_id "" = w'.state := (Prod.mk.inj (Option.some.inj hx)).2
      refine .inr (.inl ⟨?_, call, (open_own hf ()).mpr (.inl rfl)⟩)
      rw [← hstate, Swarm.text_setText, if_pos rfl]
    · obtain rfl : c = .write gpu_id (renewedLine r claimed_at deadline_ts t) := hwrite
      have hx : some ((), w.state.setText gpu_id (overlay (renewedLine r claimed_at deadline_ts t)
        (w.state.text gpu_id))) = some (x, w'.state) := hx
      have hstate := (Prod.mk.inj (Option.some.inj hx)).2
      refine .inr (.inr ⟨t, ?_, ?_⟩)
      · rw [← hstate, Swarm.text_setText, if_pos rfl]
        rcases h with ⟨hnot, -⟩ | ⟨hempty, -⟩ | ⟨t', hsame, -⟩
        · rw [hnot e' he'] at hchanged
          cases hchanged
        · rw [hempty, overlay_empty]
        · rw [hsame, overlay_of_length (length_renewedLine t t')]
      · rw [lastText, hf.2, List.findSome?_cons]
        simp [Cmd.text]

/-! ## The calls -/

/-- The discipline of such runs. -/
def renewing (r : Proc) (claimed_at : String) (deadline_ts : Nat) (gpu_id : Int) (text : String) : Discipline system :=
  ⟨Renewing r.host gpu_id, Renewed r claimed_at deadline_ts gpu_id text, Renews r claimed_at deadline_ts gpu_id⟩

/-- Call `n` is not writing the file. -/
abbrev Rests (gpu_id : Int) (n : Nat) : World system → Prop := OpenIn (opens gpu_id) (closes gpu_id) ∅ n

variable {n : Nat} {o : Op} {α : Type}

/-- A command that does not change the file. -/
theorem rests_of_quiet {c : Cmd} {x : Resp c} (hc : c.changes gpu_id = false) (hf : Fires w ⟨n, o, c, x⟩ w')
    (h : Rests gpu_id n w) : Rests gpu_id n w' := by
  intro k hk
  refine h k ((open_same hf (fun hop => ?_) (fun hcl => ?_) n).mp hk)
  · have hop : c = .openWrite gpu_id := hop
    rw [hop] at hc
    simp [Cmd.changes] at hc
  · have hcl : (c.text gpu_id).isSome := hcl
    rw [text_of_not hc] at hcl
    cases hcl

theorem establishes_quiet {c : Cmd} (hc : c.changes gpu_id = false) (φ : Resp c → Prop)
    (hφ : ∀ w x w', Renewed r claimed_at deadline_ts gpu_id text w → Fires w ⟨n, o, c, x⟩ w' → φ x) :
    Establishes (renewing r claimed_at deadline_ts gpu_id text) n o (Rests gpu_id n) c
      fun x w => Rests gpu_id n w ∧ φ x := by
  intro w x w' hi hw _ hf
  have hrenews : Renews r claimed_at deadline_ts gpu_id w ⟨n, o, c, x⟩ := fun h => by
    rw [hc] at h
    cases h
  exact ⟨hrenews, renewed_fires hi hrenews hf, rests_of_quiet hc hf hw, hφ w x w' hi hf⟩

/-- Such a command in a program, whose answer is known to meet `φ`. -/
theorem outline_quiet {Q : Except PyError α → World system → Prop} {c : Cmd} {f : Resp c → P α}
    (hc : c.changes gpu_id = false) (φ : Resp c → Prop)
    (hφ : ∀ w x w', Renewed r claimed_at deadline_ts gpu_id text w → Fires w ⟨n, o, c, x⟩ w' → φ x)
    (hf : ∀ x, φ x → Outline (renewing r claimed_at deadline_ts gpu_id text) n o Q (f x) (Rests gpu_id n)) :
    Outline (renewing r claimed_at deadline_ts gpu_id text) n o Q (cmd c >>= f) (Rests gpu_id n) := by
  refine outline_cmd _ (fun x => stable_and stable_openIn stable_pure) (establishes_quiet hc φ hφ) fun x => ?_
  by_cases hx : φ x
  · exact outline_pre (fun _ _ h => h.1) (hf x hx)
  · exact outline_pre (P := fun _ => False) (fun _ _ h => hx h.2) outline_false

/-- An operation that is no heartbeat of the slot on the host. -/
theorem other_outline (ho : ∀ p, o = .heartbeat p gpu_id → p.host ≠ r.host) :
    Outline (renewing r claimed_at deadline_ts gpu_id text) n o (fun _ => Rests gpu_id n) (prog o) (Untouched n) := by
  refine outline_pre (fun _ _ h => openIn_of_untouched h)
    (outline_of_each stable_openIn (fun c _ w x w' hi hw hg hf => ?_) (Prog.each_true _))
  have hc : c.changes gpu_id = false := by
    rw [Bool.eq_false_iff]
    intro hchanges
    obtain ⟨p, hp, hhost⟩ := hg hchanges
    exact ho p hp hhost
  obtain ⟨hrenews, hi', hrests, -⟩ := establishes_quiet hc (fun _ => True) (fun _ _ _ _ _ => trivial) w x w' hi hw hg hf
  exact ⟨hrenews, hi', hrests⟩

section Known

variable (hr : r.Plain) (hc : '|' ∉ claimed_at.toList) (hne : claimed_at ≠ "") (hd : 0 < deadline_ts)
  (htext : parseSlotInfo text = some ⟨r.host, r.pid, claimed_at, heartbeat, deadline_ts⟩)

include hr hc in
theorem parse_renewedLine (t : Clock) : parseSlotInfo (renewedLine r claimed_at deadline_ts t) =
    some ⟨r.host, r.pid, claimed_at, t.nowIso, deadline_ts⟩ := hr.parse_line hc (nowIso_bar t)

include hr hc htext in
/-- What a call reads, if it is a line. -/
theorem parse_of_renewed (h : Renewed r claimed_at deadline_ts gpu_id text w) {info : SlotInfo}
    (hinfo : parseSlotInfo (w.state.text gpu_id) = some info) :
    ∃ heartbeat, info = ⟨r.host, r.pid, claimed_at, heartbeat, deadline_ts⟩ := by
  rcases h with ⟨-, hsame⟩ | ⟨hempty, -⟩ | ⟨t, hline, -⟩
  · rw [hsame, htext] at hinfo
    exact ⟨heartbeat, (Option.some.inj hinfo).symm⟩
  · have hnone : parseSlotInfo "" = none := rfl
    rw [hempty, hnone] at hinfo
    cases hinfo
  · rw [hline, parse_renewedLine hr hc] at hinfo
    exact ⟨t.nowIso, (Option.some.inj hinfo).symm⟩

include hr hc hne hd htext in
/-- **A heartbeat of the slot on the host.** -/
theorem heartbeat_outline {p : Proc} (hhost : p.host = r.host) :
    Outline (renewing r claimed_at deadline_ts gpu_id text) n (.heartbeat p gpu_id) (fun _ => Rests gpu_id n)
      (heartbeatSlot p gpu_id) (Rests gpu_id n) := by
  refine outline_quiet rfl (fun _ => True) (fun _ _ _ _ _ => trivial) fun there _ => ?_
  cases there with
  | false => exact outline_ret fun _ _ h => h
  | true =>
    refine outline_quiet rfl (fun x => ∀ info, parseSlotInfo x = some info →
      ∃ heartbeat, info = ⟨r.host, r.pid, claimed_at, heartbeat, deadline_ts⟩) (fun w x w' hi hf info hinfo => ?_)
      fun x hx => ?_
    · obtain ⟨⟨i, hexec⟩, -⟩ := hf
      have hread : w.state.text gpu_id = x ∧ w.state = w'.state := Prod.mk.inj (Option.some.inj hexec)
      exact parse_of_renewed hr hc htext hi (hread.1 ▸ hinfo)
    · cases hparse : parseSlotInfo x with
      | none => exact outline_ret fun _ _ h => h
      | some info =>
        obtain ⟨heartbeat', rfl⟩ := hx info hparse
        have hhost' : ¬ r.host ≠ p.host := not_not.mpr hhost.symm
        simp only [if_neg hhost', if_neg hne, if_neg hd.ne']
        refine outline_quiet rfl (fun _ => True) (fun _ _ _ _ _ => trivial) fun t _ => ?_
        refine outline_cmd (fun _ w => ∃ e ∈ w.trace, e.cmd.changes gpu_id = true) (fun _ => lasting_executed.stable)
          (fun w x w' hi _ _ hf => ?_) fun _ => ?_
        · have hrenews : Renews r claimed_at deadline_ts gpu_id w ⟨n, .heartbeat p gpu_id, .openWrite gpu_id, x⟩ :=
            fun _ => .inl rfl
          exact ⟨hrenews, renewed_fires hi hrenews hf, executed_now hf (by simp [Cmd.changes])⟩
        · refine outline_cmd (fun _ => Rests gpu_id n) (fun _ => stable_openIn) (fun w x w' hi hchanged _ hf => ?_)
            fun _ => outline_ret fun _ _ h => h
          have hrenews : Renews r claimed_at deadline_ts gpu_id w
              ⟨n, .heartbeat p gpu_id, .write gpu_id (renewedLine r claimed_at deadline_ts t), x⟩ :=
            fun _ => .inr ⟨hchanged, t, rfl⟩
          have hline : renewal ⟨r.host, r.pid, claimed_at, heartbeat', deadline_ts⟩ t t
              ((t.seconds : Int) + defaultDeadlineSeconds) = renewedLine r claimed_at deadline_ts t := by
            unfold renewal
            rw [if_neg hne, if_neg hd.ne']
            rfl
          rw [hline] at hf ⊢
          refine ⟨hrenews, renewed_fires hi hrenews hf, fun k hk => ?_⟩
          rcases (open_own hf k).mp hk with hop | ⟨-, hnot⟩
          · cases hop
          · exact absurd (by simp [closes, Cmd.text]) hnot

/-- The heartbeat of a line that some have renewed: the last one written, or the one it had. -/
def LastHeartbeat (r : Proc) (claimed_at : String) (deadline_ts : Nat) (gpu_id : Int) (old heartbeat : String)
    (w : World system) : Prop :=
  (lastText gpu_id w).elim (heartbeat = old) (· = r.line claimed_at heartbeat deadline_ts)

include hr hc hne hd htext in
/-- **After any heartbeats on the host.** -/
theorem parse_of_run {s : Swarm} {cfg : Config system} (hs : s.text gpu_id = text)
    (h : Run (Renewing r.host gpu_id) (.init s) cfg) (hq : cfg.Quiescent) :
    ∃ heartbeat', parseSlotInfo (cfg.world.state.text gpu_id) =
        some ⟨r.host, r.pid, claimed_at, heartbeat', deadline_ts⟩ ∧
      LastHeartbeat r claimed_at deadline_ts gpu_id heartbeat heartbeat' cfg.world := by
  have hout : ∀ n o, Outline (renewing r claimed_at deadline_ts gpu_id text) n o (fun _ => Rests gpu_id n) (prog o)
      (Untouched n) := by
    intro n o
    by_cases ho : ∃ p, o = .heartbeat p gpu_id ∧ p.host = r.host
    · obtain ⟨p, rfl, hhost⟩ := ho
      exact outline_pre (fun _ _ h => openIn_of_untouched h) (heartbeat_outline hr hc hne hd htext hhost)
    · exact other_outline fun p hp hhost => ho ⟨p, hp, hhost⟩
  have hsound := run_sound (D := renewing r claimed_at deadline_ts gpu_id text) hout
    (.inl ⟨fun _ he => absurd he List.not_mem_nil, hs⟩) h
  have hclosed := not_open_of_quiescent hsound h hq
  rcases hsound.inv with ⟨hnot, hsame⟩ | ⟨-, n, hopen⟩ | ⟨t, hline, hlast⟩
  · refine ⟨heartbeat, by rw [hsame, htext], ?_⟩
    have hnone : lastText gpu_id cfg.world = none :=
      List.findSome?_eq_none_iff.mpr fun e he => text_of_not (hnot e he)
    rw [LastHeartbeat, hnone]
    rfl
  · exact absurd hopen (hclosed n ())
  · refine ⟨t.nowIso, by rw [hline, parse_renewedLine hr hc], ?_⟩
    rw [LastHeartbeat, hlast]
    rfl

end Known

/-- **The format of a slot file**: both lines are read back, and a line that carries a deadline is what it was after any
heartbeats of its slot on its host, whatever else is done meanwhile, but for its heartbeat, which is the last one
written. -/
theorem slot_format_round_trip (host : String) (hcolon : ':' ∉ host.toList) (hbar : '|' ∉ host.toList)
    (hstripped : strip host.toList = host.toList) (pid : Nat) (claimed_at heartbeat : String)
    (hclaimed : Timestamp claimed_at) (hheartbeat : Timestamp heartbeat) (deadline_ts : Nat) (hd : 0 < deadline_ts) :
    parseSlotInfo (slotLine host pid claimed_at heartbeat deadline_ts) =
        some ⟨host, pid, claimed_at, heartbeat, deadline_ts⟩ ∧
      parseSlotInfo (legacyLine host pid claimed_at) = some ⟨host, pid, claimed_at, "", 0⟩ ∧
      ∀ (gpu_id : Int) (s : Swarm) (cfg : Config system),
        parseSlotInfo (s.text gpu_id) = some ⟨host, pid, claimed_at, heartbeat, deadline_ts⟩ →
        Run (Renewing host gpu_id) (.init s) cfg → cfg.Quiescent →
          ∃ heartbeat', parseSlotInfo (cfg.world.state.text gpu_id) =
              some ⟨host, pid, claimed_at, heartbeat', deadline_ts⟩ ∧
            LastHeartbeat ⟨host, pid⟩ claimed_at deadline_ts gpu_id heartbeat heartbeat' cfg.world := by
  have hr : (⟨host, pid⟩ : Proc).Plain := ⟨hcolon, hbar, hstripped⟩
  have hline : parseSlotInfo (slotLine host pid claimed_at heartbeat deadline_ts) =
      some ⟨host, pid, claimed_at, heartbeat, deadline_ts⟩ := hr.parse_line hclaimed.bar hheartbeat.bar
  have hlegacy := parse_legacyLine hr hclaimed
  refine ⟨hline, hlegacy, fun gpu_id s cfg hs h hq => ?_⟩
  exact parse_of_run hr hclaimed.bar hclaimed.ne hd hs rfl h hq

/-- A command that the guard lets pass. -/
def renews (host : String) (gpu_id : Int) (_ : World system) (_ : Nat) (o : Op) (c : Cmd) : Prop :=
  c.changes gpu_id = true → o.renews = some gpu_id ∧ o.caller.any (·.host = host) = true

instance (host : String) (gpu_id : Int) (w : World system) (n : Nat) (o : Op) (c : Cmd) :
    Decidable (renews host gpu_id w n o c) :=
  inferInstanceAs (Decidable (c.changes gpu_id = true → _ ∧ _ = true))

theorem renewing_of_renews {host : String} {c : Cmd} (h : renews host gpu_id w n o c) : Renewing host gpu_id w n o c := by
  intro hc
  obtain ⟨hrenews, hhost⟩ := h hc
  cases o with
  | heartbeat p gpu =>
    cases hrenews
    exact ⟨p, rfl, by simpa [Op.caller] using hhost⟩
  | _ => cases hrenews

/-- A slot that `first` has claimed. -/
def claimedSlot : Swarm := unclaimed.setText 1 (slotLine "a" 1 "1970-01-01T00:00:00Z" "1970-01-01T00:00:00Z" 3600)

/-- Two heartbeats, five seconds later, of which the second reads the line before the first writes it. -/
def twoHeartbeats : List (Act system) :=
  solo system 0 (.elapse 5000000) 1 [] ++ [.start 1 (.heartbeat first 1), .start 2 (.heartbeat first 1), .step 1 [],
    .step 1 [], .step 2 [], .step 2 []] ++ List.replicate 3 (.step 1 []) ++ List.replicate 3 (.step 2 [])

theorem slot_format_round_trip_twoHeartbeats :
    parseSlotInfo (slotLine "a" 1 "1970-01-01T00:00:00Z" "1970-01-01T00:00:00Z" 3600) =
        some ⟨"a", 1, "1970-01-01T00:00:00Z", "1970-01-01T00:00:00Z", 3600⟩ ∧
      ∃ cfg, Run (Renewing "a" 1) (.init claimedSlot) cfg ∧ cfg.Quiescent ∧
        cfg.world.state.text 1 = slotLine "a" 1 "1970-01-01T00:00:00Z" "1970-01-01T00:00:05Z" 3600 ∧
          ∃ heartbeat', parseSlotInfo (cfg.world.state.text 1) = some ⟨"a", 1, "1970-01-01T00:00:00Z", heartbeat', 3600⟩ ∧
            LastHeartbeat first "1970-01-01T00:00:00Z" 3600 1 "1970-01-01T00:00:00Z" heartbeat' cfg.world := by
  have hplay : (play (renews "a" 1) (.init claimedSlot) twoHeartbeats).any (fun cfg =>
      (starts twoHeartbeats).all cfg.atRest && decide (cfg.world.state.text 1 =
        slotLine "a" 1 "1970-01-01T00:00:00Z" "1970-01-01T00:00:05Z" 3600)) = true := by
    decide +kernel
  obtain ⟨cfg, hcfg, hquiet, ht⟩ := exists_quiescent_of_play hplay
  have hrun : Run (Renewing "a" 1) (.init claimedSlot) cfg := hcfg.mono fun _ _ _ _ => renewing_of_renews
  have htime : Timestamp "1970-01-01T00:00:00Z" := ⟨by decide, by decide, by decide +kernel⟩
  obtain ⟨hline, -, hrenewed⟩ := slot_format_round_trip "a" (by decide) (by decide) (by decide) 1
    "1970-01-01T00:00:00Z" "1970-01-01T00:00:00Z" htime htime 3600 (by decide)
  exact ⟨hline, cfg, hrun, hquiet, of_decide_eq_true ht, hrenewed 1 claimedSlot cfg hline hrun hquiet⟩

end Lockfile

end ClaudeSwarm.GpuSlots
