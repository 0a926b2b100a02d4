import ClaudeSwarm.Data.CalendarOrder
import ClaudeSwarm.HealthMonitor.Deadline
import Mathlib.Data.List.TakeWhile

/-!
# Cooldowns and restarts

Model of the cooldowns of `src/health_monitor.py`: the last action on a rule and a host is in memory, in a file with
keys `rule|host`, and in the event log, whose times are whole seconds. A restart loads the file, or begins with an empty
memory; `_in_cooldown` then falls back on the event log. Saving the file and recording an event do not fail here, and
the texts of an event are left out.

* `load_save`: what was saved is loaded.
* `lastActionTime_spec`: the event log gives the latest action.
* `inv_handle`: what a handled item keeps; memory and file are never older than the last action, if they know of one.
* **`cooldown_respected`**: two actions of a rule on a host are apart by the cooldown, less a second.
-/

namespace ClaudeSwarm.HealthMonitor

open Data
open Python (Time)

/-! ## The rules -/

/-- An entry of `RULES`, as far as it is read here. -/
structure RuleEntry where
  name : String
  check : String
  severity : String
  auto_remediate : Bool
  action : String
  cooldown_minutes : Option Int := none
  escalate : String := ""

/-- `RULES`. -/
def RULES : List RuleEntry :=
  [{ name := "service_down", check := "prometheus_query", severity := "high", auto_remediate := true,
     action := "restart_service", cooldown_minutes := some 10 },
   { name := "nfs_replica_drift", check := "nfs_sync", severity := "medium", auto_remediate := true,
     action := "force_sync_replica", cooldown_minutes := some 5 },
   { name := "stale_node", check := "swarm_heartbeat", severity := "high", auto_remediate := false,
     action := "ssh_health_check", escalate := "email" },
   { name := "uncommitted_changes", check := "git_dirty", severity := "low", auto_remediate := false,
     action := "warn_swarm_message", cooldown_minutes := some 1440 },
   { name := "disk_space_low", check := "disk_usage", severity := "high", auto_remediate := false,
     action := "alert_email", cooldown_minutes := some 60 },
   { name := "prometheus_target_down", check := "prometheus_query", severity := "medium", auto_remediate := false,
     action := "alert_swarm_broadcast", cooldown_minutes := some 15 },
   { name := "gpu_vram_full", check := "prometheus_query", severity := "high", auto_remediate := false,
     action := "alert_email", cooldown_minutes := some 60 },
   { name := "p2pool_no_shares", check := "prometheus_query", severity := "high", auto_remediate := false,
     action := "alert_email", cooldown_minutes := some 60 },
   { name := "prometheus_unavailable", check := "prometheus_health", severity := "high", auto_remediate := false,
     action := "alert_email", cooldown_minutes := some 60 },
   { name := "task_deadline_exceeded", check := "task_deadline", severity := "high", auto_remediate := true,
     action := "requeue_task", cooldown_minutes := some 5 },
   { name := "nfs_unhealthy", check := "nfs_health", severity := "critical", auto_remediate := false,
     action := "alert_email", cooldown_minutes := some 15 }]

/-- A rule with its cooldown, or that of its action in the configuration, in seconds there. -/
def RuleEntry.load (cooldowns_cfg : Dict String Int) (r : RuleEntry) : Rule where
  name := r.name
  check := r.check
  severity := r.severity
  auto_remediate := r.auto_remediate
  action := r.action
  cooldown_minutes := ((r.cooldown_minutes.or ((cooldowns_cfg.get? r.action).map (· / 60))).getD 0 : Int)
  escalate := r.escalate

/-- `_load_rules`. -/
def loadRules (cooldowns_cfg : Dict String Int) : List Rule := RULES.map (RuleEntry.load cooldowns_cfg)

/-! ## The code -/

/-- `now_iso`. -/
def nowIso (now : Time) : String := .ofList (isoFormat ⌊now⌋₊)

/-- A row of `health_events`, as far as it is read. -/
structure Row where
  timestamp : String
  rule_name : String
  host : String
  action_taken : String

/-- `_cooldown_state`, its file, and the event log, newest row first. -/
structure Service where
  cooldown_state : Dict (String × String) Time
  cooldown_file : Dict String Time
  events : List Row

/-- A key of the file. -/
def packKey (k : String × String) : String := k.1 ++ "|" ++ k.2

/-- `k.split("|", 1)`, if there is a bar. -/
def unpackKey (key : String) : Option (String × String) :=
  if '|' ∈ key.toList then
    some (.ofList (key.toList.takeWhile (· ≠ '|')), .ofList (key.toList.dropWhile (· ≠ '|')).tail)
  else none

/-- `_load_cooldowns` of a file that is there and can be read. -/
def loadCooldowns (file : Dict String Time) : Dict (String × String) Time :=
  .ofList (file.entries.filterMap fun e => (unpackKey e.1).map fun k => (k, e.2))

/-- What `_save_cooldowns` writes. -/
def saveCooldowns (state : Dict (String × String) Time) : Dict String Time :=
  .ofList (state.entries.map fun e => (packKey e.1, e.2))

/-- How a call of `execute` or `send_alert_email` ends. -/
inductive Ended where
  | returned (success : Bool)
  | valueError
  | raised

/-- An item that is handled: when its cooldown was checked, when the action was started and when it ended, when that was
recorded and logged. -/
structure Handling where
  checked : Time
  started : Time
  finished : Time
  recorded : Time
  logged : Time
  action : Ended
  email : Ended
  inOrder : checked ≤ started ∧ started ≤ finished ∧ finished ≤ recorded ∧ recorded ≤ logged

namespace Service

variable (s : Service)

/-- `EventLog.last_action_time`. -/
def lastActionTime (rule_name host : String) : Option String :=
  ((s.events.filter fun row =>
    row.rule_name = rule_name ∧ (host = "" ∨ row.host = host) ∧ row.action_taken ≠ "").map Row.timestamp).max?

/-- `_in_cooldown`. -/
def inCooldown (rule : Rule) (host : String) (now : Time) : Bool :=
  if rule.cooldown_minutes ≤ 0 then false
  else
    let last := (s.cooldown_state.get? (rule.name, host)).or <|
      (s.lastActionTime rule.name host).bind fun last_str =>
        if last_str = "" then none else (fromIsoFormat (zuluOffset last_str.toList)).map fun second => (second : Time)
    last.any fun last => (now - last) / 60 < rule.cooldown_minutes

/-- `_record_action`. -/
def recordAction (rule : Rule) (host : String) (now : Time) : Service :=
  let state := s.cooldown_state.set (rule.name, host) now
  { s with cooldown_state := state, cooldown_file := saveCooldowns state }

/-- `EventLog.record`. -/
def record (rule : Rule) (host action_taken : String) (now : Time) : Service :=
  { s with events := ⟨nowIso now, rule.name, host, action_taken⟩ :: s.events }

/-- The item is acted on. -/
def acts (rule : Rule) (host : String) (h : Handling) : Bool := rule.action ≠ "" ∧ !s.inCooldown rule host h.checked

/-- `_handle_triggered`. -/
def handleTriggered (rule : Rule) (host : String) (h : Handling) : Service :=
  if s.acts rule host h then
    match h.action with
    | .returned success =>
      let s := s.recordAction rule host h.recorded
      if rule.auto_remediate ∧ !success ∧ rule.escalate = "email" then
        match h.email with
        | .raised => s
        | _ => s.record rule host rule.action h.logged
      else s.record rule host rule.action h.logged
    | .valueError => s.record rule host rule.action h.logged
    | .raised => if rule.auto_remediate then s else s.record rule host rule.action h.logged
  else s.record rule host "" h.logged

/-- A new process; `loads` is whether the file can be loaded. -/
def restart (loads : Bool) : Service :=
  { s with cooldown_state := if loads then loadCooldowns s.cooldown_file else .empty }

/-- `EventLog.prune`, of 30 days. -/
def prune (now : Time) : Service :=
  { s with events := s.events.filter fun row => ¬ row.timestamp < nowIso (now - 30 * 86400) }

end Service

/-! ## Runs -/

/-- A call of `execute` that returned. -/
structure Executed where
  rule : Rule
  host : String
  started : Time
  finished : Time

/-- The calls of `execute` that a handled item makes and that return. -/
def Service.executed (s : Service) (rule : Rule) (host : String) (h : Handling) : List Executed :=
  match s.acts rule host h, h.action with
  | true, .returned _ => [⟨rule, host, h.started, h.finished⟩]
  | _, _ => []

/-- The row has a time that `now_iso` writes. -/
def Row.Stamped (row : Row) : Prop := ∃ second < 253402300800, row.timestamp = String.ofList (isoFormat second)

/-- The runs of a service, with the clock and the calls of `execute` that returned, newest first. -/
inductive Service.Run (rules : List Rule) : Time → Service → List Executed → Prop
  | start (now : Time) (hnow : 0 ≤ now) (file : Dict String Time) (events : List Row) (loads : Bool)
    (h : ∀ row ∈ events, row.Stamped) : Run rules now (Service.restart ⟨.empty, file, events⟩ loads) []
  | handle {now : Time} {s : Service} {l : List Executed} (rule : Rule) (host : String) (h : Handling)
    (hrun : Run rules now s l) (hrule : rule ∈ rules) (hnow : now ≤ h.checked) (hdate : h.logged < maxTime) :
    Run rules h.logged (s.handleTriggered rule host h) (s.executed rule host h ++ l)
  | restart {now : Time} {s : Service} {l : List Executed} (loads : Bool) (hrun : Run rules now s l) :
    Run rules now (s.restart loads) l
  | prune {now : Time} {s : Service} {l : List Executed} (t : Time) (hrun : Run rules now s l) (hnow : now ≤ t)
    (hdate : t < maxTime) : Run rules t (s.prune t) l

/-! ## The file -/

/-- The rules of the keys have no bar. -/
def Plain (state : Dict (String × String) Time) : Prop := ∀ k ∈ state.keys, '|' ∉ k.1.toList

theorem unpackKey_packKey {k : String × String} (h : '|' ∉ k.1.toList) : unpackKey (packKey k) = some k := by
  have htext : (packKey k).toList = k.1.toList ++ '|' :: k.2.toList := by
    simp [packKey, String.toList_append]
  have hall : ∀ c ∈ k.1.toList, decide (c ≠ '|') = true := fun c hc => decide_eq_true fun he => h (he ▸ hc)
  have htake : (packKey k).toList.takeWhile (· ≠ '|') = k.1.toList := by
    rw [htext, List.takeWhile_append_of_pos hall, List.takeWhile_cons_of_neg (by simp), List.append_nil]
  have hdrop : (packKey k).toList.dropWhile (· ≠ '|') = '|' :: k.2.toList := by
    rw [htext, List.dropWhile_append_of_pos hall, List.dropWhile_cons_of_neg (by simp)]
  rw [unpackKey, if_pos (by rw [htext]; simp), htake, hdrop, List.tail_cons, String.ofList_toList, String.ofList_toList]

theorem plain_of_unpackKey {key : String} {k : String × String} (h : unpackKey key = some k) : '|' ∉ k.1.toList := by
  unfold unpackKey at h
  split at h
  · cases h
    rw [String.toList_ofList]
    intro hmem
    simpa using List.mem_takeWhile_imp hmem
  · cases h

theorem plain_load (file : Dict String Time) : Plain (loadCooldowns file) := by
  intro k hk
  rw [loadCooldowns, Dict.mem_keys_ofList, List.mem_map] at hk
  obtain ⟨e, he, rfl⟩ := hk
  obtain ⟨_, _, hkey⟩ := List.mem_filterMap.mp he
  obtain ⟨_, hunpack, rfl⟩ := Option.map_eq_some_iff.mp hkey
  exact plain_of_unpackKey hunpack

/-- **What was saved is loaded.** -/
theorem load_save {state : Dict (String × String) Time} (h : Plain state) :
    loadCooldowns (saveCooldowns state) = state := by
  have hback : ∀ e ∈ state.entries, unpackKey (packKey e.1) = some e.1 := fun e he =>
    unpackKey_packKey (h e.1 (List.mem_map_of_mem he))
  have hinj : ∀ k ∈ state.keys, ∀ k' ∈ state.keys, packKey k = packKey k' → k = k' := fun k hk k' hk' he => by
    have hunpack :=
      (unpackKey_packKey (h k hk)).symm.trans ((congrArg unpackKey he).trans (unpackKey_packKey (h k' hk')))
    exact Option.some.inj hunpack
  have hkeys : ((state.entries.map fun e => (packKey e.1, e.2)).map Prod.fst).Nodup := by
    have hmap : (state.entries.map fun e => (packKey e.1, e.2)).map Prod.fst = state.keys.map packKey := by
      simp [Dict.keys, List.map_map, Function.comp_def]
    rw [hmap]
    exact List.Nodup.map_on hinj state.nodup
  have hsame : (state.entries.map fun e => (packKey e.1, e.2)).filterMap
      (fun e => (unpackKey e.1).map fun k => (k, e.2)) = state.entries := by
    rw [List.filterMap_map]
    refine (List.filterMap_congr fun e he => ?_).trans List.filterMap_some
    simp [hback e he]
  have hentries : (loadCooldowns (saveCooldowns state)).entries = state.entries := by
    rw [loadCooldowns, saveCooldowns, Dict.ofList_of_nodup hkeys, hsame]
    exact Dict.ofList_of_nodup state.nodup
  cases hload : loadCooldowns (saveCooldowns state)
  rw [hload] at hentries
  cases state
  congr

/-! ## The event log -/

theorem nowIso_stamped {now : Time} (h : now < maxTime) :
    ⌊now⌋₊ < 253402300800 ∧ now < (⌊now⌋₊ : Time) + 1 := by
  refine ⟨?_, Nat.lt_floor_add_one now⟩
  by_cases hpos : 0 ≤ now
  · exact (Nat.floor_lt hpos).mpr h
  · rw [Nat.floor_of_nonpos (not_le.mp hpos).le]
    decide

/-- What the time of a row is read as. -/
theorem fromIsoFormat_stamped {second : Nat} (h : second < 253402300800) :
    (if String.ofList (isoFormat second) = "" then none
      else (fromIsoFormat (zuluOffset (String.ofList (isoFormat second)).toList)).map fun t => (t : Time)) =
      some (second : Time) := by
  have hne : String.ofList (isoFormat second) ≠ "" := fun he => by
    have hlist := congrArg String.toList he
    rw [String.toList_ofList] at hlist
    simp [isoFormat, twoDigits] at hlist
  rw [if_neg hne, String.toList_ofList, fromIsoFormat_isoFormat h]
  rfl

/-- The event log has an action on rule and host, that ended at `t`; or that was so long ago that it is pruned. -/
def Logged (events : List Row) (rule_name host : String) (t now : Time) : Prop :=
  (∃ row ∈ events, row.rule_name = rule_name ∧ row.host = host ∧ row.action_taken ≠ "" ∧
    ∃ second < 253402300800, row.timestamp = String.ofList (isoFormat second) ∧ t < (second : Time) + 1) ∨
    t + 30 * 86400 ≤ now

/-- **The latest action** is not before any other. -/
theorem lastActionTime_spec {s : Service} {rule_name host : String} {row : Row} {second : Nat}
    (hstamped : ∀ row ∈ s.events, row.Stamped) (hrow : row ∈ s.events) (hrule : row.rule_name = rule_name)
    (hhost : row.host = host) (haction : row.action_taken ≠ "") (hsecond : second < 253402300800)
    (htime : row.timestamp = String.ofList (isoFormat second)) :
    ∃ last < 253402300800, s.lastActionTime rule_name host = some (String.ofList (isoFormat last)) ∧ second ≤ last := by
  have hmem : row.timestamp ∈ (s.events.filter fun row =>
      row.rule_name = rule_name ∧ (host = "" ∨ row.host = host) ∧ row.action_taken ≠ "").map Row.timestamp :=
    List.mem_map_of_mem (List.mem_filter.mpr ⟨hrow, decide_eq_true ⟨hrule, .inr hhost, haction⟩⟩)
  cases hmax : s.lastActionTime rule_name host with
  | none =>
    rw [Service.lastActionTime, List.max?_eq_none_iff] at hmax
    rw [hmax] at hmem
    exact absurd hmem List.not_mem_nil
  | some text =>
    obtain ⟨htext, hle⟩ := List.max?_eq_some_iff.mp hmax
    obtain ⟨newest, hnewest, rfl⟩ := List.mem_map.mp htext
    obtain ⟨last, hlast, hstamp⟩ := hstamped newest (List.mem_of_mem_filter hnewest)
    refine ⟨last, hlast, congrArg some hstamp, ?_⟩
    by_contra hlt
    have hafter := (isoFormat_lt_iff hlast hsecond).mpr (not_le.mp hlt)
    rw [← hstamp, ← htime] at hafter
    exact absurd (hle _ hmem) (not_le.mpr hafter)

/-! ## The invariant -/

/-- No rule has a bar in its name, or sends a mail when its action fails. -/
def Sane (rules : List Rule) : Prop :=
  ∀ rule ∈ rules, '|' ∉ rule.name.toList ∧ ¬ (rule.auto_remediate ∧ rule.escalate = "email")

theorem sane_loadRules (cooldowns_cfg : Dict String Int) : Sane (loadRules cooldowns_cfg) := by
  have hentries : ∀ r ∈ RULES, '|' ∉ r.name.toList ∧ ¬ (r.auto_remediate ∧ r.escalate = "email") := by
    simp [RULES]
  intro rule hrule
  obtain ⟨r, hr, rfl⟩ := List.mem_map.mp hrule
  exact hentries r hr

/-- What is known of the actions: if memory or file know of the last action on a rule and host, they know of none that
is older, and the event log knows of them all. -/
structure Inv (now : Time) (s : Service) (l : List Executed) : Prop where
  stamped : ∀ row ∈ s.events, row.Stamped
  plain : Plain s.cooldown_state
  past : ∀ x ∈ l, x.finished ≤ now
  memory : ∀ x ∈ l, ∀ last, s.cooldown_state.get? (x.rule.name, x.host) = some last → x.finished ≤ last
  file : ∀ x ∈ l, ∀ last, (loadCooldowns s.cooldown_file).get? (x.rule.name, x.host) = some last → x.finished ≤ last
  logged : ∀ x ∈ l, Logged s.events x.rule.name x.host x.finished now

section

variable {now t : Time} {s : Service} {l : List Executed} {rule : Rule} {host : String} {h : Handling}

theorem Logged.later {events : List Row} {rule_name : String} {x : Time} (hlogged : Logged events rule_name host x now)
    (hnow : now ≤ t) : Logged events rule_name host x t :=
  hlogged.imp id fun hold => hold.trans hnow

/-- The clock goes on. -/
theorem Inv.later (hi : Inv now s l) (hnow : now ≤ t) : Inv t s l :=
  ⟨hi.stamped, hi.plain, fun x hx => (hi.past x hx).trans hnow, hi.memory, hi.file,
    fun x hx => (hi.logged x hx).later hnow⟩

/-- An item that is acted on comes after the cooldown of the last action that is known. -/
theorem after_last {last : Time} (hpos : 0 < rule.cooldown_minutes)
    (hlast : (s.cooldown_state.get? (rule.name, host)).or ((s.lastActionTime rule.name host).bind fun last_str =>
      if last_str = "" then none
      else (fromIsoFormat (zuluOffset last_str.toList)).map fun second => (second : Time)) = some last)
    (hclosed : s.inCooldown rule host t = false) : rule.cooldown_minutes * 60 ≤ t - last := by
  rw [Service.inCooldown, if_neg (not_le.mpr hpos), hlast] at hclosed
  exact (le_div_iff₀ (by norm_num)).mp (not_lt.mp (of_decide_eq_false hclosed))

/-- The event log, where memory knows of nothing. -/
theorem spaced_of_logged (hi : Inv now s l) (hclosed : s.inCooldown rule host t = false) (hnow : now ≤ t)
    (hpos : 0 < rule.cooldown_minutes) (hmonth : rule.cooldown_minutes * 60 < 30 * 86400)
    (hmemory : s.cooldown_state.get? (rule.name, host) = none) {x : Time}
    (hlogged : Logged s.events rule.name host x now) : rule.cooldown_minutes * 60 - 1 ≤ t - x := by
  rcases hlogged with ⟨row, hrow, hrule, hhost, haction, second, hsecond, htime, hless⟩ | hold
  · obtain ⟨last, hlast, hspec, hle⟩ := lastActionTime_spec hi.stamped hrow hrule hhost haction hsecond htime
    have hafter : rule.cooldown_minutes * 60 ≤ t - last := by
      refine after_last hpos ?_ hclosed
      rw [hmemory, hspec, Option.none_or, Option.bind_some]
      exact fromIsoFormat_stamped hlast
    have hsecond' : (second : Time) ≤ last := Nat.cast_le.mpr hle
    linarith
  · linarith

/-- **An item that is acted on** comes after the cooldown of the earlier actions. -/
theorem spaced (hi : Inv now s l) (hnow : now ≤ t) (hclosed : s.inCooldown rule host t = false)
    (hpos : 0 < rule.cooldown_minutes) (hmonth : rule.cooldown_minutes * 60 < 30 * 86400) {x : Executed} (hx : x ∈ l)
    (hrule : x.rule.name = rule.name) (hhost : x.host = host) :
    rule.cooldown_minutes * 60 - 1 ≤ t - x.finished := by
  cases hmemory : s.cooldown_state.get? (rule.name, host) with
  | none =>
    have hlogged := hi.logged x hx
    rw [hrule, hhost] at hlogged
    exact spaced_of_logged hi hclosed hnow hpos hmonth hmemory hlogged
  | some last =>
    have hlast := hi.memory x hx last (by rw [hrule, hhost]; exact hmemory)
    have hafter : rule.cooldown_minutes * 60 ≤ t - last :=
      after_last hpos (by rw [hmemory, Option.some_or]) hclosed
    linarith

/-! ## Steps -/

/-- An event is recorded. -/
theorem Inv.record (hi : Inv now s l) (hnow : now ≤ t) (hdate : t < maxTime) (action_taken : String) :
    Inv t (s.record rule host action_taken t) l := by
  have hrow : Row.Stamped ⟨nowIso t, rule.name, host, action_taken⟩ := ⟨⌊t⌋₊, (nowIso_stamped hdate).1, rfl⟩
  refine ⟨fun row hr => ?_, hi.plain, fun x hx => (hi.past x hx).trans hnow, hi.memory, hi.file, fun x hx => ?_⟩
  · rcases List.mem_cons.mp hr with rfl | hr
    · exact hrow
    · exact hi.stamped row hr
  · rcases (hi.logged x hx).later hnow with ⟨row, hr, hrest⟩ | hold
    · exact .inl ⟨row, List.mem_cons_of_mem _ hr, hrest⟩
    · exact .inr hold

/-- An action is recorded, in memory, in the file and in the event log. -/
theorem Inv.executed (hi : Inv now s l) (hnow : now ≤ h.checked) (hdate : h.logged < maxTime)
    (hbar : '|' ∉ rule.name.toList) (haction : rule.action ≠ "") :
    Inv h.logged ((s.recordAction rule host h.recorded).record rule host rule.action h.logged)
      (⟨rule, host, h.started, h.finished⟩ :: l) := by
  obtain ⟨hstart, hfinish, hrecord, hlog⟩ := h.inOrder
  have hplain : Plain (s.cooldown_state.set (rule.name, host) h.recorded) := fun k hk => by
    rcases Dict.mem_keys_set.mp hk with hk | rfl
    · exact hi.plain k hk
    · exact hbar
  have hmemory : ∀ x ∈ (⟨rule, host, h.started, h.finished⟩ :: l : List Executed), ∀ last,
      (s.cooldown_state.set (rule.name, host) h.recorded).get? (x.rule.name, x.host) = some last →
        x.finished ≤ last := fun x hx last hlast => by
    rw [Dict.get?_set] at hlast
    split at hlast
    · cases hlast
      rcases List.mem_cons.mp hx with rfl | hx
      · exact hrecord
      · linarith [hi.past x hx]
    · rename_i hother
      rcases List.mem_cons.mp hx with rfl | hx
      · exact absurd rfl hother
      · exact hi.memory x hx last hlast
  have hlater : Inv h.logged (s.record rule host rule.action h.logged) l :=
    hi.record (hnow.trans (by linarith)) hdate rule.action
  refine ⟨hlater.stamped, hplain, fun x hx => ?_, hmemory, fun x hx last hlast => ?_, fun x hx => ?_⟩
  · rcases List.mem_cons.mp hx with rfl | hx
    · exact hrecord.trans hlog
    · exact hlater.past x hx
  · refine hmemory x hx last ?_
    rw [← load_save hplain]
    exact hlast
  · rcases List.mem_cons.mp hx with rfl | hx
    · have hspec := nowIso_stamped hdate
      exact .inl ⟨_, List.mem_cons_self, rfl, rfl, haction, ⌊h.logged⌋₊, hspec.1, rfl, by linarith [hspec.2]⟩
    · exact hlater.logged x hx

/-- **A handled item.** -/
theorem inv_handle {rules : List Rule} (hsane : Sane rules) (hi : Inv now s l) (hrule : rule ∈ rules)
    (hnow : now ≤ h.checked) (hdate : h.logged < maxTime) :
    Inv h.logged (s.handleTriggered rule host h) (s.executed rule host h ++ l) := by
  obtain ⟨hbar, hmail⟩ := hsane rule hrule
  obtain ⟨hstart, hfinish, hrecord, hlog⟩ := h.inOrder
  have hend : now ≤ h.logged := by linarith
  cases hacts : s.acts rule host h with
  | false =>
    have hnone : s.executed rule host h = [] := by rw [Service.executed, hacts]
    rw [hnone, Service.handleTriggered, hacts, if_neg (by decide)]
    exact hi.record hend hdate ""
  | true =>
    have haction : rule.action ≠ "" := (of_decide_eq_true hacts).1
    rw [Service.handleTriggered, hacts, if_pos rfl]
    cases hended : h.action with
    | returned success =>
      have hone : s.executed rule host h = [⟨rule, host, h.started, h.finished⟩] := by
        rw [Service.executed, hacts, hended]
      rw [hone]
      simp only
      rw [if_neg fun hboth => hmail ⟨hboth.1, hboth.2.2⟩]
      exact hi.executed hnow hdate hbar haction
    | valueError =>
      have hnone : s.executed rule host h = [] := by rw [Service.executed, hacts, hended]
      rw [hnone]
      exact hi.record hend hdate rule.action
    | raised =>
      have hnone : s.executed rule host h = [] := by rw [Service.executed, hacts, hended]
      rw [hnone]
      simp only
      split
      · exact hi.later hend
      · exact hi.record hend hdate rule.action

theorem inv_restart (hi : Inv now s l) (loads : Bool) : Inv now (s.restart loads) l := by
  cases loads with
  | true => exact ⟨hi.stamped, plain_load _, hi.past, hi.file, hi.file, hi.logged⟩
  | false =>
    refine ⟨hi.stamped, fun k hk => ?_, hi.past, fun x hx last hlast => ?_, hi.file, hi.logged⟩
    · exact absurd hk List.not_mem_nil
    · cases hlast

theorem inv_prune (hi : Inv now s l) (hnow : now ≤ t) (hdate : t < maxTime) : Inv t (s.prune t) l := by
  refine ⟨fun row hrow => hi.stamped row (List.mem_of_mem_filter hrow), hi.plain, fun x hx => (hi.past x hx).trans hnow,
    hi.memory, hi.file, fun x hx => ?_⟩
  rcases (hi.logged x hx).later hnow with ⟨row, hrow, hrule, hhost, haction, second, hsecond, htime, hless⟩ | hold
  · by_cases hcut : row.timestamp < nowIso (t - 30 * 86400)
    · have hcutoff : t - 30 * 86400 < maxTime := by linarith
      rw [htime, nowIso, isoFormat_lt_iff hsecond (nowIso_stamped hcutoff).1] at hcut
      have hfloor : ((second + 1 : Nat) : Time) ≤ t - 30 * 86400 := (Nat.le_floor_iff' (by omega)).mp hcut
      push_cast at hfloor
      exact .inr (by linarith)
    · exact .inl ⟨row, List.mem_filter.mpr ⟨hrow, decide_eq_true hcut⟩, hrule, hhost, haction, second, hsecond, htime,
        hless⟩
  · exact .inr hold

theorem inv_run {rules : List Rule} (hsane : Sane rules) (hrun : s.Run rules now l) : Inv now s l := by
  induction hrun with
  | start now _ file events loads hstamped =>
    refine inv_restart ⟨hstamped, fun k hk => absurd hk List.not_mem_nil, ?_, ?_, ?_, ?_⟩ loads
    all_goals exact fun x hx => absurd hx List.not_mem_nil
  | handle rule host h _ hrule hnow hdate ih => exact inv_handle hsane ih hrule hnow hdate
  | restart loads _ ih => exact inv_restart ih loads
  | prune t _ hnow hdate ih => exact inv_prune ih hnow hdate

/-- **The cooldown**: over restarts, and whatever of memory and file is lost with them, two actions of a rule on a host
that returned are apart by the cooldown of the rule, less a second. -/
theorem cooldown_respected {cooldowns_cfg : Dict String Int} (hrun : s.Run (loadRules cooldowns_cfg) now l)
    (hpos : 0 < rule.cooldown_minutes) (hmonth : rule.cooldown_minutes * 60 < 30 * 86400) :
    l.Pairwise fun later earlier => later.rule = rule → earlier.rule = rule → later.host = earlier.host →
      rule.cooldown_minutes * 60 - 1 ≤ later.started - earlier.finished := by
  have hsane := sane_loadRules cooldowns_cfg
  induction hrun with
  | start => exact .nil
  | @handle now s l rule' host h hrun hrule hnow hdate ih =>
    cases hacts : s.acts rule' host h with
    | false => rwa [Service.executed, hacts]
    | true =>
      cases hended : h.action with
      | valueError => rwa [Service.executed, hacts, hended]
      | raised => rwa [Service.executed, hacts, hended]
      | returned success =>
        rw [Service.executed, hacts, hended]
        refine .cons (fun x hx hlater hearlier hhost => ?_) ih
        have hclosed : s.inCooldown rule' host h.checked = false :=
          by simpa using (of_decide_eq_true hacts).2
        subst hlater
        have hspace := spaced (inv_run hsane hrun) hnow hclosed hpos hmonth hx (congrArg Rule.name hearlier) hhost.symm
        have hstart := h.inOrder.1
        exact hspace.trans (by linarith)
  | restart _ _ ih => exact ih
  | prune _ _ _ _ ih => exact ih

end

/-! ## A rule and a restart -/

/-- The rule for disks, where no cooldowns are configured. -/
def diskSpaceLow : Rule := RuleEntry.load .empty
  { name := "disk_space_low", check := "disk_usage", severity := "high", auto_remediate := false,
    action := "alert_email", cooldown_minutes := some 60 }

theorem diskSpaceLow_mem : diskSpaceLow ∈ loadRules .empty := List.mem_map.mpr ⟨_, by simp [RULES], rfl⟩

/-- An item that is handled at once. -/
def handledAt (t : Time) : Handling :=
  ⟨t, t, t, t, t, .returned true, .raised, le_refl t, le_refl t, le_refl t, le_refl t⟩

/-- A new service. -/
def started : Service := Service.restart ⟨.empty, .empty, []⟩ true

/-- The disks are handled, and the service is restarted without its file. -/
def restarted : Service := (started.handleTriggered diskSpaceLow "a" (handledAt 0)).restart false

/-- `cooldown_respected` of a second item, an hour later. -/
theorem cooldown_respected_restarted : ∃ s l, Service.Run (loadRules .empty) 3600 s l ∧ l.length = 2 ∧
    l.Pairwise fun later earlier =>
      later.rule = diskSpaceLow → earlier.rule = diskSpaceLow → later.host = earlier.host →
      diskSpaceLow.cooldown_minutes * 60 - 1 ≤ later.started - earlier.finished := by
  have hstart : started.Run (loadRules .empty) 0 [] :=
    .start 0 le_rfl _ _ _ fun row hrow => absurd hrow List.not_mem_nil
  have hrestarted : restarted.Run (loadRules .empty) 0 (started.executed diskSpaceLow "a" (handledAt 0) ++ []) :=
    .restart false
      (.handle diskSpaceLow "a" (handledAt 0) hstart diskSpaceLow_mem le_rfl (by norm_num [handledAt, maxTime]))
  have hrun := Service.Run.handle diskSpaceLow "a" (handledAt 3600) hrestarted diskSpaceLow_mem
    (by norm_num [handledAt]) (by norm_num [handledAt, maxTime])
  refine ⟨_, _, hrun, ?_, cooldown_respected hrun ?_ ?_⟩
  · decide +kernel
  · norm_num [diskSpaceLow, RuleEntry.load]
  · norm_num [diskSpaceLow, RuleEntry.load]

end ClaudeSwarm.HealthMonitor
