import ClaudeSwarm.Hydra.Registry
import ClaudeSwarm.Python

/-!
# The ids of dispatches

Model of how `dispatch()` (`src/hydra_dispatch.py`) and `execute_plan()` (`src/remote_session.py`) name a
dispatch and its files: the seconds of the clock and the host, after a word for the function. A call is
given by what it reads: the clock, its arguments, and how the ssh process it starts goes (`Launch`).

* `dispatchId_inj`: an id says which function made it, in which second, for which host.
* `path_inj`: a path says which dispatch a file is of, and which of its files it is.
* **`distinct_iff`**: the ids, the files and the entries of all dispatches are distinct exactly when no two
  calls of one function fall in the same second for the same host.
* `same_second`: two calls that do share an id.
-/

namespace ClaudeSwarm.Hydra

open Python (Time)

/-- The function that makes an id. -/
inductive Kind where
  | dispatch
  | session
  deriving DecidableEq

/-- The word an id starts with. -/
def Kind.word : Kind → String
  | .dispatch => "dispatch-"
  | .session => "session-"

/-- What an id is made of. -/
structure Slot where
  kind : Kind
  second : Int
  host : String
  deriving DecidableEq

/-- `f"dispatch-{int(time.time())}-{host}"`. -/
def dispatchId (s : Slot) : String := s.kind.word ++ toString s.second ++ "-" ++ s.host

/-- The files of a dispatch. -/
inductive Ext where
  | record
  | output
  | pid
  | plan
  deriving DecidableEq

/-- The end of their names. -/
def Ext.suffix : Ext → String
  | .record => ".yaml"
  | .output => ".output"
  | .pid => ".pid"
  | .plan => ".plan.yaml"

/-- `DISPATCH_DIR`. -/
def dispatchDir : String := "/opt/swarm/artifacts/dispatches/"

/-- `DISPATCH_DIR / f"{dispatch_id}.…"`. -/
def path (id : String) (ext : Ext) : String := dispatchDir ++ id ++ ext.suffix

/-- The hosts of the two modules, and `str.lower`. -/
structure Fleet where
  dispatchHosts : List String
  sessionHosts : List String
  lower : String → String

/-- `resolve_host_key`. -/
def resolveHostKey (fleet : Fleet) (host : String) : Option String :=
  if host = "" then none
  else if host ∈ fleet.dispatchHosts then some host
  else fleet.dispatchHosts.find? fun k => fleet.lower k == fleet.lower host

/-- How the ssh process goes: it cannot be started, it runs out of time, or it ends. In the background only
whether it starts matters. -/
inductive Launch where
  | fails
  | timesOut
  | ends
  deriving DecidableEq

/-- A call of `dispatch` or of `execute_plan`. -/
inductive Call where
  | dispatch (now : Time) (host : String) (background : Bool) (launch : Launch)
  | executePlan (now : Time) (host : String) (isLocal background : Bool) (launch : Launch)

/-- A dispatch: its id, whether it is returned (otherwise the call raises), and the files written. -/
structure Made where
  slot : Slot
  returned : Bool
  files : List Ext

namespace Call

variable (fleet : Fleet)

/-- What a call makes. An unknown host is a `ValueError` in `dispatch`, and an answer in `execute_plan`. -/
def made : Call → Option Made
  | .dispatch now host background launch =>
    (resolveHostKey fleet host).map fun host =>
      let slot : Slot := ⟨.dispatch, Python.truncate now, host⟩
      match background, launch with
      | true, .fails => ⟨slot, false, [.record, .output]⟩
      | true, _ => ⟨slot, true, [.record, .output, .pid]⟩
      | false, .fails => ⟨slot, false, [.record]⟩
      | false, .timesOut => ⟨slot, true, [.record]⟩
      | false, .ends => ⟨slot, true, [.record, .output]⟩
  | .executePlan now host isLocal background launch =>
    let slot : Slot := ⟨.session, Python.truncate now, host⟩
    if isLocal then some ⟨slot, true, []⟩
    else if host ∉ fleet.sessionHosts then some ⟨slot, true, []⟩
    else
      match background, launch with
      | true, .fails => some ⟨slot, false, [.plan, .output]⟩
      | true, _ => some ⟨slot, true, [.plan, .output, .pid]⟩
      | false, .fails => some ⟨slot, false, [.plan]⟩
      | false, _ => some ⟨slot, true, [.plan]⟩

/-- The id a call returns. -/
def returned (c : Call) : Option String :=
  (c.made fleet).bind fun m => if m.returned then some (dispatchId m.slot) else none

/-- The files a call writes. -/
def files (c : Call) : List String :=
  ((c.made fleet).map fun m => m.files.map (path (dispatchId m.slot))).getD []

/-- The function, the second and the host of a call; an unknown host of `dispatch` is none. -/
def slot? : Call → Option Slot
  | .dispatch now host _ _ => (resolveHostKey fleet host).map fun host =>
    ⟨.dispatch, Python.truncate now, host⟩
  | .executePlan now host _ _ _ => some ⟨.session, Python.truncate now, host⟩

/-- The call returns an id. -/
def Returns : Call → Prop
  | .dispatch _ host _ launch => resolveHostKey fleet host ≠ none ∧ launch ≠ .fails
  | .executePlan _ host isLocal _ launch =>
    isLocal = true ∨ host ∉ fleet.sessionHosts ∨ launch ≠ .fails

/-- The call writes files. -/
def Writes : Call → Prop
  | .dispatch _ host _ _ => resolveHostKey fleet host ≠ none
  | .executePlan _ host isLocal _ _ => isLocal = false ∧ host ∈ fleet.sessionHosts

end Call

/-- Two calls of one function in the same second for the same host, both of which return an id, or both of
which write files. -/
def Clash (fleet : Fleet) (c c' : Call) : Prop :=
  (∃ s, c.slot? fleet = some s ∧ c'.slot? fleet = some s) ∧
    (c.Returns fleet ∧ c'.Returns fleet ∨ c.Writes fleet ∧ c'.Writes fleet)

/-- The dictionary after some registrations. -/
def registerAll (rs : List (View × Registration)) : Tasks :=
  rs.foldl (fun tasks r => Registry.register r.1 tasks r.2) .empty

/-- The ids returned are distinct, no file is written by two calls, and a registry that registers some of
the dispatches never replaces an entry. -/
structure Distinct (fleet : Fleet) (calls : List Call) : Prop where
  ids : (calls.filterMap (Call.returned fleet)).Nodup
  files : calls.Pairwise fun c c' => (c.files fleet).Disjoint (c'.files fleet)
  entries : ∀ rs, (rs.map fun r : View × Registration => r.2.dispatchId).Sublist
      (calls.filterMap (Call.returned fleet)) →
    ∀ pre r post, rs = pre ++ r :: post → (registerAll pre).find? r.2.dispatchId = none

/-! ## Ids and paths -/

theorem toList_dispatchId (s : Slot) : (dispatchId s).toList =
    s.kind.word.toList ++ ((toString s.second).toList ++ '-' :: s.host.toList) := by
  simp [dispatchId]

/-- The first letter of an id is that of its function. -/
theorem kind_of_append {s t : Slot} {l l' : List Char}
    (h : (dispatchId s).toList ++ l = (dispatchId t).toList ++ l') : s.kind = t.kind := by
  have hhead := congrArg List.head? h
  rw [toList_dispatchId, toList_dispatchId] at hhead
  revert hhead
  cases s.kind <;> cases t.kind <;> simp [Kind.word]

/-- **Ids.** -/
theorem dispatchId_inj {s t : Slot} (h : dispatchId s = dispatchId t) : s = t := by
  have hl := congrArg String.toList h
  have hkind := kind_of_append (congrArg (· ++ []) hl)
  rw [toList_dispatchId, toList_dispatchId, hkind] at hl
  obtain ⟨hsecond, hhost⟩ := Python.str_append_inj (List.append_cancel_left hl)
  cases s
  cases t
  rw [Slot.mk.injEq]
  exact ⟨hkind, hsecond, String.toList_inj.mp hhost⟩

/-- The files a function writes. -/
def Kind.exts : Kind → List Ext
  | .dispatch => [.record, .output, .pid]
  | .session => [.plan, .output, .pid]

/-- The last letter of a path says which of the files of its function it is. -/
theorem suffix_of_append {k : Kind} {ext ext' : Ext} (he : ext ∈ k.exts) (he' : ext' ∈ k.exts)
    {l l' : List Char} (h : l ++ ext.suffix.toList = l' ++ ext'.suffix.toList) : ext = ext' := by
  have hlast := congrArg List.getLast? h
  clear h
  revert hlast
  cases k <;> cases ext <;> cases ext' <;> simp_all [Kind.exts, Ext.suffix]

/-- **Paths.** -/
theorem path_inj {s t : Slot} {ext ext' : Ext} (he : ext ∈ s.kind.exts) (he' : ext' ∈ t.kind.exts)
    (h : path (dispatchId s) ext = path (dispatchId t) ext') : s = t := by
  have hl := congrArg String.toList h
  simp only [path, String.toList_append, List.append_assoc] at hl
  have hname := List.append_cancel_left hl
  have hkind := kind_of_append hname
  rw [← hkind] at he'
  obtain rfl := suffix_of_append he he' hname
  exact dispatchId_inj (String.toList_inj.mp (List.append_cancel_right hname))

/-! ## Calls -/

section Calls

variable {fleet : Fleet} {c c' : Call}

/-- What is made is made in the slot of the call, and its files are those of the function. -/
theorem slot_of_made {m : Made} (h : c.made fleet = some m) :
    c.slot? fleet = some m.slot ∧ (∀ ext ∈ m.files, ext ∈ m.slot.kind.exts) ∧
      (m.returned = true ↔ c.Returns fleet) ∧ (m.files ≠ [] ↔ c.Writes fleet) := by
  cases c with
  | dispatch now host background launch =>
    obtain ⟨host', hhost, rfl⟩ := Option.map_eq_some_iff.mp h
    have hslot : (Call.dispatch now host background launch).slot? fleet =
        some ⟨.dispatch, Python.truncate now, host'⟩ := by simp [Call.slot?, hhost]
    cases background <;> cases launch <;>
      exact ⟨hslot, by simp [Kind.exts], by simp [Call.Returns, hhost], by simp [Call.Writes, hhost]⟩
  | executePlan now host isLocal background launch =>
    cases isLocal with
    | true =>
      cases h
      exact ⟨rfl, by simp, by simp [Call.Returns], by simp [Call.Writes]⟩
    | false =>
      by_cases hhost : host ∈ fleet.sessionHosts
      · cases background <;> cases launch <;> simp [Call.made, hhost] at h <;> subst h <;>
          exact ⟨rfl, by simp [Kind.exts], by simp [Call.Returns, hhost], by simp [Call.Writes, hhost]⟩
      · simp [Call.made, hhost] at h
        subst h
        exact ⟨rfl, by simp, by simp [Call.Returns, hhost], by simp [Call.Writes, hhost]⟩

/-- The call that has a slot makes a dispatch in it. -/
theorem made_of_slot {s : Slot} (h : c.slot? fleet = some s) :
    ∃ m, c.made fleet = some m ∧ m.slot = s := by
  cases hm : c.made fleet with
  | some m =>
    refine ⟨m, rfl, ?_⟩
    exact Option.some.inj ((slot_of_made hm).1.symm.trans h)
  | none =>
    cases c with
    | dispatch now host background launch =>
      rw [Call.made, Option.map_eq_none_iff] at hm
      simp [Call.slot?, hm] at h
    | executePlan now host isLocal background launch =>
      exfalso
      unfold Call.made at hm
      simp only at hm
      split at hm
      · cases hm
      · split at hm
        · cases hm
        · split at hm <;> cases hm

theorem returned_eq_some {id : String} : c.returned fleet = some id ↔
    c.Returns fleet ∧ ∃ s, c.slot? fleet = some s ∧ dispatchId s = id := by
  constructor
  · intro h
    obtain ⟨m, hm, hid⟩ := Option.bind_eq_some_iff.mp h
    obtain ⟨hslot, -, hret, -⟩ := slot_of_made hm
    split at hid
    · rename_i hr
      exact ⟨hret.mp hr, m.slot, hslot, Option.some.inj hid⟩
    · cases hid
  · rintro ⟨hr, s, hs, rfl⟩
    obtain ⟨m, hm, rfl⟩ := made_of_slot hs
    obtain ⟨-, -, hret, -⟩ := slot_of_made hm
    rw [Call.returned, hm, Option.bind_some, if_pos (hret.mpr hr)]

theorem mem_files {f : String} : f ∈ c.files fleet ↔
    ∃ m, c.made fleet = some m ∧ ∃ ext ∈ m.files, path (dispatchId m.slot) ext = f := by
  unfold Call.files
  cases c.made fleet <;> simp

/-- Calls with an id in common. -/
theorem clash_of_returned {id : String} (h : c.returned fleet = some id)
    (h' : c'.returned fleet = some id) : Clash fleet c c' := by
  obtain ⟨hr, s, hs, hid⟩ := returned_eq_some.mp h
  obtain ⟨hr', s', hs', hid'⟩ := returned_eq_some.mp h'
  obtain rfl := dispatchId_inj (hid.trans hid'.symm)
  exact ⟨⟨s, hs, hs'⟩, Or.inl ⟨hr, hr'⟩⟩

/-- Calls with a file in common. -/
theorem clash_of_file {f : String} (h : f ∈ c.files fleet) (h' : f ∈ c'.files fleet) :
    Clash fleet c c' := by
  obtain ⟨m, hm, ext, hext, hf⟩ := mem_files.mp h
  obtain ⟨m', hm', ext', hext', hf'⟩ := mem_files.mp h'
  obtain ⟨hslot, hexts, -, hw⟩ := slot_of_made hm
  obtain ⟨hslot', hexts', -, hw'⟩ := slot_of_made hm'
  have hsame := path_inj (hexts ext hext) (hexts' ext' hext') (hf.trans hf'.symm)
  exact ⟨⟨m.slot, hslot, hsame ▸ hslot'⟩,
    Or.inr ⟨hw.mp (List.ne_nil_of_mem hext), hw'.mp (List.ne_nil_of_mem hext')⟩⟩

/-- The file that every dispatch of a function writes. -/
def Kind.first : Kind → Ext
  | .dispatch => .record
  | .session => .plan

theorem first_mem {m : Made} (h : c.made fleet = some m) (hw : c.Writes fleet) :
    m.slot.kind.first ∈ m.files := by
  cases c with
  | dispatch now host background launch =>
    obtain ⟨host', -, rfl⟩ := Option.map_eq_some_iff.mp h
    cases background <;> cases launch <;> exact List.mem_cons_self
  | executePlan now host isLocal background launch =>
    obtain ⟨rfl, hhost⟩ := hw
    cases background <;> cases launch <;> simp [Call.made, hhost] at h <;> subst h <;>
      exact List.mem_cons_self

theorem not_disjoint_of_clash {s : Slot} (hs : c.slot? fleet = some s) (hs' : c'.slot? fleet = some s)
    (hw : c.Writes fleet) (hw' : c'.Writes fleet) : ¬ (c.files fleet).Disjoint (c'.files fleet) := by
  obtain ⟨m, hm, rfl⟩ := made_of_slot hs
  obtain ⟨m', hm', hslot⟩ := made_of_slot hs'
  have hmem := first_mem hm hw
  have hmem' := first_mem hm' hw'
  rw [hslot] at hmem'
  intro hdisj
  exact hdisj (mem_files.mpr ⟨m, hm, _, hmem, rfl⟩) (mem_files.mpr ⟨m', hm', _, hmem', hslot ▸ rfl⟩)

end Calls

/-! ## All calls -/

/-- What is not registered has no entry. -/
theorem find?_register_of_not_mem {id : String} : ∀ {rs : List (View × Registration)} {tasks : Tasks},
    tasks.find? id = none → id ∉ rs.map (fun r => r.2.dispatchId) →
      (rs.foldl (fun tasks r => Registry.register r.1 tasks r.2) tasks).find? id = none
  | [], _, h, _ => h
  | r :: rs, tasks, h, hid => by
    rw [List.map_cons, List.mem_cons, not_or] at hid
    have hset := Registry.find?_setItem tasks id (Registry.registered r.1 r.2)
    rw [if_neg (show id ≠ (Registry.registered r.1 r.2).dispatchId from hid.1), h] at hset
    rw [List.foldl_cons]
    exact find?_register_of_not_mem hset hid.2

variable (fleet : Fleet) (calls : List Call)

/-- Distinct ids have distinct entries. -/
theorem entries_of_nodup (h : (calls.filterMap (Call.returned fleet)).Nodup)
    (rs : List (View × Registration))
    (hrs : (rs.map fun r => r.2.dispatchId).Sublist (calls.filterMap (Call.returned fleet)))
    (pre : List (View × Registration)) (r : View × Registration) (post : List (View × Registration))
    (hsplit : rs = pre ++ r :: post) : (registerAll pre).find? r.2.dispatchId = none := by
  have hnodup := h.sublist hrs
  rw [hsplit, List.map_append, List.map_cons, List.nodup_append] at hnodup
  refine find?_register_of_not_mem rfl fun hmem => ?_
  exact hnodup.2.2 _ hmem _ List.mem_cons_self rfl

/-- **Dispatches are distinct** exactly when no two calls of one function fall in the same second for the
same host. -/
theorem distinct_iff :
    Distinct fleet calls ↔ calls.Pairwise fun c c' => ¬ Clash fleet c c' := by
  constructor
  · intro h
    have hids := List.pairwise_filterMap.mp (List.nodup_iff_pairwise_ne.mp h.ids)
    refine (hids.and h.files).imp fun {c c'} hcc' hclash => ?_
    obtain ⟨hid, hdisj⟩ := hcc'
    obtain ⟨⟨s, hs, hs'⟩, ⟨hr, hr'⟩ | ⟨hw, hw'⟩⟩ := hclash
    · exact hid _ (returned_eq_some.mpr ⟨hr, s, hs, rfl⟩) _ (returned_eq_some.mpr ⟨hr', s, hs', rfl⟩) rfl
    · exact not_disjoint_of_clash hs hs' hw hw' hdisj
  · intro h
    have hids : (calls.filterMap (Call.returned fleet)).Nodup := by
      refine List.pairwise_filterMap.mpr (h.imp fun {c c'} hno id hid id' hid' heq => ?_)
      exact hno (clash_of_returned hid (heq ▸ hid'))
    refine ⟨hids, h.imp fun {c c'} hno f hf hf' => hno (clash_of_file hf hf'),
      entries_of_nodup fleet calls hids⟩

/-- A fleet of one host. -/
def oneHost : Fleet := ⟨["node_gpu"], ["node_gpu"], id⟩

/-- Two dispatches to the host, half a second apart. -/
def sameSecond : List Call :=
  [.dispatch 1767225600 "node_gpu" true .ends, .dispatch (1767225600 + 1 / 2) "node_gpu" true .ends]

/-- They have one id. -/
theorem same_second : ¬ ∀ fleet calls, Distinct fleet calls := by
  intro h
  have hids := (h oneHost sameSecond).ids
  have hsame : sameSecond.filterMap (Call.returned oneHost) =
      ["dispatch-1767225600-node_gpu", "dispatch-1767225600-node_gpu"] := by
    decide +kernel
  rw [hsame] at hids
  exact absurd hids (by decide)

end ClaudeSwarm.Hydra
