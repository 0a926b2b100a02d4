import ClaudeSwarm.Redis.Keyspace

/-!
# Drain and restore

Model of `scripts/phase1_drain_restore.py` on a database of Redis: `drain` takes a checkpoint of all keys, the test
harness injects dispatches, and `restore` deletes the keys with the test prefix that are not in the checkpoint and
writes those that are, but for the streams. Each call happens at one moment, and time passes between them. The pages of
a `SCAN` or an `XRANGE` are read at once; the environment variable that opens the gate is set.

* `restore_spec`: what a key holds after `restore`.
* `restore_twice`: a second `restore` changes nothing.
* **`restored_iff`**: `restore` gives the drained keyspace back exactly if no key but a stream had an expiry, no stream
  has expired since, and no orphan was injected while `tasks:claimed` was not there.
* `ttl_lost`: a session that loses an expiry.
-/

namespace ClaudeSwarm.DrainRestore

open Data Redis.Keyspace
open Python (Time)

variable {Score : Type}

/-! ## The code -/

/-- A type and a value, as `_serialise_key` gives them; `other` has no value. -/
inductive Snapshot (Score : Type) where
  | string (s : String)
  | hash (fields : List (String × String))
  | list (items : List String)
  | set (members : List String)
  | zset (members : List (String × Score))
  | stream (entries : List (String × List (String × String)))
  | other

section

variable [LinearOrder Score]

/-- The order of `ZRANGE`. -/
def rankedBefore (a b : String × Score) : Prop := a.2 < b.2 ∨ a.2 = b.2 ∧ a.1 ≤ b.1

instance : DecidableRel (@rankedBefore Score _) := fun _ _ => inferInstanceAs (Decidable (_ ∨ _ ∧ _))

/-- `_serialise_key` of a value. -/
def serialise : Value Score → Snapshot Score
  | .string s => .string s
  | .hash fields _ => .hash fields.rows
  | .list items _ => .list items
  | .set members _ => .set (members.rows.insertionSort (· ≤ ·))
  | .zset members _ => .zset (members.rows.insertionSort rankedBefore)
  | .stream entries => .stream entries

/-- `_serialise_key`. -/
def serialiseKey (now : Time) (r : Db Score) (key : String) : Snapshot Score :=
  (get now r key).elim .other fun e => serialise e.value

/-- `_restore_key`. -/
def restoreKey (now : Time) (r : Db Score) (key : String) : Snapshot Score → Option (Db Score)
  | .stream _ => some r
  | .other => some (r.erase key)
  | .string value => some (set (r.erase key) key value)
  | .hash value => hset now (r.erase key) key value
  | .list value => if value = [] then some (r.erase key) else rpush now (r.erase key) key value
  | .set value => if value = [] then some (r.erase key) else sadd now (r.erase key) key value
  | .zset value => if value = [] then some (r.erase key) else zadd now (r.erase key) key value

/-- `_CHECKPOINT`. -/
abbrev Checkpoint (Score : Type) := List (String × Snapshot Score)

/-- An exception of `drain`. -/
inductive Error where
  | wrongType
  | refused (live_claimed claimed_count : Nat)
  deriving DecidableEq

/-- The text matches `prefix*`. -/
def matchesStart (start key : String) : Bool := start.toList.isPrefixOf key.toList

/-- `key.split(":", 2)[1]`, if there is one. -/
def hostPart (key : String) : Option String := ((key.toList.splitOn ':')[1]?).map String.ofList

/-- `hget(key, field) or ""`; `none` is a `WRONGTYPE` error. -/
def hgetOr (now : Time) (r : Db Score) (key field : String) : Option String :=
  match (get now r key).map Entry.value with
  | none => some ""
  | some (.hash fields _) => some (((fields.find? field).map Prod.snd).getD "")
  | some _ => none

/-- The hosts of the `agent:*` keys. -/
def liveHosts (now : Time) (r : Db Score) : List String :=
  ((keys now r).filter (matchesStart "agent:")).filterMap hostPart

/-- The loop over the claimed tasks. -/
def countLive (now : Time) (r : Db Score) (live_hosts : List String) : List String → Option Nat
  | [] => some 0
  | tid :: rest => do
    let claimed_by ← hgetOr now r ("task:" ++ tid) "claimed_by"
    let live_claimed ← countLive now r live_hosts rest
    return if claimed_by ∈ live_hosts then live_claimed + 1 else live_claimed

/-- `_live_claimed_count`. -/
def liveClaimedCount (now : Time) (r : Db Score) : Option (Nat × Nat) :=
  match (get now r "tasks:claimed").map Entry.value with
  | none => some (0, 0)
  | some (.zset members _) =>
    (countLive now r (liveHosts now r) ((members.rows.insertionSort rankedBefore).map Prod.fst)).map fun live_claimed =>
      (members.rows.length, live_claimed)
  | some _ => none

/-- The checkpoint that `drain` takes. -/
def checkpoint (now : Time) (r : Db Score) : Checkpoint Score :=
  (keys now r).map fun key => (key, serialiseKey now r key)

/-- `drain`. -/
def drain (now : Time) (r : Db Score) : Except Error (Checkpoint Score) :=
  match liveClaimedCount now r with
  | none => .error .wrongType
  | some (claimed_count, live_claimed) =>
    if live_claimed ≠ 0 then .error (.refused live_claimed claimed_count) else .ok (checkpoint now r)

/-- `_TEST_KEY_PREFIX`. -/
def testKeyPrefix : String := "dod9:"

/-- The keys that `restore` deletes. -/
def orphans (now : Time) (cp : Checkpoint Score) (r : Db Score) : List String :=
  (keys now r).filter fun key => matchesStart testKeyPrefix key ∧ key ∉ cp.map Prod.fst

/-- The second step of `restore`. -/
def restoreKeys (now : Time) : Checkpoint Score → Db Score → Option (Db Score)
  | [], r => some r
  | (_, .stream _) :: rest, r => restoreKeys now rest r
  | (key, value) :: rest, r => (restoreKey now r key value).bind (restoreKeys now rest)

/-- `restore`. -/
def restore (now : Time) (cp : Checkpoint Score) (r : Db Score) : Option (Db Score) :=
  restoreKeys now cp ((orphans now cp r).foldl Table.erase r)

/-- What `json.dumps(sort_keys=True)` makes of a value. -/
def sortFields : Snapshot Score → Snapshot Score
  | .hash fields => .hash (fields.insertionSort fun a b => a.1 ≤ b.1)
  | value => value

/-- `redis_keyspace_checksum`, where `digest` is the digest of the items' text. -/
def redisKeyspaceChecksum (digest : List (String × Snapshot Score) → String) (now : Time) (r : Db Score) : String :=
  digest (((keys now r).insertionSort (· ≤ ·)).map fun key => (key, sortFields (serialiseKey now r key)))

end

/-- A call that injects keys. -/
inductive Injection (Score : Type) where
  /-- `inject_test_dispatches`; `stamp` and `created_at` are the clock in each round. -/
  | testDispatches (count : Nat) (stamp : Nat → Int) (created_at : Nat → String)
  /-- `inject_orphaned_dispatch`. -/
  | orphanedDispatch (task_id : Option String) (stamp : Int) (score : Score)

/-- The key of a test dispatch. -/
def dispatchKey (stamp : Int) (i : Nat) : String :=
  testKeyPrefix ++ ("dispatch:" ++ toString stamp ++ ":" ++ toString i)

/-- The rounds of `inject_test_dispatches` that are left; a `WRONGTYPE` error ends them. -/
def injectFrom (now : Time) (stamp : Nat → Int) (created_at : Nat → String) : Nat → Nat → Db Score → Db Score
  | _, 0, r => r
  | i, left + 1, r =>
    let key := dispatchKey (stamp i) i
    match hset now r key
        [("id", key), ("state", "synthetic"), ("created_at", created_at i), ("test_marker", "dod9")] with
    | none => r
    | some r => injectFrom now stamp created_at (i + 1) left r

/-- One call. -/
def Injection.run (now : Time) : Injection Score → Db Score → Db Score
  | .testDispatches count stamp created_at, r => injectFrom now stamp created_at 0 count r
  | .orphanedDispatch task_id stamp score, r =>
    let orphan_id :=
      match task_id with
      | some id => if id = "" then testKeyPrefix ++ "orphan:" ++ toString stamp else id
      | none => testKeyPrefix ++ "orphan:" ++ toString stamp
    (zadd now r "tasks:claimed" [(orphan_id, score)]).getD r

/-- The times of a session, and what is injected in it. -/
structure Session (Score : Type) where
  drained : Time
  injections : List (Time × Injection Score)
  restored : Time
  after : ∀ p ∈ injections, drained ≤ p.1
  before : ∀ p ∈ injections, p.1 ≤ restored
  ordered : drained ≤ restored

/-- The database when `restore` is called. -/
def Session.injected (s : Session Score) (r : Db Score) : Db Score :=
  s.injections.foldl (fun r p => p.2.run p.1 r) r

section

variable [LinearOrder Score]

/-! ## What a session should leave -/

/-- `restore` of a checkpoint gives back the keyspace that was drained, and its checksum, and restoring it again changes
nothing. -/
def Restored (s : Session Score) (r : Db Score) (cp : Checkpoint Score) : Prop :=
  ∃ r', restore s.restored cp (s.injected r) = some r' ∧
    (∀ key, SameEntry (get s.restored r' key) (get s.drained r key)) ∧
    (∀ digest, redisKeyspaceChecksum digest s.restored r' = redisKeyspaceChecksum digest s.drained r) ∧
    ∀ later, s.restored ≤ later → ∃ r'', restore later cp r' = some r'' ∧
      ∀ key, SameEntry (get later r'' key) (get later r' key)

/-- The call is `inject_orphaned_dispatch`. -/
def Injection.IsOrphan : Injection Score → Prop
  | .testDispatches _ _ _ => False
  | .orphanedDispatch _ _ _ => True

/-- No key but a stream had an expiry, the streams are still there, and no orphan was injected into a set that was not
there. -/
structure Spared (s : Session Score) (r : Db Score) : Prop where
  lasting : ∀ key e, get s.drained r key = some e → ¬ e.value.IsStream → e.expiry = none
  streams : ∀ key e, get s.drained r key = some e → e.value.IsStream → e.isLive s.restored = true
  claimed : (∃ p ∈ s.injections, p.2.IsOrphan) → (get s.drained r "tasks:claimed").isSome

end

variable {now drained : Time} {r r' k : Db Score} {key : String} {e : Entry Score}

/-- `_restore_key` skips a stream as well. -/
theorem restoreKeys_cons (value : Snapshot Score) (rest : Checkpoint Score) :
    restoreKeys now ((key, value) :: rest) r = (restoreKey now r key value).bind (restoreKeys now rest) := by
  cases value <;> rfl

section

variable [LinearOrder Score]

/-! ## One key -/

instance : Std.Total (@rankedBefore Score _) where
  total a b := by
    unfold rankedBefore
    rcases lt_trichotomy a.2 b.2 with h | h | h
    · exact .inl (.inl h)
    · exact (le_total a.1 b.1).imp (fun hle => .inr ⟨h, hle⟩) fun hle => .inr ⟨h.symm, hle⟩
    · exact .inr (.inl h)

instance : IsTrans (String × Score) rankedBefore where
  trans a b c h h' := by
    rcases h with h | ⟨h, hle⟩ <;> rcases h' with h' | ⟨h', hle'⟩
    · exact .inl (h.trans h')
    · exact .inl (h' ▸ h)
    · exact .inl (h ▸ h')
    · exact .inr ⟨h.trans h', hle.trans hle'⟩

/-- What was serialised is restored, without an expiry. -/
theorem restoreKey_serialise (v : Value Score) (hstream : ¬ v.IsStream) :
    ∃ v', v'.Same v ∧ restoreKey now r key (serialise v) = some ((r.erase key).put ⟨key, v', none⟩) := by
  cases v with
  | string s => exact ⟨.string s, .string s, rfl⟩
  | hash fields hne => exact hset_fresh get_erase_self (.refl _) hne
  | list items hne =>
    refine ⟨.list items hne, .list, ?_⟩
    rw [serialise, restoreKey, if_neg hne]
    exact rpush_fresh get_erase_self hne
  | set members hne =>
    have hperm := List.perm_insertionSort (fun a b : String => a ≤ b) members.rows
    have hne' : members.rows.insertionSort (fun a b : String => a ≤ b) ≠ [] := fun he =>
      hne (by rw [he] at hperm; exact hperm.nil_eq.symm)
    obtain ⟨v', hsame, hadd⟩ := @sadd_fresh _ now (r.erase key) key get_erase_self _ _ hperm hne
    refine ⟨v', hsame, ?_⟩
    rw [serialise, restoreKey, if_neg hne']
    exact hadd
  | zset members hne =>
    have hperm := List.perm_insertionSort rankedBefore members.rows
    have hne' : members.rows.insertionSort rankedBefore ≠ [] := fun he =>
      hne (by rw [he] at hperm; exact hperm.nil_eq.symm)
    obtain ⟨v', hsame, hadd⟩ := @zadd_fresh _ now (r.erase key) key get_erase_self _ _ hperm hne
    refine ⟨v', hsame, ?_⟩
    rw [serialise, restoreKey, if_neg hne']
    exact hadd
  | stream entries => exact absurd trivial hstream

/-! ## `restore` -/

theorem restoreKey_stream {v : Value Score} (h : v.IsStream) : restoreKey now r key (serialise v) = some r := by
  cases v with
  | stream entries => rfl
  | _ => cases h

/-- The keys of a checkpoint are all written but for the streams, and no other is. -/
theorem restoreKeys_spec : ∀ {ks : List String} {r : Db Score}, ks.Nodup →
    (∀ key ∈ ks, ∃ e, get drained k key = some e) →
    ∃ r', restoreKeys now (ks.map fun key => (key, serialiseKey drained k key)) r = some r' ∧
      (∀ key, key ∉ ks → r'.find? key = r.find? key) ∧
      ∀ key ∈ ks, ∀ e, get drained k key = some e →
        (e.value.IsStream → r'.find? key = r.find? key) ∧
          (¬ e.value.IsStream → ∃ v', v'.Same e.value ∧ r'.find? key = some ⟨key, v', none⟩)
  | [], r, _, _ => ⟨r, rfl, fun _ _ => rfl, fun _ h => absurd h List.not_mem_nil⟩
  | first :: ks, r, hnodup, hks => by
    obtain ⟨hfirst, hnodup⟩ := List.nodup_cons.mp hnodup
    obtain ⟨e, he⟩ := hks first List.mem_cons_self
    have hsnapshot : serialiseKey drained k first = serialise e.value := by
      rw [serialiseKey, he]
      rfl
    have hrest : ∀ key ∈ ks, ∃ e, get drained k key = some e := fun key h => hks key (List.mem_cons_of_mem _ h)
    -- what the first key leaves for the others
    have hstep : ∃ r₁, restoreKey now r first (serialise e.value) = some r₁ ∧
        (∀ key, key ≠ first → r₁.find? key = r.find? key) ∧ (e.value.IsStream → r₁.find? first = r.find? first) ∧
          (¬ e.value.IsStream → ∃ v', v'.Same e.value ∧ r₁.find? first = some ⟨first, v', none⟩) := by
      by_cases hstream : e.value.IsStream
      · exact ⟨r, restoreKey_stream hstream, fun _ _ => rfl, fun _ => rfl, fun h => absurd hstream h⟩
      · obtain ⟨v', hsame, hwrite⟩ := @restoreKey_serialise _ now r first _ e.value hstream
        refine ⟨_, hwrite, fun key hne => ?_, fun h => absurd h hstream, fun _ => ⟨v', hsame, ?_⟩⟩
        · rw [Table.find?_put, if_neg hne, Table.find?_erase, if_neg hne]
        · rw [Table.find?_put, if_pos rfl]
    obtain ⟨r₁, hwrite, hothers, hstreams, hvalues⟩ := hstep
    obtain ⟨r', hr', hother, hspec⟩ := restoreKeys_spec (r := r₁) hnodup hrest
    refine ⟨r', ?_, fun key hkey => ?_, fun key hkey e' he' => ?_⟩
    · rw [List.map_cons, hsnapshot, restoreKeys_cons, hwrite]
      exact hr'
    · rw [List.mem_cons, not_or] at hkey
      rw [hother key hkey.2, hothers key hkey.1]
    · rcases List.mem_cons.mp hkey with rfl | hkey
      · rw [he] at he'
        cases he'
        rw [hother key hfirst]
        exact ⟨hstreams, hvalues⟩
      · have hne : key ≠ first := fun h => hfirst (h ▸ hkey)
        obtain ⟨hs, hv⟩ := hspec key hkey e' he'
        exact ⟨fun h => (hs h).trans (hothers key hne), hv⟩

/-- What a key holds after the restore of a checkpoint of `k`. -/
structure RestoredFrom (now drained : Time) (k r r' : Db Score) (key : String) : Prop where
  stream : ∀ e, get drained k key = some e → e.value.IsStream → r'.find? key = r.find? key
  value : ∀ e, get drained k key = some e → ¬ e.value.IsStream →
    ∃ v', v'.Same e.value ∧ r'.find? key = some ⟨key, v', none⟩
  test : get drained k key = none → matchesStart testKeyPrefix key = true → ∀ later, now ≤ later →
    get later r' key = none
  other : get drained k key = none → matchesStart testKeyPrefix key = false → r'.find? key = r.find? key

theorem restore_spec (now drained : Time) (k r : Db Score) :
    ∃ r', restore now (checkpoint drained k) r = some r' ∧ ∀ key, RestoredFrom now drained k r r' key := by
  have hkeys : (checkpoint drained k).map Prod.fst = keys drained k := by
    rw [checkpoint, List.map_map]
    exact List.map_id _
  have horphan : ∀ key, key ∈ orphans now (checkpoint drained k) r ↔
      key ∈ keys now r ∧ matchesStart testKeyPrefix key = true ∧ get drained k key = none := fun key => by
    rw [orphans, List.mem_filter, hkeys, decide_eq_true_iff, @mem_keys_iff _ drained,
      Option.eq_none_iff_forall_ne_some, not_exists]
  obtain ⟨r', hr', hother, hspec⟩ := @restoreKeys_spec _ now drained k _ (keys drained k)
    ((orphans now (checkpoint drained k) r).foldl Table.erase r) nodup_keys fun key h => mem_keys_iff.mp h
  have hkept : ∀ key e, get drained k key = some e →
      ((orphans now (checkpoint drained k) r).foldl Table.erase r).find? key = r.find? key := fun key e he => by
    rw [Table.find?_eraseAll, if_neg]
    rw [horphan, he]
    rintro ⟨-, -, h⟩
    cases h
  have hnot : ∀ key, get drained k key = none →
      r'.find? key = if key ∈ orphans now (checkpoint drained k) r then none else r.find? key := fun key h => by
    rw [hother key, Table.find?_eraseAll]
    rw [mem_keys_iff, h]
    rintro ⟨e, he⟩
    cases he
  refine ⟨r', hr', fun key => ⟨fun e he hstream => ?_, fun e he hstream => ?_, fun hnone htest later hle => ?_,
    fun hnone htest => ?_⟩⟩
  · rw [(hspec key (mem_keys_iff.mpr ⟨e, he⟩) e he).1 hstream, hkept key e he]
  · exact (hspec key (mem_keys_iff.mpr ⟨e, he⟩) e he).2 hstream
  · by_cases hlive : key ∈ keys now r
    · have hgone := hnot key hnone
      rw [if_pos ((horphan key).mpr ⟨hlive, htest, hnone⟩)] at hgone
      rw [Option.eq_none_iff_forall_ne_some]
      intro e he
      rw [(get_eq_some_iff.mp he).1] at hgone
      cases hgone
    · -- it has expired already
      have hsame := hnot key hnone
      rw [if_neg fun h => hlive ((horphan key).mp h).1] at hsame
      rw [get_congr hsame, Option.eq_none_iff_forall_ne_some]
      exact fun e he => hlive (mem_keys_iff.mpr ⟨e, get_of_le he hle⟩)
  · rw [hnot key hnone, if_neg]
    rw [horphan, htest]
    rintro ⟨-, h, -⟩
    cases h

end

/-! ## The injections -/

theorem matchesStart_append (start rest : String) : matchesStart start (start ++ rest) = true := by
  rw [matchesStart, String.toList_append, List.isPrefixOf_iff_prefix]
  exact List.prefix_append _ _

theorem matches_dispatchKey (stamp : Int) (i : Nat) : matchesStart testKeyPrefix (dispatchKey stamp i) = true :=
  matchesStart_append _ _

theorem claimed_not_test : matchesStart testKeyPrefix "tasks:claimed" = false := by decide +kernel

/-- What the rounds leave alone. -/
structure Untouched (now : Time) (r r' : Db Score) : Prop where
  other : ∀ key, matchesStart testKeyPrefix key = false → r'.find? key = r.find? key
  stream : ∀ key e, get now r key = some e → e.value.IsStream → r'.find? key = r.find? key

theorem untouched_injectFrom {stamp : Nat → Int} {created_at : Nat → String} : ∀ {left i : Nat} {r : Db Score},
    Untouched now r (injectFrom now stamp created_at i left r)
  | 0, _, _ => ⟨fun _ _ => rfl, fun _ _ _ _ => rfl⟩
  | left + 1, i, r => by
    rw [injectFrom]
    split
    · exact ⟨fun _ _ => rfl, fun _ _ _ _ => rfl⟩
    · rename_i r₁ hset
      have hwrites := writes_hset hset
      have hrest := @untouched_injectFrom stamp created_at left (i + 1) r₁
      have hstream : ∀ key e, get now r key = some e → e.value.IsStream → key ≠ dispatchKey (stamp i) i := by
        rintro key e he hs rfl
        exact (hwrites.typed e he).not_stream hs
      refine ⟨fun key hkey => ?_, fun key e he hs => ?_⟩
      · have hne : key ≠ dispatchKey (stamp i) i := by
          rintro rfl
          rw [matches_dispatchKey] at hkey
          cases hkey
        rw [hrest.other key hkey, hwrites.other key hne]
      · have hsame := hwrites.other key (hstream key e he hs)
        rw [hrest.stream key e (by rw [get_congr hsame, he]) hs, hsame]

/-- The set of claimed tasks, with no expiry. -/
def HasClaimed (r : Db Score) : Prop := ∃ e, r.find? "tasks:claimed" = some e ∧ IsZset e.value ∧ e.expiry = none

/-- What one call leaves alone. -/
structure Injected (now : Time) (inj : Injection Score) (r r' : Db Score) : Prop where
  other : ∀ key, matchesStart testKeyPrefix key = false → key ≠ "tasks:claimed" → r'.find? key = r.find? key
  stream : ∀ key e, get now r key = some e → e.value.IsStream → r'.find? key = r.find? key
  claimed : ¬ inj.IsOrphan → r'.find? "tasks:claimed" = r.find? "tasks:claimed"
  added : inj.IsOrphan → get now r "tasks:claimed" = none → HasClaimed r'
  kept : HasClaimed r → HasClaimed r'

theorem injected_run (inj : Injection Score) : Injected now inj r (inj.run now r) := by
  cases inj with
  | testDispatches count stamp created_at =>
    obtain ⟨hother, hstream⟩ := @untouched_injectFrom Score now stamp created_at count 0 r
    refine ⟨fun key h _ => hother key h, hstream, fun _ => hother _ claimed_not_test, fun h => h.elim, ?_⟩
    rintro ⟨e, he, h⟩
    exact ⟨e, (hother _ claimed_not_test).trans he, h⟩
  | orphanedDispatch task_id stamp score =>
    simp only [Injection.run]
    generalize (match task_id with
      | some id => if id = "" then testKeyPrefix ++ "orphan:" ++ toString stamp else id
      | none => testKeyPrefix ++ "orphan:" ++ toString stamp) = orphan_id
    cases hadd : zadd now r "tasks:claimed" [(orphan_id, score)] with
    | none =>
      refine ⟨fun _ _ _ => rfl, fun _ _ _ _ => rfl, fun h => absurd trivial h, fun _ hnone => ?_, id⟩
      obtain ⟨v, -, hput⟩ := @zadd_fresh _ now r _ hnone [(orphan_id, score)]
        (Table.put .empty (orphan_id, score)) (.refl _) (List.cons_ne_nil _ _)
      rw [hadd] at hput
      cases hput
    | some r' =>
      have hwrites := writes_zadd hadd
      obtain ⟨v, hv, hwritten⟩ := hwrites.written
      refine ⟨fun key _ hne => hwrites.other key hne, fun key e he hs => hwrites.other key ?_,
        fun h => absurd trivial h, fun _ hnone => ⟨_, hwritten, hv, by rw [hnone]; rfl⟩, ?_⟩
      · rintro rfl
        exact (hwrites.typed e he).not_stream hs
      · rintro ⟨e, he, -, hlasting⟩
        have hlive : e.isLive now = true := by
          rw [Entry.isLive, hlasting]
          rfl
        have hget := get_eq_some_iff.mpr ⟨he, hlive⟩
        exact ⟨_, hwritten, hv, by rw [hget]; exact hlasting⟩

/-- Calls, one after the other. -/
def injectAll (l : List (Time × Injection Score)) (r : Db Score) : Db Score := l.foldl (fun r p => p.2.run p.1 r) r

theorem injectAll_other (htest : matchesStart testKeyPrefix key = false) : ∀ {l : List (Time × Injection Score)}
    {r : Db Score}, (key = "tasks:claimed" → ∀ p ∈ l, ¬ p.2.IsOrphan) → (injectAll l r).find? key = r.find? key
  | [], _, _ => rfl
  | p :: l, r, hkey => by
    have hstep := @injected_run _ p.1 r p.2
    have hrest := injectAll_other htest (l := l) (r := p.2.run p.1 r) fun h q hq => hkey h q (List.mem_cons_of_mem _ hq)
    rw [injectAll, List.foldl_cons, ← injectAll, hrest]
    by_cases hclaimed : key = "tasks:claimed"
    · subst hclaimed
      exact hstep.claimed (hkey rfl p List.mem_cons_self)
    · exact hstep.other key htest hclaimed

/-- A stream that is there at the end is as it was. -/
theorem injectAll_stream {restored : Time} (hstream : e.value.IsStream) : ∀ {l : List (Time × Injection Score)}
    {r : Db Score}, (∀ p ∈ l, p.1 ≤ restored) → get restored r key = some e →
      (injectAll l r).find? key = r.find? key
  | [], _, _, _ => rfl
  | p :: l, r, hbefore, he => by
    have hstep := (@injected_run _ p.1 r p.2).stream key e
      (get_of_le he (hbefore p List.mem_cons_self)) hstream
    have hrest := injectAll_stream hstream (l := l) (r := p.2.run p.1 r)
      (fun q hq => hbefore q (List.mem_cons_of_mem _ hq)) (by rw [get_congr hstep, he])
    rw [injectAll, List.foldl_cons, ← injectAll, hrest, hstep]

/-- The first orphan brings the set of claimed tasks, and it stays. -/
theorem hasClaimed_injectAll : ∀ {l : List (Time × Injection Score)} {r : Db Score},
    HasClaimed r ∨ (∀ p ∈ l, get p.1 r "tasks:claimed" = none) ∧ (∃ p ∈ l, p.2.IsOrphan) → HasClaimed (injectAll l r)
  | [], r, h => by
    rcases h with h | ⟨-, p, hp, -⟩
    · exact h
    · cases hp
  | p :: l, r, h => by
    have hstep := @injected_run _ p.1 r p.2
    refine hasClaimed_injectAll (l := l) (r := p.2.run p.1 r) ?_
    rcases h with h | ⟨hnone, q, hq, horphan⟩
    · exact .inl (hstep.kept h)
    · by_cases hfirst : p.2.IsOrphan
      · exact .inl (hstep.added hfirst (hnone p List.mem_cons_self))
      · refine .inr ⟨fun q hq => ?_, ?_⟩
        · rw [get_congr (hstep.claimed hfirst)]
          exact hnone q (List.mem_cons_of_mem _ hq)
        · rcases List.mem_cons.mp hq with rfl | hq
          · exact absurd horphan hfirst
          · exact ⟨q, hq, horphan⟩

theorem mem_keys_congr {later : Time} (h : ∀ key, SameEntry (get later r' key) (get now r key)) :
    key ∈ keys later r' ↔ key ∈ keys now r := by
  rw [mem_keys_iff, mem_keys_iff]
  have hsame := h key
  constructor
  · rintro ⟨e, he⟩
    rw [he] at hsame
    cases hget : get now r key with
    | none =>
      rw [hget] at hsame
      exact hsame.elim
    | some e' => exact ⟨e', rfl⟩
  · rintro ⟨e, he⟩
    rw [he] at hsame
    cases hget : get later r' key with
    | none =>
      rw [hget] at hsame
      exact hsame.elim
    | some e' => exact ⟨e', rfl⟩

/-! ## The checksum -/

variable [LinearOrder Score]

/-- A value in the checksum does not depend on how it was filled. -/
theorem sortFields_same {v w : Value Score} (h : v.Same w) : sortFields (serialise v) = sortFields (serialise w) := by
  cases h with
  | string s => rfl
  | hash hperm =>
    rename_i f f' hne hne'
    refine congrArg Snapshot.hash (sort_perm (r := fun a b : String × String => a.1 ≤ b.1) hperm ?_)
    exact fun a ha b hb hab hba => List.inj_on_of_nodup_map f.nodup ha hb (le_antisymm hab hba)
  | list => rfl
  | set hperm =>
    exact congrArg Snapshot.set (sort_perm (r := fun a b : String => a ≤ b) hperm
      fun a _ b _ hab hba => le_antisymm hab hba)
  | zset hperm =>
    refine congrArg Snapshot.zset (sort_perm (r := rankedBefore) hperm fun a _ b _ hab hba => ?_)
    rcases hab with h | ⟨h, hle⟩ <;> rcases hba with h' | ⟨h', hle'⟩
    · exact absurd h' (lt_asymm h)
    · exact absurd h'.symm (ne_of_lt h)
    · exact absurd h.symm (ne_of_lt h')
    · exact Prod.ext (le_antisymm hle hle') h
  | stream entries => rfl

theorem checksum_congr {later : Time} (h : ∀ key, SameEntry (get later r' key) (get now r key))
    (digest : List (String × Snapshot Score) → String) :
    redisKeyspaceChecksum digest later r' = redisKeyspaceChecksum digest now r := by
  have hperm : (keys later r').Perm (keys now r) :=
    (List.perm_ext_iff_of_nodup nodup_keys nodup_keys).mpr fun key => mem_keys_congr h
  have hsort := sort_perm (r := fun a b : String => a ≤ b) hperm fun a _ b _ hab hba => le_antisymm hab hba
  unfold redisKeyspaceChecksum
  rw [hsort]
  refine congrArg digest (List.map_congr_left fun key _ => ?_)
  have hsame := h key
  unfold serialiseKey
  cases hleft : get later r' key with
  | none =>
    rw [hleft] at hsame
    cases hright : get now r key with
    | none => rfl
    | some e =>
      rw [hright] at hsame
      exact hsame.elim
  | some e' =>
    rw [hleft] at hsame
    cases hright : get now r key with
    | none =>
      rw [hright] at hsame
      exact hsame.elim
    | some e =>
      rw [hright] at hsame
      exact congrArg (Prod.mk key) (sortFields_same hsame.2.1)

/-! ## A session -/

variable {s : Session Score} {cp : Checkpoint Score}

/-- What `drain` returns is the checkpoint. -/
theorem drain_ok (h : drain now r = .ok cp) : cp = checkpoint now r := by
  unfold drain at h
  split at h
  · cases h
  · split at h
    · cases h
    · cases h
      rfl

/-- A second `restore` of a checkpoint changes nothing. -/
theorem restore_twice {first later : Time} (hle : first ≤ later)
    (hfirst : ∀ key, RestoredFrom first drained k r r' key) :
    ∃ r'', restore later (checkpoint drained k) r' = some r'' ∧
      ∀ key, SameEntry (get later r'' key) (get later r' key) := by
  obtain ⟨r'', hr'', hsecond⟩ := restore_spec later drained k r'
  refine ⟨r'', hr'', fun key => ?_⟩
  cases hget : get drained k key with
  | none =>
    cases htest : matchesStart testKeyPrefix key with
    | true =>
      rw [(hfirst key).test hget htest later hle, (hsecond key).test hget htest later le_rfl]
      trivial
    | false =>
      rw [get_congr ((hsecond key).other hget htest)]
      exact .refl _
  | some e =>
    by_cases hstream : e.value.IsStream
    · rw [get_congr ((hsecond key).stream e hget hstream)]
      exact .refl _
    · obtain ⟨v, hv, hfind⟩ := (hfirst key).value e hget hstream
      obtain ⟨w, hw, hfind'⟩ := (hsecond key).value e hget hstream
      rw [get_eq_some_iff.mpr ⟨hfind, rfl⟩, get_eq_some_iff.mpr ⟨hfind', rfl⟩]
      exact ⟨rfl, hw.trans hv.symm, rfl⟩

/-- **A session leaves the keyspace as it was drained exactly if** it is `Spared`. -/
theorem restored_iff (hdrain : drain s.drained r = .ok cp) : Restored s r cp ↔ Spared s r := by
  rw [drain_ok hdrain]
  obtain ⟨r', hr', hspec⟩ := restore_spec s.restored s.drained r (s.injected r)
  constructor
  · rintro ⟨r₁, hr₁, hsame, -, -⟩
    rw [hr'] at hr₁
    cases hr₁
    refine ⟨fun key e he hstream => ?_, fun key e he hstream => ?_, ?_⟩
    · obtain ⟨v, -, hfind⟩ := (hspec key).value e he hstream
      have hkey := hsame key
      rw [he, get_eq_some_iff.mpr ⟨hfind, rfl⟩] at hkey
      exact hkey.2.2.symm
    · have hkey := hsame key
      rw [he] at hkey
      cases hget : get s.restored r' key with
      | none =>
        rw [hget] at hkey
        exact hkey.elim
      | some e' =>
        rw [hget] at hkey
        have hlive := (get_eq_some_iff.mp hget).2
        rwa [Entry.isLive, hkey.2.2, ← Entry.isLive] at hlive
    · rintro ⟨p, hp, horphan⟩
      rw [Option.isSome_iff_ne_none]
      intro hnone
      have hgone : ∀ q ∈ s.injections, get q.1 r "tasks:claimed" = none := fun q hq => by
        rw [Option.eq_none_iff_forall_ne_some]
        intro e he
        rw [get_of_le he (s.after q hq)] at hnone
        cases hnone
      obtain ⟨e, hfind, -, hexpiry⟩ := hasClaimed_injectAll (.inr ⟨hgone, p, hp, horphan⟩)
      have hleft : get s.restored r' "tasks:claimed" = some e := by
        rw [get_congr ((hspec _).other hnone claimed_not_test)]
        exact get_eq_some_iff.mpr ⟨hfind, by rw [Entry.isLive, hexpiry]; rfl⟩
      have hkey := hsame "tasks:claimed"
      rw [hleft, hnone] at hkey
      exact hkey
  · intro h
    have hsame : ∀ key, SameEntry (get s.restored r' key) (get s.drained r key) := fun key => by
      cases hget : get s.drained r key with
      | none =>
        cases htest : matchesStart testKeyPrefix key with
        | true =>
          rw [(hspec key).test hget htest s.restored le_rfl]
          trivial
        | false =>
          have huntouched : (s.injected r).find? key = r.find? key := by
            refine injectAll_other htest fun hclaimed p hp horphan => ?_
            subst hclaimed
            have hthere := h.claimed ⟨p, hp, horphan⟩
            rw [hget] at hthere
            cases hthere
          have hnone : get s.restored r' key = none := by
            rw [get_congr ((hspec key).other hget htest), get_congr huntouched, Option.eq_none_iff_forall_ne_some]
            intro e he
            rw [get_of_le he s.ordered] at hget
            cases hget
          rw [hnone]
          trivial
      | some e =>
        by_cases hstream : e.value.IsStream
        · have hlive : get s.restored r key = some e :=
            get_eq_some_iff.mpr ⟨(get_eq_some_iff.mp hget).1, h.streams key e hget hstream⟩
          have huntouched : (s.injected r).find? key = r.find? key := injectAll_stream hstream s.before hlive
          rw [get_congr ((hspec key).stream e hget hstream), get_congr huntouched, hlive]
          exact .refl _
        · obtain ⟨v, hv, hfind⟩ := (hspec key).value e hget hstream
          rw [get_eq_some_iff.mpr ⟨hfind, rfl⟩]
          exact ⟨(key_of_get hget).symm, hv, (h.lasting key e hget hstream).symm⟩
    exact ⟨r', hr', hsame, fun digest => checksum_congr hsame digest, fun later hle => restore_twice hle hspec⟩

/-- A database with one string. -/
def oneString (expiry : Option Time) : Db Int := Table.put .empty ⟨"mode", .string "on", expiry⟩

theorem get_oneString {expiry : Option Time} {e : Entry Int} (h : get now (oneString expiry) key = some e) :
    e = ⟨"mode", .string "on", expiry⟩ := List.mem_singleton.mp (Table.find?_mem (get_eq_some_iff.mp h).1)

/-- A session of ten seconds in which `injection` is called. -/
def session (injection : Injection Int) : Session Int where
  drained := 0
  injections := [(5, injection)]
  restored := 10
  after p hp := by
    rw [List.mem_singleton.mp hp]
    norm_num
  before p hp := by
    rw [List.mem_singleton.mp hp]
    norm_num
  ordered := by norm_num

/-- One test dispatch. -/
def oneDispatch : Injection Int := .testDispatches 1 (fun _ => 5000) fun _ => "5.0"

/-- `restored_iff` of a string that does not expire. -/
theorem restored_iff_lasting :
    Restored (session oneDispatch) (oneString none) (checkpoint 0 (oneString none)) := by
  refine (restored_iff (s := session oneDispatch) (r := oneString none) rfl).mpr
    ⟨fun key e he _ => ?_, fun key e he hstream => ?_, ?_⟩
  · rw [get_oneString he]
  · rw [get_oneString he] at hstream
    cases hstream
  · rintro ⟨p, hp, horphan⟩
    rw [List.mem_singleton.mp hp] at horphan
    cases horphan

/-- **An expiry is lost**: the string that is written back stays for ever. -/
theorem ttl_lost : ¬ ∀ (s : Session Int) (r : Db Int) (cp : Checkpoint Int), drain s.drained r = .ok cp →
    Restored s r cp := by
  intro h
  obtain ⟨r₁, hr₁, hsame, -⟩ := h (session oneDispatch) (oneString (some 60)) _ rfl
  have hget : get 0 (oneString (some 60)) "mode" = some ⟨"mode", .string "on", some 60⟩ := by rfl
  obtain ⟨r', hr', hspec⟩ :=
    restore_spec 10 0 (oneString (some 60)) ((session oneDispatch).injected (oneString (some 60)))
  obtain ⟨v, -, hfind⟩ := (hspec "mode").value _ hget id
  cases hr₁.symm.trans hr'
  have hkey := hsame "mode"
  rw [show (session oneDispatch).drained = 0 from rfl, hget, get_eq_some_iff.mpr ⟨hfind, rfl⟩] at hkey
  cases hkey.2.2

end ClaudeSwarm.DrainRestore
