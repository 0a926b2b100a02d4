import ClaudeSwarm.TaskQueue.ClaimOrder
import ClaudeSwarm.TaskQueue.RedisBoard
import ClaudeSwarm.TaskQueue.SqliteBoard

/-!
# Claims by capabilities

`claim_matching` lists fifty pending tasks, sorts them by priority and claims the first that requires
no more than the caller has. A task beyond the fiftieth is not looked at; and on Redis, where every
priority reads as the default, the sort leaves the listing as it is.

* `finds_iff`: what the fifty tasks have to contain, where the priorities are those of the tasks.
* `Redis.finds_iff_leads`: on Redis the first match of the listing has to be a best one.
* **`claim_matching_iff`**: when `claim_matching` finds a best match, on each backend;
  `claim_matching_misses_best` is a queue on Redis in which it takes a sandbox task before a production
  task.
-/

namespace ClaudeSwarm.TaskQueue

open Interleave Data
open Python (PyError FloatFmt)

/-! ## What there is to find -/

/-- `t` is pending and requires only what is in `caps`. -/
def Matches (caps : List String) (t : Task) : Prop :=
  t.state = .pending ∧ Backend.matches_ caps t = true

/-- A match of minimal priority number. -/
abbrev BestMatch (caps : List String) (l : Board) : Task → Prop :=
  First (fun a b => a.priority ≤ b.priority) (Matches caps) l.rows

/-- The answer is a best match, or `None` where no task matches. -/
def Finds (caps : List String) (l : Board) (x : Except PyError (Option Task)) : Prop :=
  (∃ m t, BestMatch caps l m ∧ x = .ok (some t) ∧ t.id = m.id) ∨
    x = .ok none ∧ ∀ t ∈ l.rows, ¬ Matches caps t

/-- `claim_matching` of the queue `Q` finds what there is. -/
def FindsWork {S : Sig} (T : Store S) (Q : Api S) (caps : List String) (claimer : String)
    (s : T.State) (l : Board) : Prop :=
  ∀ n x s', T.Runs n (Q.call (.claimMatching caps claimer)) s x s' → Finds caps l x

/-- No task matches, or a best match is among `tasks`. -/
def BestAmong (caps : List String) (l : Board) (tasks : List Task) : Prop :=
  (∀ t ∈ l.rows, ¬ Matches caps t) ∨ ∃ m ∈ tasks, BestMatch caps l m

section Priorities

variable {caps : List String} {l : Board} {tasks : List Task} {o : Option Task}

/-- Tasks of the board with one identifier are one task. -/
theorem eq_of_same_id {t t' : Task} (ht : t ∈ l.rows) (ht' : t' ∈ l.rows) (h : t.id = t'.id) :
    t = t' :=
  Option.some.inj (by rw [← Table.find?_of_mem ht, ← Table.find?_of_mem ht', h])

theorem finds_none : Finds caps l (.ok none) ↔ ∀ t ∈ l.rows, ¬ Matches caps t := by
  constructor
  · rintro (⟨m, t, -, hx, -⟩ | ⟨-, h⟩)
    · cases hx
    · exact h
  · exact fun h => Or.inr ⟨rfl, h⟩

theorem finds_some {t t' : Task} (ht : t ∈ l.rows) (hid : t'.id = t.id) :
    Finds caps l (.ok (some t')) ↔ BestMatch caps l t := by
  constructor
  · rintro (⟨m, t'', hm, hx, hid'⟩ | ⟨hx, -⟩)
    · cases hx
      rw [eq_of_same_id ht hm.mem (hid.symm.trans hid')]
      exact hm
    · cases hx
  · exact fun h => Or.inl ⟨t, t', h, rfl, hid⟩

/-- The first match by priority of some pending tasks is what there is to find exactly when a best
match is among these. -/
theorem finds_iff (hmem : ∀ t ∈ tasks, t ∈ l.rows ∧ t.state = .pending)
    (ho : o.map Task.id =
      ((Backend.byPriority tasks).find? (Backend.matches_ caps)).map Task.id) :
    Finds caps l (.ok o) ↔ BestAmong caps l tasks := by
  cases hf : (Backend.byPriority tasks).find? (Backend.matches_ caps) with
  | none =>
    rw [hf, Option.map_none, Option.map_eq_none_iff] at ho
    subst ho
    rw [finds_none]
    refine ⟨Or.inl, fun h => h.elim (fun h => h) ?_⟩
    rintro ⟨m, hm, hbest⟩
    have hno := List.find?_eq_none.mp hf m (mem_byPriority.mpr hm)
    exact absurd hbest.holds.2 hno
  | some t =>
    rw [hf, Option.map_some] at ho
    obtain ⟨t', rfl, hid⟩ := Option.map_eq_some_iff.mp ho
    have hfirst := first_insertionSort (r := fun a b : Task => a.priority ≤ b.priority) hf
    obtain ⟨ht, hp⟩ := hmem t hfirst.mem
    rw [finds_some ht hid]
    refine ⟨fun h => Or.inr ⟨t, hfirst.mem, h⟩, ?_⟩
    rintro (hno | ⟨m, hm, hbest⟩)
    · exact absurd ⟨hp, hfirst.holds⟩ (hno t ht)
    · have hle := hfirst.le m hm hbest.holds.2
      exact ⟨ht, ⟨hp, hfirst.holds⟩, fun y hy hmatch => le_trans hle (hbest.le y hy hmatch)⟩

end Priorities

/-! ## The filesystem -/

namespace Filesystem

variable {F : FloatFmt} {nodename : String} {s : Dirs} {l : Board} {caps : List String}
  {claimer : String}

/-- A best match has its file among the first fifty names of `pending/`, or no task matches. -/
def BestListed (s : Dirs) (l : Board) (caps : List String) : Prop :=
  (∀ t ∈ l.rows, ¬ Matches caps t) ∨
    ∃ m, BestMatch caps l m ∧ fileName m.id ∈ listed s .pending 50

theorem bestAmong_iff : BestAmong caps l (shown s l .pending 50) ↔ BestListed s l caps := by
  refine or_congr_right ⟨?_, ?_⟩
  · rintro ⟨m, hm, hbest⟩
    exact ⟨m, hbest, (mem_shown.mp hm).2.2⟩
  · rintro ⟨m, hbest, hname⟩
    exact ⟨m, mem_shown.mpr ⟨Table.find?_of_mem hbest.mem, hbest.holds.1, hname⟩, hbest⟩

theorem findsWork_iff (h : Holds s l) :
    FindsWork store (api F nodename) caps claimer s l ↔ BestListed s l caps := by
  have hanswer : ∀ n x s', store.Runs n ((backend F).claimMatching caps claimer) s x s' →
      (Finds caps l x ↔ BestAmong caps l (shown s l .pending 50)) := by
    intro n x s' hr
    have hmem : ∀ t ∈ shown s l .pending 50, t ∈ l.rows ∧ t.state = .pending := fun t ht =>
      ⟨Table.find?_mem (mem_shown.mp ht).1, (mem_shown.mp ht).2.1⟩
    rcases (serves_backend F).runs_claimMatching h hr with ⟨hno, rfl, -⟩ | ⟨t, now, ht, rfl, -⟩
    · exact finds_iff hmem (by rw [hno])
    · exact finds_iff hmem (by rw [ht]; rfl)
  rw [← bestAmong_iff]
  constructor
  · intro hw
    obtain ⟨x, s', hr⟩ := exists_runs 0 ((backend F).claimMatching caps claimer) s
    exact (hanswer 0 x s' hr).mp (hw 0 x s' hr)
  · exact fun hb n x s' hr => (hanswer n x s' hr).mpr hb

end Filesystem

/-! ## SQLite -/

namespace Sqlite

open ClaudeSwarm.Sqlite

variable {F : FloatFmt} {s : Db} {l : Board} {caps : List String} {claimer : String}

/-- A best match is among the first fifty pending rows by priority and creation, or no task matches. -/
abbrev BestListed (s : Db) (l : Board) (caps : List String) : Prop :=
  BestAmong caps l (shown s .pending 50)

theorem findsWork_iff (h : Holds s l) :
    FindsWork store (api F) caps claimer s l ↔ BestListed s l caps := by
  have hanswer : ∀ n x s', store.Runs n ((backend F).claimMatching caps claimer) s x s' →
      (Finds caps l x ↔ BestListed s l caps) := by
    intro n x s' hr
    obtain ⟨-, o, rfl, hid, -⟩ := runs_claimMatching h.rest hr
    refine finds_iff (fun t ht => ?_) hid
    obtain ⟨row, hrow, rfl⟩ := List.mem_map.mp ht
    obtain ⟨hmem, hp⟩ := mem_inState.mp (List.mem_of_mem_take hrow)
    exact ⟨h.mem.mpr ⟨row, hmem, rfl⟩, hp⟩
  constructor
  · intro hw
    obtain ⟨x, s', hr⟩ := exists_runs 0 ((backend F).claimMatching caps claimer) s
    exact (hanswer 0 x s' hr).mp (hw 0 x s' hr)
  · exact fun hb n x s' hr => (hanswer n x s' hr).mpr hb

end Sqlite

/-! ## Redis -/

namespace Redis

open ClaudeSwarm.Redis

variable {F : FloatFmt} {s : Keys} {l : Board} {caps : List String} {claimer : String}

/-- `a` is before `b` in `tasks:pending`. -/
def Leads (s : Keys) (a b : Task) : Prop :=
  ∀ x y, (s.tasks .pending).score a.id = some x → (s.tasks .pending).score b.id = some y →
    ZSet.before (a.id, x) (b.id, y)

/-- A best match is among the first fifty members of `tasks:pending` and before every other match, or
no task matches. -/
def BestLeads (s : Keys) (l : Board) (caps : List String) : Prop :=
  (∀ t ∈ l.rows, ¬ Matches caps t) ∨
    ∃ m, BestMatch caps l m ∧ m.id ∈ (s.tasks .pending).range 49 ∧
      ∀ t ∈ l.rows, Matches caps t → Leads s m t

/-- The member is a match. -/
def memberMatches (l : Board) (caps : List String) (e : String × Int) : Bool :=
  (l.find? e.1).any (Backend.matches_ caps)

theorem memberMatches_iff {e : String × Int} : memberMatches l caps e = true ↔
    ∃ t, l.find? e.1 = some t ∧ Backend.matches_ caps t = true := Option.any_eq_true _ _

theorem before_antisymm {a b : String × Int} (h : ZSet.before a b) (h' : ZSet.before b a) :
    a.1 = b.1 := by
  rcases h with h | ⟨h, hs⟩ <;> rcases h' with h' | ⟨h', hs'⟩
  · exact absurd (h.trans h') (lt_irrefl _)
  · exact absurd h (h' ▸ lt_irrefl _)
  · exact absurd h' (h ▸ lt_irrefl _)
  · exact String.le_antisymm hs hs'

/-- Sorting tasks of one priority leaves them as they are. -/
theorem byPriority_of_eq {p : Int} {tasks : List Task} (h : ∀ t ∈ tasks, t.priority = p) :
    Backend.byPriority tasks = tasks := by
  refine List.Pairwise.insertionSort_eq (List.pairwise_of_forall_mem_list fun a ha b hb => ?_)
  rw [h a ha, h b hb]

/-- The first match of the tasks a listing shows. -/
theorem find?_shown :
    ((Backend.byPriority (shown s l .pending 50)).find? (Backend.matches_ caps)).map Task.id =
      (((s.tasks .pending).sorted.take 50).find? (memberMatches l caps)).map Prod.fst := by
  have hshown : shown s l .pending 50 =
      ((s.tasks .pending).sorted.take 50).filterMap fun e => (l.find? e.1).map (Task.read lostTier) :=
    List.filterMap_map
  have hprio : ∀ t ∈ shown s l .pending 50, t.priority = 3 := by
    intro t ht
    obtain ⟨id, -, ht⟩ := List.mem_filterMap.mp ht
    obtain ⟨t₀, -, rfl⟩ := Option.map_eq_some_iff.mp ht
    rfl
  have hmatch : (fun e : String × Int =>
      ((l.find? e.1).map (Task.read lostTier)).any (Backend.matches_ caps)) = memberMatches l caps := by
    funext e
    unfold memberMatches
    cases l.find? e.1 <;> rfl
  rw [byPriority_of_eq hprio, hshown, List.find?_filterMap, hmatch]
  cases hf : ((s.tasks .pending).sorted.take 50).find? (memberMatches l caps) with
  | none => rfl
  | some e =>
    obtain ⟨t, ht, -⟩ := memberMatches_iff.mp (List.find?_some hf)
    have hid : t.id = e.1 := Table.find?_key ht
    rw [Option.bind_some, ht]
    exact congrArg some hid

/-- On Redis the answer is what there is to find exactly when a best match leads the others. -/
theorem finds_iff_leads {o : Option Task} (h : Holds F s l)
    (ho : o.map Task.id =
      (((s.tasks .pending).sorted.take 50).find? (memberMatches l caps)).map Prod.fst) :
    Finds caps l (.ok o) ↔ BestLeads s l caps := by
  -- the member of a matching task
  have hmember : ∀ {t : Task}, t ∈ l.rows → Backend.matches_ caps t = true → ∀ x,
      memberMatches l caps (t.id, x) = true :=
    fun ht hm x => memberMatches_iff.mpr ⟨_, Table.find?_of_mem ht, hm⟩
  cases hf : ((s.tasks .pending).sorted.take 50).find? (memberMatches l caps) with
  | none =>
    rw [hf, Option.map_none, Option.map_eq_none_iff] at ho
    subst ho
    rw [finds_none]
    refine ⟨Or.inl, fun h => h.elim (fun h => h) ?_⟩
    rintro ⟨m, hbest, hrange, -⟩
    obtain ⟨e, he, hid⟩ := List.mem_map.mp hrange
    have hm := hmember hbest.mem hbest.holds.2 e.2
    rw [← hid] at hm
    exact absurd hm (List.find?_eq_none.mp hf e he)
  | some e =>
    rw [hf, Option.map_some] at ho
    obtain ⟨t', rfl, hid'⟩ := Option.map_eq_some_iff.mp ho
    obtain ⟨t, ht, hmt⟩ := memberMatches_iff.mp (List.find?_some hf)
    have hid : t.id = e.1 := Table.find?_key ht
    have htrow := Table.find?_mem ht
    have hsorted : (s.tasks .pending).sorted.Pairwise ZSet.before :=
      List.pairwise_insertionSort ZSet.before _
    have hfind : (s.tasks .pending).sorted.find? (memberMatches l caps) = some e := by
      rw [← List.take_append_drop 50 (s.tasks .pending).sorted, List.find?_append, hf]
      rfl
    have hfirst := First.of_find? hsorted
      (fun x => (ZSet.before_total x x).elim (fun h => h) fun h => h) hfind
    have hscore := ZSet.score_of_mem (ZSet.mem_sorted.mp hfirst.mem)
    have hpending : t.state = .pending := by
      obtain ⟨-, t₁, ht₁, hst⟩ := h.index.mp (show Member s .pending e.1 by rw [Member, hscore]; rfl)
      rw [ht] at ht₁
      cases ht₁
      exact hst
    rw [finds_some htrow (hid'.trans hid.symm)]
    constructor
    · refine fun hbest => Or.inr ⟨t, hbest, ?_, fun t₂ ht₂ hm₂ x y hx hy => ?_⟩
      · exact List.mem_map.mpr ⟨e, List.mem_of_find?_eq_some hf, hid.symm⟩
      · rw [hid, hscore] at hx
        cases hx
        rw [hid]
        exact hfirst.le _ (ZSet.mem_sorted.mpr (ZSet.mem_of_score hy)) (hmember ht₂ hm₂.2 y)
    · rintro (hno | ⟨m, hbest, hrange, hlead⟩)
      · exact absurd ⟨hpending, hmt⟩ (hno t htrow)
      · obtain ⟨x, hx⟩ := Option.isSome_iff_exists.mp (mem_range hrange)
        have hle := hfirst.le _ (ZSet.mem_sorted.mpr (ZSet.mem_of_score hx))
          (hmember hbest.mem hbest.holds.2 x)
        have hge := hlead t htrow ⟨hpending, hmt⟩ x e.2 hx (hid ▸ hscore)
        rw [hid] at hge
        have heq : t.id = m.id := hid.trans (before_antisymm hle hge)
        rw [eq_of_same_id htrow hbest.mem heq]
        exact hbest

theorem findsWork_iff (hF : F.RoundTrips) (h : Holds F s l) :
    FindsWork store (api F) caps claimer s l ↔ BestLeads s l caps := by
  have hanswer : ∀ n x s', store.Runs n ((backend F).claimMatching caps claimer) s x s' →
      (Finds caps l x ↔ BestLeads s l caps) := by
    intro n x s' hr
    have hfirst := @find?_shown s l caps
    rcases (serves hF).runs_claimMatching h hr with ⟨hno, rfl, -⟩ | ⟨t, now, ht, rfl, -⟩
    · exact finds_iff_leads h (by rw [← hfirst, hno])
    · exact finds_iff_leads h (by rw [← hfirst, ht]; rfl)
  constructor
  · intro hw
    obtain ⟨x, s', hr⟩ := exists_runs 0 ((backend F).claimMatching caps claimer) s
    exact (hanswer 0 x s' hr).mp (hw 0 x s' hr)
  · exact fun hb n x s' hr => (hanswer n x s' hr).mpr hb

/-! ### A sandbox task before a production task -/

/-- A sandbox task, and a production task two hours later. -/
def sandbox : Task := newTask ⟨0, "", "a", "h"⟩ 5

/-- The production task. -/
def production : Task := newTask ⟨7200, "", "b", "h"⟩ 0

/-- The server with both. -/
def sandboxFirst : Keys := withTask (withTask .empty ⟨0, "", "a", "h"⟩ 5) ⟨7200, "", "b", "h"⟩ 0

/-- Its board. -/
def sandboxFirstBoard : Board := (Table.empty.put sandbox).put production

theorem holds_sandboxFirst : Holds Python.exact sandboxFirst sandboxFirstBoard :=
  ((holds_empty.create (by decide) (runs_withTask _ _ _)).create (by decide) (runs_withTask _ _ _))

theorem not_bestLeads : ¬ BestLeads sandboxFirst sandboxFirstBoard [] := by
  have hrows : sandboxFirstBoard.rows = [sandbox, production] := by decide +kernel
  have hs : sandbox ∈ sandboxFirstBoard.rows := by simp [hrows]
  have hp : production ∈ sandboxFirstBoard.rows := by simp [hrows]
  rintro (hno | ⟨m, hbest, -, hlead⟩)
  · exact hno sandbox hs ⟨rfl, rfl⟩
  · have hle := hbest.le production hp ⟨rfl, rfl⟩
    have hm : m = sandbox ∨ m = production := by simpa [hrows] using hbest.mem
    rcases hm with rfl | rfl
    · exact absurd hle (by decide)
    · have hbefore := hlead sandbox hs ⟨rfl, rfl⟩ 7200 5000 (by decide +kernel) (by decide +kernel)
      exact absurd hbefore (by decide)

end Redis

/-! ## The claim -/

variable {F : FloatFmt}

/-- **`claim_matching`.** On every backend, for every board it can hold, `claim_matching` returns a
best match, or `None` where there is no match, if and only if a best match is among the fifty tasks it
looks at, and on Redis the first match there. -/
theorem claim_matching_iff (hF : F.RoundTrips) (caps : List String) (claimer : String) :
    (∀ s l, Sqlite.Holds s l → (FindsWork ClaudeSwarm.Sqlite.store (Sqlite.api F) caps claimer s l ↔
      Sqlite.BestListed s l caps)) ∧
    (∀ nodename s l, Filesystem.Holds s l →
      (FindsWork Filesystem.store (Filesystem.api F nodename) caps claimer s l ↔
        Filesystem.BestListed s l caps)) ∧
    ∀ s l, Redis.Holds F s l → (FindsWork ClaudeSwarm.Redis.store (Redis.api F) caps claimer s l ↔
      Redis.BestLeads s l caps) :=
  ⟨fun _ _ h => Sqlite.findsWork_iff h, fun _ _ _ h => Filesystem.findsWork_iff h,
    fun _ _ h => Redis.findsWork_iff hF h⟩

theorem claim_matching_iff_examples :
    (FindsWork Filesystem.store (Filesystem.api Python.exact "h") [] "w"
        (Filesystem.crowded 49 Filesystem.nodup_leftovers.1) Filesystem.oneTaskBoard ↔
      Filesystem.BestListed (Filesystem.crowded 49 Filesystem.nodup_leftovers.1)
        Filesystem.oneTaskBoard []) ∧
    (FindsWork ClaudeSwarm.Redis.store (Redis.api Python.exact) [] "w" Redis.sandboxFirst
        Redis.sandboxFirstBoard ↔
      Redis.BestLeads Redis.sandboxFirst Redis.sandboxFirstBoard []) := by
  obtain ⟨-, hfiles, hredis⟩ := claim_matching_iff Python.float_str_exact [] "w"
  exact ⟨hfiles "h" _ _ (Filesystem.holds_crowded _), hredis _ _ Redis.holds_sandboxFirst⟩

/-- On Redis the sandbox task is claimed before the production task. -/
theorem claim_matching_misses_best :
    ¬ FindsWork ClaudeSwarm.Redis.store (Redis.api Python.exact) [] "w" Redis.sandboxFirst
      Redis.sandboxFirstBoard := fun h =>
  Redis.not_bestLeads ((Redis.findsWork_iff Python.float_str_exact Redis.holds_sandboxFirst).mp h)

end ClaudeSwarm.TaskQueue
