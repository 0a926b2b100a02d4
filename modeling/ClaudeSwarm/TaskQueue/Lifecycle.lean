import ClaudeSwarm.TaskQueue.FilesystemBoard
import ClaudeSwarm.TaskQueue.RedisBoard

/-!
# The life of a task

One client calls the methods of the queue one after the other, on a tree without files. `FiledAs s t`
says that the task `t` is a file in the directory of its state and in none of the other four.

* `keeps`: every call keeps the board.
* **`lifecycle`**: after every call each task that was created is filed exactly once, as the work it
  was created for; the next call moves it along an edge of the life cycle or leaves it as it is, and
  leaves a completed task as it is.
* **`life_of_session`**: on Redis the same is true of what `get` reports.
-/

namespace ClaudeSwarm.TaskQueue.Filesystem

open Data
open Python (FloatFmt)

variable {F : FloatFmt} {nodename : String} {s s' : Dirs} {l : Board} {created : List Task}

/-- The file of `t`, with its own dictionary, is in the directory of its state and in no other. -/
structure FiledAs (s : Dirs) (t : Task) : Prop where
  state : t.state ∈ allStates
  file : ∀ dir ∈ allStates, (s dir).find? (fileName t.id) =
    if dir = t.state then some (fileName t.id, t.toDict) else none

/-- The work of a task, with its priority. -/
def SamePayload (task t : Task) : Prop := SameWork task t ∧ t.priority = task.priority

theorem SamePayload.moved {task t t' : Task} (h : SamePayload task t)
    (hm : Moved (t.read ownTier) t') : SamePayload task t' :=
  ⟨h.1.trans hm.sameWork, hm.priority.trans h.2⟩

/-- A task on the board is filed. -/
theorem Holds.filed (h : Holds s l) {id : String} {t : Task} (ht : l.find? id = some t) :
    FiledAs s t := by
  have hid : t.id = id := Table.find?_key ht
  subst hid
  refine ⟨h.state t (Table.find?_mem ht), fun dir hdir => ?_⟩
  rw [h.file dir hdir, ht, Option.bind_some, fileIn]
  by_cases hd : dir = t.state
  · rw [if_pos hd, if_pos hd.symm]
  · rw [if_neg hd, if_neg (Ne.symm hd)]

theorem holds_empty : Holds (fun _ => .empty) .empty :=
  ⟨fun _ _ _ => rfl, (fun _ h => absurd h List.not_mem_nil), fun _ h => absurd h List.not_mem_nil⟩

/-- **Every call keeps the board.** -/
theorem keeps (F : FloatFmt) (nodename : String) :
    Keeps store (api F nodename) Holds ownTier := by
  intro s s' new l hl hc hnew
  cases hc with
  | create hr =>
    obtain ⟨task, hx, -, -, hp, hst, rfl⟩ := runs_create hr
    cases hx
    have hfree := hnew _ rfl
    exact ⟨_, hl.create hfree hst (hp ▸ normalizePriority_tier _), follows_create hfree⟩
  | call hr => exact (changed_of_call hl hr).follows hl
  | requeueStale hr => exact (serves_backend F).follows_of_requeueStale hl hr

/-- **The life of a task.** In every session of one client on a tree without files: `create` returns a
task of the title, requirements and tier it was given; after every call each created task is filed,
with the payload it was created with; and the next call leaves it as it is, or moves it from a state
other than `completed` along an edge of the life cycle. -/
theorem lifecycle (h : Session store (api F nodename) (fun _ => .empty) s created) :
    (∀ n title description project priority requires estimated createdBy x,
      store.Runs n (create nodename title description project priority requires estimated createdBy)
        s x s' → ∃ task : Task, x = .ok task ∧ task.title = title ∧ task.requires = requires ∧
          task.priority = normalizePriority priority ∧ task.state = .pending) ∧
    (∀ task ∈ created, ∃ t, FiledAs s t ∧ SamePayload task t) ∧
    ∀ new, Called store (api F nodename) s s' new → Fresh created new →
      ∀ task ∈ created, ∃ t t', FiledAs s t ∧ FiledAs s' t' ∧ SamePayload task t ∧
        SamePayload task t' ∧ (t' = t ∨ t.state ≠ .completed ∧ Edge t.state t'.state) := by
  obtain ⟨l, hl, hcarry⟩ := carries_of_session (keeps F nodename) (R := SamePayload)
    (fun t => ⟨.refl t, rfl⟩) (fun h hm => h.moved hm) holds_empty h
  refine ⟨fun n title description project priority requires estimated createdBy x hr => ?_,
    fun task htask => ?_, fun new hc hnew task htask => ?_⟩
  · obtain ⟨task, hx, htitle, hreq, hp, hst, -⟩ := runs_create hr
    exact ⟨task, hx, htitle, hreq, hp, hst⟩
  · obtain ⟨t, ht, hR⟩ := hcarry.kept task htask
    exact ⟨t, hl.filed ht, hR⟩
  · obtain ⟨t, ht, hR⟩ := hcarry.kept task htask
    have hfresh : ∀ task' ∈ new, l.find? task'.id = none := by
      intro task' htask'
      rw [← Option.not_isSome_iff_eq_none]
      intro hsome
      obtain ⟨t', ht', hid⟩ := hcarry.only hsome
      exact hnew task' htask' t' ht' hid
    obtain ⟨l', hl', hf⟩ := keeps F nodename hl hc hfresh
    obtain ⟨t', ht', rfl | hm⟩ := hf.old ht
    · exact ⟨t', t', hl.filed ht, hl'.filed ht', hR, hR, Or.inl rfl⟩
    · exact ⟨t, t', hl.filed ht, hl'.filed ht', hR, hR.moved hm,
        Or.inr ⟨hm.not_completed, hm.edge⟩⟩

/-- A session that creates a task and claims it. -/
theorem session_oneClaim (F : FloatFmt) (nodename : String) :
    ∃ s task, Session store (api F nodename) (fun _ => .empty) s [task] := by
  obtain ⟨x, s₁, hr⟩ := exists_runs 0
    (create nodename "t" "" "" (.str "high") ["gpu"] 0 "") fun _ => .empty
  obtain ⟨task, hx, -⟩ := runs_create hr
  subst hx
  obtain ⟨y, s₂, hclaim⟩ := exists_runs 0 ((api F nodename).call (.claim "w" (some task.id))) s₁
  have hcreate : Called store (api F nodename) _ s₁ (some task) := .create hr
  have hsession := (Session.start.next hcreate fun _ _ t ht => absurd ht List.not_mem_nil).next
    (.call hclaim) fun _ ht => by cases ht
  exact ⟨s₂, task, hsession⟩

theorem lifecycle_oneClaim : ∃ (s s' : Dirs) (task : Task),
    (∃ t, FiledAs s t ∧ SamePayload task t) ∧
    ∃ t t', FiledAs s t ∧ FiledAs s' t' ∧ SamePayload task t ∧ SamePayload task t' ∧
      (t' = t ∨ t.state ≠ .completed ∧ Edge t.state t'.state) := by
  obtain ⟨s, task, h⟩ := session_oneClaim Python.wholeSeconds "h"
  obtain ⟨x, s', hr⟩ := exists_runs 0
    ((api Python.wholeSeconds "h").call (.complete task.id "done")) s
  obtain ⟨-, hfiled, hnext⟩ := @lifecycle _ _ _ s' _ h
  exact ⟨s, s', task, hfiled task List.mem_cons_self,
    hnext none (.call hr) (fun _ ht => by cases ht) task List.mem_cons_self⟩

end ClaudeSwarm.TaskQueue.Filesystem

/-! ## On Redis -/

namespace ClaudeSwarm.TaskQueue.Redis

open Data
open Python (FloatFmt)
open ClaudeSwarm.Redis (Keys store exists_runs)

variable {F : FloatFmt} {s s' : Keys} {created : List Task} {new : Option Task}

/-- `get` returns `t`, and nothing else, and changes nothing. -/
def Reports (F : FloatFmt) (s : Keys) (id : String) (t : Task) : Prop :=
  ∀ n x s₁, store.Runs n ((api F).get id) s x s₁ ↔ x = .ok (some t) ∧ s₁ = s

theorem Holds.reports (hF : F.RoundTrips) {l : Board} (h : Holds F s l) {id : String} {t : Task}
    (ht : l.find? id = some t) : Reports F s id (t.read lostTier) := by
  intro n x s₁
  have hget : store.Runs n ((api F).get id) s x s₁ ↔ _ := runs_redisGet hF h
  rwa [ht] at hget

/-- **The life of a task on Redis.** In every session of one client on an empty server, whatever is called next:
every task that was created is reported before and after the call, as the work it was created for, and it is as it
was, or it was not completed and has gone along an edge of the life cycle. -/
theorem life_of_session (hF : F.RoundTrips) (h : Session store (api F) .empty s created)
    (hc : Called store (api F) s s' new) (hnew : Fresh created new) :
    ∀ task ∈ created, ∃ t t', Reports F s task.id t ∧ Reports F s' task.id t' ∧ SameWork task t ∧
      SameWork task t' ∧ (t' = t ∨ t.state ≠ .completed ∧ Edge t.state t'.state) := by
  have hread : ∀ t : Task, SameWork t (t.read lostTier) := fun t => ⟨rfl, rfl, rfl, rfl⟩
  have hmove : ∀ {task t t' : Task}, SameWork task t → Moved (t.read lostTier) t' → SameWork task t' :=
    fun hw hm => (hw.trans (hread _)).trans hm.sameWork
  obtain ⟨l, hl, hcarry⟩ := carries_of_session (keeps hF) SameWork.refl hmove holds_empty h
  have hfresh : ∀ task ∈ new, l.find? task.id = none := by
    intro task htask
    by_contra hthere
    obtain ⟨t, ht, hid⟩ := hcarry.only (Option.isSome_iff_ne_none.mpr hthere)
    exact hnew task htask t ht hid
  obtain ⟨l', hl', hf⟩ := keeps hF hl hc hfresh
  intro task htask
  obtain ⟨t, ht, hw⟩ := hcarry.kept task htask
  obtain ⟨t', ht', hcase⟩ := hf.old ht
  refine ⟨_, _, hl.reports hF ht, hl'.reports hF ht', hw.trans (hread t), ?_⟩
  rcases hcase with rfl | hm
  · exact ⟨hw.trans (hread t'), Or.inl rfl⟩
  · exact ⟨(hmove hw hm).trans (hread t'), Or.inr ⟨hm.not_completed, hm.edge⟩⟩

theorem life_of_session_created : ∃ (s' : Keys) (task t t' : Task),
    Reports Python.exact (withTask .empty ⟨0, "", "a", "h"⟩ 3) task.id t ∧ Reports Python.exact s' task.id t' ∧
      (t' = t ∨ t.state ≠ .completed ∧ Edge t.state t'.state) := by
  have hcreate := runs_withTask .empty ⟨0, "", "a", "h"⟩ 3
  have hsession : Session store (api Python.exact) .empty _ ([] ++ _) :=
    Session.start.next (.create hcreate) fun _ _ _ ht => absurd ht List.not_mem_nil
  obtain ⟨x, s', hclaim⟩ := exists_runs 0 ((api Python.exact).call (.claim "w" none)) (withTask .empty ⟨0, "", "a", "h"⟩ 3)
  obtain ⟨t, t', ht, ht', -, -, hcase⟩ := life_of_session Python.float_str_exact hsession (.call hclaim)
    (fun _ h => by cases h) _ List.mem_cons_self
  exact ⟨s', _, t, t', ht, ht', hcase⟩

end ClaudeSwarm.TaskQueue.Redis
