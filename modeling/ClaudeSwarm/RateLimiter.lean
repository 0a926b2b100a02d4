import ClaudeSwarm.Data.Dict
import ClaudeSwarm.Python
import Mathlib.Data.List.Induction

/-!
# The rate limits of the profiles

Model of `src/rate_limiter.py`: what a line of output says about a limit (`detectRateLimit`) and the tracker that
keeps the last event of each profile (`RateLimitTracker`). What a compiled pattern finds in a text is a parameter
(`Patterns`). `clock i` is what `time.time()` reads while the `i`-th profile of a list is looked at.

An event recorded later takes the place of an earlier one, also of an `auth` or `billing` failure, which "never clear"s,
and of a longer cooldown: the failure is forgotten, and the profile is available as soon as the later event has lapsed.

* `get?_recordAll`: the tracker holds the last event of each profile.
* **`right_iff_remembered`**: at a time the answers about a profile are right exactly if its last event, where it has
  lapsed, does not hide an earlier one that is still in force, nor is one that the tracker misreads.
* **`best_of_detected`**: after any output, which profile `get_best_profile` chooses.
* **`auth_forgotten`**: an `auth` failure and then a session limit of an hour.
-/

namespace ClaudeSwarm.RateLimiter

open Data
open Python (Time)

/-- `limit_type`. -/
inductive LimitType where
  | session | weekly | overloaded | auth | billing
  deriving DecidableEq, Repr

/-- `RateLimitEvent`. -/
structure RateLimitEvent where
  profile : String
  limit_type : LimitType
  reset_hint : String
  detected_at : Time
  cooldown_until : Time
  deriving DecidableEq

/-! ## Detection -/

/-- The patterns: group 1 of `RE_LIMIT_REACHED`, stripped; whether the other ones are found; in a lower-case hint,
whether a weekly marker is found and the number before `hours` and before `minutes`. -/
structure Patterns where
  limitReached : String → Option String
  overloaded : String → Bool
  authFailure : String → Bool
  billingFailure : String → Bool
  weekly : String → Bool
  hours : String → Option Nat
  minutes : String → Option Nat

/-- `_classify_limit`. -/
def classifyLimit (re : Patterns) (reset_hint : String) : LimitType × Time :=
  if re.weekly reset_hint then (.weekly, 86400)
  else
    let cooldown := (re.hours reset_hint).getD 0 * 3600 + (re.minutes reset_hint).getD 0 * 60
    if 0 < cooldown then (.session, cooldown) else (.session, 3600)

/-- `detect_rate_limit`; the time is read for `detected_at` too. -/
def detectRateLimit (re : Patterns) (now : Time) (output_line profile : String) : Option RateLimitEvent :=
  match re.limitReached output_line with
  | some reset_hint =>
    let (limit_type, cooldown) := classifyLimit re reset_hint
    some ⟨profile, limit_type, reset_hint, now, now + cooldown⟩
  | none =>
    if re.authFailure output_line then
      some ⟨profile, .auth, "authentication failure — check API key", now, 0⟩
    else if re.billingFailure output_line then
      some ⟨profile, .billing, "billing/credit issue — check account", now, 0⟩
    else if re.overloaded output_line then
      some ⟨profile, .overloaded, "server overloaded — retry in 5 minutes", now, now + 300⟩
    else none

/-! ## The tracker -/

/-- `RateLimitTracker`. -/
structure RateLimitTracker where
  limits : Dict String RateLimitEvent

namespace RateLimitTracker

/-- `RateLimitTracker()`. -/
def empty : RateLimitTracker := ⟨.empty⟩

/-- `record`. -/
def record (self : RateLimitTracker) (event : RateLimitEvent) : RateLimitTracker :=
  ⟨self.limits.set event.profile event⟩

/-- `is_available`. -/
def isAvailable (self : RateLimitTracker) (now : Time) (profile : String) : Bool :=
  match self.limits.get? profile with
  | none => true
  | some event => if event.cooldown_until = 0 then false else event.cooldown_until ≤ now

/-- `get_available_profiles`. -/
def getAvailableProfiles (self : RateLimitTracker) (clock : Nat → Time) (profiles : List String) : List String :=
  (profiles.zipIdx.filter fun p => self.isAvailable (clock p.2) p.1).map Prod.fst

/-- `get_best_profile`. -/
def getBestProfile (self : RateLimitTracker) (clock : Nat → Time) (profiles : List String) : Option String :=
  match self.getAvailableProfiles clock profiles with
  | [] => none
  | first :: rest => some (((first :: rest).find? fun p => (self.limits.get? p).isNone).getD first)

/-- The tracker after some events. -/
def recordAll (events : List RateLimitEvent) : RateLimitTracker := events.foldl record empty

end RateLimitTracker

open RateLimitTracker

/-! ## What is to be remembered -/

/-- `auth` and `billing` never clear. -/
def LimitType.Permanent (l : LimitType) : Prop := l = .auth ∨ l = .billing

instance (l : LimitType) : Decidable l.Permanent := inferInstanceAs (Decidable (_ ∨ _))

namespace RateLimitEvent

/-- The event limits its profile at `t`. -/
def InForce (e : RateLimitEvent) (t : Time) : Prop := e.limit_type.Permanent ∨ t < e.cooldown_until

/-- The tracker takes the event for one that is over. -/
def Lapsed (e : RateLimitEvent) (t : Time) : Prop := e.cooldown_until ≠ 0 ∧ e.cooldown_until ≤ t

end RateLimitEvent

/-- The events of a profile. -/
def own (p : String) (events : List RateLimitEvent) : List RateLimitEvent := events.filter fun e => e.profile = p

/-- No event recorded for `p` is in force. -/
def Unlimited (events : List RateLimitEvent) (p : String) (t : Time) : Prop := ∀ e ∈ own p events, ¬ e.InForce t

/-- What the tracker answers about `p` at `t` is so: by `is_available`, and by `get_best_profile` of a list in which
`p` is looked at at that time. -/
structure Right (events : List RateLimitEvent) (p : String) (t : Time) : Prop where
  available : (recordAll events).isAvailable t p = true ↔ Unlimited events p t
  best : ∀ clock profiles, (∀ i, profiles[i]? = some p → clock i = t) →
    (recordAll events).getBestProfile clock profiles = some p → Unlimited events p t

/-- The last event of `p` hides no earlier one and is not misread: where it has lapsed neither it nor an earlier one is
in force, and where its cooldown is 0 and yet it has ended, an earlier one is in force. -/
structure Remembered (events : List RateLimitEvent) (p : String) (t : Time) : Prop where
  lapsed : ∀ e, (own p events).getLast? = some e → e.Lapsed t →
    ¬ e.limit_type.Permanent ∧ ∀ e' ∈ (own p events).dropLast, ¬ e'.InForce t
  zero : ∀ e, (own p events).getLast? = some e → e.cooldown_until = 0 → ¬ e.InForce t →
    ∃ e' ∈ (own p events).dropLast, e'.InForce t

/-! ## The last event -/

variable {events : List RateLimitEvent} {p : String} {t : Time}

theorem recordAll_concat (e : RateLimitEvent) : recordAll (events ++ [e]) = (recordAll events).record e := by
  unfold recordAll
  rw [List.foldl_append]
  rfl

theorem own_concat (e : RateLimitEvent) :
    own p (events ++ [e]) = own p events ++ if e.profile = p then [e] else [] := by
  unfold own
  rw [List.filter_append]
  by_cases h : e.profile = p <;> simp [h]

/-- The tracker after some events: the induction is on the last one. -/
theorem get?_recordAll : (recordAll events).limits.get? p = (own p events).getLast? := by
  induction events using List.reverseRecOn with
  | nil => rfl
  | append_singleton events e ih =>
    rw [recordAll_concat, own_concat, record, Dict.get?_set]
    by_cases h : e.profile = p
    · rw [if_pos h.symm, if_pos h, List.getLast?_concat]
    · rw [if_neg (Ne.symm h), if_neg h, List.append_nil, ih]

theorem isAvailable_iff :
    (recordAll events).isAvailable t p = true ↔ ∀ e, (own p events).getLast? = some e → e.Lapsed t := by
  unfold isAvailable
  rw [get?_recordAll]
  cases hlast : (own p events).getLast? with
  | none => simp
  | some e => simp [RateLimitEvent.Lapsed]

/-- A profile that is returned was available when it was looked at. -/
theorem isAvailable_of_best {self : RateLimitTracker} {clock : Nat → Time} {profiles : List String}
    (h : self.getBestProfile clock profiles = some p) :
    ∃ i, profiles[i]? = some p ∧ self.isAvailable (clock i) p = true := by
  have hmem : p ∈ self.getAvailableProfiles clock profiles := by
    unfold getBestProfile at h
    split at h
    · cases h
    · rename_i first rest hlist
      rw [hlist]
      cases hfind : (first :: rest).find? fun p => (self.limits.get? p).isNone with
      | none =>
        rw [hfind] at h
        cases h
        exact List.mem_cons_self
      | some q =>
        rw [hfind] at h
        cases h
        exact List.mem_of_find?_eq_some hfind
  obtain ⟨⟨q, i⟩, hq, rfl⟩ := List.mem_map.mp hmem
  obtain ⟨hin, havailable⟩ := List.mem_filter.mp hq
  exact ⟨i, List.mem_zipIdx_iff_getElem?.mp hin, havailable⟩

/-! ## The answers -/

theorem unlimited_iff_of_last {e : RateLimitEvent} (hlast : (own p events).getLast? = some e) :
    Unlimited events p t ↔ ¬ e.InForce t ∧ ∀ e' ∈ (own p events).dropLast, ¬ e'.InForce t := by
  have hsplit : own p events = (own p events).dropLast ++ [e] :=
    (List.dropLast_append_getLast? e (Option.mem_def.mpr hlast)).symm
  unfold Unlimited
  rw [hsplit, List.dropLast_concat]
  simp only [List.mem_append, List.mem_singleton, or_imp, forall_and, forall_eq]
  exact and_comm

/-- An event that is over has lapsed, unless its cooldown is the one that stands for a permanent failure. -/
theorem lapsed_of_not_inForce {e : RateLimitEvent} (h : ¬ e.InForce t) (hzero : e.cooldown_until ≠ 0) : e.Lapsed t :=
  ⟨hzero, not_lt.mp fun hlt => h (Or.inr hlt)⟩

/-- **The answers are right.** -/
theorem right_iff_remembered (events : List RateLimitEvent) (p : String) (t : Time) :
    Right events p t ↔ Remembered events p t := by
  constructor
  · intro h
    refine ⟨fun e hlast hlapsed => ?_, fun e hlast hzero hover => ?_⟩
    · have havailable := isAvailable_iff.mpr fun e' he' => by
        cases hlast.symm.trans he'
        exact hlapsed
      obtain ⟨hover, hearlier⟩ := (unlimited_iff_of_last hlast).mp (h.available.mp havailable)
      exact ⟨fun hp => hover (Or.inl hp), hearlier⟩
    · by_contra hnone
      have hunlimited := (unlimited_iff_of_last hlast).mpr ⟨hover, fun e' he' hforce => hnone ⟨e', he', hforce⟩⟩
      exact (isAvailable_iff.mp (h.available.mpr hunlimited) e hlast).1 hzero
  · intro h
    have hiff : (recordAll events).isAvailable t p = true ↔ Unlimited events p t := by
      rw [isAvailable_iff]
      cases hlast : (own p events).getLast? with
      | none =>
        rw [List.getLast?_eq_none_iff] at hlast
        simp [Unlimited, hlast]
      | some e =>
        rw [unlimited_iff_of_last hlast]
        constructor
        · intro hlapsed
          have hlapsed := hlapsed e rfl
          obtain ⟨hnot, hearlier⟩ := h.lapsed e hlast hlapsed
          exact ⟨fun hforce => hforce.elim hnot (not_lt.mpr hlapsed.2), hearlier⟩
        · rintro ⟨hover, hearlier⟩ e' he'
          cases he'
          refine lapsed_of_not_inForce hover fun hzero => ?_
          obtain ⟨e', he', hforce⟩ := h.zero _ hlast hzero hover
          exact hearlier e' he' hforce
    refine ⟨hiff, fun clock profiles hclock hbest => ?_⟩
    obtain ⟨i, hi, havailable⟩ := isAvailable_of_best hbest
    rw [hclock i hi] at havailable
    exact hiff.mp havailable

/-! ## Events as they are detected -/

/-- The cooldown is 0 just for the failures that never clear. -/
def RateLimitEvent.Marked (e : RateLimitEvent) : Prop := e.cooldown_until = 0 ↔ e.limit_type.Permanent

theorem not_permanent_session : ¬ LimitType.session.Permanent := by decide

theorem classifyLimit_pos (re : Patterns) (hint : String) :
    0 < (classifyLimit re hint).2 ∧ ¬ (classifyLimit re hint).1.Permanent := by
  unfold classifyLimit
  split
  · exact ⟨by norm_num, by decide⟩
  · dsimp only
    split
    · rename_i hpos
      exact ⟨Nat.cast_pos.mpr hpos, not_permanent_session⟩
    · exact ⟨by norm_num, not_permanent_session⟩

theorem marked_of_detect {re : Patterns} {now : Time} {line : String} {e : RateLimitEvent} (hnow : 0 ≤ now)
    (h : detectRateLimit re now line p = some e) : e.Marked ∧ e.profile = p := by
  unfold detectRateLimit at h
  split at h
  · rename_i hint _
    obtain ⟨hpos, hnot⟩ := classifyLimit_pos re hint
    cases h
    refine ⟨⟨fun hzero => ?_, fun hp => absurd hp hnot⟩, rfl⟩
    exact absurd hzero (add_pos_of_nonneg_of_pos hnow hpos).ne'
  · split at h
    · cases h
      exact ⟨⟨fun _ => Or.inl rfl, fun _ => rfl⟩, rfl⟩
    · split at h
      · cases h
        exact ⟨⟨fun _ => Or.inr rfl, fun _ => rfl⟩, rfl⟩
      · split at h
        · cases h
          have hnot : ¬ LimitType.overloaded.Permanent := by decide
          refine ⟨⟨fun hzero => ?_, fun hp => absurd hp hnot⟩, rfl⟩
          exact absurd hzero (add_pos_of_nonneg_of_pos hnow (by norm_num)).ne'
        · cases h

/-- The events in lines of output, each read at a time and with its profile. -/
def detected (re : Patterns) (output : List (Time × String × String)) : List RateLimitEvent :=
  output.filterMap fun x => detectRateLimit re x.1 x.2.1 x.2.2

/-- The last event of the profile is over. -/
def Clear (events : List RateLimitEvent) (p : String) (t : Time) : Prop :=
  ∀ e, (own p events).getLast? = some e → ¬ e.InForce t

theorem isAvailable_iff_clear (hmarked : ∀ e ∈ events, e.Marked) :
    (recordAll events).isAvailable t p = true ↔ Clear events p t := by
  rw [isAvailable_iff]
  refine forall₂_congr fun e he => ?_
  have hm : e.cooldown_until = 0 ↔ e.limit_type.Permanent :=
    hmarked e (List.mem_filter.mp (List.mem_of_getLast? he)).1
  rw [RateLimitEvent.Lapsed, RateLimitEvent.InForce, not_or, not_lt, ← hm]

theorem isNone_iff : ((recordAll events).limits.get? p).isNone = true ↔ own p events = [] := by
  rw [get?_recordAll, Option.isNone_iff_eq_none, List.getLast?_eq_none_iff]

/-- **The profile chosen** after any output was clear when it was looked at, one is chosen unless none was, and one that
was never limited is preferred. -/
theorem best_of_detected (re : Patterns) {output : List (Time × String × String)} (hnow : ∀ x ∈ output, 0 ≤ x.1)
    (clock : Nat → Time) (profiles : List String) :
    let events := detected re output
    let best := (recordAll events).getBestProfile clock profiles
    (∀ p, best = some p → ∃ i, profiles[i]? = some p ∧ Clear events p (clock i)) ∧
    (best = none ↔ ∀ i p, profiles[i]? = some p → ¬ Clear events p (clock i)) ∧
    ((∃ p ∈ profiles, own p events = []) → ∃ p, best = some p ∧ own p events = []) := by
  intro events best
  have hmarked : ∀ e ∈ events, e.Marked := fun e he => by
    obtain ⟨x, hx, hdetect⟩ := List.mem_filterMap.mp he
    exact (marked_of_detect (hnow x hx) hdetect).1
  have havailable : ∀ p, p ∈ (recordAll events).getAvailableProfiles clock profiles ↔
      ∃ i, profiles[i]? = some p ∧ Clear events p (clock i) := fun p => by
    simp only [getAvailableProfiles, List.mem_map, List.mem_filter, isAvailable_iff_clear hmarked, Prod.exists,
      List.mem_zipIdx_iff_getElem?]
    exact ⟨fun ⟨_, i, h, rfl⟩ => ⟨i, h⟩, fun ⟨i, h⟩ => ⟨p, i, h, rfl⟩⟩
  refine ⟨fun p hp => ?_, ?_, fun ⟨p, hp, hown⟩ => ?_⟩
  · obtain ⟨i, hi, h⟩ := isAvailable_of_best hp
    exact ⟨i, hi, (isAvailable_iff_clear hmarked).mp h⟩
  · have hnone : best = none ↔ (recordAll events).getAvailableProfiles clock profiles = [] := by
      simp only [best, getBestProfile]
      split <;> simp_all
    rw [hnone, List.eq_nil_iff_forall_not_mem]
    simp only [havailable, not_exists, not_and]
    exact forall_comm
  · have hmem : p ∈ (recordAll events).getAvailableProfiles clock profiles := by
      obtain ⟨i, hi⟩ := List.mem_iff_getElem?.mp hp
      exact (havailable p).mpr ⟨i, hi, fun e he => by rw [hown] at he; cases he⟩
    have hfind : (((recordAll events).getAvailableProfiles clock profiles).find? fun p =>
        ((recordAll events).limits.get? p).isNone).isSome = true :=
      List.find?_isSome.mpr ⟨p, hmem, isNone_iff.mpr hown⟩
    obtain ⟨q, hq⟩ := Option.isSome_iff_exists.mp hfind
    refine ⟨q, ?_, isNone_iff.mp (List.find?_some (p := fun p => ((recordAll events).limits.get? p).isNone) hq)⟩
    simp only [best, getBestProfile]
    split
    · rename_i hnil
      rw [hnil] at hmem
      cases hmem
    · rename_i hlist
      rw [← hlist, hq]
      rfl

/-- What the patterns find in two lines. -/
def twoPatterns : Patterns where
  limitReached s := if s = "Limit reached · resets in 1 hour" then some "in 1 hour" else none
  overloaded _ := false
  authFailure s := s = "unauthorized"
  billingFailure _ := false
  weekly _ := false
  hours s := if s = "in 1 hour" then some 1 else none
  minutes _ := none

/-- The two lines, of one profile. -/
def twoLines : List (Time × String × String) :=
  [(0, "unauthorized", "default"), (10, "Limit reached · resets in 1 hour", "default")]

theorem best_of_detected_twoLines : ∃ p,
    (recordAll (detected twoPatterns twoLines)).getBestProfile (fun _ => 3610) ["default", "spare"] = some p ∧
      own p (detected twoPatterns twoLines) = [] := by
  have hnow : ∀ x ∈ twoLines, 0 ≤ x.1 := by decide +kernel
  exact (best_of_detected twoPatterns hnow _ _).2.2 ⟨"spare", by decide, by decide +kernel⟩

/-! ## A failure that clears -/

/-- The profile's key is refused at 0, and a session limit of an hour is reported at 10. -/
def refusedThenLimited : List RateLimitEvent :=
  [⟨"default", .auth, "authentication failure — check API key", 0, 0⟩, ⟨"default", .session, "in 1 hour", 10, 3610⟩]

/-- **An `auth` failure clears.** -/
theorem auth_forgotten : ¬ Right refusedThenLimited "default" 3610 := by
  intro h
  have hunlimited := h.available.mp (by decide +kernel)
  exact hunlimited ⟨"default", .auth, "authentication failure — check API key", 0, 0⟩ (by decide +kernel)
    (Or.inl (Or.inl rfl))

end ClaudeSwarm.RateLimiter
