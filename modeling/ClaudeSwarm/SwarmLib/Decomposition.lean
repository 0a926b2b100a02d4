import ClaudeSwarm.Data.Forest
import ClaudeSwarm.SwarmLib.Effects
import ClaudeSwarm.SwarmLib.Lock

/-!
# Decomposed tasks that finish

`decompose_task` names the subtasks of a task after it (`Sub`), so the tasks below one form a tree.
Completing the last subtask of a task completes the task, but completing a task this way does not look
at its own parent: a task stays decomposed when the last of the tasks below it to be completed is not
its own subtask (`grandparent_stays`).

* `Shape`: each task of the tree is in one stage, a task that can be moved names its parent, and a
  decomposed one lists its subtasks. `status` forgets the rest.
* `step_claim`, `step_complete`, `step_decompose`: a call refines a step of `Data.Forest`.
* **`tree_finishes_iff`**: when no task of the tree is pending or claimed any more, the root is completed
  and no task decomposed if and only if every call has met `Finishing`.
-/

namespace ClaudeSwarm.SwarmLib

open Data
open Data.Forest (Status Below InTree Naming)

/-! ## Names -/

/-- `c` is named as a subtask of `t`. -/
def Sub (c t : String) : Prop := ∃ letter : Char, c = t ++ "-" ++ .singleton letter

theorem sub_subtaskId (t : String) (i : Nat) : Sub (subtaskId t i) t := ⟨_, rfl⟩

theorem Sub.length {c t : String} (h : Sub c t) : c.length = t.length + 2 := by
  obtain ⟨letter, rfl⟩ := h
  rw [String.length_append, String.length_append, String.length_singleton]
  rfl

theorem Sub.parent {c t t' : String} (h : Sub c t) (h' : Sub c t') : t = t' := by
  have hlen : t.length = t'.length := by
    have h₁ := h.length
    have h₂ := h'.length
    omega
  obtain ⟨letter, rfl⟩ := h
  obtain ⟨letter', he⟩ := h'
  have hlist := congrArg String.toList he
  simp only [String.toList_append, List.append_assoc] at hlist
  refine String.toList_injective (List.append_inj_left hlist ?_)
  rw [String.length_toList, String.length_toList, hlen]

theorem length_of_below {c t : String} (h : Below Sub c t) : t.length < c.length := by
  induction h with
  | single hs =>
    rw [hs.length]
    omega
  | tail _ hs ih =>
    rw [hs.length] at ih
    omega

theorem naming : Naming Sub where
  parent := Sub.parent
  acyclic _ h := absurd (length_of_below h) (lt_irrefl _)

variable {root id c t : String} {fs fs' : Files} {st st' : Stage} {data : Doc}

theorem inTree_of_sub (h : InTree Sub root t) (hc : Sub c t) : InTree Sub root c := .head hc h

/-- The parent of a task of the tree, unless it is the root. -/
theorem inTree_parent (h : InTree Sub root c) (hne : c ≠ root) (hc : Sub c t) : InTree Sub root t := by
  rcases Relation.ReflTransGen.cases_head h with he | ⟨t', ht', hr⟩
  · exact absurd he hne
  · exact hc.parent ht' ▸ hr

/-! ## The tree of a root -/

/-- The task has a file. -/
def There (fs : Files) (id : String) : Prop := ∃ st, (content fs st id).isSome

/-- The task files of a tree. -/
structure Shape (root : String) (fs : Files) : Prop where
  single : ∀ id, InTree Sub root id → ∀ st st', (content fs st id).isSome →
    (content fs st' id).isSome → st = st'
  parent : ∀ id data, InTree Sub root id → id ≠ root → ∀ st, st = .pending ∨ st = .claimed →
    content fs st id = some data → ∃ t, Sub id t ∧ getStr data "parent_id" = some t
  subtasks : ∀ t data, InTree Sub root t → content fs .decomposed t = some data →
    ∀ c, c ∈ getStrings data "subtasks" ↔ Sub c t ∧ There fs c

/-- What a stage means for the tree. -/
def Stage.status : Stage → Status
  | .pending | .claimed => .active
  | .completed => .done
  | .decomposed => .split

open Classical in
/-- The status of each task of the tree that has a file. -/
noncomputable def status (root : String) (fs : Files) (id : String) : Option Status :=
  if h : InTree Sub root id ∧ There fs id then some h.2.choose.status else none

theorem status_of_file (hs : Shape root fs) (hr : InTree Sub root id)
    (h : (content fs st id).isSome) : status root fs id = some st.status := by
  have hthere : There fs id := ⟨st, h⟩
  rw [status, dif_pos ⟨hr, hthere⟩, hs.single id hr _ _ hthere.choose_spec h]

theorem status_of_not (h : ¬ (InTree Sub root id ∧ There fs id)) : status root fs id = none :=
  dif_neg h

theorem status_ne_none (hs : Shape root fs) :
    status root fs id ≠ none ↔ InTree Sub root id ∧ There fs id := by
  constructor
  · exact fun h => by_contra fun hno => h (status_of_not hno)
  · rintro ⟨hr, st, hst⟩
    rw [status_of_file hs hr hst]
    exact Option.some_ne_none _

/-- The stages with a given status. -/
theorem status_eq_some (hs : Shape root fs) {x : Status} :
    status root fs id = some x ↔
      InTree Sub root id ∧ ∃ st, (content fs st id).isSome ∧ st.status = x := by
  constructor
  · intro h
    obtain ⟨hr, st, hst⟩ := (status_ne_none hs).mp (by rw [h]; exact Option.some_ne_none _)
    rw [status_of_file hs hr hst] at h
    exact ⟨hr, st, hst, Option.some.inj h⟩
  · rintro ⟨hr, st, hst, rfl⟩
    exact status_of_file hs hr hst

/-- Tasks whose files are in the same stages have the same status. -/
theorem status_congr (hs : Shape root fs) (hs' : Shape root fs')
    (h : ∀ st, (content fs' st id).isSome = (content fs st id).isSome) :
    status root fs' id = status root fs id := by
  refine Option.ext fun x => ?_
  rw [status_eq_some hs, status_eq_some hs']
  simp only [h]

/-! ## Moving a task of the tree -/

/-- The directories `fs'` are those of `fs` with the task in `st` only. -/
def Moved (fs : Files) (id : String) (st : Stage) (data : Doc) (fs' : Files) : Prop :=
  ∀ st' id', content fs' st' id' =
    if id' = id then if st' = st then some data else none else content fs st' id'

theorem moved_drop_put (hs : Shape root fs) (hr : InTree Sub root id) (h : (content fs st id).isSome)
    (hne : st' ≠ st) : Moved fs id st' data (drop (put fs st' id data) st id) := by
  intro st'' id'
  rw [content_drop, content_put]
  by_cases hid : id' = id
  · subst hid
    by_cases hst : st'' = st
    · subst hst
      simp [hne.symm]
    · by_cases hst' : st'' = st'
      · simp [hst', hne]
      · have hnone : content fs st'' id' = none := by
          by_contra hsome
          exact hst (hs.single id' hr _ _ (Option.isSome_iff_ne_none.mpr hsome) h)
        simp [hst, hst', hnone]
  · simp [hid]

theorem Moved.there (hm : Moved fs id st data fs') (h : There fs id) (c : String) :
    There fs' c ↔ There fs c := by
  by_cases hc : c = id
  · subst hc
    refine ⟨fun _ => h, fun _ => ⟨st, ?_⟩⟩
    rw [hm, if_pos rfl, if_pos rfl]
    rfl
  · unfold There
    simp only [hm _ c, if_neg hc]

theorem Shape.moved (hs : Shape root fs) (h : There fs id) (hm : Moved fs id st data fs')
    (hst : st ≠ .decomposed)
    (hparent : id ≠ root → st ≠ .completed → ∃ t, Sub id t ∧ getStr data "parent_id" = some t) :
    Shape root fs' := by
  refine ⟨fun c hr st₁ st₂ h₁ h₂ => ?_, fun c data' hr hne st₁ hst₁ hd => ?_,
    fun t data' hr hd c => ?_⟩
  · rw [hm] at h₁ h₂
    by_cases hc : c = id
    · simp only [if_pos hc] at h₁ h₂
      by_cases h₁' : st₁ = st <;> by_cases h₂' : st₂ = st <;> simp_all
    · rw [if_neg hc] at h₁ h₂
      exact hs.single c hr st₁ st₂ h₁ h₂
  · rw [hm] at hd
    split at hd
    · rename_i hc
      split at hd
      · rename_i hst'
        obtain rfl := Option.some.inj hd
        rw [hc]
        refine hparent (hc ▸ hne) fun he => ?_
        rw [hst'.trans he] at hst₁
        rcases hst₁ with hst₁ | hst₁ <;> cases hst₁
      · cases hd
    · exact hs.parent c data' hr hne st₁ hst₁ hd
  · rw [hm] at hd
    split at hd
    · rw [if_neg hst.symm] at hd
      cases hd
    · rw [hs.subtasks t data' hr hd c, hm.there h c]

theorem status_moved (hs : Shape root fs) (hs' : Shape root fs') (hr : InTree Sub root id)
    (hm : Moved fs id st data fs') :
    status root fs' id = some st.status ∧ ∀ c, c ≠ id → status root fs' c = status root fs c := by
  constructor
  · refine status_of_file hs' hr ?_
    rw [hm, if_pos rfl, if_pos rfl]
    rfl
  · intro c hc
    refine status_congr hs hs' fun st' => ?_
    rw [hm, if_neg hc]

/-- Tasks outside the tree do not matter. -/
theorem Shape.congr (hs : Shape root fs)
    (h : ∀ id, InTree Sub root id → ∀ st, content fs' st id = content fs st id) : Shape root fs' := by
  have hthere : ∀ id, InTree Sub root id → (There fs' id ↔ There fs id) := by
    intro id hr
    unfold There
    simp only [h id hr]
  refine ⟨fun c hr st₁ st₂ h₁ h₂ => ?_, fun c data' hr hne st₁ hst₁ hd => ?_,
    fun t data' hr hd c => ?_⟩
  · rw [h c hr] at h₁ h₂
    exact hs.single c hr st₁ st₂ h₁ h₂
  · rw [h c hr] at hd
    exact hs.parent c data' hr hne st₁ hst₁ hd
  · rw [h t hr] at hd
    rw [hs.subtasks t data' hr hd c]
    exact and_congr_right fun hc => (hthere c (inTree_of_sub hr hc)).symm

/-! ## The calls refine the steps -/

open Data.Forest (WF Step Finishes Label)

theorem step_claim {data' : Doc} (hs : Shape root fs) (hr : InTree Sub root id)
    (h : content fs .pending id = some data) (hsame : SameContent data data')
    (hfs' : fs' = drop (put fs .claimed id data') .pending id) :
    Shape root fs' ∧ Step Sub (status root fs) .stay (status root fs') := by
  have hsome : (content fs .pending id).isSome := by
    rw [h]
    rfl
  have hm : Moved fs id .claimed data' fs' := hfs' ▸ moved_drop_put hs hr hsome (by decide)
  have hs' : Shape root fs' := by
    refine hs.moved ⟨_, hsome⟩ hm (by decide) fun hne _ => ?_
    obtain ⟨t, ht, hp⟩ := hs.parent id data hr hne .pending (Or.inl rfl) h
    refine ⟨t, ht, ?_⟩
    rw [← hp, getStr, getStr, hsame "parent_id" (by simp [bookkeeping])]
  refine ⟨hs', .stay fun c => ?_⟩
  obtain ⟨hself, hold⟩ := status_moved hs hs' hr hm
  by_cases hc : c = id
  · rw [hc, hself, status_of_file hs hr hsome]
    rfl
  · exact hold c hc

theorem inTree_ne_empty (hroot : root ≠ "") (hr : InTree Sub root t) : t ≠ "" := by
  rcases Relation.reflTransGen_iff_eq_or_transGen.mp hr with rfl | hb
  · exact hroot
  · rintro rfl
    have hlen := length_of_below hb
    rw [String.length_empty] at hlen
    omega

/-- The parent of a task that can be moved, as the code reads it. -/
theorem exists_parentOf (hs : Shape root fs) (hroot : root ≠ "") (hr : InTree Sub root id)
    (hne : id ≠ root) (h : content fs .claimed id = some data) :
    ∃ t, Sub id t ∧ InTree Sub root t ∧ parentOf data = some t := by
  obtain ⟨t, ht, hp⟩ := hs.parent id data hr hne .claimed (Or.inr rfl) h
  have hrt : InTree Sub root t := inTree_parent hr hne ht
  refine ⟨t, ht, hrt, ?_⟩
  rw [parentOf, hp, Option.filter_some, if_pos]
  exact decide_eq_true (inTree_ne_empty hroot hrt)

/-- The code's check of the parent, after the task was moved. -/
theorem completable_iff {fs₁ : Files} (hs : Shape root fs) (hrt : InTree Sub root t) (ht : Sub id t)
    (hthere : There fs id) (hm : Moved fs id .completed data fs₁) :
    Completable fs₁ t ↔ Finishes Sub (status root fs) id t := by
  have hti : t ≠ id := by
    rintro rfl
    exact naming.irrefl ht
  have hdec : content fs₁ .decomposed t = content fs .decomposed t := by
    rw [hm, if_neg hti]
  constructor
  · rintro ⟨d, hd, -, hall⟩
    rw [hdec] at hd
    have hsplit : status root fs t = some .split :=
      @status_of_file _ _ _ .decomposed hs hrt (by rw [hd]; rfl)
    refine ⟨ht, hsplit, fun u hu hne => ?_⟩
    have hmem : u ∈ getStrings d "subtasks" :=
      (hs.subtasks t d hrt hd u).mpr ⟨hu, ((status_ne_none hs).mp hne).2⟩
    by_cases hui : u = id
    · exact Or.inl hui
    · have hc := hall u hmem
      rw [hm, if_neg hui] at hc
      exact Or.inr (status_of_file hs (inTree_of_sub hrt hu) hc)
  · rintro ⟨-, hsplit, hall⟩
    obtain ⟨-, st, hst, hsp⟩ := (status_eq_some hs).mp hsplit
    obtain rfl : st = .decomposed := by
      cases st <;> first | rfl | cases hsp
    obtain ⟨d, hd⟩ := Option.isSome_iff_exists.mp hst
    have hlist := hs.subtasks t d hrt hd
    refine ⟨d, hdec.trans hd, fun hnil => ?_, fun c hc => ?_⟩
    · have hmem := (hlist id).mpr ⟨ht, hthere⟩
      rw [hnil] at hmem
      cases hmem
    · obtain ⟨hct, hcthere⟩ := (hlist c).mp hc
      rw [hm]
      by_cases hci : c = id
      · rw [if_pos hci, if_pos rfl]
        rfl
      · rw [if_neg hci]
        have hne : status root fs c ≠ none :=
          (status_ne_none hs).mpr ⟨inTree_of_sub hrt hct, hcthere⟩
        obtain ⟨-, st, hst, hdone⟩ := (status_eq_some hs).mp ((hall c hct hne).resolve_left hci)
        obtain rfl : st = .completed := by
          cases st <;> first | rfl | cases hdone
        exact hst

/-- Completing the root moves no other task of the tree. -/
theorem not_completable_of_root {fs₁ : Files} {p : String} (hs : Shape root fs)
    (hw : WF Sub root (status root fs)) (hactive : status root fs root = some .active)
    (hm : Moved fs root .completed data fs₁) (hready : Completable fs₁ p) : ¬ InTree Sub root p := by
  intro hr
  obtain ⟨d, hd, -⟩ := hready
  rw [hm] at hd
  rcases Relation.reflTransGen_iff_eq_or_transGen.mp hr with he | hb
  · rw [if_pos he.symm, if_neg (by decide)] at hd
    cases hd
  · rw [if_neg (naming.ne_of_below hb)] at hd
    have hp : status root fs p = some .split :=
      @status_of_file _ _ _ .decomposed hs hr (by rw [hd]; rfl)
    have hsplit := hw.split_of_below .refl hb (by rw [hp]; simp) (by rw [hp]; simp)
    rw [hactive] at hsplit
    cases hsplit

theorem step_complete {task : Doc} {fs₁ : Files} (hroot : root ≠ "") (hs : Shape root fs)
    (hw : WF Sub root (status root fs)) (hr : InTree Sub root id)
    (h : content fs .claimed id = some data)
    (hfs₁ : fs₁ = drop (put fs .completed id task) .claimed id)
    (hend : (∃ p data', parentOf data = some p ∧ Completable fs₁ p ∧
        fs' = drop (put fs₁ .completed p data') .decomposed p) ∨
      (∀ p, parentOf data = some p → ¬ Completable fs₁ p) ∧ fs' = fs₁) :
    Shape root fs' ∧ Step Sub (status root fs) (.finish id) (status root fs') := by
  have hsome : (content fs .claimed id).isSome := by
    rw [h]
    rfl
  have hactive : status root fs id = some .active := status_of_file hs hr hsome
  have hm : Moved fs id .completed task fs₁ := hfs₁ ▸ moved_drop_put hs hr hsome (by decide)
  have hs₁ : Shape root fs₁ := hs.moved ⟨_, hsome⟩ hm (by decide) fun _ hst => absurd rfl hst
  obtain ⟨hself, hold⟩ := status_moved hs hs₁ hr hm
  by_cases hid : id = root
  · subst hid
    have hsame : ∀ c, InTree Sub id c → ∀ st, content fs' st c = content fs₁ st c := by
      intro c hrc st
      rcases hend with ⟨p, data', -, hready, rfl⟩ | ⟨-, rfl⟩
      · have hcp : c ≠ p := by
          rintro rfl
          exact not_completable_of_root hs hw hactive hm hready hrc
        rw [content_drop, content_put]
        simp [hcp]
      · rfl
    have hs' : Shape id fs' := hs₁.congr hsame
    have hstatus : ∀ c, status id fs' c = status id fs₁ c := by
      intro c
      by_cases hrc : InTree Sub id c
      · exact status_congr hs₁ hs' fun st => by rw [hsame c hrc st]
      · rw [status_of_not fun hc => hrc hc.1, status_of_not fun hc => hrc hc.1]
    refine ⟨hs', .finish hactive ?_ (fun t ht => ?_) fun c hc _ => ?_⟩
    · rw [hstatus, hself]
      rfl
    · -- the parent of the root is not in the tree
      have hrt := ((status_eq_some hs).mp ht.2.1).1
      have hlen := ht.1.length
      rcases Relation.reflTransGen_iff_eq_or_transGen.mp hrt with he | hb
      · rw [he] at hlen
        omega
      · have := length_of_below hb
        omega
    · rw [hstatus, hold c hc]
  · obtain ⟨t, ht, hrt, hp⟩ := exists_parentOf hs hroot hr hid h
    have hready := completable_iff hs hrt ht ⟨_, hsome⟩ hm
    have hti : t ≠ id := by
      rintro rfl
      exact naming.irrefl ht
    rcases hend with ⟨p, data', hp', hrp, hfs'⟩ | ⟨hno, rfl⟩
    · obtain rfl : t = p := Option.some.inj (hp.symm.trans hp')
      have hfin : Finishes Sub (status root fs) id t := hready.mp hrp
      have hdec : (content fs₁ .decomposed t).isSome := by
        obtain ⟨d, hd, -⟩ := hrp
        rw [hd]
        rfl
      have hm' : Moved fs₁ t .completed data' fs' := hfs' ▸ moved_drop_put hs₁ hrt hdec (by decide)
      have hs' : Shape root fs' := hs₁.moved ⟨_, hdec⟩ hm' (by decide) fun _ hst => absurd rfl hst
      obtain ⟨hself', hold'⟩ := status_moved hs₁ hs' hrt hm'
      refine ⟨hs', .finish hactive ?_ (fun u hu => ?_) fun c hc hnf => ?_⟩
      · rw [hold' id hti.symm, hself]
        rfl
      · rw [← ht.parent hu.1, hself']
        rfl
      · have hct : c ≠ t := by
          rintro rfl
          exact hnf hfin
        rw [hold' c hct, hold c hc]
    · refine ⟨hs₁, .finish hactive (by rw [hself]; rfl) (fun u hu => ?_) fun c hc _ => hold c hc⟩
      obtain rfl : t = u := ht.parent hu.1
      exact absurd (hready.mpr hu) (hno t hp)

theorem step_decompose {parent : Doc} {fs₁ : Files} {ids : List String} (hs : Shape root fs)
    (hw : WF Sub root (status root fs)) (hr : InTree Sub root id)
    (h : content fs .pending id = some data) (hids : ∀ c ∈ ids, Sub c id)
    (hcreated : Created fs id ids fs₁) (hparent : getStrings parent "subtasks" = ids)
    (hfs' : fs' = drop (put fs₁ .decomposed id parent) .pending id) :
    Shape root fs' ∧ Step Sub (status root fs) (.split id {c | c ∈ ids}) (status root fs') := by
  have hsome : (content fs .pending id).isSome := by
    rw [h]
    rfl
  have hactive : status root fs id = some .active := status_of_file hs hr hsome
  have hnone : ∀ c, Sub c id → ¬ There fs c := by
    intro c hc hthere
    exact (status_ne_none hs).mpr ⟨inTree_of_sub hr hc, hthere⟩ (hw.none_of_active hr hactive hc)
  have hmem : id ∉ ids := fun hin => naming.irrefl (hids id hin)
  have hself : ∀ st, content fs' st id = if st = .decomposed then some parent else none := by
    intro st
    have h₁ := hcreated st id
    rw [if_neg fun hin => hmem hin.2] at h₁
    rw [hfs', content_drop, content_put, h₁]
    by_cases hst : st = .pending
    · simp [hst]
    · by_cases hst' : st = .decomposed
      · simp [hst']
      · have hno : content fs st id = none := by
          by_contra hsome'
          exact hst (hs.single id hr _ _ (Option.isSome_iff_ne_none.mpr hsome') hsome)
        simp [hst, hst', hno]
  have hother : ∀ c, c ≠ id → ∀ st, content fs' st c = content fs₁ st c := by
    intro c hc st
    rw [hfs', content_drop, content_put]
    simp [hc]
  have hnew : ∀ c ∈ ids, ∀ st, if st = .pending then
      ∃ d, content fs' st c = some d ∧ getStr d "parent_id" = some id
      else content fs' st c = none := by
    intro c hc st
    have h₁ := hcreated st c
    rw [hother c fun he => hmem (he ▸ hc)]
    by_cases hst : st = .pending
    · rw [if_pos ⟨hst, hc⟩] at h₁
      rw [if_pos hst]
      exact h₁
    · rw [if_neg fun hin => hst hin.1] at h₁
      rw [if_neg hst, h₁]
      by_contra hsome'
      exact hnone c (hids c hc) ⟨st, Option.isSome_iff_ne_none.mpr hsome'⟩
  have hold : ∀ c, c ≠ id → c ∉ ids → ∀ st, content fs' st c = content fs st c := by
    intro c hc hin st
    have h₁ := hcreated st c
    rw [if_neg fun hin' => hin hin'.2] at h₁
    rw [hother c hc, h₁]
  have hpending : ∀ c ∈ ids, (content fs' .pending c).isSome := by
    intro c hc
    obtain ⟨d, hd, -⟩ := hnew c hc .pending
    rw [hd]
    rfl
  have hs' : Shape root fs' := by
    refine ⟨fun c hrc st₁ st₂ h₁ h₂ => ?_, fun c d hrc hne st hst hd => ?_, fun t d hrt hd c => ?_⟩
    · by_cases hc : c = id
      · rw [hc, hself] at h₁ h₂
        by_cases h₁' : st₁ = .decomposed <;> by_cases h₂' : st₂ = .decomposed <;> simp_all
      · by_cases hin : c ∈ ids
        · have only : ∀ st, (content fs' st c).isSome → st = .pending := by
            intro st hst
            by_contra hne
            have hn := hnew c hin st
            rw [if_neg hne] at hn
            rw [hn] at hst
            cases hst
          rw [only st₁ h₁, only st₂ h₂]
        · rw [hold c hc hin] at h₁ h₂
          exact hs.single c hrc st₁ st₂ h₁ h₂
    · by_cases hc : c = id
      · rw [hc, hself, if_neg] at hd
        · cases hd
        · rcases hst with rfl | rfl <;> decide
      · by_cases hin : c ∈ ids
        · have hn := hnew c hin st
          split at hn
          · obtain ⟨d', hd', hp⟩ := hn
            cases hd.symm.trans hd'
            exact ⟨id, hids c hin, hp⟩
          · rw [hn] at hd
            cases hd
        · rw [hold c hc hin] at hd
          exact hs.parent c d hrc hne st hst hd
    · by_cases ht : t = id
      · subst ht
        rw [hself, if_pos rfl] at hd
        obtain rfl := Option.some.inj hd
        rw [hparent]
        refine ⟨fun hin => ⟨hids c hin, .pending, hpending c hin⟩, fun ⟨hsub, st, hst⟩ => ?_⟩
        by_contra hin
        rw [hold c (fun he => naming.irrefl (he ▸ hsub)) hin] at hst
        exact hnone c hsub ⟨st, hst⟩
      · by_cases hin : t ∈ ids
        · have hn := hnew t hin .decomposed
          rw [if_neg (by decide), hd] at hn
          cases hn
        · rw [hold t ht hin] at hd
          rw [hs.subtasks t d hrt hd c]
          refine and_congr_right fun hsub => ?_
          have hin' : c ∉ ids := fun hc => ht (hsub.parent (hids c hc))
          by_cases hc : c = id
          · rw [hc]
            refine ⟨fun _ => ⟨.decomposed, ?_⟩, fun _ => ⟨_, hsome⟩⟩
            rw [hself, if_pos rfl]
            rfl
          · unfold There
            simp only [hold c hc hin']
  refine ⟨hs', .split hactive hids ?_ (fun c hc => ?_) fun c hc hin => ?_⟩
  · refine @status_of_file _ _ _ .decomposed hs' hr ?_
    rw [hself, if_pos rfl]
    rfl
  · exact status_of_file hs' (inTree_of_sub hr (hids c hc)) (hpending c hc)
  · exact status_congr hs hs' fun st => by rw [hold c hc hin st]

/-! ## Calls one after the other -/

/-- A call on a task of the tree. -/
def Builds (root : String) : Op → Prop
  | .decompose id _ | .claim id | .complete id _ => InTree Sub root id
  | _ => False

/-- Calls on the tree, each of which returns before the next is made, with the state each starts from. -/
inductive Calls (root : String) : Tree → List (Tree × Op) → Tree → Prop
  | nil {s : Tree} : Calls root s [] s
  | cons {s s₁ s' : Tree} {n : Nat} {o : Op} {a : Ret o} {calls : List (Tree × Op)}
      (ho : Builds root o) (h : store.Runs n (prog o) s (.ok a) s₁) (hs : Calls root s₁ calls s') :
      Calls root s ((s, o) :: calls) s'

/-- A task is not decomposed into nothing, and when a task is completed, every task above it is its
parent or has another task below that is pending or claimed. -/
def Finishing (root : String) (s : Tree) : Op → Prop
  | .decompose _ subtasks => subtasks ≠ []
  | .complete id _ => ∀ t, InTree Sub root t → Below Sub id t →
      Sub id t ∨ ∃ c, c ≠ id ∧ Below Sub c t ∧ (s.File .pending c ∨ s.File .claimed c)
  | _ => True

/-- The step a call refines. -/
def label : Op → Label String
  | .decompose id subtasks => .split id {c | c ∈ subtaskIds id 0 subtasks.length}
  | .complete id _ => .finish id
  | _ => .stay

theorem mem_subtaskIds {i k : Nat} (h : c ∈ subtaskIds id i k) : Sub c id := by
  obtain ⟨j, -, rfl⟩ := List.mem_map.mp h
  exact sub_subtaskId id j

theorem inTree_of_at {o : Op} (ho : Builds root o) {k : String} (hk : (label o).At k) :
    InTree Sub root k := by
  cases o with
  | decompose id subtasks => exact (show k = id from hk) ▸ ho
  | complete id artifact => exact (show k = id from hk) ▸ ho
  | _ => exact hk.elim

/-- A call that returned refines a step. -/
theorem step_call {s s' : Tree} {n : Nat} {o : Op} {a : Ret o} (hroot : root ≠ "")
    (hs : Shape root s.files) (hw : WF Sub root (status root s.files)) (ho : Builds root o)
    (h : store.Runs n (prog o) s (.ok a) s') :
    Shape root s'.files ∧ Step Sub (status root s.files) (label o) (status root s'.files) := by
  cases o with
  | decompose id subtasks =>
    obtain ⟨data, parent, fs₁, hdata, hcreated, hparent, hfs'⟩ :=
      (@decomposeTask_from _ s.files _ _).runs trivial rfl h
    exact step_decompose hs hw ho hdata (fun c => mem_subtaskIds) hcreated hparent hfs'
  | claim id =>
    obtain ⟨data, data', hdata, hsame, hfs'⟩ := (@claimTask_from _ s.files _).runs trivial rfl h
    exact step_claim hs ho hdata hsame hfs'
  | complete id artifact =>
    obtain ⟨data, task, fs₁, hdata, -, hfs₁, hend⟩ :=
      (@completeTask_from _ s.files _ _).runs trivial rfl h
    exact step_complete hroot hs hw ho hdata hfs₁ hend
  | _ => exact ho.elim

theorem active_iff (hs : Shape root fs) : status root fs id = some .active ↔
    InTree Sub root id ∧ ((content fs .pending id).isSome ∨ (content fs .claimed id).isSome) := by
  rw [status_eq_some hs]
  refine and_congr_right fun _ => ⟨?_, ?_⟩
  · rintro ⟨st, hst, ha⟩
    cases st with
    | pending => exact Or.inl hst
    | claimed => exact Or.inr hst
    | completed => cases ha
    | decomposed => cases ha
  · rintro (hst | hst)
    · exact ⟨_, hst, rfl⟩
    · exact ⟨_, hst, rfl⟩

/-- The condition on a call is the condition on the step. -/
theorem finishing_iff {s : Tree} (hs : Shape root s.files) {o : Op} :
    Finishing root s o ↔ Data.Forest.Cond Sub root (status root s.files) (label o) := by
  cases o with
  | decompose id subtasks =>
    show subtasks ≠ [] ↔ Set.Nonempty _
    cases subtasks with
    | nil => simp [subtaskIds]
    | cons sub subtasks =>
      refine iff_of_true (List.cons_ne_nil _ _) ⟨subtaskId id 0, ?_⟩
      exact List.mem_map.mpr ⟨0, by simp, rfl⟩
  | complete id artifact =>
    refine forall_congr' fun t => forall_congr' fun hrt => forall_congr' fun hb => ?_
    refine or_congr_right (exists_congr fun c => and_congr_right fun _ => and_congr_right fun hc => ?_)
    rw [active_iff hs, and_iff_right (Data.Forest.inTree_of_below hrt hc), file_iff_content,
      file_iff_content]
  | _ => exact iff_of_true trivial trivial

/-- The calls refine a run of the forest. -/
theorem trace_of_calls (hroot : root ≠ "") {s s' : Tree} {calls : List (Tree × Op)}
    (h : Calls root s calls s') (hs : Shape root s.files)
    (hw : WF Sub root (status root s.files)) : Shape root s'.files ∧ ∃ steps,
      Data.Forest.Trace Sub (status root s.files) steps (status root s'.files) ∧
      @Data.Forest.Inside _ Sub root steps ∧
      ((∀ x ∈ calls, Finishing root x.1 x.2) ↔ ∀ x ∈ steps, Data.Forest.Cond Sub root x.1 x.2) := by
  induction h with
  | nil => exact ⟨hs, [], .nil, fun x hx => absurd hx List.not_mem_nil, by simp⟩
  | @cons s s₁ s' n o a calls ho hrun _ ih =>
    obtain ⟨hs₁, hstep⟩ := step_call hroot hs hw ho hrun
    have hl : ∀ k, (label o).At k → InTree Sub root k := fun k => inTree_of_at ho
    obtain ⟨hs', steps, htrace, hin, hiff⟩ := ih hs₁ (hw.step naming hl hstep)
    refine ⟨hs', (status root s.files, label o) :: steps, .cons hstep htrace, fun x hx => ?_, ?_⟩
    · rcases List.mem_cons.mp hx with rfl | hx
      · exact hl
      · exact hin x hx
    · rw [List.forall_mem_cons, List.forall_mem_cons, hiff]
      exact and_congr_left fun _ => finishing_iff hs

/-- The root is pending, and nothing else of its tree is there. -/
structure Fresh (root : String) (s : Tree) : Prop where
  named : root ≠ ""
  pending : s.File .pending root
  only : ∀ id st, InTree Sub root id → s.File st id → id = root ∧ st = .pending

theorem Fresh.shape {s : Tree} (h : Fresh root s) : Shape root s.files := by
  have hfile : ∀ id st, InTree Sub root id → (content s.files st id).isSome → id = root ∧ st = .pending :=
    fun id st hr hst => h.only id st hr (file_iff_content.mpr hst)
  refine ⟨fun id hr st st' hst hst' => ?_, fun id data hr hne st _ hd => ?_, fun t data hr hd => ?_⟩
  · exact (hfile id st hr hst).2.trans (hfile id st' hr hst').2.symm
  · exact absurd (hfile id st hr (by rw [hd]; rfl)).1 hne
  · exact absurd (hfile t .decomposed hr (by rw [hd]; rfl)).2 (by decide)

/-- Only the root has a status. -/
theorem Fresh.eq_root {s : Tree} (h : Fresh root s) (hne : status root s.files id ≠ none) :
    id = root ∧ status root s.files id = some .active := by
  obtain ⟨hr, st, hst⟩ := (status_ne_none h.shape).mp hne
  obtain ⟨hid, rfl⟩ := h.only id st hr (file_iff_content.mpr hst)
  exact ⟨hid, status_of_file h.shape hr hst⟩

theorem Fresh.wf {s : Tree} (h : Fresh root s) : WF Sub root (status root s.files) := by
  have hthere : status root s.files root = some .active :=
    status_of_file h.shape .refl (file_iff_content.mp h.pending)
  have hparent : ∀ c t, InTree Sub root t → Sub c t → status root s.files c = none := by
    intro c t hr hc
    by_contra hne
    obtain ⟨rfl, -⟩ := h.eq_root hne
    exact naming.acyclic c (Relation.TransGen.head' hc hr)
  refine ⟨by rw [hthere]; exact Option.some_ne_none _, fun c t hr hc hne => ?_,
    fun c t hr hc _ hne => ?_⟩
  · exact absurd (hparent c t hr hc) hne
  · exact absurd (hparent c t hr hc) hne

theorem Fresh.busy {s : Tree} (h : Fresh root s) :
    Data.Forest.Busy Sub root (status root s.files) := by
  intro t _ ht
  obtain ⟨-, hactive⟩ := @Fresh.eq_root _ t _ h (by rw [ht]; exact Option.some_ne_none _)
  cases ht.symm.trans hactive

/-- **When a decomposed task finishes.** After any calls one after the other on the tree of a task, when
none of its tasks is pending or claimed any more, the task is completed and nothing below it left
decomposed if and only if every call has met `Finishing`. -/
theorem tree_finishes_iff {s s' : Tree} {calls : List (Tree × Op)} (hs : Fresh root s)
    (h : Calls root s calls s')
    (hleaves : ∀ id, InTree Sub root id → ¬ s'.File .pending id ∧ ¬ s'.File .claimed id) :
    (s'.File .completed root ∧ ∀ id, InTree Sub root id → ¬ s'.File .decomposed id) ↔
      ∀ x ∈ calls, Finishing root x.1 x.2 := by
  obtain ⟨hs', steps, htrace, hin, hiff⟩ := trace_of_calls hs.named h hs.shape hs.wf
  have hactive : ∀ c, InTree Sub root c → status root s'.files c ≠ some .active := by
    intro c hr hc
    obtain ⟨-, hfile⟩ := (active_iff hs').mp hc
    rw [← file_iff_content, ← file_iff_content] at hfile
    exact hfile.elim (hleaves c hr).1 (hleaves c hr).2
  have hdone : status root s'.files root = some .done ↔ s'.File .completed root := by
    rw [status_eq_some hs', file_iff_content]
    refine ⟨fun ⟨_, st, hst, hd⟩ => ?_, fun hst => ⟨.refl, .completed, hst, rfl⟩⟩
    cases st with
    | completed => exact hst
    | _ => cases hd
  have hsplit : ∀ t, InTree Sub root t →
      (status root s'.files t = some .split ↔ s'.File .decomposed t) := by
    intro t hr
    rw [status_eq_some hs', file_iff_content]
    refine ⟨fun ⟨_, st, hst, hd⟩ => ?_, fun hst => ⟨hr, .decomposed, hst, rfl⟩⟩
    cases st with
    | decomposed => exact hst
    | _ => cases hd
  rw [hiff, ← Data.Forest.done_iff naming hs.wf hs.busy hin htrace hactive, hdone]
  refine and_congr_right fun _ => forall_congr' fun t => forall_congr' fun hr => ?_
  exact not_congr (hsplit t hr).symm

/-! ## A task that stays decomposed -/

/-- Make calls one after the other, from host `a`. -/
def makeCalls : Tree → List Op → Option (List (Tree × Op) × Tree)
  | s, [] => some ([], s)
  | s, o :: os =>
    match store.runWith 0 (prog o) (List.replicate 40 (host "a")) s with
    | some (.ok _, s₁) => (makeCalls s₁ os).map fun r => ((s, o) :: r.1, r.2)
    | _ => none

theorem calls_of_makeCalls : ∀ {os : List Op} {s : Tree} {r : List (Tree × Op) × Tree},
    (∀ o ∈ os, Builds root o) → makeCalls s os = some r → Calls root s r.1 r.2
  | [], s, r, _, h => by
    cases h
    exact .nil
  | o :: os, s, r, ho, h => by
    rw [makeCalls] at h
    split at h
    · rename_i a s₁ hrun
      obtain ⟨r', hr', rfl⟩ := Option.map_eq_some_iff.mp h
      exact .cons (ho o List.mem_cons_self) (store.runs_of_runWith 0 hrun)
        (calls_of_makeCalls (fun o ho' => ho o (List.mem_cons_of_mem _ ho')) hr')
    · cases h

theorem onePending_fresh : Fresh "task-001" onePending := by
  have hfile : ∀ st id, onePending.File st id ↔ st = .pending ∧ id = "task-001" := by
    intro st id
    by_cases hst : st = .pending
    · subst hst
      simp [onePending, Tree.File, Tree.ofFiles, Table.find?_put]
    · simp [onePending, Tree.File, Tree.ofFiles, hst]
  exact ⟨by decide, (hfile _ _).mpr ⟨rfl, rfl⟩, fun id st _ h =>
    ⟨((hfile st id).mp h).2, ((hfile st id).mp h).1⟩⟩

/-- The task, its subtask and the subtask of that. -/
def chain : List Op :=
  [.decompose "task-001" [{}], .decompose "task-001-a" [{}], .claim "task-001-a-a",
    .complete "task-001-a-a" ""]

theorem inTree_a : InTree Sub "task-001" "task-001-a" := .single ⟨'a', rfl⟩

theorem inTree_a_a : InTree Sub "task-001" "task-001-a-a" := .head ⟨'a', rfl⟩ inTree_a

theorem chain_builds : ∀ o ∈ chain, Builds "task-001" o := by
  intro o ho
  simp only [chain, List.mem_cons, List.not_mem_nil, or_false] at ho
  rcases ho with rfl | rfl | rfl | rfl
  · exact .refl
  · exact inTree_a
  · exact inTree_a_a
  · exact inTree_a_a

/-- No task is left pending or claimed. -/
def noneOpen (s : Tree) : Bool := (s.files .pending).rows.isEmpty && (s.files .claimed).rows.isEmpty

theorem not_file_of_noneOpen {s : Tree} (h : noneOpen s = true) (id : String) :
    ¬ s.File .pending id ∧ ¬ s.File .claimed id := by
  simp only [noneOpen, Bool.and_eq_true, List.isEmpty_iff] at h
  simp [Tree.File, Table.find?, h.1, h.2]

/-- The last subtask of the subtask is completed, which completes the subtask; the task stays
decomposed. -/
theorem grandparent_stays : ∃ (s s' : Tree) (calls : List (Tree × Op)), Fresh "task-001" s ∧
    Calls "task-001" s calls s' ∧
    (∀ id, InTree Sub "task-001" id → ¬ s'.File .pending id ∧ ¬ s'.File .claimed id) ∧
    ¬ s'.File .completed "task-001" ∧ s'.File .decomposed "task-001" := by
  have hplay : (makeCalls onePending chain).any (fun r => noneOpen r.2 &&
      decide (¬ r.2.File .completed "task-001" ∧ r.2.File .decomposed "task-001")) = true := by
    decide +kernel
  obtain ⟨r, hr, ht⟩ := (Option.any_eq_true _ _).mp hplay
  rw [Bool.and_eq_true] at ht
  exact ⟨onePending, r.2, r.1, onePending_fresh, calls_of_makeCalls chain_builds hr,
    fun id _ => not_file_of_noneOpen ht.1 id, of_decide_eq_true ht.2⟩

/-- The subtask's subtask is completed first, then the task's other subtask. -/
def inOrder : List Op :=
  [.decompose "task-001" [{}, {}], .decompose "task-001-a" [{}], .claim "task-001-a-a",
    .complete "task-001-a-a" "", .claim "task-001-b", .complete "task-001-b" ""]

theorem inOrder_builds : ∀ o ∈ inOrder, Builds "task-001" o := by
  have hb : InTree Sub "task-001" "task-001-b" := .single ⟨'b', rfl⟩
  intro o ho
  simp only [inOrder, List.mem_cons, List.not_mem_nil, or_false] at ho
  rcases ho with rfl | rfl | rfl | rfl | rfl | rfl
  · exact .refl
  · exact inTree_a
  · exact inTree_a_a
  · exact inTree_a_a
  · exact hb
  · exact hb

theorem inOrder_plays : (makeCalls onePending inOrder).isSome := by
  decide +kernel

/-- The tree after these calls. -/
def afterInOrder : List (Tree × Op) × Tree := (makeCalls onePending inOrder).get inOrder_plays

theorem afterInOrder_noneOpen : noneOpen afterInOrder.2 = true := by
  decide +kernel

theorem tree_finishes_iff_inOrder :
    (afterInOrder.2.File .completed "task-001" ∧
        ∀ id, InTree Sub "task-001" id → ¬ afterInOrder.2.File .decomposed id) ↔
      ∀ x ∈ afterInOrder.1, Finishing "task-001" x.1 x.2 :=
  tree_finishes_iff onePending_fresh
    (calls_of_makeCalls inOrder_builds (Option.some_get inOrder_plays).symm)
    fun id _ => not_file_of_noneOpen afterInOrder_noneOpen id

end ClaudeSwarm.SwarmLib
