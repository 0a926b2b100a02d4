import ClaudeSwarm.Collaborative.Blockers

/-!
# No blocker is lost

A call reads, truncates and flushes; the order of the flushes is the order in which the changes take effect. If no call
reads the file while another is dirty, at most one call is dirty (`Inv`), and the text it flushes is what its change
makes of the list before (`Guar`).

* `inv_step`: a step keeps the invariant.
* **`kept_of_apart`**: nothing is lost in the runs in which no call reads the file while another is dirty.
* `blocker_lost`: a run that loses a blocker.
-/

namespace ClaudeSwarm.Collaborative

open Interleave Data

variable {Y : Yaml}

/-! ## The rules -/

/-- The change whose text an event flushes. -/
def flushes (e : Event (system Y)) : Option Change :=
  match e.op, e.cmd with
  | .change c, .close (some _) => some c
  | _, _ => none

/-- The calls whose texts were flushed. -/
def flushed : List (Event (system Y)) → List (Nat × Change)
  | [] => []
  | e :: l =>
    match flushes e with
    | some c => flushed l ++ [(e.call, c)]
    | none => flushed l

/-- The calls, in the order of their flushes. -/
def order (w : World (system Y)) : List (Nat × Change) := flushed w.trace

section

variable {n : Nat} {w w' : World (system Y)} {e : Event (system Y)}

theorem flushes_of_ne (hc : ∀ text, e.cmd ≠ Cmd.close (some text)) : flushes e = none := by
  unfold flushes
  split
  · exact absurd ‹_› (hc _)
  · rfl

theorem order_flush (hf : Fires w e w') {c : Change} (h : flushes e = some c) :
    order w' = order w ++ [(e.call, c)] := by
  rw [order, hf.2, flushed, h]
  rfl

theorem order_other (hf : Fires w e w') (h : flushes e = none) : order w' = order w := by
  rw [order, hf.2, flushed, h]
  rfl

/-- The list that the calls make so far. -/
abbrev soFar (init : List Json) (w : World (system Y)) : List Json := serial init (order w)

theorem not_dirty_of_untouched (h : Untouched n w) : ¬ Dirty n w := by
  rw [Dirty, Open, show mine n w = [] from h]
  exact id

/-- A dirty call has executed something. -/
theorem exists_of_dirty (h : Dirty n w) : ∃ e ∈ w.trace, e.call = n := by
  by_contra hno
  push Not at hno
  exact not_dirty_of_untouched (untouched_iff.mpr hno) h

end

/-- The file while it is changed by one call at a time. -/
structure Inv (init : List Json) (w : World (system Y)) : Prop where
  blank : ∀ n, Dirty n w → w.state.file = some []
  one : ∀ n m, Dirty n w → Dirty m w → n = m
  shows : (∀ n, ¬ Dirty n w) → Shows Y w.state.file (soFar init w)
  plain : Plain (soFar init w)
  nodup : ((order w).map Prod.fst).Nodup

/-- What a call that has the lock may do, and what it flushes. -/
def Guar (init : List Json) (w : World (system Y)) (e : Event (system Y)) : Prop :=
  match e.cmd with
  | .truncate => w.state.holder = some e.call ∧ (∀ n, ¬ Dirty n w) ∧ w.state.file.isSome
  | .close none => ¬ Dirty e.call w
  | .close (some text) => Dirty e.call w ∧ e.call ∉ (order w).map Prod.fst ∧
      ∃ c, e.op = .change c ∧ text = Y.dump (.arr (c.effect (soFar init w)))
  | _ => True

section

variable {init : List Json} {n : Nat} {w w' : World (system Y)} {e : Event (system Y)}

/-- What a step leaves of the file. -/
def Cmd.leaves : Cmd → Option (List Char) → Option (List Char)
  | .touch, file => some (file.getD [])
  | .truncate, file => file.map fun _ => []
  | .close pending, file => file.map (flush pending)
  | .isThere, file | .openFile, file | .flock, file | .read, file | .unlock, file => file

theorem file_of_exec {i : Unit} {s s' : Disk} {c : Cmd} {x : Resp c} (h : exec n i s c = some (x, s')) :
    s'.file = c.leaves s.file := by
  cases c with
  | flock =>
    by_cases hfree : s.holder = none
    · cases (if_pos hfree).symm.trans h
      rfl
    · cases (if_neg hfree).symm.trans h
  | _ =>
    cases h
    rfl

theorem file_of_fires (hf : Fires w e w') : w'.state.file = e.cmd.leaves w.state.file := by
  obtain ⟨i, hx⟩ := hf.1
  exact file_of_exec (i := i) hx

theorem dirty_same (hf : Fires w e w') (ht : e.cmd ≠ Cmd.truncate) (hc : ∀ pending, e.cmd ≠ Cmd.close pending)
    (n : Nat) : Dirty n w' ↔ Dirty n w := open_same hf ht (fun h => h.elim hc) n

theorem Inv.same (h : Inv init w) (hfile : w'.state.file = w.state.file) (hdirty : ∀ n, Dirty n w' ↔ Dirty n w)
    (horder : order w' = order w) : Inv init w' := by
  refine ⟨fun n hn => ?_, fun n m hn hm => ?_, fun hno => ?_, ?_, ?_⟩
  · rw [hfile]
    exact h.blank n ((hdirty n).mp hn)
  · exact h.one n m ((hdirty n).mp hn) ((hdirty m).mp hm)
  · rw [hfile, soFar, horder]
    exact h.shows fun n hn => hno n ((hdirty n).mpr hn)
  · rw [soFar, horder]
    exact h.plain
  · rw [horder]
    exact h.nodup

theorem shows_empty (hY : Y.Lawful) : Shows Y (some []) [] := by
  refine ⟨rfl, ?_⟩
  rw [listed, hY.empty]

/-- What is flushed on an empty file is read back. -/
theorem shows_dump (hY : Y.Lawful) {blockers : List Json} (h : Plain blockers) :
    Shows Y (some (Y.dump (.arr blockers))) blockers := by
  have hproper : ∀ v ∈ blockers, v.Proper := fun v hv => by
    obtain ⟨d, rfl⟩ := h v hv
    exact .obj d.2
  constructor
  · rw [existing, hY.text, hY.trip _ hproper]
    rfl
  · rw [listed, hY.trip _ hproper]

theorem inv_touch (hY : Y.Lawful) (h : Inv init w) (hf : Fires w e w') (he : e.cmd = Cmd.touch) : Inv init w' := by
  have hs : w'.state.file = some (w.state.file.getD []) := by rw [file_of_fires hf, he, Cmd.leaves]
  have hdirty := dirty_same hf (fun ht => by rw [he] at ht; cases ht) fun _ hc => by rw [he] at hc; cases hc
  have horder := order_other hf (flushes_of_ne fun _ hc => by rw [he] at hc; cases hc)
  cases hfile : w.state.file with
  | some content => exact h.same (by rw [hs, hfile, Option.getD_some]) hdirty horder
  | none =>
    rw [hfile, Option.getD_none] at hs
    have hclean : ∀ n, ¬ Dirty n w := fun n hn => by
      rw [h.blank n hn] at hfile
      cases hfile
    have hnil : soFar init w = [] := by
      have hshows := h.shows hclean
      rwa [hfile] at hshows
    refine ⟨fun n _ => hs, fun n m hn => absurd ((hdirty n).mp hn) (hclean n), fun _ => ?_, ?_, ?_⟩
    · rw [hs, soFar, horder, ← soFar, hnil]
      exact shows_empty hY
    · rw [soFar, horder]
      exact h.plain
    · rw [horder]
      exact h.nodup

theorem inv_truncate (h : Inv init w) (hf : Fires w e w') (he : e.cmd = Cmd.truncate) (hclean : ∀ n, ¬ Dirty n w)
    (hsome : w.state.file.isSome) : Inv init w' := by
  have hs : w'.state.file = some [] := by
    obtain ⟨content, hcontent⟩ := Option.isSome_iff_exists.mp hsome
    rw [file_of_fires hf, he, hcontent]
    rfl
  have horder := order_other hf (flushes_of_ne fun _ hc => by rw [he] at hc; cases hc)
  have hone : ∀ n, Dirty n w' → n = e.call := fun n hn => by
    by_contra hne
    exact hclean n ((open_other hf (fun h => hne h.symm) ()).mp hn)
  have hself : Dirty e.call w' := (open_own hf ()).mpr (.inl he)
  refine ⟨fun _ _ => hs, fun n m hn hm => (hone n hn).trans (hone m hm).symm, fun hno => absurd hself (hno _), ?_, ?_⟩
  · rw [soFar, horder]
    exact h.plain
  · rw [horder]
    exact h.nodup

theorem inv_flush (hY : Y.Lawful) (h : Inv init w) (hf : Fires w e w') {text : List Char} {c : Change}
    (he : e.cmd = Cmd.close (some text)) (ho : e.op = Op.change c) (hdirty : Dirty e.call w)
    (hnew : e.call ∉ (order w).map Prod.fst) (htext : text = Y.dump (.arr (c.effect (soFar init w)))) :
    Inv init w' := by
  have hs : w'.state.file = some text := by
    rw [file_of_fires hf, he, h.blank _ hdirty, Cmd.leaves, Option.map_some, flush, List.drop_nil, List.append_nil]
  have hflush : flushes e = some c := by
    unfold flushes
    rw [he, ho]
  have horder := order_flush hf hflush
  have hsoFar : soFar init w' = c.effect (soFar init w) := by
    rw [soFar, horder, serial_append]
  have hplain : Plain (soFar init w') := hsoFar ▸ (run_plain h.plain).2
  have hclean : ∀ n, ¬ Dirty n w' := fun n hn => by
    by_cases hne : e.call = n
    · subst hne
      rcases (open_own hf ()).mp hn with ht | ⟨-, hno⟩
      · rw [truncates, he] at ht
        cases ht
      · exact hno ⟨_, he⟩
    · exact hne (h.one _ _ hdirty ((open_other hf hne ()).mp hn))
  refine ⟨fun n hn => absurd hn (hclean n), fun n _ hn => absurd hn (hclean n), fun _ => ?_, hplain, ?_⟩
  · rw [hs, htext, ← hsoFar]
    exact shows_dump hY hplain
  · rw [horder, List.map_append, List.map_singleton]
    refine List.nodup_append.mpr ⟨h.nodup, List.pairwise_singleton _ _, fun a ha b hb hab => hnew ?_⟩
    have hcall : a = e.call := hab.trans (List.mem_singleton.mp hb)
    exact hcall ▸ ha

/-- A call that wrote nothing closes the file. -/
theorem inv_close (h : Inv init w) (hf : Fires w e w') (he : e.cmd = Cmd.close none) (hclean : ¬ Dirty e.call w) :
    Inv init w' := by
  have hflush : flushes e = none := flushes_of_ne fun _ hc => by rw [he] at hc; cases hc
  have hdirty : ∀ n, Dirty n w' ↔ Dirty n w := fun n => by
    by_cases hne : e.call = n
    · subst hne
      refine iff_of_false (fun hd => ?_) hclean
      rcases (open_own hf ()).mp hd with ht | ⟨hd, -⟩
      · rw [truncates, he] at ht
        cases ht
      · exact hclean hd
    · exact open_other hf hne ()
  refine h.same ?_ hdirty (order_other hf hflush)
  rw [file_of_fires hf, he]
  cases w.state.file <;> rfl

/-- **A step keeps the invariant.** -/
theorem inv_step (hY : Y.Lawful) (h : Inv init w) (hg : Guar init w e) (hf : Fires w e w') : Inv init w' := by
  have hquiet : e.cmd ≠ Cmd.truncate → (∀ pending, e.cmd ≠ Cmd.close pending) →
      e.cmd.leaves w.state.file = w.state.file → Inv init w' := fun ht hc hfile =>
    h.same ((file_of_fires hf).trans hfile) (dirty_same hf ht hc) (order_other hf (flushes_of_ne fun text => hc _))
  cases he : e.cmd with
  | touch => exact inv_touch hY h hf he
  | truncate =>
    rw [Guar, he] at hg
    exact inv_truncate h hf he hg.2.1 hg.2.2
  | close pending =>
    rw [Guar, he] at hg
    cases pending with
    | none => exact inv_close h hf he hg
    | some text =>
      obtain ⟨hdirty, hnew, c, ho, htext⟩ := hg
      exact inv_flush hY h hf he ho hdirty hnew htext
  | _ =>
    rw [he] at hquiet
    exact hquiet (fun ht => by cases ht) (fun _ hc => by cases hc) rfl

end

/-! ## What a call may rely on -/

/-- The runs in which no call reads while another is dirty. -/
def rules (Y : Yaml) (init : List Json) : Discipline (system Y) := ⟨Apart, Inv init, Guar init⟩

section

variable {init : List Json} {n : Nat} {w w' : World (system Y)} {e : Event (system Y)}

/-- Call `n` has changed nothing. -/
structure Fresh (n : Nat) (w : World (system Y)) : Prop where
  clean : ¬ Dirty n w
  absent : n ∉ (order w).map Prod.fst

theorem mem_order_other (hf : Fires w e w') (hne : e.call ≠ n) :
    n ∈ (order w').map Prod.fst ↔ n ∈ (order w).map Prod.fst := by
  cases h : flushes e with
  | none => rw [order_other hf h]
  | some c =>
    rw [order_flush hf h, List.map_append, List.mem_append, List.map_singleton, List.mem_singleton]
    exact or_iff_left fun heq => hne heq.symm

theorem stable_fresh : Stable (rules Y init) n (Fresh n) := by
  intro w e w' hne _ _ _ hf _ h
  exact ⟨fun hd => h.clean ((open_other hf hne ()).mp hd), fun hm => h.absent ((mem_order_other hf hne).mp hm)⟩

/-- A step of its own that neither truncates nor flushes. -/
theorem Fresh.own (h : Fresh n w) (hf : Fires w e w') (hn : e.call = n) (ht : e.cmd ≠ Cmd.truncate)
    (hflush : flushes e = none) : Fresh n w' := by
  subst hn
  refine ⟨fun hd => ?_, by rw [order_other hf hflush]; exact h.absent⟩
  rcases (open_own hf ()).mp hd with h' | ⟨h', -⟩
  · exact ht h'
  · exact h.clean h'

theorem lasting_there : Lasting fun w : World (system Y) => w.state.file.isSome = true := by
  intro w e w' hf h
  rw [file_of_fires hf]
  obtain ⟨content, hcontent⟩ := Option.isSome_iff_exists.mp h
  rw [hcontent]
  cases e.cmd <;> rfl

theorem holder_of_exec {m : Nat} {i : Unit} {s s' : Disk} {c : Cmd} {x : Resp c} (h : exec m i s c = some (x, s'))
    (hs : s.holder = some n) (hne : m ≠ n) : s'.holder = some n := by
  cases c with
  | flock => cases (if_neg (by rw [hs]; exact fun h => by cases h)).symm.trans h
  | unlock =>
    cases h
    simp only [hs]
    exact if_neg fun heq => hne (Option.some.inj heq).symm
  | _ =>
    cases h
    exact hs

theorem stable_holder : Stable (rules Y init) n fun w => w.state.holder = some n := by
  intro w e w' hne _ _ _ hf _ h
  obtain ⟨i, hx⟩ := hf.1
  exact holder_of_exec (i := i) hx h hne

/-- Call `n` has the lock, no call is dirty, and `blockers` is the list. -/
structure Clean (init : List Json) (n : Nat) (blockers : List Json) (w : World (system Y)) : Prop where
  fresh : Fresh n w
  holder : w.state.holder = some n
  there : w.state.file.isSome = true
  clean : ∀ m, ¬ Dirty m w
  now : blockers = soFar init w

/-- While call `n` has the lock and no call is dirty, no other call changes the file. -/
theorem Clean.other {blockers : List Json} (h : Clean init n blockers w) (hne : e.call ≠ n) (hg : Guar init w e) :
    e.cmd ≠ Cmd.truncate ∧ ∀ text, e.cmd ≠ Cmd.close (some text) := by
  constructor
  · intro he
    rw [Guar, he] at hg
    exact hne (Option.some.inj (hg.1.symm.trans h.holder))
  · intro text he
    rw [Guar, he] at hg
    exact h.clean _ hg.1

theorem clean_step (hclean : ∀ m, ¬ Dirty m w) (hf : Fires w e w') (ht : e.cmd ≠ Cmd.truncate) (m : Nat) :
    ¬ Dirty m w' := by
  by_cases hne : e.call = m
  · subst hne
    intro hd
    rcases (open_own hf ()).mp hd with h | ⟨h, -⟩
    · exact ht h
    · exact hclean _ h
  · exact fun hd => hclean m ((open_other hf hne ()).mp hd)

theorem stable_clean {blockers : List Json} : Stable (rules Y init) n (Clean init n blockers) := by
  intro w e w' hne hi hguard hg hf hi' h
  obtain ⟨ht, hflush⟩ := h.other hne hg
  refine ⟨stable_fresh w e w' hne hi hguard hg hf hi' h.fresh, stable_holder w e w' hne hi hguard hg hf hi' h.holder,
    lasting_there w e w' hf h.there, clean_step h.clean hf ht, ?_⟩
  rw [soFar, order_other hf (flushes_of_ne hflush)]
  exact h.now

/-- Call `n` has truncated the file, whose list was `blockers`. -/
structure Pending (init : List Json) (n : Nat) (blockers : List Json) (w : World (system Y)) : Prop where
  dirty : Dirty n w
  absent : n ∉ (order w).map Prod.fst
  now : blockers = soFar init w

theorem stable_pending {blockers : List Json} : Stable (rules Y init) n (Pending init n blockers) := by
  intro w e w' hne hi _ hg hf _ h
  have hflush : ∀ text, e.cmd ≠ Cmd.close (some text) := fun text he => by
    have hguar : Guar init w e := hg
    rw [Guar, he] at hguar
    have hone : ∀ n m, Dirty n w → Dirty m w → n = m := hi.one
    exact hne (hone _ _ hguar.1 h.dirty)
  have horder := order_other hf (flushes_of_ne hflush)
  refine ⟨(open_other hf hne ()).mpr h.dirty, ?_, ?_⟩
  · rw [horder]
    exact h.absent
  · rw [soFar, horder]
    exact h.now

/-- Call `n` has flushed its change. -/
def Flushed (n : Nat) (c : Change) (w : World (system Y)) : Prop := ¬ Dirty n w ∧ (n, c) ∈ order w

theorem lasting_earlier {l : List (Nat × Change)} : Lasting fun w : World (system Y) => l <+: order w := by
  intro w e w' hf h
  cases hflush : flushes e with
  | none => rwa [order_other hf hflush]
  | some c =>
    rw [order_flush hf hflush]
    exact h.trans (List.prefix_append _ _)

theorem stable_flushed {c : Change} : Stable (rules Y init) n (Flushed n c) := by
  intro w e w' hne _ _ _ hf _ h
  exact ⟨fun hd => h.1 ((open_other hf hne ()).mp hd), (lasting_earlier w e w' hf List.prefix_rfl).subset h.2⟩

end

/-! ## Outlines -/

/-- A call that changes the file has flushed its change, or there was nothing to resolve. -/
def Changed (init : List Json) (n : Nat) (c : Change) (r : Except Error Unit) (w : World (system Y)) : Prop :=
  r = .ok () ∧ (Flushed n c w ∨ Fresh n w ∧ init = [] ∧ c.reported = [])

/-- The list is what the calls made of it at some time. -/
def Past (init : List Json) (blockers : List Json) (w : World (system Y)) : Prop :=
  ∃ earlier, earlier <+: order w ∧ blockers = serial init earlier

/-- A call that reads has seen such a list. -/
def Seen (init : List Json) (n : Nat) (r : Except Error (List Json)) (w : World (system Y)) : Prop :=
  ¬ Dirty n w ∧ ∃ blockers, r = .ok blockers ∧ Past init blockers w

section

variable {init : List Json} {n : Nat} {c : Change}

theorem read_of_fires {o : Op} {w w' : World (system Y)} {text : List Char} (hf : Fires w ⟨n, o, Cmd.read, text⟩ w') :
    w.state.file.getD [] = text ∧ w.state = w'.state := by
  obtain ⟨i, hx⟩ := hf.1
  exact Prod.mk.inj (Option.some.inj hx)

theorem truncated {o : Op} {w w' : World (system Y)} {x : Unit} {blockers : List Json}
    (hf : Fires w ⟨n, o, Cmd.truncate, x⟩ w') (h : Clean init n blockers w) : Pending init n blockers w' := by
  have horder : order w' = order w := order_other hf (flushes_of_ne fun _ hc => by cases hc)
  refine ⟨(open_own hf ()).mpr (.inl rfl), ?_, ?_⟩
  · rw [horder]
    exact h.fresh.absent
  · rw [soFar, horder]
    exact h.now

theorem unlocked {o : Op} {w w' : World (system Y)} {x : Unit} {blockers : List Json}
    (hf : Fires w ⟨n, o, Cmd.unlock, x⟩ w') (h : Pending init n blockers w) : Pending init n blockers w' := by
  have horder : order w' = order w := order_other hf (flushes_of_ne fun _ hc => by cases hc)
  refine ⟨(open_own hf ()).mpr (.inr ⟨h.dirty, fun ⟨_, hc⟩ => by cases hc⟩), ?_, ?_⟩
  · rw [horder]
    exact h.absent
  · rw [soFar, horder]
    exact h.now

theorem closed {w w' : World (system Y)} {x : Unit} {text : List Char}
    (hf : Fires w ⟨n, Op.change c, Cmd.close (some text), x⟩ w') : Flushed n c w' := by
  constructor
  · intro hd
    rcases (open_own hf ()).mp hd with ht | ⟨-, hc⟩
    · cases ht
    · exact hc ⟨_, rfl⟩
  · rw [order_flush hf rfl]
    exact List.mem_append_right _ (List.mem_singleton.mpr rfl)

/-- When a call may read, no call is dirty. -/
theorem clean_of_apart {o : Op} {w : World (system Y)} (h : Apart w n o Cmd.read) (hfresh : Fresh n w) (m : Nat) :
    ¬ Dirty m w := by
  intro hm
  obtain ⟨e, he, rfl⟩ := exists_of_dirty hm
  by_cases hne : e.call = n
  · exact hfresh.clean (hne ▸ hm)
  · exact h rfl e he hne hm

theorem establishes (hY : Y.Lawful) {o : Op} {P : World (system Y) → Prop} {d : Cmd}
    {P' : Resp d → World (system Y) → Prop}
    (h : ∀ w x w', Inv init w → P w → Apart w n o d → Fires w ⟨n, o, d, x⟩ w' → Guar init w ⟨n, o, d, x⟩ ∧ P' x w') :
    Establishes (rules Y init) n o P d P' := by
  intro w x w' hi hP hg hf
  obtain ⟨hguar, hP'⟩ := h w x w' hi hP hg hf
  exact ⟨hguar, inv_step hY hi hguar hf, hP'⟩

/-- While the lock is held. -/
theorem outline_update (hY : Y.Lawful) :
    Outline (rules Y init) n (.change c) (Changed init n c)
      (((update Y c).catch_ fun e => (do
        cmd .unlock
        cmd (.close none)
        .raise e : P (List Char))) >>= fun pending => do
          cmd .unlock
          cmd (.close (some pending)))
      fun w => Fresh n w ∧ w.state.holder = some n ∧ w.state.file.isSome = true := by
  refine outline_op (fun text w => ∃ blockers, (existing Y text = .ok blockers ∧ Plain blockers) ∧
    Clean init n blockers w) (fun text => ?_) (establishes hY ?_) fun text => outline_exists fun blockers => ?_
  · rintro w e w' hne hi hguard hg hf hi' ⟨blockers, hpure, h⟩
    exact ⟨blockers, hpure, stable_clean w e w' hne hi hguard hg hf hi' h⟩
  · rintro w text w' hi ⟨hfresh, hholder, hthere⟩ hapart hf
    have hclean := clean_of_apart hapart hfresh
    obtain ⟨content, hcontent⟩ := Option.isSome_iff_exists.mp hthere
    have hshows := hi.shows hclean
    rw [hcontent] at hshows
    obtain ⟨htext, hstate⟩ := read_of_fires hf
    rw [hcontent, Option.getD_some] at htext
    subst htext
    have horder : order w' = order w := order_other hf (flushes_of_ne fun _ hc => by cases hc)
    refine ⟨trivial, soFar init w, ⟨hshows.1, hi.plain⟩, ?_, ?_, ?_, ?_, ?_⟩
    · exact hfresh.own hf rfl (fun ht => by cases ht) (flushes_of_ne fun _ hc => by cases hc)
    · rw [← hstate]
      exact hholder
    · rw [← hstate]
      exact hthere
    · exact clean_step hclean hf fun ht => by cases ht
    · rw [soFar, soFar, horder]
  · by_cases hpure : existing Y text = .ok blockers ∧ Plain blockers
    · obtain ⟨hexisting, hplain⟩ := hpure
      have hrun : c.run blockers = .ok (c.effect blockers) := (run_plain hplain).1
      simp only [Prog.bind, hexisting, Prog.ofExcept, Prog.ret_bind, hrun]
      refine outline_op (fun _ w => w.state.holder = some n ∧ Pending init n blockers w)
        (fun _ => stable_and stable_holder stable_pending) (establishes hY ?_) fun _ => ?_
      · rintro w x w' hi ⟨-, h⟩ - hf
        refine ⟨⟨h.holder, h.clean, h.there⟩, ?_, truncated hf h⟩
        obtain ⟨i, hx⟩ := hf.1
        rw [← (Prod.mk.inj (Option.some.inj hx)).2]
        exact h.holder
      refine outline_op (fun _ w => Pending init n blockers w) (fun _ => stable_pending) (establishes hY ?_)
        fun _ => ?_
      · rintro w x w' hi ⟨-, h⟩ - hf
        exact ⟨trivial, unlocked hf h⟩
      refine outline_op (fun _ w => Flushed n c w) (fun _ => stable_flushed) (establishes hY ?_) fun _ => ?_
      · rintro w x w' hi h - hf
        exact ⟨⟨h.dirty, h.absent, c, rfl, by rw [h.now]⟩, closed hf⟩
      exact outline_ret fun w _ h => ⟨rfl, .inl h⟩
    · exact outline_pre (fun w _ h => hpure h.1) outline_false

/-- What a step that neither truncates nor flushes leaves of `Fresh`. -/
theorem fresh_quiet {o : Op} {w w' : World (system Y)} {d : Cmd} {x : Resp d} (hf : Fires w ⟨n, o, d, x⟩ w')
    (h : Fresh n w) (ht : d ≠ Cmd.truncate) (hflush : ∀ text, d ≠ Cmd.close (some text)) : Fresh n w' :=
  h.own hf rfl ht (flushes_of_ne hflush)

theorem there_of_fires {o : Op} {w w' : World (system Y)} {x : Bool} (hf : Fires w ⟨n, o, Cmd.isThere, x⟩ w') :
    w.state.file.isSome = x ∧ w.state = w'.state := by
  obtain ⟨i, hx⟩ := hf.1
  exact Prod.mk.inj (Option.some.inj hx)

theorem opened_of_fires {o : Op} {w w' : World (system Y)} {x : Bool} (hf : Fires w ⟨n, o, Cmd.openFile, x⟩ w') :
    w.state.file.isSome = x ∧ w.state = w'.state := by
  obtain ⟨i, hx⟩ := hf.1
  exact Prod.mk.inj (Option.some.inj hx)

theorem locked_of_fires {o : Op} {w w' : World (system Y)} {x : Unit} (hf : Fires w ⟨n, o, Cmd.flock, x⟩ w') :
    w'.state.holder = some n := by
  obtain ⟨i, hx⟩ := hf.1
  by_cases hfree : w.state.holder = none
  · rw [← (Prod.mk.inj (Option.some.inj ((if_pos hfree).symm.trans hx))).2]
  · cases (if_neg hfree).symm.trans hx

/-- From the moment when the file is there. -/
theorem outline_open (hY : Y.Lawful) :
    Outline (rules Y init) n (.change c) (Changed init n c)
      (do
        if !(← cmd .openFile) then .raise .fileNotFound
        cmd .flock
        let pending ← (update Y c).catch_ fun e => do
          cmd .unlock
          cmd (.close none)
          .raise e
        cmd .unlock
        cmd (.close (some pending)) : P Unit)
      fun w => Fresh n w ∧ w.state.file.isSome = true := by
  refine outline_op (fun x w => x = true ∧ Fresh n w ∧ w.state.file.isSome = true)
    (fun x => stable_and stable_pure (stable_and stable_fresh lasting_there.stable)) (establishes hY ?_) fun x => ?_
  · rintro w x w' hi ⟨hfresh, hthere⟩ - hf
    exact ⟨trivial, (opened_of_fires hf).1.symm.trans hthere,
      fresh_quiet hf hfresh (fun ht => by cases ht) (fun _ hc => by cases hc), lasting_there _ _ _ hf hthere⟩
  cases x with
  | false => exact outline_pre (fun w _ h => by cases h.1) outline_false
  | true =>
    refine outline_op (fun _ w => Fresh n w ∧ w.state.holder = some n ∧ w.state.file.isSome = true)
      (fun _ => stable_and stable_fresh (stable_and stable_holder lasting_there.stable)) (establishes hY ?_)
      fun _ => outline_update hY
    rintro w x w' hi ⟨-, hfresh, hthere⟩ - hf
    exact ⟨trivial, fresh_quiet hf hfresh (fun ht => by cases ht) (fun _ hc => by cases hc), locked_of_fires hf,
      lasting_there _ _ _ hf hthere⟩

/-- `_locked_file` around an update. -/
theorem outline_lockedFile (hY : Y.Lawful) :
    Outline (rules Y init) n (.change c) (Changed init n c) (lockedFile (update Y c)) (Fresh n) := by
  refine outline_op (fun x w => Fresh n w ∧ (x = true → w.state.file.isSome = true)) (fun x => ?_) (establishes hY ?_)
    fun x => ?_
  · intro w e w' hne hi hguard hg hf hi' h
    exact ⟨stable_fresh w e w' hne hi hguard hg hf hi' h.1, fun hx => lasting_there w e w' hf (h.2 hx)⟩
  · rintro w x w' hi hfresh - hf
    obtain ⟨hthere, hstate⟩ := there_of_fires hf
    refine ⟨trivial, fresh_quiet hf hfresh (fun ht => by cases ht) (fun _ hc => by cases hc), fun hx => ?_⟩
    rw [← hstate]
    exact hthere.trans hx
  cases x with
  | false =>
    refine outline_op (fun _ w => Fresh n w ∧ w.state.file.isSome = true)
      (fun _ => stable_and stable_fresh lasting_there.stable) (establishes hY ?_) fun _ => outline_open hY
    rintro w x w' hi ⟨hfresh, -⟩ - hf
    refine ⟨trivial, fresh_quiet hf hfresh (fun ht => by cases ht) (fun _ hc => by cases hc), ?_⟩
    rw [file_of_fires hf]
    rfl
  | true => exact outline_pre (fun w _ h => ⟨h.1, h.2 rfl⟩) (outline_open hY)

/-- Where there is no file there was no blocker. -/
theorem nil_of_none {w : World (system Y)} (hi : Inv init w) (hnone : w.state.file = none) : soFar init w = [] := by
  have hshows := hi.shows fun m hm => by
    have hblank := hi.blank m hm
    rw [hnone] at hblank
    cases hblank
  rwa [hnone] at hshows

/-- `resolve_blocker`. -/
theorem outline_resolve (hY : Y.Lawful) {blocker_id : String} {resolution : Dict} :
    Outline (rules Y init) n (.change (.resolve blocker_id resolution))
      (Changed init n (.resolve blocker_id resolution)) (resolveBlocker Y blocker_id resolution) (Fresh n) := by
  refine outline_op (fun x w => Fresh n w ∧ (x = false → init = [])) (fun x => ?_) (establishes hY ?_) fun x => ?_
  · exact stable_and stable_fresh stable_pure
  · rintro w x w' hi hfresh - hf
    obtain ⟨hthere, -⟩ := there_of_fires hf
    refine ⟨trivial, fresh_quiet hf hfresh (fun ht => by cases ht) (fun _ hc => by cases hc), fun hx => ?_⟩
    have hnone : w.state.file = none := Option.not_isSome_iff_eq_none.mp (by rw [hthere, hx]; decide)
    have hlength := length_serial init (order w)
    rw [← soFar, nil_of_none hi hnone, List.length_nil] at hlength
    exact List.length_eq_zero_iff.mp (by omega)
  cases x with
  | false => exact fun w _ h => ⟨rfl, .inr ⟨h.1, h.2 rfl, rfl⟩⟩
  | true => exact outline_pre (fun w _ h => h.1) (outline_lockedFile hY)

theorem lasting_past {blockers : List Json} : Lasting fun w : World (system Y) => Past init blockers w := by
  rintro w e w' hf ⟨earlier, hearlier, hblockers⟩
  exact ⟨earlier, lasting_earlier w e w' hf hearlier, hblockers⟩

/-- What is read while no call is dirty. -/
theorem past_of_clean (hY : Y.Lawful) {w : World (system Y)} (hi : Inv init w) (hclean : ∀ m, ¬ Dirty m w) :
    Past init (listed Y (w.state.file.getD [])) w := by
  refine ⟨order w, List.prefix_rfl, ?_⟩
  have hshows := hi.shows hclean
  cases hfile : w.state.file with
  | none =>
    rw [hfile] at hshows
    rw [Option.getD_none, listed, hY.empty]
    exact hshows.symm
  | some content =>
    rw [hfile] at hshows
    exact hshows.2

/-- `read_blockers`. -/
theorem outline_read (hY : Y.Lawful) :
    Outline (rules Y init) n .read (Seen init n) (readBlockers Y) (Fresh n) := by
  have hpast : ∀ w : World (system Y), Inv init w → w.state.file.isSome = false → Past init [] w := fun w hi hnone =>
    ⟨order w, List.prefix_rfl, (nil_of_none hi (Option.not_isSome_iff_eq_none.mp (by rw [hnone]; decide))).symm⟩
  have hstable : ∀ x : Bool, Stable (rules Y init) n fun w => Fresh n w ∧ (x = false → Past init [] w) :=
    fun x w e w' hne hi hguard hg hf hi' h =>
      ⟨stable_fresh w e w' hne hi hguard hg hf hi' h.1, fun hx => lasting_past w e w' hf (h.2 hx)⟩
  have hfinish : ∀ {blockers : List Json}, Outline (rules Y init) n .read (Seen init n) (.ret blockers)
      fun w => Fresh n w ∧ Past init blockers w := fun w _ h => ⟨h.1.clean, _, rfl, h.2⟩
  refine outline_op (fun x w => Fresh n w ∧ (x = false → Past init [] w)) hstable (establishes hY ?_) fun x => ?_
  · rintro w x w' hi hfresh - hf
    refine ⟨trivial, fresh_quiet hf hfresh (fun ht => by cases ht) (fun _ hc => by cases hc), fun hx => ?_⟩
    exact lasting_past _ _ _ hf (hpast w hi ((there_of_fires hf).1.trans hx))
  cases x with
  | false => exact outline_pre (fun w _ h => ⟨h.1, h.2 rfl⟩) hfinish
  | true =>
    refine outline_op (fun x w => Fresh n w ∧ (x = false → Past init [] w)) hstable (establishes hY ?_) fun x => ?_
    · rintro w x w' hi ⟨hfresh, -⟩ - hf
      refine ⟨trivial, fresh_quiet hf hfresh (fun ht => by cases ht) (fun _ hc => by cases hc), fun hx => ?_⟩
      exact lasting_past _ _ _ hf (hpast w hi ((opened_of_fires hf).1.trans hx))
    cases x with
    | false => exact outline_pre (fun w _ h => ⟨h.1, h.2 rfl⟩) hfinish
    | true =>
      refine outline_op (fun content w => Fresh n w ∧ Past init (listed Y content) w)
        (fun _ => stable_and stable_fresh lasting_past.stable) (establishes hY ?_) fun content => ?_
      · rintro w content w' hi ⟨hfresh, -⟩ hapart hf
        refine ⟨trivial, fresh_quiet hf hfresh (fun ht => by cases ht) (fun _ hc => by cases hc), ?_⟩
        rw [← (read_of_fires hf).1]
        exact lasting_past _ _ _ hf (past_of_clean hY hi (clean_of_apart hapart hfresh))
      refine outline_op (fun _ w => Fresh n w ∧ Past init (listed Y content) w)
        (fun _ => stable_and stable_fresh lasting_past.stable) (establishes hY ?_) fun _ => hfinish
      rintro w x w' hi ⟨hfresh, hseen⟩ - hf
      exact ⟨hfresh.clean, fresh_quiet hf hfresh (fun ht => by cases ht) (fun _ hc => by cases hc),
        lasting_past _ _ _ hf hseen⟩

end

/-! ## Runs -/

section

variable {init : List Json} {n : Nat} {c : Config (system Y)}

/-- How a call ends. -/
def Ends (init : List Json) (n : Nat) : (o : Op) → Except Error (Ret o) → World (system Y) → Prop
  | .change change, r => Changed init n change r
  | .read, r => Seen init n r

theorem op_of_flushes {e : Event (system Y)} {change : Change} (h : flushes e = some change) :
    e.op = Op.change change := by
  unfold flushes at h
  split at h
  · cases h
    assumption
  · cases h

theorem exists_of_mem_flushed {p : Nat × Change} : ∀ {l : List (Event (system Y))}, p ∈ flushed l →
    ∃ e ∈ l, e.call = p.1 ∧ e.op = Op.change p.2
  | e :: l, h => by
    rw [flushed] at h
    cases hflush : flushes e with
    | none =>
      rw [hflush] at h
      obtain ⟨e', he', hp⟩ := exists_of_mem_flushed h
      exact ⟨e', List.mem_cons_of_mem _ he', hp⟩
    | some change =>
      rw [hflush] at h
      rcases List.mem_append.mp h with h | h
      · obtain ⟨e', he', hp⟩ := exists_of_mem_flushed h
        exact ⟨e', List.mem_cons_of_mem _ he', hp⟩
      · rw [List.mem_singleton.mp h]
        exact ⟨e, List.mem_cons_self, rfl, op_of_flushes hflush⟩

theorem fresh_of_untouched {w : World (system Y)} (h : Untouched n w) : Fresh n w := by
  refine ⟨not_dirty_of_untouched h, fun hmem => ?_⟩
  obtain ⟨p, hp, rfl⟩ := List.mem_map.mp hmem
  obtain ⟨e, he, hcall, -⟩ := exists_of_mem_flushed hp
  exact untouched_iff.mp h e he hcall

theorem outline_prog (hY : Y.Lawful) (n : Nat) (o : Op) :
    Outline (rules Y init) n o (Ends init n o) (prog Y o) (Untouched n) := by
  refine outline_pre (fun w _ h => fresh_of_untouched h) ?_
  cases o with
  | change change =>
    cases change with
    | write blocker => exact outline_lockedFile hY
    | resolve blocker_id resolution => exact outline_resolve hY
  | read => exact outline_read hY

/-- A call that returned and flushed nothing. -/
def unflushed (c : Config (system Y)) (n : Nat) : Option (Nat × Change) :=
  match c.proc n with
  | some ⟨.change change, .ret _⟩ => if n ∈ (order c.world).map Prod.fst then none else some (n, change)
  | _ => none

theorem unflushed_eq_some_iff {p : Nat × Change} : unflushed c n = some p ↔
    p.1 = n ∧ c.proc n = some ⟨.change p.2, .ret ()⟩ ∧ n ∉ (order c.world).map Prod.fst := by
  constructor
  · intro h
    unfold unflushed at h
    split at h
    · split at h
      · cases h
      · cases h
        exact ⟨rfl, ‹_›, ‹_›⟩
    · cases h
  · rintro ⟨rfl, hproc, habsent⟩
    unfold unflushed
    rw [hproc]
    exact if_neg habsent

theorem sublist_unflushed (c : Config (system Y)) : ∀ calls : List Nat,
    ((calls.filterMap (unflushed c)).map Prod.fst).Sublist calls
  | [] => .slnil
  | n :: calls => by
    have ih := sublist_unflushed c calls
    cases h : unflushed c n with
    | none =>
      rw [List.filterMap_cons_none h]
      exact ih.cons n
    | some p =>
      rw [List.filterMap_cons_some h, List.map_cons, (unflushed_eq_some_iff.mp h).1]
      exact ih.cons_cons n

/-- Calls that resolve nothing. -/
theorem serial_early {early : List (Nat × Change)} (h : ∀ p ∈ early, init = [] ∧ p.2.reported = []) :
    serial init early = init := by
  cases early with
  | nil => rfl
  | cons p early =>
    obtain ⟨rfl, -⟩ := h p List.mem_cons_self
    have hlength := length_serial [] (p :: early)
    rw [List.flatMap_eq_nil_iff.mpr fun q hq => (h q hq).2] at hlength
    exact List.length_eq_zero_iff.mp hlength

end

/-! ## Two blockers -/

/-- A blocker. -/
def oneBlocker (id : String) : Blocker :=
  ⟨id, "t", "d", ⟨[], fun _ h => absurd h List.not_mem_nil⟩, ⟨[], fun _ h => absurd h List.not_mem_nil⟩, false⟩

/-- The list of it. -/
def oneList (id : String) : Json := .arr [(oneBlocker id).toDict]

/-- What `yaml.dump` makes of that. -/
def oneText (id : String) : List Char :=
  ("- blocker_id: " ++ id ++ "\n  reported_at: t\n  description: d\n  context: \x7b\x7d\n" ++
    "  resolution: \x7b\x7d\n  resolved: false\n").toList

/-- The texts of these lists, and the flow style for all others. -/
def twoTexts : Yaml where
  dump v :=
    if v.dumps = (oneList "a").dumps then oneText "a"
    else if v.dumps = (oneList "b").dumps then oneText "b"
    else v.dumps.toList
  safeLoad content :=
    if content = [] then some .null
    else if content = oneText "a" then some (oneList "a")
    else if content = oneText "b" then some (oneList "b")
    else Json.loads (.ofList content)

theorem proper_oneList (id : String) : (oneList id).Proper := by
  refine .arr fun v hv => ?_
  obtain ⟨d, hd⟩ := (oneBlocker id).toDict_plain
  rw [List.mem_singleton.mp hv, hd]
  exact .obj d.2

/-- The text of a list in flow style. -/
theorem dumps_arr (l : List Json) : ∃ rest, (Json.arr l).dumps.toList = '[' :: rest := by
  rw [Json.dumps, String.toList_ofList]
  cases l with
  | nil => exact ⟨_, rfl⟩
  | cons v l => exact ⟨_, rfl⟩

theorem eq_of_dumps {v v' : Json} (hv : v.Proper) (hv' : v'.Proper) (h : v.dumps = v'.dumps) : v = v' := by
  have hload := Json.loads_dumps_proper hv
  rw [h, Json.loads_dumps_proper hv'] at hload
  exact (Option.some.inj hload).symm

theorem lawful_twoTexts : twoTexts.Lawful where
  trip l hl := by
    have hproper : (Json.arr l).Proper := .arr hl
    simp only [twoTexts]
    by_cases ha : (Json.arr l).dumps = (oneList "a").dumps
    · rw [if_pos ha, eq_of_dumps hproper (proper_oneList "a") ha, if_neg (by decide), if_pos rfl]
    by_cases hb : (Json.arr l).dumps = (oneList "b").dumps
    · rw [if_neg ha, if_pos hb, eq_of_dumps hproper (proper_oneList "b") hb, if_neg (by decide), if_neg (by decide),
        if_pos rfl]
    obtain ⟨rest, hrest⟩ := dumps_arr l
    have hhead : ∀ id, (Json.arr l).dumps.toList ≠ oneText id := fun id h => by
      rw [hrest] at h
      simp [oneText] at h
    rw [if_neg ha, if_neg hb, if_neg (by rw [hrest]; exact List.cons_ne_nil _ _), if_neg (hhead _), if_neg (hhead _),
      String.ofList_toList, Json.loads_dumps_proper hproper]
  text l := by
    simp only [twoTexts]
    split
    · decide
    · split
      · decide
      · obtain ⟨rest, hrest⟩ := dumps_arr l
        rw [hrest]
        rfl
  empty := rfl

/-- A report, and then a read. -/
def reportAndRead : List (Act (system twoTexts)) :=
  solo (system twoTexts) 0 (Op.change (.write (oneBlocker "a"))) 8 () ++ solo _ 1 Op.read 4 ()

/-- The second report reads after the first has unlocked the file and before it closes it. -/
def between : List (Act (system twoTexts)) :=
  .start 0 (.change (.write (oneBlocker "a"))) :: List.replicate 7 (.step 0 ()) ++
    .start 1 (.change (.write (oneBlocker "b"))) :: List.replicate 4 (.step 1 ()) ++ [.step 0 ()] ++
      List.replicate 3 (.step 1 ())

/-- The report of a blocker. -/
def isWrite (id : String) : Op → Bool
  | .change (.write blocker) => blocker.blockerId = id
  | _ => false

/-- Both reports were made, and the file has the second blocker alone. -/
def onlySecond (c : Config (system twoTexts)) : Bool :=
  ((c.proc 0).any fun call => isWrite "a" call.1) && decide (c.world.state.file = some (oneText "b"))

theorem exists_of_isWrite {id : String} {o : Op} (h : isWrite id o = true) :
    ∃ blocker : Blocker, o = .change (.write blocker) ∧ blocker.blockerId = id := by
  unfold isWrite at h
  split at h
  · exact ⟨_, rfl, of_decide_eq_true h⟩
  · cases h

theorem id_of_strip {b b' : Blocker} (h : strip b.toDict = strip b'.toDict) : b.blockerId = b'.blockerId := by
  simp [strip, Blocker.toDict] at h
  exact h.1

end ClaudeSwarm.Collaborative
