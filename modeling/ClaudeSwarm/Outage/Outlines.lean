import ClaudeSwarm.Outage.Tasks

/-!
# Outlines of the building blocks

Any command on the share may raise, so an outline of a command has an assertion for its answer and one
for the error (`outline_on`). An assertion that the commands of a kind keep (`Kept`) is carried through
the lock and the programs made of such commands.

* `withLock_outline`, `exceptOSError_outline`: the lock, and `try … except OSError`.
-/

namespace ClaudeSwarm.Outage

open Interleave
open Python (PyError)
open SwarmLib (Stage)

variable {D : Discipline system} {n : Nat} {o : Op} {α β : Type} {root : Root} {c : SwarmLib.Cmd}
  {A : World system → Prop} {Q : Except PyError α → World system → Prop} {ok : Cmd → Prop}

/-- A command on the share or on a host's tree, and what follows. -/
theorem on_bind (f : SwarmLib.Resp c → P α) :
    on root c >>= f = cmd (.on root c) >>= fun x : Option (SwarmLib.Resp c) =>
      x.elim (.raise .osError) f := by
  refine (Prog.bind_assoc (cmd (.on root c)) _ f).trans ?_
  refine congrArg (cmd (.on root c) >>= ·) (funext fun x => ?_)
  cases x <;> rfl

/-- A command that answers or raises. -/
theorem outline_on {f : SwarmLib.Resp c → P α} {P : World system → Prop}
    (P' : SwarmLib.Resp c → World system → Prop) (E : World system → Prop)
    (hs : ∀ x, Stable D n (P' x)) (hE : Stable D n E)
    (he : Establishes D n o P (.on root c) fun x => x.elim E P')
    (hraise : ∀ w, D.Inv w → E w → Q (.error .osError) w)
    (hf : ∀ x, Outline D n o Q (f x) (P' x)) : Outline D n o Q (on root c >>= f) P := by
  rw [on_bind]
  refine outline_cmd (M := system) (c := Cmd.on root c) (fun x => x.elim E P') (fun x => ?_) he
    fun x => ?_
  · cases x with
    | none => exact hE
    | some x => exact hs x
  · cases x with
    | none => exact outline_raise hraise
    | some x => exact hf x

/-- The commands of the call that meet `ok`, and all commands of other calls, keep `A`. -/
structure Kept (D : Discipline system) (ok : Cmd → Prop) (n : Nat) (o : Op)
    (A : World system → Prop) : Prop where
  stable : Stable D n A
  own : ∀ c, ok c → Establishes D n o A c fun _ => A

/-- What lasts may stand beside. -/
theorem Kept.and {L : World system → Prop} (hA : Kept D ok n o A) (hL : Lasting L) :
    Kept D ok n o fun w => A w ∧ L w where
  stable := stable_and hA.stable hL.stable
  own c hc w x w' hi hw hg hf := by
    obtain ⟨hr, hi', hA'⟩ := hA.own c hc w x w' hi hw.1 hg hf
    exact ⟨hr, hi', hA', hL _ _ _ hf hw.2⟩

/-- A command that is not executed on the share, and what follows. -/
theorem kept_cmd {c : Cmd} {f : Resp c → P α} (hA : Kept D ok n o A) (hc : ok c)
    (hf : ∀ x, Outline D n o Q (f x) A) : Outline D n o Q (cmd c >>= f) A :=
  outline_cmd (fun _ => A) (fun _ => hA.stable) (hA.own c hc) hf

/-- A command that is kept through, and what follows. -/
theorem kept_on {f : SwarmLib.Resp c → P α} (hA : Kept D ok n o A) (hc : ok (.on root c))
    (hraise : ∀ w, D.Inv w → A w → Q (.error .osError) w)
    (hf : ∀ x, Outline D n o Q (f x) A) : Outline D n o Q (on root c >>= f) A := by
  refine outline_on (fun _ => A) A (fun _ => hA.stable) hA.stable (fun w x w' hi hw hg hfire => ?_)
    hraise hf
  obtain ⟨hr, hi', hA'⟩ := hA.own _ hc w x w' hi hw hg hfire
  refine ⟨hr, hi', ?_⟩
  cases x <;> exact hA'

/-- A command that changes nothing does not raise. -/
theorem kept_look {f : SwarmLib.Resp c → P α} (hA : Kept D ok n o A) (hc : ok (.on root c))
    (hlook : changes c = false) (hf : ∀ x, Outline D n o Q (f x) A) :
    Outline D n o Q (on root c >>= f) A := by
  refine outline_on (fun _ => A) (fun _ => False) (fun _ => hA.stable) stable_pure
    (fun w x w' hi hw hg hfire => ?_) (fun _ _ h => h.elim) hf
  obtain ⟨hr, hi', hA'⟩ := hA.own _ hc w x w' hi hw hg hfire
  refine ⟨hr, hi', ?_⟩
  cases x with
  | some x => exact hA'
  | none =>
    obtain ⟨⟨i, hx⟩, -⟩ := hfire
    exact Bool.false_ne_true (hlook.symm.trans (changes_of_raised hx).1.2.2.1)

theorem each_on (hc : ok (.on root c)) : (on root c).Each ok := by
  refine ⟨hc, fun x => ?_⟩
  cases x <;> trivial

theorem each_on_bind {f : SwarmLib.Resp c → P α} (hc : ok (.on root c)) (hf : ∀ x, (f x).Each ok) :
    (on root c >>= f).Each ok :=
  Prog.each_bind hf (each_on hc)

theorem each_exceptOSError {p : P α} {f : PyError → P α} (hp : p.Each ok) (hf : ∀ e, (f e).Each ok) :
    (exceptOSError p f).Each ok := by
  refine Prog.each_catch (fun e => ?_) hp
  split
  · exact hf e
  · trivial

/-- A program of commands that are kept through. -/
theorem kept_each {p : P α} (hA : Kept D ok n o A) (hp : p.Each ok) :
    Outline D n o (fun _ => A) p A :=
  outline_of_each hA.stable hA.own hp

/-- A program of commands that are kept through, and what follows. -/
theorem kept_bind {p : P β} {f : β → P α} (hA : Kept D ok n o A) (hp : p.Each ok)
    (hraise : ∀ e w, A w → Q (.error e) w) (hf : ∀ a, Outline D n o Q (f a) A) :
    Outline D n o Q (p >>= f) A :=
  outline_bind (R := fun _ => A) hf (outline_mono (fun _ _ h => h)
    (fun r w _ h => by cases r with | ok _ => exact h | error e => exact hraise e w h)
    (kept_each hA hp))

/-- The commands of the lock. -/
def Locking : SwarmLib.Cmd → Prop
  | .touch .. | .openLock .. | .flock | .unlock | .close => True
  | _ => False

/-- What runs under a lock ends as it would without; when the lock file cannot be opened it does not
run. -/
theorem withLock_outline {st : Stage} {id : String} {body : P α}
    (hok : ∀ c, Locking c → ok (.on .share c)) (hA : Kept D ok n o A) (hQ : ∀ r, Kept D ok n o (Q r))
    (hraise : ∀ w, D.Inv w → A w → Q (.error .osError) w) (h : Outline D n o Q body A) :
    Outline D n o Q (withLock st id body) A := by
  refine kept_on hA (hok (.touch st id) trivial) hraise fun _ =>
    kept_on hA (hok (.openLock st id) trivial) hraise fun _ => ?_
  have hlast : ∀ c r, Locking c → changes c = false →
      Outline D n o (Outcome (fun _ => Q r) fun e => Q (.error e)) (on .share c) (Q r) := by
    intro c r hc hlook
    rw [← Prog.bind_ret (on .share c)]
    exact kept_look (hQ r) (hok c hc) hlook fun _ => outline_ret fun _ _ h => h
  refine outline_finally (R := Q) (fun r => ?_)
    (kept_look hA (hok .flock trivial) rfl fun _ => outline_finally (R := Q) (fun r => ?_) h)
  · exact hlast .close r trivial rfl
  · exact hlast .unlock r trivial rfl

theorem each_withLock {st : Stage} {id : String} {body : P α}
    (hok : ∀ c, Locking c → ok (.on .share c)) (h : body.Each ok) :
    (withLock st id body).Each ok :=
  each_on_bind (hok (.touch st id) trivial) fun _ => each_on_bind (hok (.openLock st id) trivial)
    fun _ => Prog.each_finally (each_on (hok .close trivial))
      (each_on_bind (hok .flock trivial) fun _ => Prog.each_finally (each_on (hok .unlock trivial)) h)

theorem each_allCompleted (hok : ∀ id, ok (.on .share (.pathExists .completed id))) :
    ∀ sub_ids, (allCompleted sub_ids).Each ok
  | [] => trivial
  | sub_id :: sub_ids => by
    refine each_on_bind (c := .pathExists .completed sub_id) (hok sub_id) fun found => ?_
    cases found with
    | true => exact each_allCompleted hok sub_ids
    | false => trivial

/-- `try … except OSError`: the handler starts from what the error leaves. -/
theorem exceptOSError_outline {p : P α} {f : PyError → P α} {P : World system → Prop}
    {E : PyError → World system → Prop}
    (hp : Outline D n o (Outcome (fun a => Q (.ok a)) E) p P)
    (hf : ∀ e, Outline D n o Q (f e) (E e))
    (hother : ∀ e w, D.Inv w → E e w → Q (.error e) w) :
    Outline D n o Q (exceptOSError p f) P := by
  refine outline_catch (E := E) (fun e => ?_) hp
  split
  · exact hf e
  · exact outline_raise (hother e)

end ClaudeSwarm.Outage
