import ClaudeSwarm.Interleave.Alone

/-!
# A store inside a larger one

A `Part` says how the commands of one store are commands of a larger one: each is answered there as in the
smaller store and acts on the part `get` of the state; what it may do to the rest is a relation of its own,
`Beside`. `Part.on` runs a program of the smaller store on the larger one.

* **`Part.safe_on`**: what is known of a program run alone on the smaller store holds of it on the larger one.
* `Part.runs_on`: so is every run of it.
-/

namespace ClaudeSwarm.Interleave

variable {S S' : Sig} {ε α : Type}

/-- The store `T` as a part of `T'`. -/
structure Part (T : Store S) (T' : Store S') where
  cmd : S.Cmd → S'.Cmd
  resp : ∀ c, S'.Resp (cmd c) → S.Resp c
  get : T'.State → T.State
  Beside : T'.State → T'.State → Prop
  refl : ∀ s, Beside s s
  trans : ∀ {s₁ s₂ s₃}, Beside s₁ s₂ → Beside s₂ s₃ → Beside s₁ s₃
  exec : ∀ {n i s c x s₁}, T'.exec n i s (cmd c) = some (x, s₁) →
    Beside s s₁ ∧ ∃ j, T.exec n j (get s) c = some (resp c x, get s₁)

namespace Part

variable {T : Store S} {T' : Store S'} (E : Part T T')

/-- A program of the part. -/
def on : Prog S ε α → Prog S' ε α
  | .ret a => .ret a
  | .raise e => .raise e
  | .op c k => .op (E.cmd c) fun x => on (k (E.resp c x))

variable {n : Nat} {I : T.State → Prop} {Q : Except ε α → T.State → Prop}

/-- **A program of the part, run alone.** -/
theorem safe_on : ∀ {p : Prog S ε α} {s₀ s : T'.State}, E.Beside s₀ s → T.Safe n I Q p (E.get s) →
    T'.Safe n (fun s' => I (E.get s') ∧ E.Beside s₀ s') (fun r s' => Q r (E.get s') ∧ E.Beside s₀ s') (E.on p) s
  | .ret _, _, _, hb, h => ⟨⟨h.1, hb⟩, h.2, hb⟩
  | .raise _, _, _, hb, h => ⟨⟨h.1, hb⟩, h.2, hb⟩
  | .op c k, s₀, s, hb, h => by
    refine ⟨⟨h.1, hb⟩, fun i x s₁ hx => ?_⟩
    obtain ⟨hb₁, j, hj⟩ := E.exec hx
    exact safe_on (p := k (E.resp c x)) (E.trans hb hb₁) (h.2 j _ _ hj)

/-- A run of a program of the part is a run of it on the part. -/
theorem runs_on : ∀ {p : Prog S ε α} {s s' : T'.State} {r : Except ε α}, T'.Runs n (E.on p) s r s' →
    E.Beside s s' ∧ T.Runs n p (E.get s) r (E.get s')
  | .ret _, s, s', r, h => by
    obtain ⟨rfl, rfl⟩ := h
    exact ⟨E.refl s', rfl, rfl⟩
  | .raise _, s, s', r, h => by
    obtain ⟨rfl, rfl⟩ := h
    exact ⟨E.refl s', rfl, rfl⟩
  | .op c k, s, s', r, ⟨i, x, s₁, hx, h⟩ => by
    obtain ⟨hb, j, hj⟩ := E.exec hx
    obtain ⟨hb', hruns⟩ := runs_on (p := k (E.resp c x)) h
    exact ⟨E.trans hb hb', j, _, _, hj, hruns⟩

/-- However it ends. -/
theorem ends_on {I' : T'.State → Prop} (hI : ∀ s s', I' s → E.Beside s s' → I' s') {A : T.State → Prop}
    {p : Prog S ε α} (h : T.Ends n (fun _ => True) A p Q) {s₀ : T'.State} (hI₀ : I' s₀) :
    T'.Ends n I' (fun s => A (E.get s) ∧ E.Beside s₀ s) (E.on p) fun r s => Q r (E.get s) ∧ E.Beside s₀ s :=
  fun s _ hs => Store.safe_mono_inv (fun s' hs' => hI s₀ s' hI₀ hs'.2) (E.safe_on hs.2 (h (E.get s) trivial hs.1))

/-- What its commands meet, a program of the part meets. -/
theorem each_on {ok : S.Cmd → Prop} {ok' : S'.Cmd → Prop} (hok : ∀ c, ok c → ok' (E.cmd c)) :
    ∀ {p : Prog S ε α}, p.Each ok → (E.on p).Each ok'
  | .ret _, _ => trivial
  | .raise _, _ => trivial
  | .op c k, h => ⟨hok c h.1, fun x => each_on hok (p := k (E.resp c x)) (h.2 _)⟩

end Part

end ClaudeSwarm.Interleave
