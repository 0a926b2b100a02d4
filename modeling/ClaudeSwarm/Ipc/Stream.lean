import ClaudeSwarm.Data.Json

/-!
# Streaming RPC

Model of `respond_stream` and `request_stream` of `src/ipc/rpc.py`, over the response list of one request, from the
moment when `RPC_REQUEST_ATOMIC` has left it empty. A schedule says whose turn it is: the responder pushes its next
envelope, the requester takes one off the list, for which it waits as long as it takes. An envelope is kept as it is;
its id and its time, which are new for each, are left out.

`list_push` is LPUSH and `list_wait` is BLPOP: both work at the same end.

* `yields_in_turn`: what the requester got, then what is on the list, then what is to be pushed, if the list was empty
  at every push.
* `overtaken_play`: an envelope that was pushed on another one stays ahead of it.
* **`delivered_iff`**: a finished schedule delivers the chunks exactly if the list was empty at every push.
* `reversed`: a requester that comes late.
-/

namespace ClaudeSwarm.Ipc

open Data

/-! ## The code -/

/-- `Envelope`, of the type `rpc_stream`. -/
structure Envelope where
  sender : String
  recipient : String
  payload : List (String × Json)
  correlation_id : String
  sequence : Nat
  final : Bool

/-- What `respond_stream` pushes after `seq` chunks. -/
def responses (sender : String) (request_env : Envelope) (seq : Nat) : List (List (String × Json)) → List Envelope
  | [] => [⟨sender, request_env.sender, [], request_env.correlation_id, seq + 1, true⟩]
  | chunk :: chunks =>
    ⟨sender, request_env.sender, chunk, request_env.correlation_id, seq + 1, false⟩ ::
      responses sender request_env (seq + 1) chunks

/-- `list_push`. -/
def listPush (list : List Envelope) (value : Envelope) : List Envelope := value :: list

/-- `list_wait`, on a list that is not empty. -/
def listWait : List Envelope → Option (Envelope × List Envelope)
  | [] => none
  | value :: list => some (value, list)

/-- The response list, what `respond_stream` still has to push, and what `request_stream` has yielded. -/
structure Stream where
  pending : List Envelope
  list : List Envelope
  yielded : List Envelope
  stopped : Bool

/-- Whose turn it is. -/
inductive Party where
  | respond | request

namespace Stream

/-- `respond_stream` pushes an envelope. -/
def respond (s : Stream) : Option Stream :=
  match s.pending with
  | [] => none
  | resp_env :: pending => some { s with pending := pending, list := listPush s.list resp_env }

/-- `request_stream` yields an envelope, and returns after the final one. -/
def request (s : Stream) : Option Stream :=
  if s.stopped then none
  else (listWait s.list).map fun (chunk_env, list) =>
    { s with list := list, yielded := s.yielded ++ [chunk_env], stopped := chunk_env.final }

def step (s : Stream) : Party → Option Stream
  | .respond => s.respond
  | .request => s.request

/-- The turns of a schedule. -/
def play (s : Stream) : List Party → Option Stream
  | [] => some s
  | p :: schedule => (s.step p).bind fun s' => s'.play schedule

/-- A request that is answered with these envelopes. -/
def start (sent : List Envelope) : Stream := ⟨sent, [], [], false⟩

/-! ## What should hold -/

/-- Nobody has a turn. -/
def Finished (s : Stream) : Prop := ∀ p, s.step p = none

/-- **The chunks are delivered**, in their order and with the final marker, and the requester has stopped. -/
def Delivered (sent : List Envelope) (s : Stream) : Prop := s.yielded = sent ∧ s.stopped = true

/-- The list is empty at every push. -/
def Abreast (s : Stream) : List Party → Prop
  | [] => True
  | p :: schedule => (p = .respond → s.list = []) ∧ ∀ s', s.step p = some s' → s'.Abreast schedule

/-! ## Turns -/

variable {s s' : Stream} {sent : List Envelope}

theorem respond_cases (h : s.step .respond = some s') :
    ∃ e pending, s.pending = e :: pending ∧ s' = ⟨pending, e :: s.list, s.yielded, s.stopped⟩ := by
  have hrespond : s.respond = some s' := h
  unfold respond at hrespond
  split at hrespond
  · cases hrespond
  · cases hrespond
    exact ⟨_, _, ‹_›, rfl⟩

theorem request_cases (h : s.step .request = some s') :
    s.stopped = false ∧ ∃ e list, s.list = e :: list ∧ s' = ⟨s.pending, list, s.yielded ++ [e], e.final⟩ := by
  have hrequest : s.request = some s' := h
  unfold request at hrequest
  split at hrequest
  · cases hrequest
  · refine ⟨Bool.eq_false_iff.mpr ‹_›, ?_⟩
    obtain ⟨⟨e, list⟩, hwait, rfl⟩ := Option.map_eq_some_iff.mp hrequest
    unfold listWait at hwait
    split at hwait
    · cases hwait
    · cases hwait
      exact ⟨e, list, ‹_›, rfl⟩

theorem finished_iff : s.Finished ↔ s.pending = [] ∧ (s.stopped = true ∨ s.list = []) := by
  constructor
  · intro h
    refine ⟨?_, ?_⟩
    · have hrespond : s.respond = none := h .respond
      unfold respond at hrespond
      split at hrespond
      · assumption
      · cases hrespond
    · have hrequest : s.request = none := h .request
      unfold request at hrequest
      split at hrequest
      · exact .inl ‹_›
      · right
        have hwait := Option.map_eq_none_iff.mp hrequest
        unfold listWait at hwait
        split at hwait
        · assumption
        · cases hwait
  · rintro ⟨hpending, hend⟩ p
    cases p with
    | respond => simp [step, respond, hpending]
    | request =>
      rcases hend with hstopped | hlist
      · simp [step, request, hstopped]
      · simp [step, request, hlist, listWait]

/-! ## Abreast -/

/-- What was sent, in the order in which it was and will be. -/
structure InTurn (sent : List Envelope) (s : Stream) : Prop where
  order : s.yielded ++ s.list ++ s.pending = sent
  one : s.list.length ≤ 1
  stopped : s.stopped = s.yielded.any Envelope.final

theorem yields_in_turn : ∀ {schedule : List Party} {s : Stream}, InTurn sent s → s.Abreast schedule →
    s.play schedule = some s' → InTurn sent s'
  | [], s, h, _, hplay => by
    cases hplay
    exact h
  | p :: schedule, s, h, habreast, hplay => by
    obtain ⟨next, hstep, hnext⟩ := Option.bind_eq_some_iff.mp hplay
    refine yields_in_turn ?_ (habreast.2 next hstep) hnext
    cases p with
    | respond =>
      obtain ⟨e, pending, hpending, rfl⟩ := respond_cases hstep
      have hlist := habreast.1 rfl
      refine ⟨?_, ?_, h.stopped⟩
      · rw [← h.order, hpending, hlist]
        simp
      · rw [hlist]
        exact Nat.le_refl 1
    | request =>
      obtain ⟨hgoing, e, list, hlist, rfl⟩ := request_cases hstep
      have hone := h.one
      rw [hlist, List.length_cons] at hone
      refine ⟨?_, Nat.le_of_succ_le hone, ?_⟩
      · rw [← h.order, hlist]
        simp
      · rw [List.any_append, ← h.stopped, hgoing]
        simp

/-! ## Ahead -/

/-- An envelope is ahead of one that was pushed before it. -/
def Overtaken (s : Stream) : Prop := ∃ x y : Envelope, x.sequence < y.sequence ∧ [y, x].Sublist (s.yielded ++ s.list)

/-- What was sent, some of it pushed. -/
structure Pushed (sent : List Envelope) (s : Stream) : Prop where
  split : ∃ pushed, pushed ++ s.pending = sent ∧ (s.yielded ++ s.list).Perm pushed

theorem overtaken_step {p : Party} (h : s.Overtaken) (hstep : s.step p = some s') : s'.Overtaken := by
  obtain ⟨x, y, hlt, hsub⟩ := h
  refine ⟨x, y, hlt, ?_⟩
  cases p with
  | respond =>
    obtain ⟨e, pending, -, rfl⟩ := respond_cases hstep
    exact hsub.trans (List.Sublist.append_left (List.sublist_cons_self e s.list) s.yielded)
  | request =>
    obtain ⟨-, e, list, hlist, rfl⟩ := request_cases hstep
    rw [hlist] at hsub
    simpa using hsub

theorem overtaken_play : ∀ {schedule : List Party} {s : Stream}, s.Overtaken → s.play schedule = some s' → s'.Overtaken
  | [], s, h, hplay => by
    cases hplay
    exact h
  | p :: schedule, s, h, hplay => by
    obtain ⟨next, hstep, hnext⟩ := Option.bind_eq_some_iff.mp hplay
    exact overtaken_play (overtaken_step h hstep) hnext

theorem pushed_step {p : Party} (h : Pushed sent s) (hstep : s.step p = some s') : Pushed sent s' := by
  obtain ⟨pushed, hsent, hperm⟩ := h.split
  cases p with
  | respond =>
    obtain ⟨e, pending, hpending, rfl⟩ := respond_cases hstep
    refine ⟨pushed ++ [e], ?_, ?_⟩
    · rw [← hsent, hpending]
      simp
    · have hmiddle : (s.yielded ++ e :: s.list).Perm (e :: (s.yielded ++ s.list)) := List.perm_middle
      exact hmiddle.trans ((hperm.cons e).trans (List.perm_append_singleton e pushed).symm)
  | request =>
    obtain ⟨-, e, list, hlist, rfl⟩ := request_cases hstep
    refine ⟨pushed, hsent, ?_⟩
    rw [hlist] at hperm
    simpa using hperm

theorem pushed_play : ∀ {schedule : List Party} {s : Stream}, Pushed sent s → s.play schedule = some s' →
    Pushed sent s'
  | [], s, h, hplay => by
    cases hplay
    exact h
  | p :: schedule, s, h, hplay => by
    obtain ⟨next, hstep, hnext⟩ := Option.bind_eq_some_iff.mp hplay
    exact pushed_play (pushed_step h hstep) hnext

/-- A push on a list that is not empty. -/
theorem overtaken_of_push (hsorted : sent.Pairwise fun x y => x.sequence < y.sequence) (h : Pushed sent s)
    (hstep : s.step .respond = some s') (hlist : s.list ≠ []) : s'.Overtaken := by
  obtain ⟨pushed, hsent, hperm⟩ := h.split
  obtain ⟨e, pending, hpending, rfl⟩ := respond_cases hstep
  obtain ⟨x, list, hx⟩ := List.exists_cons_of_ne_nil hlist
  have hmem : x ∈ pushed := hperm.mem_iff.mp (List.mem_append_right _ (hx ▸ List.mem_cons_self))
  rw [← hsent, hpending] at hsorted
  refine ⟨x, e, (List.pairwise_append.mp hsorted).2.2 x hmem e List.mem_cons_self, ?_⟩
  rw [hx]
  exact List.Sublist.trans (by simp) (List.sublist_append_right s.yielded _)

theorem overtaken_of_not_abreast (hsorted : sent.Pairwise fun x y => x.sequence < y.sequence) :
    ∀ {schedule : List Party} {s : Stream}, Pushed sent s → ¬ s.Abreast schedule → s.play schedule = some s' →
      s'.Overtaken
  | [], s, _, hno, _ => absurd trivial hno
  | p :: schedule, s, h, hno, hplay => by
    obtain ⟨next, hstep, hnext⟩ := Option.bind_eq_some_iff.mp hplay
    by_cases hempty : p = .respond → s.list = []
    · refine overtaken_of_not_abreast hsorted (pushed_step h hstep) (fun habreast => hno ⟨hempty, fun s' hs' => ?_⟩)
        hnext
      rw [hstep] at hs'
      cases hs'
      exact habreast
    · obtain ⟨rfl, hlist⟩ := Classical.not_imp.mp hempty
      exact overtaken_play (overtaken_of_push hsorted h hstep hlist) hnext

/-- What is delivered was not overtaken. -/
theorem not_overtaken (hsorted : sent.Pairwise fun x y => x.sequence < y.sequence) (h : Pushed sent s)
    (hdelivered : s.yielded = sent) : ¬ s.Overtaken := by
  rintro ⟨x, y, hlt, hsub⟩
  obtain ⟨pushed, hsent, hperm⟩ := h.split
  have hlength := hperm.length_eq
  have hpushed := congrArg List.length hsent
  rw [List.length_append] at hlength hpushed
  rw [hdelivered] at hlength hsub
  have hlist : s.list = [] := List.length_eq_zero_iff.mp (by omega)
  rw [hlist, List.append_nil] at hsub
  have hyx := List.pairwise_pair.mp (hsorted.sublist hsub)
  omega

/-- What was sent in turn, and taken up to the final marker. -/
theorem delivered_of_inTurn {init : List Envelope} {fin : Envelope} (h : InTurn (init ++ [fin]) s)
    (hinit : ∀ e ∈ init, e.final = false) (hfin : fin.final = true) (hfinished : s.Finished) :
    Delivered (init ++ [fin]) s := by
  obtain ⟨hpending, hend⟩ := finished_iff.mp hfinished
  have horder := h.order
  rw [hpending, List.append_nil] at horder
  have hlist : s.list = [] := by
    rcases hend with hstopped | hlist
    · -- the final marker was taken, and nothing comes after it
      rw [h.stopped] at hstopped
      obtain ⟨e, he, hfinal⟩ := List.any_eq_true.mp hstopped
      by_contra hne
      obtain ⟨list, x, hx⟩ := (List.eq_nil_or_concat s.list).resolve_left hne
      rw [hx, List.concat_eq_append, ← List.append_assoc] at horder
      have hyielded := (List.append_inj' horder rfl).1
      have hmem : e ∈ init := hyielded ▸ List.mem_append_left _ he
      rw [hinit e hmem] at hfinal
      cases hfinal
    · exact hlist
  rw [hlist, List.append_nil] at horder
  exact ⟨horder, by rw [h.stopped, horder, List.any_append]; simp [hfin]⟩

end Stream

/-! ## Responses -/

section

variable {sender : String} {request_env : Envelope}

theorem lt_sequence : ∀ {chunks : List (List (String × Json))} {seq : Nat},
    ∀ e ∈ responses sender request_env seq chunks, seq < e.sequence
  | [], seq, e, he => by
    rw [List.mem_singleton.mp he]
    exact Nat.lt_succ_self seq
  | chunk :: chunks, seq, e, he => by
    rcases List.mem_cons.mp he with rfl | he
    · exact Nat.lt_succ_self seq
    · exact Nat.lt_of_succ_lt (lt_sequence e he)

theorem sorted_responses : ∀ (chunks : List (List (String × Json))) (seq : Nat),
    (responses sender request_env seq chunks).Pairwise fun x y => x.sequence < y.sequence
  | [], _ => List.pairwise_singleton _ _
  | _ :: chunks, seq => .cons lt_sequence (sorted_responses chunks (seq + 1))

theorem final_responses : ∀ (chunks : List (List (String × Json))) (seq : Nat), ∃ init fin,
    responses sender request_env seq chunks = init ++ [fin] ∧ (∀ e ∈ init, e.final = false) ∧ fin.final = true
  | [], _ => ⟨[], _, rfl, fun _ h => absurd h List.not_mem_nil, rfl⟩
  | _ :: chunks, seq => by
    obtain ⟨init, fin, heq, hinit, hfin⟩ := final_responses chunks (seq + 1)
    refine ⟨_ :: init, fin, by rw [responses, heq, List.cons_append], fun e he => ?_, hfin⟩
    rcases List.mem_cons.mp he with rfl | he
    · rfl
    · exact hinit e he

/-- **A finished schedule delivers the chunks** exactly if the list was empty at every push. -/
theorem delivered_iff (sender : String) (request_env : Envelope) (chunks : List (List (String × Json)))
    (schedule : List Party) {s : Stream}
    (hplay : (Stream.start (responses sender request_env 0 chunks)).play schedule = some s) (hfinished : s.Finished) :
    s.Delivered (responses sender request_env 0 chunks) ↔
      (Stream.start (responses sender request_env 0 chunks)).Abreast schedule := by
  have hsorted : (responses sender request_env 0 chunks).Pairwise fun x y => x.sequence < y.sequence :=
    sorted_responses chunks 0
  have hpushed :
      Stream.Pushed (responses sender request_env 0 chunks) (.start (responses sender request_env 0 chunks)) :=
    ⟨[], rfl, List.Perm.refl []⟩
  constructor
  · intro hdelivered
    by_contra hno
    have hovertaken := Stream.overtaken_of_not_abreast hsorted hpushed hno hplay
    exact Stream.not_overtaken hsorted (Stream.pushed_play hpushed hplay) hdelivered.1 hovertaken
  · intro habreast
    obtain ⟨init, fin, heq, hinit, hfin⟩ := @final_responses sender request_env chunks 0
    rw [heq] at hplay habreast ⊢
    have hstart : Stream.InTurn (init ++ [fin]) (.start (init ++ [fin])) := ⟨rfl, Nat.zero_le 1, rfl⟩
    exact Stream.delivered_of_inTurn (Stream.yields_in_turn hstart habreast hplay) hinit hfin hfinished

end

/-- A request. -/
def someRequest : Envelope := ⟨"a", "b", [], "c", 0, true⟩

/-- `delivered_iff` of one chunk, taken as soon as it is there. -/
theorem delivered_iff_one : ∃ s : Stream, s.Finished ∧ s.Delivered (responses "b" someRequest 0 [[("n", .null)]]) := by
  have hplay : (Stream.start (responses "b" someRequest 0 [[("n", .null)]])).play
      [.respond, .request, .respond, .request] = some ⟨[], [], responses "b" someRequest 0 [[("n", .null)]], true⟩ := rfl
  have hfinished : Stream.Finished ⟨[], [], responses "b" someRequest 0 [[("n", .null)]], true⟩ :=
    Stream.finished_iff.mpr ⟨rfl, .inl rfl⟩
  refine ⟨_, hfinished, (delivered_iff "b" someRequest [[("n", .null)]] _ hplay hfinished).mpr ?_⟩
  refine ⟨fun _ => rfl, fun s₁ h₁ => ?_⟩
  cases h₁
  refine ⟨(fun h => by cases h), fun s₂ h₂ => ?_⟩
  cases h₂
  refine ⟨fun _ => rfl, fun s₃ h₃ => ?_⟩
  cases h₃
  exact ⟨(fun h => by cases h), fun _ _ => trivial⟩

/-- A requester that comes late gets the final marker first, and stops. -/
theorem reversed : ¬ ∀ (chunks : List (List (String × Json))) (schedule : List Party) (s : Stream),
    (Stream.start (responses "b" someRequest 0 chunks)).play schedule = some s → s.Finished →
      s.Delivered (responses "b" someRequest 0 chunks) := by
  intro h
  have hplay : (Stream.start (responses "b" someRequest 0 [[("n", .null)]])).play [.respond, .respond, .request] =
      some ⟨[], (responses "b" someRequest 0 [[("n", .null)]]).take 1, responses "b" someRequest 1 [], true⟩ := rfl
  have hyielded := (h _ _ _ hplay (Stream.finished_iff.mpr ⟨rfl, .inl rfl⟩)).1
  cases hyielded

end ClaudeSwarm.Ipc
