import ClaudeSwarm.Data.Json

/-!
# The credential broker

Model of `_handle_request` and `_client_connected` of `src/credential_broker.py`, on the lines of one connection whose
client stays. What the handlers do, `json.loads`, which may also raise what is no `JSONDecodeError` (on deep nesting or
a long number), and the text of a value are parameters (`Env`); a fresh id comes with each line. The times in the log
are left out.

Only the call of the handler stands in a `try`. What goes wrong between the parsing and that call leaves
`_handle_request`, and `_client_connected` closes the connection.

* `handle_cases`: which lines are answered.
* **`served_iff`**: every line is answered, in order, exactly if each is one of these.
* `connection_lost`: a line with a JSON array, and one after it.
-/

namespace ClaudeSwarm.CredentialBroker

open Data

/-! ## The code -/

/-- The methods of `_METHODS`. -/
inductive Method where
  | git_push | ssh_exec | anthropic_proxy

/-- What `json.loads` raises. -/
inductive LoadError where
  /-- A `JSONDecodeError`, with its text. -/
  | decode (text : String)
  | other

/-- What ends a connection. -/
inductive Crash where
  | loads
  | attribute
  | unhashable

/-- What is outside of the broker; a handler gives its result, or the text of the exception that it raises. -/
structure Env where
  loads : String → Except LoadError Json
  str : Json → String
  handler : Method → List (String × Json) → Except String Json

/-- A line of the client, and the id its request gets if it has none. -/
structure Line where
  text : String
  uuid : String

/-- A response. -/
structure Response where
  request_id : Json
  ok : Bool
  result : Json
  error : String

/-- `json.dumps(response) + "\n"`. -/
def Response.line (r : Response) : String :=
  (Json.obj [("request_id", r.request_id), ("ok", .bool r.ok), ("result", r.result), ("error", .str r.error)]).dumps ++
    "\n"

/-- `_METHODS.get(method)`. -/
def methods : Json → Except Crash (Option Method)
  | .str "git_push" => .ok (some .git_push)
  | .str "ssh_exec" => .ok (some .ssh_exec)
  | .str "anthropic_proxy" => .ok (some .anthropic_proxy)
  | .arr _ | .obj _ => .error .unhashable
  | _ => .ok none

/-- `req.get(key, default)`. -/
def getD (req : List (String × Json)) (key : String) (default : Json) : Json := (Json.get? key (.obj req)).getD default

/-- The parameters that are logged: without a key, and without messages. -/
def logParams (method : Json) (params : List (String × Json)) : List (String × Json) :=
  let log_params := params.filter fun p => p.1 ≠ "api_key"
  match method with
  | .str "anthropic_proxy" => Json.setKey (log_params.filter fun p => p.1 ≠ "messages") ("messages", .str "[redacted]")
  | _ => log_params

variable (env : Env)

/-- `_handle_request`, from the call of `_METHODS.get` on. -/
def dispatch (request_id method : Json) (params : List (String × Json)) : List Json × Except Crash Response :=
  match methods method with
  | .error e => ([], .error e)
  | .ok none =>
    let err := "unknown method: " ++ env.str method
    ([.obj [("request_id", request_id), ("ok", .bool false), ("error", .str err)]],
      .ok ⟨request_id, false, .obj [], err⟩)
  | .ok (some method) =>
    match env.handler method params with
    | .ok result =>
      ([.obj [("request_id", request_id), ("ok", .bool true)]], .ok ⟨request_id, true, result, ""⟩)
    | .error err =>
      ([.obj [("request_id", request_id), ("ok", .bool false), ("error", .str err)]],
        .ok ⟨request_id, false, .obj [], err⟩)

/-- `_handle_request`: what it logs, and the response or what it raises. -/
def handleRequest (raw uuid : String) : List Json × Except Crash Response :=
  match env.loads raw with
  | .error (.decode text) => ([], .ok ⟨.null, false, .obj [], "invalid json: " ++ text⟩)
  | .error .other => ([], .error .loads)
  | .ok (.obj req) =>
    let request_id := getD req "request_id" (.str uuid)
    let method := getD req "method" (.str "")
    match getD req "params" (.obj []) with
    | .obj params =>
      let log := .obj [("request_id", request_id), ("method", method), ("params", .obj (logParams method params))]
      let (logged, answer) := dispatch env request_id method params
      (log :: logged, answer)
    | _ => ([], .error .attribute)
  | .ok _ => ([], .error .attribute)

/-- The answer to a line. -/
def handle (line : Line) : Except Crash Response :=
  (handleRequest env (.ofList (Python.strip line.text.toList)) line.uuid).2

/-- `_client_connected`: what is written for the lines, and what ends the connection before the client does. -/
def clientConnected : List Line → List String × Option Crash
  | [] => ([], none)
  | line :: lines =>
    match handle env line with
    | .error e => ([], some e)
    | .ok response =>
      let (written, crash) := clientConnected lines
      (response.line :: written, crash)

/-! ## What should hold -/

variable {env}

/-- The line cannot be done. -/
def Malformed (env : Env) (line : Line) : Prop :=
  ∀ req params method result, env.loads (.ofList (Python.strip line.text.toList)) = .ok (.obj req) →
    getD req "params" (.obj []) = .obj params → methods (getD req "method" (.str "")) = .ok (some method) →
    env.handler method params ≠ .ok result

/-- **One request, one answer**: the lines are answered one by one, and those that cannot be done are not `ok`. -/
def Served (env : Env) (lines : List Line) : Prop :=
  List.Forall₂ (fun line text => ∃ r, text = Response.line r ∧ handle env line = .ok r ∧
    (Malformed env line → r.ok = false)) lines (clientConnected env lines).1

/-- The line is no JSON, or it is an object whose `params` are an object and whose `method` is no array and no
object. -/
def Handled (env : Env) (line : Line) : Prop :=
  (∃ text, env.loads (.ofList (Python.strip line.text.toList)) = .error (.decode text)) ∨
    ∃ req params, env.loads (.ofList (Python.strip line.text.toList)) = .ok (.obj req) ∧
      getD req "params" (.obj []) = .obj params ∧ (∀ l, getD req "method" (.str "") ≠ .arr l) ∧
      ∀ l, getD req "method" (.str "") ≠ .obj l

/-! ## Answers -/

theorem methods_isOk_iff (method : Json) :
    (∃ m, methods method = .ok m) ↔ (∀ l, method ≠ .arr l) ∧ ∀ l, method ≠ .obj l := by
  constructor
  · rintro ⟨m, hm⟩
    constructor
    · rintro l rfl
      cases hm
    · rintro l rfl
      cases hm
  · rintro ⟨harr, hobj⟩
    unfold methods
    split
    · exact ⟨_, rfl⟩
    · exact ⟨_, rfl⟩
    · exact ⟨_, rfl⟩
    · exact absurd rfl (harr _)
    · exact absurd rfl (hobj _)
    · exact ⟨_, rfl⟩

/-- A request is answered if its method can be looked up; it is `ok` if there is a handler, and that returns. -/
theorem dispatch_cases (request_id method : Json) (params : List (String × Json)) :
    (∃ e, methods method = .error e ∧ (dispatch env request_id method params).2 = .error e) ∨
      ∃ m r, methods method = .ok m ∧ (dispatch env request_id method params).2 = .ok r ∧
        (r.ok = true → ∃ m' result, m = some m' ∧ env.handler m' params = .ok result) := by
  unfold dispatch
  split
  · exact .inl ⟨_, ‹_›, rfl⟩
  · exact .inr ⟨none, _, ‹_›, rfl, fun h => by cases h⟩
  · split
    · exact .inr ⟨_, _, ‹_›, rfl, fun _ => ⟨_, _, rfl, ‹_›⟩⟩
    · exact .inr ⟨_, _, ‹_›, rfl, fun h => by cases h⟩

/-- **Which lines are answered**, and which answers are not `ok`. -/
theorem handle_cases (line : Line) :
    (¬ Handled env line ∧ ∃ e, handle env line = .error e) ∨
      Handled env line ∧ ∃ r, handle env line = .ok r ∧ (Malformed env line → r.ok = false) := by
  unfold handle handleRequest
  cases hload : env.loads (.ofList (Python.strip line.text.toList)) with
  | error e =>
    cases e with
    | decode text => exact .inr ⟨.inl ⟨text, hload⟩, _, rfl, fun _ => rfl⟩
    | other =>
      refine .inl ⟨?_, _, rfl⟩
      rintro (⟨text, htext⟩ | ⟨req, params, hreq, -⟩)
      · cases hload.symm.trans htext
      · cases hload.symm.trans hreq
  | ok v =>
    have hno : (∀ req, v ≠ .obj req) → ¬ Handled env line := by
      rintro hv (⟨text, htext⟩ | ⟨req, params, hreq, -⟩)
      · cases hload.symm.trans htext
      · exact hv req (Except.ok.inj (hload.symm.trans hreq))
    cases v with
    | obj req =>
      simp only
      cases hparams : getD req "params" (.obj []) with
      | obj params =>
        rcases @dispatch_cases env (getD req "request_id" (.str line.uuid)) (getD req "method" (.str "")) params with
          ⟨e, hmethod, he⟩ | ⟨m, r, hmethod, hr, hok⟩
        · refine .inl ⟨?_, e, he⟩
          rintro (⟨text, htext⟩ | ⟨req', params', hreq, -, hhash⟩)
          · cases hload.symm.trans htext
          · cases hload.symm.trans hreq
            obtain ⟨m, hm⟩ := (methods_isOk_iff _).mpr hhash
            cases hmethod.symm.trans hm
        · refine .inr ⟨.inr ⟨req, params, hload, hparams, (methods_isOk_iff _).mp ⟨m, hmethod⟩⟩, r, hr, fun hmal => ?_⟩
          by_contra hne
          obtain ⟨m', result, rfl, hresult⟩ := hok (Bool.eq_true_of_not_eq_false hne)
          exact hmal req params m' result hload hparams hmethod hresult
      | _ =>
        refine .inl ⟨?_, _, rfl⟩
        rintro (⟨text, htext⟩ | ⟨req', params', hreq, hparams', -⟩)
        · cases hload.symm.trans htext
        · cases hload.symm.trans hreq
          cases hparams.symm.trans hparams'
    | _ =>
      refine .inl ⟨hno fun _ h => ?_, _, rfl⟩
      cases h

/-- **Every line is answered, in order, exactly if each can be handled.** -/
theorem served_iff (env : Env) (lines : List Line) : Served env lines ↔ ∀ line ∈ lines, Handled env line := by
  unfold Served
  induction lines with
  | nil => exact ⟨fun _ _ h => absurd h List.not_mem_nil, fun _ => .nil⟩
  | cons line lines ih =>
    rw [clientConnected, List.forall_mem_cons]
    rcases @handle_cases env line with ⟨hno, e, he⟩ | ⟨hyes, r, hr, hok⟩
    · simp only [he, List.forall₂_nil_right_iff]
      exact ⟨fun h => (List.cons_ne_nil _ _ h).elim, fun h => absurd h.1 hno⟩
    · simp only [hr, List.forall₂_cons, ih]
      constructor
      · exact fun h => ⟨hyes, h.2⟩
      · exact fun h => ⟨⟨r, rfl, rfl, hok⟩, h.2⟩

/-! ## A lost connection -/

/-- `json.loads` on nesting and numbers that are not too large, and handlers that are not there. -/
def someEnv : Env where
  loads text :=
    match Json.loads text with
    | some v => .ok v
    | none => .error (.decode "Expecting value: line 1 column 1 (char 0)")
  str := Json.dumps
  handler _ _ := .error "[Errno 2] No such file or directory"

/-- A line with an array, and one that could be answered, do not get two answers. -/
theorem connection_lost : ¬ ∀ env lines, Served env lines := by
  intro h
  have hserved := h someEnv [⟨"[]\n", "u"⟩, ⟨"x\n", "v"⟩]
  have hwritten : (clientConnected someEnv [⟨"[]\n", "u"⟩, ⟨"x\n", "v"⟩]).1 = [] := by decide +kernel
  unfold Served at hserved
  rw [hwritten] at hserved
  cases hserved

end ClaudeSwarm.CredentialBroker
