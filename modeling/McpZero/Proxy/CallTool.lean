import McpZero.Pipeline.Execute
import McpZero.Proxy.ToolRouter
import McpZero.Python.Operators
import McpZero.Transport.Config

/-! `ProxyServer._call_tool`: routing, the pre-call pipeline, the token, the retry loop and
the post-call pipeline. A run returns its result with the trace of what it awaited. -/
namespace McpZero.Proxy
open Python Pipeline Transport

/-- The content models of the MCP SDK as far as the proxy uses them. Validation fails with
the text of a `ValidationError`. -/
structure ContentModels (C : Type) where
  modelDump : C → Value
  textContent : String → C
  validateText : Value → Except String C
  validateImage : Value → Except String C
  validateEmbeddedResource : Value → Except String C

structure CallToolResult (C : Type) where
  content : List C
  isError : Bool := false

/-- What a proxy awaits besides its pipeline: the auth provider, the server manager, a
session (under `asyncio.wait_for`) and the clock. -/
structure Collaborators (σ S C : Type) where
  getToken : String → RequestContext → Action σ (Option String)
  getSession : String → RequestContext → Option String → Action σ S
  callTool : S → String → Option Dict → Action σ (CallToolResult C)
  disconnect : String → Action σ Unit
  sleep : ℚ → Action σ Unit

/-- Collaborators that answer at once: no token, one session, an empty result. -/
def Collaborators.answering {σ S C : Type} (session : S) : Collaborators σ S C where
  getToken _ _ s := (.ok none, s)
  getSession _ _ _ s := (.ok session, s)
  callTool _ _ _ s := (.ok { content := [] }, s)
  disconnect _ s := (.ok (), s)
  sleep _ s := (.ok (), s)

inductive CallEvent (S C : Type)
  | preRun (result : PipelineResult)
  | getToken (serverName : String) (context : RequestContext)
  | getSession (serverName : String) (context : RequestContext) (authToken : Option String)
  | callTool (session : S) (toolName : String) (arguments : Option Dict)
  | upstreamResult (result : CallToolResult C)
  | postRun (result : PipelineResult)
  | disconnect (serverName : String)
  | sleep (seconds : ℚ)

/-- The events by which a call leaves the gateway for the token endpoint or the server. -/
def CallEvent.contactsUpstream {S C : Type} : CallEvent S C → Bool
  | .getToken _ _ => true
  | .getSession _ _ _ => true
  | .callTool _ _ _ => true
  | _ => false

structure CallRun (σ S C : Type) where
  result : Except Exc (List C)
  events : List (CallEvent S C)
  state : σ

namespace CallRun

variable {σ S C : Type}

/-- The run that awaited `events` first. -/
def after (events : List (CallEvent S C)) (run : CallRun σ S C) : CallRun σ S C :=
  { run with events := events ++ run.events }

@[simp] theorem after_result (es : List (CallEvent S C)) (run : CallRun σ S C) :
    (run.after es).result = run.result := rfl

@[simp] theorem after_events (es : List (CallEvent S C)) (run : CallRun σ S C) :
    (run.after es).events = es ++ run.events := rfl

end CallRun

structure ProxyServer (σ S C : Type) where
  configs : List ServerConfig
  pipeline : Option (List (LifecycleHook σ))
  models : ContentModels C
  collaborators : Collaborators σ S C

/-- A tool call as the handler receives it, with the fresh correlation id, the start time and
the authorization header of its request. -/
structure Request where
  name : String
  arguments : Option Dict
  correlationId : String
  startedAt : ℚ := 0
  authorization : String := ""

/-- The same request with the given arguments object. -/
def Request.withArguments (req : Request) (args : Dict) : Request :=
  { req with arguments := some args }

namespace ProxyServer

variable {σ S C : Type} (P : ProxyServer σ S C)

def getConfig (serverName : String) : Except Exc ServerConfig :=
  Transport.getConfig P.configs serverName

/-- The server, the tool and the configuration that a namespaced name stands for. -/
def route (name : String) : Except Exc (String × String × ServerConfig) := do
  let (server, tool) ← parseTool name
  let config ← P.getConfig server
  return (server, tool, config)

/-- The context that enters the pre-call pipeline. `arguments or {}` turns a missing object
into an empty one. -/
def initialContext (req : Request) (server tool : String) (config : ServerConfig) :
    HookContext where
  request := { correlationId := req.correlationId }
  serverName := server
  toolName := tool
  requestPayload := [(.str "arguments", .dict (req.arguments.getD []))]
  extras := [(.str "authorization", .str req.authorization)]
  startedAt := req.startedAt
  transport := config.transport.value

def accessDenied (correlationId : String) : List C :=
  [P.models.textContent ("Access denied (correlation_id=" ++ correlationId ++ ")")]

def responseBlocked (correlationId : String) : List C :=
  [P.models.textContent ("Response blocked: output processing failed (correlation_id=" ++
    correlationId ++ ")")]

/-- `types.X.model_validate(item)`. -/
def validated (r : Except String C) : Except Exc C :=
  r.mapError (.other "ValidationError")

/-- One step of `_rebuild_content`. An item of any other type becomes a text. -/
def rebuildItem (item : Value) : Except Exc C := do
  match ← item.getKey "type" with
  | .str "text" => validated (P.models.validateText item)
  | .str "image" => validated (P.models.validateImage item)
  | .str "resource" => validated (P.models.validateEmbeddedResource item)
  | _ => return P.models.textContent item.text

/-- `_rebuild_content`. -/
def rebuildContent (payload : Dict) : Except Exc (List C) := do
  let items ← (payload.getD "content" (.list [])).iter
  items.mapM P.rebuildItem

/-- The payload that the post-call pipeline is given. -/
def responsePayload (result : CallToolResult C) : Dict :=
  [(.str "content", .list (result.content.map P.models.modelDump)),
   (.str "is_error", .bool result.isError)]

/-- What becomes of an upstream result. `pre` is the context after the pre-call pipeline. -/
def finish (pre : HookContext) (result : CallToolResult C) (s : σ) : CallRun σ S C :=
  match P.pipeline with
  | none => ⟨.ok result.content, [], s⟩
  | some hooks =>
    let (post, s) := execute hooks { pre with responsePayload := P.responsePayload result } s
    if post.success then ⟨P.rebuildContent post.context.responsePayload, [.postRun post], s⟩
    else ⟨.ok (P.responseBlocked pre.request.correlationId), [.postRun post], s⟩

/-- The body of the `try` block of one attempt. -/
def attempt (pre : HookContext) (server tool : String) (arguments : Option Dict)
    (token : Option String) (s : σ) : CallRun σ S C :=
  match P.collaborators.getSession server pre.request token s with
  | (.error e, s) => ⟨.error e, [.getSession server pre.request token], s⟩
  | (.ok session, s) =>
    let sent := [.getSession server pre.request token, .callTool session tool arguments]
    match P.collaborators.callTool session tool arguments s with
    | (.error e, s) => ⟨.error e, sent, s⟩
    | (.ok result, s) => (P.finish pre result s).after (sent ++ [.upstreamResult result])

def timedOut (server : String) (config : ServerConfig) (correlationId : String) : Exc :=
  .proxyTimeout ("Upstream '" ++ server ++ "' timed out after " ++ config.timeoutSeconds.repr ++
    "s") server correlationId

def exhausted (server : String) (config : ServerConfig) (correlationId : String)
    (lastError : Option Exc) : Exc :=
  .upstream ("Upstream '" ++ server ++ "' failed after " ++ toString (config.maxRetries + 1) ++
    " attempts: " ++ (lastError.elim "None" Exc.message)) server correlationId

/-- The exceptions after which the loop goes on, and what it does first: a transport error
disconnects the server. -/
def recover (server : String) (config : ServerConfig) (correlationId : String) (e : Exc) (s : σ) :
    Except Exc Exc × List (CallEvent S C) × σ :=
  match e with
  | .timeout _ => (.ok (timedOut server config correlationId), [], s)
  | .transportConnection _ | .transportTimeout _ =>
    match P.collaborators.disconnect server s with
    | (.ok (), s) => (.ok e, [.disconnect server], s)
    | (.error e', s) => (.error e', [.disconnect server], s)
  | e => (.error e, [], s)

/-- `config.retry_delay_seconds * (2**attempt)`: the power must still be a float. -/
def retryDelay (config : ServerConfig) (index : ℕ) : Except Exc ℚ :=
  if index < 1024 then .ok (config.retryDelaySeconds * 2 ^ index)
  else .error (.other "OverflowError" "int too large to convert to float")

/-- The wait between two attempts. There is none after the last one. -/
def backOff (config : ServerConfig) (index : ℕ) (s : σ) :
    Except Exc Unit × List (CallEvent S C) × σ :=
  if index < config.maxRetries then
    match retryDelay config index with
    | .error e => (.error e, [], s)
    | .ok delay =>
      let (r, s) := P.collaborators.sleep delay s
      (r, [.sleep delay], s)
  else (.ok (), [], s)

/-- The retry loop with `remaining` attempts to go, of which the next has the given index. -/
def attempts (pre : HookContext) (server tool : String) (config : ServerConfig)
    (arguments : Option Dict) (token : Option String) :
    (remaining index : ℕ) → Option Exc → σ → CallRun σ S C
  | 0, _, lastError, s =>
    ⟨.error (exhausted server config pre.request.correlationId lastError), [], s⟩
  | remaining + 1, index, _, s =>
    let run := P.attempt pre server tool arguments token s
    match run.result with
    | .ok _ => run
    | .error e =>
      match P.recover server config pre.request.correlationId e run.state with
      | (.error e, events, s) => ⟨.error e, run.events ++ events, s⟩
      | (.ok lastError, events, s) =>
        match P.backOff config index s with
        | (.error e, waits, s) => ⟨.error e, run.events ++ events ++ waits, s⟩
        | (.ok (), waits, s) =>
          (attempts pre server tool config arguments token remaining (index + 1)
            (some lastError) s).after (run.events ++ events ++ waits)

/-- The call after the pre-call pipeline has let it through. -/
def forward (pre : HookContext) (server tool : String) (config : ServerConfig)
    (arguments : Option Dict) (s : σ) : CallRun σ S C :=
  match P.collaborators.getToken server pre.request s with
  | (.error (.tokenExchange _ _), s) =>
    ⟨.ok (P.accessDenied pre.request.correlationId), [.getToken server pre.request], s⟩
  | (.error e, s) => ⟨.error e, [.getToken server pre.request], s⟩
  | (.ok token, s) =>
    (P.attempts pre server tool config arguments token (config.maxRetries + 1) 0 none s).after
      [.getToken server pre.request]

/-- `_call_tool`. The gate after the pre-call pipeline reads the policy decision. -/
def callTool (req : Request) (s : σ) : CallRun σ S C :=
  match P.route req.name with
  | .error e => ⟨.error e, [], s⟩
  | .ok (server, tool, config) =>
    let ctx := initialContext req server tool config
    match P.pipeline with
    | none => P.forward ctx server tool config req.arguments s
    | some hooks =>
      let (pre, s) := execute hooks ctx s
      if pre.context.policyDecision = .deny then
        ⟨.ok (P.accessDenied pre.context.request.correlationId), [.preRun pre], s⟩
      else (P.forward pre.context server tool config req.arguments s).after [.preRun pre]

/-- The proxy with the given pipeline. -/
def withPipeline (hooks : List (LifecycleHook σ)) : ProxyServer σ S C :=
  { P with pipeline := some hooks }

@[simp] theorem withPipeline_route (hooks : List (LifecycleHook σ)) (name : String) :
    (P.withPipeline hooks).route name = P.route name := rfl

/-- The proxy in front of other collaborators. -/
def deployed (K : Collaborators σ S C) : ProxyServer σ S C := { P with collaborators := K }

@[simp] theorem deployed_route (K : Collaborators σ S C) (name : String) :
    (P.deployed K).route name = P.route name := rfl

theorem callTool_of_not_routed (hooks : List (LifecycleHook σ)) {req : Request} {e : Exc}
    (hroute : P.route req.name = .error e) (s : σ) :
    (P.withPipeline hooks).callTool req s = ⟨.error e, [], s⟩ := by
  unfold callTool
  rw [withPipeline_route, hroute]

/-- A call whose pre-call pipeline completes is stopped only by the policy decision. -/
theorem callTool_of_allReturn {hooks : List (LifecycleHook σ)} {req : Request}
    {server tool : String} {config : ServerConfig} {pre : HookContext} {s t : σ}
    (hroute : P.route req.name = .ok (server, tool, config))
    (hall : AllReturn hooks hookSequence (initialContext req server tool config) s pre t) :
    ∃ ex, (P.withPipeline hooks).callTool req s =
      let r : PipelineResult := { context := pre, success := true, hooksExecuted := ex }
      if pre.policyDecision = .deny then
        ⟨.ok (P.accessDenied pre.request.correlationId), [.preRun r], t⟩
      else
        ((P.withPipeline hooks).forward pre server tool config req.arguments t).after
          [.preRun r] := by
  obtain ⟨ex, hex⟩ := execute_of_allReturn hall
  refine ⟨ex, ?_⟩
  unfold callTool
  rw [withPipeline_route, hroute]
  simp only [withPipeline, hex]
  rfl

/-- A call whose pre-call pipeline fails is stopped only by the policy decision, too. -/
theorem callTool_of_firstRaise {hooks : List (LifecycleHook σ)} {req : Request}
    {server tool : String} {config : ServerConfig} {entered : HookContext} {e : Exc} {s : σ}
    (hroute : P.route req.name = .ok (server, tool, config))
    (hraise : FirstRaise hooks hookSequence (initialContext req server tool config) s entered e) :
    ∃ r t, r.success = false ∧
      (r.context.policyDecision = .deny ↔ e.denies = true ∨ entered.policyDecision = .deny) ∧
      (P.withPipeline hooks).callTool req s =
        if r.context.policyDecision = .deny then
          ⟨.ok (P.accessDenied r.context.request.correlationId), [.preRun r], t⟩
        else
          ((P.withPipeline hooks).forward r.context server tool config req.arguments t).after
            [.preRun r] := by
  obtain ⟨hook, -, p, ex, t, hex⟩ := execute_of_firstRaise hraise
  refine ⟨(execute hooks (initialContext req server tool config) s).1, t, ?_, ?_, ?_⟩
  · rw [hex]
  · rw [hex, failedContext_policyDecision, raised_denies]
  · unfold callTool
    rw [withPipeline_route, hroute]
    simp only [withPipeline, hex]
    rfl

/-- A proxy for one server whose content items are plain texts. -/
def textProxy (hooks : List (LifecycleHook σ)) : ProxyServer σ Unit String where
  configs := [{ name := .str "db", transport := .http }]
  pipeline := some hooks
  models :=
    { modelDump := .str, textContent := id, validateText := fun _ => .error "",
      validateImage := fun _ => .error "", validateEmbeddedResource := fun _ => .error "" }
  collaborators := .answering ()

def queryRequest : Request where
  name := "db__query"
  arguments := some [(.str "sql", .str "select 1")]
  correlationId := "c1"

/-- What the call can await once it has a token. -/
inductive AttemptEvent (pre : HookContext) (server tool : String) (arguments : Option Dict)
    (token : Option String) : CallEvent S C → Prop
  | getSession : AttemptEvent pre server tool arguments token (.getSession server pre.request token)
  | callTool (session : S) :
      AttemptEvent pre server tool arguments token (.callTool session tool arguments)
  | upstreamResult (r : CallToolResult C) :
      AttemptEvent pre server tool arguments token (.upstreamResult r)
  | postRun (r : PipelineResult) : AttemptEvent pre server tool arguments token (.postRun r)
  | disconnect : AttemptEvent pre server tool arguments token (.disconnect server)
  | sleep (seconds : ℚ) : AttemptEvent pre server tool arguments token (.sleep seconds)

variable (pre : HookContext) (server tool : String) (config : ServerConfig)
  (arguments : Option Dict) (token : Option String)

theorem finish_events (result : CallToolResult C) (s : σ) :
    ∀ e ∈ (P.finish pre result s).events, ∃ post, e = .postRun post := by
  intro e he
  unfold finish at he
  split at he
  · simp at he
  · rename_i hooks _
    dsimp only at he
    split_ifs at he
    all_goals exact ⟨_, List.mem_singleton.mp he⟩

theorem attempt_events (s : σ) :
    ∀ e ∈ (P.attempt pre server tool arguments token s).events,
      AttemptEvent pre server tool arguments token e := by
  intro e he
  unfold attempt at he
  split at he
  · rw [List.mem_singleton.mp he]
    exact .getSession
  · dsimp only at he
    split at he
    · rcases List.mem_pair.mp he with rfl | rfl
      · exact .getSession
      · exact .callTool _
    · simp only [CallRun.after_events, List.mem_append, List.mem_cons, List.not_mem_nil,
        or_false] at he
      rcases he with ((rfl | rfl) | rfl) | he
      · exact .getSession
      · exact .callTool _
      · exact .upstreamResult _
      · obtain ⟨post, rfl⟩ := P.finish_events pre _ _ e he
        exact .postRun post

theorem recover_events (correlationId : String) (e : Exc) (s : σ) :
    ∀ ev ∈ (P.recover server config correlationId e s).2.1, ev = .disconnect server := by
  intro ev hev
  unfold recover at hev
  split at hev
  · simp at hev
  · split at hev <;> simpa using hev
  · split at hev <;> simpa using hev
  · simp at hev

theorem backOff_events (index : ℕ) (s : σ) :
    ∀ ev ∈ (P.backOff config index s).2.1, ∃ seconds, ev = .sleep seconds := by
  intro ev hev
  unfold backOff at hev
  split_ifs at hev
  · split at hev
    · simp at hev
    · exact ⟨_, List.mem_singleton.mp hev⟩
  · simp at hev

/-- The loop ends with an attempt that gives a response, or that raises anything else than a
timeout or an error of the transport. -/
theorem attempts_of_final (remaining index : ℕ) (lastError : Option Exc) {s : σ}
    (h : ∀ e, (P.attempt pre server tool arguments token s).result = .error e →
      ∃ type m, e = .other type m) :
    P.attempts pre server tool config arguments token (remaining + 1) index lastError s =
      P.attempt pre server tool arguments token s := by
  rw [attempts]
  rcases hrun : P.attempt pre server tool arguments token s with ⟨e | content, events, t⟩
  · rw [hrun] at h
    obtain ⟨type, m, rfl⟩ := h e rfl
    simp only [recover, List.append_nil]
  · rfl

/-- The loop awaits what its next attempt awaits. -/
theorem attempt_subset_attempts (remaining index : ℕ) (lastError : Option Exc) (s : σ) :
    (P.attempt pre server tool arguments token s).events ⊆
      (P.attempts pre server tool config arguments token (remaining + 1) index lastError s).events := by
  intro e he
  rw [attempts]
  split
  · exact he
  · split
    · exact List.mem_append_left _ he
    · split
      · exact List.mem_append_left _ (List.mem_append_left _ he)
      · exact List.mem_append_left _ (List.mem_append_left _ (List.mem_append_left _ he))

/-- The trace of the retry loop, whatever its length. -/
theorem attempts_events (remaining index : ℕ) (lastError : Option Exc) (s : σ) :
    ∀ e ∈ (P.attempts pre server tool config arguments token remaining index lastError s).events,
      AttemptEvent pre server tool arguments token e := by
  induction remaining generalizing index lastError s with
  | zero => simp [attempts]
  | succ remaining ih =>
    intro e he
    have hattempt := P.attempt_events pre server tool arguments token s
    rw [attempts] at he
    split at he
    · exact hattempt e he
    · rename_i err _
      have hrecover := P.recover_events server config pre.request.correlationId err
        (P.attempt pre server tool arguments token s).state
      have hmade : ∀ e' ∈ (P.attempt pre server tool arguments token s).events ++
          (P.recover server config pre.request.correlationId err
            (P.attempt pre server tool arguments token s).state).2.1,
          AttemptEvent pre server tool arguments token e' := by
        intro e' he'
        rcases List.mem_append.mp he' with h | h
        · exact hattempt e' h
        · rw [hrecover e' h]
          exact .disconnect
      split at he
      · rename_i heq
        rw [heq] at hmade
        exact hmade e he
      · rename_i t heq
        rw [heq] at hmade
        have hwaits : ∀ e' ∈ (P.backOff config index t).2.1,
            AttemptEvent pre server tool arguments token e' := by
          intro e' he'
          obtain ⟨seconds, rfl⟩ := P.backOff_events config index t e' he'
          exact .sleep seconds
        split at he
        all_goals
          rename_i heq'
          rw [heq'] at hwaits
        · exact (List.mem_append.mp he).elim (hmade e) (hwaits e)
        · rcases List.mem_append.mp he with h | h
          · exact (List.mem_append.mp h).elim (hmade e) (hwaits e)
          · exact ih _ _ _ e h

/-- The trace of a call that the gate let through. -/
theorem forward_events (s : σ) :
    ∀ e ∈ (P.forward pre server tool config arguments s).events,
      e = .getToken server pre.request ∨
        ∃ token, AttemptEvent pre server tool arguments token e := by
  intro e he
  unfold forward at he
  split at he
  · exact .inl (List.mem_singleton.mp he)
  · exact .inl (List.mem_singleton.mp he)
  · rcases List.mem_cons.mp he with h | h
    · exact .inl h
    · exact .inr ⟨_, P.attempts_events pre server tool config arguments _ _ _ _ _ e h⟩

theorem getToken_mem_forward (s : σ) :
    .getToken server pre.request ∈ (P.forward pre server tool config arguments s).events := by
  unfold forward
  split <;> simp

/-- With collaborators that answer at once the tool is called with the arguments of the
request. -/
theorem callTool_mem_forward_answering (session : S) (s : σ) :
    .callTool session tool arguments ∈
      ((P.deployed (.answering session)).forward pre server tool config arguments s).events := by
  have hattempt : .callTool session tool arguments ∈
      ((P.deployed (.answering session)).attempt pre server tool arguments none s).events := by
    simp [attempt, deployed, Collaborators.answering]
  have hloop := (P.deployed (.answering session)).attempt_subset_attempts pre server tool config
    arguments none config.maxRetries 0 none s hattempt
  exact List.mem_cons_of_mem _ hloop

theorem preRun_notMem_forward (r : PipelineResult) (s : σ) :
    .preRun r ∉ (P.forward pre server tool config arguments s).events := by
  intro h
  rcases P.forward_events pre server tool config arguments s _ h with h | ⟨_, h⟩
  · cases h
  · cases h

end ProxyServer

end McpZero.Proxy
