import McpZero.Proxy.OboAuth
import McpZero.Transport.Frame
import McpZero.Transport.Headers

/-! The gateway as one machine: tool calls, listings, disconnects, token exchanges and the
session pool, in any order of their steps. A call is followed from `get_token` to the end of
its last attempt. -/
namespace McpZero
open Identity Lib Proxy Transport

/-- What `ServerConfig.__post_init__` requires of a server that exchanges tokens. -/
def Transport.ServerConfig.Checked (config : ServerConfig) : Prop :=
  config.tokenExchange → config.transport ≠ .stdio ∧ config.targetAudience.getD "" ≠ ""

/-- The configurations of a gateway. -/
structure Servers where
  configs : List ServerConfig
  checked (config : ServerConfig) : config ∈ configs → config.Checked

/-- The context of a call after its pre-call pipeline: identity and raw token come from one
validated token, of which `subjectOf` gives the subject. -/
structure VerifiedContext (subjectOf : String → Option String) where
  context : RequestContext
  sameToken (identity : UserIdentity) (token : String) : context.identity = some identity →
    context.rawToken = some token → subjectOf token = some identity.userId

structure ToolCall (subjectOf : String → Option String) where
  serverName : String
  caller : VerifiedContext subjectOf

namespace ToolCall

variable {subjectOf : String → Option String}

/-- The user of a call. -/
def subject (c : ToolCall subjectOf) : Option String := c.caller.context.identity.map (·.userId)

/-- The `get_session` of a call. -/
def getSession (c : ToolCall subjectOf) (token : Option String) : GetSession :=
  ⟨c.serverName, some c.caller.context, token⟩

end ToolCall

/-- Where a call stands: at the exchange of its token, between two waits with the token that
`get_token` returned and the number of its attempt, in `get_session`, in `session.call_tool`,
in the `disconnect` after a transport error, or past its end. -/
inductive Call (subjectOf : String → Option String)
  | idle
  | exchanging (c : ToolCall subjectOf)
  | authorized (c : ToolCall subjectOf) (token : Option String) (attempt : ℕ)
  | connecting (c : ToolCall subjectOf) (token : Option String) (attempt : ℕ)
  | invoking (c : ToolCall subjectOf) (token : Option String) (attempt : ℕ) (session : OwnerId)
  | recovering (c : ToolCall subjectOf) (token : Option String) (attempt : ℕ)
  | finished (c : ToolCall subjectOf)

def Call.running {subjectOf : String → Option String} : Call subjectOf → Bool
  | idle => false
  | finished _ => false
  | _ => true

/-- A call that has passed `get_token`, with its token. -/
def Call.authorized? {subjectOf : String → Option String} :
    Call subjectOf → Option (ToolCall subjectOf × Option String)
  | authorized c token _ => some (c, token)
  | connecting c token _ => some (c, token)
  | invoking c token _ _ => some (c, token)
  | recovering c token _ => some (c, token)
  | _ => none

/-- One `session.call_tool`. -/
structure Invocation (subjectOf : String → Option String) where
  call : ToolCall subjectOf
  token : Option String
  session : OwnerId

/-- What comes of `session.call_tool` under its timeout. A result and an exception that is not
retried both end the call. -/
inductive Answer
  | done
  | timeout
  | transportError

structure Gateway (subjectOf : String → Option String) where
  pool : Pool := {}
  obo : OBOClient := {}
  call : TaskId → Call subjectOf := fun _ => .idle
  invoked : List (Invocation subjectOf) := []

inductive GatewayAction (subjectOf : String → Option String)
  | callTool (t : TaskId) (c : ToolCall subjectOf)
  | proceed (t : TaskId)
  | answer (t : TaskId) (a : Answer)
  | listTools (t : TaskId) (serverName : String)
  | disconnect (t : TaskId) (serverName : String)
  | disconnectAll (t : TaskId)
  | exchange (a : OBOAction)
  | pool (a : PoolAction)

/-- What a step changes: one step of the pool, one of the token client, the place of one call,
one more invocation. -/
structure Move (subjectOf : String → Option String) where
  pool : Option PoolAction := none
  obo : Option OBOAction := none
  call : Option (TaskId × Call subjectOf) := none
  invoked : Option (Invocation subjectOf) := none

namespace Gateway

variable {subjectOf : String → Option String}

/-- Whether a task is free to begin something else. -/
def free (gw : Gateway subjectOf) (t : TaskId) : Bool :=
  !(gw.call t).running && !(gw.pool.task t).pending

/-- The retry loop after an attempt that failed: the next attempt, or the end with
`UpstreamError`. The delay before attempt 1025 overflows, which ends the call too. -/
def retry (servers : Servers) (c : ToolCall subjectOf) (token : Option String) (attempt : ℕ) :
    Call subjectOf :=
  match getConfig servers.configs c.serverName with
  | .ok config =>
    if attempt < config.maxRetries ∧ attempt < 1024 then .authorized c token (attempt + 1)
    else .finished c
  | .error _ => .finished c

/-- `_call_tool` from the configuration to the first wait of `get_token`. -/
def startCall (servers : Servers) (t : TaskId) (c : ToolCall subjectOf) : Move subjectOf :=
  match getConfig servers.configs c.serverName with
  | .error _ => { call := some (t, .finished c) }
  | .ok _ =>
    let settings := serverSettings servers.configs c.serverName
    match tokenRequest settings c.serverName c.caller.context with
    | .error _ => { call := some (t, .finished c) }
    | .ok none => { call := some (t, .authorized c none 0) }
    | .ok (some r) => { obo := some (.exchange t r), call := some (t, .exchanging c) }

/-- A call goes on when what it waits for has happened. Only a `TransportConnectionError` of
`get_session` is retried. -/
def proceed (servers : Servers) (gw : Gateway subjectOf) (t : TaskId) : Option (Move subjectOf) :=
  match gw.call t with
  | .exchanging c =>
    match gw.obo.task t with
    | .returned _ token => some { call := some (t, .authorized c (some token) 0) }
    | .raised _ _ => some { call := some (t, .finished c) }
    | _ => none
  | .authorized c token attempt =>
    some {
      pool := some (.getSession t (c.getSession token))
      call := some (t, .connecting c token attempt) }
  | .connecting c token attempt =>
    match gw.pool.task t with
    | .returned _ session =>
      some {
        call := some (t, .invoking c token attempt session)
        invoked := some ⟨c, token, session⟩ }
    | .raised _ (.connect .connection) =>
      some {
        pool := some (.disconnect t c.serverName)
        call := some (t, .recovering c token attempt) }
    | .raised _ _ => some { call := some (t, .finished c) }
    | _ => none
  | .recovering c token attempt =>
    match gw.pool.task t with
    | .closed _ => some { call := some (t, retry servers c token attempt) }
    | _ => none
  | _ => none

def answer (servers : Servers) (gw : Gateway subjectOf) (t : TaskId) (a : Answer) :
    Option (Move subjectOf) :=
  match gw.call t with
  | .invoking c token attempt _ =>
    match a with
    | .done => some { call := some (t, .finished c) }
    | .timeout => some { call := some (t, retry servers c token attempt) }
    | .transportError =>
      some {
        pool := some (.disconnect t c.serverName)
        call := some (t, .recovering c token attempt) }
  | _ => none

def move (servers : Servers) (gw : Gateway subjectOf) :
    GatewayAction subjectOf → Option (Move subjectOf)
  | .callTool t c => if gw.free t then some (startCall servers t c) else none
  | .proceed t => gw.proceed servers t
  | .answer t a => gw.answer servers t a
  | .listTools t serverName =>
    if gw.free t then some { pool := some (.getSession t { serverName := serverName }) } else none
  | .disconnect t serverName =>
    if gw.free t then some { pool := some (.disconnect t serverName) } else none
  | .disconnectAll t => if gw.free t then some { pool := some (.disconnectAll t) } else none
  | .exchange (.exchange _ _) => none
  | .exchange a => some { obo := some a }
  | .pool a => if a.starts.isNone then some { pool := some a } else none

/-- What moves there are, each with what it relies on. -/
inductive Moves (servers : Servers) (gw : Gateway subjectOf) : Move subjectOf → Prop
  | finishes (t : TaskId) (c : ToolCall subjectOf) :
      Moves servers gw { call := some (t, .finished c) }
  | authorizes {t : TaskId} {c : ToolCall subjectOf} :
      tokenRequest (serverSettings servers.configs c.serverName) c.serverName c.caller.context =
        .ok none → Moves servers gw { call := some (t, .authorized c none 0) }
  | exchanges {t : TaskId} {c : ToolCall subjectOf} {r : ExchangeRequest} :
      tokenRequest (serverSettings servers.configs c.serverName) c.serverName c.caller.context =
        .ok (some r) →
        Moves servers gw { obo := some (.exchange t r), call := some (t, .exchanging c) }
  | exchanged {t : TaskId} {c : ToolCall subjectOf} {r : ExchangeRequest} {token : String} :
      gw.call t = .exchanging c → gw.obo.task t = .returned r token →
        Moves servers gw { call := some (t, .authorized c (some token) 0) }
  | connects {t : TaskId} {c : ToolCall subjectOf} {token : Option String} {attempt : ℕ} :
      gw.call t = .authorized c token attempt → Moves servers gw {
        pool := some (.getSession t (c.getSession token))
        call := some (t, .connecting c token attempt) }
  | invokes {t : TaskId} {c : ToolCall subjectOf} {token : Option String} {attempt : ℕ}
      {g : GetSession} {session : OwnerId} :
      gw.call t = .connecting c token attempt → gw.pool.task t = .returned g session →
        Moves servers gw {
          call := some (t, .invoking c token attempt session)
          invoked := some ⟨c, token, session⟩ }
  | recovers {t : TaskId} {c : ToolCall subjectOf} {token : Option String} (attempt : ℕ) :
      (gw.call t).authorized? = some (c, token) → Moves servers gw {
        pool := some (.disconnect t c.serverName)
        call := some (t, .recovering c token attempt) }
  | retries {t : TaskId} {c : ToolCall subjectOf} {token : Option String} (attempt : ℕ) :
      (gw.call t).authorized? = some (c, token) →
        Moves servers gw { call := some (t, .authorized c token attempt) }
  | begins {t : TaskId} {a : PoolAction} : gw.free t → a.starts = some t →
      (∀ g, a = .getSession t g → g.subjectId = none) → Moves servers gw { pool := some a }
  | pool {a : PoolAction} : a.starts = none → Moves servers gw { pool := some a }
  | obo {a : OBOAction} : (∀ t r, a ≠ .exchange t r) → Moves servers gw { obo := some a }

theorem moves_startCall (servers : Servers) (gw : Gateway subjectOf) (t : TaskId)
    (c : ToolCall subjectOf) : gw.Moves servers (startCall servers t c) := by
  unfold startCall
  split
  · exact .finishes t c
  · dsimp only
    split
    · exact .finishes t c
    · exact .authorizes ‹_›
    · exact .exchanges ‹_›

theorem moves_retry {servers : Servers} {gw : Gateway subjectOf} {t : TaskId}
    {c : ToolCall subjectOf} {token : Option String} (attempt : ℕ)
    (h : (gw.call t).authorized? = some (c, token)) :
    gw.Moves servers { call := some (t, retry servers c token attempt) } := by
  unfold retry
  split
  · split
    · exact .retries (attempt + 1) h
    · exact .finishes t c
  · exact .finishes t c

theorem moves_of_proceed {servers : Servers} {gw : Gateway subjectOf} {t : TaskId}
    {m : Move subjectOf} (h : gw.proceed servers t = some m) : gw.Moves servers m := by
  unfold proceed at h
  split at h
  case h_1 c hcall =>
    split at h <;> cases h
    · exact .exchanged hcall ‹_›
    · exact .finishes t c
  case h_2 c token attempt hcall =>
    cases h
    exact .connects hcall
  case h_3 c token attempt hcall =>
    split at h <;> cases h
    · exact .invokes hcall ‹_›
    · exact .recovers attempt (by rw [hcall]; rfl)
    · exact .finishes t c
  case h_4 c token attempt hcall =>
    split at h <;> cases h
    exact moves_retry attempt (by rw [hcall]; rfl)
  case h_5 => cases h

theorem moves_of_answer {servers : Servers} {gw : Gateway subjectOf} {t : TaskId} {a : Answer}
    {m : Move subjectOf} (h : gw.answer servers t a = some m) : gw.Moves servers m := by
  unfold answer at h
  split at h
  case h_1 c token attempt session hcall =>
    have hauthorized : (gw.call t).authorized? = some (c, token) := by
      rw [hcall]
      rfl
    cases a with
    | done =>
      cases h
      exact .finishes t c
    | timeout =>
      cases h
      exact moves_retry attempt hauthorized
    | transportError =>
      cases h
      exact .recovers attempt hauthorized
  case h_2 => cases h

theorem moves_of_move {servers : Servers} {gw : Gateway subjectOf} {a : GatewayAction subjectOf}
    {m : Move subjectOf} (h : gw.move servers a = some m) : gw.Moves servers m := by
  unfold move at h
  cases a with
  | callTool t c =>
    dsimp only at h
    split at h <;> cases h
    exact moves_startCall servers gw t c
  | proceed t => exact moves_of_proceed h
  | answer t a => exact moves_of_answer h
  | listTools t serverName =>
    dsimp only at h
    split at h <;> cases h
    refine .begins ‹_› rfl fun g hg => ?_
    obtain ⟨-, rfl⟩ := PoolAction.getSession.inj hg
    rfl
  | disconnect t serverName =>
    dsimp only at h
    split at h <;> cases h
    exact .begins ‹_› rfl nofun
  | disconnectAll t =>
    dsimp only at h
    split at h <;> cases h
    exact .begins ‹_› rfl nofun
  | exchange a =>
    cases a with
    | exchange t r => cases h
    | _ =>
      cases h
      exact .obo nofun
  | pool a =>
    dsimp only at h
    split at h <;> cases h
    exact .pool (Option.isNone_iff_eq_none.mp ‹_›)

/-- A step of a part that may also stand still. -/
def stepPart {σ α : Type} (step : σ → α → Option σ) (s : σ) : Option α → Option σ
  | none => some s
  | some a => step s a

theorem of_stepPart {σ α : Type} {step : σ → α → Option σ} {s s' : σ} {part : Option α}
    {P : σ → Prop} (h : stepPart step s part = some s') (hstill : P s)
    (hstep : ∀ a, part = some a → step s a = some s' → P s') : P s' := by
  cases part with
  | none =>
    obtain rfl : s = s' := Option.some.inj h
    exact hstill
  | some a => exact hstep a rfl h

def applyMove (servers : Servers) (cacheTtl : ℤ) (gw : Gateway subjectOf) (m : Move subjectOf) :
    Option (Gateway subjectOf) := do
  let pool ← stepPart (Pool.step servers.configs) gw.pool m.pool
  let obo ← stepPart (OBOClient.step cacheTtl) gw.obo m.obo
  return {
    pool := pool
    obo := obo
    call := match m.call with
      | none => gw.call
      | some (t, call) => Function.update gw.call t call
    invoked := m.invoked.toList ++ gw.invoked }

theorem applyMove_eq_some {servers : Servers} {cacheTtl : ℤ} {gw gw' : Gateway subjectOf}
    {m : Move subjectOf} (h : gw.applyMove servers cacheTtl m = some gw') :
    stepPart (Pool.step servers.configs) gw.pool m.pool = some gw'.pool ∧
      stepPart (OBOClient.step cacheTtl) gw.obo m.obo = some gw'.obo ∧
      (∀ t call, m.call = some (t, call) → gw'.call t = call) ∧
      (∀ t, (∀ call, m.call ≠ some (t, call)) → gw'.call t = gw.call t) ∧
      gw'.invoked = m.invoked.toList ++ gw.invoked := by
  obtain ⟨pool, hpool, h⟩ := Option.bind_eq_some_iff.mp h
  obtain ⟨obo, hobo, h⟩ := Option.bind_eq_some_iff.mp h
  obtain rfl := Option.some.inj h
  refine ⟨hpool, hobo, fun t call hcall => ?_, fun t hcall => ?_, rfl⟩
  · simp [hcall]
  · cases hmove : m.call with
    | none => simp
    | some moved =>
      have hne : t ≠ moved.1 := by
        rintro rfl
        exact hcall moved.2 hmove
      simp [Function.update_of_ne hne]

def step (servers : Servers) (cacheTtl : ℤ) (gw : Gateway subjectOf)
    (a : GatewayAction subjectOf) : Option (Gateway subjectOf) :=
  (gw.move servers a).bind (gw.applyMove servers cacheTtl)

end Gateway

end McpZero
