import McpZero.Gateway.FreshRetries
import McpZero.Proxy.Exits

/-! What the retry loop of `_call_tool` promises, for every sequence of outcomes: at most one
attempt more than there are retries, the first result, and `UpstreamError` at the end. -/
namespace McpZero.Proxy
open Identity Lib Pipeline Transport

def CallEvent.isCallTool {S C : Type} : CallEvent S C → Bool
  | .callTool _ _ _ => true
  | _ => false

/-- The events of an attempt before its outcome. -/
def CallEvent.ofAttempt {S C : Type} : CallEvent S C → Bool
  | .getSession _ _ _ => true
  | .callTool _ _ _ => true
  | _ => false

/-- The exceptions that the loop goes on after. -/
def Retried : Exc → Prop
  | .timeout _ => True
  | .transportConnection _ => True
  | .transportTimeout _ => True
  | _ => False

namespace ProxyServer

variable {σ S C : Type} (P : ProxyServer σ S C) (pre : HookContext) (server tool : String)
  (config : ServerConfig) (arguments : Option Python.Dict) (token : Option String)

/-- The loop of one call. -/
def loop (s : σ) : CallRun σ S C :=
  P.attempts pre server tool config arguments token (config.maxRetries + 1) 0 none s

/-- `AttemptsTo … s k events last t`: the first `k` attempts have failed and were recovered from
and waited after, which took these events. The next attempt begins in the state `t`. -/
inductive AttemptsTo (s : σ) : ℕ → List (CallEvent S C) → Option Exc → σ → Prop
  | start : AttemptsTo s 0 [] none s
  | again {k : ℕ} {events made waits : List (CallEvent S C)} {last : Option Exc} {e e' : Exc}
      {t u v : σ} : AttemptsTo s k events last t →
      (P.attempt pre server tool arguments token t).result = .error e →
      P.recover server config pre.request.correlationId e
        (P.attempt pre server tool arguments token t).state = (.ok e', made, u) →
      P.backOff config k u = (.ok (), waits, v) →
      AttemptsTo s (k + 1)
        (events ++ ((P.attempt pre server tool arguments token t).events ++ made ++ waits))
        (some e') v

/-- The attempt number `k` in the state `t` fails so that it is retried, and the `disconnect` and
the wait after it return. -/
def FailsInto (k : ℕ) (t : σ) : Prop :=
  ∃ e e' made u, (P.attempt pre server tool arguments token t).result = .error e ∧ Retried e ∧
    P.recover server config pre.request.correlationId e
      (P.attempt pre server tool arguments token t).state = (.ok e', made, u) ∧
    (k < config.maxRetries → ∀ delay, retryDelay config k = .ok delay →
      ∃ v, P.collaborators.sleep delay u = (.ok (), v))

/-- Every attempt fails with a timeout or with an error of the transport. -/
def EveryAttemptFails (s : σ) : Prop :=
  ∀ k events last t, P.AttemptsTo pre server tool config arguments token s k events last t →
    k ≤ config.maxRetries → P.FailsInto pre server tool config arguments token k t

/-- The promises of the loop. -/
structure RetryLaw (s : σ) : Prop where
  bounded : (P.loop pre server tool config arguments token s).events.countP (·.isCallTool) ≤
    config.maxRetries + 1
  firstResult (k : ℕ) (events : List (CallEvent S C)) (last : Option Exc) (t : σ) (session : S)
      (u : σ) (r : CallToolResult C) (v : σ) :
    P.AttemptsTo pre server tool config arguments token s k events last t →
    k ≤ config.maxRetries →
    P.collaborators.getSession server pre.request token t = (.ok session, u) →
    P.collaborators.callTool session tool arguments u = (.ok r, v) →
    P.loop pre server tool config arguments token s =
      (P.finish pre r v).after (events ++ [.getSession server pre.request token,
        .callTool session tool arguments, .upstreamResult r])
  otherError (k : ℕ) (events : List (CallEvent S C)) (last : Option Exc) (t : σ) (e : Exc) :
    P.AttemptsTo pre server tool config arguments token s k events last t →
    k ≤ config.maxRetries →
    (P.attempt pre server tool arguments token t).result = .error e → ¬ Retried e →
    P.loop pre server tool config arguments token s =
      (P.attempt pre server tool arguments token t).after events
  exhausted : P.EveryAttemptFails pre server tool config arguments token s →
    ∃ m, (P.loop pre server tool config arguments token s).result =
      .error (.upstream m server pre.request.correlationId)

variable {P pre server tool config arguments token}

theorem recover_of_not_retried {correlationId : String} {e : Exc} (h : ¬ Retried e) (s : σ) :
    P.recover server config correlationId e s = (.error e, [], s) := by
  cases e with
  | timeout m => exact absurd trivial h
  | transportConnection m => exact absurd trivial h
  | transportTimeout m => exact absurd trivial h
  | _ => rfl

/-- The loop as it goes on after its first `k` attempts. -/
theorem loop_of_attemptsTo {s t : σ} {k : ℕ} {events : List (CallEvent S C)} {last : Option Exc}
    (h : P.AttemptsTo pre server tool config arguments token s k events last t)
    (hk : k ≤ config.maxRetries + 1) :
    P.loop pre server tool config arguments token s =
      (P.attempts pre server tool config arguments token (config.maxRetries + 1 - k) k last t).after
        events := by
  induction h with
  | start => simp [loop, CallRun.after]
  | @again k events made waits last e e' t u v _ hattempt hrecover hwait ih =>
    have hleft : config.maxRetries + 1 - k = config.maxRetries + 1 - (k + 1) + 1 := by omega
    rw [ih (by omega), hleft, attempts, hattempt]
    simp only [hrecover, hwait, CallRun.after, List.append_assoc]

theorem attempts_after_final {k : ℕ} {last : Option Exc} {t : σ} (hk : k ≤ config.maxRetries)
    (hfinal : ∀ e, (P.attempt pre server tool arguments token t).result = .error e → ¬ Retried e) :
    P.attempts pre server tool config arguments token (config.maxRetries + 1 - k) k last t =
      P.attempt pre server tool arguments token t := by
  have hleft : config.maxRetries + 1 - k = config.maxRetries - k + 1 := by omega
  rw [hleft, attempts]
  rcases hrun : P.attempt pre server tool arguments token t with ⟨e | content, events, u⟩
  · rw [hrun] at hfinal
    simp only [recover_of_not_retried (hfinal e rfl), List.append_nil]
  · rfl

theorem attempt_countP (t : σ) :
    (P.attempt pre server tool arguments token t).events.countP (·.isCallTool) ≤ 1 := by
  unfold attempt
  rcases P.collaborators.getSession server pre.request token t with ⟨e | session, u⟩
  · simp [CallEvent.isCallTool]
  · dsimp only
    rcases P.collaborators.callTool session tool arguments u with ⟨e | r, v⟩
    · simp [CallEvent.isCallTool]
    · have hfinish : (P.finish pre r v).events.countP (·.isCallTool) = 0 := by
        rw [List.countP_eq_zero]
        intro e he
        obtain ⟨post, rfl⟩ := P.finish_events pre r v e he
        exact Bool.false_ne_true
      rw [CallRun.after_events, List.countP_append, hfinish]
      simp [CallEvent.isCallTool]

/-- No more tool calls than attempts. -/
theorem attempts_countP (remaining index : ℕ) (last : Option Exc) (t : σ) :
    (P.attempts pre server tool config arguments token remaining index last t).events.countP
      (·.isCallTool) ≤ remaining := by
  induction remaining generalizing index last t with
  | zero => simp [attempts]
  | succ remaining ih =>
    have hattempt : (P.attempt pre server tool arguments token t).events.countP
        (·.isCallTool) ≤ 1 := attempt_countP t
    rw [attempts]
    rcases hrun : P.attempt pre server tool arguments token t with ⟨e | content, events, u⟩
    · rw [hrun] at hattempt
      have hrecover : (P.recover server config pre.request.correlationId e u).2.1.countP
          (·.isCallTool) = 0 := by
        rw [List.countP_eq_zero]
        intro ev hev
        rw [P.recover_events server config _ e u ev hev]
        exact Bool.false_ne_true
      dsimp only at hattempt ⊢
      rcases hrec : P.recover server config pre.request.correlationId e u with ⟨e' | e', made, v⟩
      · rw [hrec] at hrecover
        simp only [List.countP_append, hrecover]
        omega
      · rw [hrec] at hrecover
        have hwait : (P.backOff config index v).2.1.countP (·.isCallTool) = 0 := by
          rw [List.countP_eq_zero]
          intro ev hev
          obtain ⟨seconds, rfl⟩ := P.backOff_events config index v ev hev
          exact Bool.false_ne_true
        dsimp only at hrecover ⊢
        rcases hback : P.backOff config index v with ⟨e'' | _, waits, w⟩
        all_goals rw [hback] at hwait
        · simp only [List.countP_append, hrecover, hwait]
          omega
        · have hrest := ih (index + 1) (some e') w
          simp only [CallRun.after_events, List.countP_append, hrecover, hwait]
          omega
    · rw [hrun] at hattempt
      dsimp only at hattempt ⊢
      omega

/-- When every attempt fails, each of them is made that the delays allow. -/
theorem attemptsTo_of_everyAttemptFails {s : σ}
    (h : P.EveryAttemptFails pre server tool config arguments token s) {k : ℕ}
    (hk : k ≤ config.maxRetries) (hdelay : k ≤ 1024) :
    ∃ events last t, P.AttemptsTo pre server tool config arguments token s k events last t := by
  induction k with
  | zero => exact ⟨[], none, s, .start⟩
  | succ k ih =>
    obtain ⟨events, last, t, hto⟩ := ih (by omega) (by omega)
    obtain ⟨e, e', made, u, hattempt, -, hrecover, hwait⟩ := h k events last t hto (by omega)
    have hlt : k < 1024 := by omega
    have hretry : k < config.maxRetries := by omega
    have hsome : retryDelay config k = .ok (config.retryDelaySeconds * 2 ^ k) := if_pos hlt
    obtain ⟨v, hsleep⟩ := hwait hretry _ hsome
    have hback : P.backOff config k u =
        (.ok (), [.sleep (config.retryDelaySeconds * 2 ^ k)], v) := by
      simp only [backOff, hretry, if_true, hsome, hsleep]
    exact ⟨_, _, _, .again hto hattempt hrecover hback⟩

/-- The last attempt of a loop in which every attempt fails. -/
theorem loop_of_everyAttemptFails {s : σ}
    (h : P.EveryAttemptFails pre server tool config arguments token s) :
    (config.maxRetries ≤ 1024 → ∃ m, (P.loop pre server tool config arguments token s).result =
      .error (.upstream m server pre.request.correlationId)) ∧
    (1024 < config.maxRetries → (P.loop pre server tool config arguments token s).result =
      .error (.other "OverflowError" "int too large to convert to float")) := by
  constructor
  · intro hmax
    obtain ⟨events, last, t, hto⟩ := attemptsTo_of_everyAttemptFails h le_rfl hmax
    obtain ⟨e, e', made, u, hattempt, -, hrecover, -⟩ := h _ events last t hto le_rfl
    have hback : P.backOff config config.maxRetries u = (.ok (), [], u) := by
      simp [backOff]
    have hend := AttemptsTo.again hto hattempt hrecover hback
    rw [loop_of_attemptsTo hend le_rfl, Nat.sub_self]
    exact ⟨_, rfl⟩
  · intro hmax
    obtain ⟨events, last, t, hto⟩ := attemptsTo_of_everyAttemptFails h hmax.le le_rfl
    obtain ⟨e, e', made, u, hattempt, -, hrecover, -⟩ := h 1024 events last t hto hmax.le
    have hnone : retryDelay config 1024 =
        .error (.other "OverflowError" "int too large to convert to float") := rfl
    have hback : P.backOff config 1024 u =
        (.error (.other "OverflowError" "int too large to convert to float"), [], u) := by
      simp only [backOff, hmax, if_true, hnone]
    have hleft : config.maxRetries + 1 - 1024 = config.maxRetries - 1024 + 1 := by omega
    rw [loop_of_attemptsTo hto (by omega), hleft, attempts, hattempt]
    simp only [hrecover, hback, CallRun.after_result]

/-- The loop keeps its promises unless all attempts up to the 1025th fail and there are more. -/
theorem retryLaw_iff_delays {s : σ} :
    P.RetryLaw pre server tool config arguments token s ↔
      config.maxRetries ≤ 1024 ∨
        ¬ P.EveryAttemptFails pre server tool config arguments token s := by
  constructor
  · intro hlaw
    by_contra hnone
    rw [not_or, not_le, not_not] at hnone
    obtain ⟨m, hupstream⟩ := hlaw.exhausted hnone.2
    rw [(loop_of_everyAttemptFails hnone.2).2 hnone.1] at hupstream
    cases hupstream
  · intro hcond
    refine ⟨attempts_countP _ _ _ _, ?_, ?_, fun hfails => ?_⟩
    · intro k events last t session u r v hto hk hsession hcall
      have hattempt : P.attempt pre server tool arguments token t = (P.finish pre r v).after
          [.getSession server pre.request token, .callTool session tool arguments,
            .upstreamResult r] := by
        simp only [attempt, hsession, hcall]
        rfl
      have hfinal : ∀ e, (P.attempt pre server tool arguments token t).result = .error e →
          ¬ Retried e := by
        intro e he
        rw [hattempt] at he
        obtain ⟨type, m, rfl⟩ := finish_error he
        exact id
      rw [loop_of_attemptsTo hto (by omega), attempts_after_final hk hfinal, hattempt]
      simp [CallRun.after]
    · intro k events last t e hto hk he hnot
      have hfinal : ∀ e, (P.attempt pre server tool arguments token t).result = .error e →
          ¬ Retried e := by
        intro e' he'
        rw [he] at he'
        cases he'
        exact hnot
      rw [loop_of_attemptsTo hto (by omega), attempts_after_final hk hfinal]
    · exact (loop_of_everyAttemptFails hfails).1 (hcond.resolve_right fun h => h hfails)

variable (P) in
/-- A call makes no attempt, or its attempts are one loop with the configuration of its server. -/
theorem callTool_loop (req : Request) (s : σ) :
    (P.callTool req s).events.countP (·.ofAttempt) = 0 ∨
      ∃ server tool config pre token before t, P.route req.name = .ok (server, tool, config) ∧
        before.countP (·.ofAttempt) = 0 ∧
        P.callTool req s = (P.loop pre server tool config req.arguments token t).after before := by
  have hforward : ∀ pre server tool config t,
      (P.forward pre server tool config req.arguments t).events.countP (·.ofAttempt) = 0 ∨
        ∃ token u, P.forward pre server tool config req.arguments t =
          (P.loop pre server tool config req.arguments token u).after
            [.getToken server pre.request] := by
    intro pre server tool config t
    unfold forward
    split
    · exact .inl rfl
    · exact .inl rfl
    · exact .inr ⟨_, _, rfl⟩
  unfold callTool
  rcases P.route req.name with e | ⟨server, tool, config⟩
  · exact .inl rfl
  · dsimp only
    cases P.pipeline with
    | none =>
      refine (hforward _ server tool config s).imp_right fun h => ?_
      obtain ⟨token, u, hrun⟩ := h
      exact ⟨server, tool, config, _, token, _, u, rfl, rfl, hrun⟩
    | some hooks =>
      rcases hexec : execute hooks (initialContext req server tool config) s with ⟨pre, t⟩
      simp only [hexec]
      split_ifs
      · exact .inl rfl
      · rcases hforward pre.context server tool config t with h | ⟨token, u, hrun⟩
        · refine .inl ?_
          rw [CallRun.after_events, List.countP_append, h]
          rfl
        · refine .inr ⟨server, tool, config, pre.context, token,
            [.preRun pre, .getToken server pre.context.request], u, rfl, rfl, ?_⟩
          rw [hrun]
          rfl

end ProxyServer

/-- In every run of the gateway an attempt works on a transport that was created after every
earlier transport error of its call. -/
def RenewsTransports (subjectOf : String → Option String) (servers : Servers) (cacheTtl : ℤ) :
    Prop :=
  ∀ (as bs : List (GatewayAction subjectOf)) (gw gw₁ gw₂ : Gateway subjectOf) (t : TaskId)
    (a : GatewayAction subjectOf) (tr : TransportId),
    run (Gateway.step servers cacheTtl) {} as = some gw → gw.FailsOnTransport t a →
    gw.step servers cacheTtl a = some gw₁ →
    RunsFrom (Gateway.step servers cacheTtl) (fun gw => (gw.call t).running) gw₁ bs gw₂ →
    gw₂.attemptsOn t = some tr → gw.pool.nextTransport ≤ tr

namespace ProxyServer

variable {σ S C : Type}

/-- The retry loop of `_call_tool`: its calls, its first result, its other errors and its end,
and the transports of its attempts among all other tasks. -/
theorem retryLoop (P : ProxyServer σ S C) :
    (∀ req s, (P.callTool req s).events.countP (·.ofAttempt) = 0 ∨
      ∃ server tool config pre token before t, P.route req.name = .ok (server, tool, config) ∧
        before.countP (·.ofAttempt) = 0 ∧
        P.callTool req s = (P.loop pre server tool config req.arguments token t).after before) ∧
    (∀ pre server tool config arguments token s,
      P.RetryLaw pre server tool config arguments token s ↔
        config.maxRetries ≤ 1024 ∨
          ¬ P.EveryAttemptFails pre server tool config arguments token s) ∧
    ∀ subjectOf servers cacheTtl, RenewsTransports subjectOf servers cacheTtl :=
  ⟨P.callTool_loop, fun _ _ _ _ _ _ _ => retryLaw_iff_delays,
    fun _ _ _ _ _ _ _ _ _ _ _ hrun hfails hst hrest htr =>
      Gateway.attemptsOn_of_failsOnTransport hrun hfails hst hrest htr⟩

/-- A proxy whose server never answers in time. -/
def silentProxy : ProxyServer Unit Unit String :=
  (textProxy []).deployed { (Collaborators.answering () : Collaborators Unit Unit String) with
    callTool := fun _ _ _ s => (.error (.timeout "timed out"), s) }

def patientConfig : ServerConfig where
  name := .str "db"
  transport := .http
  maxRetries := 1025
  retryDelaySeconds := 0

theorem silentProxy_everyAttemptFails (pre : HookContext) :
    silentProxy.EveryAttemptFails pre "db" "query" patientConfig none none () := by
  intro k events last t _ _
  exact ⟨.timeout "timed out", _, [], (), rfl, trivial, rfl, fun _ _ _ => ⟨(), rfl⟩⟩

/-- After the 1025th timeout the delay overflows, and the call does not end with an
`UpstreamError`. -/
theorem silentProxy_overflows :
    silentProxy.EveryAttemptFails { request := { correlationId := "c1" } } "db" "query"
        patientConfig none none () ∧
      (silentProxy.loop { request := { correlationId := "c1" } } "db" "query" patientConfig none
        none ()).result = .error (.other "OverflowError" "int too large to convert to float") ∧
      ¬ silentProxy.RetryLaw { request := { correlationId := "c1" } } "db" "query" patientConfig
        none none () := by
  have hfails := silentProxy_everyAttemptFails { request := { correlationId := "c1" } }
  refine ⟨hfails, (loop_of_everyAttemptFails hfails).2 (by decide), ?_⟩
  rw [retryLaw_iff_delays, not_or, not_not]
  exact ⟨by decide, hfails⟩

end ProxyServer

end McpZero.Proxy
