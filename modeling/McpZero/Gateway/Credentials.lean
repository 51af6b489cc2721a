import McpZero.Gateway.Isolation
import McpZero.Transport.Credentials

/-! Credentials of a call: a connection sends the token that opened it, for as long as it
lives, also after that token has expired and the calls of its user get another one. -/
namespace McpZero
open Identity Lib Proxy Transport

namespace Gateway

variable {subjectOf : String → Option String} {servers : Servers} {cacheTtl : ℤ}
  {gw gw' : Gateway subjectOf}

/-- The promise to a call to a server that exchanges tokens: the connection sends the token
that `get_token` returned for this call. -/
def SentWithOwnToken (servers : Servers) (gw : Gateway subjectOf) (i : Invocation subjectOf) :
    Prop :=
  ∀ config, getConfig servers.configs i.call.serverName = .ok config → config.tokenExchange →
    ∃ token, i.token = some token ∧
      authorization (gw.pool.transport (gw.pool.owner i.session).transport).config
        (gw.pool.owner i.session).request = some ("Bearer " ++ token)

/-- The tokens agree in the step of the pool that an action brings about, if it does. -/
def TokensAgree (servers : Servers) (gw : Gateway subjectOf) (a : GatewayAction subjectOf) :
    Prop :=
  ∀ m pa, gw.move servers a = some m → m.pool = some pa →
    gw.pool.TokensAgree servers.configs pa

/-- Calls are backed, and go out on sessions that were opened with their tokens. -/
structure Credited (servers : Servers) (gw : Gateway subjectOf) : Prop where
  backed : gw.Backed servers
  pool : gw.pool.Credited
  invoked (i : Invocation subjectOf) : i ∈ gw.invoked →
    (gw.pool.owner i.session).request.authToken = i.token

theorem Credited.sentWithOwnToken (h : gw.Credited servers) {i : Invocation subjectOf}
    (hi : i ∈ gw.invoked) : SentWithOwnToken servers gw i := by
  intro config hconfig hexchange
  have hserver := (h.backed.sentAsCaller hi).server
  obtain rfl := Except.ok.inj (hconfig.symm.trans hserver)
  obtain ⟨htoken, -, -⟩ := h.backed.invoked i hi
  obtain ⟨u, token, -, hi', hne, -⟩ := htoken _ hconfig hexchange
  obtain ⟨hremote, -⟩ := servers.checked _ (mem_of_getConfig hconfig) hexchange
  exact ⟨token, hi', authorization_eq hremote ((h.invoked i hi).trans hi') hne⟩

/-- A call that is about to go out does so on a session that was opened with its token. -/
theorem Credited.invokes (h : gw.Credited servers) {m : Move subjectOf}
    (hm : gw.Moves servers m) {i : Invocation subjectOf} (hi : m.invoked = some i) :
    (gw.pool.owner i.session).request.authToken = i.token := by
  cases hm with
  | @invokes t c token attempt g session hcall hreturned =>
    cases hi
    have hbacked := h.backed.call t
    rw [hcall] at hbacked
    obtain ⟨-, htask⟩ := hbacked
    rw [hreturned] at htask
    obtain rfl : g = c.getSession token := Option.some.inj htask
    exact h.pool t _ session hreturned
  | _ => cases hi

theorem Credited.applyMove (h : gw.Credited servers) {m : Move subjectOf}
    (hm : gw.Moves servers m)
    (hagree : ∀ a, m.pool = some a → gw.pool.TokensAgree servers.configs a)
    (hst : gw.applyMove servers cacheTtl m = some gw') : gw'.Credited servers := by
  have hsound := h.backed.sound hm
  obtain ⟨hpool, -, -, -, hinvoked⟩ := applyMove_eq_some hst
  have hext : gw.pool.Extends gw'.pool :=
    of_stepPart (P := fun s => gw.pool.Extends s) hpool .refl
      fun a _ hst => Pool.extends_of_step hst
  refine ⟨h.backed.applyMove hsound hst, ?_, fun i hi => ?_⟩
  · exact of_stepPart hpool h.pool fun a ha hst => h.pool.step h.backed.pool (hagree a ha) hst
  · rw [hinvoked] at hi
    rcases List.mem_append.mp hi with hnew | hold
    · have hnew := Option.mem_toList.mp hnew
      rw [(hext.owner i.session (hsound.invoked i hnew).2.1).2]
      exact h.invokes hm hnew
    · rw [(hext.owner i.session (h.backed.invoked i hold).2.1).2]
      exact h.invoked i hold

theorem Credited.step (h : gw.Credited servers) {a : GatewayAction subjectOf}
    (hagree : gw.TokensAgree servers a) (hst : gw.step servers cacheTtl a = some gw') :
    gw'.Credited servers := by
  obtain ⟨m, hmove, hst⟩ := Option.bind_eq_some_iff.mp hst
  exact h.applyMove (moves_of_move hmove) (fun pa hpa => hagree m pa hmove hpa) hst

theorem credited_empty : ({} : Gateway subjectOf).Credited servers where
  backed := backed_empty
  pool := Pool.credited_empty
  invoked _ hi := absurd hi List.not_mem_nil

/-- In a run in which the tokens agree, every call to a server that exchanges tokens is sent
with its own. -/
theorem sentWithOwnToken_of_tokensAgree (subjectOf : String → Option String) (servers : Servers)
    (cacheTtl : ℤ) (as : List (GatewayAction subjectOf))
    (h : EachStep (step servers cacheTtl) (fun gw a _ => gw.TokensAgree servers a) {} as) :
    EachStep (step servers cacheTtl)
      (fun _ _ gw => ∀ i ∈ gw.invoked, SentWithOwnToken servers gw i) {} as := by
  refine h.rule (I := Credited servers) credited_empty fun gw a gw' hc hst hagree => ?_
  have hc' : gw'.Credited servers := hc.step hagree hst
  exact ⟨hc', fun i hi => hc'.sentWithOwnToken hi⟩

theorem tokensAgree_of_move {a : GatewayAction subjectOf} {m : Move subjectOf}
    (hmove : gw.move servers a = some m)
    (hpool : ∀ pa, m.pool = some pa → gw.pool.TokensAgree servers.configs pa) :
    gw.TokensAgree servers a := by
  intro m' pa hmove' hpa
  obtain rfl : m = m' := Option.some.inj (hmove.symm.trans hmove')
  exact hpool pa hpa

def searchServers : Servers where
  configs := [{
    name := .str "search", transport := .http, tokenExchange := true
    targetAudience := some "api://search", requiredScopes := ["read"] }]
  checked config h := by
    obtain rfl := List.mem_singleton.mp h
    exact fun _ => ⟨nofun, by decide⟩

def subjectOfJwt (token : String) : Option String := if token = "jwt" then some "alice" else none

def aliceCall : ToolCall subjectOfJwt where
  serverName := "search"
  caller := {
    context := {
      correlationId := "1", identity := some { userId := "alice" }, rawToken := some "jwt" }
    sameToken := by
      intro identity token hidentity htoken
      cases hidentity
      cases htoken
      rfl }

/-- The endpoint grants a token for an hour. -/
def granted (token : String) : TokenResponse :=
  .response 200 "" (.ok { accessToken := some token })

/-- A first call, which connects and goes out. -/
def firstSend : List (GatewayAction subjectOfJwt) :=
  [.callTool 0 aliceCall, .exchange (.respond 0 (granted "first")), .proceed 0, .proceed 0,
    .pool (.ownerConnects 0), .pool (.resume 0), .proceed 0]

/-- It times out, and goes out again on the same connection. -/
def sentAgain : List (GatewayAction subjectOfJwt) :=
  firstSend ++ [.answer 0 .timeout, .proceed 0, .proceed 0]

theorem sentAgain_sentWithOwnToken :
    EachStep (step searchServers 300)
      (fun _ _ gw => ∀ i ∈ gw.invoked, SentWithOwnToken searchServers gw i) {} sentAgain := by
  refine sentWithOwnToken_of_tokensAgree subjectOfJwt searchServers 300 sentAgain ?_
  refine (eachStep_cons rfl).mpr ⟨tokensAgree_of_move rfl nofun, ?_⟩
  refine (eachStep_cons rfl).mpr ⟨tokensAgree_of_move rfl nofun, ?_⟩
  refine (eachStep_cons rfl).mpr ⟨tokensAgree_of_move rfl nofun, ?_⟩
  -- the first `get_session` finds no transport
  refine (eachStep_cons rfl).mpr ⟨tokensAgree_of_move rfl fun pa hpa => ?_, ?_⟩
  · cases hpa
    refine ⟨?_, ?_⟩
    · exact fun _ _ _ _ _ hfind => nomatch hfind
    · exact fun _ _ _ _ _ _ h => nomatch h
  refine (eachStep_cons rfl).mpr ⟨tokensAgree_of_move rfl fun pa hpa => ?_, ?_⟩
  · cases hpa
    exact Pool.tokensAgree_of_owner rfl
  -- after its connect it finds its own session
  refine (eachStep_cons rfl).mpr ⟨tokensAgree_of_move rfl fun pa hpa => ?_, ?_⟩
  · cases hpa
    refine ⟨?_, fun t g l tr o o' ht htask _ _ hactive hne => ?_⟩
    · exact fun _ _ _ _ h => nomatch h
    · cases ht
      cases htask
      cases hactive
      exact absurd rfl hne
  refine (eachStep_cons rfl).mpr ⟨tokensAgree_of_move rfl nofun, ?_⟩
  refine (eachStep_cons rfl).mpr ⟨tokensAgree_of_move rfl nofun, ?_⟩
  -- the second one finds the connection that the same token has opened
  refine (eachStep_cons rfl).mpr ⟨tokensAgree_of_move rfl fun pa hpa => ?_, ?_⟩
  · cases hpa
    refine ⟨fun t g tr o hentering hfind hactive => ?_, ?_⟩
    · cases hentering
      cases hfind
      cases hactive
      rfl
    · exact fun _ _ _ _ _ _ h => nomatch h
  refine (eachStep_cons rfl).mpr ⟨tokensAgree_of_move rfl nofun, ?_⟩
  trivial

/-- The call ends, its token comes near its expiry, and the user calls again. -/
def pastExpiry : List (GatewayAction subjectOfJwt) :=
  firstSend ++ [.answer 0 .done, .exchange (.tick 3400), .callTool 1 aliceCall,
    .exchange (.respond 1 (granted "second")), .proceed 1, .proceed 1] ++ [.proceed 1]

/-- What the calls were sent with: the name of the server, the token of the call and the
header of the connection. -/
def sentHeaders (gw : Gateway subjectOfJwt) : List (String × Option String × Option String) :=
  gw.invoked.map fun i => (i.call.serverName, i.token,
    authorization (gw.pool.transport (gw.pool.owner i.session).transport).config
      (gw.pool.owner i.session).request)

/-- The exchanged tokens, and whether the client takes them for expired. -/
def exchangedTokens (cacheTtl : ℤ) (gw : Gateway subjectOfJwt) : List (String × Bool) :=
  gw.obo.exchanged.map fun e => (e.token.accessToken, e.token.isExpired gw.obo.now cacheTtl)

theorem pastExpiry_not_sentWithOwnToken :
    ¬ EachStep (step searchServers 300)
        (fun _ _ gw => ∀ i ∈ gw.invoked, SentWithOwnToken searchServers gw i) {} pastExpiry ∧
      ∃ gw, run (step searchServers 300) {} pastExpiry = some gw ∧
        sentHeaders gw = [("search", some "second", some "Bearer first"),
          ("search", some "first", some "Bearer first")] ∧
        exchangedTokens 300 gw = [("second", false), ("first", true)] := by
  have hruns : (run (step searchServers 300) {} pastExpiry).map
      (fun gw => (sentHeaders gw, exchangedTokens 300 gw)) =
        some ([("search", some "second", some "Bearer first"),
          ("search", some "first", some "Bearer first")], [("second", false), ("first", true)]) := by
    decide +kernel
  obtain ⟨gw, hrun, hgw⟩ := Option.map_eq_some_iff.mp hruns
  obtain ⟨hsent, hexchanged⟩ := Prod.mk.inj hgw
  refine ⟨fun h => ?_, gw, hrun, hsent, hexchanged⟩
  have hown : ∀ i ∈ gw.invoked, SentWithOwnToken searchServers gw i := h.last hrun
  have hmem : ("search", some "second", some "Bearer first") ∈ sentHeaders gw := by
    rw [hsent]
    exact List.mem_cons_self
  obtain ⟨i, hi, heq⟩ := List.mem_map.mp hmem
  obtain ⟨hserver, htoken, hheader⟩ : i.call.serverName = "search" ∧ i.token = some "second" ∧
      authorization (gw.pool.transport (gw.pool.owner i.session).transport).config
        (gw.pool.owner i.session).request = some "Bearer first" := by
    simpa using heq
  obtain ⟨token, htoken', hheader'⟩ := hown i hi _ (by rw [hserver]; rfl) rfl
  obtain rfl : "second" = token := Option.some.inj (htoken.symm.trans htoken')
  exact absurd (hheader.symm.trans hheader') (by decide)

end Gateway

end McpZero
