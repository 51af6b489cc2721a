import McpZero.Context
import McpZero.Identity.Obo
import McpZero.Transport.Config

/-! `OBOAuthProvider`: which calls exchange a token, and for whom. -/
namespace McpZero.Proxy
open Identity Transport

structure ServerOBOSettings where
  enabled : Bool
  targetAudience : String
  scopes : List String

/-- The settings that `_build_obo_provider` derives from the configurations: of two for one
server the later is kept. -/
def serverSettings (configs : List ServerConfig) (serverName : String) :
    Option ServerOBOSettings :=
  (configs.reverse.find? fun c =>
      c.name == .str serverName && (c.tokenExchange && c.targetAudience.getD "" != "")).map
    fun c => ⟨true, c.targetAudience.getD "", c.requiredScopes⟩

/-- `get_token` up to the exchange: no token, the request to exchange, or a refusal. -/
def tokenRequest (settings : Option ServerOBOSettings) (serverName : String)
    (context : RequestContext) : Except Exc (Option ExchangeRequest) :=
  match settings with
  | none => .ok none
  | some settings =>
    if !settings.enabled then .ok none
    else if context.rawToken.getD "" = "" then
      .error (.tokenExchange ("OBO exchange required for server '" ++ serverName ++
        "' but no authenticated token available (identity pipeline may be disabled or " ++
        "misconfigured)") settings.targetAudience)
    else
      match context.identity with
      | none =>
        .error (.tokenExchange ("OBO exchange required for server '" ++ serverName ++
          "' but no authenticated identity available (identity pipeline may be disabled or " ++
          "misconfigured)") settings.targetAudience)
      | some identity =>
        .ok (some {
          subjectToken := context.rawToken.getD ""
          subjectId := identity.userId
          targetAudience := settings.targetAudience
          scopes := settings.scopes })

/-- The first item that passes one test is the first that passes two, if it passes both. -/
private theorem find?_and {α : Type} {p q : α → Bool} {items : List α} {a : α}
    (h : items.find? p = some a) (hq : q a) : items.find? (fun x => p x && q x) = some a := by
  induction items with
  | nil => cases h
  | cons b rest ih =>
    by_cases hb : p b
    · obtain rfl : b = a := by simpa [List.find?_cons, hb] using h
      simp [hb, hq]
    · simp only [List.find?_cons, hb] at h
      simp [hb, ih h]

/-- A server that exchanges tokens has settings with its own audience and scopes. -/
theorem serverSettings_of_tokenExchange {configs : List ServerConfig} {serverName : String}
    {config : ServerConfig} (hconfig : getConfig configs serverName = .ok config)
    (hexchange : config.tokenExchange) (haudience : config.targetAudience.getD "" ≠ "") :
    serverSettings configs serverName =
      some ⟨true, config.targetAudience.getD "", config.requiredScopes⟩ := by
  unfold getConfig at hconfig
  split at hconfig
  case h_1 c hfind =>
    obtain rfl : c = config := Except.ok.inj hconfig
    unfold serverSettings
    rw [find?_and hfind (by simp [hexchange, haudience])]
    rfl
  case h_2 => cases hconfig

/-- The request of a token names the subject and carries the token of the context. -/
theorem tokenRequest_eq_some {settings : ServerOBOSettings} {serverName : String}
    {context : RequestContext} {r : ExchangeRequest}
    (h : tokenRequest (some settings) serverName context = .ok (some r)) :
    ∃ identity token, context.identity = some identity ∧ context.rawToken = some token ∧
      r = ⟨token, identity.userId, settings.targetAudience, settings.scopes⟩ := by
  unfold tokenRequest at h
  dsimp only at h
  split at h
  · cases h
  · split at h
    · cases h
    · rename_i hraw
      cases htoken : context.rawToken with
      | none => simp [htoken] at hraw
      | some token =>
        split at h
        · cases h
        · rename_i identity hidentity
          refine ⟨identity, token, hidentity, rfl, ?_⟩
          obtain rfl := Option.some.inj (Except.ok.inj h)
          simp [htoken]

/-- Where a token is exchanged, a call never goes on without one. -/
theorem tokenRequest_ne_none {settings : ServerOBOSettings} {serverName : String}
    {context : RequestContext} (henabled : settings.enabled) :
    tokenRequest (some settings) serverName context ≠ .ok none := by
  unfold tokenRequest
  simp only [henabled, Bool.not_true, Bool.false_eq_true, if_false]
  split
  · simp
  · split <;> simp

end McpZero.Proxy
