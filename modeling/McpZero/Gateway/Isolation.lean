import McpZero.Gateway.Machine

/-! Isolation of users: a tool call goes out on a session that a request of the same user opened
to the same server, with a token exchanged for that user. -/
namespace McpZero
open Identity Lib Proxy Transport

namespace Gateway

variable {subjectOf : String → Option String} {servers : Servers} {cacheTtl : ℤ}
  {gw gw' : Gateway subjectOf}

/-- The token of a subject for a server: where the server exchanges tokens, it was obtained by
an exchange for that subject with the audience and the scopes of the server. -/
def TokenFor (subjectOf : String → Option String) (servers : Servers)
    (exchanged : List Exchange) (serverName : String) (subject token : Option String) : Prop :=
  ∀ config, getConfig servers.configs serverName = .ok config → config.tokenExchange →
    ∃ u tok, subject = some u ∧ token = some tok ∧ tok ≠ "" ∧ ∃ e ∈ exchanged,
      e.token.accessToken = tok ∧ e.request.subjectId = u ∧
        subjectOf e.request.subjectToken = some u ∧
          e.request.targetAudience = config.targetAudience.getD "" ∧
            e.request.scopes.Perm config.requiredScopes

/-- The promise to a call that is sent on a session: the session is to the server of the call,
a request of the user of the call connected it, with a token of that user. -/
structure SentAsCaller (servers : Servers) (gw : Gateway subjectOf) (i : Invocation subjectOf) :
    Prop where
  server : getConfig servers.configs i.call.serverName =
    .ok (gw.pool.transport (gw.pool.owner i.session).transport).config
  sameServer : (gw.pool.owner i.session).request.serverName = i.call.serverName
  sameSubject : (gw.pool.owner i.session).request.subjectId = i.call.subject
  token : TokenFor subjectOf servers gw.obo.exchanged i.call.serverName i.call.subject
    (gw.pool.owner i.session).request.authToken

/-- A listing is nobody's request; every other request carries a token of its user. -/
def Requested (subjectOf : String → Option String) (servers : Servers)
    (exchanged : List Exchange) (g : GetSession) : Prop :=
  g.subjectId = none ∨ TokenFor subjectOf servers exchanged g.serverName g.subjectId g.authToken

/-- What a call relies on where it stands. -/
def CallBacked (servers : Servers) (gw : Gateway subjectOf) (t : TaskId) :
    Call subjectOf → Prop
  | .exchanging c => ∃ r, tokenRequest (serverSettings servers.configs c.serverName) c.serverName
      c.caller.context = .ok (some r) ∧ (gw.obo.task t).request? = some r
  | .authorized c token _ =>
    TokenFor subjectOf servers gw.obo.exchanged c.serverName c.subject token
  | .connecting c token _ =>
    TokenFor subjectOf servers gw.obo.exchanged c.serverName c.subject token ∧
      (gw.pool.task t).getSession? = some (c.getSession token)
  | .invoking c token _ _ =>
    TokenFor subjectOf servers gw.obo.exchanged c.serverName c.subject token
  | .recovering c token _ =>
    TokenFor subjectOf servers gw.obo.exchanged c.serverName c.subject token
  | _ => True

/-- What the log of invocations relies on. -/
def InvocationBacked (servers : Servers) (gw : Gateway subjectOf) (i : Invocation subjectOf) :
    Prop :=
  TokenFor subjectOf servers gw.obo.exchanged i.call.serverName i.call.subject i.token ∧
    i.session < gw.pool.nextOwner ∧
      (gw.pool.owner i.session).request.key = (i.call.getSession i.token).key

/-- What a call relies on where a move takes it to. -/
def MovedBacked (servers : Servers) (gw : Gateway subjectOf) (m : Move subjectOf) (t : TaskId) :
    Call subjectOf → Prop
  | .exchanging c => ∃ r, tokenRequest (serverSettings servers.configs c.serverName) c.serverName
      c.caller.context = .ok (some r) ∧ m.obo = some (.exchange t r)
  | .authorized c token _ =>
    TokenFor subjectOf servers gw.obo.exchanged c.serverName c.subject token
  | .connecting c token _ =>
    TokenFor subjectOf servers gw.obo.exchanged c.serverName c.subject token ∧
      m.pool = some (.getSession t (c.getSession token))
  | .invoking c token _ _ =>
    TokenFor subjectOf servers gw.obo.exchanged c.serverName c.subject token
  | .recovering c token _ =>
    TokenFor subjectOf servers gw.obo.exchanged c.serverName c.subject token
  | _ => True

structure Backed (servers : Servers) (gw : Gateway subjectOf) : Prop where
  pool : gw.pool.Linked servers.configs (Requested subjectOf servers gw.obo.exchanged)
  obo : gw.obo.Backed fun r => subjectOf r.subjectToken = some r.subjectId
  call (t : TaskId) : CallBacked servers gw t (gw.call t)
  invoked (i : Invocation subjectOf) : i ∈ gw.invoked → InvocationBacked servers gw i

theorem TokenFor.mono {exchanged exchanged' : List Exchange} {serverName : String}
    {subject token : Option String}
    (h : TokenFor subjectOf servers exchanged serverName subject token)
    (hsub : exchanged ⊆ exchanged') :
    TokenFor subjectOf servers exchanged' serverName subject token := by
  intro config hconfig hexchange
  obtain ⟨u, tok, hu, htok, hne, e, he, hrest⟩ := h config hconfig hexchange
  exact ⟨u, tok, hu, htok, hne, e, hsub he, hrest⟩

/-- What a move may bring about: every request that it starts is backed, every call that it
moves is backed where it gets to, and no other running call loses its task. -/
structure Sound (servers : Servers) (gw : Gateway subjectOf) (m : Move subjectOf) : Prop where
  getSession (t : TaskId) (g : GetSession) : m.pool = some (.getSession t g) →
    Requested subjectOf servers gw.obo.exchanged g
  exchange (t : TaskId) (r : ExchangeRequest) : m.obo = some (.exchange t r) →
    subjectOf r.subjectToken = some r.subjectId
  moved (t : TaskId) (call : Call subjectOf) : m.call = some (t, call) →
    MovedBacked servers gw m t call
  kept (t : TaskId) : (∀ call, m.call ≠ some (t, call)) → (gw.call t).running →
    (∀ a, m.pool = some a → a.starts ≠ some t) ∧ ∀ r, m.obo ≠ some (.exchange t r)
  invoked (i : Invocation subjectOf) : m.invoked = some i → InvocationBacked servers gw i

theorem CallBacked.tokenFor {t : TaskId} {call : Call subjectOf} {c : ToolCall subjectOf}
    {token : Option String} (h : CallBacked servers gw t call)
    (hcall : call.authorized? = some (c, token)) :
    TokenFor subjectOf servers gw.obo.exchanged c.serverName c.subject token := by
  cases call with
  | authorized => cases hcall; exact h
  | connecting => cases hcall; exact h.1
  | invoking => cases hcall; exact h
  | recovering => cases hcall; exact h
  | _ => cases hcall

/-- The request of a call exchanges the token of its user, as the settings of its server say. -/
theorem request_of_call {c : ToolCall subjectOf} {settings : Option ServerOBOSettings}
    {r : ExchangeRequest}
    (h : tokenRequest settings c.serverName c.caller.context = .ok (some r)) :
    c.subject = some r.subjectId ∧ subjectOf r.subjectToken = some r.subjectId ∧
      ∃ s, settings = some s ∧ r.targetAudience = s.targetAudience ∧ r.scopes = s.scopes := by
  cases settings with
  | none => cases h
  | some s =>
    obtain ⟨identity, token, hidentity, htoken, rfl⟩ := tokenRequest_eq_some h
    refine ⟨?_, c.caller.sameToken identity token hidentity htoken, s, rfl, rfl, rfl⟩
    simp [ToolCall.subject, hidentity]

/-- A call that goes on without a token goes to a server that exchanges none. -/
theorem tokenFor_none {c : ToolCall subjectOf} {exchanged : List Exchange}
    (h : tokenRequest (serverSettings servers.configs c.serverName) c.serverName
      c.caller.context = .ok none) :
    TokenFor subjectOf servers exchanged c.serverName c.subject none := by
  intro config hconfig hexchange
  obtain ⟨-, haudience⟩ := servers.checked config (mem_of_getConfig hconfig) hexchange
  rw [serverSettings_of_tokenExchange hconfig hexchange haudience] at h
  exact absurd h (tokenRequest_ne_none rfl)

/-- The token that an exchange returned is a token of the user of the call, also when an
earlier exchange put it in the cache. -/
theorem Backed.tokenFor_returned (h : gw.Backed servers) {t : TaskId} {c : ToolCall subjectOf}
    {r : ExchangeRequest} {token : String} (hcall : gw.call t = .exchanging c)
    (hreturned : gw.obo.task t = .returned r token) :
    TokenFor subjectOf servers gw.obo.exchanged c.serverName c.subject (some token) := by
  intro config hconfig hexchange
  have hbacked := h.call t
  rw [hcall] at hbacked
  obtain ⟨r', hrequest, htask⟩ := hbacked
  rw [hreturned] at htask
  obtain rfl : r = r' := Option.some.inj htask
  obtain ⟨hsubject, -, settings, hsettings, haudience, hscopes⟩ := request_of_call hrequest
  -- the settings of the server are those of its configuration
  obtain ⟨-, hne⟩ := servers.checked config (mem_of_getConfig hconfig) hexchange
  rw [serverSettings_of_tokenExchange hconfig hexchange hne] at hsettings
  obtain rfl := Option.some.inj hsettings
  -- the exchange behind the token had the same cache key
  have hobtained := h.obo.task t
  rw [hreturned] at hobtained
  obtain ⟨e, he, hkey, rfl⟩ := hobtained
  obtain ⟨hid, haudience', hscopes'⟩ := ExchangeRequest.key_eq hkey
  obtain ⟨hverified, htoken⟩ := h.obo.exchanged e he
  refine ⟨r.subjectId, _, hsubject, rfl, htoken, e, he, rfl, hid, ?_, ?_, ?_⟩
  · rw [hverified, hid]
  · exact haudience'.trans haudience
  · rw [hscopes] at hscopes'
    exact hscopes'

theorem sound_of_call {t : TaskId} {call : Call subjectOf}
    (h : MovedBacked servers gw { call := some (t, call) } t call) :
    gw.Sound servers { call := some (t, call) } where
  getSession _ _ hpool := nomatch hpool
  exchange _ _ hobo := nomatch hobo
  moved t' call' hmoved := by
    cases hmoved
    exact h
  kept _ _ _ := ⟨nofun, nofun⟩
  invoked _ hinvoked := nomatch hinvoked

theorem sound_of_pool {a : PoolAction}
    (hget : ∀ t g, a = .getSession t g → g.subjectId = none)
    (hstarts : ∀ t, (gw.call t).running → a.starts ≠ some t) :
    gw.Sound servers { pool := some a } where
  getSession t g hpool := .inl (hget t g (Option.some.inj hpool))
  exchange _ _ hobo := nomatch hobo
  moved _ _ hmoved := nomatch hmoved
  kept t _ hrunning := by
    refine ⟨fun a' hpool => ?_, nofun⟩
    cases hpool
    exact hstarts t hrunning
  invoked _ hinvoked := nomatch hinvoked

theorem sound_of_obo {a : OBOAction} (hother : ∀ t r, a ≠ .exchange t r) :
    gw.Sound servers { obo := some a } where
  getSession _ _ hpool := nomatch hpool
  exchange t r hobo := absurd (Option.some.inj hobo) (hother t r)
  moved _ _ hmoved := nomatch hmoved
  kept t _ _ := ⟨nofun, fun r hobo => hother t r (Option.some.inj hobo)⟩
  invoked _ hinvoked := nomatch hinvoked

/-- A call may start its own task as it moves. -/
theorem sound_of_start {t : TaskId} {call : Call subjectOf} {a : PoolAction}
    (ha : a.starts = some t)
    (hget : ∀ g, a = .getSession t g → Requested subjectOf servers gw.obo.exchanged g)
    (hcall : MovedBacked servers gw { pool := some a, call := some (t, call) } t call) :
    gw.Sound servers { pool := some a, call := some (t, call) } where
  getSession t' g hpool := by
    cases hpool
    cases ha
    exact hget g rfl
  exchange _ _ hobo := nomatch hobo
  moved t' call' hmoved := by
    cases hmoved
    exact hcall
  kept t' hmoved _ := by
    refine ⟨fun a' hpool hstarts => ?_, nofun⟩
    cases hpool
    obtain rfl : t = t' := Option.some.inj (ha.symm.trans hstarts)
    exact hmoved call rfl
  invoked _ hinvoked := nomatch hinvoked

theorem sound_of_exchange {t : TaskId} {c : ToolCall subjectOf} {r : ExchangeRequest}
    (h : tokenRequest (serverSettings servers.configs c.serverName) c.serverName
      c.caller.context = .ok (some r)) :
    gw.Sound servers { obo := some (.exchange t r), call := some (t, .exchanging c) } where
  getSession _ _ hpool := nomatch hpool
  exchange t' r' hobo := by
    cases hobo
    exact (request_of_call h).2.1
  moved t' call' hmoved := by
    cases hmoved
    exact ⟨r, h, rfl⟩
  kept t' hmoved _ := by
    refine ⟨nofun, fun r' hobo => ?_⟩
    cases hobo
    exact hmoved _ rfl
  invoked _ hinvoked := nomatch hinvoked

/-- The session that `get_session` has returned to a call is a session of its key. -/
theorem Backed.sound_of_returned (h : gw.Backed servers) {t : TaskId} {c : ToolCall subjectOf}
    {token : Option String} {attempt : ℕ} {g : GetSession} {session : OwnerId}
    (hcall : gw.call t = .connecting c token attempt)
    (hreturned : gw.pool.task t = .returned g session) :
    gw.Sound servers {
      call := some (t, .invoking c token attempt session)
      invoked := some ⟨c, token, session⟩ } := by
  have hbacked := h.call t
  rw [hcall] at hbacked
  obtain ⟨htoken, htask⟩ := hbacked
  rw [hreturned] at htask
  obtain rfl : g = c.getSession token := Option.some.inj htask
  have hlinked := h.pool.task t
  rw [hreturned] at hlinked
  exact {
    getSession := fun _ _ hpool => nomatch hpool
    exchange := fun _ _ hobo => nomatch hobo
    moved := fun t' call' hmoved => by
      cases hmoved
      exact htoken
    kept := fun _ _ _ => ⟨nofun, nofun⟩
    invoked := fun i hinvoked => by
      cases hinvoked
      exact ⟨htoken, hlinked⟩ }

/-- From a backed state every move is sound. -/
theorem Backed.sound (h : gw.Backed servers) {m : Move subjectOf} (hm : gw.Moves servers m) :
    gw.Sound servers m := by
  cases hm with
  | finishes t c => exact sound_of_call trivial
  | authorizes hrequest => exact sound_of_call (tokenFor_none hrequest)
  | exchanges hrequest => exact sound_of_exchange hrequest
  | exchanged hcall hreturned => exact sound_of_call (h.tokenFor_returned hcall hreturned)
  | @connects t c token attempt hcall =>
    have htoken : TokenFor subjectOf servers gw.obo.exchanged c.serverName c.subject token :=
      (h.call t).tokenFor (by rw [hcall]; rfl)
    refine sound_of_start rfl (fun g hg => ?_) ⟨htoken, rfl⟩
    cases hg
    exact .inr htoken
  | invokes hcall hreturned => exact h.sound_of_returned hcall hreturned
  | @recovers t c token attempt hcall =>
    exact sound_of_start rfl nofun ((h.call t).tokenFor hcall)
  | @retries t c token attempt hcall => exact sound_of_call ((h.call t).tokenFor hcall)
  | @begins t a hfree hstarts hlisting =>
    refine sound_of_pool (fun t' g hg => ?_) fun t' hrunning hstarts' => ?_
    · cases hg
      cases hstarts
      exact hlisting g rfl
    · obtain rfl : t = t' := Option.some.inj (hstarts.symm.trans hstarts')
      simp [free, hrunning] at hfree
  | @pool a hstarts =>
    refine sound_of_pool (fun t g hg => ?_) fun t _ hstarts' => ?_
    · cases hg
      cases hstarts
    · cases hstarts.symm.trans hstarts'
  | obo hother => exact sound_of_obo hother

/-- The step that starts the task of a call puts it where the call waits for it. -/
theorem MovedBacked.applied {m : Move subjectOf} {t : TaskId} {call : Call subjectOf}
    (h : MovedBacked servers gw m t call)
    (hpool : stepPart (Pool.step servers.configs) gw.pool m.pool = some gw'.pool)
    (hobo : stepPart (OBOClient.step cacheTtl) gw.obo m.obo = some gw'.obo)
    (hsub : gw.obo.exchanged ⊆ gw'.obo.exchanged) : CallBacked servers gw' t call := by
  cases call with
  | exchanging c =>
    obtain ⟨r, hrequest, hstart⟩ := h
    rw [hstart] at hobo
    exact ⟨r, hrequest, OBOClient.request?_of_exchange hobo⟩
  | connecting c token attempt =>
    obtain ⟨htoken, hstart⟩ := h
    rw [hstart] at hpool
    exact ⟨htoken.mono hsub, Pool.getSession?_of_getSession hpool⟩
  | authorized c token attempt => exact TokenFor.mono h hsub
  | invoking c token attempt session => exact TokenFor.mono h hsub
  | recovering c token attempt => exact TokenFor.mono h hsub
  | _ => trivial

/-- A call that does not move keeps its place in the pool and in the token client. -/
theorem CallBacked.kept {m : Move subjectOf} {t : TaskId} {call : Call subjectOf}
    (h : CallBacked servers gw t call)
    (hkept : call.running → (∀ a, m.pool = some a → a.starts ≠ some t) ∧
      ∀ r, m.obo ≠ some (.exchange t r))
    (hpool : stepPart (Pool.step servers.configs) gw.pool m.pool = some gw'.pool)
    (hobo : stepPart (OBOClient.step cacheTtl) gw.obo m.obo = some gw'.obo)
    (hsub : gw.obo.exchanged ⊆ gw'.obo.exchanged) : CallBacked servers gw' t call := by
  cases call with
  | exchanging c =>
    obtain ⟨r, hrequest, htask⟩ := h
    refine ⟨r, hrequest, of_stepPart (P := fun o => (o.task t).request? = some r) hobo htask
      fun a ha hst => ?_⟩
    rw [OBOClient.request?_of_step hst fun r' hr => (hkept rfl).2 r' (ha.trans (congrArg some hr))]
    exact htask
  | connecting c token attempt =>
    obtain ⟨htoken, htask⟩ := h
    refine ⟨htoken.mono hsub, ?_⟩
    exact of_stepPart (P := fun s => (s.task t).getSession? = some (c.getSession token)) hpool
      htask fun a ha hst => Pool.getSession?_of_step hst ((hkept rfl).1 a ha) htask
  | authorized c token attempt => exact TokenFor.mono h hsub
  | invoking c token attempt session => exact TokenFor.mono h hsub
  | recovering c token attempt => exact TokenFor.mono h hsub
  | _ => trivial

theorem InvocationBacked.extend {i : Invocation subjectOf} (h : InvocationBacked servers gw i)
    (hsub : gw.obo.exchanged ⊆ gw'.obo.exchanged) (hext : gw.pool.Extends gw'.pool) :
    InvocationBacked servers gw' i := by
  obtain ⟨htoken, hlt, hkey⟩ := h
  refine ⟨htoken.mono hsub, hlt.trans_le hext.nextOwner, ?_⟩
  rw [(hext.owner i.session hlt).2, hkey]

/-- A sound move keeps the invariant. -/
theorem Backed.applyMove (h : gw.Backed servers) {m : Move subjectOf} (hm : gw.Sound servers m)
    (hst : gw.applyMove servers cacheTtl m = some gw') : gw'.Backed servers := by
  obtain ⟨hpool, hobo, hmoved, hkept, hinvoked⟩ := applyMove_eq_some hst
  have hsub : gw.obo.exchanged ⊆ gw'.obo.exchanged :=
    of_stepPart (P := fun c => gw.obo.exchanged ⊆ c.exchanged) hobo (List.Subset.refl _)
      fun a _ hst => OBOClient.exchanged_subset hst
  have hext : gw.pool.Extends gw'.pool :=
    of_stepPart (P := fun s => gw.pool.Extends s) hpool .refl
      fun a _ hst => Pool.extends_of_step hst
  have hlinked : gw'.pool.Linked servers.configs (Requested subjectOf servers gw.obo.exchanged) :=
    of_stepPart hpool h.pool fun a ha hst =>
      h.pool.step hst fun t g hg => hm.getSession t g (ha.trans (congrArg some hg))
  refine ⟨hlinked.mono fun g hg => ?_, ?_, fun t => ?_, fun i hi => ?_⟩
  · exact hg.imp_right fun htoken => htoken.mono hsub
  · exact of_stepPart hobo h.obo fun a ha hst =>
      h.obo.step hst fun t r hr => hm.exchange t r (ha.trans (congrArg some hr))
  · by_cases hcall : ∃ call, m.call = some (t, call)
    · obtain ⟨call, hcall⟩ := hcall
      rw [hmoved t call hcall]
      exact (hm.moved t call hcall).applied hpool hobo hsub
    · rw [hkept t fun call hmove => hcall ⟨call, hmove⟩]
      exact (h.call t).kept (fun hrun => hm.kept t (fun call hmove => hcall ⟨call, hmove⟩) hrun)
        hpool hobo hsub
  · rw [hinvoked] at hi
    rcases List.mem_append.mp hi with hnew | hold
    · exact (hm.invoked i (Option.mem_toList.mp hnew)).extend hsub hext
    · exact (h.invoked i hold).extend hsub hext

/-- The invariant gives the promise: the session's own request carries the token that counts. -/
theorem Backed.sentAsCaller (h : gw.Backed servers) {i : Invocation subjectOf}
    (hi : i ∈ gw.invoked) : SentAsCaller servers gw i := by
  obtain ⟨htoken, hlt, hkey⟩ := h.invoked i hi
  obtain ⟨hrequested, htr, hkeys⟩ := h.pool.owner i.session hlt
  obtain ⟨hserver, hsubject⟩ := SessionKey.mk.inj hkey
  have hconfig := h.pool.config _ htr
  rw [hkeys, hkey] at hconfig
  refine ⟨hconfig, hserver, hsubject, fun config hc hexchange => ?_⟩
  -- a call to a server that exchanges tokens has a user, so its session is no listing's
  obtain ⟨u, tok, hu, -⟩ := htoken config hc hexchange
  rcases hrequested with hnone | hrequested
  · cases (hsubject.symm.trans hnone).symm.trans hu
  · rw [hserver, hsubject] at hrequested
    exact hrequested config hc hexchange

theorem Backed.step (h : gw.Backed servers) {a : GatewayAction subjectOf}
    (hst : gw.step servers cacheTtl a = some gw') : gw'.Backed servers := by
  obtain ⟨m, hmove, hst⟩ := Option.bind_eq_some_iff.mp hst
  exact h.applyMove (h.sound (moves_of_move hmove)) hst

theorem backed_empty : ({} : Gateway subjectOf).Backed servers where
  pool := Pool.linked_empty
  obo := OBOClient.backed_empty
  call _ := trivial
  invoked _ hi := absurd hi List.not_mem_nil

/-- In every run, whatever the order of its steps, every call was sent as its caller. -/
theorem sentAsCaller_of_run (subjectOf : String → Option String) (servers : Servers)
    (cacheTtl : ℤ) (as : List (GatewayAction subjectOf)) :
    EachStep (step servers cacheTtl) (fun _ _ gw => ∀ i ∈ gw.invoked, SentAsCaller servers gw i)
      {} as := by
  refine eachStep_of_invariant (I := Backed servers) backed_empty fun gw a gw' h hst => ?_
  have h' : gw'.Backed servers := h.step hst
  exact ⟨h', fun i hi => h'.sentAsCaller hi⟩

end Gateway

end McpZero
