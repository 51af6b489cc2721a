import McpZero.Governance.Reading
import McpZero.Proxy.ListTools

/-! Where a namespaced name leads. The loader accepts every truthy server name; names that
the separator can run into are split at another place than they were joined. -/
namespace McpZero.Proxy
open Python Lib Pipeline Transport Governance

/-- The loader's duplicate check has hashed every name. -/
theorem scalar_of_checkDistinct {what field : String} {seen : List Scalar} {vs : List Value}
    (h : Loader.checkDistinct what field seen vs = .ok ()) : ∀ v ∈ vs, ∃ a, v = .scalar a := by
  induction vs generalizing seen with
  | nil => simp
  | cons v vs ih =>
    unfold Loader.checkDistinct at h
    obtain ⟨⟨a, duplicate⟩, hseen, hrest⟩ := bind_eq_ok.mp h
    have hrest' : Loader.checkDistinct what field (seen ++ [a]) vs = .ok () := by
      cases duplicate with
      | true => cases hrest
      | false => exact hrest
    intro w hw
    rcases List.mem_cons.mp hw with rfl | hw
    · unfold Loader.seenBefore at hseen
      split at hseen
      · exact ⟨_, rfl⟩
      · cases hseen
    · exact ih hrest' w hw

theorem map_asScalar? {vs : List Value} (h : ∀ v ∈ vs, ∃ a, v = .scalar a) :
    vs = (vs.filterMap Value.asScalar?).map .scalar := by
  induction vs with
  | nil => rfl
  | cons v vs ih =>
    obtain ⟨a, rfl⟩ := h v List.mem_cons_self
    have hrest := ih fun w hw => h w (List.mem_cons_of_mem _ hw)
    rw [List.filterMap_cons_some (show (Value.scalar a).asScalar? = some a from rfl),
      List.map_cons, ← hrest]

/-- The names of the servers of an accepted document are truthy and hashable. -/
theorem serverNames_spec {data : Value} {p : PolicyConfig}
    (h : Loader.loadPolicy data = .ok p) :
    p.servers.map (·.name) = (Loader.serverNames p).map .scalar ∧
      ∀ a ∈ Loader.serverNames p, a.truthy = true := by
  have hbuilt : ∃ d, Loader.buildPolicyConfig d = .ok p := by
    unfold Loader.loadPolicy at h
    split at h
    · obtain ⟨p', hp, hrest⟩ := bind_eq_ok.mp h
      obtain ⟨⟨⟩, -, hrest⟩ := bind_eq_ok.mp hrest
      obtain ⟨⟨⟩, -, hrest⟩ := bind_eq_ok.mp hrest
      cases hrest
      exact ⟨_, hp⟩
    · cases h
  obtain ⟨d, hd⟩ := hbuilt
  have hservers := (Loader.buildPolicyConfig_eq_ok hd).2.1
  unfold Loader.buildServers at hservers
  simp only [bind_eq_ok, pure_eq_ok] at hservers
  obtain ⟨raw, -, servers, hbuild, ⟨⟩, hdistinct, rfl⟩ := hservers
  have hscalar := scalar_of_checkDistinct hdistinct
  have htruthy : ∀ s ∈ p.servers, s.name.truthy = true := by
    intro s hs
    obtain ⟨v, -, i, hv⟩ := exists_left_of_forall₂ (forall₂_of_zipIdx_mapM hbuild) hs
    unfold Loader.buildServer at hv
    obtain ⟨e, -, hinit⟩ := bind_eq_ok.mp hv
    have hinit' := Loader.catching_eq_ok.mp hinit
    unfold ServerDefinition.postInit at hinit'
    split_ifs at hinit' with hname
    cases hinit'
    simpa using hname
  have hnames : p.servers.map (·.name) = (Loader.serverNames p).map .scalar := by
    rw [map_asScalar? hscalar, List.filterMap_map]
    rfl
  refine ⟨hnames, fun a ha => ?_⟩
  have hmem : Value.scalar a ∈ p.servers.map (·.name) := by
    rw [hnames]
    exact List.mem_map_of_mem ha
  obtain ⟨s, hs, hname⟩ := List.mem_map.mp hmem
  have htrue := htruthy s hs
  rw [hname] at htrue
  exact htrue

/-- A namespaced name leads back to the server that listed it and to its tool: in the parser,
in the router, and in the two places that consult the policy. -/
structure FaithfulNaming (names : List Scalar) : Prop where
  roundTrip : ∀ s ∈ names, ∀ t, t ≠ "" →
    ∃ server, s = .str server ∧ parseTool (namespaceTool s t) = .ok (server, t)
  injective : ∀ s ∈ names, ∀ s' ∈ names, ∀ t t', t ≠ "" → t' ≠ "" →
    namespaceTool s t = namespaceTool s' t' → s = s' ∧ t = t'
  routed : ∀ {σ S C : Type} (P : ProxyServer σ S C), P.configs.map (·.name) = names →
    ∀ s ∈ names, ∀ t, t ≠ "" → ∃ server config, s = .str server ∧ config ∈ P.configs ∧
      config.name = s ∧ P.route (namespaceTool s t) = .ok (server, t, config)
  evaluated : ∀ s ∈ names, ∀ t, t ≠ "" → ∃ server, s = .str server ∧
    (∀ caller, ProxyServer.listedInput caller (namespaceTool s t) =
      some { userId := caller.1, groups := caller.2, mcpServer := server, tool := t }) ∧
    ∀ {σ S C : Type} (P : ProxyServer σ S C) (req : Request) server' tool' config,
      req.name = namespaceTool s t → P.route req.name = .ok (server', tool', config) →
      ∀ request : RequestContext, GovernanceHook.policyInput
        { ProxyServer.initialContext req server' tool' config with request := request } =
        { userId := (GovernanceHook.caller request.identity).1
          groups := (GovernanceHook.caller request.identity).2
          mcpServer := server
          tool := t }

theorem parseTool_of_route {σ S C : Type} {P : ProxyServer σ S C} {name server tool : String}
    {config : ServerConfig} (h : P.route name = .ok (server, tool, config)) :
    parseTool name = .ok (server, tool) ∧ P.getConfig server = .ok config := by
  unfold ProxyServer.route at h
  simp only [bind_eq_ok, pure_eq_ok, Prod.mk.injEq] at h
  obtain ⟨⟨s, t⟩, hparse, c, hc, rfl, rfl, rfl⟩ := h
  exact ⟨hparse, hc⟩

theorem exists_getConfig {σ S C : Type} (P : ProxyServer σ S C) {server : String}
    (h : .str server ∈ P.configs.map (·.name)) :
    ∃ config ∈ P.configs, config.name = .str server ∧ P.getConfig server = .ok config := by
  obtain ⟨c, hc, hname⟩ := List.mem_map.mp h
  have hsome : (P.configs.reverse.find? (·.name == .str server)).isSome = true := by
    rw [List.find?_isSome]
    exact ⟨c, List.mem_reverse.mpr hc, beq_iff_eq.mpr hname⟩
  obtain ⟨config, hfound⟩ := Option.isSome_iff_exists.mp hsome
  refine ⟨config, List.mem_reverse.mp (List.mem_of_find?_eq_some hfound), ?_, ?_⟩
  · have hname := List.find?_some (p := fun c : ServerConfig => c.name == .str server) hfound
    exact beq_iff_eq.mp hname
  · unfold ProxyServer.getConfig Transport.getConfig
    rw [hfound]

/-- The listing filter splits a name where the parser does. -/
theorem listedInput_of_parseTool {name server tool : String} (caller : String × List String)
    (h : parseTool name = .ok (server, tool)) :
    ProxyServer.listedInput caller name =
      some { userId := caller.1, groups := caller.2, mcpServer := server, tool := tool } := by
  unfold parseTool at h
  unfold ProxyServer.listedInput
  cases hsplit : splitOnce separator.toList name.toList with
  | none =>
    rw [hsplit] at h
    cases h
  | some parts =>
    rw [hsplit] at h
    dsimp only at h
    split_ifs at h
    cases h
    rfl

/-- Naming is faithful for the servers of an accepted document exactly when their names are
clean strings. -/
theorem loadPolicy_faithfulNaming_iff (data : Value) (p : PolicyConfig)
    (h : Loader.loadPolicy data = .ok p) :
    p.servers.map (·.name) = (Loader.serverNames p).map .scalar ∧
      (FaithfulNaming (Loader.serverNames p) ↔
        ∀ s ∈ Loader.serverNames p, ∃ server, s = .str server ∧ CleanName server) := by
  obtain ⟨hnames, htruthy⟩ := serverNames_spec h
  refine ⟨hnames, ?_⟩
  have hnonempty : ∀ server, .str server ∈ Loader.serverNames p → server ≠ "" := by
    intro server hmem hempty
    have htrue := htruthy _ hmem
    rw [hempty] at htrue
    cases htrue
  constructor
  · intro hfaithful s hs
    obtain ⟨server, rfl, hparse⟩ := hfaithful.roundTrip s hs "t" (by decide)
    exact ⟨server, rfl,
      (parseTool_namespaceTool_iff server "t" (hnonempty server hs) (by decide)).mp hparse⟩
  · intro hclean
    have hround : ∀ s ∈ Loader.serverNames p, ∀ t, t ≠ "" →
        ∃ server, s = .str server ∧ parseTool (namespaceTool s t) = .ok (server, t) := by
      intro s hs t ht
      obtain ⟨server, rfl, hc⟩ := hclean s hs
      exact ⟨server, rfl, (parseTool_namespaceTool_iff server t (hnonempty server hs) ht).mpr hc⟩
    refine ⟨hround, ?_, ?_, ?_⟩
    · intro s hs s' hs' t t' ht ht' heq
      obtain ⟨server, rfl, hparse⟩ := hround s hs t ht
      obtain ⟨server', rfl, hparse'⟩ := hround s' hs' t' ht'
      rw [heq, hparse'] at hparse
      cases hparse
      exact ⟨rfl, rfl⟩
    · intro σ S C P hP s hs t ht
      obtain ⟨server, rfl, hparse⟩ := hround s hs t ht
      obtain ⟨config, hc, hname, hconfig⟩ := exists_getConfig P (hP ▸ hs)
      refine ⟨server, config, rfl, hc, hname, ?_⟩
      unfold ProxyServer.route
      rw [hparse]
      simp only [bind, Except.bind, hconfig]
      rfl
    · intro s hs t ht
      obtain ⟨server, rfl, hparse⟩ := hround s hs t ht
      refine ⟨server, rfl, fun caller => listedInput_of_parseTool caller hparse, ?_⟩
      intro σ S C P req server' tool' config hname hroute request
      have hparse' := (parseTool_of_route hroute).1
      rw [hname, hparse] at hparse'
      cases hparse'
      rfl

/-- A document with two servers, of which one name holds the separator. -/
def collidingDocument (name : String) : Value :=
  .dict [(.str "version", .int 1),
    (.str "servers", .list
      [.dict [(.str "name", .str "a"), (.str "transport", .str "http")],
       .dict [(.str "name", .str name), (.str "transport", .str "http")]])]

theorem collidingDocument_clean : ∃ p, Loader.loadPolicy (collidingDocument "b") = .ok p ∧
    FaithfulNaming (Loader.serverNames p) := by
  refine ⟨_, rfl, (loadPolicy_faithfulNaming_iff (collidingDocument "b") _ rfl).2.mpr ?_⟩
  intro s hs
  have hmem : s ∈ [Scalar.str "a", Scalar.str "b"] := hs
  rcases List.mem_pair.mp hmem with rfl | rfl
  · exact ⟨"a", rfl, by decide⟩
  · exact ⟨"b", rfl, by decide⟩

/-- The loader accepts both names, and the tool `t` of the server `a__b` has the name of the
tool `b__t` of the server `a`. -/
theorem collidingDocument_not_faithful :
    ∃ p, Loader.loadPolicy (collidingDocument "a__b") = .ok p ∧
      ¬ FaithfulNaming (Loader.serverNames p) := by
  refine ⟨_, rfl, ?_⟩
  intro h
  have hsame := h.injective (.str "a") (.head _) (.str "a__b") (.tail _ (.head _)) "b__t" "t"
    (by decide) (by decide) (by decide)
  exact absurd hsame.1 (by decide)

end McpZero.Proxy
