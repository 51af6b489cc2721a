import McpZero.Analytics.LatencyMax
import McpZero.Governance.Loader

/-! Which gateways keep their keys apart. The segments of a key are joined with colons that they
may have themselves. -/
namespace McpZero.Analytics
open Python Governance Governance.Loader Lib

/-- The commands of `_write_heartbeat`. -/
def heartbeatOps (config : AnalyticsConfig) (keys : KeyBuilder) (host port : String)
    (startedAt now : ℚ) : List RedisOp :=
  [.zadd keys.registryKey keys.registryMember now,
    .hset keys.infoKey
      [("host", .str host), ("port", .str port), ("environment", keys.environment),
        ("gateway_id", keys.gatewayId), ("started_at", .str (toString (truncate startedAt))),
        ("last_heartbeat", .str (toString (truncate now))), ("key_prefix", keys.keyPrefix)],
    .expire keys.infoKey (config.heartbeatSeconds * 3),
    .sadd keys.idxEnvsKey keys.environment,
    .sadd keys.idxGatewaysKey keys.gatewayId]

/-- The keys of a configuration. An empty gateway id is replaced by a random one. -/
def keysFor (generated : String) (config : AnalyticsConfig) : KeyBuilder where
  keyPrefix := config.keyPrefix
  environment := config.environment
  gatewayId := config.gatewayId.getD (.str generated)

/-- The keys of a section that the loader accepts. Neither a gateway id that is true nor a
random one is written as the empty text. -/
structure Accepted (keys : KeyBuilder) : Prop where
  loaded : ∃ v config generated, buildAnalytics v = .ok config ∧ keys = keysFor generated config
  gatewayId : keys.gatewayId.text ≠ ""

/-- The category and the dimension of every hash. -/
def hashFamilies : List (String × String) :=
  CounterFamily.all.map (fun F => (F.category, F.dimension)) ++ [("latency", "max")]

/-- The keys of the data of one gateway. The registry and the indexes are shared. -/
inductive OwnKey (keys : KeyBuilder) : String → Prop
  | info : OwnKey keys keys.infoKey
  | bucket {family : String × String} (bid : ℤ) : family ∈ hashFamilies →
      OwnKey keys (keys.bucketKey family.1 family.2 bid)

def SameSegments (keys keys' : KeyBuilder) : Prop :=
  keys.keyPrefix.text = keys'.keyPrefix.text ∧ keys.environment.text = keys'.environment.text ∧
    keys.gatewayId.text = keys'.gatewayId.text

/-- Two gateways share no key of their own and no member of a registry. -/
structure Isolated (keys keys' : KeyBuilder) : Prop where
  ownKeys : ∀ key, OwnKey keys key → ¬ OwnKey keys' key
  registry : ¬ (keys.registryKey = keys'.registryKey ∧ keys.registryMember = keys'.registryMember)

/-- No gateway with other segments shares a key, no two tools of the servers share a field, and
no two hashes share a key. -/
structure KeepsKeysApart (keys : KeyBuilder) (servers : List String) : Prop where
  gateways : ∀ keys', Accepted keys' → ¬ SameSegments keys keys' → Isolated keys keys'
  fields : ∀ event event' : TimedEvent, event.server ∈ servers → event'.server ∈ servers →
    (event.server, event.tool) ≠ (event'.server, event'.tool) → event.toolField ≠ event'.toolField
  buckets : ∀ family ∈ hashFamilies, ∀ family' ∈ hashFamilies, ∀ bid bid',
    (family, bid) ≠ (family', bid') →
      keys.bucketKey family.1 family.2 bid ≠ keys.bucketKey family'.1 family'.2 bid'

/-- The base of the keys can be read in one way only. -/
structure Unambiguous (keys : KeyBuilder) : Prop where
  keyPrefix : ¬ ":gw:".toList <:+: keys.keyPrefix.text.toList ++ ":gw".toList
  environment : ':' ∉ keys.environment.text.toList
  gatewayId : ':' ∉ keys.gatewayId.text.toList.dropLast

/-! What the gateway writes -/

theorem mem_hashFamilies (F : CounterFamily) : (F.category, F.dimension) ∈ hashFamilies :=
  List.mem_append_left _ (List.mem_map_of_mem F.mem_all)

theorem max_mem_hashFamilies : ("latency", "max") ∈ hashFamilies :=
  List.mem_append_right _ List.mem_cons_self

variable {keys keys' : KeyBuilder}

/-- Every command that a batch pushes is on a key of the gateway, and so are the `EXPIRE`s. -/
theorem Pending.key_pushAll {P : String → Prop} {ttl : ℤ} {p : Pending} {ops : List RedisOp}
    (hp : ∀ op ∈ p.ops, P op.key) (hops : ∀ op ∈ ops, P op.key) :
    ∀ op ∈ (p.pushAll ttl ops).ops, P op.key := by
  induction ops generalizing p with
  | nil => exact hp
  | cons op ops ih =>
    rw [List.forall_mem_cons] at hops
    refine ih (p := p.push ttl op) ?_ hops.2
    unfold Pending.push
    split_ifs
    · simpa [or_imp, forall_and] using ⟨hp, hops.1⟩
    · simpa [or_imp, forall_and, RedisOp.key] using ⟨hp, hops.1⟩

theorem ownKey_counter (F : CounterFamily) (bid : ℤ) : OwnKey keys (F.key keys bid) :=
  @OwnKey.bucket keys (F.category, F.dimension) bid (mem_hashFamilies F)

theorem ownKey_max (bid : ℤ) : OwnKey keys (maxKey keys bid) :=
  @OwnKey.bucket keys ("latency", "max") bid max_mem_hashFamilies

theorem ownKey_of_flush {config : AnalyticsConfig} {events : List TimedEvent}
    {ops : List RedisOp} (hops : buildOperations config keys events = .ok ops) :
    ∀ op ∈ ops, OwnKey keys op.key := by
  rw [eq_of_buildOperations hops]
  refine Pending.key_pushAll (List.forall_mem_nil _) fun op hop => ?_
  rcases List.mem_append.mp hop with hop | hop
  · obtain ⟨bid, F, field, n, rfl⟩ := mem_batchIncrements hop
    exact ownKey_counter F bid
  · obtain ⟨e, he, rfl⟩ := List.mem_map.mp hop
    obtain ⟨bid, hbid⟩ := mem_batchMaxes (List.forall_mem_nil _) e he
    rw [hsetMax, RedisOp.key, hbid]
    exact ownKey_max bid

/-- A heartbeat writes the registry, the data of the gateway and the indexes. -/
theorem ownKey_of_heartbeat {config : AnalyticsConfig} {host port : String} {startedAt now : ℚ} :
    ∀ op ∈ heartbeatOps config keys host port startedAt now, OwnKey keys op.key ∨
      op = .zadd keys.registryKey keys.registryMember now ∨ op.key = keys.idxEnvsKey ∨
      op.key = keys.idxGatewaysKey := by
  simp [heartbeatOps, RedisOp.key, OwnKey.info]

/-! Reading a key backwards -/

theorem toList_gatewayBase : keys.gatewayBase.toList = keys.keyPrefix.text.toList ++
    (":gw:".toList ++ (keys.environment.text.toList ++ ':' :: keys.gatewayId.text.toList)) := by
  change (keys.keyPrefix.text ++ ":gw:" ++ keys.environment.text ++ ":" ++
    keys.gatewayId.text).toList = _
  simp only [String.toList_append, List.append_assoc]
  rfl

theorem colon_not_mem_families : ∀ family ∈ hashFamilies,
    ':' ∉ family.1.toList ∧ ':' ∉ family.2.toList ∧ family.2 ≠ "info" := by
  decide

theorem toList_infoKey :
    keys.infoKey.toList = keys.gatewayBase.toList ++ ':' :: "info".toList := by
  rw [KeyBuilder.infoKey, String.toList_append]
  rfl

theorem toList_bucketKey_segments (category dimension : String) (bid : ℤ) :
    (keys.bucketKey category dimension bid).toList =
      (((keys.gatewayBase.toList ++ ':' :: "b".toList) ++ ':' :: (toString bid).toList) ++
        ':' :: category.toList) ++ ':' :: dimension.toList := by
  rw [KeyBuilder.toList_bucketKey, String.toList_append]
  simp

/-- The own keys of two gateways are the same only if the gateways have the same base. -/
theorem gatewayBase_eq_of_ownKey {key : String} (hkey : OwnKey keys key)
    (hkey' : OwnKey keys' key) : keys.gatewayBase = keys'.gatewayBase := by
  have hinfo : ':' ∉ "info".toList := by decide
  generalize hsame : key = key' at hkey'
  rw [← String.toList_inj]
  rw [← String.toList_inj] at hsame
  cases hkey with
  | info =>
    cases hkey' with
    | info =>
      rw [toList_infoKey, toList_infoKey, append_cons_inj_of_last hinfo hinfo] at hsame
      exact hsame.1
    | @bucket family' bid' hfamily' =>
      obtain ⟨-, hdimension', hne'⟩ := colon_not_mem_families family' hfamily'
      rw [toList_infoKey, toList_bucketKey_segments,
        append_cons_inj_of_last hinfo hdimension', String.toList_inj] at hsame
      exact absurd hsame.2.symm hne'
  | @bucket family bid hfamily =>
    obtain ⟨hcategory, hdimension, hne⟩ := colon_not_mem_families family hfamily
    cases hkey' with
    | info =>
      rw [toList_infoKey, toList_bucketKey_segments,
        append_cons_inj_of_last hdimension hinfo, String.toList_inj] at hsame
      exact absurd hsame.2 hne
    | @bucket family' bid' hfamily' =>
      obtain ⟨hcategory', hdimension', -⟩ := colon_not_mem_families family' hfamily'
      rw [toList_bucketKey_segments, toList_bucketKey_segments,
        append_cons_inj_of_last hdimension hdimension',
        append_cons_inj_of_last hcategory hcategory',
        append_cons_inj_of_last (colon_not_mem_toString bid) (colon_not_mem_toString bid'),
        append_cons_inj_of_last (by decide) (by decide)] at hsame
      exact hsame.1.1.1.1

theorem mem_dropLast_append {a : Char} {xs ys : List Char} (hys : ys ≠ []) :
    a ∈ (xs ++ a :: ys).dropLast := by
  rw [List.dropLast_append_of_ne_nil (List.cons_ne_nil a ys), List.dropLast_cons_of_ne_nil hys]
  simp

/-- Behind the prefix, the first colon ends the environment. -/
theorem environment_gatewayId_eq {e e' g g' : List Char} (he : ':' ∉ e) (hg : ':' ∉ g.dropLast)
    (hg' : g' ≠ []) (heq : e ++ ':' :: g = e' ++ ':' :: g') : e = e' ∧ g = g' := by
  by_cases he' : ':' ∈ e'
  · obtain ⟨before, after, rfl⟩ := List.append_of_mem he'
    rw [List.append_assoc, List.cons_append] at heq
    obtain ⟨rest, rfl⟩ := exists_eq_append_of_first he heq
    exact absurd (mem_dropLast_append hg') hg
  · exact (append_cons_inj_of_first he he').mp heq

/-- The base is read in one way: no other place of the mark leaves an environment and a gateway
id behind it. -/
theorem segments_eq {p e g p' e' g' : List Char}
    (hp : ¬ ":gw:".toList <:+: p ++ ":gw".toList) (he : ':' ∉ e) (hg : ':' ∉ g.dropLast)
    (hg' : g' ≠ []) (heq : p ++ (":gw:".toList ++ (e ++ ':' :: g)) =
      p' ++ (":gw:".toList ++ (e' ++ ':' :: g'))) : p = p' ∧ e = e' ∧ g = g' := by
  have hmark : ":gw:".toList = [':', 'g', 'w', ':'] := rfl
  have hsame (hrest : e ++ ':' :: g = e' ++ ':' :: g') : e = e' ∧ g = g' :=
    environment_gatewayId_eq he hg hg' hrest
  rcases List.append_eq_append_iff.mp heq with ⟨more, rfl, hrest⟩ | ⟨more, rfl, hrest⟩
  · -- The mark of the other reading stands at the same place or behind.
    have hlate (us : List Char) (hback : e ++ ':' :: g = us ++ ':' :: (e' ++ ':' :: g')) :
        p = p ++ more ∧ e = e' ∧ g = g' := by
      obtain ⟨rest, rfl⟩ := exists_eq_append_of_first he hback
      exact absurd (mem_dropLast_append hg') hg
    rw [hmark] at hrest
    match more with
    | [] => exact ⟨(List.append_nil p).symm, hsame (List.append_cancel_left hrest)⟩
    | [_] => simp at hrest
    | [_, _] => simp at hrest
    | [_, _, _] =>
      simp only [List.cons_append, List.nil_append, List.cons.injEq] at hrest
      exact hlate ['g', 'w'] hrest.2.2.2.2
    | _ :: _ :: _ :: _ :: us =>
      simp only [List.cons_append, List.nil_append, List.cons.injEq] at hrest
      exact hlate (us ++ [':', 'g', 'w']) (by simpa using hrest.2.2.2.2)
  · -- The mark of the other reading stands at the same place or begins inside the prefix.
    cases more with
    | nil => exact ⟨List.append_nil p', hsame (List.append_cancel_left hrest).symm⟩
    | cons c more =>
      have hfirst : ":gw:".toList <+: (c :: more) ++ (":gw:".toList ++ (e ++ ':' :: g)) :=
        hrest ▸ List.prefix_append ":gw:".toList (e' ++ ':' :: g')
      have hsecond : (c :: more) ++ ":gw".toList <+:
          (c :: more) ++ (":gw:".toList ++ (e ++ ':' :: g)) := ⟨':' :: (e ++ ':' :: g), by simp⟩
      have hbegins : ":gw:".toList <+: (c :: more) ++ ":gw".toList :=
        List.prefix_of_prefix_length_le hfirst hsecond (by simp)
      obtain ⟨rest, hrest⟩ := hbegins
      exact absurd ⟨p', rest, by rw [List.append_assoc, hrest, List.append_assoc]⟩ hp

/-- A gateway with an unambiguous base shares the base with no other. -/
theorem Unambiguous.sameSegments (h : Unambiguous keys) (hid : keys'.gatewayId.text ≠ "")
    (hbase : keys.gatewayBase = keys'.gatewayBase) : SameSegments keys keys' := by
  have hid' : keys'.gatewayId.text.toList ≠ [] := by simpa using hid
  rw [← String.toList_inj, toList_gatewayBase, toList_gatewayBase] at hbase
  obtain ⟨hkeyPrefix, henvironment, hgateway⟩ :=
    segments_eq h.keyPrefix h.environment h.gatewayId hid' hbase
  exact ⟨String.toList_inj.mp hkeyPrefix, String.toList_inj.mp henvironment,
    String.toList_inj.mp hgateway⟩

theorem toList_base_of_strings (p e g : List Char) :
    (KeyBuilder.mk (.str (.ofList p)) (.str (.ofList e)) (.str (.ofList g))).gatewayBase.toList =
      p ++ (":gw:".toList ++ (e ++ ':' :: g)) := by
  rw [toList_gatewayBase]
  simp only [Value.text, Scalar.text, String.toList_ofList]

/-- A base that is not unambiguous is the base of another gateway. -/
theorem exists_of_not_unambiguous (hid : keys.gatewayId.text ≠ "") (h : ¬ Unambiguous keys) :
    ∃ p e g : String, g ≠ "" ∧
      keys.gatewayBase = (KeyBuilder.mk (.str p) (.str e) (.str g)).gatewayBase ∧
      ¬ SameSegments keys ⟨.str p, .str e, .str g⟩ := by
  have hother (p e g : List Char) (hg : g ≠ [])
      (hbase : keys.keyPrefix.text.toList ++ (":gw:".toList ++
        (keys.environment.text.toList ++ ':' :: keys.gatewayId.text.toList)) =
          p ++ (":gw:".toList ++ (e ++ ':' :: g)))
      (hne : p.length ≠ keys.keyPrefix.text.toList.length ∨
        g.length ≠ keys.gatewayId.text.toList.length) :
      ∃ p e g : String, g ≠ "" ∧
        keys.gatewayBase = (KeyBuilder.mk (.str p) (.str e) (.str g)).gatewayBase ∧
        ¬ SameSegments keys ⟨.str p, .str e, .str g⟩ := by
    refine ⟨.ofList p, .ofList e, .ofList g, by simpa using hg, ?_, ?_⟩
    · rw [← String.toList_inj, toList_gatewayBase, toList_base_of_strings, hbase]
    · rintro ⟨hp, -, hg⟩
      have hp' : keys.keyPrefix.text = .ofList p := hp
      have hg' : keys.gatewayId.text = .ofList g := hg
      rcases hne with hne | hne
      · exact hne (by rw [hp', String.toList_ofList])
      · exact hne (by rw [hg', String.toList_ofList])
  by_cases hp : ":gw:".toList <:+: keys.keyPrefix.text.toList ++ ":gw".toList
  · -- The mark begins inside the prefix.
    obtain ⟨x, y, hsplit⟩ := hp
    have hlength := congrArg List.length hsplit
    have hmark : ":gw:".toList = ":gw".toList ++ [':'] := rfl
    refine hother x y (keys.environment.text.toList ++ ':' :: keys.gatewayId.text.toList)
      (by simp) ?_ (.inl ?_)
    · calc keys.keyPrefix.text.toList ++ (":gw:".toList ++
            (keys.environment.text.toList ++ ':' :: keys.gatewayId.text.toList))
          = (keys.keyPrefix.text.toList ++ ":gw".toList) ++
            ':' :: (keys.environment.text.toList ++ ':' :: keys.gatewayId.text.toList) := by
              rw [hmark]
              simp
        _ = _ := by
              rw [← hsplit]
              simp
    · simp at hlength
      omega
  · by_cases he : ':' ∈ keys.environment.text.toList
    · obtain ⟨before, after, hsplit⟩ := List.append_of_mem he
      refine hother keys.keyPrefix.text.toList before
        (after ++ ':' :: keys.gatewayId.text.toList) (by simp) (by simp [hsplit]) (.inr ?_)
      simp
      omega
    · have hg : ':' ∈ keys.gatewayId.text.toList.dropLast := by
        by_contra hg
        exact h ⟨hp, he, hg⟩
      obtain ⟨before, after, hsplit⟩ := List.append_of_mem hg
      have hne : keys.gatewayId.text.toList ≠ [] := by simpa using hid
      obtain ⟨last, hlast⟩ : ∃ last, keys.gatewayId.text.toList =
          keys.gatewayId.text.toList.dropLast ++ [last] :=
        ⟨_, (List.dropLast_append_getLast hne).symm⟩
      have hwhole : keys.gatewayId.text.toList = before ++ ':' :: (after ++ [last]) := by
        rw [hlast, hsplit, List.append_assoc, List.cons_append]
      refine hother keys.keyPrefix.text.toList (keys.environment.text.toList ++ ':' :: before)
        (after ++ [last]) (by simp) ?_ (.inr ?_)
      · rw [hwhole]
        simp
      · have hlength := congrArg List.length hwhole
        simp only [List.length_append, List.length_cons, List.length_nil] at hlength ⊢
        omega

/-! Other gateways, servers and hashes -/

/-- A section with three strings. -/
def segmentSection (p e g : String) : Value :=
  .dict [(.str "key_prefix", .str p), (.str "environment", .str e), (.str "gateway_id", .str g),
    (.str "flush_interval", .scalar (.float ⟨.finite 1, "1.0"⟩))]

theorem buildAnalytics_segmentSection (p e : String) {g : String} (hg : g ≠ "") :
    buildAnalytics (segmentSection p e g) = .ok
      { redis := {}, environment := .str e, gatewayId := some (.str g), keyPrefix := .str p,
        bucketSeconds := 60, retentionSeconds := 3600, heartbeatSeconds := 30,
        queueSize := 10000 } := by
  have htruthy : (Value.str g).truthy = true := bne_iff_ne.mpr hg
  have hid : (if (Value.str g).truthy then some (Value.str g) else none) = some (.str g) :=
    if_pos htruthy
  rw [← hid]
  rfl

theorem accepted_strings (p e : String) {g : String} (hg : g ≠ "") :
    Accepted ⟨.str p, .str e, .str g⟩ :=
  ⟨⟨segmentSection p e g, _, "", buildAnalytics_segmentSection p e hg, rfl⟩, hg⟩

/-- A call of a tool. -/
def callOf (server tool : String) : TimedEvent where
  eventType := .toolCall
  server := server
  tool := tool
  timestamp := 0

theorem toList_toolField (event : TimedEvent) :
    event.toolField.toList = (event.server ++ "::").toList ++ event.tool.toList :=
  String.toList_append

/-- Two tools of two servers can share a field exactly when one server with the mark behind it
starts like the other one. -/
theorem toolField_ne_iff {servers : List String} :
    (∀ event event' : TimedEvent, event.server ∈ servers → event'.server ∈ servers →
      (event.server, event.tool) ≠ (event'.server, event'.tool) →
        event.toolField ≠ event'.toolField) ↔
      ∀ server ∈ servers, ∀ server' ∈ servers, server ≠ server' →
        ¬ (server ++ "::").toList <+: (server' ++ "::").toList := by
  constructor
  · rintro hfields server hserver server' hserver' hne ⟨rest, hrest⟩
    refine hfields (callOf server (.ofList rest)) (callOf server' "") hserver hserver'
      (fun hsame => hne (Prod.mk.inj hsame).1) ?_
    rw [← String.toList_inj, toList_toolField, toList_toolField]
    simpa [callOf] using hrest
  · intro hservers event event' hserver hserver' hne hsame
    have hchars := congrArg String.toList hsame
    rw [toList_toolField, toList_toolField] at hchars
    by_cases hequal : event.server = event'.server
    · rw [hequal, List.append_cancel_left_eq, String.toList_inj] at hchars
      exact hne (Prod.ext hequal hchars)
    · have hleft := List.prefix_append (event.server ++ "::").toList event.tool.toList
      have hright := List.prefix_append (event'.server ++ "::").toList event'.tool.toList
      rw [hchars] at hleft
      rcases Nat.le_total (event.server ++ "::").toList.length
        (event'.server ++ "::").toList.length with hle | hle
      · exact hservers _ hserver _ hserver' hequal
          (List.prefix_of_prefix_length_le hleft hright hle)
      · exact hservers _ hserver' _ hserver (Ne.symm hequal)
          (List.prefix_of_prefix_length_le hright hleft hle)

theorem bucketKey_ne_of_ne {family family' : String × String} (hfamily : family ∈ hashFamilies)
    (hfamily' : family' ∈ hashFamilies) {bid bid' : ℤ} (hne : (family, bid) ≠ (family', bid')) :
    keys.bucketKey family.1 family.2 bid ≠ keys.bucketKey family'.1 family'.2 bid' := by
  intro hsame
  rw [KeyBuilder.bucketKey_inj (colon_not_mem_families family hfamily).1
    (colon_not_mem_families family' hfamily').1] at hsame
  exact hne (Prod.ext (Prod.ext hsame.2.1 hsame.2.2) hsame.1)

/-- Gateways that share a member of a registry have the same base. -/
theorem gatewayBase_eq_of_registry (hkey : keys.registryKey = keys'.registryKey)
    (hmember : keys.registryMember = keys'.registryMember) :
    keys.gatewayBase = keys'.gatewayBase := by
  have hkeyPrefix : keys.keyPrefix.text = keys'.keyPrefix.text := by
    rw [← String.toList_inj] at hkey ⊢
    simpa [KeyBuilder.registryKey] using hkey
  have hbase (k : KeyBuilder) :
      k.gatewayBase.toList = (k.keyPrefix.text ++ ":gw:").toList ++ k.registryMember.toList := by
    rw [toList_gatewayBase, KeyBuilder.registryMember]
    simp only [String.toList_append, List.append_assoc]
    rfl
  rw [← String.toList_inj, hbase, hbase, hkeyPrefix, hmember]

/-- A gateway keeps its keys apart exactly when its environment has no colon, its id none before
its end, no mark of a gateway begins in its prefix, and no server, with the mark of a tool behind
it, starts like another one. -/
theorem keepsKeysApart_iff (haccepted : Accepted keys) (servers : List String) :
    KeepsKeysApart keys servers ↔ Unambiguous keys ∧
      ∀ server ∈ servers, ∀ server' ∈ servers, server ≠ server' →
        ¬ (server ++ "::").toList <+: (server' ++ "::").toList := by
  constructor
  · intro hapart
    refine ⟨?_, toolField_ne_iff.mp hapart.fields⟩
    by_contra hambiguous
    obtain ⟨p, e, g, hg, hbase, hother⟩ :=
      exists_of_not_unambiguous haccepted.gatewayId hambiguous
    have hinfo : OwnKey (KeyBuilder.mk (.str p) (.str e) (.str g)) keys.infoKey := by
      rw [KeyBuilder.infoKey, hbase]
      exact .info
    exact (hapart.gateways _ (accepted_strings p e hg) hother).ownKeys _ .info hinfo
  · rintro ⟨hclear, hservers⟩
    refine ⟨fun keys' haccepted' hother => ⟨fun key hkey hkey' => ?_, fun hregistry => ?_⟩,
      toolField_ne_iff.mpr hservers,
      fun family hfamily family' hfamily' bid bid' => bucketKey_ne_of_ne hfamily hfamily'⟩
    · exact hother (hclear.sameSegments haccepted'.gatewayId
        (gatewayBase_eq_of_ownKey hkey hkey'))
    · exact hother (hclear.sameSegments haccepted'.gatewayId
        (gatewayBase_eq_of_registry hregistry.1 hregistry.2))

theorem accepted_eastKeys : Accepted eastKeys := accepted_strings "mcpgw" "prod" (by decide)

/-- A gateway without colons in its segments and a server keep their keys apart. -/
theorem eastKeys_keepsKeysApart : KeepsKeysApart eastKeys ["db"] := by
  refine (keepsKeysApart_iff accepted_eastKeys ["db"]).mpr ⟨⟨by decide, by decide, by decide⟩, ?_⟩
  simp

/-- The gateway `c` in `a:b` and the gateway `b:c` in `a` write the same keys. -/
theorem colonKeys_not_keepsKeysApart :
    Accepted ⟨.str "mcpgw", .str "a:b", .str "c"⟩ ∧
      ¬ KeepsKeysApart ⟨.str "mcpgw", .str "a:b", .str "c"⟩ ["db"] := by
  refine ⟨accepted_strings "mcpgw" "a:b" (by decide), fun hapart => ?_⟩
  have hisolated := hapart.gateways _ (accepted_strings "mcpgw" "a" (by decide : "b:c" ≠ ""))
    fun hsame => absurd hsame.2.1 (by decide)
  exact hisolated.ownKeys "mcpgw:gw:a:b:c:info" .info .info

end McpZero.Analytics
