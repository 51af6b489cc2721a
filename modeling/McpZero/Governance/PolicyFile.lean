import McpZero.Governance.LoaderErrors
import McpZero.Governance.ServerNames

/-! Loading a policy file, from its bytes on, and the error types of the loader. The YAML and
JSON parsers are parameters. -/
namespace McpZero.Governance
open Python Lib

/-- How a parser fails: with its own error class, or with another exception. -/
inductive ParseError
  | malformed (text : String)
  | raised (e : Exc)

/-- The parsers, and the text of the error for bytes that are no UTF-8. -/
structure Parsers where
  yaml : String → Except ParseError Value
  json : String → Except ParseError Value
  decodeError : ByteArray → String

/-- What is found at the path: nothing, a path that `exists` cannot look up, something that cannot
be read, or a content. -/
inductive FileContent
  | missing
  | unreachable (e : Exc)
  | unreadable (text : String)
  | bytes (content : ByteArray)

structure PolicyFile where
  path : String
  content : FileContent

namespace Loader

/-- The line ends that reading a text translates. -/
def universalNewlines : List Char → List Char
  | [] => []
  | '\r' :: '\n' :: cs => '\n' :: universalNewlines cs
  | '\r' :: cs => '\n' :: universalNewlines cs
  | c :: cs => c :: universalNewlines cs

/-- `Path.name`: the last component. -/
def pathName (path : String) : List Char :=
  ((path.toList.splitOn '/').filter fun part => part != [] && part != ['.']).getLastD []

/-- `Path.suffix.lower()`: the last dot of the name and what stands behind it, if there is
something on both sides. -/
def pathSuffix (path : String) : List Char :=
  let name := pathName path
  let rest := (name.reverse.takeWhile (· != '.')).reverse
  if rest != [] && rest.length + 1 < name.length then '.' :: rest.map Char.toLower else []

/-- The first two steps of `load_policy_file`. The test for existence stands outside the `try`,
and an undecodable content is no `OSError`. -/
def readText (parsers : Parsers) (file : PolicyFile) : Except LoadError String :=
  match file.content with
  | .missing => .error (.file ("Policy file not found: " ++ file.path))
  | .unreachable e => .error (.escaped e)
  | .unreadable text => .error (.file ("Failed to read policy file: " ++ text))
  | .bytes content =>
    match String.fromUTF8? content with
    | some text => .ok (String.ofList (universalNewlines text.toList))
    | none => .error (.escaped (.other "UnicodeDecodeError" (parsers.decodeError content)))

/-- The parser for a suffix, with the name of its format. -/
def parserFor (parsers : Parsers) (suffix : List Char) :
    Option (String × (String → Except ParseError Value)) :=
  if suffix = ".yaml".toList ∨ suffix = ".yml".toList then some ("YAML", parsers.yaml)
  else if suffix = ".json".toList then some ("JSON", parsers.json)
  else none

/-- `_parse_content`, without the test of the top level. -/
def parseContent (parsers : Parsers) (content path : String) : Except LoadError Value :=
  match parserFor parsers (pathSuffix path) with
  | none => .error (.file ("Unsupported policy file extension '" ++
      String.ofList (pathSuffix path) ++ "' (expected .yaml, .yml, or .json)"))
  | some (format, parse) =>
    (parse content).mapError fun
      | .malformed text => .file ("Failed to parse " ++ format ++ ": " ++ text)
      | .raised e => .escaped e

/-- `load_policy_file`. -/
def loadPolicyFile (parsers : Parsers) (file : PolicyFile) : Except LoadError PolicyConfig := do
  let content ← readText parsers file
  let data ← parseContent parsers content file.path
  loadPolicy data

end Loader

/-- The name in an entry is a string or a set, which can be looked up, or holds the wildcard and is
not. -/
def NameTyped (name : Value) : Prop :=
  IsStr name ∨ (∃ items, name = .group .set items) ∨ name.hasStr "*" = .ok true

/-- The name passes the look-up. -/
def PolicyConfig.Refers (p : PolicyConfig) (name : Value) : Prop :=
  name.hasStr "*" = .ok true ∨ ∃ s, name = .str s ∧ p.Declares s

/-- The id of a rule and the name of a server in it, which the errors about the entry give, can be
written. -/
def Written (r : PolicyRule) (a : PolicyServerAccess) : Prop :=
  ∀ v ∈ [r.id, a.name], v.prints = true

/-- The name is typed, and the error for one that does not pass can be written. -/
def ReferenceTyped (p : PolicyConfig) (r : PolicyRule) (a : PolicyServerAccess) : Prop :=
  NameTyped a.name ∧ (¬ p.Refers a.name → Written r a)

/-- An element of the tools can be searched, and is a string if it holds the wildcard; the error for
a misplaced one can be written. -/
def ToolTyped (r : PolicyRule) (a : PolicyServerAccess) (tool : Value) : Prop :=
  IsCollection tool ∧ (tool.hasStr "*" = .ok true → IsStr tool) ∧ (Trips tool → Written r a)

/-- The tools can be run over, and each element that is reached is typed. -/
def ToolsTyped (r : PolicyRule) (a : PolicyServerAccess) : Prop :=
  ∃ items, a.tools.iter = .ok items ∧ Reached (fun v => ¬ Trips v) (ToolTyped r a) items

/-- The parts of the loader in the order in which they run. -/
inductive Part
  | version | default | identity | servers | policies | logging | masking | analytics | cors
  | plugins | number | references | tools

namespace Part
open Loader

def building : List Part :=
  [.version, .default, .identity, .servers, .policies, .logging, .masking, .analytics, .cors,
    .plugins, .number]

def order : List Part := building ++ [.references, .tools]

/-- The part raises nothing. -/
def Passes (d : Dict) : Part → Prop
  | .version => ∃ v, buildVersion d = .ok v
  | .default => ∃ e, effect (d.getD "default" (.str "deny")) "default" = .ok e
  | .identity => ∃ identity, section? d "identity" buildIdentity = .ok identity
  | .servers => ∃ servers, buildServers d = .ok servers
  | .policies => ∃ rules, buildPolicies d = .ok rules
  | .logging => ∃ logging, section? d "logging" buildLogging = .ok logging
  | .masking => ∃ masking, section? d "masking" buildMasking = .ok masking
  | .analytics => ∃ analytics, section? d "analytics" buildAnalytics = .ok analytics
  | .cors => ∃ cors, section? d "cors" buildCors = .ok cors
  | .plugins => ∃ plugins, section? d "plugins" buildPlugins = .ok plugins
  | .number => ∃ p, buildPolicyConfig d = .ok p
  | .references => ∀ p, buildPolicyConfig d = .ok p →
      ∀ r ∈ p.policies, ∀ a ∈ r.mcpServers, p.Refers a.name
  | .tools => ∀ p, buildPolicyConfig d = .ok p →
      ∀ r ∈ p.policies, ∀ a ∈ r.mcpServers, ¬ ToolsTrip a.tools

/-- The values that the part looks at have the types it relies on. -/
def Typed (d : Dict) : Part → Prop
  | .version | .masking | .number => True
  | .default => (d.getD "default" (.str "deny")).prints = true
  | .identity => Field IdentityTyped "identity" d
  | .servers => ServersTyped d
  | .policies => PoliciesTyped d
  | .logging => Field LoggingTyped "logging" d
  | .analytics => Field AnalyticsTyped "analytics" d
  | .cors => Field CorsTyped "cors" d
  | .plugins => Field PluginsTyped "plugins" d
  | .references => ∀ p, buildPolicyConfig d = .ok p →
      Reached (fun r => ∀ a ∈ r.mcpServers, p.Refers a.name)
        (fun r => Reached (fun a => p.Refers a.name) (ReferenceTyped p r) r.mcpServers)
        p.policies
  | .tools => ∀ p, buildPolicyConfig d = .ok p →
      Reached (fun r => ∀ a ∈ r.mcpServers, ¬ ToolsTrip a.tools)
        (fun r => Reached (fun a => ¬ ToolsTrip a.tools) (ToolsTyped r) r.mcpServers)
        p.policies

end Part

namespace Loader

theorem passes_of_build {d : Dict} {p : PolicyConfig} (h : buildPolicyConfig d = .ok p) :
    ∀ part ∈ Part.building, part.Passes d := by
  have hbuild := h
  unfold buildPolicyConfig at h
  simp only [bind_eq_ok] at h
  obtain ⟨version, hversion, default, hdefault, identity, hidentity, servers, hservers, policies,
    hpolicies, logging, hlogging, masking, hmasking, analytics, hanalytics, cors, hcors, plugins,
    hplugins, -⟩ := h
  intro part hpart
  cases part with
  | version => exact ⟨version, hversion⟩
  | default => exact ⟨default, hdefault⟩
  | identity => exact ⟨identity, hidentity⟩
  | servers => exact ⟨servers, hservers⟩
  | policies => exact ⟨policies, hpolicies⟩
  | logging => exact ⟨logging, hlogging⟩
  | masking => exact ⟨masking, hmasking⟩
  | analytics => exact ⟨analytics, hanalytics⟩
  | cors => exact ⟨cors, hcors⟩
  | plugins => exact ⟨plugins, hplugins⟩
  | number => exact ⟨p, hbuild⟩
  | references => exact absurd hpart (by simp [Part.building])
  | tools => exact absurd hpart (by simp [Part.building])

theorem documented_buildPolicyConfig (d : Dict) :
    Documented (buildPolicyConfig d) ↔ Reached (Part.Passes d) (Part.Typed d) Part.building := by
  have hnumber : ∀ c : PolicyConfig, Documented (catching "version" c.postInit) := by
    intro c
    apply documented_catching.mpr
    intro e he
    unfold PolicyConfig.postInit at he
    split_ifs at he
    exact valueError_isValueError e he
  unfold buildPolicyConfig Part.building
  simp only [documented_bind, documented_buildVersion, documented_effect, documented_section?,
    documented_buildIdentity, documented_buildServers, documented_buildPolicies,
    documented_buildLogging, documented_buildMasking, documented_buildAnalytics,
    documented_buildCors, documented_buildPlugins, hnumber, reached_cons, reached_nil,
    Part.Passes, Part.Typed, Field, exists_imp, implies_true, and_true, true_and]

theorem hasStr_star_str (s : String) : Value.hasStr (.str s) "*" = .ok (hasSubstring s "*") := rfl

theorem isCollection_of_hasStr {v : Value} {s : String} {b : Bool} (h : v.hasStr s = .ok b) :
    IsCollection v := by
  apply hasStr_error (s := s) |>.mp
  intro e he
  rw [h] at he
  cases he

/-- Searching a collection returns. -/
theorem exists_hasStr_eq_ok {v : Value} {s : String} : (∃ b, v.hasStr s = .ok b) ↔ IsCollection v := by
  constructor
  · intro h
    obtain ⟨b, hb⟩ := h
    exact isCollection_of_hasStr hb
  · intro h
    match v with
    | .str t => exact ⟨_, rfl⟩
    | .list items => exact ⟨_, rfl⟩
    | .group kind items => exact ⟨_, rfl⟩
    | .dict entries => exact ⟨_, rfl⟩
    | .scalar .none | .scalar (.bool _) | .scalar (.int _) | .scalar (.float _) | .bytes _
    | .scalar (.other _ _) => simp [IsCollection] at h

theorem isStr_of_scalar {v : Value} (hscalar : IsScalar v) (h : IsCollection v) : IsStr v := by
  obtain ⟨a, rfl⟩ := hscalar
  obtain ⟨s, rfl⟩ := h
  exact ⟨s, rfl⟩

theorem isCollection_of_isStr {v : Value} (h : IsStr v) : IsCollection v := by
  obtain ⟨s, rfl⟩ := h
  exact ⟨s, rfl⟩

theorem isScalar_of_isStr {v : Value} (h : IsStr v) : IsScalar v := by
  obtain ⟨s, rfl⟩ := h
  exact ⟨_, rfl⟩

theorem documented_isKnown {seen : List Scalar} {name : Value} :
    Documented (isKnown seen name) ↔ IsScalar name ∨ ∃ items, name = .group .set items := by
  unfold isKnown
  split
  · rename_i items
    exact ⟨fun _ => .inr ⟨items, rfl⟩, fun _ => documented_ok⟩
  · rename_i hset
    rw [documented_bind, documented_seenBefore, and_iff_left fun _ _ => documented_pure]
    constructor
    · intro h
      exact .inl h
    · intro h
      rcases h with hscalar | ⟨items, hitems⟩
      · exact hscalar
      · exact absurd hitems (hset items)

theorem exists_isKnown_eq_ok (seen : List Scalar) {name : Value}
    (h : IsScalar name ∨ ∃ items, name = .group .set items) :
    ∃ known, isKnown seen name = .ok known := by
  rcases h with ⟨a, rfl⟩ | ⟨items, rfl⟩
  · exact ⟨_, rfl⟩
  · exact ⟨false, rfl⟩

/-- A collection is found among the server names if it is a string that is declared. -/
theorem isKnown_eq_true {p : PolicyConfig} {name : Value} (hcollection : IsCollection name) :
    isKnown (serverNames p) name = .ok true ↔ ∃ s, name = .str s ∧ p.Declares s := by
  match name with
  | .str s =>
    have hknown : isKnown (serverNames p) (.str s) =
        .ok ((serverNames p).any (·.pyEq (.str s))) := rfl
    rw [hknown, Except.ok.injEq, serverNames_any]
    simp
  | .group .set items => simp [isKnown]
  | .list items | .group .tuple items | .dict entries =>
    simp [isKnown, seenBefore, bind, Except.bind]
  | .scalar .none | .scalar (.bool _) | .scalar (.int _) | .scalar (.float _) | .bytes _
  | .scalar (.other _ _) => simp [IsCollection] at hcollection

theorem checkReference_eq_ok {p : PolicyConfig} {r : PolicyRule} {a : PolicyServerAccess} :
    checkReference (serverNames p) r a = .ok () ↔ p.Refers a.name := by
  unfold checkReference PolicyConfig.Refers
  rw [bind_eq_ok]
  simp only [escaping_eq_ok]
  constructor
  · intro h
    obtain ⟨b, hb, hlookup⟩ := h
    cases b with
    | true => exact .inl hb
    | false =>
      simp only [Bool.false_eq_true, if_false] at hlookup
      obtain ⟨known, hknown, hfound⟩ := bind_eq_ok.mp hlookup
      cases known with
      | true => exact .inr ((isKnown_eq_true (isCollection_of_hasStr hb)).mp hknown)
      | false => cases hfound
  · intro h
    rcases h with hstar | hdeclared
    · exact ⟨true, hstar, rfl⟩
    · obtain ⟨s, hs, -⟩ := id hdeclared
      have hcollection : IsCollection a.name := isCollection_of_isStr ⟨s, hs⟩
      obtain ⟨b, hb⟩ := exists_hasStr_eq_ok (s := "*").mpr hcollection
      refine ⟨b, hb, ?_⟩
      cases b with
      | true => rfl
      | false =>
        simp only [Bool.false_eq_true, if_false]
        exact bind_eq_ok.mpr ⟨true, (isKnown_eq_true hcollection).mpr hdeclared, rfl⟩

theorem documented_checkReference {p : PolicyConfig} {r : PolicyRule} {a : PolicyServerAccess} :
    Documented (checkReference (serverNames p) r a) ↔ ReferenceTyped p r a := by
  unfold checkReference ReferenceTyped NameTyped PolicyConfig.Refers
  rw [documented_bind, documented_escaping, exists_hasStr_eq_ok]
  constructor
  · intro h
    obtain ⟨hcollection, hlookup⟩ := h
    obtain ⟨b, hb⟩ := exists_hasStr_eq_ok (s := "*").mpr hcollection
    cases b with
    | true => exact ⟨.inr (.inr hb), fun hrefers => absurd (.inl hb) hrefers⟩
    | false =>
      have hknown := hlookup false (escaping_eq_ok.mpr hb)
      simp only [Bool.false_eq_true, if_false] at hknown
      obtain ⟨hisKnown, hfound⟩ := documented_bind.mp hknown
      have hname := documented_isKnown.mp hisKnown
      refine ⟨?_, fun hrefers => ?_⟩
      · rcases hname with hscalar | hset
        · exact .inl (isStr_of_scalar hscalar hcollection)
        · exact .inr (.inl hset)
      · obtain ⟨known, hlooked⟩ := exists_isKnown_eq_ok (serverNames p) hname
        cases known with
        | true => exact absurd (.inr ((isKnown_eq_true hcollection).mp hlooked)) hrefers
        | false => exact (worded_isEscaped_iff id).mp (avoids_throw.mp (hfound false hlooked))
  · intro h
    obtain ⟨hname, hwritten⟩ := h
    have hcollection : IsCollection a.name := by
      rcases hname with hstr | ⟨items, hset⟩ | hstar
      · exact isCollection_of_isStr hstr
      · rw [hset]
        exact trivial
      · exact isCollection_of_hasStr hstar
    refine ⟨hcollection, fun b hb => ?_⟩
    rw [escaping_eq_ok] at hb
    cases b with
    | true => exact documented_pure
    | false =>
      simp only [Bool.false_eq_true, if_false]
      have hlookup : IsScalar a.name ∨ ∃ items, a.name = .group .set items := by
        rcases hname with hstr | hset | hstar
        · exact .inl (isScalar_of_isStr hstr)
        · exact .inr hset
        · rw [hb] at hstar
          cases hstar
      refine documented_bind.mpr ⟨documented_isKnown.mpr hlookup, fun known hknown => ?_⟩
      cases known with
      | true => exact documented_pure
      | false =>
        refine avoids_throw.mpr ((worded_isEscaped_iff id).mpr (hwritten fun hrefers => ?_))
        rcases hrefers with hstar | hdeclared
        · rw [hb] at hstar
          cases hstar
        · rw [(isKnown_eq_true hcollection).mpr hdeclared] at hknown
          cases hknown

/-- A collection trips over the wildcard in it. -/
theorem hasStr_of_trips {tool : Value} (hcollection : IsCollection tool) (h : Trips tool) :
    tool.hasStr "*" = .ok true := by
  match tool with
  | .str s => rw [hasStr_star_str, (hasSubstring_star s).mpr h.1]
  | .list items | .group _ items =>
    have hstar : items.any (Value.eqStr "*") = true := (any_eqStr_value items "*").mpr h
    simp only [Value.hasStr, hstar]
  | .dict entries =>
    obtain ⟨e, he, hkey⟩ := List.mem_map.mp h
    have hstar : entries.any (fun e => e.1 == .str "*") = true :=
      List.any_eq_true.mpr ⟨e, he, beq_iff_eq.mpr hkey⟩
    simp only [Value.hasStr, hstar]
  | .scalar .none | .scalar (.bool _) | .scalar (.int _) | .scalar (.float _) | .bytes _
  | .scalar (.other _ _) => simp [IsCollection] at hcollection

theorem documented_checkTool {r : PolicyRule} {a : PolicyServerAccess} {tool : Value} :
    Documented (checkTool r a tool) ↔ ToolTyped r a tool := by
  unfold checkTool ToolTyped
  rw [documented_bind, documented_escaping, exists_hasStr_eq_ok]
  apply and_congr_right
  intro hcollection
  simp only [escaping_eq_ok]
  constructor
  · intro h
    have hstr : tool.hasStr "*" = .ok true → IsStr tool := by
      intro hstar
      have hre := h true hstar
      simp only [Bool.not_true, Bool.false_eq_true, if_false] at hre
      match tool with
      | .str s => exact ⟨s, rfl⟩
      | .list items => exact absurd trivial (avoids_throw.mp hre)
      | .group kind items => exact absurd trivial (avoids_throw.mp hre)
      | .dict entries => exact absurd trivial (avoids_throw.mp hre)
      | .scalar .none | .scalar (.bool _) | .scalar (.int _) | .scalar (.float _) | .bytes _
      | .scalar (.other _ _) => simp [IsCollection] at hcollection
    refine ⟨hstr, fun htrips => ?_⟩
    have hstar := hasStr_of_trips hcollection htrips
    obtain ⟨s, rfl⟩ := hstr hstar
    have hre := h true hstar
    simp only [Bool.not_true, Bool.false_eq_true, if_false, htrips.2, Bool.not_false, if_true] at hre
    exact (worded_isEscaped_iff id).mp (avoids_throw.mp hre)
  · intro h b hb
    obtain ⟨hstr, hwritten⟩ := h
    cases b with
    | false => exact documented_pure
    | true =>
      obtain ⟨s, rfl⟩ := hstr hb
      simp only [Bool.not_true, Bool.false_eq_true, if_false]
      cases hre : matchesWildcardRe s with
      | true => exact documented_pure
      | false =>
        have htrips : Trips (.str s) := ⟨(hasSubstring_star s).mp (Except.ok.inj hb), hre⟩
        exact avoids_throw.mpr ((worded_isEscaped_iff id).mpr (hwritten htrips))

theorem documented_checkTools {r : PolicyRule} {a : PolicyServerAccess} :
    Documented (escaping a.tools.iter >>= fun tools => tools.forM (checkTool r a)) ↔
      ToolsTyped r a := by
  have hitems : ∀ items : List Value, Documented (items.forM (checkTool r a)) ↔
      Reached (fun v => ¬ Trips v) (ToolTyped r a) items := by
    intro items
    unfold Documented
    rw [avoids_forM]
    exact reached_congr (fun _ => checkTool_eq_ok) (fun _ => documented_checkTool)
  unfold ToolsTyped
  rw [documented_bind, documented_escaping]
  simp only [hitems, escaping_eq_ok]
  constructor
  · intro h
    obtain ⟨⟨items, hiter⟩, hreached⟩ := h
    exact ⟨items, hiter, hreached items hiter⟩
  · intro h
    obtain ⟨items, hiter, hreached⟩ := h
    refine ⟨⟨items, hiter⟩, fun items' hiter' => ?_⟩
    obtain rfl := Except.ok.inj (hiter.symm.trans hiter')
    exact hreached

theorem documented_validateCrossReferences (p : PolicyConfig) :
    Documented (validateCrossReferences p) ↔
      Reached (fun r => ∀ a ∈ r.mcpServers, p.Refers a.name)
        (fun r => Reached (fun a => p.Refers a.name) (ReferenceTyped p r) r.mcpServers)
        p.policies := by
  unfold validateCrossReferences Documented
  rw [avoids_forM]
  apply reached_congr
  · intro r
    rw [forM_eq_ok]
    exact forall₂_congr fun _ _ => checkReference_eq_ok
  · intro r
    rw [avoids_forM]
    exact reached_congr (fun _ => checkReference_eq_ok) (fun _ => documented_checkReference)

theorem documented_validateToolPatterns (p : PolicyConfig) :
    Documented (validateToolPatterns p) ↔
      Reached (fun r => ∀ a ∈ r.mcpServers, ¬ ToolsTrip a.tools)
        (fun r => Reached (fun a => ¬ ToolsTrip a.tools) (ToolsTyped r) r.mcpServers)
        p.policies := by
  unfold validateToolPatterns Documented
  rw [avoids_forM]
  apply reached_congr
  · intro r
    rw [forM_eq_ok]
    exact forall₂_congr fun _ _ => checkTools_eq_ok
  · intro r
    rw [avoids_forM]
    exact reached_congr (fun _ => checkTools_eq_ok) (fun _ => documented_checkTools)

/-- A mapping is loaded or refused as documented exactly when every part that is reached meets
values of its types. -/
theorem documented_loadPolicy (d : Dict) :
    Documented (loadPolicy (.dict d)) ↔ Reached (Part.Passes d) (Part.Typed d) Part.order := by
  unfold loadPolicy Part.order
  rw [documented_bind, documented_buildPolicyConfig, reached_append]
  apply and_congr_right
  intro _
  simp only [reached_cons, reached_nil, Part.Passes, Part.Typed, implies_true, and_true,
    documented_bind, documented_pure, documented_validateCrossReferences,
    documented_validateToolPatterns]
  constructor
  · intro h hpasses
    refine ⟨fun p hp => (h p hp).1, fun hrefers p hp => (h p hp).2 () ?_⟩
    apply validateCrossReferences_eq_ok.mpr
    intro r hr a ha
    exact checkReference_eq_ok.mpr (hrefers p hp r hr a ha)
  · intro h p hp
    have hparts := h (passes_of_build hp)
    refine ⟨hparts.1 p hp, fun u hcross => hparts.2 (fun p' hp' r hr a ha => ?_) p hp⟩
    obtain rfl := Except.ok.inj (hp.symm.trans hp')
    exact checkReference_eq_ok.mp (validateCrossReferences_eq_ok.mp hcross r hr a ha)

end Loader

open Loader

/-- The path can be looked up, the bytes of the file are UTF-8, the parser raises nothing but its
own error class, and in the value tree every part of the loader that is reached meets values of its
types. -/
def PolicyFile.Typed (parsers : Parsers) (file : PolicyFile) : Prop :=
  (∀ e, file.content ≠ .unreachable e) ∧
  ∀ bytes, file.content = .bytes bytes → ∃ text, String.fromUTF8? bytes = some text ∧
    ∀ format parse, parserFor parsers (pathSuffix file.path) = some (format, parse) →
      let result := parse (String.ofList (universalNewlines text.toList))
      (∀ e, result ≠ .error (.raised e)) ∧
        ∀ d, result = .ok (.dict d) → Reached (Part.Passes d) (Part.Typed d) Part.order

theorem documented_readText {parsers : Parsers} {file : PolicyFile} :
    Documented (readText parsers file) ↔ (∀ e, file.content ≠ .unreachable e) ∧
      ∀ bytes, file.content = .bytes bytes → ∃ text, String.fromUTF8? bytes = some text := by
  unfold readText
  cases file.content with
  | missing => simp [Documented, avoids_error, LoadError.IsEscaped]
  | unreachable e => simp [Documented, avoids_error, LoadError.IsEscaped]
  | unreadable text => simp [Documented, avoids_error, LoadError.IsEscaped]
  | bytes content =>
    cases htext : String.fromUTF8? content with
    | none => simp [htext, Documented, avoids_error, LoadError.IsEscaped]
    | some text => simp [htext, documented_ok]

theorem readText_eq_ok {parsers : Parsers} {file : PolicyFile} {content : String} :
    readText parsers file = .ok content ↔ ∃ bytes text, file.content = .bytes bytes ∧
      String.fromUTF8? bytes = some text ∧
        content = String.ofList (universalNewlines text.toList) := by
  unfold readText
  cases file.content with
  | missing => simp
  | unreachable e => simp
  | unreadable text => simp
  | bytes bytes =>
    cases htext : String.fromUTF8? bytes with
    | none => simp [htext]
    | some text => simp [htext, eq_comm]

theorem documented_parseContent {parsers : Parsers} {content path : String} :
    Documented (parseContent parsers content path) ↔
      ∀ format parse, parserFor parsers (pathSuffix path) = some (format, parse) →
        ∀ e, parse content ≠ .error (.raised e) := by
  unfold parseContent
  cases parserFor parsers (pathSuffix path) with
  | none => simp [Documented, avoids_error, LoadError.IsEscaped]
  | some found =>
    obtain ⟨format, parse⟩ := found
    simp only [Option.some.injEq, Prod.mk.injEq, and_imp, forall_eq', forall_apply_eq_imp_iff]
    cases parse content with
    | ok data => simp [Except.mapError, documented_ok]
    | error e => cases e <;> simp [Except.mapError, Documented, avoids_error, LoadError.IsEscaped]

theorem parseContent_eq_ok {parsers : Parsers} {content path : String} {data : Value} :
    parseContent parsers content path = .ok data ↔
      ∃ format parse, parserFor parsers (pathSuffix path) = some (format, parse) ∧
        parse content = .ok data := by
  unfold parseContent
  cases parserFor parsers (pathSuffix path) with
  | none => simp
  | some found =>
    obtain ⟨format, parse⟩ := found
    simp [map_error_eq_ok]

theorem documented_loadPolicy_value (data : Value) :
    Documented (loadPolicy data) ↔
      ∀ d, data = .dict d → Reached (Part.Passes d) (Part.Typed d) Part.order := by
  cases data with
  | dict d => simp [documented_loadPolicy]
  | scalar a => simp [loadPolicy, Documented, avoids_error, LoadError.IsEscaped]
  | list items => simp [loadPolicy, Documented, avoids_error, LoadError.IsEscaped]
  | group kind items => simp [loadPolicy, Documented, avoids_error, LoadError.IsEscaped]

theorem fromUTF8?_toUTF8 (s : String) : String.fromUTF8? s.toUTF8 = some s := by
  unfold String.fromUTF8?
  have hvalid : s.toUTF8.IsValidUTF8 := s.isValidUTF8
  rw [dif_pos hvalid]
  rfl

def numericLevel : String := "version: 1\nlogging:\n  level: 5\n"

/-- The YAML parser on one text. -/
def numericLevelParsers : Parsers where
  yaml text :=
    if text = numericLevel then
      .ok (.dict [(.str "version", .int 1), (.str "logging", .dict [(.str "level", .int 5)])])
    else .error (.malformed "mapping values are not allowed here")
  json _ := .error (.malformed "Expecting value: line 1 column 1 (char 0)")
  decodeError _ := "'utf-8' codec can't decode byte 0xff in position 0: invalid start byte"

end McpZero.Governance
