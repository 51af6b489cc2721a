import McpZero.Governance.DenyOverrides
import Mathlib.Data.Set.Finite.List
import Mathlib.Data.Fintype.EquivFin

/-! Deny rules for everyone. Empty subjects and a wildcard among the groups concern every
caller. A wildcard among the users is only the name of a user. -/
namespace McpZero.Governance
open Python Lib

/-- A value in which the wildcard can be looked up and from which `set(...)` can be made. -/
def IsHashables (v : Value) : Prop :=
  (∃ b, v.hasStr "*" = .ok b) ∧ ∃ items, v.iter = .ok items ∧ checkHashable items = .ok ()

namespace PolicySubjects

def Unrestricted (s : PolicySubjects) : Prop := s.users.truthy = false ∧ s.groups.truthy = false

/-- The ways to write a rule for everyone. -/
def Everyone (s : PolicySubjects) : Prop :=
  s.users.hasStr "*" = .ok true ∨ s.groups.hasStr "*" = .ok true ∨ s.Unrestricted

/-- The subjects concern every caller, or the look-up among the groups fails for every caller. -/
def Covering (s : PolicySubjects) : Prop :=
  s.Unrestricted ∨ s.groups.hasStr "*" = .ok true ∨ ¬ IsHashables s.groups

end PolicySubjects

/-- The same call of another caller. -/
def PolicyInput.withCaller (i : PolicyInput) (userId : String) (groups : List String) :
    PolicyInput :=
  { i with userId, groups }

/-- A rule denies a call for everyone, whatever else the policy says. -/
def PolicyRule.DeniesEveryone (r : PolicyRule) (i : PolicyInput) : Prop :=
  ∀ p : PolicyConfig, r ∈ p.policies →
    ∀ userId groups, (PolicyEngine.evaluate p (i.withCaller userId groups)).effect = .deny

theorem finite_hasStr {v : Value} : {s | v.hasStr s = .ok true}.Finite := by
  have hlist (items : List Value) : {s | items.any (Value.eqStr s) = true}.Finite := by
    have himage : (Value.str '' {s | .str s ∈ items}).Finite := by
      apply items.finite_toSet.subset
      intro v hv
      obtain ⟨s, hs, rfl⟩ := hv
      exact hs
    have hinj : Function.Injective Value.str := fun s t h => by simpa using h
    apply (Set.Finite.of_finite_image himage hinj.injOn).subset
    intro s hs
    exact (any_eqStr_value items s).mp hs
  cases v with
  | list items => exact (hlist items).subset fun s hs => Except.ok.inj hs
  | group kind items => exact (hlist items).subset fun s hs => Except.ok.inj hs
  | dict entries =>
    have hinj : Function.Injective Scalar.str := fun s t h => by simpa using h
    have himage : (Scalar.str '' {s | .str s ∈ entries.map Prod.fst}).Finite := by
      apply (entries.map Prod.fst).finite_toSet.subset
      intro a ha
      obtain ⟨s, hs, rfl⟩ := ha
      exact hs
    apply (Set.Finite.of_finite_image himage hinj.injOn).subset
    intro s hs
    have hany := List.any_eq_true.mp (Except.ok.inj hs)
    obtain ⟨e, he, heq⟩ := hany
    exact List.mem_map.mpr ⟨e, he, eq_of_beq heq⟩
  | scalar a =>
    cases a with
    | str t =>
      have himage : (String.toList '' {s | s.toList <:+: t.toList}).Finite := by
        apply t.toList.sublists.finite_toSet.subset
        intro cs hcs
        obtain ⟨s, hs, rfl⟩ := hcs
        exact List.mem_sublists.mpr hs.sublist
      apply (Set.Finite.of_finite_image himage (fun s _ s' _ h => String.toList_inj.mp h)).subset
      intro s hs
      exact of_decide_eq_true (Except.ok.inj hs)
    | none => simp [Value.hasStr]
    | bool b => simp [Value.hasStr]
    | int n => simp [Value.hasStr]
    | float x => simp [Value.hasStr]
    | bytes bs => simp [Value.hasStr]
    | other t x => simp [Value.hasStr]

theorem infinite_string : Infinite String := by
  apply Infinite.of_injective fun n => String.ofList (List.replicate n '*')
  intro m n h
  have hlists := String.ofList_injective h
  simpa using congrArg List.length hlists

/-- A collection that holds the wildcard does not hold every name. -/
theorem exists_hasStr_eq_false {v : Value} (h : v.hasStr "*" = .ok true) :
    ∃ s, v.hasStr s = .ok false := by
  have hsome : ∃ s, s ∉ {s | v.hasStr s = .ok true} := by
    have hinfinite := infinite_string
    exact finite_hasStr.exists_notMem
  obtain ⟨s, hs⟩ := hsome
  refine ⟨s, ?_⟩
  have hok : ∃ b, v.hasStr s = .ok b := by
    cases v with
    | list items => exact ⟨_, rfl⟩
    | group kind items => exact ⟨_, rfl⟩
    | dict entries => exact ⟨_, rfl⟩
    | scalar a =>
      cases a with
      | str t => exact ⟨_, rfl⟩
      | none => cases h
      | bool b => cases h
      | int n => cases h
      | float x => cases h
      | bytes bs => cases h
      | other t x => cases h
  obtain ⟨b, hb⟩ := hok
  cases b with
  | false => exact hb
  | true => exact absurd hb hs

namespace PolicyEngine

/-- The servers and the tools of a rule do not look at the caller. -/
theorem serversMatch_withCaller (i : PolicyInput) (userId : String) (groups : List String)
    (access : List PolicyServerAccess) :
    serversMatch (i.withCaller userId groups) access = serversMatch i access := by
  induction access with
  | nil => rfl
  | cons a access ih =>
    unfold serversMatch
    rw [ih]
    rfl

theorem intersects_nil {v : Value} (h : IsHashables v) : intersects [] v = .ok false := by
  obtain ⟨-, items, hitems, hhash⟩ := h
  unfold intersects
  simp only [bind_eq_ok, List.any_nil, pure_eq_ok, and_true]
  exact ⟨items, hitems, (), hhash⟩

theorem isHashables_of_intersects {groups : List String} {v : Value} {star b : Bool}
    (hstar : v.hasStr "*" = .ok star) (h : intersects groups v = .ok b) : IsHashables v := by
  unfold intersects at h
  simp only [bind_eq_ok] at h
  obtain ⟨items, hitems, ⟨⟩, hhash, -⟩ := h
  exact ⟨⟨star, hstar⟩, items, hitems, hhash⟩

/-- Subjects that cover everyone never fail to match: they match, or they raise. -/
theorem subjectsMatch_of_covering {s : PolicySubjects} (h : s.Covering) (i : PolicyInput) :
    subjectsMatch s i ≠ .ok false := by
  intro hfalse
  unfold subjectsMatch at hfalse
  by_cases hempty : s.Unrestricted
  · simp [hempty.1, hempty.2, pure, Except.pure] at hfalse
  · have hguard : (!s.users.truthy && !s.groups.truthy) = false := by
      rw [Bool.eq_false_iff]
      intro hboth
      rw [Bool.and_eq_true, Bool.not_eq_true', Bool.not_eq_true'] at hboth
      exact hempty hboth
    rw [hguard] at hfalse
    simp only [Bool.false_eq_true, if_false, bind_eq_ok] at hfalse
    obtain ⟨user, -, hfalse⟩ := hfalse
    cases user with
    | true => cases hfalse
    | false =>
      simp only [Bool.false_eq_true, if_false, bind_eq_ok] at hfalse
      obtain ⟨star, hstar, hfalse⟩ := hfalse
      cases star with
      | true => cases hfalse
      | false =>
        have hhashables := isHashables_of_intersects hstar hfalse
        rcases h with hnone | hgroups | hraises
        · exact hempty hnone
        · rw [hgroups] at hstar
          cases hstar
        · exact hraises hhashables

/-- A user who is not named, without groups, is not matched by a wildcard among the users. -/
theorem exists_subjectsMatch_eq_false {s : PolicySubjects} (h : s.Everyone) (hc : ¬ s.Covering)
    (i : PolicyInput) : ∃ userId, subjectsMatch s (i.withCaller userId []) = .ok false := by
  unfold PolicySubjects.Covering at hc
  push Not at hc
  obtain ⟨hsome, hgroups, hhashables⟩ := hc
  have husers : s.users.hasStr "*" = .ok true := by
    rcases h with husers | hstar | hnone
    · exact husers
    · exact absurd hstar hgroups
    · exact absurd hnone hsome
  obtain ⟨userId, huser⟩ := exists_hasStr_eq_false husers
  refine ⟨userId, ?_⟩
  have hguard : (!s.users.truthy && !s.groups.truthy) = false := by
    rw [Bool.eq_false_iff]
    intro hboth
    rw [Bool.and_eq_true, Bool.not_eq_true', Bool.not_eq_true'] at hboth
    exact hsome hboth
  have hstar : s.groups.hasStr "*" = .ok false := by
    obtain ⟨⟨b, hb⟩, -⟩ := hhashables
    cases b with
    | false => exact hb
    | true => exact absurd hb hgroups
  have hnone : intersects [] s.groups = .ok false := intersects_nil hhashables
  unfold subjectsMatch
  rw [hguard]
  simp only [Bool.false_eq_true, if_false, PolicyInput.withCaller, huser, hstar, hnone, bind,
    Except.bind]

/-- A deny rule that never fails to match denies, whatever the other rules are. -/
theorem effect_of_deny_rule {p : PolicyConfig} {i : PolicyInput} {r : PolicyRule}
    (hr : r ∈ p.policies) (hdeny : r.effect = .deny) (h : ruleMatches r i ≠ .ok false) :
    (evaluate p i).effect = .deny := by
  by_cases hraises : ∃ r ∈ p.policies, ∃ e, ruleMatches r i = .error e
  · exact effect_of_raises hraises
  · obtain ⟨m, hm⟩ := exists_matching hraises
    have hmr : m r = true := by
      rw [hm r hr] at h
      simpa using h
    apply (effect_eq_deny_iff hm).mpr
    exact .inl ⟨r, hr, hmr, hdeny⟩

end PolicyEngine

open PolicyEngine

/-- A deny rule for everyone whose servers and tools match denies every caller exactly when its
wildcard does not stand among the users alone. -/
theorem PolicyRule.deniesEveryone_iff {r : PolicyRule} {i : PolicyInput}
    (hdeny : r.effect = .deny) (heveryone : r.subjects.Everyone)
    (hserver : serversMatch i r.mcpServers = .ok true) :
    r.DeniesEveryone i ↔ r.subjects.Covering := by
  constructor
  · intro h
    by_contra hcovering
    obtain ⟨userId, huser⟩ := exists_subjectsMatch_eq_false heveryone hcovering i
    let p : PolicyConfig :=
      { version := .int 1, default := .allow, identity := none, servers := [], policies := [r],
        logging := {}, masking := {}, analytics := none, cors := none, plugins := [] }
    have heffect := h p List.mem_cons_self userId []
    have hmatches : ∀ r' ∈ p.policies, ruleMatches r' (i.withCaller userId []) = .ok false := by
      intro r' hr'
      rw [List.mem_singleton.mp hr']
      simp [ruleMatches, huser, bind, Except.bind, pure, Except.pure]
    rw [effect_eq_deny_iff (m := fun _ => false) hmatches] at heffect
    simp [p] at heffect
  · intro hcovering p hr userId groups
    apply effect_of_deny_rule hr hdeny
    intro hfalse
    unfold ruleMatches at hfalse
    rw [serversMatch_withCaller, hserver] at hfalse
    have hsubjects := subjectsMatch_of_covering hcovering (i.withCaller userId groups)
    cases hmatch : subjectsMatch r.subjects (i.withCaller userId groups) with
    | error e =>
      rw [hmatch] at hfalse
      cases hfalse
    | ok b =>
      cases b with
      | false => exact hsubjects hmatch
      | true =>
        rw [hmatch] at hfalse
        cases hfalse

/-- The example of the configuration guide, after a rule that lets one group use every tool. -/
def denyForAllUsers : Dict :=
  [(.str "version", .int 1),
   (.str "policies", .list
     [.dict
       [(.str "id", .str "allow-platform-ops"), (.str "description", .str "Allow Platform Ops"),
        (.str "effect", .str "allow"),
        (.str "subjects", .dict [(.str "groups", .list [.str "platform-ops"])]),
        (.str "mcp_servers", .list [.dict [(.str "name", .str "*")]])],
      .dict
       [(.str "id", .str "deny-dangerous-tools"),
        (.str "description", .str "Deny destructive tools for all users"),
        (.str "effect", .str "deny"),
        (.str "subjects", .dict [(.str "users", .list [.str "*"])]),
        (.str "mcp_servers", .list [.dict
          [(.str "name", .str "*"), (.str "tools", .list [.str "delete_*", .str "drop_*"])]])]])]

def deletion : PolicyInput :=
  { userId := "alice", groups := ["platform-ops"], mcpServer := "db", tool := "delete_user" }

/-- The rule of the guide denies the deletion to nobody but a user of the name `*`. -/
theorem denyForAllUsers_allows :
    ∃ p, Loader.loadPolicy (.dict denyForAllUsers) = .ok p ∧
      (∃ r ∈ p.policies, r.effect = .deny ∧ r.subjects.Everyone ∧
        serversMatch deletion r.mcpServers = .ok true) ∧
      (evaluate p deletion).effect = .allow :=
  ⟨_, rfl, ⟨_, List.mem_cons_of_mem _ List.mem_cons_self, rfl, .inl rfl, rfl⟩, rfl⟩

/-- The same rule, with its wildcard among the groups. -/
def denyForAllGroups : PolicyRule where
  id := .str "deny-dangerous-tools"
  description := .str "Deny destructive tools for all users"
  effect := .deny
  subjects := { groups := .list [.str "*"] }
  mcpServers := [{ name := .str "*", tools := .list [.str "delete_*", .str "drop_*"] }]

theorem denyForAllGroups_deniesEveryone : denyForAllGroups.DeniesEveryone deletion :=
  (PolicyRule.deniesEveryone_iff rfl (.inr (.inl rfl)) rfl).mpr (.inr (.inl rfl))

end McpZero.Governance
