import McpZero.Governance.Decision

/-! Deny overrides allow: which rule decides, and what does not depend on the order of the
rules. The rule that is named is the first of the deciding effect; the effect is that of the
whole set of rules. -/
namespace McpZero.Governance
open Python Lib

/-- The rule has its documented types and matches the input. -/
def PolicyRule.Matches (r : PolicyRule) (i : PolicyInput) : Prop :=
  ∃ R, r.reading = some R ∧ R.Matches i

def PolicyConfig.WellTyped (p : PolicyConfig) : Prop := ∃ R, p.reading = some R

/-- `r` is the first rule in file order with the effect that matches. -/
def FirstMatch (effect : PolicyEffect) (i : PolicyInput) (rules : List PolicyRule)
    (r : PolicyRule) : Prop :=
  r.effect = effect ∧ r.Matches i ∧ ∃ before after, rules = before ++ r :: after ∧
    ∀ r' ∈ before, r'.effect = effect → ¬ r'.Matches i

namespace PolicyEngine

/-- What decides a policy: a matching deny rule, else a matching allow rule, else the
default. -/
inductive DecidedBy (p : PolicyConfig) (i : PolicyInput) : EvaluationResult → Prop
  | deny {r : PolicyRule} {reason : Option Value} : FirstMatch .deny i p.policies r →
      DecidedBy p i { effect := .deny, policyId := some r.id, reason := reason }
  | allow {r : PolicyRule} {reason : Option Value} :
      (∀ r' ∈ p.policies, r'.effect = .deny → ¬ r'.Matches i) →
        FirstMatch .allow i p.policies r →
          DecidedBy p i { effect := .allow, policyId := some r.id, reason := reason }
  | default {reason : Option Value} : (∀ r' ∈ p.policies, ¬ r'.Matches i) →
      DecidedBy p i { effect := p.default, policyId := none, reason := reason }

/-- The policy with other rules. -/
def withRules (p : PolicyConfig) (rules : List PolicyRule) : PolicyConfig :=
  { p with policies := rules }

theorem scan_cons_of_ok {i : PolicyInput} {r : PolicyRule} {b : Bool}
    (h : ruleMatches r i = .ok b) (rules : List PolicyRule) (firstDeny firstAllow : Option PolicyRule) :
    ∃ d a, scan i (r :: rules) firstDeny firstAllow = scan i rules d a := by
  cases b with
  | false => exact ⟨firstDeny, firstAllow, by simp [scan, h, bind, Except.bind]⟩
  | true =>
    cases he : r.effect with
    | allow => exact ⟨firstDeny, _, by simp [scan, h, he, bind, Except.bind]; rfl⟩
    | deny => exact ⟨_, firstAllow, by simp [scan, h, he, bind, Except.bind]; rfl⟩

/-- The loop visits every rule, so it raises when the matching of any of them does. -/
theorem exists_scan_eq_error {i : PolicyInput} {rules : List PolicyRule}
    (h : ∃ r ∈ rules, ∃ e, ruleMatches r i = .error e) (firstDeny firstAllow : Option PolicyRule) :
    ∃ e, scan i rules firstDeny firstAllow = .error e := by
  induction rules generalizing firstDeny firstAllow with
  | nil => simp at h
  | cons r rules ih =>
    cases hr : ruleMatches r i with
    | error e => exact ⟨e, by simp [scan, hr, bind, Except.bind]⟩
    | ok b =>
      have hrest : ∃ r ∈ rules, ∃ e, ruleMatches r i = .error e := by
        obtain ⟨r', hr', e, he⟩ := h
        rcases List.mem_cons.mp hr' with rfl | hr'
        · rw [hr] at he
          cases he
        · exact ⟨r', hr', e, he⟩
      obtain ⟨d, a, hscan⟩ := scan_cons_of_ok hr rules firstDeny firstAllow
      rw [hscan]
      exact ih hrest d a

/-- An exception in the matching of a rule denies. -/
theorem effect_of_raises {p : PolicyConfig} {i : PolicyInput}
    (h : ∃ r ∈ p.policies, ∃ e, ruleMatches r i = .error e) : (evaluate p i).effect = .deny := by
  obtain ⟨e, he⟩ := exists_scan_eq_error h none none
  simp [evaluate, evaluateRules, he, bind, Except.bind]

/-- Without an exception the matching is a boolean for each rule. -/
theorem exists_matching {i : PolicyInput} {rules : List PolicyRule}
    (h : ¬ ∃ r ∈ rules, ∃ e, ruleMatches r i = .error e) :
    ∃ m : PolicyRule → Bool, ∀ r ∈ rules, ruleMatches r i = .ok (m r) := by
  refine ⟨fun r => (ruleMatches r i).toOption.getD false, fun r hr => ?_⟩
  cases hm : ruleMatches r i with
  | error e => exact absurd ⟨r, hr, e, hm⟩ h
  | ok b => simp [hm, Except.toOption]

/-- The effect depends on the set of matching rules alone. -/
theorem effect_eq {p : PolicyConfig} {i : PolicyInput} {m : PolicyRule → Bool}
    (h : ∀ r ∈ p.policies, ruleMatches r i = .ok (m r)) :
    (evaluate p i).effect =
      if ∃ r ∈ p.policies, m r ∧ r.effect = .deny then .deny
      else if ∃ r ∈ p.policies, m r ∧ r.effect = .allow then .allow else p.default := by
  have hfind : ∀ e, (∃ r ∈ p.policies, m r ∧ r.effect = e) ↔
      (p.policies.find? fun r => m r && r.effect == e).isSome := by
    intro e
    simp
  rw [evaluate_eq h]
  simp only [hfind]
  cases p.policies.find? fun r => m r && r.effect == .deny with
  | some r => simp
  | none =>
    cases p.policies.find? fun r => m r && r.effect == .allow with
    | some r => simp
    | none => simp

theorem effect_eq_deny_iff {p : PolicyConfig} {i : PolicyInput} {m : PolicyRule → Bool}
    (h : ∀ r ∈ p.policies, ruleMatches r i = .ok (m r)) :
    (evaluate p i).effect = .deny ↔ (∃ r ∈ p.policies, m r ∧ r.effect = .deny) ∨
      (¬ ∃ r ∈ p.policies, m r ∧ r.effect = .allow) ∧ p.default = .deny := by
  rw [effect_eq h]
  split_ifs with hdeny hallow
  · exact ⟨fun _ => .inl hdeny, fun _ => rfl⟩
  · exact ⟨nofun, fun hor => (hor.resolve_left hdeny).1.elim hallow⟩
  · exact ⟨fun hdefault => .inr ⟨hallow, hdefault⟩, fun hor => (hor.resolve_left hdeny).2⟩

theorem firstMatch_of_find? {p : PolicyConfig} {i : PolicyInput} {m : PolicyRule → Bool}
    (h : ∀ r ∈ p.policies, m r = true ↔ r.Matches i) {effect : PolicyEffect} {r : PolicyRule}
    (hfind : (p.policies.find? fun r => m r && r.effect == effect) = some r) :
    FirstMatch effect i p.policies r := by
  obtain ⟨hr, before, after, hsplit, hbefore⟩ := List.find?_eq_some_iff_append.mp hfind
  rw [Bool.and_eq_true, beq_iff_eq] at hr
  refine ⟨hr.2, (h r (List.mem_of_find?_eq_some hfind)).mp hr.1, before, after, hsplit, ?_⟩
  intro r' hr' heffect hmatches
  have hmem : r' ∈ p.policies := by
    rw [hsplit]
    exact List.mem_append_left _ hr'
  have hnot := hbefore r' hr'
  simp [heffect, (h r' hmem).mpr hmatches] at hnot

theorem not_matches_of_find? {p : PolicyConfig} {i : PolicyInput} {m : PolicyRule → Bool}
    (h : ∀ r ∈ p.policies, m r = true ↔ r.Matches i) {effect : PolicyEffect}
    (hfind : (p.policies.find? fun r => m r && r.effect == effect) = none) :
    ∀ r ∈ p.policies, r.effect = effect → ¬ r.Matches i := by
  intro r hr heffect hmatches
  have hnot := List.find?_eq_none.mp hfind r hr
  simp [heffect, (h r hr).mpr hmatches] at hnot

/-- A well-typed policy matches as documented, without an exception. -/
theorem exists_matching_of_wellTyped {p : PolicyConfig} (hp : p.WellTyped) (i : PolicyInput) :
    ∃ m : PolicyRule → Bool, (∀ r ∈ p.policies, ruleMatches r i = .ok (m r)) ∧
      ∀ r ∈ p.policies, m r = true ↔ r.Matches i := by
  obtain ⟨R, hR⟩ := hp
  unfold PolicyConfig.reading at hR
  simp only [Option.bind_eq_bind, Option.bind_eq_some_iff, Option.pure_def,
    Option.some.injEq] at hR
  obtain ⟨rules, hrules, -⟩ := hR
  have hpairs := forall₂_of_mapM_eq_some hrules
  have hdecides : ∀ r ∈ p.policies, ∃ b, ruleMatches r i = .ok b ∧ (b = true ↔ r.Matches i) := by
    intro r hr
    obtain ⟨R', -, hreading⟩ := exists_right_of_forall₂ hpairs hr
    obtain ⟨b, hb, hmatches⟩ := ruleMatches_of_reading hreading i
    refine ⟨b, hb, hmatches.trans ⟨fun h => ⟨R', hreading, h⟩, fun h => ?_⟩⟩
    obtain ⟨R'', hreading', h⟩ := h
    obtain rfl := Option.some.inj (hreading.symm.trans hreading')
    exact h
  have hnone : ¬ ∃ r ∈ p.policies, ∃ e, ruleMatches r i = .error e := by
    intro h
    obtain ⟨r, hr, e, he⟩ := h
    obtain ⟨b, hb, -⟩ := hdecides r hr
    rw [hb] at he
    cases he
  obtain ⟨m, hm⟩ := exists_matching hnone
  refine ⟨m, hm, fun r hr => ?_⟩
  obtain ⟨b, hb, hmatches⟩ := hdecides r hr
  obtain rfl := Except.ok.inj ((hm r hr).symm.trans hb)
  exact hmatches

theorem evaluate_decidedBy {p : PolicyConfig} (hp : p.WellTyped) (i : PolicyInput) :
    DecidedBy p i (evaluate p i) := by
  obtain ⟨m, hm, hmatches⟩ := exists_matching_of_wellTyped hp i
  rw [evaluate_eq hm]
  cases hdeny : p.policies.find? fun r => m r && r.effect == .deny with
  | some r => exact .deny (firstMatch_of_find? hmatches hdeny)
  | none =>
    have hnodeny := not_matches_of_find? hmatches hdeny
    cases hallow : p.policies.find? fun r => m r && r.effect == .allow with
    | some r => exact .allow hnodeny (firstMatch_of_find? hmatches hallow)
    | none =>
      have hnoallow := not_matches_of_find? hmatches hallow
      refine .default fun r hr => ?_
      cases heffect : r.effect with
      | deny => exact hnodeny r hr heffect
      | allow => exact hnoallow r hr heffect

/-- The effect is unchanged by a permutation of the rules. -/
theorem effect_of_perm {p : PolicyConfig} {rules : List PolicyRule} (i : PolicyInput)
    (hperm : rules.Perm p.policies) :
    (evaluate (withRules p rules) i).effect = (evaluate p i).effect := by
  by_cases hraises : ∃ r ∈ p.policies, ∃ e, ruleMatches r i = .error e
  · have hraises' : ∃ r ∈ rules, ∃ e, ruleMatches r i = .error e := by
      simpa only [hperm.mem_iff] using hraises
    rw [effect_of_raises hraises, effect_of_raises (p := withRules p rules) hraises']
  · obtain ⟨m, hm⟩ := exists_matching hraises
    have hm' : ∀ r ∈ rules, ruleMatches r i = .ok (m r) :=
      fun r hr => hm r (hperm.mem_iff.mp hr)
    rw [effect_eq hm, effect_eq (p := withRules p rules) hm']
    simp only [withRules, hperm.mem_iff]

/-- An additional deny rule, wherever it stands, leaves a denial in place. -/
theorem effect_of_insert_deny {p : PolicyConfig} {before after : List PolicyRule}
    {rule : PolicyRule} (i : PolicyInput) (hsplit : p.policies = before ++ after)
    (hdeny : rule.effect = .deny) (h : (evaluate p i).effect = .deny) :
    (evaluate (withRules p (before ++ rule :: after)) i).effect = .deny := by
  have hmem : ∀ r, r ∈ before ++ rule :: after ↔ r = rule ∨ r ∈ p.policies := by
    intro r
    rw [hsplit]
    simp only [List.mem_append, List.mem_cons]
    tauto
  by_cases hraises : ∃ r ∈ before ++ rule :: after, ∃ e, ruleMatches r i = .error e
  · exact effect_of_raises (p := withRules p _) hraises
  · obtain ⟨m, hm⟩ := exists_matching hraises
    have hold : ∀ r ∈ p.policies, ruleMatches r i = .ok (m r) :=
      fun r hr => hm r ((hmem r).mpr (.inr hr))
    rw [effect_eq_deny_iff (p := withRules p _) hm]
    rcases (effect_eq_deny_iff hold).mp h with hmatch | ⟨hnone, hdefault⟩
    · obtain ⟨r, hr, hmr⟩ := hmatch
      exact .inl ⟨r, (hmem r).mpr (.inr hr), hmr⟩
    · -- the new rule cannot be the allow rule that the old policy lacks
      refine .inr ⟨fun hallow => ?_, hdefault⟩
      obtain ⟨r, hr, hmr, heffect⟩ := hallow
      rcases (hmem r).mp hr with rfl | hr
      · cases hdeny.symm.trans heffect
      · exact hnone ⟨r, hr, hmr, heffect⟩

/-- Deny overrides allow, in all of its consequences. The decision is read off a well-typed
policy; the others hold of every policy. -/
theorem evaluate_denyOverrides (p : PolicyConfig) (i : PolicyInput) :
    (p.WellTyped → DecidedBy p i (evaluate p i)) ∧
    (∀ rules, rules.Perm p.policies →
      (evaluate (withRules p rules) i).effect = (evaluate p i).effect) ∧
    (∀ before after rule, p.policies = before ++ after → rule.effect = .deny →
      (evaluate p i).effect = .deny →
        (evaluate (withRules p (before ++ rule :: after)) i).effect = .deny) ∧
    ((∃ r ∈ p.policies, ∃ e, ruleMatches r i = .error e) → (evaluate p i).effect = .deny) :=
  ⟨fun hp => evaluate_decidedBy hp i, fun _ hperm => effect_of_perm i hperm,
    fun _ _ _ hsplit hdeny h => effect_of_insert_deny i hsplit hdeny h, effect_of_raises⟩

end PolicyEngine

end McpZero.Governance
