import McpZero.Governance.Reading

/-! The engine decides as documented where the fields of the policy have their documented
types: each operator it applies is the set or pattern operation it stands for. -/
namespace McpZero.Governance
open Python Lib

theorem asList?_eq_some {v : Value} {items : List Value} :
    v.asList? = some items ↔ v = .list items := by
  unfold Value.asList?
  split <;> simp_all

theorem asDict?_eq_some {v : Value} {d : Dict} : v.asDict? = some d ↔ v = .dict d := by
  unfold Value.asDict?
  split <;> simp_all

theorem asStr?_eq_some {v : Value} {s : String} : v.asStr? = some s ↔ v = .str s := by
  unfold Value.asStr?
  split <;> simp_all

theorem asStrings?_eq_some {v : Value} {xs : List String} :
    v.asStrings? = some xs ↔ v = .ofStrings xs := by
  have hitems : ∀ {items : List Value} {xs : List String},
      items.mapM Value.asStr? = some xs ↔ items = xs.map .str := by
    intro items
    induction items with
    | nil => intro xs; cases xs <;> simp
    | cons item items ih =>
      intro xs
      rw [List.mapM_cons]
      simp only [Option.bind_eq_bind, Option.bind_eq_some_iff, asStr?_eq_some, ih, Option.pure_def,
        Option.some.injEq]
      constructor
      · intro h
        obtain ⟨s, rfl, ss, rfl, rfl⟩ := h
        rfl
      · intro h
        cases xs with
        | nil => cases h
        | cons s ss =>
          rw [List.map_cons, List.cons.injEq] at h
          exact ⟨s, h.1, ss, h.2, rfl⟩
  unfold Value.asStrings? Value.ofStrings
  simp only [Option.bind_eq_bind, Option.bind_eq_some_iff, asList?_eq_some, hitems]
  constructor
  · intro h
    obtain ⟨items, rfl, rfl⟩ := h
    rfl
  · intro h
    exact ⟨_, h, rfl⟩

@[simp] theorem truthy_ofStrings (xs : List String) :
    (Value.ofStrings xs).truthy = !xs.isEmpty := by
  simp [Value.ofStrings, Value.truthy]

theorem eqStr_iff {v : Value} {s : String} : v.eqStr s = true ↔ v = .str s := by
  unfold Value.eqStr
  split <;> simp_all

theorem any_eqStr_value (vs : List Value) (s : String) :
    vs.any (Value.eqStr s) = true ↔ .str s ∈ vs := by
  rw [List.any_eq_true]
  simp only [eqStr_iff, exists_eq_right]

theorem any_eqStr (xs : List String) (s : String) :
    (xs.map Value.str).any (Value.eqStr s) = true ↔ s ∈ xs := by
  rw [any_eqStr_value]
  simp

theorem hasStr_ofStrings (xs : List String) (s : String) :
    Decides ((Value.ofStrings xs).hasStr s) (s ∈ xs) := .of_bool (any_eqStr xs s)

theorem intersects_ofStrings (groups xs : List String) :
    Decides (intersects groups (.ofStrings xs)) (∃ g ∈ groups, g ∈ xs) := by
  have hhash : checkHashable (xs.map Value.str) = .ok () := by
    induction xs with
    | nil => rfl
    | cons x xs ih => exact ih
  have hany : (groups.any fun g => (xs.map Value.str).any (Value.eqStr g)) = true ↔
      ∃ g ∈ groups, g ∈ xs := by
    rw [List.any_eq_true]
    exact exists_congr fun g => and_congr_right fun _ => any_eqStr xs g
  unfold intersects
  show Decides (checkHashable (xs.map Value.str) >>= fun _ => _) _
  rw [hhash]
  exact .of_bool hany

theorem matchesPattern_str (p value : String) :
    Decides (matchesPattern (.str p) value) (Glob '*' p.toList value.toList) := by
  have hends : endsWith p "*" = true ↔ p.toList.getLast? = some '*' := by
    unfold endsWith
    rw [List.isSuffixOf_iff_suffix, List.getLast?_eq_some_iff]
    exact exists_congr fun _ => eq_comm
  have hstarts : startsWith p "*" = true ↔ p.toList.head? = some '*' := by
    unfold startsWith
    rw [List.isPrefixOf_iff_prefix, List.head?_eq_some_iff]
    exact exists_congr fun _ => eq_comm
  unfold matchesPattern
  by_cases hstar : p = "*"
  · have hglob : Glob '*' p.toList value.toList := .inl ⟨[], by rw [hstar]; rfl, List.nil_prefix⟩
    simp only [hstar, if_true]
    rw [hstar] at hglob
    exact .of_bool ⟨fun _ => hglob, fun _ => rfl⟩
  · simp only [hstar, if_false]
    by_cases hlast : p.toList.getLast? = some '*'
    · rw [if_pos (hends.mpr hlast)]
      apply Decides.of_bool
      rw [List.isPrefixOf_iff_prefix, glob_of_getLast hlast]
    · rw [if_neg (mt hends.mp hlast)]
      by_cases hhead : p.toList.head? = some '*'
      · rw [if_pos (hstarts.mpr hhead)]
        apply Decides.of_bool
        rw [List.isSuffixOf_iff_suffix, glob_of_head hlast hhead]
      · rw [if_neg (mt hstarts.mp hhead)]
        apply Decides.of_bool
        rw [beq_iff_eq, glob_exact hlast hhead, String.toList_inj]

theorem anyMatch_ofStrings (tools : List String) (name : String) :
    Decides (anyMatch (tools.map .str) name) (∃ p ∈ tools, Glob '*' p.toList name.toList) := by
  induction tools with
  | nil => exact .of_bool (by simp)
  | cons p tools ih =>
    refine ((matchesPattern_str p name).or ih).congr ?_
    simp

theorem PolicyRule.reading_effect {r : PolicyRule} {R : RuleReading} (h : r.reading = some R) :
    R.effect = r.effect := by
  unfold PolicyRule.reading at h
  simp only [Option.bind_eq_bind, Option.bind_eq_some_iff, Option.pure_def,
    Option.some.injEq] at h
  obtain ⟨_, -, _, -, _, -, rfl⟩ := h
  rfl

namespace PolicyEngine

theorem toolsMatch_ofStrings (tools : List String) (name : String) :
    Decides (toolsMatch (.ofStrings tools) name)
      (tools = [] ∨ ∃ p ∈ tools, Glob '*' p.toList name.toList) := by
  cases tools with
  | nil => exact .of_bool (by simp)
  | cons p tools =>
    have hany := anyMatch_ofStrings (p :: tools) name
    exact hany.congr (by simp)

theorem subjectsMatch_of_reading {r : PolicyRule} {R : RuleReading} (h : r.reading = some R)
    (i : PolicyInput) : Decides (subjectsMatch r.subjects i) (R.Selects i) := by
  unfold PolicyRule.reading at h
  simp only [Option.bind_eq_bind, Option.bind_eq_some_iff, asStrings?_eq_some, Option.pure_def,
    Option.some.injEq] at h
  obtain ⟨users, husers, groups, hgroups, access, -, rfl⟩ := h
  unfold subjectsMatch RuleReading.Selects
  rw [husers, hgroups, truthy_ofStrings, truthy_ofStrings]
  have hlisted : Decides _ (i.userId ∈ users ∨ "*" ∈ groups ∨ ∃ g ∈ i.groups, g ∈ groups) :=
    (hasStr_ofStrings users i.userId).or
      ((hasStr_ofStrings groups "*").or (intersects_ofStrings i.groups groups))
  by_cases hempty : users = [] ∧ groups = []
  · rw [hempty.1, hempty.2]
    exact .of_bool (by simp)
  · have hsome : (! !users.isEmpty && ! !groups.isEmpty) = false := by
      rw [Bool.not_not, Bool.not_not, Bool.eq_false_iff, Ne, Bool.and_eq_true]
      simpa using hempty
    rw [hsome]
    exact hlisted.congr (by simp [hempty])

theorem serversMatch_of_reading (i : PolicyInput) {as : List PolicyServerAccess}
    {As : List AccessReading} (h : as.mapM PolicyServerAccess.reading = some As) :
    Decides (serversMatch i as) (∃ a ∈ As, a.Applies i) := by
  induction as generalizing As with
  | nil =>
    cases h
    exact .of_bool (by simp)
  | cons a as ih =>
    rw [List.mapM_cons] at h
    simp only [Option.bind_eq_bind, Option.bind_eq_some_iff, Option.pure_def,
      Option.some.injEq] at h
    obtain ⟨A, hA, As', hAs, rfl⟩ := h
    unfold PolicyServerAccess.reading at hA
    simp only [Option.bind_eq_bind, Option.bind_eq_some_iff, asStr?_eq_some, asStrings?_eq_some,
      Option.pure_def, Option.some.injEq] at hA
    obtain ⟨server, hserver, tools, htools, rfl⟩ := hA
    have hrest := ih hAs
    have hentry := (matchesPattern_str server i.mcpServer).search
      (toolsMatch_ofStrings tools i.tool) hrest
    unfold serversMatch
    rw [hserver, htools]
    refine hentry.congr ?_
    rw [List.exists_mem_cons_iff]
    rfl

theorem ruleMatches_of_reading {r : PolicyRule} {R : RuleReading} (h : r.reading = some R)
    (i : PolicyInput) : Decides (ruleMatches r i) (R.Matches i) := by
  have hsubjects := subjectsMatch_of_reading h i
  unfold PolicyRule.reading at h
  simp only [Option.bind_eq_bind, Option.bind_eq_some_iff, Option.pure_def,
    Option.some.injEq] at h
  obtain ⟨users, -, groups, -, access, haccess, rfl⟩ := h
  exact hsubjects.and (serversMatch_of_reading i haccess)

/-- The loop keeps the first matching rule of each effect. -/
theorem scan_eq {i : PolicyInput} {m : PolicyRule → Bool} {rules : List PolicyRule}
    (h : ∀ r ∈ rules, ruleMatches r i = .ok (m r)) (firstDeny firstAllow : Option PolicyRule) :
    scan i rules firstDeny firstAllow =
      .ok (firstDeny <|> rules.find? (fun r => m r && r.effect == .deny),
        firstAllow <|> rules.find? (fun r => m r && r.effect == .allow)) := by
  induction rules generalizing firstDeny firstAllow with
  | nil => simp [scan]
  | cons r rules ih =>
    have hr := h r List.mem_cons_self
    have hrest := ih fun r' hr' => h r' (List.mem_cons_of_mem _ hr')
    simp only [scan, hr, bind, Except.bind]
    cases hm : m r with
    | false => simp [hrest, hm]
    | true =>
      cases he : r.effect with
      | allow => cases firstAllow <;> simp [hrest, hm, he]
      | deny => cases firstDeny <;> simp [hrest, hm, he]

/-- The result of a policy whose rules match as `m` says. -/
theorem evaluate_eq {p : PolicyConfig} {i : PolicyInput} {m : PolicyRule → Bool}
    (h : ∀ r ∈ p.policies, ruleMatches r i = .ok (m r)) :
    evaluate p i =
      match p.policies.find? fun r => m r && r.effect == .deny,
        p.policies.find? fun r => m r && r.effect == .allow with
      | some r, _ => { effect := .deny, policyId := some r.id, reason := some r.description }
      | none, some r => { effect := .allow, policyId := some r.id }
      | none, none =>
        { effect := p.default
          reason := if p.default = .deny then
            some (.str "No matching policy; default is deny") else none } := by
  unfold evaluate evaluateRules
  rw [scan_eq h none none]
  simp only [bind, Except.bind, Option.orElse_eq_orElse, Option.orElse_eq_or, Option.none_or]
  cases p.policies.find? fun r => m r && r.effect == .deny with
  | some r => rfl
  | none =>
    cases p.policies.find? fun r => m r && r.effect == .allow with
    | some r => rfl
    | none => rfl

/-- The engine decides what the documented reading of the policy decides, with a `*` among the
users taken for a name. -/
theorem evaluate_of_reading {p : PolicyConfig} {R : Reading} (h : p.reading = some R)
    (i : PolicyInput) : (evaluate p i).effect = R.decideBy (·.Matches i) := by
  unfold PolicyConfig.reading at h
  simp only [Option.bind_eq_bind, Option.bind_eq_some_iff, Option.pure_def,
    Option.some.injEq] at h
  obtain ⟨rules, hrules, rfl⟩ := h
  have hpairs := forall₂_of_mapM_eq_some hrules
  have hdecides : ∀ r ∈ p.policies, ∃ b, ruleMatches r i = .ok b := by
    intro r hr
    obtain ⟨R, -, hR⟩ := exists_right_of_forall₂ hpairs hr
    obtain ⟨b, hb, -⟩ := ruleMatches_of_reading hR i
    exact ⟨b, hb⟩
  let m : PolicyRule → Bool := fun r => (ruleMatches r i).toOption.getD false
  have hm : ∀ r ∈ p.policies, ruleMatches r i = .ok (m r) := by
    intro r hr
    obtain ⟨b, hb⟩ := hdecides r hr
    simp [m, hb, Except.toOption]
  -- a rule of the policy matches with an effect exactly when its reading does with it
  have hfind : ∀ e, (p.policies.find? fun r => m r && r.effect == e).isSome = true ↔
      ∃ R ∈ rules, R.effect = e ∧ R.Matches i := by
    intro e
    rw [List.find?_isSome]
    refine exists_mem_iff_of_forall₂ hpairs fun r R hR => ?_
    obtain ⟨b, hb, hmatches⟩ := ruleMatches_of_reading hR i
    have hmr : m r = b := by simp [m, hb, Except.toOption]
    rw [Bool.and_eq_true, hmr, hmatches, beq_iff_eq, PolicyRule.reading_effect hR]
    exact and_comm
  have hdeny := hfind .deny
  have hallow := hfind .allow
  rw [evaluate_eq hm, Reading.decideBy]
  cases hd : p.policies.find? fun r => m r && r.effect == .deny with
  | some r =>
    rw [hd] at hdeny
    rw [if_pos (hdeny.mp rfl)]
  | none =>
    rw [hd] at hdeny
    rw [if_neg (mt hdeny.mpr (by simp))]
    cases ha : p.policies.find? fun r => m r && r.effect == .allow with
    | some r =>
      rw [ha] at hallow
      rw [if_pos (hallow.mp rfl)]
    | none =>
      rw [ha] at hallow
      rw [if_neg (mt hallow.mpr (by simp))]

end PolicyEngine

end McpZero.Governance
