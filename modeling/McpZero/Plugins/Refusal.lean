import McpZero.Plugins.Extraction

/-! Which repository the filter names when it denies a request: the first one among those that
it reads which its policy does not permit. -/
namespace McpZero.Plugins
open Python Lib

namespace GitHubRepoFilterHook

variable (h : GitHubRepoFilterHook)

/-- The repositories that the filter reads of a request. -/
def requestedRepos (ctx : HookContext) : List String :=
  if !h.inScope ctx.serverName then []
  else
    match ctx.requestPayload.getD "arguments" (.dict []) with
    | .dict arguments => h.extractReposFromArguments arguments
    | _ => []

/-- The first repository of a request that is not permitted. -/
def refusedRepo (ctx : HookContext) : Option String :=
  (h.requestedRepos ctx).find? (! h.shouldKeep ·)

/-- The denial that names the repository. -/
def refusal (repo : String) : Exc :=
  match h.mode with
  | .allowlist => .shortCircuit (.str ("Repository '" ++ repo ++ "' is not in the allowlist")) true
  | .blocklist => .shortCircuit (.str ("Repository '" ++ repo ++ "' is blocked")) true

theorem append_between_injective (before after : String) :
    Function.Injective fun s => before ++ s ++ after := by
  intro s s' heq
  have hchars := congrArg String.toList heq
  simp only [String.toList_append, List.append_assoc, List.append_cancel_left_eq,
    List.append_cancel_right_eq] at hchars
  exact String.toList_inj.mp hchars

theorem refusal_injective : Function.Injective h.refusal := by
  intro repo repo' heq
  unfold refusal at heq
  cases hmode : h.mode with
  | allowlist =>
    simp only [hmode, Exc.shortCircuit.injEq, Value.scalar.injEq, Scalar.str.injEq,
      and_true] at heq
    exact append_between_injective _ _ heq
  | blocklist =>
    simp only [hmode, Exc.shortCircuit.injEq, Value.scalar.injEq, Scalar.str.injEq,
      and_true] at heq
    exact append_between_injective _ _ heq

theorem slash_mem_of_mem_requestedRepos {ctx : HookContext} {repo : String}
    (hrepo : repo ∈ h.requestedRepos ctx) : '/' ∈ repo.toList := by
  unfold requestedRepos at hrepo
  split_ifs at hrepo with hscope
  · cases hrepo
  · split at hrepo
    · rename_i arguments _
      cases (h.mem_extractReposFromArguments_iff arguments repo).mp hrepo with
      | ownerRepo => simp
      | repository _ hslash => exact hslash
      | qualifier _ hread => exact hread.1
      | url _ hread =>
        obtain ⟨-, -, -, -, -, ⟨owner, name, -, -, -, -, -, -, -, hname⟩, -⟩ := hread
        simp [hname]
    · cases hrepo

/-- The check of a repository that has a name. -/
theorem checkRepo_lower_eq {repo : String} (hslash : '/' ∈ repo.toList) :
    h.checkRepo (h.unicode.lower repo) repo =
      if h.shouldKeep repo then .ok () else .error (h.refusal repo) := by
  have hname : repo ≠ "" := by
    rintro rfl
    cases hslash
  have hlabel : ((some repo).filter (· ≠ "")).getD (h.unicode.lower repo) = repo := by
    simp [Option.filter, hname]
  unfold checkRepo shouldKeep refusal
  rw [hlabel]
  cases h.mode with
  | allowlist => cases hmatch : h.matchesRepo repo <;> simp [hmatch]
  | blocklist => cases hmatch : h.matchesRepo repo <;> simp [hmatch]

/-- The loop over the repositories ends at the first that is not permitted. -/
theorem forM_checkRepo {repos : List String} (hslash : ∀ repo ∈ repos, '/' ∈ repo.toList) :
    (repos.forM fun repo => h.checkRepo (h.unicode.lower repo) repo) =
      match repos.find? (! h.shouldKeep ·) with
      | none => .ok ()
      | some repo => .error (h.refusal repo) := by
  induction repos with
  | nil => rfl
  | cons repo repos ih =>
    rw [List.forall_mem_cons] at hslash
    have hstep : ((repo :: repos).forM fun repo => h.checkRepo (h.unicode.lower repo) repo) =
        (h.checkRepo (h.unicode.lower repo) repo >>= fun _ =>
          repos.forM fun repo => h.checkRepo (h.unicode.lower repo) repo) := rfl
    rw [hstep, h.checkRepo_lower_eq hslash.1, List.find?_cons]
    cases hkeep : h.shouldKeep repo with
    | true => exact ih hslash.2
    | false => rfl

/-- What the filter does to a request. -/
theorem onPostValidation_eq (ctx : HookContext) :
    h.onPostValidation ctx =
      match h.refusedRepo ctx with
      | none => .ok ctx
      | some repo => .error (h.refusal repo) := by
  have hloop := h.forM_checkRepo fun repo (hrepo : repo ∈ h.requestedRepos ctx) =>
    h.slash_mem_of_mem_requestedRepos hrepo
  have hrun : h.onPostValidation ctx = ((h.requestedRepos ctx).forM fun repo =>
      h.checkRepo (h.unicode.lower repo) repo) >>= fun _ => .ok ctx := by
    unfold onPostValidation requestedRepos
    by_cases hscope : h.inScope ctx.serverName
    · simp only [hscope, Bool.not_true, Bool.false_eq_true, if_false]
      generalize ctx.requestPayload.getD "arguments" (.dict []) = arguments
      cases arguments <;> rfl
    · simp only [hscope, Bool.not_false, if_true]
      rfl
  rw [hrun, hloop]
  unfold refusedRepo
  cases (h.requestedRepos ctx).find? (! h.shouldKeep ·) <;> rfl

end GitHubRepoFilterHook

end McpZero.Plugins
