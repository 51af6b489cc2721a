import McpZero.Plugins.Denotation

/-! What the repository filter does to a request, and when that is what the repositories that the
request denotes ask for. -/
namespace McpZero.Plugins
open Python Lib

namespace GitHubRepoFilterHook

variable (h : GitHubRepoFilterHook)

/-- The request passes when the repositories that the filter reads are permitted, and is denied
otherwise. -/
theorem onPostValidation_spec {ctx : HookContext} {arguments : Dict}
    (hscope : h.inScope ctx.serverName = true)
    (harguments : ctx.requestPayload.getD "arguments" (.dict []) = .dict arguments) :
    (h.onPostValidation ctx = .ok ctx ∧
        ∀ repo ∈ h.extractReposFromArguments arguments, h.shouldKeep repo = true) ∨
      ∃ reason, h.onPostValidation ctx = .error (.shortCircuit reason true) ∧
        ∃ repo ∈ h.extractReposFromArguments arguments, h.shouldKeep repo = false := by
  have hrun : h.onPostValidation ctx = ((h.extractReposFromArguments arguments).forM fun fullRepo =>
      h.checkRepo (h.unicode.lower fullRepo) (some fullRepo)) >>= fun _ => .ok ctx := by
    unfold onPostValidation
    simp only [hscope, harguments]
    rfl
  rw [hrun]
  cases hcheck : (h.extractReposFromArguments arguments).forM fun fullRepo =>
      h.checkRepo (h.unicode.lower fullRepo) (some fullRepo) with
  | ok u =>
    refine .inl ⟨rfl, fun repo hrepo => ?_⟩
    exact (h.checkRepo_lower_eq_ok_iff repo _).mp (forM_eq_ok.mp hcheck repo hrepo)
  | error e =>
    obtain ⟨repo, hrepo, hdenied⟩ := exists_of_forM_eq_error hcheck
    obtain ⟨reason, rfl⟩ := h.checkRepo_denies hdenied
    refine .inr ⟨reason, rfl, repo, hrepo, ?_⟩
    by_contra hkeep
    rw [Bool.not_eq_false] at hkeep
    rw [(h.checkRepo_lower_eq_ok_iff repo _).mpr hkeep] at hdenied
    cases hdenied

/-- A call in scope passes exactly when all denoted repositories are permitted, and is denied
otherwise. -/
def FiltersInput (ctx : HookContext) (arguments : Dict) : Prop :=
  (h.onPostValidation ctx = .ok ctx ↔
    ∀ repo, Denotes h.unicode arguments repo → h.shouldKeep repo = true) ∧
  (h.onPostValidation ctx = .ok ctx ∨
    ∃ reason, h.onPostValidation ctx = .error (.shortCircuit reason true))

theorem onPostValidation_eq_ok_iff {ctx : HookContext} {arguments : Dict}
    (hscope : h.inScope ctx.serverName = true)
    (harguments : ctx.requestPayload.getD "arguments" (.dict []) = .dict arguments) :
    h.onPostValidation ctx = .ok ctx ↔
      ∀ repo, Reads h.unicode arguments repo → h.shouldKeep repo = true := by
  rcases h.onPostValidation_spec hscope harguments with
    ⟨hpass, hkept⟩ | ⟨reason, hdeny, repo, hrepo, hdisallowed⟩
  · rw [hpass]
    refine iff_of_true rfl fun repo hreads => hkept repo ?_
    exact (h.mem_extractReposFromArguments_iff arguments repo).mpr hreads
  · rw [hdeny]
    refine iff_of_false (by simp) fun hall => ?_
    rw [hall repo ((h.mem_extractReposFromArguments_iff arguments repo).mp hrepo)] at hdisallowed
    cases hdisallowed

end GitHubRepoFilterHook

/-- A hook that permits one repository. -/
def approvedApi : GitHubRepoFilterHook where
  unicode := .ascii
  mode := .allowlist
  repos := ["myorg/api"]

def searchContext (arguments : Dict) : HookContext where
  request := { correlationId := "c1" }
  requestPayload := [(.str "arguments", .dict arguments)]
  serverName := "github"
  toolName := "search_code"

/-- A filter that blocks one repository. -/
def blockedSecrets : GitHubRepoFilterHook where
  unicode := .ascii
  mode := .blocklist
  repos := ["evil/secrets"]

/-- The qualifier `repo:evil/secrets`. -/
def secretsQualifier : Qualifier .ascii "repo:evil/secrets".toList where
  before := []
  mark := "repo:".toList
  quote := []
  repo := "evil/secrets".toList
  after := []
  term_eq := by decide
  boundary := by simp
  mark_eq := by decide
  quote_eq := .inl rfl
  repo_chars := List.all_eq_true.mp (by decide)
  repo_slash := by decide
  after_head := by simp

/-- The URL `https://api.github.com/repos/evil/secrets`. -/
def secretsUrl : GitHubUrl where
  lead := []
  scheme := some "https:".toList
  user := none
  site := .api
  host := "api.github.com".toList
  port := none
  owner := "evil".toList
  name := "secrets".toList
  rest := []
  lead_noSlash := by simp
  lead_last := by simp
  scheme_chars := by
    rintro s ⟨⟩
    exact .inr ⟨"https".toList, by decide, List.all_eq_true.mp (by decide)⟩
  user_chars := by simp
  host_eq := by decide
  port_digits := by simp
  owner_ne := by decide
  owner_chars := List.all_eq_true.mp (by decide)
  name_ne := by decide
  name_chars := List.all_eq_true.mp (by decide)
  rest_head := by simp

end McpZero.Plugins
