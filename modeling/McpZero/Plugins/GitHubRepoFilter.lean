import McpZero.Lib.Search
import McpZero.Pipeline.Hooks
import McpZero.Python.Fnmatch
import McpZero.Python.Numbers
import McpZero.Python.Unicode

/-! The GitHub repository filter: its configuration, how it decides on a repository, and what
it does to a request. -/
namespace McpZero.Plugins
open Python Lib

inductive Mode
  | allowlist
  | blocklist
  deriving DecidableEq

structure GitHubRepoFilterHook where
  unicode : Unicode
  mode : Mode
  repos : List String
  servers : Option (List Value) := none

/-- The `mode` that a configuration may name. -/
def Mode.ofValue : Value → Except Exc Mode
  | .str "allowlist" => .ok .allowlist
  | .str "blocklist" => .ok .blocklist
  | v => .error (Value.valueError ("github-repo-filter plugin requires 'mode' to be " ++
      "'allowlist' or 'blocklist', got " ++ v.repr))

/-- One entry of `repos`. -/
def checkRepoPattern : Value → Except Exc String
  | .str s =>
    if s.toList.contains '/' then .ok s
    else .error (Value.valueError ("github-repo-filter plugin: each repo must be a string " ++
      "containing '/', got " ++ (Value.str s).repr))
  | v => .error (Value.valueError ("github-repo-filter plugin: each repo must be a string " ++
      "containing '/', got " ++ v.repr))

/-- `GitHubRepoFilterPlugin.configure`: the hook that `register` adds, and its priority. -/
def configure (unicode : Unicode) (config : Dict) : Except Exc (GitHubRepoFilterHook × ℤ) := do
  let mode ← Mode.ofValue (config.getD "mode" (.str ""))
  let repos ← match config.getD "repos" (.list []) with
    | .list (repo :: repos) => (repo :: repos).mapM checkRepoPattern
    | _ => .error (Value.valueError
        "github-repo-filter plugin requires a non-empty 'repos' list in config")
  let servers ← match config.getD "servers" .none with
    | .none => .ok none
    | .list servers => .ok (some servers)
    | _ => .error (Value.valueError
        "github-repo-filter plugin: 'servers' must be a list of strings")
  let priority ← match config.get? "priority" with
    | some v => v.toInt
    | none => .ok 55
  return ({ unicode := unicode, mode := mode, repos := repos, servers := servers }, priority)

namespace GitHubRepoFilterHook

/-- `[^/\s?#]`. -/
def isNameChar (c : Char) : Bool := !(c == '/' || isWhitespace c || c == '?' || c == '#')

/-- `_GITHUB_URL_RE`, `github\.com/([^/]+/[^/\s?#]+)`, at a position. -/
def urlRepoAt : Pattern Char (List Char) := fun _ cs =>
  let path := cs.drop 11
  let owner := path.takeWhile (· != '/')
  let repo := (path.drop (owner.length + 1)).takeWhile isNameChar
  if "github.com/".toList.isPrefixOf cs && !owner.isEmpty && owner.length < path.length &&
    !repo.isEmpty then some (owner ++ '/' :: repo) else none

/-- `_GITHUB_URL_RE.search(url)`, its group. -/
def urlRepo (url : String) : Option String :=
  (search urlRepoAt none url.toList).map String.ofList

variable (h : GitHubRepoFilterHook)

/-- `_QUERY_REPO_RE`, `\brepo:([^\s]+)` ignoring case, at a position. -/
def queryRepoAt : Pattern Char (List Char) := fun before cs =>
  let qualifier := (cs.drop 5).takeWhile (! isWhitespace ·)
  if !before.any h.unicode.isWord && (cs.take 5).map Char.toLower == "repo:".toList &&
    !qualifier.isEmpty then some qualifier else none

/-- `_QUERY_REPO_RE.finditer(query)`, its groups. A match takes the rest of its token. -/
def queryRepos (query : String) : List String :=
  (searchTokens isWhitespace h.queryRepoAt false none query.toList).map String.ofList

/-- `_matches_repo`. -/
def matchesRepo (repoFullName : String) : Bool :=
  let normalized := h.unicode.lower repoFullName
  h.repos.any fun p => fnmatch normalized (h.unicode.lower p)

/-- `_should_keep`. -/
def shouldKeep (repoFullName : String) : Bool :=
  match h.mode with
  | .allowlist => h.matchesRepo repoFullName
  | .blocklist => !h.matchesRepo repoFullName

/-- `_check_repo`. -/
def checkRepo (fullRepo : String) (displayName : Option String := none) : Except Exc Unit :=
  let label := (displayName.filter (· ≠ "")).getD fullRepo
  match h.mode with
  | .allowlist =>
    if !h.matchesRepo fullRepo then
      .error (.shortCircuit (.str ("Repository '" ++ label ++ "' is not in the allowlist")) true)
    else .ok ()
  | .blocklist =>
    if h.matchesRepo fullRepo then
      .error (.shortCircuit (.str ("Repository '" ++ label ++ "' is blocked")) true)
    else .ok ()

/-- The `repository` argument. -/
def repositoryRepos : Value → List String
  | .str repository => if repository.toList.contains '/' then [repository] else []
  | _ => []

/-- The qualifiers in a search argument. -/
def qualifierRepos : Value → List String
  | .str query => (h.queryRepos query).filter (·.toList.contains '/')
  | _ => []

/-- The repository in a URL argument. -/
def urlRepos : Value → List String
  | .str url => (urlRepo url).toList
  | _ => []

/-- `_extract_repos_from_arguments`. The arguments are read from JSON, in which no integer is too
long for a text. -/
def extractReposFromArguments (arguments : Dict) : List String :=
  let owner := arguments.getD "owner" .none
  let repo := arguments.getD "repo" .none
  let query := arguments.getD "query" .none
  (if owner.truthy && repo.truthy then [owner.text ++ "/" ++ repo.text] else []) ++
    repositoryRepos (arguments.getD "repository" .none) ++
    h.qualifierRepos (if query.truthy then query else arguments.getD "q" .none) ++
    ["url", "html_url"].flatMap fun key => urlRepos (arguments.getD key .none)

/-- Whether the server of a call is in the scope of the hook. -/
def inScope (serverName : String) : Bool :=
  match h.servers with
  | none => true
  | some servers => servers.isEmpty || servers.any (Value.eqStr serverName)

def onPostValidation (ctx : HookContext) : Except Exc HookContext := do
  if !h.inScope ctx.serverName then return ctx
  match ctx.requestPayload.getD "arguments" (.dict []) with
  | .dict arguments =>
    (h.extractReposFromArguments arguments).forM fun fullRepo =>
      h.checkRepo (h.unicode.lower fullRepo) fullRepo
    return ctx
  | _ => return ctx

@[simp] theorem matchesRepo_lower (repo : String) :
    h.matchesRepo (h.unicode.lower repo) = h.matchesRepo repo := by
  simp only [matchesRepo, h.unicode.lower_lower]

/-- A repository passes the check of a request exactly when `_should_keep` permits it. -/
theorem checkRepo_lower_eq_ok_iff (repo : String) (name : Option String) :
    h.checkRepo (h.unicode.lower repo) name = .ok () ↔ h.shouldKeep repo = true := by
  unfold checkRepo shouldKeep
  cases h.mode with
  | allowlist => cases hmatch : h.matchesRepo repo <;> simp [hmatch]
  | blocklist => cases hmatch : h.matchesRepo repo <;> simp [hmatch]

theorem checkRepo_denies {repo : String} {name : Option String} {e : Exc}
    (he : h.checkRepo repo name = .error e) : ∃ reason, e = .shortCircuit reason true := by
  unfold checkRepo at he
  cases hmode : h.mode with
  | allowlist =>
    simp only [hmode] at he
    split_ifs at he
    cases he
    exact ⟨_, rfl⟩
  | blocklist =>
    simp only [hmode] at he
    split_ifs at he
    cases he
    exact ⟨_, rfl⟩

end GitHubRepoFilterHook

end McpZero.Plugins
