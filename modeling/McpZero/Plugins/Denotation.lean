import McpZero.Plugins.Extraction

/-! The repositories that the arguments of a call denote: what a URL of GitHub and a `repo:`
qualifier stand for. The filter reads them where they are plainly written. -/
namespace McpZero.Plugins
open Python Lib GitHubRepoFilterHook

/-- Where a repository has its URLs. -/
inductive Site
  | web
  | www
  | api
  deriving DecidableEq

namespace Site

def host : Site → String
  | .web => "github.com"
  | .www => "www.github.com"
  | .api => "api.github.com"

/-- What stands before the owner in a path. -/
def root : Site → String
  | .web | .www => ""
  | .api => "repos/"

end Site

/-- A character of a host name, of an owner or of a repository. -/
def isHostChar (c : Char) : Bool :=
  !isWhitespace c && (c.isAlphanum || c == '-' || c == '_' || c == '.' || 128 ≤ c.toNat)

def hexDigit? (c : Char) : Option ℕ :=
  if c.isDigit then some (c.toNat - '0'.toNat)
  else if 'a' ≤ c.toLower ∧ c.toLower ≤ 'f' then some (c.toLower.toNat - 'a'.toNat + 10)
  else none

/-- The ASCII character that an escape stands for. -/
def escaped? (hi lo : Char) : Option Char :=
  match hexDigit? hi, hexDigit? lo with
  | some h, some l => if 16 * h + l < 128 then some (Char.ofNat (16 * h + l)) else none
  | _, _ => none

/-- A segment of a path without its escapes. -/
def unescape : List Char → List Char
  | '%' :: hi :: lo :: cs =>
    match escaped? hi lo with
    | some c => c :: unescape cs
    | none => '%' :: unescape (hi :: lo :: cs)
  | c :: cs => c :: unescape cs
  | [] => []

/-- The name of a repository without the `.git` that a URL may add. -/
def withoutGit (name : List Char) : List Char :=
  if ".git".toList.isSuffixOf name then name.take (name.length - 4) else name

/-- A text that holds the URL of a repository, in its parts: other words may stand before the URL
and after it, and the scheme may be missing, as where one types it into a browser. -/
structure GitHubUrl where
  lead : List Char
  scheme : Option (List Char)
  user : Option (List Char)
  site : Site
  host : List Char
  port : Option (List Char)
  owner : List Char
  name : List Char
  rest : List Char
  lead_noSlash : '/' ∉ lead
  lead_last : ∀ c, lead.getLast? = some c → isHostChar c = false
  scheme_chars : ∀ s, scheme = some s → s = [] ∨
    ∃ letters, s = letters ++ [':'] ∧ ∀ c ∈ letters, (c.isAlphanum || c ∈ ['+', '-', '.']) = true
  user_chars : ∀ s, user = some s → ∀ c ∈ s, isNameChar c = true
  host_eq : host.map Char.toLower = site.host.toList
  port_digits : ∀ s, port = some s → ∀ c ∈ s, c.isDigit = true
  owner_ne : owner ≠ []
  owner_chars : ∀ c ∈ owner, isNameChar c = true
  name_ne : name ≠ []
  name_chars : ∀ c ∈ name, isNameChar c = true
  rest_head : ∀ c, rest.head? = some c → isNameChar c = false

namespace GitHubUrl

/-- What stands before the host. -/
def authority (url : GitHubUrl) : List Char :=
  (url.user.map (· ++ ['@'])).getD []

def text (url : GitHubUrl) : List Char :=
  url.lead ++ ((url.scheme.map (· ++ "//".toList)).getD [] ++ (url.authority ++
    (url.host ++ ((url.port.map (':' :: ·)).getD [] ++ '/' :: (url.site.root.toList ++
      (url.owner ++ '/' :: (url.name ++ url.rest)))))))

def repo (url : GitHubUrl) : List Char :=
  unescape url.owner ++ '/' :: withoutGit (unescape url.name)

/-- On a site for people, with its host in lower case and no port, and with owner and name as
they are. -/
structure Plain (url : GitHubUrl) : Prop where
  site_ne : url.site ≠ .api
  host_eq : url.host = url.site.host.toList
  port_eq : url.port = none
  owner_eq : unescape url.owner = url.owner
  name_eq : withoutGit (unescape url.name) = url.name

/-- The host of a site for people ends in `github.com`. -/
theorem exists_host_of_ne_api {site : Site} (hsite : site ≠ .api) :
    ∃ skipped, site.host.toList = skipped ++ "github.com".toList ∧ '/' ∉ skipped := by
  cases site with
  | web => exact ⟨[], rfl, by simp⟩
  | www => exact ⟨"www.".toList, rfl, by decide⟩
  | api => exact absurd rfl hsite

theorem slash_not_mem_authority (url : GitHubUrl) : '/' ∉ url.authority := by
  unfold authority
  cases huser : url.user with
  | none => simp
  | some s =>
    have hname : isNameChar '/' = false := by decide
    have hchars := url.user_chars s huser
    simp only [Option.map_some, Option.getD_some, List.mem_append, List.mem_singleton, not_or]
    refine ⟨fun hmem => ?_, by decide⟩
    rw [hchars '/' hmem] at hname
    cases hname

theorem slash_not_mem_scheme (url : GitHubUrl) {s : List Char} (hs : url.scheme = some s) :
    '/' ∉ s := by
  rcases url.scheme_chars s hs with rfl | ⟨letters, rfl, hletters⟩
  · simp
  · simp only [List.mem_append, List.mem_singleton, not_or]
    refine ⟨fun hmem => ?_, by decide⟩
    have hslash := hletters '/' hmem
    revert hslash
    decide

theorem root_eq_nil {site : Site} (hsite : site ≠ .api) : site.root.toList = [] := by
  cases site with
  | web => rfl
  | www => rfl
  | api => exact absurd rfl hsite

theorem owner_slash (url : GitHubUrl) : '/' ∉ url.owner := fun hmem =>
  absurd (url.owner_chars '/' hmem) (by decide)

/-- Where no slash stands before it, the pattern reads a plainly written URL. -/
theorem Plain.search_host {url : GitHubUrl} (hplain : url.Plain) {before : List Char}
    (hbefore : '/' ∉ before) :
    search urlRepoAt none (before ++ (url.authority ++ (url.host ++
      ((url.port.map (':' :: ·)).getD [] ++ '/' :: (url.site.root.toList ++
        (url.owner ++ '/' :: (url.name ++ url.rest))))))) = some url.repo := by
  obtain ⟨skipped, hhost, hskipped⟩ := exists_host_of_ne_api hplain.site_ne
  have hnoSlash : '/' ∉ before ++ url.authority ++ skipped := by
    simp only [List.mem_append, not_or]
    exact ⟨⟨hbefore, url.slash_not_mem_authority⟩, hskipped⟩
  have htext : before ++ (url.authority ++ (url.host ++
      ((url.port.map (':' :: ·)).getD [] ++ '/' :: (url.site.root.toList ++
        (url.owner ++ '/' :: (url.name ++ url.rest)))))) =
      (before ++ url.authority ++ skipped) ++
        ("github.com".toList ++ '/' :: (url.owner ++ '/' :: (url.name ++ url.rest))) := by
    rw [hplain.host_eq, hhost, hplain.port_eq, root_eq_nil hplain.site_ne]
    simp only [Option.map_none, Option.getD_none, List.nil_append, List.append_assoc]
  rw [htext, search_urlRepoAt_host hnoSlash]
  apply search_of_startsWithUrl
  refine ⟨url.owner, url.name, url.rest, rfl, url.owner_ne, url.owner_slash, url.name_ne,
    url.name_chars, url.rest_head, ?_⟩
  rw [repo, hplain.owner_eq, hplain.name_eq]

theorem Plain.firstUrl {url : GitHubUrl} (hplain : url.Plain) : FirstUrl url.text url.repo := by
  have hsearch : search urlRepoAt none url.text = some url.repo := by
    unfold text
    cases hscheme : url.scheme with
    | none => exact hplain.search_host url.lead_noSlash
    | some s =>
      have hnoSlash : '/' ∉ url.lead ++ s := by
        rw [List.mem_append, not_or]
        exact ⟨url.lead_noSlash, url.slash_not_mem_scheme hscheme⟩
      have hsegment := search_segment hnoSlash
      simp only [List.append_assoc] at hsegment
      have hrest := hplain.search_host (show '/' ∉ [] by simp)
      simp only [Option.map_some, Option.getD_some, List.append_assoc]
      exact (hsegment _).trans hrest
  rw [← String.toList_ofList (l := url.text), ← String.toList_ofList (l := url.repo),
    ← urlRepo_eq_some_iff, urlRepo, String.toList_ofList, hsearch, Option.map_some]

end GitHubUrl

/-- A `repo:` qualifier in a search term, in its parts. Its value may stand in quotes. -/
structure Qualifier (u : Unicode) (term : List Char) where
  before : List Char
  mark : List Char
  quote : List Char
  repo : List Char
  after : List Char
  term_eq : term = before ++ (mark ++ (quote ++ (repo ++ after)))
  boundary : ∀ c, before.getLast? = some c → u.isWord c = false
  mark_eq : mark.map Char.toLower = "repo:".toList
  quote_eq : quote = [] ∨ quote = ['"']
  repo_chars : ∀ c ∈ repo, (isHostChar c || c == '/') = true
  repo_slash : '/' ∈ repo
  after_head : ∀ c, after.head? = some c → (isHostChar c || c == '/') = false

/-- Without quotes, at the end of its term, and the first `repo:` there. -/
structure Qualifier.Plain {u : Unicode} {term : List Char} (q : Qualifier u term) : Prop where
  quote_eq : q.quote = []
  after_eq : q.after = []
  first : ∀ pre rest, term = pre ++ rest → pre.length < q.before.length →
    (∀ c, pre.getLast? = some c → u.isWord c = false) →
    (rest.take 5).map Char.toLower ≠ "repo:".toList

theorem Qualifier.Plain.firstQualifier {u : Unicode} {term : List Char} {q : Qualifier u term}
    (hplain : q.Plain) : FirstQualifier u term q.repo := by
  have hterm : term = q.before ++ (q.mark ++ q.repo) := by
    have heq := q.term_eq
    rwa [hplain.quote_eq, hplain.after_eq, List.nil_append, List.append_nil] at heq
  refine ⟨q.before, q.mark ++ q.repo, hterm, q.boundary, ⟨q.mark, [], by simp, q.mark_eq,
    List.ne_nil_of_mem q.repo_slash, fun c hc => ?_, by simp⟩, ?_⟩
  · rcases Bool.or_eq_true_iff.mp (q.repo_chars c hc) with hhost | hslash
    · rw [isHostChar, Bool.and_eq_true, Bool.not_eq_true'] at hhost
      exact hhost.1
    · rw [beq_iff_eq] at hslash
      rw [hslash]
      decide
  · rintro pre' rest' hsplit hlt hboundary repo' ⟨mark, after, rfl, hmark, -⟩
    refine hplain.first pre' _ hsplit hlt hboundary ?_
    have hlength : mark.length = 5 := by
      have hmap := congrArg List.length hmark
      simpa using hmap
    rw [← hlength, List.take_left, hmark]

/-- The repositories denoted by the arguments of a call. -/
inductive Denotes (u : Unicode) (arguments : Dict) : String → Prop
  | ownerRepo : (arguments.getD "owner" .none).truthy = true →
      (arguments.getD "repo" .none).truthy = true →
      Denotes u arguments
        ((arguments.getD "owner" .none).text ++ "/" ++ (arguments.getD "repo" .none).text)
  | repository {repo : String} : arguments.getD "repository" .none = .str repo →
      '/' ∈ repo.toList → Denotes u arguments repo
  | qualifier {key : String} {term : List Char} (q : Qualifier u term) : key ∈ ["query", "q"] →
      SearchTerm arguments key term → Denotes u arguments (String.ofList q.repo)
  | url {key : String} (url : GitHubUrl) : key ∈ ["url", "html_url"] →
      arguments.getD key .none = .str (String.ofList url.text) →
      Denotes u arguments (String.ofList url.repo)

/-- The repositories that the arguments denote in the form that the filter reads. -/
inductive DenotesPlainly (u : Unicode) (arguments : Dict) : String → Prop
  | ownerRepo : (arguments.getD "owner" .none).truthy = true →
      (arguments.getD "repo" .none).truthy = true →
      DenotesPlainly u arguments
        ((arguments.getD "owner" .none).text ++ "/" ++ (arguments.getD "repo" .none).text)
  | repository {repo : String} : arguments.getD "repository" .none = .str repo →
      '/' ∈ repo.toList → DenotesPlainly u arguments repo
  | qualifier {key : String} {term : List Char} (q : Qualifier u term) : q.Plain →
      Searched arguments key → SearchTerm arguments key term →
      DenotesPlainly u arguments (String.ofList q.repo)
  | url {key : String} (url : GitHubUrl) : url.Plain → key ∈ ["url", "html_url"] →
      arguments.getD key .none = .str (String.ofList url.text) →
      DenotesPlainly u arguments (String.ofList url.repo)

/-- The repositories that the filter overlooks: in a `q` beside a `query`, and in qualifiers and
URLs that are not plainly written. -/
inductive Overlooked (u : Unicode) (arguments : Dict) : String → Prop
  | besideQuery {term : List Char} (q : Qualifier u term) :
      (arguments.getD "query" .none).truthy = true → SearchTerm arguments "q" term →
      Overlooked u arguments (String.ofList q.repo)
  | qualifier {key : String} {term : List Char} (q : Qualifier u term) : ¬ q.Plain →
      key ∈ ["query", "q"] → SearchTerm arguments key term →
      Overlooked u arguments (String.ofList q.repo)
  | url {key : String} (url : GitHubUrl) : ¬ url.Plain → key ∈ ["url", "html_url"] →
      arguments.getD key .none = .str (String.ofList url.text) →
      Overlooked u arguments (String.ofList url.repo)

/-- What the patterns read where nothing is plainly written. -/
inductive Misread (u : Unicode) (arguments : Dict) : String → Prop
  | qualifier {key repo : String} {term : List Char} : Searched arguments key →
      SearchTerm arguments key term → (∀ q : Qualifier u term, ¬ q.Plain) → '/' ∈ repo.toList →
      FirstQualifier u term repo.toList → Misread u arguments repo
  | url {key text repo : String} : key ∈ ["url", "html_url"] →
      arguments.getD key .none = .str text →
      (∀ url : GitHubUrl, url.text = text.toList → ¬ url.Plain) →
      FirstUrl text.toList repo.toList → Misread u arguments repo

namespace GitHubRepoFilterHook

theorem firstUrl_unique {text repo repo' : List Char} (hrepo : FirstUrl text repo)
    (hrepo' : FirstUrl text repo') : repo = repo' := by
  rw [← String.toList_ofList (l := text), ← String.toList_ofList (l := repo),
    ← urlRepo_eq_some_iff] at hrepo
  rw [← String.toList_ofList (l := text), ← String.toList_ofList (l := repo'),
    ← urlRepo_eq_some_iff, hrepo, Option.some.injEq, String.ofList_inj] at hrepo'
  exact hrepo'

theorem firstQualifier_unique (h : GitHubRepoFilterHook) {term repo repo' : List Char}
    (hrepo : FirstQualifier h.unicode term repo) (hrepo' : FirstQualifier h.unicode term repo') :
    repo = repo' := by
  rw [← searchTerm_eq_some_iff] at hrepo hrepo'
  rw [hrepo] at hrepo'
  exact Option.some.inj hrepo'

/-- What the arguments denote is written plainly, or it is overlooked. -/
theorem denotes_iff (u : Unicode) (arguments : Dict) (repo : String) :
    Denotes u arguments repo ↔ DenotesPlainly u arguments repo ∨ Overlooked u arguments repo := by
  constructor
  · intro hdenotes
    cases hdenotes with
    | ownerRepo howner hrepo => exact .inl (.ownerRepo howner hrepo)
    | repository hstr hslash => exact .inl (.repository hstr hslash)
    | @qualifier key term q hkey hterm =>
      by_cases hplain : q.Plain
      · simp only [List.mem_cons, List.not_mem_nil, or_false] at hkey
        rcases hkey with rfl | rfl
        · exact .inl (.qualifier q hplain (.inl rfl) hterm)
        · cases htruthy : (arguments.getD "query" .none).truthy with
          | true => exact .inr (.besideQuery q htruthy hterm)
          | false => exact .inl (.qualifier q hplain (.inr ⟨rfl, htruthy⟩) hterm)
      · exact .inr (.qualifier q hplain hkey hterm)
    | url url hkey hurl =>
      by_cases hplain : url.Plain
      · exact .inl (.url url hplain hkey hurl)
      · exact .inr (.url url hplain hkey hurl)
  · rintro (hplain | hoverlooked)
    · cases hplain with
      | ownerRepo howner hrepo => exact .ownerRepo howner hrepo
      | repository hstr hslash => exact .repository hstr hslash
      | qualifier q _ hkey hterm =>
        refine .qualifier q ?_ hterm
        rcases hkey with rfl | ⟨rfl, -⟩ <;> simp
      | url url _ hkey hurl => exact .url url hkey hurl
    · cases hoverlooked with
      | besideQuery q _ hterm => exact .qualifier q (by simp) hterm
      | qualifier q _ hkey hterm => exact .qualifier q hkey hterm
      | url url _ hkey hurl => exact .url url hkey hurl

/-- What the filter reads is written plainly, or it is misread. -/
theorem reads_iff (h : GitHubRepoFilterHook) (arguments : Dict) (repo : String) :
    Reads h.unicode arguments repo ↔
      DenotesPlainly h.unicode arguments repo ∨ Misread h.unicode arguments repo := by
  constructor
  · intro hreads
    cases hreads with
    | ownerRepo howner hrepo => exact .inl (.ownerRepo howner hrepo)
    | repository hstr hslash => exact .inl (.repository hstr hslash)
    | qualifier hkey hread =>
      obtain ⟨hslash, term, hterm, hfirst⟩ := hread
      by_cases hplain : ∃ q : Qualifier h.unicode term, q.Plain
      · obtain ⟨q, hplain⟩ := hplain
        have hrepo := h.firstQualifier_unique hplain.firstQualifier hfirst
        rw [← String.ofList_toList (s := repo), ← hrepo]
        exact .inl (.qualifier q hplain hkey hterm)
      · exact .inr (.qualifier hkey hterm (not_exists.mp hplain) hslash hfirst)
    | url hkey hread =>
      obtain ⟨text, htext, hfirst⟩ := hread
      by_cases hplain : ∃ url : GitHubUrl, url.text = text.toList ∧ url.Plain
      · obtain ⟨url, hurl, hplain⟩ := hplain
        have hrepo := firstUrl_unique (hurl ▸ hplain.firstUrl) hfirst
        rw [← String.ofList_toList (s := repo), ← hrepo]
        refine .inl (.url url hplain hkey ?_)
        rw [htext, hurl, String.ofList_toList]
      · refine .inr (.url hkey htext (fun url hurl hplain' => hplain ⟨url, hurl, hplain'⟩) hfirst)
  · rintro (hplain | hmisread)
    · cases hplain with
      | ownerRepo howner hrepo => exact .ownerRepo howner hrepo
      | repository hstr hslash => exact .repository hstr hslash
      | qualifier q hplain hkey hterm =>
        refine .qualifier hkey ⟨?_, _, hterm, ?_⟩
        · rw [String.toList_ofList]
          exact q.repo_slash
        · rw [String.toList_ofList]
          exact hplain.firstQualifier
      | url url hplain hkey hurl =>
        refine .url hkey ⟨_, hurl, ?_⟩
        rw [String.toList_ofList, String.toList_ofList]
        exact hplain.firstUrl
    · cases hmisread with
      | qualifier hkey hterm _ hslash hfirst => exact .qualifier hkey ⟨hslash, _, hterm, hfirst⟩
      | url hkey htext _ hfirst => exact .url hkey ⟨_, htext, hfirst⟩

end GitHubRepoFilterHook

end McpZero.Plugins
