import McpZero.Lib.Except
import McpZero.Lib.Separator
import McpZero.Plugins.GitHubRepoFilter

/-! What the repository filter reads in the arguments of a call: its two patterns, described by
the text that they match. -/
namespace McpZero.Plugins
open Python Lib

/-- The text starts with `github.com/` and a repository. -/
def StartsWithUrl (cs : List Char) (repo : List Char) : Prop :=
  ∃ owner name after, cs = "github.com/".toList ++ (owner ++ '/' :: (name ++ after)) ∧
    owner ≠ [] ∧ '/' ∉ owner ∧ name ≠ [] ∧
    (∀ c ∈ name, GitHubRepoFilterHook.isNameChar c = true) ∧
    (∀ c, after.head? = some c → GitHubRepoFilterHook.isNameChar c = false) ∧
    repo = owner ++ '/' :: name

/-- The text starts with `repo:`, in any case, and a qualifier that ends with its token. -/
def StartsWithQualifier (cs : List Char) (repo : List Char) : Prop :=
  ∃ mark after, cs = mark ++ (repo ++ after) ∧ mark.map Char.toLower = "repo:".toList ∧
    repo ≠ [] ∧ (∀ c ∈ repo, isWhitespace c = false) ∧
    ∀ c, after.head? = some c → isWhitespace c = true

/-- The first GitHub URL of a text. -/
def FirstUrl (text repo : List Char) : Prop :=
  ∃ pre rest, text = pre ++ rest ∧ StartsWithUrl rest repo ∧
    ∀ pre' rest', text = pre' ++ rest' → pre'.length < pre.length →
      ∀ repo', ¬ StartsWithUrl rest' repo'

/-- The `repo:` qualifier of a search term: the first one that no word character precedes. -/
def FirstQualifier (u : Unicode) (term repo : List Char) : Prop :=
  ∃ pre rest, term = pre ++ rest ∧ (∀ c, pre.getLast? = some c → u.isWord c = false) ∧
    StartsWithQualifier rest repo ∧
    ∀ pre' rest', term = pre' ++ rest' → pre'.length < pre.length →
      (∀ c, pre'.getLast? = some c → u.isWord c = false) →
        ∀ repo', ¬ StartsWithQualifier rest' repo'

/-- A term of a string argument. -/
def SearchTerm (arguments : Dict) (key : String) (term : List Char) : Prop :=
  ∃ query, arguments.getD key .none = .str query ∧ term ∈ query.toList.splitOnP isWhitespace

/-- The search argument that the filter looks at: `q` stands in for a falsy `query`. -/
def Searched (arguments : Dict) (key : String) : Prop :=
  key = "query" ∨ key = "q" ∧ (arguments.getD "query" .none).truthy = false

/-- What the pattern reads in a term of a string argument. -/
def ReadFromQuery (u : Unicode) (arguments : Dict) (key repo : String) : Prop :=
  '/' ∈ repo.toList ∧ ∃ term, SearchTerm arguments key term ∧ FirstQualifier u term repo.toList

/-- What the pattern reads in a string argument. -/
def ReadFromUrl (arguments : Dict) (key repo : String) : Prop :=
  ∃ url, arguments.getD key .none = .str url ∧ FirstUrl url.toList repo.toList

/-- The repositories that the filter reads of the arguments of a call. -/
inductive Reads (u : Unicode) (arguments : Dict) : String → Prop
  | ownerRepo : (arguments.getD "owner" .none).truthy = true →
      (arguments.getD "repo" .none).truthy = true →
      Reads u arguments
        ((arguments.getD "owner" .none).text ++ "/" ++ (arguments.getD "repo" .none).text)
  | repository {repo : String} : arguments.getD "repository" .none = .str repo →
      '/' ∈ repo.toList → Reads u arguments repo
  | qualifier {key repo : String} : Searched arguments key → ReadFromQuery u arguments key repo →
      Reads u arguments repo
  | url {key repo : String} : key ∈ ["url", "html_url"] → ReadFromUrl arguments key repo →
      Reads u arguments repo

namespace GitHubRepoFilterHook

/-! What it reads in a URL -/

theorem urlRepoAt_eq_some_iff (before : Option Char) (cs repo : List Char) :
    urlRepoAt before cs = some repo ↔ StartsWithUrl cs repo := by
  have hdrop (path : List Char) : ("github.com/".toList ++ path).drop 11 = path := by
    rw [show 11 = "github.com/".toList.length from rfl, List.drop_left]
  have htail (path owner tail : List Char) (h : path = owner ++ '/' :: tail) :
      path.drop (owner.length + 1) = tail := by
    rw [h]
    simp
  unfold urlRepoAt
  simp only [Option.ite_none_right_eq_some, Bool.and_eq_true, Bool.not_eq_true',
    List.isEmpty_eq_false_iff, Option.some.injEq, decide_eq_true_eq]
  constructor
  · rintro ⟨⟨⟨⟨hstart, howner⟩, hlt⟩, hname⟩, rfl⟩
    obtain ⟨path, rfl⟩ := List.isPrefixOf_iff_prefix.mp hstart
    rw [hdrop] at howner hlt hname ⊢
    obtain ⟨rest, hsplit, hrun, hrest⟩ := takeWhile_eq_iff.mp (rfl : path.takeWhile (· != '/') = _)
    cases rest with
    | nil =>
      rw [List.append_nil] at hsplit
      rw [← hsplit] at hlt
      exact absurd hlt (lt_irrefl _)
    | cons c tail =>
      obtain rfl : c = '/' := by simpa using hrest c rfl
      rw [htail _ _ _ hsplit] at hname ⊢
      obtain ⟨after, hname', hnames, hafter⟩ :=
        takeWhile_eq_iff.mp (rfl : tail.takeWhile isNameChar = _)
      refine ⟨_, _, after, ?_, howner, ?_, hname, hnames, hafter, rfl⟩
      · rw [← hname', ← hsplit]
      · intro hmem
        simpa using hrun '/' hmem
  · rintro ⟨owner, name, after, rfl, howner, hslash, hname, hnames, hafter, rfl⟩
    have hrun : (owner ++ '/' :: (name ++ after)).takeWhile (· != '/') = owner := by
      refine takeWhile_eq_iff.mpr ⟨'/' :: (name ++ after), rfl, fun c hc => ?_, by simp⟩
      simp only [bne_iff_ne, ne_eq]
      rintro rfl
      exact hslash hc
    have hname' : (name ++ after).takeWhile isNameChar = name :=
      takeWhile_eq_iff.mpr ⟨after, rfl, hnames, hafter⟩
    rw [hdrop, hrun, htail _ _ _ rfl, hname']
    refine ⟨⟨⟨⟨?_, howner⟩, by simp⟩, hname⟩, rfl⟩
    exact List.isPrefixOf_iff_prefix.mpr (List.prefix_append _ _)

theorem urlRepo_eq_some_iff (url repo : String) :
    urlRepo url = some repo ↔ FirstUrl url.toList repo.toList := by
  have hlists : urlRepo url = some repo ↔ search urlRepoAt none url.toList = some repo.toList := by
    simp only [urlRepo, Option.map_eq_some_iff]
    constructor
    · rintro ⟨cs, hcs, rfl⟩
      rw [hcs, String.toList_ofList]
    · intro hcs
      exact ⟨_, hcs, String.ofList_toList⟩
  rw [hlists, search_eq_some_iff]
  simp only [urlRepoAt_eq_some_iff, FirstUrl, Option.eq_none_iff_forall_ne_some, ne_eq]

theorem search_urlRepoAt_before (before : Option Char) (cs : List Char) :
    search urlRepoAt before cs = search urlRepoAt none cs := by
  cases cs <;> rfl

theorem search_of_startsWithUrl {cs repo : List Char} (hstart : StartsWithUrl cs repo) :
    search urlRepoAt none cs = some repo := by
  have hhere : urlRepoAt none cs = some repo := (urlRepoAt_eq_some_iff none cs repo).mpr hstart
  cases cs with
  | nil => exact hhere
  | cons c cs => rw [search, hhere, Option.some_or]

theorem search_cons_of_not_startsWithUrl {c : Char} {cs : List Char}
    (hnot : ∀ repo, ¬ StartsWithUrl (c :: cs) repo) :
    search urlRepoAt none (c :: cs) = search urlRepoAt none cs := by
  have hhere : urlRepoAt none (c :: cs) = none :=
    Option.eq_none_iff_forall_ne_some.mpr fun repo hrepo =>
      hnot repo ((urlRepoAt_eq_some_iff none (c :: cs) repo).mp hrepo)
  rw [search, hhere, Option.none_or, search_urlRepoAt_before]

theorem startsWithUrl_host {cs repo : List Char} (hstart : StartsWithUrl cs repo) :
    cs.head? = some 'g' := by
  obtain ⟨owner, name, after, rfl, -⟩ := hstart
  rfl

/-- The pattern starts at a `g`. -/
theorem search_append_of_not_mem {skipped : List Char} (hg : 'g' ∉ skipped) (cs : List Char) :
    search urlRepoAt none (skipped ++ cs) = search urlRepoAt none cs := by
  induction skipped with
  | nil => rfl
  | cons c skipped ih =>
    rw [List.mem_cons, not_or] at hg
    rw [List.cons_append, search_cons_of_not_startsWithUrl, ih hg.2]
    intro repo hstart
    have hhead := startsWithUrl_host hstart
    rw [List.head?_cons, Option.some.injEq] at hhead
    exact hg.1 hhead.symm

/-- What stands between the first slash and the next one after it is the owner. -/
theorem startsWithUrl_after_slash {segment cs repo : List Char} (hsegment : '/' ∉ segment)
    (hstart : StartsWithUrl (segment ++ '/' :: cs) repo) :
    ∃ owner name after, cs = owner ++ '/' :: (name ++ after) ∧ owner ≠ [] ∧ '/' ∉ owner ∧
      name ≠ [] ∧ ∀ c ∈ name, isNameChar c = true := by
  obtain ⟨owner, name, after, hcs, howner, hslash, hname, hnames, -⟩ := hstart
  have hsplit : segment ++ '/' :: cs =
      "github.com".toList ++ '/' :: (owner ++ '/' :: (name ++ after)) := hcs
  rw [append_cons_inj_of_first hsegment (by decide)] at hsplit
  exact ⟨owner, name, after, hsplit.2, howner, hslash, hname, hnames⟩

/-- Up to an empty segment of a path there is no match. -/
theorem search_segment {segment : List Char} (hsegment : '/' ∉ segment) (cs : List Char) :
    search urlRepoAt none (segment ++ '/' :: '/' :: cs) = search urlRepoAt none cs := by
  induction segment with
  | nil => exact search_append_of_not_mem (by decide : 'g' ∉ "//".toList) cs
  | cons c segment ih =>
    have hrest : '/' ∉ segment := fun hmem => hsegment (List.mem_cons_of_mem _ hmem)
    rw [List.cons_append, search_cons_of_not_startsWithUrl, ih hrest]
    intro repo hstart
    obtain ⟨owner, name, after, hcs, howner, hslash, -⟩ :=
      startsWithUrl_after_slash hsegment hstart
    cases owner with
    | nil => exact howner rfl
    | cons o owner =>
      obtain ⟨rfl, -⟩ := List.cons.inj hcs
      exact hslash List.mem_cons_self

theorem urlRepo_of_search {url repo : String}
    (hsearch : search urlRepoAt none url.toList = some repo.toList) : urlRepo url = some repo := by
  rw [urlRepo, hsearch, Option.map_some, String.ofList_toList]

/-- Before the host of a URL there is no match. -/
theorem search_urlRepoAt_host {skipped : List Char} (hskipped : '/' ∉ skipped) (path : List Char) :
    search urlRepoAt none (skipped ++ ("github.com".toList ++ '/' :: path)) =
      search urlRepoAt none ("github.com".toList ++ '/' :: path) := by
  induction skipped with
  | nil => rfl
  | cons c skipped ih =>
    have hrest : '/' ∉ skipped := fun hmem => hskipped (List.mem_cons_of_mem _ hmem)
    rw [List.cons_append, search_cons_of_not_startsWithUrl, ih hrest]
    rintro repo ⟨owner, name, after, hcs, -⟩
    have hsplit : (c :: (skipped ++ "github.com".toList)) ++ '/' :: path =
        "github.com".toList ++ '/' :: (owner ++ '/' :: (name ++ after)) := by
      rw [List.cons_append, List.append_assoc]
      exact hcs
    have hhost : '/' ∉ c :: (skipped ++ "github.com".toList) := by
      rw [← List.cons_append, List.mem_append, not_or]
      exact ⟨hskipped, by decide⟩
    have hlength := congrArg List.length
      ((append_cons_inj_of_first hhost (by decide)).mp hsplit).1
    simp only [List.length_cons, List.length_append] at hlength
    omega

/-! What it reads in a search argument -/

variable (h : GitHubRepoFilterHook)

theorem queryRepoAt_eq_some_iff (before : Option Char) (cs repo : List Char) :
    h.queryRepoAt before cs = some repo ↔
      (∀ c, before = some c → h.unicode.isWord c = false) ∧ StartsWithQualifier cs repo := by
  have hboundary : before.any h.unicode.isWord = false ↔
      ∀ c, before = some c → h.unicode.isWord c = false := by
    cases before <;> simp
  unfold queryRepoAt
  simp only [Option.ite_none_right_eq_some, Bool.and_eq_true, Bool.not_eq_true',
    beq_iff_eq, List.isEmpty_eq_false_iff, Option.some.injEq]
  constructor
  · rintro ⟨⟨⟨hbefore, hmark⟩, hne⟩, hrepo⟩
    obtain ⟨after, hsplit, hrun, hafter⟩ := takeWhile_eq_iff.mp hrepo
    refine ⟨hboundary.mp hbefore, cs.take 5, after, ?_, hmark, hrepo ▸ hne, ?_, ?_⟩
    · rw [← hsplit, List.take_append_drop]
    · simpa using hrun
    · simpa using hafter
  · rintro ⟨hbefore, mark, after, rfl, hmark, hne, hrun, hafter⟩
    have hlength : mark.length = 5 := by
      have hmap := congrArg List.length hmark
      simpa using hmap
    have hrepo : ((mark ++ (repo ++ after)).drop 5).takeWhile (! isWhitespace ·) = repo := by
      rw [← hlength, List.drop_left]
      exact takeWhile_eq_iff.mpr ⟨after, rfl, by simpa using hrun, by simpa using hafter⟩
    refine ⟨⟨⟨hboundary.mpr hbefore, ?_⟩, by rw [hrepo]; exact hne⟩, hrepo⟩
    rw [← hlength, List.take_left, hmark]

theorem searchTerm_eq_some_iff (term repo : List Char) :
    search h.queryRepoAt none term = some repo ↔ FirstQualifier h.unicode term repo := by
  rw [search_eq_some_iff]
  simp only [queryRepoAt_eq_some_iff, FirstQualifier, Option.eq_none_iff_forall_ne_some, ne_eq,
    Option.or_none, not_and, and_assoc]
  grind

/-- A qualifier does not reach into the next term. -/
theorem startsWithQualifier_takeWhile_iff (cs repo : List Char) :
    StartsWithQualifier (cs.takeWhile (! isWhitespace ·)) repo ↔ StartsWithQualifier cs repo := by
  have hword : ∀ c ∈ "repo:".toList, isWhitespace c = false :=
    not_isWhitespace_of_all (by decide)
  constructor
  · rintro ⟨mark, after, hsplit, hmark, hne, hrepo, hafter⟩
    obtain ⟨rest, hcs, hrun, hrest⟩ :=
      takeWhile_eq_iff.mp (rfl : cs.takeWhile (! isWhitespace ·) = _)
    rw [hsplit] at hcs hrun
    cases after with
    | nil => exact ⟨mark, rest, by simpa using hcs, hmark, hne, hrepo, by simpa using hrest⟩
    | cons c after =>
      have hspace := hafter c rfl
      have hno := hrun c (by simp)
      rw [hspace] at hno
      cases hno
  · rintro ⟨mark, after, rfl, hmark, hne, hrepo, hafter⟩
    have hmarks : ∀ c ∈ mark, isWhitespace c = false := by
      intro c hc
      by_contra hspace
      rw [Bool.not_eq_false] at hspace
      have hmem : c.toLower ∈ "repo:".toList := hmark ▸ List.mem_map_of_mem hc
      rw [toLower_of_isWhitespace hspace] at hmem
      rw [hword c hmem] at hspace
      cases hspace
    refine ⟨mark, [], ?_, hmark, hne, hrepo, by simp⟩
    refine takeWhile_eq_iff.mpr ⟨after, by simp, ?_, by simpa using hafter⟩
    intro c hc
    rcases List.mem_append.mp hc with hc | hc
    · simp [hmarks c hc]
    · rw [List.append_nil] at hc
      simp [hrepo c hc]

theorem queryRepoAt_withinTokens : WithinTokens isWhitespace h.queryRepoAt where
  reads before cs := by
    refine Option.ext fun repo => ?_
    rw [queryRepoAt_eq_some_iff, queryRepoAt_eq_some_iff, startsWithQualifier_takeWhile_iff]
  nonempty before := by simp [queryRepoAt]
  afterSep a cs ha := by simp [queryRepoAt, h.unicode.isWord_whitespace a ha]

theorem mem_queryRepos_iff (query repo : String) :
    repo ∈ h.queryRepos query ↔
      ∃ term ∈ query.toList.splitOnP isWhitespace, FirstQualifier h.unicode term repo.toList := by
  simp only [queryRepos, List.mem_map, mem_searchTokens h.queryRepoAt_withinTokens,
    searchTerm_eq_some_iff]
  constructor
  · rintro ⟨cs, hcs, rfl⟩
    rwa [String.toList_ofList]
  · intro hcs
    exact ⟨_, hcs, String.ofList_toList⟩

theorem mem_repositoryRepos_iff (v : Value) (repo : String) :
    repo ∈ repositoryRepos v ↔ v = .str repo ∧ '/' ∈ repo.toList := by
  unfold repositoryRepos
  split
  · split_ifs with hslash
    · rw [List.contains_iff_mem] at hslash
      simp only [List.mem_singleton, Value.scalar.injEq, Scalar.str.injEq, eq_comm]
      exact ⟨fun heq => ⟨heq, heq ▸ hslash⟩, And.left⟩
    · rw [List.contains_iff_mem] at hslash
      simp only [List.not_mem_nil, Value.scalar.injEq, Scalar.str.injEq, false_iff, not_and]
      rintro rfl
      exact hslash
  · rename_i hstr
    simp only [List.not_mem_nil, false_iff, not_and]
    rintro rfl
    exact absurd rfl (hstr repo)

theorem mem_qualifierRepos_iff (arguments : Dict) (key repo : String) :
    repo ∈ h.qualifierRepos (arguments.getD key .none) ↔
      ReadFromQuery h.unicode arguments key repo := by
  unfold qualifierRepos ReadFromQuery SearchTerm
  split
  · rename_i query hquery
    simp [hquery, List.mem_filter, mem_queryRepos_iff, and_comm]
  · rename_i hstr
    simp only [List.not_mem_nil, false_iff]
    rintro ⟨-, term, ⟨query, hquery, -⟩, -⟩
    exact hstr query hquery

theorem mem_urlRepos_iff (arguments : Dict) (key repo : String) :
    repo ∈ urlRepos (arguments.getD key .none) ↔ ReadFromUrl arguments key repo := by
  unfold urlRepos ReadFromUrl
  split
  · rename_i url hurl
    simp [hurl, Option.mem_toList, urlRepo_eq_some_iff]
  · rename_i hstr
    simp only [List.not_mem_nil, false_iff]
    rintro ⟨url, hurl, -⟩
    exact hstr url hurl

/-- In a falsy search argument there is nothing to read. -/
theorem truthy_of_readFromQuery {u : Unicode} {arguments : Dict} {key repo : String}
    (hread : ReadFromQuery u arguments key repo) :
    (arguments.getD key .none).truthy = true := by
  obtain ⟨-, term, ⟨query, hquery, hterm⟩, pre, rest, hsplit, -, hstarts, -⟩ := hread
  obtain ⟨mark, after, rfl, hmark, -⟩ := hstarts
  have hne : query ≠ "" := by
    rintro rfl
    obtain rfl : term = [] := by simpa using hterm
    obtain ⟨rfl, -⟩ := List.append_eq_nil_iff.mp (List.append_eq_nil_iff.mp hsplit.symm).2
    cases hmark
  simp [hquery, Value.truthy, Scalar.truthy, hne]

/-- `_extract_repos_from_arguments` collects what the filter reads. -/
theorem mem_extractReposFromArguments_iff (arguments : Dict) (repo : String) :
    repo ∈ h.extractReposFromArguments arguments ↔ Reads h.unicode arguments repo := by
  simp only [extractReposFromArguments, List.mem_append, mem_repositoryRepos_iff,
    List.mem_flatMap, mem_urlRepos_iff]
  constructor
  · rintro (((hpair | hsingle) | hquery) | ⟨key, hkey, hurl⟩)
    · split_ifs at hpair with htruthy
      · rw [Bool.and_eq_true] at htruthy
        obtain rfl := List.mem_singleton.mp hpair
        exact .ownerRepo htruthy.1 htruthy.2
      · cases hpair
    · exact .repository hsingle.1 hsingle.2
    · split_ifs at hquery with htruthy
      · exact .qualifier (.inl rfl) ((h.mem_qualifierRepos_iff _ _ _).mp hquery)
      · rw [Bool.not_eq_true] at htruthy
        exact .qualifier (.inr ⟨rfl, htruthy⟩) ((h.mem_qualifierRepos_iff _ _ _).mp hquery)
    · exact .url hkey hurl
  · intro hreads
    cases hreads with
    | ownerRepo howner hrepo => exact .inl (.inl (.inl (by simp [howner, hrepo])))
    | repository hstr hslash => exact .inl (.inl (.inr ⟨hstr, hslash⟩))
    | qualifier hsearched hquery =>
      refine .inl (.inr ?_)
      rcases hsearched with rfl | ⟨rfl, hfalsy⟩
      · rw [if_pos (truthy_of_readFromQuery hquery)]
        exact (h.mem_qualifierRepos_iff _ _ _).mpr hquery
      · rw [if_neg (by simp [hfalsy])]
        exact (h.mem_qualifierRepos_iff _ _ _).mpr hquery
    | url hkey hurl => exact .inr ⟨_, hkey, hurl⟩

end GitHubRepoFilterHook

end McpZero.Plugins
