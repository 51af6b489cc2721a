import McpZero.Lib.Separator
import McpZero.Plugins.OutputFilter

/-! Whether an object of a response is kept does not depend on how it writes its repository, and
where it does. -/
namespace McpZero.Plugins
open Python Lib

namespace GitHubRepoFilterHook

/-- Without a slash, a whitespace, `?` or `#`. -/
def IsName (s : String) : Prop := ∀ c ∈ s.toList, isNameChar c = true

instance (s : String) : Decidable (IsName s) :=
  decidable_of_iff (s.toList.all isNameChar = true) List.all_eq_true

/-- The keys under which an object may hold its repository. -/
def repoKeys : List String :=
  ["full_name", "repository", "owner", "repository_url", "html_url", "url"]

/-- Of these keys, the object has this one alone. -/
structure HasOnly (item : Dict) (key : String) (v : Value) : Prop where
  value : item.get? key = some v
  others : ∀ other ∈ repoKeys, other ≠ key → item.get? other = none

def FurtherPath (path : String) : Prop := path = "" ∨ ∃ rest, path = "/" ++ rest

def htmlUrl (owner name path : String) : String :=
  "https://github.com/" ++ owner ++ "/" ++ name ++ path

def apiUrl (owner name path : String) : String :=
  "https://api.github.com/repos/" ++ owner ++ "/" ++ name ++ path

/-- The object gives the repository in one form. -/
inductive Gives (owner name : String) (item : Dict) : Prop
  | fullName : HasOnly item "full_name" (.str (owner ++ "/" ++ name)) → Gives owner name item
  | repository (repository : Dict) : HasOnly item "repository" (.dict repository) →
      repository.get? "full_name" = some (.str (owner ++ "/" ++ name)) → Gives owner name item
  | ownerAndName (user : Dict) : HasOnly item "owner" (.dict user) →
      user.get? "login" = some (.str owner) → item.get? "name" = some (.str name) →
      Gives owner name item
  | htmlUrl (path : String) : FurtherPath path →
      HasOnly item "html_url" (.str (htmlUrl owner name path)) → Gives owner name item
  | apiUrl (key path : String) : key = "repository_url" ∨ key = "url" → FurtherPath path →
      HasOnly item key (.str (apiUrl owner name path)) → Gives owner name item

/-- All objects that give the repository are kept, or none is. -/
def DecidesAlike (h : GitHubRepoFilterHook) (owner name : String) : Prop :=
  ∀ item item', Gives owner name item → Gives owner name item' →
    h.keepsItem item = h.keepsItem item'

theorem IsName.slash_not_mem {s : String} (hs : IsName s) : '/' ∉ s.toList := fun hmem =>
  absurd (hs '/' hmem) (by decide)

theorem FurtherPath.head {path : String} (hpath : FurtherPath path) :
    ∀ c, path.toList.head? = some c → isNameChar c = false := by
  intro c hc
  rcases hpath with rfl | ⟨rest, rfl⟩
  · cases hc
  · rw [String.toList_append] at hc
    cases hc
    decide

theorem furtherPath_slashes (text : String) : FurtherPath ("//" ++ text) :=
  .inr ⟨"/" ++ text, by rw [← String.append_assoc]; rfl⟩

variable {owner name : String}

theorem toList_htmlUrl (path : String) : (htmlUrl owner name path).toList =
    "https://github.com/".toList ++ (owner.toList ++ '/' :: (name.toList ++ path.toList)) := by
  change ("https://github.com/" ++ owner ++ "/" ++ name ++ path).toList = _
  simp only [String.toList_append, List.append_assoc]
  rfl

theorem toList_apiUrl (path : String) : (apiUrl owner name path).toList =
    "https://api.github.com/repos/".toList ++
      (owner.toList ++ '/' :: (name.toList ++ path.toList)) := by
  change ("https://api.github.com/repos/" ++ owner ++ "/" ++ name ++ path).toList = _
  simp only [String.toList_append, List.append_assoc]
  rfl

/-- `html_url` is read as it should be. -/
theorem urlRepo_htmlUrl (howner : IsName owner) (hname : IsName name) (hownerNe : owner ≠ "")
    (hnameNe : name ≠ "") {path : String} (hpath : FurtherPath path) :
    urlRepo (htmlUrl owner name path) = some (owner ++ "/" ++ name) := by
  have htext : (htmlUrl owner name path).toList = "https://".toList ++
      ("github.com/".toList ++ (owner.toList ++ '/' :: (name.toList ++ path.toList))) :=
    toList_htmlUrl path
  apply urlRepo_of_search
  rw [htext, search_append_of_not_mem (by decide)]
  apply search_of_startsWithUrl
  exact ⟨owner.toList, name.toList, path.toList, rfl, by simpa using hownerNe,
    howner.slash_not_mem, by simpa using hnameNe, hname, hpath.head, by simp⟩

/-- In a URL of the API, the pattern reads the owner as a name. -/
theorem urlRepo_apiUrl (howner : IsName owner) (hownerNe : owner ≠ "") (path : String) :
    urlRepo (apiUrl owner name path) = some ("repos/" ++ owner) := by
  have htext : (apiUrl owner name path).toList = "https://api.".toList ++ ("github.com/".toList ++
      ("repos".toList ++ '/' :: (owner.toList ++ '/' :: (name.toList ++ path.toList)))) :=
    toList_apiUrl path
  apply urlRepo_of_search
  rw [htext, search_append_of_not_mem (by decide)]
  apply search_of_startsWithUrl
  refine ⟨"repos".toList, owner.toList, '/' :: (name.toList ++ path.toList), rfl, by decide,
    by decide, by simpa using hownerNe, howner, ?_, by simp⟩
  intro c hc
  cases hc
  decide

/-- Where the owner or the name is empty, the pattern reads what comes after. -/
theorem search_htmlUrl_empty (howner : IsName owner) (hname : IsName name)
    (hempty : owner = "" ∨ name = "") (text : String) :
    search urlRepoAt none (htmlUrl owner name ("//" ++ text)).toList =
      search urlRepoAt none text.toList := by
  have htext : (htmlUrl owner name ("//" ++ text)).toList = "https:".toList ++ '/' :: '/' ::
      ("github.com".toList ++ '/' ::
        (owner.toList ++ '/' :: (name.toList ++ '/' :: '/' :: text.toList))) := by
    rw [toList_htmlUrl, String.toList_append]
    rfl
  rw [htext, search_segment (by decide)]
  rcases hempty with rfl | rfl
  · rw [String.toList_empty, List.nil_append, search_segment (by decide),
      search_segment hname.slash_not_mem]
  · rw [String.toList_empty, List.nil_append]
    have hhost : search urlRepoAt none ("github.com".toList ++ '/' ::
        (owner.toList ++ '/' :: '/' :: '/' :: text.toList)) =
        search urlRepoAt none ("ithub.com/".toList ++
          (owner.toList ++ '/' :: '/' :: '/' :: text.toList)) := by
      refine search_cons_of_not_startsWithUrl fun repo hstart => ?_
      obtain ⟨owner', name', after, hcs, -, hslash, hne, hnames⟩ :=
        startsWithUrl_after_slash (by decide : '/' ∉ "github.com".toList) hstart
      have htail := ((append_cons_inj_of_first howner.slash_not_mem hslash).mp hcs).2
      cases name' with
      | nil => exact hne rfl
      | cons c name' =>
        obtain ⟨rfl, -⟩ := List.cons.inj htail
        exact absurd (hnames '/' List.mem_cons_self) (by decide)
    rw [hhost, search_append_of_not_mem (by decide), search_segment howner.slash_not_mem]
    exact search_append_of_not_mem (by decide : 'g' ∉ "/".toList) text.toList

/-- A URL after the owner and the name is read where one of these is empty. -/
theorem urlRepo_htmlUrl_empty (howner : IsName owner) (hname : IsName name)
    (hempty : owner = "" ∨ name = "") {url repo : String} (hurl : urlRepo url = some repo) :
    urlRepo (htmlUrl owner name ("//" ++ ("github.com/" ++ repo))) = some repo := by
  obtain ⟨pre, rest, -, ⟨owner', name', after, -, howner', hslash, hname', hnames, -, hrepo⟩, -⟩ :=
    (urlRepo_eq_some_iff url repo).mp hurl
  apply urlRepo_of_search
  rw [search_htmlUrl_empty howner hname hempty]
  apply search_of_startsWithUrl
  refine ⟨owner', name', [], ?_, howner', hslash, hname', hnames, by simp, hrepo⟩
  rw [String.toList_append, hrepo, List.append_nil]

/-! What an object gives -/

variable {item : Dict}

theorem HasOnly.getD {key : String} {v : Value} (hitem : HasOnly item key v) (default : Value) :
    item.getD key default = v := by
  rw [Dict.getD, hitem.value, Option.getD_some]

theorem HasOnly.getD_of_ne {key other : String} {v : Value} (hitem : HasOnly item key v)
    (hother : other ∈ repoKeys) (hne : other ≠ key) (default : Value) :
    item.getD other default = default := by
  rw [Dict.getD, hitem.others other hother hne, Option.getD_none]

theorem hasOnly_singleton (key : String) (v : Value) : HasOnly [(.str key, v)] key v where
  value := by simp [Dict.get?]
  others other _ hne := by
    have hkey : (Scalar.str other == Scalar.str key) = false := by simpa using hne
    simp [Dict.get?, List.lookup_cons, hkey]

theorem fullName_eq_some {repo : String} (hrepo : '/' ∈ repo.toList)
    (hitem : item.getD "full_name" .none = .str repo) : fullName item = some repo := by
  simp [fullName, hitem, Value.asStr?, hrepo]

theorem fullName_eq_none (hitem : item.getD "full_name" .none = .none) : fullName item = none := by
  simp [fullName, hitem, Value.asStr?]

/-- Only the URL of this object is read. -/
theorem extractRepoFromItem_url {key url : String}
    (hkey : key ∈ ["repository_url", "html_url", "url"]) (hitem : HasOnly item key (.str url)) :
    extractRepoFromItem item = urlRepo url := by
  have hempty : urlRepo "" = none := rfl
  have hnotUrl (other : String) (hother : other ∈ repoKeys)
      (hurl : other ∉ ["repository_url", "html_url", "url"]) : item.getD other .none = .none :=
    hitem.getD_of_ne hother (fun heq => hurl (heq ▸ hkey)) .none
  have hfull : fullName item = none := fullName_eq_none (hnotUrl _ (by decide) (by decide))
  have howner : ownerAndName item = none := by
    simp [ownerAndName, hnotUrl "owner" (by decide) (by decide), Value.asDict?]
  simp only [extractRepoFromItem, hfull, howner, hnotUrl "repository" (by decide) (by decide),
    Value.asDict?, Option.bind_none, Option.orElse_eq_orElse, Option.orElse_none, List.findSome?_cons,
    List.findSome?_nil]
  simp only [List.mem_cons, List.not_mem_nil, or_false] at hkey
  rcases hkey with rfl | rfl | rfl
  · rw [hitem.getD, hitem.getD_of_ne (by decide) (by decide),
      hitem.getD_of_ne (by decide) (by decide)]
    cases hrepo : urlRepo url <;> simp [Value.asStr?, hrepo, hempty]
  · rw [hitem.getD, hitem.getD_of_ne (by decide) (by decide),
      hitem.getD_of_ne (by decide) (by decide)]
    cases hrepo : urlRepo url <;> simp [Value.asStr?, hrepo, hempty]
  · rw [hitem.getD, hitem.getD_of_ne (by decide) (by decide),
      hitem.getD_of_ne (by decide) (by decide)]
    cases hrepo : urlRepo url <;> simp [Value.asStr?, hrepo, hempty]

theorem slash_mem_fullName (owner name : String) : '/' ∈ (owner ++ "/" ++ name).toList := by
  simp

/-- An object gives its repository as it is, or what the pattern reads in its URL. -/
theorem extractRepoFromItem_of_gives (hgives : Gives owner name item) :
    extractRepoFromItem item = some (owner ++ "/" ++ name) ∨
      ∃ path, FurtherPath path ∧
        (extractRepoFromItem item = urlRepo (htmlUrl owner name path) ∨
          extractRepoFromItem item = urlRepo (apiUrl owner name path)) := by
  cases hgives with
  | fullName hitem =>
    have hfull := fullName_eq_some (slash_mem_fullName owner name) (hitem.getD .none)
    exact .inl (by simp [extractRepoFromItem, hfull])
  | repository repository hitem hrepo =>
    have hfull : fullName item = none :=
      fullName_eq_none (hitem.getD_of_ne (by decide) (by decide) .none)
    have hnested : fullName repository = some (owner ++ "/" ++ name) :=
      fullName_eq_some (slash_mem_fullName owner name) (by rw [Dict.getD, hrepo, Option.getD_some])
    exact .inl (by
      simp [extractRepoFromItem, hfull, hitem.getD, Value.asDict?, hnested])
  | ownerAndName user hitem hlogin hname =>
    have hfull : fullName item = none :=
      fullName_eq_none (hitem.getD_of_ne (by decide) (by decide) .none)
    have huser : item.getD "owner" .none = .dict user := hitem.getD .none
    have hlogin' : user.getD "login" .none = .str owner := by
      rw [Dict.getD, hlogin, Option.getD_some]
    have hname' : item.getD "name" .none = .str name := by
      rw [Dict.getD, hname, Option.getD_some]
    have hjoined : ownerAndName item = some (owner ++ "/" ++ name) := by
      simp [ownerAndName, huser, hlogin', hname', Value.asDict?, Value.asStr?]
    have hnested : item.getD "repository" .none = .none :=
      hitem.getD_of_ne (by decide) (by decide) .none
    exact .inl (by
      simp [extractRepoFromItem, hfull, hnested, Value.asDict?, hjoined])
  | htmlUrl path hpath hitem =>
    exact .inr ⟨path, hpath, .inl (extractRepoFromItem_url (by decide) hitem)⟩
  | apiUrl key path hkey hpath hitem =>
    refine .inr ⟨path, hpath, .inr (extractRepoFromItem_url ?_ hitem)⟩
    rcases hkey with rfl | rfl <;> decide

variable {h : GitHubRepoFilterHook}

/-- There is an object for every form, and it is decided on by what is read from it. -/
theorem exists_gives_fullName (owner name : String) :
    ∃ item, Gives owner name item ∧ h.keepsItem item = h.shouldKeep (owner ++ "/" ++ name) := by
  refine ⟨_, .fullName (hasOnly_singleton "full_name" _), ?_⟩
  have hfull := fullName_eq_some (slash_mem_fullName owner name)
    ((hasOnly_singleton "full_name" _).getD .none)
  simp [keepsItem, extractRepoFromItem, hfull]

theorem exists_gives_htmlUrl (owner name : String) {path : String} (hpath : FurtherPath path) :
    ∃ item, Gives owner name item ∧
      h.keepsItem item = (urlRepo (htmlUrl owner name path)).all h.shouldKeep := by
  refine ⟨_, .htmlUrl path hpath (hasOnly_singleton "html_url" _), ?_⟩
  rw [keepsItem, extractRepoFromItem_url (by decide) (hasOnly_singleton "html_url" _)]

theorem exists_gives_apiUrl (owner name : String) :
    ∃ item, Gives owner name item ∧
      h.keepsItem item = (urlRepo (apiUrl owner name "")).all h.shouldKeep := by
  refine ⟨_, .apiUrl "repository_url" "" (.inl rfl) (.inl rfl)
    (hasOnly_singleton "repository_url" _), ?_⟩
  rw [keepsItem, extractRepoFromItem_url (by decide) (hasOnly_singleton "repository_url" _)]

/-- All forms of a repository are decided on alike exactly when what the pattern reads in a URL
of the API, the owner as a name, is decided on like the repository. With an empty owner or name
the URLs can give anything, so that everything has to be kept. -/
theorem decidesAlike_iff (howner : IsName owner) (hname : IsName name) :
    h.DecidesAlike owner name ↔
      if owner = "" ∨ name = "" then
        h.shouldKeep (owner ++ "/" ++ name) = true ∧
          ∀ url repo, urlRepo url = some repo → h.shouldKeep repo = true
      else h.shouldKeep ("repos/" ++ owner) = h.shouldKeep (owner ++ "/" ++ name) := by
  obtain ⟨full, hfull, hfullKept⟩ := exists_gives_fullName (h := h) owner name
  split_ifs with hempty
  · constructor
    · intro halike
      have hread {path : String} (hpath : FurtherPath path) :
          (urlRepo (htmlUrl owner name path)).all h.shouldKeep =
            h.shouldKeep (owner ++ "/" ++ name) := by
        obtain ⟨item, hgives, hkept⟩ := exists_gives_htmlUrl (h := h) owner name hpath
        rw [← hkept, ← hfullKept]
        exact halike item full hgives hfull
      have hkeeps : h.shouldKeep (owner ++ "/" ++ name) = true := by
        rw [← hread (furtherPath_slashes ""), urlRepo, search_htmlUrl_empty howner hname hempty]
        rfl
      refine ⟨hkeeps, fun url repo hurl => ?_⟩
      have hrepo := hread (furtherPath_slashes ("github.com/" ++ repo))
      rw [urlRepo_htmlUrl_empty howner hname hempty hurl, Option.all_some] at hrepo
      rw [hrepo, hkeeps]
    · rintro ⟨hkeeps, hurls⟩
      have hkept {item : Dict} (hgives : Gives owner name item) : h.keepsItem item = true := by
        rw [keepsItem_iff]
        intro repo hrepo
        rcases extractRepoFromItem_of_gives hgives with hitem | ⟨path, -, hitem | hitem⟩
        · rw [hitem] at hrepo
          cases hrepo
          exact hkeeps
        · exact hurls _ repo (hitem ▸ hrepo)
        · exact hurls _ repo (hitem ▸ hrepo)
      intro item item' hgives hgives'
      rw [hkept hgives, hkept hgives']
  · rw [not_or] at hempty
    have hgiven {item : Dict} (hgives : Gives owner name item) :
        h.keepsItem item = h.shouldKeep (owner ++ "/" ++ name) ∨
          h.keepsItem item = h.shouldKeep ("repos/" ++ owner) := by
      rcases extractRepoFromItem_of_gives hgives with hitem | ⟨path, hpath, hitem | hitem⟩
      · exact .inl (by rw [keepsItem, hitem, Option.all_some])
      · rw [urlRepo_htmlUrl howner hname hempty.1 hempty.2 hpath] at hitem
        exact .inl (by rw [keepsItem, hitem, Option.all_some])
      · rw [urlRepo_apiUrl howner hempty.1] at hitem
        exact .inr (by rw [keepsItem, hitem, Option.all_some])
    constructor
    · intro halike
      obtain ⟨item, hgives, hkept⟩ := exists_gives_apiUrl (h := h) owner name
      rw [urlRepo_apiUrl howner hempty.1, Option.all_some] at hkept
      rw [← hkept, ← hfullKept]
      exact halike item full hgives hfull
    · intro hsame item item' hgives hgives'
      simp only [hsame, or_self] at hgiven
      rw [hgiven hgives, hgiven hgives']

end GitHubRepoFilterHook

open GitHubRepoFilterHook

/-- A filter that permits everything decides on all forms alike. -/
def keepsAll : GitHubRepoFilterHook := { approvedApi with repos := ["*/*"] }

theorem keepsAll_decidesAlike : keepsAll.DecidesAlike "myorg" "api" :=
  (decidesAlike_iff (by decide) (by decide)).mpr (by rw [if_neg (by decide)]; decide)

/-- An approved repository is kept under its name and dropped under its URL. -/
theorem approvedApi_not_decidesAlike :
    IsName "myorg" ∧ IsName "api" ∧ ¬ approvedApi.DecidesAlike "myorg" "api" := by
  refine ⟨by decide, by decide, fun halike => ?_⟩
  obtain ⟨item, hgives, hkept⟩ := exists_gives_fullName (h := approvedApi) "myorg" "api"
  obtain ⟨item', hgives', hkept'⟩ := exists_gives_apiUrl (h := approvedApi) "myorg" "api"
  have hsame := halike item item' hgives hgives'
  rw [hkept, hkept'] at hsame
  exact absurd hsame (by decide)

end McpZero.Plugins
