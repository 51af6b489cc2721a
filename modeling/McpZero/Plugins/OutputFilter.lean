import McpZero.Plugins.InputFilter
import McpZero.Python.JsonRoundTrip

/-! What the repository filter does to a response, and when it keeps disallowed repositories
out of it. -/
namespace McpZero.Plugins
open Python Lib

/-- `_LIST_TOOLS`. -/
def listTools : List String :=
  ["search_code", "search_repositories", "search_issues", "search_users", "list_issues",
    "list_pull_requests", "list_commits", "list_branches", "list_tags",
    "list_code_scanning_alerts", "list_secret_scanning_alerts", "list_notifications"]

/-- `_SINGLE_RESULT_TOOLS`. -/
def singleResultTools : List String :=
  ["get_file_contents", "get_issue", "get_pull_request", "get_pull_request_diff",
    "get_pull_request_files", "get_pull_request_reviews", "get_pull_request_comments",
    "get_pull_request_status", "get_issue_comments", "get_commit", "get_tag",
    "get_code_scanning_alert", "get_secret_scanning_alert", "get_notification_details",
    "create_issue", "create_pull_request", "create_branch", "create_or_update_file",
    "update_pull_request", "add_issue_comment", "merge_pull_request", "push_files",
    "fork_repository", "create_repository"]

/-- `_REPO_AWARE_TOOLS`. -/
def repoAwareTools : List String := listTools ++ singleResultTools

def textItem (text : String) : Value := .dict [(.str "type", .str "text"), (.str "text", .str text)]

/-- How one round of the loop over the content, or the whole loop, ends. -/
inductive Filtered
  | content (items : List Value)
  | replaced (message : String)

namespace GitHubRepoFilterHook

/-- The `full_name` of an object, where it has the form of a repository. -/
def fullName (item : Dict) : Option String := do
  let name ← (item.getD "full_name" .none).asStr?
  if name.toList.contains '/' then some name else none

/-- `owner.login` and `name`. -/
def ownerAndName (item : Dict) : Option String := do
  let owner ← (item.getD "owner" .none).asDict?
  let name ← (item.getD "name" .none).asStr?
  let login ← (owner.getD "login" .none).asStr?
  return login ++ "/" ++ name

/-- `_extract_repo_from_item`. -/
def extractRepoFromItem (item : Dict) : Option String :=
  fullName item <|>
    ((item.getD "repository" .none).asDict?.bind fullName <|>
      (ownerAndName item <|>
        ["repository_url", "html_url", "url"].findSome? fun key =>
          (item.getD key (.str "")).asStr?.bind urlRepo))

variable (h : GitHubRepoFilterHook) (floats : Json.FloatReader)

/-- The repository of an object, if there is one, is permitted. -/
def keepsItem (item : Dict) : Bool := (extractRepoFromItem item).all h.shouldKeep

/-- An entry that is not an object is kept. -/
def keepsEntry : Value → Bool
  | .dict item => h.keepsItem item
  | _ => true

/-- `_filter_list_response`. -/
def filterListResponse (parsed contentItem : Value) : Except Exc (Option Value) :=
  match parsed with
  | .list items =>
    match items.filter h.keepsEntry with
    | [] => .ok none
    | kept => do
      let text ← Json.dumps (.list kept)
      return some (textItem text)
  | .dict item =>
    if h.keepsEntry (.dict item) then do
      let text ← Json.dumps (.dict item)
      return some (textItem text)
    else .ok none
  | _ => .ok (some contentItem)

/-- `_check_single_result_response`. -/
def checkSingleResultResponse (parsed : Value) : Bool := h.keepsEntry parsed

/-- What a content item of type text holds. -/
def textValue : Value → Option Value
  | .dict item =>
    if (Dict.getD item "type" .none).eqStr "text" then some (Dict.getD item "text" (.str ""))
    else none
  | _ => none

/-- `json.JSONDecodeError` and `TypeError`. -/
def isParseError : Exc → Bool
  | .other typeName _ => typeName == "JSONDecodeError" || typeName == "TypeError"
  | _ => false

def unparseableMessage : String :=
  "Response filtered: unable to parse response for repository filtering."

def blockedMessage : String := "Response blocked by repository policy."

def allFilteredMessage : String := "All results were filtered by repository policy."

/-- One round of the loop over the content. -/
def filterItem (toolName : String) (contentItem : Value) : Except Exc Filtered :=
  match textValue contentItem with
  | none => .ok (.content [contentItem])
  | some text =>
    match Json.loads floats text with
    | .error e => if isParseError e then .ok (.replaced unparseableMessage) else .error e
    | .ok parsed =>
      if toolName ∈ listTools then do
        let result ← h.filterListResponse parsed contentItem
        return .content result.toList
      else if toolName ∈ singleResultTools then
        if h.checkSingleResultResponse parsed then .ok (.content [contentItem])
        else .ok (.replaced blockedMessage)
      else .ok (.content [contentItem])

/-- The loop over the content, with the items kept so far. -/
def filterContent (toolName : String) : List Value → List Value → Except Exc Filtered
  | [], filtered => .ok (.content filtered)
  | contentItem :: rest, filtered => do
    match ← h.filterItem floats toolName contentItem with
    | .content kept => filterContent toolName rest (filtered ++ kept)
    | .replaced message => return .replaced message

def withContent (ctx : HookContext) (content : List Value) : HookContext :=
  { ctx with responsePayload := Json.insert ctx.responsePayload (.str "content") (.list content) }

def onPostMasking (ctx : HookContext) : Except Exc HookContext :=
  if !h.inScope ctx.serverName then .ok ctx
  else if ctx.toolName ∉ repoAwareTools then .ok ctx
  else
    match ctx.responsePayload.getD "content" (.list []) with
    | .list content => do
      match ← h.filterContent floats ctx.toolName content [] with
      | .content [] => return withContent ctx [textItem allFilteredMessage]
      | .content filtered => return withContent ctx filtered
      | .replaced message => return withContent ctx [textItem message]
    | _ => .ok ctx

def toHook {σ : Type} : Pipeline.LifecycleHook σ where
  name := "GitHubRepoFilterHook"
  onPostValidation ctx s := (h.onPostValidation ctx, s)
  onPostMasking ctx s := (h.onPostMasking floats ctx, s)

/-! What a response shows -/

/-- The objects in a list. -/
def listed : Value → List Dict
  | .list items => items.filterMap Value.asDict?
  | _ => []

/-- The objects in the lists that an object holds. -/
def nested (item : Dict) : List Dict := item.flatMap fun e => listed e.2

/-- The object at the top, those of a list at the top and those of the lists in an object at
the top. -/
def shownObjects : Value → List Dict
  | .dict item => item :: nested item
  | v => listed v

/-- What a content item is read as. -/
def readItem (contentItem : Value) : Option (Except Exc Value) :=
  (textValue contentItem).map (Json.loads floats)

def contentItems (payload : Dict) : List Value :=
  match payload.getD "content" (.list []) with
  | .list content => content
  | _ => []

/-- No object that a text item shows has a disallowed repository. -/
def Contained (content : List Value) : Prop :=
  ∀ contentItem ∈ content, ∀ v, readItem floats contentItem = some (.ok v) →
    ∀ item ∈ shownObjects v, ∀ repo, extractRepoFromItem item = some repo → h.shouldKeep repo = true

/-- The response that leaves the filter shows no disallowed repository, and a message stands in
for a response with a text item that is not JSON. -/
def FiltersOutput (ctx : HookContext) : Prop :=
  ∀ out, h.onPostMasking floats ctx = .ok out →
    h.Contained floats (contentItems out.responsePayload) ∧
      ((∃ contentItem ∈ contentItems ctx.responsePayload, ∃ e,
          readItem floats contentItem = some (.error e)) →
        contentItems out.responsePayload = [textItem unparseableMessage] ∨
          contentItems out.responsePayload = [textItem blockedMessage])

/-- The objects that a tool shows and the filter does not look at. -/
def unchecked (toolName : String) : Value → List Dict
  | .dict item => nested item
  | v => if toolName ∈ listTools then [] else listed v

/-- An item that makes the filter give up the whole response: it cannot be read, or it is the
result of a tool with a single result and has a disallowed repository. -/
def Rejected (toolName : String) (contentItem : Value) : Prop :=
  (∃ e, readItem floats contentItem = some (.error e)) ∨
    ∃ v, readItem floats contentItem = some (.ok v) ∧ toolName ∉ listTools ∧ h.keepsEntry v = false

/-- An item that the filter keeps with a disallowed repository in a place it does not look at. -/
def Hides (toolName : String) (contentItem : Value) : Prop :=
  ∃ v, readItem floats contentItem = some (.ok v) ∧ h.keepsEntry v = true ∧
    ∃ item ∈ unchecked toolName v, h.keepsItem item = false

/-- The filter gives up the response: it raises, or puts a message in its place. -/
def GivesUp (r : Except Exc Filtered) : Prop :=
  (∃ e, r = .error e) ∨ r = .ok (.replaced unparseableMessage) ∨
    r = .ok (.replaced blockedMessage)

variable {h floats}

theorem keepsItem_iff {item : Dict} : h.keepsItem item = true ↔
    ∀ repo, extractRepoFromItem item = some repo → h.shouldKeep repo = true := by
  unfold keepsItem
  cases extractRepoFromItem item <;> simp

theorem mem_listed {items : List Value} {item : Dict} :
    item ∈ listed (.list items) ↔ .dict item ∈ items := by
  simp only [listed, List.mem_filterMap]
  constructor
  · rintro ⟨v, hv, hitem⟩
    cases v with
    | dict entries =>
      cases hitem
      exact hv
    | _ => cases hitem
  · intro hitem
    exact ⟨.dict item, hitem, rfl⟩

theorem contained_append {xs ys : List Value} :
    h.Contained floats (xs ++ ys) ↔ h.Contained floats xs ∧ h.Contained floats ys :=
  List.forall_mem_append

/-- An item that is read as `v` is contained when all that `v` shows is kept. -/
theorem contained_singleton {contentItem v : Value}
    (hread : readItem floats contentItem = some (.ok v)) :
    h.Contained floats [contentItem] ↔ ∀ item ∈ shownObjects v, h.keepsItem item = true := by
  simp only [Contained, List.mem_singleton, forall_eq, hread, Option.some.injEq, Except.ok.injEq,
    forall_eq', keepsItem_iff]

theorem contained_of_readItem_eq_none {contentItem : Value}
    (hread : readItem floats contentItem = none) : h.Contained floats [contentItem] := by
  simp only [Contained, List.mem_singleton, forall_eq, hread, reduceCtorEq, false_implies,
    implies_true]

/-- A message of the filter is not JSON. -/
theorem contained_message {message : String}
    (hread : Json.loadsStr floats message = .error Json.decodeError) :
    h.Contained floats [textItem message] := by
  intro contentItem hmem v hv
  rw [List.mem_singleton.mp hmem] at hv
  have hloads : readItem floats (textItem message) = some (.error Json.decodeError) :=
    congrArg some hread
  rw [hloads] at hv
  cases hv

theorem readItem_textItem {v : Value} {text : String}
    (hloads : Json.loads floats (.str text) = .ok v) :
    readItem floats (textItem text) = some (.ok v) := congrArg some hloads

theorem get?_insert (d : Dict) (key : String) (v : Value) :
    Dict.get? (Json.insert d (.str key) v) key = some v := by
  unfold Dict.get? Json.insert
  induction d with
  | nil => simp
  | cons e d ih =>
    obtain ⟨k, w⟩ := e
    by_cases hk : k = .str key
    · simp [hk]
    · have hkey : (k == Scalar.str key) = false := beq_false_of_ne hk
      have hkey' : (Scalar.str key == k) = false := beq_false_of_ne (Ne.symm hk)
      cases hany : d.any (·.1 == Scalar.str key) with
      | false => simpa [hkey, hkey', hany, List.lookup_cons] using ih
      | true => simpa [hk, hkey, hkey', hany, List.lookup_cons] using ih

@[simp] theorem contentItems_withContent (ctx : HookContext) (content : List Value) :
    contentItems (withContent ctx content).responsePayload = content := by
  simp only [contentItems, withContent, Dict.getD, get?_insert, Option.getD_some]

/-- A list tool's item is replaced by what it keeps. It shows a disallowed repository exactly
when it was kept with one in a place that is not looked at. -/
theorem filterListResponse_spec {toolName : String} (htool : toolName ∈ listTools)
    {contentItem parsed : Value} (hread : readItem floats contentItem = some (.ok parsed))
    (hjson : Json.IsJson floats.read parsed) :
    ∃ result, h.filterListResponse parsed contentItem = .ok result ∧
      (h.Contained floats result.toList ↔ ¬ h.Hides floats toolName contentItem) := by
  have hhides : h.Hides floats toolName contentItem ↔
      h.keepsEntry parsed = true ∧ ∃ item ∈ unchecked toolName parsed, h.keepsItem item = false := by
    simp only [Hides, hread, Option.some.injEq, Except.ok.injEq, exists_eq_left']
  rw [hhides]
  match parsed with
  | .scalar a =>
    refine ⟨some contentItem, rfl, ?_⟩
    rw [Option.toList_some, contained_singleton hread]
    simp [shownObjects, unchecked, listed]
  | .list items =>
    have hunchecked : unchecked toolName (.list items) = [] := if_pos htool
    simp only [hunchecked, List.not_mem_nil, false_and, exists_false, and_false, not_false_iff,
      iff_true]
    unfold filterListResponse
    dsimp only
    have hkept : Json.IsJson floats.read (.list (items.filter h.keepsEntry)) := by
      rw [Json.IsJson, Json.isJsonItems_iff] at hjson ⊢
      exact fun v hv => hjson v (List.mem_of_mem_filter hv)
    have hpass : ∀ v ∈ items.filter h.keepsEntry, h.keepsEntry v = true := fun v hv =>
      (List.mem_filter.mp hv).2
    cases hfilter : items.filter h.keepsEntry with
    | nil => exact ⟨none, rfl, List.forall_mem_nil _⟩
    | cons first rest =>
      rw [hfilter] at hkept hpass
      dsimp only
      obtain ⟨text, htext, hloads⟩ := Json.loads_dumps floats hkept
      refine ⟨some (textItem text), by rw [htext]; rfl, ?_⟩
      rw [Option.toList_some, contained_singleton (readItem_textItem hloads)]
      exact fun item hitem => hpass _ (mem_listed.mp hitem)
  | .dict item =>
    unfold filterListResponse
    dsimp only
    cases hkeep : h.keepsEntry (.dict item) with
    | false => exact ⟨none, rfl, by simp [Contained]⟩
    | true =>
      obtain ⟨text, htext, hloads⟩ := Json.loads_dumps floats hjson
      refine ⟨some (textItem text), by rw [htext]; rfl, ?_⟩
      rw [Option.toList_some, contained_singleton (readItem_textItem hloads)]
      have htop : h.keepsItem item = true := hkeep
      simp [shownObjects, unchecked, htop]

/-- A single result that is not blocked stays as it is. -/
theorem contained_single_iff {toolName : String} (htool : toolName ∉ listTools)
    {contentItem parsed : Value} (hread : readItem floats contentItem = some (.ok parsed))
    (hkeep : h.keepsEntry parsed = true) :
    h.Contained floats [contentItem] ↔ ¬ h.Hides floats toolName contentItem := by
  have hhides : h.Hides floats toolName contentItem ↔
      ∃ item ∈ unchecked toolName parsed, h.keepsItem item = false := by
    simp only [Hides, hread, Option.some.injEq, Except.ok.injEq, exists_eq_left', hkeep, true_and]
  rw [hhides, contained_singleton hread]
  match parsed with
  | .scalar a => simp [shownObjects, unchecked, listed]
  | .group _ _ => simp [shownObjects, unchecked, listed]
  | .list items => simp [shownObjects, unchecked, htool]
  | .dict item =>
    have htop : h.keepsItem item = true := hkeep
    simp [shownObjects, unchecked, htop]

/-- A round of the loop gives up exactly at a rejected item, and otherwise leaves what hides
nothing contained. -/
theorem filterItem_spec {toolName : String} (htool : toolName ∈ repoAwareTools)
    (contentItem : Value) :
    h.Rejected floats toolName contentItem ∧ GivesUp (h.filterItem floats toolName contentItem) ∨
      ¬ h.Rejected floats toolName contentItem ∧
        ∃ kept, h.filterItem floats toolName contentItem = .ok (.content kept) ∧
          (h.Contained floats kept ↔ ¬ h.Hides floats toolName contentItem) := by
  unfold filterItem
  cases htext : textValue contentItem with
  | none =>
    have hread : readItem floats contentItem = none := by rw [readItem, htext]; rfl
    refine .inr ⟨by simp [Rejected, hread], [contentItem], rfl, ?_⟩
    simp [contained_of_readItem_eq_none hread, Hides, hread]
  | some text =>
    have hread : readItem floats contentItem = some (Json.loads floats text) := by
      rw [readItem, htext]
      rfl
    dsimp only
    cases hloads : Json.loads floats text with
    | error e =>
      rw [hloads] at hread
      refine .inl ⟨.inl ⟨e, hread⟩, ?_⟩
      dsimp only
      split_ifs
      · exact .inr (.inl rfl)
      · exact .inl ⟨e, rfl⟩
    | ok parsed =>
      rw [hloads] at hread
      dsimp only
      have hrejected : h.Rejected floats toolName contentItem ↔
          toolName ∉ listTools ∧ h.keepsEntry parsed = false := by
        simp [Rejected, hread]
      rw [hrejected]
      by_cases hlist : toolName ∈ listTools
      · obtain ⟨result, hresult, hiff⟩ :=
          filterListResponse_spec hlist hread (Json.isJson_loads floats hloads)
        rw [if_pos hlist, hresult]
        exact .inr ⟨fun hr => hr.1 hlist, result.toList, rfl, hiff⟩
      · have hsingle : toolName ∈ singleResultTools :=
          (List.mem_append.mp htool).resolve_left hlist
        rw [if_neg hlist, if_pos hsingle]
        unfold checkSingleResultResponse
        cases hkeep : h.keepsEntry parsed with
        | false => exact .inl ⟨⟨hlist, rfl⟩, .inr (.inr rfl)⟩
        | true =>
          exact .inr ⟨fun hr => Bool.noConfusion hr.2, [contentItem], rfl,
            contained_single_iff hlist hread hkeep⟩

variable (h floats) in
/-- The loop, by induction over the items still to come. -/
theorem filterContent_spec {toolName : String} (htool : toolName ∈ repoAwareTools)
    (content filtered : List Value) :
    (∃ contentItem ∈ content, h.Rejected floats toolName contentItem) ∧
        GivesUp (h.filterContent floats toolName content filtered) ∨
      (∀ contentItem ∈ content, ¬ h.Rejected floats toolName contentItem) ∧
        ∃ kept, h.filterContent floats toolName content filtered = .ok (.content kept) ∧
          (h.Contained floats kept ↔ h.Contained floats filtered ∧
            ∀ contentItem ∈ content, ¬ h.Hides floats toolName contentItem) := by
  induction content generalizing filtered with
  | nil => exact .inr ⟨List.forall_mem_nil _, filtered, rfl, by simp⟩
  | cons contentItem rest ih =>
    rcases filterItem_spec htool contentItem with ⟨hrejected, hgives⟩ | ⟨hpass, kept, hkept, hiff⟩
    · refine .inl ⟨⟨contentItem, List.mem_cons_self, hrejected⟩, ?_⟩
      rcases hgives with ⟨e, hitem⟩ | hitem | hitem
      · exact .inl ⟨e, by rw [filterContent, hitem]; rfl⟩
      · exact .inr (.inl (by rw [filterContent, hitem]; rfl))
      · exact .inr (.inr (by rw [filterContent, hitem]; rfl))
    · have hstep : h.filterContent floats toolName (contentItem :: rest) filtered =
          h.filterContent floats toolName rest (filtered ++ kept) := by
        rw [filterContent, hkept]
        rfl
      rw [hstep, List.exists_mem_cons_iff]
      simp only [List.forall_mem_cons]
      rcases ih (filtered ++ kept) with ⟨hrejected, hgives⟩ | ⟨hrest, out, hout, hcontained⟩
      · exact .inl ⟨.inr hrejected, hgives⟩
      · refine .inr ⟨⟨hpass, hrest⟩, out, hout, ?_⟩
        rw [hcontained, contained_append, hiff, and_assoc]

variable (h floats) in
/-- The filter on a response in scope. -/
theorem onPostMasking_spec {ctx : HookContext} (hscope : h.inScope ctx.serverName = true)
    (htool : ctx.toolName ∈ repoAwareTools) :
    (∃ contentItem ∈ contentItems ctx.responsePayload,
        h.Rejected floats ctx.toolName contentItem) ∧
      ((∃ e, h.onPostMasking floats ctx = .error e) ∨
        h.onPostMasking floats ctx = .ok (withContent ctx [textItem unparseableMessage]) ∨
        h.onPostMasking floats ctx = .ok (withContent ctx [textItem blockedMessage])) ∨
    (∀ contentItem ∈ contentItems ctx.responsePayload,
        ¬ h.Rejected floats ctx.toolName contentItem) ∧
      ∃ out, h.onPostMasking floats ctx = .ok out ∧
        (h.Contained floats (contentItems out.responsePayload) ↔
          ∀ contentItem ∈ contentItems ctx.responsePayload,
            ¬ h.Hides floats ctx.toolName contentItem) := by
  unfold onPostMasking
  simp only [hscope, htool, not_true_eq_false, if_false, Bool.not_true, Bool.false_eq_true]
  cases hcontent : ctx.responsePayload.getD "content" (.list []) with
  | list content =>
    have hitems : contentItems ctx.responsePayload = content := by rw [contentItems, hcontent]
    rw [hitems]
    dsimp only
    rcases filterContent_spec h floats htool content [] with
      ⟨hrejected, hgives⟩ | ⟨hpass, kept, hkept, hiff⟩
    · refine .inl ⟨hrejected, ?_⟩
      rcases hgives with ⟨e, hrun⟩ | hrun | hrun
      · exact .inl ⟨e, by rw [hrun]; rfl⟩
      · exact .inr (.inl (by rw [hrun]; rfl))
      · exact .inr (.inr (by rw [hrun]; rfl))
    · refine .inr ⟨hpass, ?_⟩
      rw [hkept]
      have hnil : h.Contained floats [] := List.forall_mem_nil _
      cases kept with
      | nil =>
        refine ⟨_, rfl, ?_⟩
        rw [contentItems_withContent]
        exact iff_of_true (contained_message rfl) ((hiff.mp hnil).2)
      | cons first rest =>
        refine ⟨_, rfl, ?_⟩
        rw [contentItems_withContent, hiff]
        exact and_iff_right hnil
  | scalar a =>
    have hitems : contentItems ctx.responsePayload = [] := by rw [contentItems, hcontent]
    refine .inr ⟨by simp [hitems], ctx, rfl, ?_⟩
    simp [hitems, Contained]
  | group kind items =>
    have hitems : contentItems ctx.responsePayload = [] := by rw [contentItems, hcontent]
    refine .inr ⟨by simp [hitems], ctx, rfl, ?_⟩
    simp [hitems, Contained]
  | dict d =>
    have hitems : contentItems ctx.responsePayload = [] := by rw [contentItems, hcontent]
    refine .inr ⟨by simp [hitems], ctx, rfl, ?_⟩
    simp [hitems, Contained]

/-- Disallowed repositories stay out of a response exactly when the filter gives it up, or no
item is kept with one in a list at the top of a single result or in a list that an object at
the top holds. -/
theorem filtersOutput_iff {ctx : HookContext} (hscope : h.inScope ctx.serverName = true)
    (htool : ctx.toolName ∈ repoAwareTools) :
    h.FiltersOutput floats ctx ↔
      (∃ contentItem ∈ contentItems ctx.responsePayload,
        h.Rejected floats ctx.toolName contentItem) ∨
      ∀ contentItem ∈ contentItems ctx.responsePayload,
        ¬ h.Hides floats ctx.toolName contentItem := by
  rcases onPostMasking_spec h floats hscope htool with
    ⟨hrejected, hends⟩ | ⟨hpass, out, hout, hiff⟩
  · refine iff_of_true (fun out hout => ?_) (.inl hrejected)
    rcases hends with ⟨e, hraise⟩ | hunparseable | hblocked
    · rw [hraise] at hout
      cases hout
    · rw [hunparseable] at hout
      cases hout
      rw [contentItems_withContent]
      exact ⟨contained_message rfl, fun _ => .inl rfl⟩
    · rw [hblocked] at hout
      cases hout
      rw [contentItems_withContent]
      exact ⟨contained_message rfl, fun _ => .inr rfl⟩
  · constructor
    · intro hfilters
      exact .inr (hiff.mp (hfilters out hout).1)
    · rintro (⟨contentItem, hmem, hrejected⟩ | hhides) out' hout'
      · exact absurd hrejected (hpass contentItem hmem)
      · rw [hout] at hout'
        cases hout'
        refine ⟨hiff.mpr hhides, ?_⟩
        rintro ⟨contentItem, hmem, e, hread⟩
        exact absurd (.inl ⟨e, hread⟩) (hpass contentItem hmem)

end GitHubRepoFilterHook

open GitHubRepoFilterHook

/-- A response with one text. -/
def searchResponse (text : String) : HookContext where
  request := { correlationId := "c1" }
  responsePayload := [(.str "content", .list [textItem text])]
  serverName := "github"
  toolName := "search_repositories"

/-- Reads every float as a nan. -/
def nanReader : Json.FloatReader where
  read _ := ⟨.nan, "nan"⟩
  jsonFloat _ := .nan

theorem contentItems_searchResponse (text : String) :
    contentItems (searchResponse text).responsePayload = [textItem text] := rfl

/-- A text that `json.dumps` made is read as what it was made of. -/
theorem readItem_dumps {floats : Json.FloatReader} {v : Value} {text : String}
    (hjson : Json.IsJson floats.read v) (htext : Json.dumps v = .ok text) :
    readItem floats (textItem text) = some (.ok v) := by
  obtain ⟨text', htext', hloads⟩ := Json.loads_dumps floats hjson
  rw [htext] at htext'
  cases htext'
  exact readItem_textItem hloads

def approvedRepository : Value := .dict [(.str "full_name", .str "myorg/api")]

/-- A response about an approved repository shows no other. -/
theorem approvedApi_filtersOutput :
    approvedApi.FiltersOutput nanReader (searchResponse "\x7b\"full_name\": \"myorg/api\"\x7d") := by
  refine (filtersOutput_iff rfl (by decide)).mpr (.inr ?_)
  have hread : readItem nanReader (textItem "\x7b\"full_name\": \"myorg/api\"\x7d") =
      some (.ok approvedRepository) :=
    readItem_dumps ⟨by decide, ⟨"full_name", rfl⟩, trivial, trivial⟩ rfl
  rw [contentItems_searchResponse, List.forall_mem_singleton]
  rintro ⟨v, hv, -, item, hitem, -⟩
  rw [hread] at hv
  cases hv
  cases hitem

/-- The form of a search result of GitHub. -/
def searchResult : Value :=
  .dict [(.str "items", .list [.dict [(.str "full_name", .str "evil/secrets")]])]

def searchResultText : String := "\x7b\"items\": [\x7b\"full_name\": \"evil/secrets\"\x7d]\x7d"

/-- A search result in this form passes with its disallowed repository. -/
theorem approvedApi_not_filtersOutput :
    ¬ approvedApi.FiltersOutput nanReader (searchResponse searchResultText) := by
  intro hfilters
  have hread : readItem nanReader (textItem searchResultText) = some (.ok searchResult) :=
    readItem_dumps ⟨by decide, ⟨"items", rfl⟩, ⟨⟨by decide, ⟨"full_name", rfl⟩, trivial, trivial⟩,
      trivial⟩, trivial⟩ rfl
  have hscope : approvedApi.inScope (searchResponse searchResultText).serverName = true := rfl
  have hspec := onPostMasking_spec approvedApi nanReader hscope (by decide)
  rw [contentItems_searchResponse] at hspec
  rcases hspec with ⟨⟨contentItem, hmem, hrejected⟩, -⟩ | ⟨-, out, hout, hiff⟩
  · rw [List.mem_singleton.mp hmem] at hrejected
    rcases hrejected with ⟨e, he⟩ | ⟨v, -, htool, -⟩
    · rw [hread] at he
      cases he
    · exact htool (by decide)
  · refine hiff.mp (hfilters out hout).1 _ (List.mem_singleton_self _) ?_
    exact ⟨searchResult, hread, rfl, [(.str "full_name", .str "evil/secrets")],
      List.mem_singleton_self _, by decide⟩

end McpZero.Plugins
