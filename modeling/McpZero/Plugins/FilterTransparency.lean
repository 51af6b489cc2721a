import McpZero.Plugins.OutputFilter

/-! When the repository filter leaves a response without disallowed repositories as it is. -/
namespace McpZero.Plugins
open Python Lib

namespace GitHubRepoFilterHook

/-- Two content items of one kind. Where they are texts, both are JSON with one value. -/
def SameItem (floats : Json.FloatReader) (before after : Value) : Prop :=
  readItem floats before = none ∧ after = before ∨
    ∃ v, readItem floats before = some (.ok v) ∧ readItem floats after = some (.ok v)

/-- What the filter puts in the place of a response. -/
def policyMessages : List String := [unparseableMessage, blockedMessage, allFilteredMessage]

/-- A response in scope whose texts are JSON and show no disallowed repository. -/
structure NothingToHide (h : GitHubRepoFilterHook) (floats : Json.FloatReader)
    (ctx : HookContext) : Prop where
  inScope : h.inScope ctx.serverName = true
  aware : ctx.toolName ∈ repoAwareTools
  valid : ∀ contentItem ∈ contentItems ctx.responsePayload, ∀ e,
    readItem floats contentItem ≠ some (.error e)
  contained : h.Contained floats (contentItems ctx.responsePayload)

/-- The response keeps its items, and no message is added. -/
def LeavesResponse (h : GitHubRepoFilterHook) (floats : Json.FloatReader) (ctx : HookContext) :
    Prop :=
  ∃ out, h.onPostMasking floats ctx = .ok out ∧
    List.Forall₂ (SameItem floats) (contentItems ctx.responsePayload)
      (contentItems out.responsePayload) ∧
    ∀ message ∈ policyMessages, textItem message ∉ contentItems out.responsePayload

/-- An item that a list tool drops although it holds nothing to drop. -/
def isEmptyList (floats : Json.FloatReader) (toolName : String) (contentItem : Value) : Bool :=
  decide (toolName ∈ listTools) &&
    match readItem floats contentItem with
    | some (.ok (.list [])) => true
    | _ => false

variable {h : GitHubRepoFilterHook} {floats : Json.FloatReader} {toolName : String}

theorem isEmptyList_iff {contentItem : Value} : isEmptyList floats toolName contentItem = true ↔
    toolName ∈ listTools ∧ readItem floats contentItem = some (.ok (.list [])) := by
  rw [isEmptyList, Bool.and_eq_true, decide_eq_true_iff]
  refine and_congr_right fun _ => ?_
  rcases readItem floats contentItem with _ | _ | v
  · simp
  · simp
  · rcases v with _ | items | _ | _
    · simp
    · cases items <;> simp
    · simp
    · simp

theorem isEmptyList_of_not_list (htool : toolName ∉ listTools) (contentItem : Value) :
    isEmptyList floats toolName contentItem = false := by
  rw [isEmptyList, decide_eq_false htool, Bool.false_and]

/-- No message of the filter is JSON. -/
theorem readItem_message {message : String} (hmessage : message ∈ policyMessages) :
    readItem floats (textItem message) = some (.error Json.decodeError) := by
  simp only [policyMessages, List.mem_cons, List.not_mem_nil, or_false] at hmessage
  rcases hmessage with rfl | rfl | rfl <;> rfl

theorem SameItem.ne_message {before after : Value} (hsame : SameItem floats before after)
    {message : String} (hmessage : message ∈ policyMessages) : after ≠ textItem message := by
  rintro rfl
  have hread : readItem floats (textItem message) = some (.error Json.decodeError) :=
    readItem_message hmessage
  rcases hsame with ⟨hother, heq⟩ | ⟨v, -, hv⟩
  · rw [heq, hother] at hread
    cases hread
  · rw [hread] at hv
    cases hv

/-- An object in a list at the top, or the object at the top, that is contained is kept. -/
theorem keepsEntry_of_contained {contentItem v : Value}
    (hread : readItem floats contentItem = some (.ok v))
    (hcontained : h.Contained floats [contentItem]) : h.keepsEntry v = true := by
  rw [contained_singleton hread] at hcontained
  cases v with
  | dict item => exact hcontained item List.mem_cons_self
  | _ => rfl

theorem filter_keepsEntry_of_contained {contentItem : Value} {items : List Value}
    (hread : readItem floats contentItem = some (.ok (.list items)))
    (hcontained : h.Contained floats [contentItem]) : items.filter h.keepsEntry = items := by
  rw [contained_singleton hread] at hcontained
  refine List.filter_eq_self.mpr fun v hv => ?_
  cases v with
  | dict item => exact hcontained item (mem_listed.mpr hv)
  | _ => rfl

/-- A list tool's item is written anew with the value that it had, unless it is the empty
list. -/
theorem filterListResponse_contained (htool : toolName ∈ listTools) {contentItem parsed : Value}
    (hread : readItem floats contentItem = some (.ok parsed))
    (hjson : Json.IsJson floats.read parsed) (hcontained : h.Contained floats [contentItem]) :
    ∃ result, h.filterListResponse parsed contentItem = .ok result ∧
      List.Forall₂ (SameItem floats)
        ([contentItem].filter (! isEmptyList floats toolName ·)) result.toList := by
  have hempty : isEmptyList floats toolName contentItem = true ↔ parsed = .list [] := by
    rw [isEmptyList_iff, and_iff_right htool, hread, Option.some.injEq, Except.ok.injEq]
  have hrewritten {text : String} (hloads : Json.loads floats (.str text) = .ok parsed) :
      List.Forall₂ (SameItem floats) [contentItem] [textItem text] :=
    .cons (.inr ⟨parsed, hread, readItem_textItem hloads⟩) .nil
  have hkept : parsed ≠ .list [] →
      [contentItem].filter (! isEmptyList floats toolName ·) = [contentItem] := fun hne =>
    List.filter_cons_of_pos (by simp [Bool.eq_false_iff, hempty, hne])
  obtain ⟨text, htext, hloads⟩ := Json.loads_dumps floats hjson
  cases parsed with
  | scalar a =>
    rw [hkept (fun heq => by cases heq)]
    exact ⟨some contentItem, rfl, .cons (.inr ⟨.scalar a, hread, hread⟩) .nil⟩
  | group kind items => exact absurd hjson id
  | list items =>
    unfold filterListResponse
    dsimp only
    rw [filter_keepsEntry_of_contained hread hcontained]
    cases items with
    | nil =>
      refine ⟨none, rfl, ?_⟩
      rw [List.filter_cons_of_neg (by simp [hempty])]
      exact .nil
    | cons first rest =>
      rw [hkept (fun heq => by cases heq)]
      dsimp only
      exact ⟨some (textItem text), by rw [htext]; rfl, hrewritten hloads⟩
  | dict item =>
    unfold filterListResponse
    dsimp only
    rw [hkept (fun heq => by cases heq), if_pos (keepsEntry_of_contained hread hcontained)]
    exact ⟨some (textItem text), by rw [htext]; rfl, hrewritten hloads⟩

/-- A round of the loop: the item stays, unless it is an empty list of a list tool. -/
theorem filterItem_contained (htool : toolName ∈ repoAwareTools) {contentItem : Value}
    (hvalid : ∀ e, readItem floats contentItem ≠ some (.error e))
    (hcontained : h.Contained floats [contentItem]) :
    ∃ kept, h.filterItem floats toolName contentItem = .ok (.content kept) ∧
      List.Forall₂ (SameItem floats)
        ([contentItem].filter (! isEmptyList floats toolName ·)) kept := by
  unfold filterItem
  cases htext : textValue contentItem with
  | none =>
    have hread : readItem floats contentItem = none := by rw [readItem, htext]; rfl
    have hempty : isEmptyList floats toolName contentItem = false := by simp [isEmptyList, hread]
    rw [List.filter_cons_of_pos (by simp [hempty])]
    exact ⟨[contentItem], rfl, .cons (.inl ⟨hread, rfl⟩) .nil⟩
  | some text =>
    have hread : readItem floats contentItem = some (Json.loads floats text) := by
      rw [readItem, htext]
      rfl
    dsimp only
    cases hloads : Json.loads floats text with
    | error e => exact absurd (hread.trans (congrArg some hloads)) (hvalid e)
    | ok parsed =>
      rw [hloads] at hread
      dsimp only
      by_cases hlist : toolName ∈ listTools
      · obtain ⟨result, hresult, hsame⟩ := filterListResponse_contained hlist hread
          (Json.isJson_loads floats hloads) hcontained
        rw [if_pos hlist, hresult]
        exact ⟨result.toList, rfl, hsame⟩
      · have hsingle : toolName ∈ singleResultTools :=
          (List.mem_append.mp htool).resolve_left hlist
        rw [if_neg hlist, if_pos hsingle, checkSingleResultResponse,
          if_pos (keepsEntry_of_contained hread hcontained),
          List.filter_cons_of_pos (by simp [isEmptyList_of_not_list hlist])]
        exact ⟨[contentItem], rfl, .cons (.inr ⟨parsed, hread, hread⟩) .nil⟩

/-- The loop, by induction over the items still to come. -/
theorem filterContent_contained (htool : toolName ∈ repoAwareTools) {content : List Value}
    (hvalid : ∀ contentItem ∈ content, ∀ e, readItem floats contentItem ≠ some (.error e))
    (hcontained : h.Contained floats content) (filtered : List Value) :
    ∃ kept, h.filterContent floats toolName content filtered = .ok (.content (filtered ++ kept)) ∧
      List.Forall₂ (SameItem floats)
        (content.filter (! isEmptyList floats toolName ·)) kept := by
  induction content generalizing filtered with
  | nil => exact ⟨[], by rw [filterContent, List.append_nil], .nil⟩
  | cons contentItem rest ih =>
    rw [List.forall_mem_cons] at hvalid
    have hsplit : h.Contained floats ([contentItem] ++ rest) := hcontained
    rw [contained_append] at hsplit
    obtain ⟨here, hitem, hhere⟩ := filterItem_contained htool hvalid.1 hsplit.1
    obtain ⟨later, hloop, hlater⟩ := ih hvalid.2 hsplit.2 (filtered ++ here)
    refine ⟨here ++ later, ?_, ?_⟩
    · rw [filterContent, hitem, ← List.append_assoc]
      exact hloop
    · have hfilter : (contentItem :: rest).filter (! isEmptyList floats toolName ·) =
          [contentItem].filter (! isEmptyList floats toolName ·) ++
            rest.filter (! isEmptyList floats toolName ·) :=
        List.filter_append [contentItem] rest
      rw [hfilter]
      exact List.rel_append hhere hlater

/-- The filter on a response that has nothing to hide: the items stay, except for the empty
lists of a list tool, and a message stands in for a response of which nothing is left. -/
theorem onPostMasking_contained {ctx : HookContext} (hctx : h.NothingToHide floats ctx)
    {content : List Value}
    (hcontent : ctx.responsePayload.getD "content" (.list []) = .list content) :
    ∃ kept, List.Forall₂ (SameItem floats)
        (content.filter (! isEmptyList floats ctx.toolName ·)) kept ∧
      h.onPostMasking floats ctx =
        .ok (withContent ctx (if kept = [] then [textItem allFilteredMessage] else kept)) := by
  have hitems : contentItems ctx.responsePayload = content := by rw [contentItems, hcontent]
  have hvalid := hctx.valid
  have hcontained := hctx.contained
  rw [hitems] at hvalid hcontained
  obtain ⟨kept, hloop, hkept⟩ := filterContent_contained hctx.aware hvalid hcontained []
  refine ⟨kept, hkept, ?_⟩
  unfold onPostMasking
  simp only [hctx.inScope, hctx.aware, not_true_eq_false, if_false, Bool.not_true,
    Bool.false_eq_true, hcontent, hloop, List.nil_append]
  cases kept <;> rfl

/-- A content that is not a list stays as it is. -/
theorem leavesResponse_of_not_list {ctx : HookContext} (hctx : h.NothingToHide floats ctx)
    (hcontent : ∀ content, ctx.responsePayload.getD "content" (.list []) ≠ .list content) :
    contentItems ctx.responsePayload = [] ∧ h.LeavesResponse floats ctx := by
  unfold LeavesResponse onPostMasking
  simp only [hctx.inScope, hctx.aware, not_true_eq_false, if_false, Bool.not_true,
    Bool.false_eq_true, contentItems]
  cases hvalue : ctx.responsePayload.getD "content" (.list []) with
  | list content => exact absurd hvalue (hcontent content)
  | _ =>
    refine ⟨trivial, ctx, rfl, ?_⟩
    simp [hvalue]

/-- The filter leaves a response that has nothing to hide exactly when there is no empty list
for it to take for one it has emptied: neither the content nor, for a list tool, a text. -/
theorem leavesResponse_iff {ctx : HookContext} (hctx : h.NothingToHide floats ctx) :
    h.LeavesResponse floats ctx ↔
      ctx.responsePayload.getD "content" (.list []) ≠ .list [] ∧
        (ctx.toolName ∈ listTools → ∀ contentItem ∈ contentItems ctx.responsePayload,
          readItem floats contentItem ≠ some (.ok (.list []))) := by
  by_cases hlist : ∀ content, ctx.responsePayload.getD "content" (.list []) ≠ .list content
  · obtain ⟨hitems, hleaves⟩ := leavesResponse_of_not_list hctx hlist
    rw [hitems]
    exact iff_of_true hleaves ⟨hlist [], fun _ => List.forall_mem_nil _⟩
  · obtain ⟨content, hcontent⟩ := not_forall_not.mp hlist
    have hitems : contentItems ctx.responsePayload = content := by rw [contentItems, hcontent]
    obtain ⟨kept, hkept, hrun⟩ := onPostMasking_contained hctx hcontent
    have hlength := hkept.length_eq
    have hnone : (ctx.toolName ∈ listTools → ∀ contentItem ∈ content,
        readItem floats contentItem ≠ some (.ok (.list []))) ↔
        content.filter (! isEmptyList floats ctx.toolName ·) = content := by
      rw [List.filter_eq_self]
      simp only [Bool.not_eq_true', Bool.eq_false_iff, ne_eq, isEmptyList_iff, not_and]
      exact ⟨fun hall item hitem htool => hall htool item hitem,
        fun hall htool item hitem => hall item hitem htool⟩
    rw [hcontent, hitems, hnone]
    constructor
    · rintro ⟨out, hout, hsame, hmessage⟩
      rw [hrun] at hout
      cases hout
      rw [contentItems_withContent] at hsame hmessage
      rw [hitems] at hsame
      split_ifs at hsame hmessage with hnil
      · exact absurd List.mem_cons_self (hmessage allFilteredMessage (by decide))
      · have hfilter : content.filter (! isEmptyList floats ctx.toolName ·) = content := by
          refine List.filter_sublist.eq_of_length ?_
          rw [hlength, hsame.length_eq]
        refine ⟨?_, hfilter⟩
        intro heq
        cases heq
        exact hnil (List.forall₂_nil_left_iff.mp hsame)
    · rintro ⟨hne, hfilter⟩
      rw [hfilter] at hkept
      have hnil : kept ≠ [] := by
        intro heq
        rw [heq] at hkept
        exact hne (congrArg Value.list (List.forall₂_nil_right_iff.mp hkept))
      rw [if_neg hnil] at hrun
      refine ⟨_, hrun, ?_⟩
      rw [contentItems_withContent, hitems]
      refine ⟨hkept, fun message hmessage hmem => ?_⟩
      obtain ⟨i, hi, hitem⟩ := List.getElem_of_mem hmem
      have hsame := hkept.get (hkept.length_eq ▸ hi) hi
      exact hsame.ne_message hmessage hitem

end GitHubRepoFilterHook

open GitHubRepoFilterHook

theorem nothingToHide_searchResponse {text : String} {v : Value}
    (hread : readItem nanReader (textItem text) = some (.ok v))
    (hshown : ∀ item ∈ shownObjects v, approvedApi.keepsItem item = true) :
    approvedApi.NothingToHide nanReader (searchResponse text) where
  inScope := rfl
  aware := (by decide : "search_repositories" ∈ repoAwareTools)
  valid := by
    rw [contentItems_searchResponse, List.forall_mem_singleton, hread]
    exact fun e he => by cases he
  contained := by
    rw [contentItems_searchResponse, contained_singleton hread]
    exact hshown

/-- A response about an approved repository stays as it is. -/
theorem approvedApi_leavesResponse :
    approvedApi.LeavesResponse nanReader
      (searchResponse "\x7b\"full_name\": \"myorg/api\"\x7d") := by
  have hread : readItem nanReader (textItem "\x7b\"full_name\": \"myorg/api\"\x7d") =
      some (.ok approvedRepository) :=
    readItem_dumps ⟨by decide, ⟨"full_name", rfl⟩, trivial, trivial⟩ rfl
  have hctx := nothingToHide_searchResponse hread (by decide)
  refine (leavesResponse_iff hctx).mpr ⟨fun hnil => ?_, fun _ => ?_⟩
  · cases hnil
  · rw [contentItems_searchResponse, List.forall_mem_singleton, hread]
    exact fun he => by cases he

/-- A search without a result is answered with a message of the policy. -/
theorem emptySearch_not_leavesResponse :
    approvedApi.NothingToHide nanReader (searchResponse "[]") ∧
      ¬ approvedApi.LeavesResponse nanReader (searchResponse "[]") := by
  have hread : readItem nanReader (textItem "[]") = some (.ok (.list [])) :=
    readItem_dumps trivial rfl
  have hctx := nothingToHide_searchResponse hread (List.forall_mem_nil _)
  refine ⟨hctx, ?_⟩
  rintro ⟨out, hout, -, hmessage⟩
  obtain ⟨kept, hkept, hrun⟩ := onPostMasking_contained hctx rfl
  have hempty : isEmptyList nanReader (searchResponse "[]").toolName (textItem "[]") = true :=
    isEmptyList_iff.mpr ⟨(by decide : "search_repositories" ∈ listTools), hread⟩
  rw [List.filter_cons_of_neg (by rw [hempty]; decide)] at hkept
  rw [if_pos (List.forall₂_nil_left_iff.mp hkept), hout] at hrun
  cases hrun
  rw [contentItems_withContent] at hmessage
  exact hmessage allFilteredMessage (by decide) List.mem_cons_self

end McpZero.Plugins
