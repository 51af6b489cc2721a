import McpZero.Proxy.Exits

/-! What the client gets for an upstream result when no hook touches it. The content is taken
apart for the post-call pipeline and rebuilt by its kind, and the result is wrapped again. -/
namespace McpZero.Proxy
open Python Pipeline Transport

variable {σ S C : Type}

/-- The kinds of content in a tool result. -/
inductive ContentKind
  | text
  | image
  | audio
  | resourceLink
  | embeddedResource
  deriving DecidableEq

namespace ContentKind

/-- The literal of the field `type`. -/
def typeName : ContentKind → String
  | text => "text"
  | image => "image"
  | audio => "audio"
  | resourceLink => "resource_link"
  | embeddedResource => "resource"

/-- The kinds that `_rebuild_content` has a model for. -/
def Rebuilt (k : ContentKind) : Prop := k = text ∨ k = image ∨ k = embeddedResource

end ContentKind

/-- The content models survive `model_dump` and `model_validate`: a dump has the `type` of its
kind, and the model of that kind reads it back. -/
structure ContentModels.RoundTrip (M : ContentModels C) (kind : C → ContentKind) : Prop where
  type (c : C) : (M.modelDump c).getKey "type" = .ok (.str (kind c).typeName)
  text (c : C) : kind c = .text → M.validateText (M.modelDump c) = .ok c
  image (c : C) : kind c = .image → M.validateImage (M.modelDump c) = .ok c
  embeddedResource (c : C) : kind c = .embeddedResource →
    M.validateEmbeddedResource (M.modelDump c) = .ok c
  textContent (s : String) : kind (M.textContent s) = .text

theorem ContentModels.RoundTrip.textContent_ne {M : ContentModels C} {kind : C → ContentKind}
    (hM : M.RoundTrip kind) {c : C} (h : kind c ≠ .text) (s : String) : M.textContent s ≠ c := by
  intro heq
  rw [← heq] at h
  exact h (hM.textContent s)

/-- Every hook that returns leaves the response payload as it is. -/
def LeavesResponse (hooks : List (LifecycleHook σ)) : Prop :=
  ∀ hook ∈ hooks, ∀ p ctx s d t, hook.method p ctx s = (.ok d, t) →
    d.responsePayload = ctx.responsePayload

namespace ProxyServer

variable (P : ProxyServer σ S C)

/-- `_handle_call_tool`. -/
def handleCallTool (req : Request) (s : σ) : Except Exc (CallToolResult C) :=
  (P.callTool req s).result.map fun content => { content := content, isError := false }

variable {P}

/-- A call that got an upstream result returns what `finish` makes of it. -/
theorem callTool_of_upstreamResult {req : Request} {s : σ} {r : CallToolResult C}
    (h : .upstreamResult r ∈ (P.callTool req s).events) :
    ∃ pre t, (P.callTool req s).result = (P.finish pre r t).result ∧
      (P.finish pre r t).events ⊆ (P.callTool req s).events := by
  have hforward : ∀ pre server tool config s,
      .upstreamResult r ∈ (P.forward pre server tool config req.arguments s).events →
      ∃ t, (P.forward pre server tool config req.arguments s).result = (P.finish pre r t).result ∧
        (P.finish pre r t).events ⊆
          (P.forward pre server tool config req.arguments s).events := by
    intro pre server tool config s hr
    rcases P.forward_exit pre server tool config req.arguments P.collaborators.keep_true
      (s := s) trivial with ⟨m, a, t, -, -, hrun⟩ | hraises | hfinishes
    · simp [hrun] at hr
    · have hcarries := hraises.events _ hr
      cases hcarries
    · obtain ⟨earlier, r', t, hsilent, -, hrun⟩ := hfinishes
      rw [hrun] at hr ⊢
      obtain rfl := eq_of_upstreamResult_mem hsilent (P.finish_events pre r' t) hr
      exact ⟨t, rfl, List.subset_append_right _ _⟩
  unfold callTool at h ⊢
  split at h
  · simp at h
  · rename_i server tool config hroute
    dsimp only at h ⊢
    split at h
    · obtain ⟨t, hresult, hevents⟩ := hforward _ _ _ _ _ h
      exact ⟨_, t, hresult, hevents⟩
    · split_ifs at h ⊢
      · simp at h
      · have hmem := (List.mem_cons.mp h).resolve_left nofun
        obtain ⟨t, hresult, hevents⟩ := hforward _ _ _ _ _ hmem
        exact ⟨_, t, hresult, fun e he => List.mem_append_right _ (hevents he)⟩

/-- An item comes back from its dump exactly when `_rebuild_content` knows its kind: any other
item comes back as a text. -/
theorem rebuildItem_modelDump_iff {kind : C → ContentKind} (hM : P.models.RoundTrip kind) (c : C) :
    P.rebuildItem (P.models.modelDump c) = .ok c ↔ (kind c).Rebuilt := by
  have htype := hM.type c
  cases hkind : kind c with
  | text =>
    rw [hkind] at htype
    simp [rebuildItem, htype, ContentKind.typeName, ContentKind.Rebuilt, bind, Except.bind,
      hM.text c hkind, validated, Except.mapError]
  | image =>
    rw [hkind] at htype
    simp [rebuildItem, htype, ContentKind.typeName, ContentKind.Rebuilt, bind, Except.bind,
      hM.image c hkind, validated, Except.mapError]
  | embeddedResource =>
    rw [hkind] at htype
    simp [rebuildItem, htype, ContentKind.typeName, ContentKind.Rebuilt, bind, Except.bind,
      hM.embeddedResource c hkind, validated, Except.mapError]
  | audio =>
    rw [hkind] at htype
    have hother := hM.textContent_ne (c := c) (by rw [hkind]; nofun) (P.models.modelDump c).text
    simp [rebuildItem, htype, ContentKind.typeName, ContentKind.Rebuilt, bind, Except.bind,
      pure, Except.pure, hother]
  | resourceLink =>
    rw [hkind] at htype
    have hother := hM.textContent_ne (c := c) (by rw [hkind]; nofun) (P.models.modelDump c).text
    simp [rebuildItem, htype, ContentKind.typeName, ContentKind.Rebuilt, bind, Except.bind,
      pure, Except.pure, hother]

theorem mapM_rebuildItem_iff {kind : C → ContentKind} (hM : P.models.RoundTrip kind)
    (content : List C) :
    (content.map P.models.modelDump).mapM P.rebuildItem = .ok content ↔
      ∀ c ∈ content, (kind c).Rebuilt := by
  induction content with
  | nil => simp [pure, Except.pure]
  | cons c content ih =>
    rw [List.map_cons, List.mapM_cons, List.forall_mem_cons, ← ih,
      ← rebuildItem_modelDump_iff hM c]
    simp only [Lib.bind_eq_ok, Lib.pure_eq_ok, List.cons.injEq]
    constructor
    · rintro ⟨b, hb, bs, hbs, rfl, rfl⟩
      exact ⟨hb, hbs⟩
    · rintro ⟨hc, hcontent⟩
      exact ⟨c, hc, content, hcontent, rfl, rfl⟩

theorem rebuildContent_responsePayload (r : CallToolResult C) :
    P.rebuildContent (P.responsePayload r) =
      (r.content.map P.models.modelDump).mapM P.rebuildItem := rfl

/-- What `finish` delivers for a result that no hook touches or blocks. -/
theorem finish_result (pre : HookContext) (r : CallToolResult C) (t : σ)
    (hleave : ∀ hooks, P.pipeline = some hooks → LeavesResponse hooks)
    (hpost : ∀ post, .postRun post ∈ (P.finish pre r t).events → post.success = true) :
    (P.finish pre r t).result =
      if P.pipeline = none then .ok r.content else P.rebuildContent (P.responsePayload r) := by
  unfold finish at hpost ⊢
  cases hpipeline : P.pipeline with
  | none => rfl
  | some hooks =>
    simp only [hpipeline] at hpost
    have hsuccess : (execute hooks { pre with responsePayload := P.responsePayload r } t).1.success =
        true := by
      by_contra hfail
      exact hfail (hpost _ (by simp [hfail]))
    have hpayload := (execute_success_eq hsuccess).invariant
      (P := fun ctx => ctx.responsePayload = P.responsePayload r)
      (fun hook hmem p a s b t ha hab => (hleave hooks hpipeline hook hmem p a s b t hab).trans ha) rfl
    simp only [hsuccess, if_true, hpayload, reduceCtorEq, if_false]

/-- An upstream result reaches the client as it is exactly when it is no error and, behind a
pipeline, `_rebuild_content` knows the kinds of its items. -/
theorem handleCallTool_transparent_iff {kind : C → ContentKind} (hM : P.models.RoundTrip kind)
    {req : Request} {s : σ} {r : CallToolResult C}
    (hleave : ∀ hooks, P.pipeline = some hooks → LeavesResponse hooks)
    (hr : .upstreamResult r ∈ (P.callTool req s).events)
    (hpost : ∀ post, .postRun post ∈ (P.callTool req s).events → post.success = true) :
    P.handleCallTool req s = .ok r ↔
      r.isError = false ∧ (P.pipeline = none ∨ ∀ c ∈ r.content, (kind c).Rebuilt) := by
  obtain ⟨pre, t, hresult, hevents⟩ := callTool_of_upstreamResult hr
  have hfinish := finish_result pre r t hleave fun post h => hpost post (hevents h)
  have hwrapped : P.handleCallTool req s = .ok r ↔
      (P.callTool req s).result = .ok r.content ∧ r.isError = false := by
    obtain ⟨content, isError⟩ := r
    unfold handleCallTool
    cases (P.callTool req s).result with
    | error e => simp [Except.map]
    | ok out => simp [Except.map, eq_comm]
  rw [hwrapped, hresult, hfinish, and_comm]
  refine and_congr_right fun _ => ?_
  by_cases hpipeline : P.pipeline = none
  · simp [hpipeline]
  · rw [if_neg hpipeline, rebuildContent_responsePayload, mapM_rebuildItem_iff hM]
    simp [hpipeline]

end ProxyServer

/-- A model of one kind reads the dumps of that kind. -/
private def validateAs (k : ContentKind) : Value → Except String (ContentKind × String)
  | .dict [(.str "type", .str t), (.str "text", .str s)] =>
    if t = k.typeName then .ok (k, s) else .error ("Input should be '" ++ k.typeName ++ "'")
  | _ => .error "Input should be a valid dictionary"

/-- Content items that have a kind and a text. -/
def itemModels : ContentModels (ContentKind × String) where
  modelDump c := .dict [(.str "type", .str c.1.typeName), (.str "text", .str c.2)]
  textContent s := (.text, s)
  validateText := validateAs .text
  validateImage := validateAs .image
  validateEmbeddedResource := validateAs .embeddedResource

theorem itemModels_roundTrip : itemModels.RoundTrip Prod.fst where
  type _ := rfl
  text c h := by simp [itemModels, validateAs, ← h]
  image c h := by simp [itemModels, validateAs, ← h]
  embeddedResource c h := by simp [itemModels, validateAs, ← h]
  textContent _ := rfl

/-- A proxy whose upstream server answers every call with `r`. -/
def answeringProxy (pipeline : Option (List (LifecycleHook Unit)))
    (r : CallToolResult (ContentKind × String)) : ProxyServer Unit Unit (ContentKind × String) where
  configs := [{ name := .str "db", transport := .http }]
  pipeline := pipeline
  models := itemModels
  collaborators :=
    { Collaborators.answering (C := ContentKind × String) () with
      callTool := fun _ _ _ s => (.ok r, s) }

namespace ProxyServer

/-- A text behind an empty pipeline comes through. -/
theorem answeringProxy_text :
    (answeringProxy (some []) { content := [(.text, "row")] }).handleCallTool queryRequest () =
      .ok { content := [(.text, "row")] } := by
  have hM : (answeringProxy (some []) { content := [(.text, "row")] }).models.RoundTrip Prod.fst :=
    itemModels_roundTrip
  have hevents : ∃ pre post ctx ctx',
      ((answeringProxy (some []) { content := [(.text, "row")] }).callTool queryRequest ()).events =
        [.preRun pre, .getToken "db" ctx, .getSession "db" ctx' none,
          .callTool () "query" (some [(.str "sql", .str "select 1")]),
          .upstreamResult { content := [(.text, "row")] }, .postRun post] ∧
        post.success = true := ⟨_, _, _, _, rfl, rfl⟩
  obtain ⟨pre, post, ctx, ctx', hevents, hsuccess⟩ := hevents
  refine (handleCallTool_transparent_iff hM ?_ ?_ ?_).mpr ⟨rfl, .inr ?_⟩
  · rintro hooks ⟨⟩ hook hmem
    cases hmem
  · simp [hevents]
  · intro post' hmem
    simp only [hevents, List.mem_cons, reduceCtorEq, CallEvent.postRun.injEq, List.not_mem_nil,
      or_false, false_or] at hmem
    rw [hmem, hsuccess]
  · simp [ContentKind.Rebuilt]

def errorResult : CallToolResult (ContentKind × String) where
  content := [(.text, "no such table")]
  isError := true

def audioResult : CallToolResult (ContentKind × String) where
  content := [(.audio, "UklGRg==")]

/-- An error result becomes a success, and behind a pipeline an audio item becomes a text. -/
theorem answeringProxy_not_transparent :
    (answeringProxy none errorResult).handleCallTool queryRequest () ≠ .ok errorResult ∧
      (answeringProxy (some []) audioResult).handleCallTool queryRequest () ≠ .ok audioResult := by
  constructor
  · intro h
    have hflag : ((answeringProxy none errorResult).handleCallTool queryRequest ()).map
        CallToolResult.isError = .ok false := rfl
    rw [h] at hflag
    cases hflag
  · intro h
    have hkind : ((answeringProxy (some []) audioResult).handleCallTool queryRequest ()).map
        (fun r => r.content.map Prod.fst) = .ok [ContentKind.text] := rfl
    rw [h] at hkind
    cases hkind

end ProxyServer

end McpZero.Proxy
