import McpZero.Python.Tree
import McpZero.Pipeline.Hooks

/-! The masking hook: two recursive walkers that send every string leaf of a payload
through a masking engine. -/
namespace McpZero.Masking
open Python Lib

structure MaskingResult where
  maskedText : String
  events : List MaskingEvent := []
  hasMasked : Bool := false

/-- `mask_text` of an engine, as a function of the text, the entities to detect and the
direction. It may raise. -/
abbrev MaskingEngine := String → List String → String → Except Exc MaskingResult

structure PresidioConfig where
  enabled : Bool := false
  entities : List String := []

structure MaskingHook where
  engine : MaskingEngine
  config : PresidioConfig

namespace MaskingHook

variable (h : MaskingHook)

/-- `f"{path}.{key}" if path else key`. -/
def keyPath (path : String) (key : Scalar) : String :=
  if path = "" then key.text else path ++ "." ++ key.text

/-- `f"{path}[{i}]"`. -/
def indexPath (path : String) (i : ℕ) : String := path ++ "[" ++ toString i ++ "]"

/-- The lists that `_walk_and_mask` extends as it goes. -/
structure Masked where
  fields : List String := []
  events : List MaskingEvent := []

mutual

/-- `_walk_and_mask`. -/
def walkAndMask (path : String) : Value → Masked → Except Exc (Value × Masked)
  | .str text, acc => do
    let result ← h.engine text h.config.entities "request"
    if result.hasMasked then
      return (.str result.maskedText,
        { fields := acc.fields ++ [if path = "" then "<root>" else path]
          events := acc.events ++ result.events })
    else return (.str text, acc)
  | .dict entries, acc => do
    let (entries, acc) ← walkEntries path entries acc
    return (.dict entries, acc)
  | .list items, acc => do
    let (items, acc) ← walkItems path 0 items acc
    return (.list items, acc)
  | .scalar a, acc => .ok (.scalar a, acc)
  | .group kind items, acc => .ok (.group kind items, acc)

def walkItems (path : String) (i : ℕ) : List Value → Masked → Except Exc (List Value × Masked)
  | [], acc => .ok ([], acc)
  | item :: rest, acc => do
    let (item, acc) ← walkAndMask (indexPath path i) item acc
    let (rest, acc) ← walkItems path (i + 1) rest acc
    return (item :: rest, acc)

def walkEntries (path : String) : Dict → Masked → Except Exc (Dict × Masked)
  | [], acc => .ok ([], acc)
  | (key, value) :: rest, acc => do
    let (value, acc) ← walkAndMask (keyPath path key) value acc
    let (rest, acc) ← walkEntries path rest acc
    return ((key, value) :: rest, acc)

end

mutual

/-- `_mask_recursive`. -/
def maskRecursive (path : String) : Value → List String → Except Exc (Value × List String)
  | .str text, fields => do
    let result ← h.engine text h.config.entities "response"
    if result.hasMasked then return (.str result.maskedText, fields ++ [path])
    else return (.str text, fields)
  | .dict entries, fields => do
    let (entries, fields) ← maskEntries path entries fields
    return (.dict entries, fields)
  | .list items, fields => do
    let (items, fields) ← maskItems path 0 items fields
    return (.list items, fields)
  | .scalar a, fields => .ok (.scalar a, fields)
  | .group kind items, fields => .ok (.group kind items, fields)

def maskItems (path : String) (i : ℕ) :
    List Value → List String → Except Exc (List Value × List String)
  | [], fields => .ok ([], fields)
  | item :: rest, fields => do
    let (item, fields) ← maskRecursive (indexPath path i) item fields
    let (rest, fields) ← maskItems path (i + 1) rest fields
    return (item :: rest, fields)

def maskEntries (path : String) : Dict → List String → Except Exc (Dict × List String)
  | [], fields => .ok ([], fields)
  | (key, value) :: rest, fields => do
    let (value, fields) ← maskRecursive (keyPath path key) value fields
    let (rest, fields) ← maskEntries path rest fields
    return ((key, value) :: rest, fields)

end

/-- An engine error becomes a denial; any other exception passes. -/
def failClosed (message : String) : Exc → Exc
  | .maskingEngine m _ => .shortCircuit (.str (message ++ ": " ++ m)) true
  | e => e

def onPreMasking (ctx : HookContext) : Except Exc HookContext :=
  if !h.config.enabled then .ok ctx
  else if ctx.requestPayload.isEmpty then .ok { ctx with maskingStageCompleted := true }
  else
    match h.walkEntries "" ctx.requestPayload {} with
    | .error e => .error (failClosed "Masking failure" e)
    | .ok (payload, acc) =>
      if !acc.fields.isEmpty then
        .ok { ctx with
          requestPayload := payload
          maskingApplied := true
          maskedFields := acc.fields
          maskingEvents := acc.events
          maskingStageCompleted := true }
      else .ok { ctx with maskingStageCompleted := true }

def onPostMasking (ctx : HookContext) : Except Exc HookContext :=
  if !h.config.enabled then .ok ctx
  else if ctx.responsePayload.isEmpty then .ok { ctx with maskingStageCompleted := true }
  else
    match h.maskEntries "" ctx.responsePayload [] with
    | .error e => .error (failClosed "Output masking failed" e)
    | .ok (payload, fields) =>
      if !fields.isEmpty then
        .ok { ctx with
          responsePayload := payload
          outputMaskingApplied := true
          outputMaskedFields := fields
          maskingStageCompleted := true }
      else .ok { ctx with maskingStageCompleted := true }

def toHook {σ : Type} : Pipeline.LifecycleHook σ where
  name := "MaskingHook"
  onPreMasking ctx s := (h.onPreMasking ctx, s)
  onPostMasking ctx s := (h.onPostMasking ctx, s)

/-- What the engine makes of a text: its masked text where it masked something. -/
def maskedText (direction text : String) : Except Exc String := do
  let result ← h.engine text h.config.entities direction
  return if result.hasMasked then result.maskedText else text

theorem maskedText_of {direction text : String} {r : MaskingResult}
    (hr : h.engine text h.config.entities direction = .ok r) :
    h.maskedText direction text = .ok (if r.hasMasked then r.maskedText else text) := by
  simp only [maskedText, hr]
  rfl

mutual

/-- The request walker computes the map of `maskedText` over the tree, and records no field
only if it left the tree as it was. -/
theorem walkAndMask_spec (path : String) (v w : Value) (acc acc' : Masked)
    (hw : h.walkAndMask path v acc = .ok (w, acc')) :
    v.mapStrings (h.maskedText "request") = .ok w ∧ acc.fields <+: acc'.fields ∧
      (acc'.fields = acc.fields → w = v) := by
  match v with
  | .str text =>
    simp only [walkAndMask, bind_eq_ok] at hw
    obtain ⟨result, hr, hw⟩ := hw
    have ht := h.maskedText_of hr
    simp only [Value.mapStrings, bind_eq_ok, pure_eq_ok]
    by_cases hm : result.hasMasked = true
    · rw [if_pos hm] at hw ht
      simp only [pure_eq_ok, Prod.mk.injEq] at hw
      obtain ⟨rfl, rfl⟩ := hw
      exact ⟨⟨_, ht, rfl⟩, List.prefix_append _ _, fun hf => absurd hf (by simp)⟩
    · rw [if_neg hm] at hw ht
      simp only [pure_eq_ok, Prod.mk.injEq] at hw
      obtain ⟨rfl, rfl⟩ := hw
      exact ⟨⟨_, ht, rfl⟩, List.prefix_rfl, fun _ => rfl⟩
  | .scalar .none | .scalar (.bool _) | .scalar (.int _) | .scalar (.float _)
  | .bytes _ | .scalar (.other _ _) | .group _ _ =>
    cases hw
    exact ⟨rfl, List.prefix_rfl, fun _ => rfl⟩
  | .list items =>
    simp only [walkAndMask, bind_eq_ok, pure_eq_ok, Prod.mk.injEq] at hw
    obtain ⟨⟨ws, acc₁⟩, hws, rfl, rfl⟩ := hw
    obtain ⟨hmap, hp, hs⟩ := walkItems_spec path 0 items ws acc acc₁ hws
    simp only [Value.mapStrings, bind_eq_ok, pure_eq_ok]
    exact ⟨⟨ws, hmap, rfl⟩, hp, fun hf => by rw [hs hf]⟩
  | .dict entries =>
    simp only [walkAndMask, bind_eq_ok, pure_eq_ok, Prod.mk.injEq] at hw
    obtain ⟨⟨ws, acc₁⟩, hws, rfl, rfl⟩ := hw
    obtain ⟨hmap, hp, hs⟩ := walkEntries_spec path entries ws acc acc₁ hws
    simp only [Value.mapStrings, bind_eq_ok, pure_eq_ok]
    exact ⟨⟨ws, hmap, rfl⟩, hp, fun hf => by rw [hs hf]⟩

theorem walkItems_spec (path : String) (i : ℕ) (vs ws : List Value) (acc acc' : Masked)
    (hw : h.walkItems path i vs acc = .ok (ws, acc')) :
    Value.mapItems (h.maskedText "request") vs = .ok ws ∧ acc.fields <+: acc'.fields ∧
      (acc'.fields = acc.fields → ws = vs) := by
  match vs with
  | [] =>
    cases hw
    exact ⟨rfl, List.prefix_rfl, fun _ => rfl⟩
  | v :: vs =>
    simp only [walkItems, bind_eq_ok, pure_eq_ok, Prod.mk.injEq] at hw
    obtain ⟨⟨w, acc₁⟩, hv, ⟨ws', acc₂⟩, hvs, rfl, rfl⟩ := hw
    obtain ⟨hm₁, hp₁, hs₁⟩ := walkAndMask_spec (indexPath path i) v w acc acc₁ hv
    obtain ⟨hm₂, hp₂, hs₂⟩ := walkItems_spec path (i + 1) vs ws' acc₁ acc₂ hvs
    simp only [Value.mapItems, bind_eq_ok, pure_eq_ok]
    refine ⟨⟨w, hm₁, ws', hm₂, rfl⟩, hp₁.trans hp₂, fun hf => ?_⟩
    have hmid : acc₁.fields = acc.fields := (hp₁.eq_of_length_le (hf ▸ hp₂.length_le)).symm
    rw [hs₁ hmid, hs₂ (hf.trans hmid.symm)]

theorem walkEntries_spec (path : String) (vs ws : Dict) (acc acc' : Masked)
    (hw : h.walkEntries path vs acc = .ok (ws, acc')) :
    Value.mapEntries (h.maskedText "request") vs = .ok ws ∧ acc.fields <+: acc'.fields ∧
      (acc'.fields = acc.fields → ws = vs) := by
  match vs with
  | [] =>
    cases hw
    exact ⟨rfl, List.prefix_rfl, fun _ => rfl⟩
  | (key, v) :: vs =>
    simp only [walkEntries, bind_eq_ok, pure_eq_ok, Prod.mk.injEq] at hw
    obtain ⟨⟨w, acc₁⟩, hv, ⟨ws', acc₂⟩, hvs, rfl, rfl⟩ := hw
    obtain ⟨hm₁, hp₁, hs₁⟩ := walkAndMask_spec (keyPath path key) v w acc acc₁ hv
    obtain ⟨hm₂, hp₂, hs₂⟩ := walkEntries_spec path vs ws' acc₁ acc₂ hvs
    simp only [Value.mapEntries, bind_eq_ok, pure_eq_ok]
    refine ⟨⟨w, hm₁, ws', hm₂, rfl⟩, hp₁.trans hp₂, fun hf => ?_⟩
    have hmid : acc₁.fields = acc.fields := (hp₁.eq_of_length_le (hf ▸ hp₂.length_le)).symm
    rw [hs₁ hmid, hs₂ (hf.trans hmid.symm)]

end

/-- When the hook returns, the request payload it returns is the map of the engine over
the payload it was given. -/
theorem onPreMasking_requestPayload {ctx ctx' : HookContext} (he : h.config.enabled = true)
    (hr : h.onPreMasking ctx = .ok ctx') :
    Value.mapEntries (h.maskedText "request") ctx.requestPayload = .ok ctx'.requestPayload := by
  unfold onPreMasking at hr
  simp only [he, Bool.not_true, Bool.false_eq_true, if_false] at hr
  by_cases hp : ctx.requestPayload.isEmpty
  · simp only [hp, if_true] at hr
    cases hr
    rw [List.isEmpty_iff.mp hp]
    rfl
  simp only [hp] at hr
  cases hw : h.walkEntries "" ctx.requestPayload {} with
  | error e => simp [hw] at hr
  | ok r =>
    obtain ⟨payload, acc⟩ := r
    obtain ⟨hmap, -, hsame⟩ := h.walkEntries_spec "" ctx.requestPayload payload {} acc hw
    simp only [hw, Bool.false_eq_true, if_false] at hr
    by_cases hf : acc.fields.isEmpty
    · simp only [hf, Bool.not_true, Bool.false_eq_true, if_false] at hr
      cases hr
      rw [hmap, hsame (List.isEmpty_iff.mp hf)]
    · simp only [hf] at hr
      cases hr
      exact hmap

/-- The response side leaves the request payload alone. -/
theorem onPostMasking_requestPayload {ctx ctx' : HookContext}
    (hr : h.onPostMasking ctx = .ok ctx') : ctx'.requestPayload = ctx.requestPayload := by
  unfold onPostMasking at hr
  split at hr
  · cases hr
    rfl
  · split at hr
    · cases hr
      rfl
    · split at hr
      · cases hr
      · split at hr <;> cases hr <;> rfl

end MaskingHook

end McpZero.Masking
