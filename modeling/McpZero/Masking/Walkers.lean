import McpZero.Masking.Hook
import McpZero.Python.Leaves

/-! The walkers of the masking hook over an engine that keeps a state of its own: its answer to
a text may be another one at the next call. Both are walks over the string leaves. -/
namespace McpZero.Masking
open Python MaskingHook

variable {σ : Type}

/-- `MaskingHook` with `mask_text` as the coroutine that it is. -/
structure AsyncMaskingHook (σ : Type) where
  engine : String → List String → String → Action σ MaskingResult
  config : PresidioConfig

namespace AsyncMaskingHook

variable (h : AsyncMaskingHook σ)

mutual

/-- `_walk_and_mask`. -/
def walkAndMask (path : String) : Value → Masked → Action σ (Value × Masked)
  | .str text, acc, s =>
    match h.engine text h.config.entities "request" s with
    | (.error e, s) => (.error e, s)
    | (.ok result, s) =>
      if result.hasMasked then
        (.ok (.str result.maskedText,
          { fields := acc.fields ++ [if path = "" then "<root>" else path]
            events := acc.events ++ result.events }), s)
      else (.ok (.str text, acc), s)
  | .dict entries, acc, s =>
    match walkEntries path entries acc s with
    | (.error e, s) => (.error e, s)
    | (.ok (entries, acc), s) => (.ok (.dict entries, acc), s)
  | .list items, acc, s =>
    match walkItems path 0 items acc s with
    | (.error e, s) => (.error e, s)
    | (.ok (items, acc), s) => (.ok (.list items, acc), s)
  | .scalar a, acc, s => (.ok (.scalar a, acc), s)
  | .group kind items, acc, s => (.ok (.group kind items, acc), s)

def walkItems (path : String) (i : ℕ) : List Value → Masked → Action σ (List Value × Masked)
  | [], acc, s => (.ok ([], acc), s)
  | item :: rest, acc, s =>
    match walkAndMask (indexPath path i) item acc s with
    | (.error e, s) => (.error e, s)
    | (.ok (item, acc), s) =>
      match walkItems path (i + 1) rest acc s with
      | (.error e, s) => (.error e, s)
      | (.ok (rest, acc), s) => (.ok (item :: rest, acc), s)

def walkEntries (path : String) : Dict → Masked → Action σ (Dict × Masked)
  | [], acc, s => (.ok ([], acc), s)
  | (key, value) :: rest, acc, s =>
    match walkAndMask (keyPath path key) value acc s with
    | (.error e, s) => (.error e, s)
    | (.ok (value, acc), s) =>
      match walkEntries path rest acc s with
      | (.error e, s) => (.error e, s)
      | (.ok (rest, acc), s) => (.ok ((key, value) :: rest, acc), s)

end

mutual

/-- `_mask_recursive`. -/
def maskRecursive (path : String) : Value → List String → Action σ (Value × List String)
  | .str text, fields, s =>
    match h.engine text h.config.entities "response" s with
    | (.error e, s) => (.error e, s)
    | (.ok result, s) =>
      if result.hasMasked then (.ok (.str result.maskedText, fields ++ [path]), s)
      else (.ok (.str text, fields), s)
  | .dict entries, fields, s =>
    match maskEntries path entries fields s with
    | (.error e, s) => (.error e, s)
    | (.ok (entries, fields), s) => (.ok (.dict entries, fields), s)
  | .list items, fields, s =>
    match maskItems path 0 items fields s with
    | (.error e, s) => (.error e, s)
    | (.ok (items, fields), s) => (.ok (.list items, fields), s)
  | .scalar a, fields, s => (.ok (.scalar a, fields), s)
  | .group kind items, fields, s => (.ok (.group kind items, fields), s)

def maskItems (path : String) (i : ℕ) :
    List Value → List String → Action σ (List Value × List String)
  | [], fields, s => (.ok ([], fields), s)
  | item :: rest, fields, s =>
    match maskRecursive (indexPath path i) item fields s with
    | (.error e, s) => (.error e, s)
    | (.ok (item, fields), s) =>
      match maskItems path (i + 1) rest fields s with
      | (.error e, s) => (.error e, s)
      | (.ok (rest, fields), s) => (.ok (item :: rest, fields), s)

def maskEntries (path : String) : Dict → List String → Action σ (Dict × List String)
  | [], fields, s => (.ok ([], fields), s)
  | (key, value) :: rest, fields, s =>
    match maskRecursive (keyPath path key) value fields s with
    | (.error e, s) => (.error e, s)
    | (.ok (value, fields), s) =>
      match maskEntries path rest fields s with
      | (.error e, s) => (.error e, s)
      | (.ok (rest, fields), s) => (.ok ((key, value) :: rest, fields), s)

end

/-- `on_pre_masking`. -/
def onPreMasking (ctx : HookContext) : Action σ HookContext := fun s =>
  if !h.config.enabled then (.ok ctx, s)
  else if ctx.requestPayload.isEmpty then (.ok { ctx with maskingStageCompleted := true }, s)
  else
    match h.walkEntries "" ctx.requestPayload {} s with
    | (.error e, s) => (.error (failClosed "Masking failure" e), s)
    | (.ok (payload, acc), s) =>
      if !acc.fields.isEmpty then
        (.ok { ctx with
          requestPayload := payload
          maskingApplied := true
          maskedFields := acc.fields
          maskingEvents := acc.events
          maskingStageCompleted := true }, s)
      else (.ok { ctx with maskingStageCompleted := true }, s)

/-- `on_post_masking`. -/
def onPostMasking (ctx : HookContext) : Action σ HookContext := fun s =>
  if !h.config.enabled then (.ok ctx, s)
  else if ctx.responsePayload.isEmpty then (.ok { ctx with maskingStageCompleted := true }, s)
  else
    match h.maskEntries "" ctx.responsePayload [] s with
    | (.error e, s) => (.error (failClosed "Output masking failed" e), s)
    | (.ok (payload, fields), s) =>
      if !fields.isEmpty then
        (.ok { ctx with
          responsePayload := payload
          outputMaskingApplied := true
          outputMaskedFields := fields
          maskingStageCompleted := true }, s)
      else (.ok { ctx with maskingStageCompleted := true }, s)

/-- The calls of the engine for these texts, one after the other. -/
def ask (direction : String) : List String → Action σ (List MaskingResult)
  | [], s => (.ok [], s)
  | text :: texts, s =>
    match h.engine text h.config.entities direction s with
    | (.error e, s) => (.error e, s)
    | (.ok result, s) =>
      match ask direction texts s with
      | (.error e, s) => (.error e, s)
      | (.ok results, s) => (.ok (result :: results), s)

end AsyncMaskingHook

/-- The text at a leaf after the engine's answer. -/
def replaced (text : String) (result : MaskingResult) : String :=
  if result.hasMasked then result.maskedText else text

/-- The paths of the leaves where the engine masked something. -/
def maskedPaths (leaves : List (String × String)) (results : List MaskingResult) : List String :=
  ((leaves.zip results).filter (·.2.hasMasked)).map (·.1.1)

/-- The events of the answers that masked something. -/
def maskedEvents (results : List MaskingResult) : List MaskingEvent :=
  (results.filter (·.hasMasked)).flatMap (·.events)

/-- The path of an entry below a path that is not empty. -/
def below (path : String) (key : Scalar) : String := path ++ "." ++ key.text

/-- The string leaves of a payload with their paths: the key itself at the top. -/
def payloadLeaves (payload : Dict) : List (String × String) :=
  payload.flatMap fun e => e.2.leaves below indexPath e.1.text

/-- The payload `after` is `before` with the engine's answers at its string leaves. -/
def MaskedBy (results : List MaskingResult) (before after : Dict) : Prop :=
  Value.Refilled (.dict before)
    (List.zipWith replaced (Value.stringsEntries before) results) (.dict after)

namespace AsyncMaskingHook

variable (h : AsyncMaskingHook σ)

/-- What `_walk_and_mask` does at a string leaf. -/
def requestLeaf (path text : String) (acc : Masked) : Action σ (String × Masked) := fun s =>
  match h.engine text h.config.entities "request" s with
  | (.error e, s) => (.error e, s)
  | (.ok result, s) =>
    if result.hasMasked then
      (.ok (result.maskedText,
        { fields := acc.fields ++ [if path = "" then "<root>" else path]
          events := acc.events ++ result.events }), s)
    else (.ok (text, acc), s)

/-- What `_mask_recursive` does at a string leaf. -/
def responseLeaf (path text : String) (fields : List String) : Action σ (String × List String) :=
  fun s =>
    match h.engine text h.config.entities "response" s with
    | (.error e, s) => (.error e, s)
    | (.ok result, s) =>
      if result.hasMasked then (.ok (result.maskedText, fields ++ [path]), s)
      else (.ok (text, fields), s)

mutual

theorem walkAndMask_eq_visit (path : String) (v : Value) (acc : Masked) (s : σ) :
    h.walkAndMask path v acc s = v.visit keyPath indexPath h.requestLeaf path acc s := by
  match v with
  | .str text =>
    rcases hask : h.engine text h.config.entities "request" s with ⟨e | result, t⟩
    · simp only [walkAndMask, Value.visit, requestLeaf, hask]
    · cases hmasked : result.hasMasked <;>
        simp [walkAndMask, Value.visit, requestLeaf, hask, hmasked]
  | .scalar .none | .scalar (.bool _) | .scalar (.int _) | .scalar (.float _)
  | .bytes _ | .scalar (.other _ _) | .group _ _ => rfl
  | .list items =>
    simp only [walkAndMask, Value.visit, walkItems_eq_visit path 0 items]
    rcases Value.visitItems keyPath indexPath h.requestLeaf path 0 items acc s with ⟨_ | _, _⟩
    all_goals rfl
  | .dict entries =>
    simp only [walkAndMask, Value.visit, walkEntries_eq_visit path entries]
    rcases Value.visitEntries keyPath indexPath h.requestLeaf path entries acc s with ⟨_ | _, _⟩
    all_goals rfl

theorem walkItems_eq_visit (path : String) (i : ℕ) (items : List Value) (acc : Masked) (s : σ) :
    h.walkItems path i items acc s =
      Value.visitItems keyPath indexPath h.requestLeaf path i items acc s := by
  match items with
  | [] => rfl
  | item :: rest =>
    simp only [walkItems, Value.visitItems, walkAndMask_eq_visit (indexPath path i) item,
      walkItems_eq_visit path (i + 1) rest]
    rcases item.visit keyPath indexPath h.requestLeaf (indexPath path i) acc s with
      ⟨_ | ⟨item', acc'⟩, t⟩
    · rfl
    · dsimp only
      rcases Value.visitItems keyPath indexPath h.requestLeaf path (i + 1) rest acc' t with
        ⟨_ | _, _⟩ <;> rfl

theorem walkEntries_eq_visit (path : String) (entries : Dict) (acc : Masked) (s : σ) :
    h.walkEntries path entries acc s =
      Value.visitEntries keyPath indexPath h.requestLeaf path entries acc s := by
  match entries with
  | [] => rfl
  | (key, value) :: rest =>
    simp only [walkEntries, Value.visitEntries, walkAndMask_eq_visit (keyPath path key) value,
      walkEntries_eq_visit path rest]
    rcases value.visit keyPath indexPath h.requestLeaf (keyPath path key) acc s with
      ⟨_ | ⟨value', acc'⟩, t⟩
    · rfl
    · dsimp only
      rcases Value.visitEntries keyPath indexPath h.requestLeaf path rest acc' t with
        ⟨_ | _, _⟩ <;> rfl

end

mutual

theorem maskRecursive_eq_visit (path : String) (v : Value) (fields : List String) (s : σ) :
    h.maskRecursive path v fields s = v.visit keyPath indexPath h.responseLeaf path fields s := by
  match v with
  | .str text =>
    rcases hask : h.engine text h.config.entities "response" s with ⟨e | result, t⟩
    · simp only [maskRecursive, Value.visit, responseLeaf, hask]
    · cases hmasked : result.hasMasked <;>
        simp [maskRecursive, Value.visit, responseLeaf, hask, hmasked]
  | .scalar .none | .scalar (.bool _) | .scalar (.int _) | .scalar (.float _)
  | .bytes _ | .scalar (.other _ _) | .group _ _ => rfl
  | .list items =>
    simp only [maskRecursive, Value.visit, maskItems_eq_visit path 0 items]
    rcases Value.visitItems keyPath indexPath h.responseLeaf path 0 items fields s with ⟨_ | _, _⟩
    all_goals rfl
  | .dict entries =>
    simp only [maskRecursive, Value.visit, maskEntries_eq_visit path entries]
    rcases Value.visitEntries keyPath indexPath h.responseLeaf path entries fields s with ⟨_ | _, _⟩
    all_goals rfl

theorem maskItems_eq_visit (path : String) (i : ℕ) (items : List Value) (fields : List String)
    (s : σ) : h.maskItems path i items fields s =
      Value.visitItems keyPath indexPath h.responseLeaf path i items fields s := by
  match items with
  | [] => rfl
  | item :: rest =>
    simp only [maskItems, Value.visitItems, maskRecursive_eq_visit (indexPath path i) item,
      maskItems_eq_visit path (i + 1) rest]
    rcases item.visit keyPath indexPath h.responseLeaf (indexPath path i) fields s with
      ⟨_ | ⟨item', acc'⟩, t⟩
    · rfl
    · dsimp only
      rcases Value.visitItems keyPath indexPath h.responseLeaf path (i + 1) rest acc' t with
        ⟨_ | _, _⟩ <;> rfl

theorem maskEntries_eq_visit (path : String) (entries : Dict) (fields : List String) (s : σ) :
    h.maskEntries path entries fields s =
      Value.visitEntries keyPath indexPath h.responseLeaf path entries fields s := by
  match entries with
  | [] => rfl
  | (key, value) :: rest =>
    simp only [maskEntries, Value.visitEntries, maskRecursive_eq_visit (keyPath path key) value,
      maskEntries_eq_visit path rest]
    rcases value.visit keyPath indexPath h.responseLeaf (keyPath path key) fields s with
      ⟨_ | ⟨value', acc'⟩, t⟩
    · rfl
    · dsimp only
      rcases Value.visitEntries keyPath indexPath h.responseLeaf path rest acc' t with
        ⟨_ | _, _⟩ <;> rfl

end

/-- The request leaves, in the order of the walk: the engine's answers and what they record. -/
theorem visitLeaves_requestLeaf (leaves : List (String × String)) (hpaths : ∀ l ∈ leaves, l.1 ≠ "")
    (acc : Masked) (s : σ) :
    Value.visitLeaves h.requestLeaf leaves acc s =
      match h.ask "request" (leaves.map (·.2)) s with
      | (.error e, t) => (.error e, t)
      | (.ok results, t) =>
        (.ok (List.zipWith replaced (leaves.map (·.2)) results,
          { fields := acc.fields ++ maskedPaths leaves results
            events := acc.events ++ maskedEvents results }), t) := by
  induction leaves generalizing acc s with
  | nil => simp [Value.visitLeaves, ask, maskedPaths, maskedEvents]
  | cons l leaves ih =>
    obtain ⟨path, text⟩ := l
    rw [List.forall_mem_cons] at hpaths
    rcases hask : h.engine text h.config.entities "request" s with ⟨e | result, t⟩
    · simp only [Value.visitLeaves, requestLeaf, List.map_cons, ask, hask]
    · rcases hrest : h.ask "request" (leaves.map (·.2)) t with ⟨e | results, u⟩
      · cases hmasked : result.hasMasked <;>
          simp [Value.visitLeaves, requestLeaf, ask, hask, hmasked, ih hpaths.2, hrest]
      · cases hmasked : result.hasMasked <;>
          simp [Value.visitLeaves, requestLeaf, ask, hask, hmasked, ih hpaths.2, hrest, replaced,
            maskedPaths, maskedEvents, hpaths.1]

theorem visitLeaves_responseLeaf (leaves : List (String × String)) (fields : List String) (s : σ) :
    Value.visitLeaves h.responseLeaf leaves fields s =
      match h.ask "response" (leaves.map (·.2)) s with
      | (.error e, t) => (.error e, t)
      | (.ok results, t) =>
        (.ok (List.zipWith replaced (leaves.map (·.2)) results,
          fields ++ maskedPaths leaves results), t) := by
  induction leaves generalizing fields s with
  | nil => simp [Value.visitLeaves, ask, maskedPaths]
  | cons l leaves ih =>
    obtain ⟨path, text⟩ := l
    rcases hask : h.engine text h.config.entities "response" s with ⟨e | result, t⟩
    · simp only [Value.visitLeaves, responseLeaf, List.map_cons, ask, hask]
    · rcases hrest : h.ask "response" (leaves.map (·.2)) t with ⟨e | results, u⟩
      · cases hmasked : result.hasMasked <;>
          simp [Value.visitLeaves, responseLeaf, ask, hask, hmasked, ih, hrest]
      · cases hmasked : result.hasMasked <;>
          simp [Value.visitLeaves, responseLeaf, ask, hask, hmasked, ih, hrest, replaced,
            maskedPaths]

end AsyncMaskingHook

theorem below_ne_empty (path : String) (key : Scalar) : below path key ≠ "" := by
  intro h
  have hlength := congrArg (·.toList.length) h
  simp [below] at hlength

theorem keyPath_of_ne {path : String} (hpath : path ≠ "") (key : Scalar) :
    keyPath path key = below path key := by
  simp only [keyPath, hpath, if_false, below]

theorem indexPath_ne_empty (path : String) (i : ℕ) : indexPath path i ≠ "" := by
  intro h
  have hlength := congrArg (·.toList.length) h
  simp [indexPath] at hlength

mutual

/-- Below a path that is not empty the walkers take the paths as they are written. -/
theorem leaves_keyPath {path : String} (hpath : path ≠ "") (v : Value) :
    v.leaves keyPath indexPath path = v.leaves below indexPath path := by
  match v with
  | .scalar .none | .scalar (.bool _) | .scalar (.int _) | .scalar (.float _)
  | .bytes _ | .scalar (.other _ _) | .str _ | .group _ _ => rfl
  | .list items => exact leavesItems_keyPath path 0 items
  | .dict entries => exact leavesEntries_keyPath hpath entries

theorem leavesItems_keyPath (path : String) (i : ℕ) (items : List Value) :
    Value.leavesItems keyPath indexPath path i items =
      Value.leavesItems below indexPath path i items := by
  match items with
  | [] => rfl
  | item :: rest =>
    simp only [Value.leavesItems, leaves_keyPath (indexPath_ne_empty path i) item,
      leavesItems_keyPath path (i + 1) rest]

theorem leavesEntries_keyPath {path : String} (hpath : path ≠ "") (entries : Dict) :
    Value.leavesEntries keyPath indexPath path entries =
      Value.leavesEntries below indexPath path entries := by
  match entries with
  | [] => rfl
  | (key, value) :: rest =>
    simp only [Value.leavesEntries, keyPath_of_ne hpath,
      leaves_keyPath (below_ne_empty path key) value, leavesEntries_keyPath hpath rest]

end

/-- The keys of a JSON object that has no empty key. -/
def NamedKeys (payload : Dict) : Prop := ∀ e ∈ payload, ∃ name, e.1 = .str name ∧ name ≠ ""

theorem leavesEntries_of_namedKeys {payload : Dict} (hkeys : NamedKeys payload) :
    Value.leavesEntries keyPath indexPath "" payload = payloadLeaves payload := by
  induction payload with
  | nil => rfl
  | cons e payload ih =>
    obtain ⟨key, value⟩ := e
    rw [NamedKeys, List.forall_mem_cons] at hkeys
    obtain ⟨⟨name, rfl, hname⟩, hrest⟩ := hkeys
    have hpath : keyPath "" (.str name) = name := by simp [keyPath]
    rw [Value.leavesEntries, hpath, leaves_keyPath hname, ih hrest]
    rfl

theorem payloadLeaves_snd (payload : Dict) :
    (payloadLeaves payload).map (·.2) = Value.stringsEntries payload := by
  induction payload with
  | nil => rfl
  | cons e payload ih =>
    obtain ⟨key, value⟩ := e
    have hvalue := Value.leaves_snd below indexPath key.text value
    simp only [payloadLeaves, List.flatMap_cons, List.map_append, hvalue, Value.stringsEntries]
    rw [← ih]
    rfl

mutual

theorem leaves_path_ne_empty {path : String} (hpath : path ≠ "") (v : Value) :
    ∀ l ∈ v.leaves below indexPath path, l.1 ≠ "" := by
  match v with
  | .scalar .none | .scalar (.bool _) | .scalar (.int _) | .scalar (.float _)
  | .bytes _ | .scalar (.other _ _) | .group _ _ => simp [Value.leaves]
  | .str _ => simp [Value.leaves, hpath]
  | .list items => exact leavesItems_path_ne_empty path 0 items
  | .dict entries => exact leavesEntries_path_ne_empty path entries

theorem leavesItems_path_ne_empty (path : String) (i : ℕ) (items : List Value) :
    ∀ l ∈ Value.leavesItems below indexPath path i items, l.1 ≠ "" := by
  match items with
  | [] => simp [Value.leavesItems]
  | item :: rest =>
    rw [Value.leavesItems, List.forall_mem_append]
    exact ⟨leaves_path_ne_empty (indexPath_ne_empty path i) item,
      leavesItems_path_ne_empty path (i + 1) rest⟩

theorem leavesEntries_path_ne_empty (path : String) (entries : Dict) :
    ∀ l ∈ Value.leavesEntries below indexPath path entries, l.1 ≠ "" := by
  match entries with
  | [] => simp [Value.leavesEntries]
  | (key, value) :: rest =>
    rw [Value.leavesEntries, List.forall_mem_append]
    exact ⟨leaves_path_ne_empty (below_ne_empty path key) value,
      leavesEntries_path_ne_empty path rest⟩

end

theorem payloadLeaves_path_ne_empty {payload : Dict} (hkeys : NamedKeys payload) :
    ∀ l ∈ payloadLeaves payload, l.1 ≠ "" := by
  intro l hl
  obtain ⟨e, he, hl⟩ := List.mem_flatMap.mp hl
  obtain ⟨name, hkey, hname⟩ := hkeys e he
  refine leaves_path_ne_empty ?_ e.2 l hl
  rw [hkey]
  exact hname

namespace AsyncMaskingHook

variable (h : AsyncMaskingHook σ)

/-- The request walker asks the engine for every string leaf in turn and puts its answers there.
It fails as the first of these calls that fails. -/
theorem walkEntries_reference {payload : Dict} (hkeys : NamedKeys payload) (s : σ) :
    (∀ e t, h.ask "request" (Value.stringsEntries payload) s = (.error e, t) →
      h.walkEntries "" payload {} s = (.error e, t)) ∧
    (∀ results t, h.ask "request" (Value.stringsEntries payload) s = (.ok results, t) →
      ∃ after, MaskedBy results payload after ∧ h.walkEntries "" payload {} s =
        (.ok (after, { fields := maskedPaths (payloadLeaves payload) results
                       events := maskedEvents results }), t)) := by
  have hends := Value.visitEntries_ends keyPath indexPath h.requestLeaf "" payload {} s
  rw [leavesEntries_of_namedKeys hkeys,
    h.visitLeaves_requestLeaf _ (payloadLeaves_path_ne_empty hkeys), payloadLeaves_snd,
    ← h.walkEntries_eq_visit] at hends
  constructor
  · intro e t hask
    rw [hask] at hends
    generalize h.walkEntries "" payload {} s = walked at hends ⊢
    cases hends with
    | failed => rfl
  · intro results t hask
    rw [hask] at hends
    generalize h.walkEntries "" payload {} s = walked at hends ⊢
    cases hends with
    | done _ _ hplaced =>
      refine ⟨_, ⟨?_, hplaced.2⟩, rfl⟩
      simp only [Value.blank, hplaced.1]

/-- The response walker does the same, and records no events. -/
theorem maskEntries_reference {payload : Dict} (hkeys : NamedKeys payload) (s : σ) :
    (∀ e t, h.ask "response" (Value.stringsEntries payload) s = (.error e, t) →
      h.maskEntries "" payload [] s = (.error e, t)) ∧
    (∀ results t, h.ask "response" (Value.stringsEntries payload) s = (.ok results, t) →
      ∃ after, MaskedBy results payload after ∧ h.maskEntries "" payload [] s =
        (.ok (after, maskedPaths (payloadLeaves payload) results), t)) := by
  have hends := Value.visitEntries_ends keyPath indexPath h.responseLeaf "" payload [] s
  rw [leavesEntries_of_namedKeys hkeys, h.visitLeaves_responseLeaf, payloadLeaves_snd,
    ← h.maskEntries_eq_visit] at hends
  constructor
  · intro e t hask
    rw [hask] at hends
    generalize h.maskEntries "" payload [] s = walked at hends ⊢
    cases hends with
    | failed => rfl
  · intro results t hask
    rw [hask] at hends
    generalize h.maskEntries "" payload [] s = walked at hends ⊢
    cases hends with
    | done _ _ hplaced =>
      refine ⟨_, ⟨?_, hplaced.2⟩, rfl⟩
      simp only [Value.blank, hplaced.1]

theorem ask_length {direction : String} {texts : List String} {results : List MaskingResult}
    {s t : σ} (hask : h.ask direction texts s = (.ok results, t)) :
    results.length = texts.length := by
  induction texts generalizing results s with
  | nil =>
    cases hask
    rfl
  | cons text texts ih =>
    rcases hengine : h.engine text h.config.entities direction s with ⟨e | result, u⟩
    · simp [ask, hengine] at hask
    · rcases hrest : h.ask direction texts u with ⟨e | results', u'⟩
      · simp [ask, hengine, hrest] at hask
      · simp only [ask, hengine, hrest, Prod.mk.injEq, Except.ok.injEq] at hask
        obtain ⟨rfl, rfl⟩ := hask
        rw [List.length_cons, List.length_cons, ih hrest]

/-- The first leaf at which the engine raises decides how the calls end. -/
theorem ask_of_raise {direction text : String} {before after : List String} {e : Exc} {s t u : σ}
    {results : List MaskingResult} (hbefore : h.ask direction before s = (.ok results, t))
    (hraise : h.engine text h.config.entities direction t = (.error e, u)) :
    h.ask direction (before ++ text :: after) s = (.error e, u) := by
  induction before generalizing results s with
  | nil =>
    cases hbefore
    simp only [List.nil_append, ask, hraise]
  | cons first before ih =>
    rcases hengine : h.engine first h.config.entities direction s with ⟨e | result, s'⟩
    · simp [ask, hengine] at hbefore
    · rcases hrest : h.ask direction before s' with ⟨e | results', s''⟩
      · simp [ask, hengine, hrest] at hbefore
      · simp only [ask, hengine, hrest, Prod.mk.injEq, Except.ok.injEq] at hbefore
        rw [hbefore.2] at hrest
        simp only [List.cons_append, ask, hengine, ih hrest]

end AsyncMaskingHook

theorem replaced_of_maskedPaths {leaves : List (String × String)} {results : List MaskingResult}
    (hlength : results.length = leaves.length) (hnone : maskedPaths leaves results = []) :
    List.zipWith replaced (leaves.map (·.2)) results = leaves.map (·.2) := by
  induction leaves generalizing results with
  | nil => rfl
  | cons l leaves ih =>
    cases results with
    | nil => simp at hlength
    | cons result results =>
      cases hmasked : result.hasMasked with
      | true => simp [maskedPaths, hmasked] at hnone
      | false =>
        have hrest : maskedPaths leaves results = [] := by
          simpa [maskedPaths, hmasked] using hnone
        simp only [List.length_cons, Nat.add_right_cancel_iff] at hlength
        simp [replaced, hmasked, ih hlength hrest]

/-- Where the engine masks nothing the payload is what it was. -/
theorem MaskedBy.eq_of_maskedPaths {results : List MaskingResult} {payload after : Dict}
    (h : MaskedBy results payload after)
    (hlength : results.length = (Value.stringsEntries payload).length)
    (hnone : maskedPaths (payloadLeaves payload) results = []) : after = payload := by
  have hlength' : results.length = (payloadLeaves payload).length := by
    rw [hlength, ← payloadLeaves_snd, List.length_map]
  have hsame := replaced_of_maskedPaths hlength' hnone
  rw [payloadLeaves_snd] at hsame
  have hself : Value.Refilled (.dict payload) (Value.stringsEntries payload) (.dict payload) :=
    ⟨rfl, rfl⟩
  unfold MaskedBy at h
  rw [hsame] at h
  exact Value.dict.inj (h.unique hself)

/-- What `on_pre_masking` makes of a context when it returns: the request side only. -/
structure RequestMasked (ctx ctx' : HookContext) (after : Dict) (fields : List String)
    (events : List MaskingEvent) : Prop where
  requestPayload : ctx'.requestPayload = after
  eq_evolve : ctx' = { ctx with
    requestPayload := ctx'.requestPayload
    maskingApplied := ctx'.maskingApplied
    maskedFields := ctx'.maskedFields
    maskingEvents := ctx'.maskingEvents
    maskingStageCompleted := true }
  recorded : fields ≠ [] →
    ctx'.maskingApplied = true ∧ ctx'.maskedFields = fields ∧ ctx'.maskingEvents = events
  unmasked : fields = [] → ctx' = { ctx with maskingStageCompleted := true }

/-- What `on_post_masking` makes of a context when it returns: the response side only. -/
structure ResponseMasked (ctx ctx' : HookContext) (after : Dict) (fields : List String) :
    Prop where
  responsePayload : ctx'.responsePayload = after
  eq_evolve : ctx' = { ctx with
    responsePayload := ctx'.responsePayload
    outputMaskingApplied := ctx'.outputMaskingApplied
    outputMaskedFields := ctx'.outputMaskedFields
    maskingStageCompleted := true }
  recorded : fields ≠ [] → ctx'.outputMaskingApplied = true ∧ ctx'.outputMaskedFields = fields
  unmasked : fields = [] → ctx' = { ctx with maskingStageCompleted := true }

namespace AsyncMaskingHook

variable (h : AsyncMaskingHook σ)

/-- An enabled hook walks every payload; the walk of an empty one changes nothing. -/
theorem onPreMasking_of_enabled (he : h.config.enabled = true) (ctx : HookContext) (s : σ) :
    h.onPreMasking ctx s =
      match h.walkEntries "" ctx.requestPayload {} s with
      | (.error e, s) => (.error (failClosed "Masking failure" e), s)
      | (.ok (payload, acc), s) =>
        if acc.fields.isEmpty then (.ok { ctx with maskingStageCompleted := true }, s)
        else
          (.ok { ctx with
            requestPayload := payload
            maskingApplied := true
            maskedFields := acc.fields
            maskingEvents := acc.events
            maskingStageCompleted := true }, s) := by
  unfold onPreMasking
  rw [he]
  cases hpayload : ctx.requestPayload with
  | nil => rfl
  | cons e entries =>
    rcases h.walkEntries "" (e :: entries) {} s with ⟨e | ⟨payload, acc⟩, t⟩
    · rfl
    · cases hfields : acc.fields.isEmpty <;> simp [hfields]

theorem onPostMasking_of_enabled (he : h.config.enabled = true) (ctx : HookContext) (s : σ) :
    h.onPostMasking ctx s =
      match h.maskEntries "" ctx.responsePayload [] s with
      | (.error e, s) => (.error (failClosed "Output masking failed" e), s)
      | (.ok (payload, fields), s) =>
        if fields.isEmpty then (.ok { ctx with maskingStageCompleted := true }, s)
        else
          (.ok { ctx with
            responsePayload := payload
            outputMaskingApplied := true
            outputMaskedFields := fields
            maskingStageCompleted := true }, s) := by
  unfold onPostMasking
  rw [he]
  cases hpayload : ctx.responsePayload with
  | nil => rfl
  | cons e entries =>
    rcases h.maskEntries "" (e :: entries) [] s with ⟨e | ⟨payload, fields⟩, t⟩
    · rfl
    · cases hfields : fields.isEmpty <;> simp [hfields]

theorem onPreMasking_reference (he : h.config.enabled = true) {ctx : HookContext}
    (hkeys : NamedKeys ctx.requestPayload) (s : σ) :
    (∀ e t, h.ask "request" (Value.stringsEntries ctx.requestPayload) s = (.error e, t) →
      h.onPreMasking ctx s = (.error (failClosed "Masking failure" e), t)) ∧
    (∀ results t, h.ask "request" (Value.stringsEntries ctx.requestPayload) s = (.ok results, t) →
      ∃ ctx' after, h.onPreMasking ctx s = (.ok ctx', t) ∧
        MaskedBy results ctx.requestPayload after ∧
        RequestMasked ctx ctx' after (maskedPaths (payloadLeaves ctx.requestPayload) results)
          (maskedEvents results)) := by
  obtain ⟨hfails, hreturns⟩ := h.walkEntries_reference hkeys s
  constructor
  · intro e t hask
    simp [h.onPreMasking_of_enabled he, hfails e t hask]
  · intro results t hask
    obtain ⟨after, hmasked, hwalk⟩ := hreturns results t hask
    by_cases hfields : maskedPaths (payloadLeaves ctx.requestPayload) results = []
    · have hsame := hmasked.eq_of_maskedPaths (h.ask_length hask) hfields
      refine ⟨{ ctx with maskingStageCompleted := true }, after, ?_, hmasked, hsame.symm, rfl,
        fun hne => absurd hfields hne, fun _ => rfl⟩
      simp [h.onPreMasking_of_enabled he, hwalk, hfields]
    · let ctx' : HookContext := { ctx with
        requestPayload := after
        maskingApplied := true
        maskedFields := maskedPaths (payloadLeaves ctx.requestPayload) results
        maskingEvents := maskedEvents results
        maskingStageCompleted := true }
      refine ⟨ctx', after, ?_, hmasked, rfl, rfl, fun _ => ⟨rfl, rfl, rfl⟩,
        fun hnone => absurd hnone hfields⟩
      simp [h.onPreMasking_of_enabled he, hwalk, hfields, ctx']

theorem onPostMasking_reference (he : h.config.enabled = true) {ctx : HookContext}
    (hkeys : NamedKeys ctx.responsePayload) (s : σ) :
    (∀ e t, h.ask "response" (Value.stringsEntries ctx.responsePayload) s = (.error e, t) →
      h.onPostMasking ctx s = (.error (failClosed "Output masking failed" e), t)) ∧
    (∀ results t, h.ask "response" (Value.stringsEntries ctx.responsePayload) s = (.ok results, t) →
      ∃ ctx' after, h.onPostMasking ctx s = (.ok ctx', t) ∧
        MaskedBy results ctx.responsePayload after ∧
        ResponseMasked ctx ctx' after
          (maskedPaths (payloadLeaves ctx.responsePayload) results)) := by
  obtain ⟨hfails, hreturns⟩ := h.maskEntries_reference hkeys s
  constructor
  · intro e t hask
    simp [h.onPostMasking_of_enabled he, hfails e t hask]
  · intro results t hask
    obtain ⟨after, hmasked, hwalk⟩ := hreturns results t hask
    by_cases hfields : maskedPaths (payloadLeaves ctx.responsePayload) results = []
    · have hsame := hmasked.eq_of_maskedPaths (h.ask_length hask) hfields
      refine ⟨{ ctx with maskingStageCompleted := true }, after, ?_, hmasked, hsame.symm, rfl,
        fun hne => absurd hfields hne, fun _ => rfl⟩
      simp [h.onPostMasking_of_enabled he, hwalk, hfields]
    · let ctx' : HookContext := { ctx with
        responsePayload := after
        outputMaskingApplied := true
        outputMaskedFields := maskedPaths (payloadLeaves ctx.responsePayload) results
        maskingStageCompleted := true }
      refine ⟨ctx', after, ?_, hmasked, rfl, rfl, fun _ => ⟨rfl, rfl⟩,
        fun hnone => absurd hnone hfields⟩
      simp [h.onPostMasking_of_enabled he, hwalk, hfields, ctx']

/-- Both walkers are the map of the engine's answers over the string leaves, and record the
paths of those that it masked. The hook changes its own side of the context only, and a masking
failure at a leaf makes it deny without a context. -/
theorem masking_reference {payload : Dict} (hkeys : NamedKeys payload) (s : σ) :
    (∀ results t, h.ask "request" (Value.stringsEntries payload) s = (.ok results, t) →
      ∃ after, MaskedBy results payload after ∧ h.walkAndMask "" (.dict payload) {} s =
        (.ok (.dict after, { fields := maskedPaths (payloadLeaves payload) results
                             events := maskedEvents results }), t)) ∧
    (∀ results t, h.ask "response" (Value.stringsEntries payload) s = (.ok results, t) →
      ∃ after, MaskedBy results payload after ∧ h.maskRecursive "" (.dict payload) [] s =
        (.ok (.dict after, maskedPaths (payloadLeaves payload) results), t)) ∧
    (∀ e t, h.ask "request" (Value.stringsEntries payload) s = (.error e, t) →
      h.walkAndMask "" (.dict payload) {} s = (.error e, t)) ∧
    (∀ e t, h.ask "response" (Value.stringsEntries payload) s = (.error e, t) →
      h.maskRecursive "" (.dict payload) [] s = (.error e, t)) ∧
    (h.config.enabled = true → ∀ ctx : HookContext,
      (ctx.requestPayload = payload →
        (∀ results t, h.ask "request" (Value.stringsEntries payload) s = (.ok results, t) →
          ∃ ctx' after, h.onPreMasking ctx s = (.ok ctx', t) ∧ MaskedBy results payload after ∧
            RequestMasked ctx ctx' after (maskedPaths (payloadLeaves payload) results)
              (maskedEvents results)) ∧
        (∀ before text after results m engine t u,
          Value.stringsEntries payload = before ++ text :: after →
          h.ask "request" before s = (.ok results, t) →
          h.engine text h.config.entities "request" t = (.error (.maskingEngine m engine), u) →
          h.onPreMasking ctx s =
            (.error (.shortCircuit (.str ("Masking failure: " ++ m)) true), u))) ∧
      (ctx.responsePayload = payload →
        (∀ results t, h.ask "response" (Value.stringsEntries payload) s = (.ok results, t) →
          ∃ ctx' after, h.onPostMasking ctx s = (.ok ctx', t) ∧ MaskedBy results payload after ∧
            ResponseMasked ctx ctx' after (maskedPaths (payloadLeaves payload) results)) ∧
        (∀ before text after results m engine t u,
          Value.stringsEntries payload = before ++ text :: after →
          h.ask "response" before s = (.ok results, t) →
          h.engine text h.config.entities "response" t = (.error (.maskingEngine m engine), u) →
          h.onPostMasking ctx s =
            (.error (.shortCircuit (.str ("Output masking failed: " ++ m)) true), u)))) := by
  obtain ⟨hwalkFails, hwalk⟩ := h.walkEntries_reference hkeys s
  obtain ⟨hmaskFails, hmask⟩ := h.maskEntries_reference hkeys s
  refine ⟨?_, ?_, ?_, ?_, fun he ctx => ⟨?_, ?_⟩⟩
  · intro results t hask
    obtain ⟨after, hmasked, hrun⟩ := hwalk results t hask
    exact ⟨after, hmasked, by rw [walkAndMask, hrun]⟩
  · intro results t hask
    obtain ⟨after, hmasked, hrun⟩ := hmask results t hask
    exact ⟨after, hmasked, by rw [maskRecursive, hrun]⟩
  · intro e t hask
    rw [walkAndMask, hwalkFails e t hask]
  · intro e t hask
    rw [maskRecursive, hmaskFails e t hask]
  · rintro rfl
    obtain ⟨hfails, hreturns⟩ := h.onPreMasking_reference he hkeys s
    refine ⟨hreturns, ?_⟩
    intro before text after results m engine t u hsplit hbefore hraise
    have hask : h.ask "request" (before ++ text :: after) s =
        (.error (.maskingEngine m engine), u) :=
      h.ask_of_raise hbefore hraise
    rw [← hsplit] at hask
    exact hfails _ u hask
  · rintro rfl
    obtain ⟨hfails, hreturns⟩ := h.onPostMasking_reference he hkeys s
    refine ⟨hreturns, ?_⟩
    intro before text after results m engine t u hsplit hbefore hraise
    have hask : h.ask "response" (before ++ text :: after) s =
        (.error (.maskingEngine m engine), u) :=
      h.ask_of_raise hbefore hraise
    rw [← hsplit] at hask
    exact hfails _ u hask

/-- An engine that masks its first text only: it counts its calls. -/
def firstOnlyHook : AsyncMaskingHook ℕ where
  engine _ _ _ calls :=
    (.ok { maskedText := "***", events := [⟨"SECRET", 1, "masked"⟩], hasMasked := calls = 0 },
      calls + 1)
  config := { enabled := true }

theorem masking_reference_firstOnly :
    ∃ after,
      MaskedBy [{ maskedText := "***", events := [⟨"SECRET", 1, "masked"⟩], hasMasked := true },
          { maskedText := "***", events := [⟨"SECRET", 1, "masked"⟩], hasMasked := false }]
        [(.str "to", .list [.str "ann", .str "bob"])] after ∧
      firstOnlyHook.walkAndMask "" (.dict [(.str "to", .list [.str "ann", .str "bob"])]) {} 0 =
        (.ok (.dict after, { fields := ["to[0]"], events := [⟨"SECRET", 1, "masked"⟩] }), 2) :=
  (firstOnlyHook.masking_reference (by simp [NamedKeys]) 0).1 _ _ rfl

end AsyncMaskingHook

namespace MaskingHook

/-- An engine without a state is one that leaves every state as it is. -/
def async (h : MaskingHook) : AsyncMaskingHook σ where
  engine text entities direction s := (h.engine text entities direction, s)
  config := h.config

variable (h : MaskingHook)

mutual

theorem walkAndMask_async (path : String) (v : Value) (acc : Masked) (s : σ) :
    h.async.walkAndMask path v acc s = (h.walkAndMask path v acc, s) := by
  match v with
  | .str text =>
    rcases hask : h.engine text h.config.entities "request" with e | result
    · simp [AsyncMaskingHook.walkAndMask, walkAndMask, async, hask, bind, Except.bind]
    · cases hmasked : result.hasMasked <;>
        simp [AsyncMaskingHook.walkAndMask, walkAndMask, async, hask, hmasked, bind, Except.bind,
          pure, Except.pure]
  | .scalar .none | .scalar (.bool _) | .scalar (.int _) | .scalar (.float _)
  | .bytes _ | .scalar (.other _ _) | .group _ _ => rfl
  | .list items =>
    simp only [AsyncMaskingHook.walkAndMask, walkAndMask, walkItems_async path 0 items]
    rcases h.walkItems path 0 items acc with _ | _ <;> rfl
  | .dict entries =>
    simp only [AsyncMaskingHook.walkAndMask, walkAndMask, walkEntries_async path entries]
    rcases h.walkEntries path entries acc with _ | _ <;> rfl

theorem walkItems_async (path : String) (i : ℕ) (items : List Value) (acc : Masked) (s : σ) :
    h.async.walkItems path i items acc s = (h.walkItems path i items acc, s) := by
  match items with
  | [] => rfl
  | item :: rest =>
    simp only [AsyncMaskingHook.walkItems, walkItems, walkAndMask_async (indexPath path i) item,
      walkItems_async path (i + 1) rest]
    rcases h.walkAndMask (indexPath path i) item acc with e | ⟨item', acc'⟩
    · rfl
    · simp only [bind, Except.bind]
      rcases h.walkItems path (i + 1) rest acc' with _ | _ <;> rfl

theorem walkEntries_async (path : String) (entries : Dict) (acc : Masked) (s : σ) :
    h.async.walkEntries path entries acc s = (h.walkEntries path entries acc, s) := by
  match entries with
  | [] => rfl
  | (key, value) :: rest =>
    simp only [AsyncMaskingHook.walkEntries, walkEntries,
      walkAndMask_async (keyPath path key) value, walkEntries_async path rest]
    rcases h.walkAndMask (keyPath path key) value acc with e | ⟨value', acc'⟩
    · rfl
    · simp only [bind, Except.bind]
      rcases h.walkEntries path rest acc' with _ | _ <;> rfl

end

mutual

theorem maskRecursive_async (path : String) (v : Value) (fields : List String) (s : σ) :
    h.async.maskRecursive path v fields s = (h.maskRecursive path v fields, s) := by
  match v with
  | .str text =>
    rcases hask : h.engine text h.config.entities "response" with e | result
    · simp [AsyncMaskingHook.maskRecursive, maskRecursive, async, hask, bind, Except.bind]
    · cases hmasked : result.hasMasked <;>
        simp [AsyncMaskingHook.maskRecursive, maskRecursive, async, hask, hmasked, bind,
          Except.bind, pure, Except.pure]
  | .scalar .none | .scalar (.bool _) | .scalar (.int _) | .scalar (.float _)
  | .bytes _ | .scalar (.other _ _) | .group _ _ => rfl
  | .list items =>
    simp only [AsyncMaskingHook.maskRecursive, maskRecursive, maskItems_async path 0 items]
    rcases h.maskItems path 0 items fields with _ | _ <;> rfl
  | .dict entries =>
    simp only [AsyncMaskingHook.maskRecursive, maskRecursive, maskEntries_async path entries]
    rcases h.maskEntries path entries fields with _ | _ <;> rfl

theorem maskItems_async (path : String) (i : ℕ) (items : List Value) (fields : List String)
    (s : σ) : h.async.maskItems path i items fields s = (h.maskItems path i items fields, s) := by
  match items with
  | [] => rfl
  | item :: rest =>
    simp only [AsyncMaskingHook.maskItems, maskItems, maskRecursive_async (indexPath path i) item,
      maskItems_async path (i + 1) rest]
    rcases h.maskRecursive (indexPath path i) item fields with e | ⟨item', fields'⟩
    · rfl
    · simp only [bind, Except.bind]
      rcases h.maskItems path (i + 1) rest fields' with _ | _ <;> rfl

theorem maskEntries_async (path : String) (entries : Dict) (fields : List String) (s : σ) :
    h.async.maskEntries path entries fields s = (h.maskEntries path entries fields, s) := by
  match entries with
  | [] => rfl
  | (key, value) :: rest =>
    simp only [AsyncMaskingHook.maskEntries, maskEntries,
      maskRecursive_async (keyPath path key) value, maskEntries_async path rest]
    rcases h.maskRecursive (keyPath path key) value fields with e | ⟨value', fields'⟩
    · rfl
    · simp only [bind, Except.bind]
      rcases h.maskEntries path rest fields' with _ | _ <;> rfl

end

theorem onPreMasking_async (ctx : HookContext) (s : σ) :
    h.async.onPreMasking ctx s = (h.onPreMasking ctx, s) := by
  have hconfig : (h.async : AsyncMaskingHook σ).config = h.config := rfl
  simp only [AsyncMaskingHook.onPreMasking, onPreMasking, walkEntries_async, hconfig]
  rcases h.walkEntries "" ctx.requestPayload {} with e | ⟨payload, acc⟩
  · cases h.config.enabled <;> cases ctx.requestPayload.isEmpty <;> rfl
  · cases h.config.enabled <;> cases ctx.requestPayload.isEmpty <;> try rfl
    cases hfields : acc.fields.isEmpty <;> simp [hfields]

theorem onPostMasking_async (ctx : HookContext) (s : σ) :
    h.async.onPostMasking ctx s = (h.onPostMasking ctx, s) := by
  have hconfig : (h.async : AsyncMaskingHook σ).config = h.config := rfl
  simp only [AsyncMaskingHook.onPostMasking, onPostMasking, maskEntries_async, hconfig]
  rcases h.maskEntries "" ctx.responsePayload [] with e | ⟨payload, fields⟩
  · cases h.config.enabled <;> cases ctx.responsePayload.isEmpty <;> rfl
  · cases h.config.enabled <;> cases ctx.responsePayload.isEmpty <;> try rfl
    cases hfields : fields.isEmpty <;> simp [hfields]

end MaskingHook

end McpZero.Masking
