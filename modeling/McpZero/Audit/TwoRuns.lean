import McpZero.Audit.Observers
import McpZero.Governance.Hook
import McpZero.Identity.Hook
import McpZero.Masking.Hook
import McpZero.Plugins.OutputFilter
import McpZero.Plugins.Refusal
import McpZero.Proxy.Simulation

/-! Two runs of a pipeline of the shipped hooks, on contexts that differ in the request payload.
As long as the hooks decide alike the contexts stay alike, and where a hook raises, its exceptions
are equal exactly when it takes over the same from the two requests. -/
namespace McpZero.Audit
open Python Pipeline Identity Governance Masking Plugins

variable {η σ : Type}

/-- The context of another run: what differs is the request payload, the correlation id and the
start. -/
def varied (id : String) (payload : Dict) (start : ℚ) (ctx : HookContext) : HookContext :=
  { ctx with
    request := { ctx.request with correlationId := id }
    requestPayload := payload
    startedAt := start }

def Alike (c c' : HookContext) : Prop := ∃ id payload start, c' = varied id payload start c

/-- What a context says of the masking. -/
structure MaskingMetadata where
  applied : Bool
  fields : List String
  events : List MaskingEvent
  outputApplied : Bool
  outputFields : List String
  stageCompleted : Bool
  deriving DecidableEq

def maskingMetadata (ctx : HookContext) : MaskingMetadata where
  applied := ctx.maskingApplied
  fields := ctx.maskedFields
  events := ctx.maskingEvents
  outputApplied := ctx.outputMaskingApplied
  outputFields := ctx.outputMaskedFields
  stageCompleted := ctx.maskingStageCompleted

/-- What a hook decides: it lets the request pass, with some masking, or it raises an exception
that denies the request or not. -/
inductive Decision
  | returned (masking : MaskingMetadata)
  | raised (denies : Bool)
  deriving DecidableEq

def decisionOf : Except Exc HookContext → Decision
  | .ok ctx => .returned (maskingMetadata ctx)
  | .error e => .raised e.denies

/-- The shipped hooks that act on a request. -/
inductive Acting (σ : Type)
  | identity (h : IdentityHook σ)
  | governance (h : GovernanceHook)
  | repoFilter (h : GitHubRepoFilterHook) (floats : Json.FloatReader)
  | masking (h : MaskingHook)

/-- A place in a pipeline of shipped hooks. -/
inductive Shipped (σ : Type)
  | acting (h : Acting σ)
  | analytics
  | audit

def Acting.toHook : Acting σ → LifecycleHook σ
  | identity h => h.toHook
  | governance h => h.toHook
  | repoFilter h floats => h.toHook floats
  | masking h => h.toHook

def Shipped.member : Shipped σ → Member σ
  | acting h => .hook h.toHook
  | analytics => .analytics
  | audit => .audit

/-- What the masking hook raises for the first text of the request that the engine fails on. -/
def engineRefusal (h : MaskingHook) (ctx : HookContext) : Option Exc :=
  if !h.config.enabled then none
  else
    match h.walkEntries "" ctx.requestPayload {} with
    | .ok _ => none
    | .error e => some (MaskingHook.failClosed "Masking failure" e)

/-- What the hook takes over from the request into its exception: the name of the refused
repository, and the class and the argument of what comes from the masking engine. -/
def Acting.quotes : Acting σ → HookPoint → HookContext → List Value
  | repoFilter h _, .postValidation, ctx => (h.refusedRepo ctx).toList.map .str
  | masking h, .preMasking, ctx =>
    match engineRefusal h ctx with
    | some e =>
      [.str (typeName (Pipeline.raised (h.toHook : LifecycleHook σ) .preMasking e)), e.argument]
    | none => []
  | _, _, _ => []

def Shipped.quotes : Shipped σ → HookPoint → HookContext → List Value
  | acting h => h.quotes
  | _ => fun _ _ => []

/-- The calls of hooks at the points, in the order of a run. -/
def calls (places : List (Shipped σ)) (ps : List HookPoint) : List (HookPoint × Shipped σ) :=
  ps.flatMap fun p => places.map (p, ·)

/-- The answers of a hook to two contexts that are alike. -/
inductive SameAnswer (hook : LifecycleHook σ) (p : HookPoint) (quoted quoted' : List Value) :
    Except Exc HookContext → Except Exc HookContext → Prop
  | returned {d d' : HookContext} : Alike d d' → SameAnswer hook p quoted quoted' (.ok d) (.ok d')
  | raised {e e' : Exc} : e.denies = e'.denies →
      (Pipeline.raised hook p e = Pipeline.raised hook p e' ↔ quoted = quoted') →
      SameAnswer hook p quoted quoted' (.error e) (.error e')

theorem alike_varied (id : String) (payload : Dict) (start : ℚ) (ctx : HookContext) :
    Alike ctx (varied id payload start ctx) := ⟨id, payload, start, rfl⟩

section
variable {hook : LifecycleHook σ} {p : HookPoint}

/-- A hook that does not read what differs. -/
theorem sameAnswer_of_map {id : String} {payload : Dict} {start : ℚ}
    {r r' : Except Exc HookContext} (hr : r' = r.map (varied id payload start)) :
    SameAnswer hook p [] [] r r' := by
  subst hr
  cases r with
  | ok d => exact .returned (alike_varied id payload start d)
  | error e => exact .raised rfl (by simp)

/-- What leaves a point tells the exceptions apart by their class and argument. -/
theorem raised_eq_iff {e e' : Exc} (hdenies : e.denies = e'.denies) :
    Pipeline.raised hook p e = Pipeline.raised hook p e' ↔
      [.str (typeName (Pipeline.raised hook p e)), e.argument] =
        [.str (typeName (Pipeline.raised hook p e')), e'.argument] := by
  simp only [List.cons.injEq, and_true, Value.scalar.injEq, Scalar.str.injEq]
  cases e <;> cases e' <;>
    simp_all [Pipeline.raised, typeName, Exc.message, Exc.argument, Exc.denies]

end

theorem governance_varied (h : GovernanceHook) (id : String) (payload : Dict) (start : ℚ)
    (ctx : HookContext) : h.onPostValidation (varied id payload start ctx) =
      (h.onPostValidation ctx).map (varied id payload start) := by
  have hinput : GovernanceHook.policyInput (varied id payload start ctx) =
      GovernanceHook.policyInput ctx := rfl
  unfold GovernanceHook.onPostValidation
  rw [hinput]
  by_cases hunknown : (ctx.request.identity.isNone && h.identityRequired) = true
  · simp only [varied, hunknown, if_true]
    rfl
  · simp only [varied, hunknown]
    by_cases hallow : (PolicyEngine.evaluate h.policy (GovernanceHook.policyInput ctx)).effect = .allow
    · simp only [hallow, if_true]
      rfl
    · simp only [hallow, if_false]
      rfl

theorem postMasking_varied (h : MaskingHook) (id : String) (payload : Dict) (start : ℚ)
    (ctx : HookContext) : h.onPostMasking (varied id payload start ctx) =
      (h.onPostMasking ctx).map (varied id payload start) := by
  unfold MaskingHook.onPostMasking
  cases henabled : h.config.enabled with
  | false => rfl
  | true =>
    by_cases hempty : ctx.responsePayload.isEmpty
    · simp only [varied, hempty, Bool.not_true, Bool.false_eq_true, if_false, if_true]
      rfl
    · simp only [varied, hempty, Bool.not_true, Bool.false_eq_true, if_false]
      cases h.maskEntries "" ctx.responsePayload [] with
      | error e => rfl
      | ok masked =>
        obtain ⟨masked, fields⟩ := masked
        cases fields <;> rfl

theorem outputFilter_varied (h : GitHubRepoFilterHook) (floats : Json.FloatReader) (id : String)
    (payload : Dict) (start : ℚ) (ctx : HookContext) :
    h.onPostMasking floats (varied id payload start ctx) =
      (h.onPostMasking floats ctx).map (varied id payload start) := by
  unfold GitHubRepoFilterHook.onPostMasking
  cases hscope : h.inScope ctx.serverName with
  | false =>
    simp only [varied, hscope, Bool.not_false, if_true]
    rfl
  | true =>
    by_cases htool : ctx.toolName ∈ repoAwareTools
    · simp only [varied, hscope, htool, Bool.not_true, Bool.false_eq_true, not_true, if_false]
      cases ctx.responsePayload.getD "content" (.list []) with
      | list content =>
        dsimp only
        cases h.filterContent floats ctx.toolName content [] with
        | error e => rfl
        | ok filtered =>
          cases filtered with
          | content items => cases items <;> rfl
          | replaced message => rfl
      | _ => rfl
    · simp only [varied, hscope, htool, Bool.not_true, Bool.false_eq_true, not_false_iff, if_false,
        if_true]
      rfl

/-- The hook changes the request payload and what tells of the masking. -/
theorem preMasking_ok {h : MaskingHook} {ctx d : HookContext} (hd : h.onPreMasking ctx = .ok d) :
    ∃ payload applied fields events completed, d = { ctx with
      requestPayload := payload
      maskingApplied := applied
      maskedFields := fields
      maskingEvents := events
      maskingStageCompleted := completed } := by
  unfold MaskingHook.onPreMasking at hd
  split at hd
  · cases hd
    exact ⟨_, _, _, _, _, rfl⟩
  · split at hd
    · cases hd
      exact ⟨_, _, _, _, _, rfl⟩
    · split at hd
      · cases hd
      · split at hd <;> cases hd <;> exact ⟨_, _, _, _, _, rfl⟩

theorem preMasking_error {h : MaskingHook} {ctx : HookContext} {e : Exc}
    (he : h.onPreMasking ctx = .error e) : engineRefusal h ctx = some e := by
  unfold MaskingHook.onPreMasking at he
  unfold engineRefusal
  split at he
  · cases he
  · rename_i henabled
    rw [if_neg henabled]
    split at he
    · cases he
    · split at he
      · rename_i hwalk
        cases he
        simp only [hwalk]
      · split at he <;> cases he

theorem alike_of_masked {h : MaskingHook} {c c' d d' : HookContext} (hc : Alike c c')
    (hd : h.onPreMasking c = .ok d) (hd' : h.onPreMasking c' = .ok d')
    (hmetadata : maskingMetadata d = maskingMetadata d') : Alike d d' := by
  obtain ⟨id, payload, start, rfl⟩ := hc
  obtain ⟨masked, applied, fields, events, completed, rfl⟩ := preMasking_ok hd
  obtain ⟨masked', applied', fields', events', completed', rfl⟩ := preMasking_ok hd'
  simp only [maskingMetadata, MaskingMetadata.mk.injEq] at hmetadata
  obtain ⟨rfl, rfl, rfl, -, -, rfl⟩ := hmetadata
  exact ⟨id, masked', start, rfl⟩

/-- The validators of tokens answer alike in the worlds of the two runs. -/
def Acting.ValidatesAlike (R : σ → σ → Prop) : Acting σ → Prop
  | identity h => ∀ token, Proxy.SameAction R (h.validateToken token) (h.validateToken token)
  | _ => True

section
variable {R : σ → σ → Prop}

theorem identity_alike {h : IdentityHook σ}
    (hvalid : ∀ token, Proxy.SameAction R (h.validateToken token) (h.validateToken token))
    {c c' : HookContext} (hc : Alike c c') {s s' : σ} (hR : R s s') :
    SameAnswer (h.toHook) .preValidation [] [] (h.onPreValidation c s).1 (h.onPreValidation c' s').1 ∧
      R (h.onPreValidation c s).2 (h.onPreValidation c' s').2 := by
  obtain ⟨id, payload, start, rfl⟩ := hc
  have htoken : IdentityHook.bearerToken (varied id payload start c) =
      IdentityHook.bearerToken c := rfl
  unfold IdentityHook.onPreValidation
  rw [htoken]
  cases IdentityHook.bearerToken c with
  | error e => exact ⟨.raised rfl (by simp), hR⟩
  | ok token =>
    obtain ⟨hanswer, hworld⟩ := hvalid token s s' hR
    rcases hrun : h.validateToken token s with ⟨r, t⟩
    rcases hrun' : h.validateToken token s' with ⟨r', t'⟩
    rw [hrun, hrun'] at hanswer hworld
    dsimp only at hanswer hworld
    subst hanswer
    simp only [hrun, hrun']
    cases r with
    | error e => exact ⟨.raised rfl (by simp), hworld⟩
    | ok claims => exact ⟨.returned ⟨id, payload, start, rfl⟩, hworld⟩

theorem inputFilter_alike {h : GitHubRepoFilterHook} (floats : Json.FloatReader) {c c' : HookContext}
    (hc : Alike c c') (hdecisions : decisionOf (h.onPostValidation c) =
      decisionOf (h.onPostValidation c')) :
    SameAnswer (h.toHook floats : LifecycleHook σ) .postValidation
      ((h.refusedRepo c).toList.map .str) ((h.refusedRepo c').toList.map .str)
      (h.onPostValidation c) (h.onPostValidation c') := by
  have hraised (repo : String) : raised (h.toHook floats : LifecycleHook σ) .postValidation
      (h.refusal repo) = h.refusal repo := by
    unfold GitHubRepoFilterHook.refusal
    cases h.mode <;> rfl
  have hdenies (repo : String) : (h.refusal repo).denies = true := by
    unfold GitHubRepoFilterHook.refusal
    cases h.mode <;> rfl
  rw [h.onPostValidation_eq, h.onPostValidation_eq] at hdecisions ⊢
  cases hrepo : h.refusedRepo c with
  | none =>
    cases hrepo' : h.refusedRepo c' with
    | none => exact .returned hc
    | some repo' => simp [hrepo, hrepo', decisionOf] at hdecisions
  | some repo =>
    cases hrepo' : h.refusedRepo c' with
    | none => simp [hrepo, hrepo', decisionOf] at hdecisions
    | some repo' =>
      refine .raised (by rw [hdenies, hdenies]) ?_
      rw [hraised, hraised, h.refusal_injective.eq_iff]
      simp

theorem inputMasking_alike {h : MaskingHook} {c c' : HookContext} (hc : Alike c c')
    (hdecisions : decisionOf (h.onPreMasking c) = decisionOf (h.onPreMasking c')) :
    SameAnswer (h.toHook : LifecycleHook σ) .preMasking
      ((Acting.masking h).quotes (σ := σ) .preMasking c)
      ((Acting.masking h).quotes (σ := σ) .preMasking c') (h.onPreMasking c)
      (h.onPreMasking c') := by
  cases hrun : h.onPreMasking c with
  | ok d =>
    cases hrun' : h.onPreMasking c' with
    | ok d' =>
      rw [hrun, hrun'] at hdecisions
      exact .returned (alike_of_masked hc hrun hrun' (Decision.returned.inj hdecisions))
    | error e' =>
      rw [hrun, hrun'] at hdecisions
      cases hdecisions
  | error e =>
    cases hrun' : h.onPreMasking c' with
    | ok d' =>
      rw [hrun, hrun'] at hdecisions
      cases hdecisions
    | error e' =>
      rw [hrun, hrun'] at hdecisions
      have hdenies : e.denies = e'.denies := Decision.raised.inj hdecisions
      refine .raised hdenies ?_
      rw [raised_eq_iff hdenies]
      simp only [Acting.quotes, preMasking_error hrun, preMasking_error hrun']

/-- One call of a hook that acts, in the two runs. -/
theorem Acting.method_alike {m : Acting σ} (hvalid : m.ValidatesAlike R) (p : HookPoint)
    {c c' : HookContext} (hc : Alike c c') {s s' : σ} (hR : R s s')
    (hdecisions : decisionOf (m.toHook.method p c s).1 = decisionOf (m.toHook.method p c' s').1) :
    SameAnswer m.toHook p (m.quotes p c) (m.quotes p c') (m.toHook.method p c s).1
        (m.toHook.method p c' s').1 ∧ R (m.toHook.method p c s).2 (m.toHook.method p c' s').2 := by
  cases m with
  | identity h =>
    cases p with
    | preValidation => exact identity_alike hvalid hc hR
    | _ => exact ⟨.returned hc, hR⟩
  | governance h =>
    cases p with
    | postValidation =>
      obtain ⟨id, payload, start, rfl⟩ := hc
      exact ⟨sameAnswer_of_map (governance_varied h id payload start c), hR⟩
    | _ => exact ⟨.returned hc, hR⟩
  | repoFilter h floats =>
    cases p with
    | postValidation => exact ⟨inputFilter_alike floats hc hdecisions, hR⟩
    | postMasking =>
      obtain ⟨id, payload, start, rfl⟩ := hc
      exact ⟨sameAnswer_of_map (outputFilter_varied h floats id payload start c), hR⟩
    | _ => exact ⟨.returned hc, hR⟩
  | masking h =>
    cases p with
    | preMasking => exact ⟨inputMasking_alike hc hdecisions, hR⟩
    | postMasking =>
      obtain ⟨id, payload, start, rfl⟩ := hc
      exact ⟨sameAnswer_of_map (postMasking_varied h id payload start c), hR⟩
    | _ => exact ⟨.returned hc, hR⟩

end

namespace Observers

variable (o : Observers η σ)

/-- What the hooks decide, call by call, up to the one that raises. -/
def decisions : List (HookPoint × Shipped σ) → HookContext → ObservedWorld η σ → List Decision
  | [], _, _ => []
  | (p, m) :: rest, c, w =>
    match (o.hookAt m.member).method p c w with
    | (.ok d, w) => .returned (maskingMetadata d) :: decisions rest d w
    | (.error e, _) => [.raised e.denies]

/-- What the hook that raises takes over from its context. -/
def quoted : List (HookPoint × Shipped σ) → HookContext → ObservedWorld η σ → List Value
  | [], _, _ => []
  | (p, m) :: rest, c, w =>
    match (o.hookAt m.member).method p c w with
    | (.ok d, w) => quoted rest d w
    | (.error _, _) => m.quotes p c

/-- The hooks of a pipeline of shipped hooks. -/
def shippedHooks (places : List (Shipped σ)) : List (LifecycleHook (ObservedWorld η σ)) :=
  o.hooks (places.map Shipped.member)

/-- How the two runs stand after the same calls: both contexts have been returned, or both runs
have been stopped by the same hook. -/
inductive SameEnd (R : σ → σ → Prop) (rest : List (HookPoint × Shipped σ)) (q q' : List Value) :
    Except Exc HookContext × ObservedWorld η σ → Except Exc HookContext × ObservedWorld η σ → Prop
  | returned {d d' : HookContext} {w w' : ObservedWorld η σ} : Alike d d' → R w.2.2 w'.2.2 →
      o.decisions rest d w = o.decisions rest d' w' → q = o.quoted rest d w →
      q' = o.quoted rest d' w' → SameEnd R rest q q' (.ok d, w) (.ok d', w')
  | raised {hook : LifecycleHook (ObservedWorld η σ)} {p : HookPoint} {e e' : Exc}
      {w w' : ObservedWorld η σ} : e.denies = e'.denies →
      (Pipeline.raised hook p e = Pipeline.raised hook p e' ↔ q = q') →
      SameEnd R rest q q' (.error (Pipeline.raised hook p e), w) (.error (Pipeline.raised hook p e'), w')

variable {R : σ → σ → Prop}

/-- One call before the audit, in the two runs. -/
theorem method_alike {m : Shipped σ} (hvalid : ∀ h, m = .acting h → h.ValidatesAlike R) {p : HookPoint}
    (hp : p ≠ .preAudit) {c c' : HookContext} (hc : Alike c c') {w w' : ObservedWorld η σ}
    (hR : R w.2.2 w'.2.2) (hdecisions : decisionOf ((o.hookAt m.member).method p c w).1 =
      decisionOf ((o.hookAt m.member).method p c' w').1) :
    SameAnswer (o.hookAt m.member) p (m.quotes p c) (m.quotes p c')
        ((o.hookAt m.member).method p c w).1 ((o.hookAt m.member).method p c' w').1 ∧
      R ((o.hookAt m.member).method p c w).2.2.2 ((o.hookAt m.member).method p c' w').2.2.2 := by
  cases m with
  | analytics =>
    have hidle : (o.hookAt (Shipped.member .analytics)).method p c w = (.ok c, w) :=
      o.analytics.observes.idle p c w hp
    have hidle' : (o.hookAt (Shipped.member .analytics)).method p c' w' = (.ok c', w') :=
      o.analytics.observes.idle p c' w' hp
    rw [hidle, hidle']
    exact ⟨.returned hc, hR⟩
  | audit =>
    have hidle (c : HookContext) (w : ObservedWorld η σ) :
        (o.hookAt (Shipped.member .audit)).method p c w = (.ok c, w) := by
      have h := o.audit.observes.idle p c w.2 hp
      rw [Shipped.member, hookAt, LifecycleHook.beside_method, beside, h]
    rw [hidle, hidle]
    exact ⟨.returned hc, hR⟩
  | acting h =>
    have hstep (c : HookContext) (w : ObservedWorld η σ) :
        (o.hookAt (Shipped.member (.acting h))).method p c w =
          ((h.toHook.method p c w.2.2).1, w.1, w.2.1, (h.toHook.method p c w.2.2).2) := by
      rw [Shipped.member, hookAt, LifecycleHook.beside_method, beside, LifecycleHook.beside_method]
      rfl
    rw [hstep, hstep] at hdecisions ⊢
    obtain ⟨hanswer, hworld⟩ := Acting.method_alike (hvalid h rfl) p hc hR hdecisions
    refine ⟨?_, hworld⟩
    dsimp only
    generalize (h.toHook.method p c w.2.2).1 = r at hanswer ⊢
    generalize (h.toHook.method p c' w'.2.2).1 = r' at hanswer ⊢
    cases hanswer with
    | returned hd => exact .returned hd
    | raised hdenies hquoted =>
      refine .raised hdenies ?_
      have hname (e : Exc) : Pipeline.raised (o.hookAt (Shipped.member (.acting h))) p e =
        Pipeline.raised h.toHook p e := raised_congr rfl p e
      rw [hname, hname]
      exact hquoted

/-- A hook point before the audit, by induction over the hooks. -/
theorem executeHookPoint_alike {places : List (Shipped σ)}
    (hvalid : ∀ h, .acting h ∈ places → Acting.ValidatesAlike R h) {p : HookPoint}
    (hp : p ≠ .preAudit) (rest : List (HookPoint × Shipped σ)) {c c' : HookContext}
    (hc : Alike c c') {w w' : ObservedWorld η σ} (hR : R w.2.2 w'.2.2)
    (hdecisions : o.decisions (places.map (p, ·) ++ rest) c w =
      o.decisions (places.map (p, ·) ++ rest) c' w') (ex ex' : List String) :
    o.SameEnd R rest (o.quoted (places.map (p, ·) ++ rest) c w)
      (o.quoted (places.map (p, ·) ++ rest) c' w')
      ((executeHookPoint p (o.shippedHooks places) c ex w).1.1,
        (executeHookPoint p (o.shippedHooks places) c ex w).2)
      ((executeHookPoint p (o.shippedHooks places) c' ex' w').1.1,
        (executeHookPoint p (o.shippedHooks places) c' ex' w').2) := by
  induction places generalizing c c' w w' ex ex' with
  | nil => exact .returned hc hR hdecisions rfl rfl
  | cons m places ih =>
    have hhead : decisionOf ((o.hookAt m.member).method p c w).1 =
        decisionOf ((o.hookAt m.member).method p c' w').1 := by
      simp only [List.map_cons, List.cons_append, decisions] at hdecisions
      rcases hstep : (o.hookAt m.member).method p c w with ⟨r, t⟩
      rcases hstep' : (o.hookAt m.member).method p c' w' with ⟨r', t'⟩
      rw [hstep, hstep'] at hdecisions
      cases r <;> cases r' <;> exact (List.cons.inj hdecisions).1
    obtain ⟨hanswer, hworld⟩ := o.method_alike
      (fun h hm => hvalid h (hm ▸ List.mem_cons_self)) hp hc hR hhead
    have htail : o.shippedHooks (m :: places) = o.hookAt m.member :: o.shippedHooks places := rfl
    rw [htail]
    rcases hstep : (o.hookAt m.member).method p c w with ⟨r, t⟩
    rcases hstep' : (o.hookAt m.member).method p c' w' with ⟨r', t'⟩
    rw [hstep, hstep'] at hanswer hworld
    dsimp only at hanswer hworld
    simp only [List.map_cons, List.cons_append, decisions, hstep, hstep'] at hdecisions
    simp only [List.map_cons, List.cons_append, quoted, executeHookPoint, hstep, hstep']
    cases hanswer with
    | returned hd =>
      exact ih (fun h hmem => hvalid h (List.mem_cons_of_mem _ hmem)) hd hworld
        (List.cons.inj hdecisions).2 _ _
    | raised hdenies hquoted => exact .raised hdenies hquoted

/-- How the two runs end before the rest of the calls: at the end of the points, or stopped by
the same hook in a point that was entered with contexts that are alike. -/
inductive SameStop (rest : List (HookPoint × Shipped σ)) (q q' : List Value) :
    HookContext × Option Exc × ObservedWorld η σ → HookContext × Option Exc × ObservedWorld η σ →
      Prop
  | completed {d d' : HookContext} {w w' : ObservedWorld η σ} : Alike d d' →
      q = o.quoted rest d w → q' = o.quoted rest d' w' →
      SameStop rest q q' (d, none, w) (d', none, w')
  | stopped {d d' : HookContext} {hook : LifecycleHook (ObservedWorld η σ)} {p : HookPoint}
      {e e' : Exc} {w w' : ObservedWorld η σ} : Alike d d' → e.denies = e'.denies →
      (raised hook p e = raised hook p e' ↔ q = q') →
      SameStop rest q q' (d, some (raised hook p e), w) (d', some (raised hook p e'), w')

/-- The points before the audit, by induction over the points. -/
theorem executePoints_alike {places : List (Shipped σ)}
    (hvalid : ∀ h, .acting h ∈ places → Acting.ValidatesAlike R h) {ps : List HookPoint}
    (hps : .preAudit ∉ ps) (rest : List (HookPoint × Shipped σ)) {c c' : HookContext}
    (hc : Alike c c') {w w' : ObservedWorld η σ} (hR : R w.2.2 w'.2.2)
    (hdecisions : o.decisions (calls places ps ++ rest) c w =
      o.decisions (calls places ps ++ rest) c' w') (ex ex' : List String) :
    o.SameStop rest (o.quoted (calls places ps ++ rest) c w)
      (o.quoted (calls places ps ++ rest) c' w')
      ((executePoints (o.shippedHooks places) ps c ex w).1.1,
        (executePoints (o.shippedHooks places) ps c ex w).1.2.1,
        (executePoints (o.shippedHooks places) ps c ex w).2)
      ((executePoints (o.shippedHooks places) ps c' ex' w').1.1,
        (executePoints (o.shippedHooks places) ps c' ex' w').1.2.1,
        (executePoints (o.shippedHooks places) ps c' ex' w').2) := by
  induction ps generalizing c c' w w' ex ex' with
  | nil => exact .completed hc rfl rfl
  | cons p ps ih =>
    have hcalls : calls places (p :: ps) ++ rest = places.map (p, ·) ++ (calls places ps ++ rest) := by
      simp [calls]
    rw [List.mem_cons, not_or] at hps
    rw [hcalls] at hdecisions ⊢
    have hpoint := o.executeHookPoint_alike hvalid (Ne.symm hps.1) (calls places ps ++ rest) hc hR
      hdecisions ex ex'
    rcases hstep : executeHookPoint p (o.shippedHooks places) c ex w with ⟨⟨r, ex₁⟩, t⟩
    rcases hstep' : executeHookPoint p (o.shippedHooks places) c' ex' w' with ⟨⟨r', ex₁'⟩, t'⟩
    rw [hstep, hstep'] at hpoint
    simp only [executePoints, hstep, hstep']
    generalize o.quoted (places.map (p, ·) ++ (calls places ps ++ rest)) c w = q at hpoint ⊢
    generalize o.quoted (places.map (p, ·) ++ (calls places ps ++ rest)) c' w' = q' at hpoint ⊢
    cases hpoint with
    | returned hd hworld hremaining hq hq' =>
      subst hq hq'
      exact ih hps.2 hd hworld hremaining _ _
    | raised hdenies hquoted => exact .stopped hc hdenies hquoted

end Observers

end McpZero.Audit
