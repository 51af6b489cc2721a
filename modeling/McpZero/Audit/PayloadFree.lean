import McpZero.Audit.TwoRuns
import McpZero.Audit.Attribution

/-! What the audit events of a run tell of the request payload: its size, and what the exception
that stops the run takes over from it. -/
namespace McpZero.Audit
open Python Lib Pipeline Plugins

variable {η σ : Type}

/-- The event without the timestamp, the duration and the correlation id. -/
def AuditEvent.timeless (event : AuditEvent) : AuditEvent :=
  { event with correlationId := "", durationMs := 0, timestamp := "" }

/-- The two runs emit the same events, up to the timestamps, durations and correlation ids. -/
def SameEvents (w w' v v' : ObservedWorld η σ) : Prop :=
  ∃ events events', v.2.1.emitted = w.2.1.emitted ++ events ∧
    v'.2.1.emitted = w'.2.1.emitted ++ events' ∧
    events.map AuditEvent.timeless = events'.map AuditEvent.timeless

/-- The payloads have the same serialized size, where they have one. -/
def SameSize (payload payload' : Dict) : Prop :=
  ∀ n, AuditHook.measureSize payload = .ok n ↔ AuditHook.measureSize payload' = .ok n

/-- The number of places of the audit hook. -/
def auditHooks : List (Shipped σ) → ℕ
  | [] => 0
  | .audit :: places => auditHooks places + 1
  | _ :: places => auditHooks places

theorem auditHooks_pos_iff {places : List (Shipped σ)} :
    0 < auditHooks places ↔ .audit ∈ places := by
  induction places with
  | nil => simp [auditHooks]
  | cons m places ih => cases m <;> simp [auditHooks, ih]

/-- The context with the marks of the failure, if there was one. -/
def marked (ctx : HookContext) (error : Option Exc) : HookContext :=
  error.elim ctx (failedContext ctx)

/-- What an audit hook makes of a run that has got through the points before the audit with the
context, or has been stopped in a point that was entered with the context. -/
def AuditHook.eventsOf (H : AuditHook η σ) (ctx : HookContext) (error : Option Exc) (s : σ) :
    List AuditEvent :=
  match error with
  | none => H.invocationEvents ctx s
  | some e => H.failureEvents (failedContext ctx e) e s

/-- What every audit hook emits of such a run. -/
def ReportedAs (H : AuditHook η σ) (ctx : HookContext) (error : Option Exc)
    (events : List AuditEvent) : Prop :=
  (¬ H.Reportable (marked ctx error) → events = []) ∧
    ∃ s, H.Reportable (marked ctx error) → events = H.eventsOf ctx error s

theorem flatten_replicate_inj {α : Type} {k : ℕ} (hk : 0 < k) {xs ys : List α}
    (h : (List.replicate k xs).flatten = (List.replicate k ys).flatten) : xs = ys := by
  have hlength := congrArg List.length h
  simp only [List.length_flatten, List.map_replicate, List.sum_replicate_nat] at hlength
  obtain ⟨k, rfl⟩ := Nat.exists_eq_add_one.mpr hk
  simp only [List.replicate_succ, List.flatten_cons] at h
  exact List.append_inj_left h (Nat.eq_of_mul_eq_mul_left hk hlength)

theorem reportable_of_sameSize {H : AuditHook η σ} {d d' : HookContext} (hd : Alike d d')
    (hsize : SameSize d.requestPayload d'.requestPayload) (hreport : H.Reportable d) :
    H.Reportable d' := by
  obtain ⟨id, payload, start, rfl⟩ := hd
  obtain ⟨n, m, hn, hm, hwrites⟩ := hreport
  refine ⟨n, m, (hsize n).mp hn, hm, ?_⟩
  rw [AuditHook.writes_iff] at hwrites ⊢
  exact hwrites

theorem sameSize_symm {payload payload' : Dict} (h : SameSize payload payload') :
    SameSize payload' payload := fun n => (h n).symm

theorem alike_symm {c c' : HookContext} (h : Alike c c') : Alike c' c := by
  obtain ⟨id, payload, start, rfl⟩ := h
  exact ⟨c.request.correlationId, c.requestPayload, c.startedAt, rfl⟩

theorem sameSize_iff {payload payload' : Dict} {n n' : ℕ}
    (hn : AuditHook.measureSize payload = .ok n) (hn' : AuditHook.measureSize payload' = .ok n') :
    SameSize payload payload' ↔ n = n' := by
  unfold SameSize
  rw [hn, hn']
  constructor
  · intro h
    exact (Except.ok.inj ((h n).mp rfl)).symm
  · rintro rfl k
    exact Iff.rfl

/-- Of a context an event tells the size of the request payload. -/
theorem timeless_eventOf_iff (id : String) (payload : Dict) (start : ℚ) (ctx : HookContext)
    (t : AuditEventType) (n n' m : ℕ) (d d' : ℚ) (now now' : String) :
    (AuditHook.eventOf ctx t n m d now).timeless =
        (AuditHook.eventOf (varied id payload start ctx) t n' m d' now').timeless ↔ n = n' := by
  constructor
  · intro h
    exact congrArg AuditEvent.requestSizeBytes h
  · rintro rfl
    rfl

theorem failedContext_responsePayload (ctx : HookContext) (e : Exc) :
    (failedContext ctx e).responsePayload = ctx.responsePayload := by
  cases e <;> rfl

theorem failedContext_varied (id : String) (payload : Dict) (start : ℚ) (ctx : HookContext)
    (e : Exc) : failedContext (varied id payload start ctx) e =
      varied id payload start (failedContext ctx e) := by
  cases e <;> rfl

@[simp] theorem marked_requestPayload (ctx : HookContext) (error : Option Exc) :
    (marked ctx error).requestPayload = ctx.requestPayload := by
  cases error with
  | none => rfl
  | some e => exact failedContext_requestPayload ctx e

@[simp] theorem marked_responsePayload (ctx : HookContext) (error : Option Exc) :
    (marked ctx error).responsePayload = ctx.responsePayload := by
  cases error with
  | none => rfl
  | some e => exact failedContext_responsePayload ctx e

section
variable {H : AuditHook η σ} {ctx : HookContext} {n n' m : ℕ} {id : String} {payload : Dict}
  {start : ℚ} (hn : AuditHook.measureSize ctx.requestPayload = .ok n)
  (hn' : AuditHook.measureSize payload = .ok n')
  (hm : AuditHook.measureSize ctx.responsePayload = .ok m) (s s' : σ)
include hn hn' hm

theorem invocationEvents_same_iff :
    (H.invocationEvents ctx s).map AuditEvent.timeless =
        (H.invocationEvents (varied id payload start ctx) s').map AuditEvent.timeless ↔ n = n' := by
  have hbuild := H.buildEvent_of_sizes hn hm
  have hrequest : AuditHook.measureSize (varied id payload start ctx).requestPayload = .ok n' := hn'
  have hresponse : AuditHook.measureSize (varied id payload start ctx).responsePayload = .ok m := hm
  have hbuild' := H.buildEvent_of_sizes hrequest hresponse
  have hmasked : ((varied id payload start ctx).maskingApplied ||
      (varied id payload start ctx).outputMaskingApplied) =
        (ctx.maskingApplied || ctx.outputMaskingApplied) := rfl
  unfold AuditHook.invocationEvents
  simp only [hbuild, hbuild', hmasked]
  split <;> simp only [List.map_cons, List.map_nil, List.cons.injEq, timeless_eventOf_iff, and_true,
    and_self]

/-- Of a failure an event tells the exception too. -/
theorem failureEvents_same_iff {ω : Type} {hook : LifecycleHook ω} {p : HookPoint} {e e' : Exc}
    (hdenies : e.denies = e'.denies) :
    (H.failureEvents (failedContext ctx (raised hook p e)) (raised hook p e) s).map
          AuditEvent.timeless =
        (H.failureEvents (failedContext (varied id payload start ctx) (raised hook p e'))
          (raised hook p e') s').map AuditEvent.timeless ↔
      n = n' ∧ raised hook p e = raised hook p e' := by
  have hsizes (e : Exc) :
      AuditHook.measureSize (failedContext ctx e).requestPayload = .ok n ∧
        AuditHook.measureSize (failedContext ctx e).responsePayload = .ok m := by
    rw [failedContext_requestPayload, failedContext_responsePayload]
    exact ⟨hn, hm⟩
  have hsizes' (e : Exc) :
      AuditHook.measureSize (failedContext (varied id payload start ctx) e).requestPayload = .ok n' ∧
        AuditHook.measureSize (failedContext (varied id payload start ctx) e).responsePayload =
          .ok m := by
    rw [failedContext_requestPayload, failedContext_responsePayload]
    exact ⟨hn', hm⟩
  have hbuild := H.buildEvent_of_sizes (hsizes (raised hook p e)).1 (hsizes _).2
  have hbuild' := H.buildEvent_of_sizes (hsizes' (raised hook p e')).1 (hsizes' _).2
  unfold AuditHook.failureEvents
  simp only [hbuild, hbuild', List.map_cons, List.map_nil, List.cons.injEq, and_true]
  constructor
  · intro h
    have hsize : n = n' := congrArg AuditEvent.requestSizeBytes h
    have htype : typeName (raised hook p e) = typeName (raised hook p e') :=
      congrArg AuditEvent.errorType h
    have hreason : (failedContext ctx (raised hook p e)).shortCircuitReason =
        (failedContext (varied id payload start ctx) (raised hook p e')).shortCircuitReason :=
      congrArg AuditEvent.shortCircuitReason h
    have hmessage : (raised hook p e).message = (raised hook p e').message :=
      congrArg AuditEvent.errorMessage h
    refine ⟨hsize, ?_⟩
    rcases raised_cases hook p e with ⟨reason, deny, rfl, hraised⟩ | hraised
    · rcases raised_cases hook p e' with ⟨reason', deny', rfl, hraised'⟩ | hraised'
      · obtain rfl : deny = deny' := hdenies
        obtain rfl : reason = reason' := hreason
        rfl
      · rw [hraised, hraised'] at htype
        exact absurd htype (by simp [typeName])
    · rcases raised_cases hook p e' with ⟨reason', deny', rfl, hraised'⟩ | hraised'
      · rw [hraised, hraised'] at htype
        exact absurd htype (by simp [typeName])
      · rw [hraised, hraised'] at hmessage ⊢
        exact congrArg (Exc.hook · hook.name p.value) hmessage
  · rintro ⟨rfl, heq⟩
    rw [← heq, failedContext_varied]
    rfl

end

theorem AuditHook.eventsOf_ne_nil {H : AuditHook η σ} {ctx : HookContext} {error : Option Exc}
    (hreport : H.Reportable (marked ctx error)) (s : σ) : H.eventsOf ctx error s ≠ [] := by
  cases error with
  | none =>
    obtain ⟨n, m, hn, hm, -⟩ := hreport
    have hrequest : AuditHook.measureSize ctx.requestPayload = .ok n := hn
    have hbuild := H.buildEvent_of_sizes hrequest hm
    simp only [eventsOf, invocationEvents, hbuild]
    split <;> simp
  | some e =>
    obtain ⟨n, m, hn, hm, -⟩ := hreport
    have hrequest : AuditHook.measureSize (failedContext ctx e).requestPayload = .ok n := hn
    have hbuild := H.buildEvent_of_sizes hrequest hm
    simp [eventsOf, failureEvents, hbuild]

namespace Observers

variable (o : Observers η σ)

theorem method_preAudit_acting (h : Acting σ) (ctx : HookContext) (w : ObservedWorld η σ) :
    (o.hookAt (Shipped.member (.acting h))).method .preAudit ctx w = (.ok ctx, w) := by
  cases h <;> rfl

theorem method_preAudit_analytics {ctx : HookContext}
    (hmeasured : Analytics.AnalyticsHook.Measured ctx) (w : ObservedWorld η σ) :
    (o.hookAt (Shipped.member .analytics)).method .preAudit ctx w =
      (.ok ctx, o.analytics.note ctx w.2 w.1, w.2) :=
  Prod.ext (o.analytics.observes.accepted ctx w hmeasured) (o.analytics.observes.preAudit ctx w)

/-- The audit, by induction over the hooks. The analytics hook accepts every context that can be
reported. -/
theorem preAudit_emitted (places : List (Shipped σ)) {ctx : HookContext}
    (hreport : o.audit.Reportable ctx) (ex : List String) (w : ObservedWorld η σ) :
    (executeHookPoint .preAudit (o.shippedHooks places) ctx ex w).1.1 = .ok ctx ∧
      (executeHookPoint .preAudit (o.shippedHooks places) ctx ex w).2.2.1.emitted =
        w.2.1.emitted ++
          (List.replicate (auditHooks places) (o.audit.invocationEvents ctx w.2.2)).flatten := by
  induction places generalizing ex w with
  | nil => simp [shippedHooks, hooks, executeHookPoint, auditHooks]
  | cons m places ih =>
    have htail : o.shippedHooks (m :: places) = o.hookAt m.member :: o.shippedHooks places := rfl
    rw [htail]
    cases m with
    | acting h =>
      simp only [executeHookPoint, o.method_preAudit_acting]
      exact ih _ w
    | analytics =>
      have hmeasured : Analytics.AnalyticsHook.Measured ctx := by
        obtain ⟨n, m, hn, hm, -⟩ := hreport
        exact Analytics.AnalyticsHook.measured_iff.mpr ⟨n, m, hn, hm⟩
      simp only [executeHookPoint, o.method_preAudit_analytics hmeasured]
      exact ih _ (o.analytics.note ctx w.2 w.1, w.2)
    | audit =>
      have hstep : (o.hookAt (Shipped.member .audit)).method .preAudit ctx w =
          (.ok ctx, w.1, o.audit.note ctx w.2.2 w.2.1, w.2.2) := by
        have haccept := o.audit.observes.accepted ctx w.2 hreport
        have hnote := o.audit.observes.preAudit ctx w.2
        rw [Shipped.member, hookAt, LifecycleHook.beside_method, beside]
        exact Prod.ext haccept (congrArg (Prod.mk w.1) hnote)
      simp only [executeHookPoint, hstep]
      obtain ⟨hresult, hemitted⟩ := ih (ex ++ [(o.hookAt (Shipped.member .audit)).name ++ "." ++
        HookPoint.preAudit.methodName]) (w.1, o.audit.note ctx w.2.2 w.2.1, w.2.2)
      refine ⟨hresult, hemitted.trans ?_⟩
      rw [o.audit.note_emitted_of_reportable hreport, List.append_assoc]
      rfl

/-- An audit that fails emits nothing, and it does not fail by a short circuit. -/
theorem preAudit_silent (places : List (Shipped σ)) {ctx : HookContext}
    (hreport : ¬ o.audit.Reportable ctx) (ex : List String) (w : ObservedWorld η σ) :
    (executeHookPoint .preAudit (o.shippedHooks places) ctx ex w).2.2.1.emitted =
        w.2.1.emitted ∧
      Avoids Exc.IsShortCircuit
        (executeHookPoint .preAudit (o.shippedHooks places) ctx ex w).1.1 := by
  induction places generalizing ex w with
  | nil => exact ⟨rfl, avoids_ok⟩
  | cons m places ih =>
    have htail : o.shippedHooks (m :: places) = o.hookAt m.member :: o.shippedHooks places := rfl
    rw [htail]
    cases m with
    | acting h =>
      simp only [executeHookPoint, o.method_preAudit_acting]
      exact ih _ w
    | analytics =>
      by_cases hmeasured : Analytics.AnalyticsHook.Measured ctx
      · simp only [executeHookPoint, o.method_preAudit_analytics hmeasured]
        exact ih _ (o.analytics.note ctx w.2 w.1, w.2)
      · obtain ⟨e, he⟩ := o.analytics.observes.refused ctx w hmeasured
        have hstep : (o.hookAt (Shipped.member .analytics)).method .preAudit ctx w =
            (.error e, o.analytics.note ctx w.2 w.1, w.2) :=
          Prod.ext he (o.analytics.observes.preAudit ctx w)
        have hplain := o.analytics.onPreAudit_avoids ctx w e he
        simp only [executeHookPoint, hstep]
        exact ⟨trivial, avoids_error.mpr ((raised_isShortCircuit_iff _ _ _).not.mpr hplain)⟩
    | audit =>
      obtain ⟨e, he⟩ := o.audit.observes.refused ctx w.2 hreport
      have hstep : (o.hookAt (Shipped.member .audit)).method .preAudit ctx w =
          (.error e, w.1, o.audit.note ctx w.2.2 w.2.1, w.2.2) := by
        have hnote := o.audit.observes.preAudit ctx w.2
        rw [Shipped.member, hookAt, LifecycleHook.beside_method, beside]
        exact Prod.ext he (congrArg (Prod.mk w.1) hnote)
      have hplain := o.audit.onPreAudit_avoids ctx w.2 e he
      simp only [executeHookPoint, hstep]
      exact ⟨o.audit.note_emitted_of_not_reportable hreport w.2.2 w.2.1,
        avoids_error.mpr ((raised_isShortCircuit_iff _ _ _).not.mpr hplain)⟩

/-- The error hooks, by induction over the hooks still to be called. -/
theorem fireErrorHooks_emitted (places : List (Shipped σ)) (ctx : HookContext) (e : Exc)
    (w : ObservedWorld η σ) {events : List AuditEvent}
    (hreportable : o.audit.Reportable ctx → events = o.audit.failureEvents ctx e w.2.2)
    (hsilent : ¬ o.audit.Reportable ctx → events = []) :
    (fireErrorHooks ctx e (o.shippedHooks places) w).2.1.emitted =
      w.2.1.emitted ++ (List.replicate (auditHooks places) events).flatten := by
  induction places generalizing w with
  | nil => simp [shippedHooks, hooks, fireErrorHooks, auditHooks]
  | cons m places ih =>
    have htail : o.shippedHooks (m :: places) = o.hookAt m.member :: o.shippedHooks places := rfl
    rw [htail, fireErrorHooks]
    cases m with
    | acting h =>
      have hstep : ((o.hookAt (Shipped.member (.acting h))).onError ctx e w).2 = w := by
        cases h <;> rfl
      rw [hstep]
      exact ih w hreportable
    | analytics =>
      have hstep : ((o.hookAt (Shipped.member .analytics)).onError ctx e w).2 =
          (o.analytics.recordFailure ctx e w.1, w.2) := o.analytics.observes.onError ctx e w
      rw [hstep]
      exact ih _ hreportable
    | audit =>
      have hstep : ((o.hookAt (Shipped.member .audit)).onError ctx e w).2 =
          (w.1, o.audit.report ctx e w.2.2 w.2.1, w.2.2) :=
        congrArg (Prod.mk w.1) (o.audit.observes.onError ctx e w.2)
      rw [hstep, ih (w.1, o.audit.report ctx e w.2.2 w.2.1, w.2.2) hreportable]
      have hemitted : (o.audit.report ctx e w.2.2 w.2.1).emitted = w.2.1.emitted ++ events := by
        by_cases hreport : o.audit.Reportable ctx
        · rw [o.audit.report_emitted_of_reportable hreport, hreportable hreport]
        · rw [o.audit.report_emitted_of_not_reportable hreport, hsilent hreport, List.append_nil]
      rw [hemitted, List.append_assoc]
      rfl

/-- The events of a run. -/
theorem execute_emitted (places : List (Shipped σ)) (c : HookContext) (w : ObservedWorld η σ) :
    ∃ events, ReportedAs o.audit
        (executePoints (o.shippedHooks places) pointsBeforeAudit c [] w).1.1
        (executePoints (o.shippedHooks places) pointsBeforeAudit c [] w).1.2.1 events ∧
      (execute (o.shippedHooks places) c w).2.2.1.emitted =
        w.2.1.emitted ++ (List.replicate (auditHooks places) events).flatten := by
  have hsequence : hookSequence = pointsBeforeAudit ++ [.preAudit] := rfl
  have hbefore : (executePoints (o.shippedHooks places) pointsBeforeAudit c [] w).2.2.1.emitted =
      w.2.1.emitted :=
    congrArg Prod.snd (o.history_executePoints (places.map Shipped.member) (by decide) c [] w)
  unfold execute
  rw [hsequence, executePoints_split]
  rcases hpoints : executePoints (o.shippedHooks places) pointsBeforeAudit c [] w with
    ⟨⟨d, err, ex⟩, t⟩
  rw [hpoints] at hbefore
  dsimp only at hbefore ⊢
  rw [← hbefore]
  by_cases hreport : o.audit.Reportable (marked d err)
  · cases err with
    | some e =>
      refine ⟨o.audit.failureEvents (failedContext d e) e t.2.2,
        ⟨absurd hreport, t.2.2, fun _ => rfl⟩, ?_⟩
      exact o.fireErrorHooks_emitted places _ e t (fun _ => rfl) (absurd hreport)
    | none =>
      have hentered : o.audit.Reportable d := hreport
      obtain ⟨hresult, hemitted⟩ := o.preAudit_emitted places hentered ex t
      refine ⟨o.audit.invocationEvents d t.2.2, ⟨absurd hreport, t.2.2, fun _ => rfl⟩, ?_⟩
      rcases hpoint : executeHookPoint .preAudit (o.shippedHooks places) d ex t with ⟨⟨r, ex'⟩, u⟩
      rw [hpoint] at hresult hemitted
      dsimp only at hresult hemitted
      subst hresult
      simpa only [executePoints, hpoint] using hemitted
  · refine ⟨[], ⟨fun _ => rfl, t.2.2, (absurd · hreport)⟩, ?_⟩
    have hsilent (e : Exc) (u : ObservedWorld η σ)
        (hnot : ¬ o.audit.Reportable (failedContext d e)) :
        (fireErrorHooks (failedContext d e) e (o.shippedHooks places) u).2.1.emitted =
          u.2.1.emitted ++ (List.replicate (auditHooks places) []).flatten :=
      o.fireErrorHooks_emitted places (failedContext d e) e u (absurd · hnot) fun _ => rfl
    cases err with
    | some e => exact hsilent e t hreport
    | none =>
      have hentered : ¬ o.audit.Reportable d := hreport
      obtain ⟨hemitted, hplain⟩ := o.preAudit_silent places hentered ex t
      rcases hpoint : executeHookPoint .preAudit (o.shippedHooks places) d ex t with ⟨⟨r, ex'⟩, u⟩
      rw [hpoint] at hemitted hplain
      dsimp only at hemitted hplain
      cases r with
      | ok d' => simp [executePoints, hpoint, hemitted]
      | error e =>
        have hsame := failedContext_of_not_shortCircuit (avoids_error.mp hplain) d
        simp only [executePoints, hpoint]
        rw [hsilent e u (by rwa [hsame]), hemitted]

/-- The hooks decide alike in the two runs. -/
def SameDecisions (places : List (Shipped σ)) (c c' : HookContext) (w w' : ObservedWorld η σ) : Prop :=
  o.decisions (calls places hookSequence) c w = o.decisions (calls places hookSequence) c' w'

/-- The context that the audit hooks report: the one that the last point of the run before the
audit leaves, or that the point of the failure was entered with, marked by the failure. -/
def reported (places : List (Shipped σ)) (c : HookContext) (w : ObservedWorld η σ) : HookContext :=
  marked (executePoints (o.shippedHooks places) pointsBeforeAudit c [] w).1.1
    (executePoints (o.shippedHooks places) pointsBeforeAudit c [] w).1.2.1

theorem quoted_preAudit (places : List (Shipped σ)) (c : HookContext) (w : ObservedWorld η σ) :
    o.quoted (places.map (.preAudit, ·)) c w = [] := by
  induction places generalizing c w with
  | nil => rfl
  | cons m places ih =>
    have hquotes : m.quotes .preAudit c = [] := by
      cases m with
      | acting h => cases h <;> rfl
      | _ => rfl
    rw [List.map_cons, quoted]
    rcases (o.hookAt m.member).method .preAudit c w with ⟨r, t⟩
    cases r with
    | ok d => exact ih d t
    | error e => exact hquotes

/-- Two runs that stop alike, by exceptions that take over the same, are marked alike. -/
theorem alike_marked {rest : List (HookPoint × Shipped σ)} {q q' : List Value}
    {x x' : HookContext × Option Exc × ObservedWorld η σ} (hstop : o.SameStop rest q q' x x')
    (hq : q = q') : Alike (marked x.1 x.2.1) (marked x'.1 x'.2.1) := by
  cases hstop with
  | completed hd => exact hd
  | stopped hd _ hquoted =>
    obtain ⟨id, payload, start, rfl⟩ := hd
    dsimp only
    rw [← hquoted.mpr hq]
    exact ⟨id, payload, start, failedContext_varied id payload start _ _⟩

/-- Two runs that stop alike are reported by the same events exactly when the reported payloads
have the same size and the hook that stops them takes over the same. -/
theorem reportedAs_same_iff {places : List (Shipped σ)} {q q' : List Value}
    {x x' : HookContext × Option Exc × ObservedWorld η σ}
    (hstop : o.SameStop (places.map (.preAudit, ·)) q q' x x') {events events' : List AuditEvent}
    (hevents : ReportedAs o.audit x.1 x.2.1 events)
    (hevents' : ReportedAs o.audit x'.1 x'.2.1 events') :
    events.map AuditEvent.timeless = events'.map AuditEvent.timeless ↔
      (o.audit.Reportable (marked x.1 x.2.1) ∨ o.audit.Reportable (marked x'.1 x'.2.1) →
        SameSize (marked x.1 x.2.1).requestPayload (marked x'.1 x'.2.1).requestPayload ∧
          q = q') := by
  obtain ⟨hsilent, s, htold⟩ := hevents
  obtain ⟨hsilent', s', htold'⟩ := hevents'
  by_cases hreport : o.audit.Reportable (marked x.1 x.2.1)
  · by_cases hreport' : o.audit.Reportable (marked x'.1 x'.2.1)
    · rw [htold hreport, htold' hreport', imp_iff_right (.inl hreport)]
      obtain ⟨n, m, hn, hm, -⟩ := hreport
      obtain ⟨n', -, hn', -⟩ := hreport'
      rw [sameSize_iff hn hn']
      rw [marked_requestPayload] at hn hn'
      rw [marked_responsePayload] at hm
      cases hstop with
      | completed hd hq hq' =>
        obtain ⟨id, payload, start, rfl⟩ := hd
        rw [hq, hq', o.quoted_preAudit, o.quoted_preAudit, and_iff_left rfl]
        exact invocationEvents_same_iff hn hn' hm s s'
      | stopped hd hdenies hquoted =>
        obtain ⟨id, payload, start, rfl⟩ := hd
        rw [← hquoted]
        exact failureEvents_same_iff hn hn' hm s s' hdenies
    · refine iff_of_false ?_ fun h => ?_
      · rw [htold hreport, hsilent' hreport', List.map_nil, List.map_eq_nil_iff]
        exact AuditHook.eventsOf_ne_nil hreport s
      · obtain ⟨hsize, hq⟩ := h (.inl hreport)
        exact hreport' (reportable_of_sameSize (o.alike_marked hstop hq) hsize hreport)
  · by_cases hreport' : o.audit.Reportable (marked x'.1 x'.2.1)
    · refine iff_of_false ?_ fun h => ?_
      · rw [hsilent hreport, htold' hreport', List.map_nil, eq_comm, List.map_eq_nil_iff]
        exact AuditHook.eventsOf_ne_nil hreport' s'
      · obtain ⟨hsize, hq⟩ := h (.inr hreport')
        exact hreport (reportable_of_sameSize (alike_symm (o.alike_marked hstop hq))
          (sameSize_symm hsize) hreport')
    · rw [hsilent hreport, hsilent' hreport']
      simp [hreport, hreport']

/-- The events of two runs of a pipeline of shipped hooks, on contexts that differ in the request
payload and in whose runs the hooks decide alike: they are the same exactly when the payloads that
are measured have the same size and the hook that stops the runs, if there is one, takes over the
same from both. -/
theorem payloadFree_iff {R : σ → σ → Prop} {places : List (Shipped σ)}
    (hvalid : ∀ h, .acting h ∈ places → Acting.ValidatesAlike R h) {c c' : HookContext}
    (hc : Alike c c') {w w' : ObservedWorld η σ} (hR : R w.2.2 w'.2.2)
    (hdecisions : o.SameDecisions places c c' w w') :
    SameEvents w w' (execute (o.shippedHooks places) c w).2
        (execute (o.shippedHooks places) c' w').2 ↔
      (.audit ∈ places →
        o.audit.Reportable (o.reported places c w) ∨ o.audit.Reportable (o.reported places c' w') →
          SameSize (o.reported places c w).requestPayload
            (o.reported places c' w').requestPayload ∧
          o.quoted (calls places hookSequence) c w = o.quoted (calls places hookSequence) c' w') := by
  have hcalls : calls places hookSequence = calls places pointsBeforeAudit ++
      places.map (.preAudit, ·) := by
    simp [calls, hookSequence, pointsBeforeAudit]
  unfold SameDecisions at hdecisions
  rw [hcalls] at hdecisions ⊢
  have hstop := o.executePoints_alike hvalid (by decide) (places.map (.preAudit, ·)) hc hR
    hdecisions [] []
  obtain ⟨events, hevents, hemitted⟩ := o.execute_emitted places c w
  obtain ⟨events', hevents', hemitted'⟩ := o.execute_emitted places c' w'
  have hsame := o.reportedAs_same_iff hstop hevents hevents'
  rw [← auditHooks_pos_iff]
  constructor
  · rintro ⟨new, new', hnew, hnew', htimeless⟩ haudits
    rw [hemitted, List.append_cancel_left_eq] at hnew
    rw [hemitted', List.append_cancel_left_eq] at hnew'
    rw [← hnew, ← hnew', List.map_flatten, List.map_flatten, List.map_replicate,
      List.map_replicate] at htimeless
    exact hsame.mp (flatten_replicate_inj haudits htimeless)
  · intro hcondition
    refine ⟨_, _, hemitted, hemitted', ?_⟩
    rw [List.map_flatten, List.map_flatten, List.map_replicate, List.map_replicate]
    rcases Nat.eq_zero_or_pos (auditHooks places) with hzero | hpos
    · rw [hzero]
      rfl
    · rw [hsame.mpr (hcondition hpos)]

end Observers

/-- The payload with its string leaves emptied. -/
def shape (payload : Dict) : Except Exc Dict := Value.mapEntries (fun _ => .ok "") payload

/-- A request for a repository. -/
def repositoryRequest (repository path : String) : HookContext where
  request := { correlationId := "" }
  serverName := "github"
  toolName := "get_file_contents"
  requestPayload :=
    [(.str "arguments",
      .dict [(.str "repository", .str repository), (.str "path", .str path)])]

/-- The repository filter in front of the audit hook. -/
def filteredPlaces : List (Shipped Unit) := [.acting (.repoFilter approvedApi nanReader), .audit]

/-- Two requests for the same repository. -/
theorem sameRepository_sameEvents :
    SameEvents quietWorld quietWorld
      (execute (plainObservers.shippedHooks filteredPlaces)
        (repositoryRequest "evil/secrets" "a.txt") quietWorld).2
      (execute (plainObservers.shippedHooks filteredPlaces)
        (repositoryRequest "evil/secrets" "b.txt") quietWorld).2 := by
  have hvalid : ∀ h, .acting h ∈ filteredPlaces → h.ValidatesAlike fun _ _ => True := by
    intro h hmem
    simp only [filteredPlaces, List.mem_cons, Shipped.acting.injEq, reduceCtorEq, List.not_mem_nil,
      or_false] at hmem
    rw [hmem]
    trivial
  have hdecisions : plainObservers.SameDecisions filteredPlaces
      (repositoryRequest "evil/secrets" "a.txt") (repositoryRequest "evil/secrets" "b.txt")
      quietWorld quietWorld := by
    unfold Observers.SameDecisions
    decide +kernel
  refine (plainObservers.payloadFree_iff hvalid ⟨_, _, _, rfl⟩ trivial hdecisions).mpr ?_
  intro _ _
  refine ⟨?_, rfl⟩
  exact (sameSize_iff (n := 62) rfl rfl).mpr rfl

/-- Two requests for repositories that are refused: the events name them. -/
theorem refusedRepositories_not_sameEvents :
    Alike (repositoryRequest "evil/secrets" "a.txt") (repositoryRequest "evil/reports" "a.txt") ∧
      shape (repositoryRequest "evil/secrets" "a.txt").requestPayload =
        shape (repositoryRequest "evil/reports" "a.txt").requestPayload ∧
      SameSize (repositoryRequest "evil/secrets" "a.txt").requestPayload
        (repositoryRequest "evil/reports" "a.txt").requestPayload ∧
      plainObservers.SameDecisions filteredPlaces (repositoryRequest "evil/secrets" "a.txt")
        (repositoryRequest "evil/reports" "a.txt") quietWorld quietWorld ∧
      ¬ SameEvents quietWorld quietWorld
        (execute (plainObservers.shippedHooks filteredPlaces)
          (repositoryRequest "evil/secrets" "a.txt") quietWorld).2
        (execute (plainObservers.shippedHooks filteredPlaces)
          (repositoryRequest "evil/reports" "a.txt") quietWorld).2 := by
  have hreasons : ((execute (plainObservers.shippedHooks filteredPlaces)
      (repositoryRequest "evil/secrets" "a.txt") quietWorld).2.2.1.emitted.map
        (·.shortCircuitReason.text)) = ["Repository 'evil/secrets' is not in the allowlist"] := by
    decide +kernel
  have hreasons' : ((execute (plainObservers.shippedHooks filteredPlaces)
      (repositoryRequest "evil/reports" "a.txt") quietWorld).2.2.1.emitted.map
        (·.shortCircuitReason.text)) = ["Repository 'evil/reports' is not in the allowlist"] := by
    decide +kernel
  have hdecisions : plainObservers.SameDecisions filteredPlaces
      (repositoryRequest "evil/secrets" "a.txt") (repositoryRequest "evil/reports" "a.txt")
      quietWorld quietWorld := by
    unfold Observers.SameDecisions
    decide +kernel
  have hsize : SameSize (repositoryRequest "evil/secrets" "a.txt").requestPayload
      (repositoryRequest "evil/reports" "a.txt").requestPayload :=
    (sameSize_iff (n := 62) rfl rfl).mpr rfl
  refine ⟨⟨_, _, _, rfl⟩, rfl, hsize, hdecisions, ?_⟩
  rintro ⟨events, events', hevents, hevents', htimeless⟩
  have hnames (xs : List AuditEvent) :
      (xs.map AuditEvent.timeless).map (·.shortCircuitReason.text) =
        xs.map (·.shortCircuitReason.text) := List.map_map
  have hempty : quietWorld.2.1.emitted = [] := rfl
  rw [hevents, hempty, List.nil_append] at hreasons
  rw [hevents', hempty, List.nil_append] at hreasons'
  have h := congrArg (List.map (·.shortCircuitReason.text)) htimeless
  rw [hnames, hnames, hreasons, hreasons'] at h
  exact absurd h (by decide)

end McpZero.Audit
