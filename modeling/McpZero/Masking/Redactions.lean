import Mathlib
import McpZero.Analytics.Hook
import McpZero.Audit.Hook
import McpZero.Masking.Presidio

/-! The redactions of a request: what Presidio detects in its payload, what the masking hook leaves
in the context, and what the audit and the analytics report of it. -/
namespace McpZero.Masking
open Python Lib

/-- The masking hook over Presidio. -/
def Presidio.maskingHook {ρ σ : Type} (p : Presidio ρ σ) (config : PresidioConfig) :
    AsyncMaskingHook (Engines × σ) where
  engine := p.maskText
  config := config

/-- How often an entity type is detected in a payload. -/
def Presidio.detected {ρ σ : Type} (p : Presidio ρ σ) (entities : List String) (payload : Dict)
    (entityType : String) : ℕ :=
  ((Value.stringsEntries payload).map (p.detections entities entityType)).sum

section Walk

variable {ρ σ : Type} (p : Presidio ρ σ) (config : PresidioConfig)

/-- What the walk has recorded once the engine has given these answers. -/
structure Recorded (acc acc' : MaskingHook.Masked) (results : List MaskingResult) : Prop where
  events : acc'.events = acc.events ++ maskedEvents results
  fields : acc'.fields.length = acc.fields.length + results.countP (·.hasMasked)

theorem Recorded.trans {acc acc₁ acc₂ : MaskingHook.Masked} {results results' : List MaskingResult}
    (h : Recorded acc acc₁ results) (h' : Recorded acc₁ acc₂ results') :
    Recorded acc acc₂ (results ++ results') where
  events := by simp [h'.events, h.events, maskedEvents]
  fields := by rw [h'.fields, h.fields, List.countP_append, add_assoc]

/-- At a leaf the hook records what the engine answers. -/
theorem requestLeaf_answers {path text text' : String} {acc acc' : MaskingHook.Masked}
    {s s' : Engines × σ}
    (h : (p.maskingHook config).requestLeaf path text acc s = (.ok (text', acc'), s')) :
    ∃ result, p.Answers config.entities text result ∧ Recorded acc acc' [result] := by
  unfold AsyncMaskingHook.requestLeaf at h
  rcases hask : (p.maskingHook config).engine text (p.maskingHook config).config.entities
    "request" s with ⟨e | result, s₁⟩
  · rw [hask] at h
    cases h
  · rw [hask] at h
    have hanswers : p.Answers config.entities text result := p.answers_of_maskText "request" hask
    dsimp only at h
    refine ⟨result, hanswers, ?_⟩
    by_cases hmasked : result.hasMasked = true
    · rw [if_pos hmasked] at h
      cases h
      exact ⟨by simp [maskedEvents, hmasked], by simp [hmasked]⟩
    · rw [if_neg hmasked] at h
      cases h
      exact ⟨by simp [maskedEvents, hmasked], by simp [hmasked]⟩

theorem visitLeaves_answers {leaves : List (String × String)} {acc acc' : MaskingHook.Masked}
    {s s' : Engines × σ} {texts : List String}
    (h : Value.visitLeaves (p.maskingHook config).requestLeaf leaves acc s =
      (.ok (texts, acc'), s')) :
    ∃ results, List.Forall₂ (p.Answers config.entities) (leaves.map (·.2)) results ∧
      Recorded acc acc' results := by
  induction leaves generalizing acc s texts with
  | nil =>
    cases h
    exact ⟨[], .nil, (List.append_nil _).symm, rfl⟩
  | cons l leaves ih =>
    obtain ⟨path, text⟩ := l
    unfold Value.visitLeaves at h
    rcases hleaf : (p.maskingHook config).requestLeaf path text acc s with ⟨e | ⟨text', acc₁⟩, s₁⟩
    · rw [hleaf] at h
      cases h
    · rw [hleaf] at h
      obtain ⟨result, hresult, hfirst⟩ := requestLeaf_answers p config hleaf
      dsimp only at h
      rcases hrest : Value.visitLeaves (p.maskingHook config).requestLeaf leaves acc₁ s₁ with
        ⟨e | ⟨texts', acc₂⟩, s₂⟩
      · rw [hrest] at h
        cases h
      · rw [hrest] at h
        cases h
        obtain ⟨results, hresults, hlast⟩ := ih hrest
        exact ⟨result :: results, .cons hresult hresults, hfirst.trans hlast⟩

/-- The walk over a payload records the engine's answers for its string leaves. -/
theorem walkEntries_answers {payload payload' : Dict} {acc : MaskingHook.Masked}
    {s s' : Engines × σ}
    (h : (p.maskingHook config).walkEntries "" payload {} s = (.ok (payload', acc), s')) :
    ∃ results, List.Forall₂ (p.Answers config.entities) (Value.stringsEntries payload) results ∧
      Recorded {} acc results := by
  have hends := Value.visitEntries_ends MaskingHook.keyPath MaskingHook.indexPath
    (p.maskingHook config).requestLeaf "" payload {} s
  rw [← AsyncMaskingHook.walkEntries_eq_visit, h] at hends
  rcases hleaves : Value.visitLeaves (p.maskingHook config).requestLeaf
    (Value.leavesEntries MaskingHook.keyPath MaskingHook.indexPath "" payload) {} s with ⟨r, t⟩
  rw [hleaves] at hends
  cases hends with
  | done _ _ _ =>
    have hanswers := visitLeaves_answers p config hleaves
    rwa [Value.leavesEntries_snd] at hanswers

theorem counted_maskedEvents {entities : List String} {texts : List String}
    {results : List MaskingResult} (h : List.Forall₂ (p.Answers entities) texts results)
    (entityType : String) : counted entityType (maskedEvents results) =
      ((texts.map (p.detections entities entityType)).sum : ℕ) := by
  induction h with
  | nil => rfl
  | @cons text result texts results hresult _ ih =>
    have hfirst := hresult.counted entityType
    have hsplit : maskedEvents (result :: results) =
        (if result.hasMasked then result.events else []) ++ maskedEvents results := by
      unfold maskedEvents
      by_cases hmasked : result.hasMasked = true <;> simp [hmasked]
    rw [hsplit, counted_append, hfirst, ih, List.map_cons, List.sum_cons, Int.natCast_add]

theorem masked_iff_found {entities : List String} {texts : List String}
    {results : List MaskingResult} (h : List.Forall₂ (p.Answers entities) texts results) :
    (∃ result ∈ results, result.hasMasked = true) ↔
      ∃ text ∈ texts, p.found entities text ≠ [] := by
  induction h with
  | nil => simp
  | cons hresult _ ih => rw [List.exists_mem_cons_iff, List.exists_mem_cons_iff, ih, hresult.masked]

/-- Whether something is detected in a payload. -/
def Presidio.Detects (payload : Dict) : Prop :=
  ∃ text ∈ Value.stringsEntries payload, p.found config.entities text ≠ []

/-- What the masking hook leaves in a context for a payload in which something is detected. -/
structure Reports (payload : Dict) (ctx : HookContext) : Prop where
  events : ∀ t, counted t ctx.maskingEvents = (p.detected config.entities payload t : ℕ)
  applied : ctx.maskingApplied = true
  succeeded : ∀ event ∈ ctx.maskingEvents, event.status = "masked"

/-- What the masking hook leaves in a context for a payload in which nothing is detected. -/
structure Keeps (ctx ctx' : HookContext) : Prop where
  events : ctx'.maskingEvents = ctx.maskingEvents
  fields : ctx'.maskedFields = ctx.maskedFields
  applied : ctx'.maskingApplied = ctx.maskingApplied
  payload : ctx'.requestPayload = ctx.requestPayload

/-- Where masking succeeds, it reports what is detected, and nothing changes if that is nothing. -/
theorem reports_or_keeps (henabled : config.enabled = true) {ctx ctx' : HookContext}
    {s s' : Engines × σ} (h : (p.maskingHook config).onPreMasking ctx s = (.ok ctx', s')) :
    p.Detects config ctx.requestPayload ∧ Reports p config ctx.requestPayload ctx' ∨
      ¬ p.Detects config ctx.requestPayload ∧ Keeps ctx ctx' := by
  have hconfig : (p.maskingHook config).config = config := rfl
  unfold AsyncMaskingHook.onPreMasking at h
  rw [hconfig, henabled] at h
  simp only [Bool.not_true, Bool.false_eq_true, if_false] at h
  by_cases hempty : ctx.requestPayload.isEmpty = true
  · rw [if_pos hempty] at h
    cases h
    refine .inr ⟨?_, rfl, rfl, rfl, rfl⟩
    simp [Presidio.Detects, List.isEmpty_iff.mp hempty, Value.stringsEntries]
  rw [if_neg hempty] at h
  rcases hwalk : (p.maskingHook config).walkEntries "" ctx.requestPayload {} s with
    ⟨e | ⟨payload, acc⟩, s₁⟩
  · rw [hwalk] at h
    cases h
  · rw [hwalk] at h
    dsimp only at h
    obtain ⟨results, hresults, hrecorded⟩ := walkEntries_answers p config hwalk
    have hacc : acc.events = maskedEvents results := hrecorded.events
    have hfields : acc.fields.isEmpty = true ↔ ¬ p.Detects config ctx.requestPayload := by
      have hlength := hrecorded.fields
      rw [List.length_nil, zero_add] at hlength
      rw [Presidio.Detects, ← masked_iff_found p hresults, List.isEmpty_iff,
        ← List.length_eq_zero_iff, hlength, List.countP_eq_zero]
      simp
    by_cases hnone : acc.fields.isEmpty = true
    · rw [hnone] at h
      cases h
      exact .inr ⟨hfields.mp hnone, rfl, rfl, rfl, rfl⟩
    · rw [Bool.eq_false_iff.mpr hnone] at h
      cases h
      refine .inl ⟨not_not.mp fun hno => hnone (hfields.mpr hno), ⟨fun t => ?_, rfl,
        fun event hevent => ?_⟩⟩
      · exact hacc ▸ counted_maskedEvents p hresults t
      · simp only [hacc] at hevent
        obtain ⟨result, hresult, hevent⟩ := List.mem_flatMap.mp hevent
        obtain ⟨text, -, hanswers⟩ :=
          exists_left_of_forall₂ hresults (List.mem_filter.mp hresult).1
        exact hanswers.succeeded event hevent

end Walk

section Reported

open Audit Analytics

theorem addCount_eq (t : String) (n : ℤ) (counts : List (String × ℤ)) :
    AuditHook.addCount t n counts = Tally.add t n counts := by
  induction counts with
  | nil => rfl
  | cons c counts ih =>
    obtain ⟨t', m⟩ := c
    rw [AuditHook.addCount, Tally.add, ih]

/-- The counts of the audit are a tally of the events. -/
theorem entityCounts_eq (applied completed : Bool) (fields : List String)
    (events : List MaskingEvent) :
    (AuditHook.buildMaskingSummary applied fields events completed).entityCounts =
      Tally.tally (events.map countOf) := by
  rw [Tally.tally, List.foldl_map]
  unfold AuditHook.buildMaskingSummary
  dsimp only
  congr 1
  funext counts event
  exact addCount_eq _ _ _

/-- What the analytics has recorded as redactions of requests. -/
def redactionEntries (recorded : List AnalyticsEvent) : List (String × ℤ) :=
  (recorded.filter (·.eventType = .redaction)).map fun e => (e.entityType, e.count)

theorem redactionEntries_append (xs ys : List AnalyticsEvent) :
    redactionEntries (xs ++ ys) = redactionEntries xs ++ redactionEntries ys := by
  simp [redactionEntries]

theorem redactionEntries_maskingRecord (ctx : HookContext) {events : List MaskingEvent}
    (hsucceeded : ∀ event ∈ events, event.status = "masked") :
    redactionEntries (events.map (AnalyticsHook.maskingRecord ctx)) = events.map countOf := by
  induction events with
  | nil => rfl
  | cons event events ih =>
    rw [List.forall_mem_cons] at hsucceeded
    have hrecord : AnalyticsHook.maskingRecord ctx event =
        { eventType := .redaction, server := ctx.serverName, tool := ctx.toolName,
          entityType := event.entityType, count := event.count } := by
      rw [AnalyticsHook.maskingRecord, hsucceeded.1]
      rfl
    have hrest := ih hsucceeded.2
    rw [redactionEntries] at hrest
    rw [List.map_cons, redactionEntries, hrecord, List.filter_cons]
    simp only [decide_true, if_true, List.map_cons, hrest]
    rfl

/-- A call adds its masking events to the redactions. -/
theorem redactionEntries_recordCall {ctx : HookContext}
    (hsucceeded : ∀ event ∈ ctx.maskingEvents, event.status = "masked") (durationMs : ℚ)
    (requestBytes responseBytes : ℕ) (c : AnalyticsCollector) :
    redactionEntries
        (AnalyticsHook.recordCall ctx durationMs requestBytes responseBytes c).recorded =
      redactionEntries c.recorded ++ ctx.maskingEvents.map countOf := by
  have hcall : redactionEntries
      [AnalyticsHook.callRecord ctx durationMs requestBytes responseBytes] = [] := rfl
  have houtput : redactionEntries (AnalyticsHook.outputRecords ctx) = [] := by
    unfold AnalyticsHook.outputRecords
    split <;> rfl
  rw [AnalyticsHook.recordCall_recorded, redactionEntries_append, redactionEntries_append,
    ← List.singleton_append, redactionEntries_append, hcall, houtput,
    redactionEntries_maskingRecord ctx hsucceeded, List.nil_append, List.append_nil]

/-- What one PRE_AUDIT records of a call. -/
structure Recording where
  context : HookContext
  durationMs : ℚ
  requestBytes : ℕ
  responseBytes : ℕ

/-- The collector after one PRE_AUDIT. -/
def Recording.addTo (r : Recording) (c : AnalyticsCollector) : AnalyticsCollector :=
  AnalyticsHook.recordCall r.context r.durationMs r.requestBytes r.responseBytes c

/-- Each PRE_AUDIT that is given the same masking events adds them once more. -/
theorem total_redactionEntries_foldl {events : List MaskingEvent}
    (hsucceeded : ∀ event ∈ events, event.status = "masked") (t : String)
    (rs : List Recording) (hrs : ∀ r ∈ rs, r.context.maskingEvents = events)
    (c : AnalyticsCollector) :
    Tally.total t (redactionEntries (rs.foldl (fun c r => r.addTo c) c).recorded) =
      Tally.total t (redactionEntries c.recorded) + rs.length * counted t events := by
  induction rs generalizing c with
  | nil => simp
  | cons r rs ih =>
    rw [List.forall_mem_cons] at hrs
    have hfirst : ∀ event ∈ r.context.maskingEvents, event.status = "masked" := by
      rw [hrs.1]
      exact hsucceeded
    have hadded : Tally.total t (redactionEntries (r.addTo c).recorded) =
        Tally.total t (redactionEntries c.recorded) + counted t events := by
      rw [Recording.addTo, redactionEntries_recordCall hfirst, Tally.total_append, hrs.1]
      rfl
    rw [List.foldl_cons, ih hrs.2, hadded, List.length_cons]
    push_cast
    ring

/-- What an audit event tells of the masking of a request. -/
structure Audited (payload : Dict) (config : PresidioConfig) {ρ σ : Type} (p : Presidio ρ σ)
    (event : AuditEvent) : Prop where
  counts (t : String) : (event.inputMasking.entityCounts.lookup t).getD 0 =
    (p.detected config.entities payload t : ℕ)
  summaries (t : String) : Tally.total t (event.maskingEvents.map fun m =>
    (m.entityType, m.count)) = (p.detected config.entities payload t : ℕ)
  failures : event.inputMasking.failureCount = 0

theorem audited_of_reports {ρ σ : Type} {p : Presidio ρ σ} {config : PresidioConfig}
    {payload : Dict} {ctx : HookContext} (h : Reports p config payload ctx) {later : HookContext}
    (hlater : later.maskingEvents = ctx.maskingEvents) (eventType : AuditEventType)
    (requestSize responseSize : ℕ) (durationMs : ℚ) (timestamp : String) :
    Audited payload config p
      (AuditHook.eventOf later eventType requestSize responseSize durationMs timestamp) where
  counts t := by
    have hcounts : (AuditHook.eventOf later eventType requestSize responseSize durationMs
        timestamp).inputMasking.entityCounts = Tally.tally (ctx.maskingEvents.map countOf) := by
      rw [← hlater]
      exact entityCounts_eq _ _ _ _
    rw [hcounts, Tally.lookup_eq_total (Tally.keys_tally _).1, Tally.total_tally]
    exact h.events t
  summaries t := by
    have hsummaries : (AuditHook.eventOf later eventType requestSize responseSize durationMs
        timestamp).maskingEvents.map (fun m => (m.entityType, m.count)) =
          ctx.maskingEvents.map countOf := by
      rw [← hlater]
      exact List.map_map
    rw [hsummaries]
    exact h.events t
  failures := by
    refine List.countP_eq_zero.mpr fun event hevent => ?_
    rw [hlater] at hevent
    rw [h.succeeded event hevent]
    decide

/-- Redactions are accounted for: whatever Presidio detects in the string leaves of a request, of
each entity type every audit event with the masking events of the context reports as many as
there were, and every PRE_AUDIT that is given them adds as many. Where nothing is detected, the
context keeps what it had. -/
theorem redactions_accounted {ρ σ : Type} (p : Presidio ρ σ) (config : PresidioConfig)
    (henabled : config.enabled = true) {ctx ctx' : HookContext} {s s' : Engines × σ}
    (h : (p.maskingHook config).onPreMasking ctx s = (.ok ctx', s')) :
    (¬ p.Detects config ctx.requestPayload → Keeps ctx ctx') ∧
    (p.Detects config ctx.requestPayload → ctx'.maskingApplied = true ∧
      (∀ later : HookContext, later.maskingEvents = ctx'.maskingEvents →
        ∀ eventType requestSize responseSize durationMs timestamp,
          Audited ctx.requestPayload config p
            (AuditHook.eventOf later eventType requestSize responseSize durationMs timestamp)) ∧
      ∀ rs : List Recording, (∀ r ∈ rs, r.context.maskingEvents = ctx'.maskingEvents) →
        ∀ (c : AnalyticsCollector) (t : String),
          Tally.total t (redactionEntries (rs.foldl (fun c r => r.addTo c) c).recorded) =
            Tally.total t (redactionEntries c.recorded) +
              rs.length * (p.detected config.entities ctx.requestPayload t : ℕ)) := by
  rcases reports_or_keeps p config henabled h with ⟨hdetects, hreports⟩ | ⟨hnothing, hkeeps⟩
  · refine ⟨fun hno => absurd hdetects hno, fun _ => ⟨hreports.applied, ?_, ?_⟩⟩
    · intro later hlater
      exact audited_of_reports hreports hlater
    · intro rs hrs c t
      rw [total_redactionEntries_foldl hreports.succeeded t rs hrs c, hreports.events t]
  · exact ⟨fun _ => hkeeps, fun hdetects => absurd hdetects hnothing⟩

/-- An engine that takes a text with an `@` for an e-mail address. -/
def atSigns : Presidio String Unit where
  importPackages _ := (.ok (), ())
  buildAnalyzer _ := (.ok (), ())
  buildAnonymizer _ := (.ok (), ())
  analyze text _ := .ok (if '@' ∈ text.toList then ["EMAIL_ADDRESS"] else [])
  entityType := id
  anonymize _ _ operators := .ok ((operators.lookup "EMAIL_ADDRESS").getD "<MASKED>")

def mailRequest : HookContext where
  request := { correlationId := "c1" }
  requestPayload := [(.str "to", .list [.str "ann@example.org", .str "bob@example.org"]),
    (.str "body", .str "hello")]

/-- The two addresses of a request are reported, and counted twice by a call with two runs. -/
theorem mailRequest_accounted : ∃ ctx' s',
    (atSigns.maskingHook ⟨true, ["EMAIL_ADDRESS"]⟩).onPreMasking mailRequest ({}, ()) =
        (.ok ctx', s') ∧
      ctx'.maskingApplied = true ∧
      ((AuditHook.eventOf ctx' .toolInvocation 0 0 0 "").inputMasking.entityCounts.lookup
        "EMAIL_ADDRESS").getD 0 = 2 ∧
      ∀ c : AnalyticsCollector, Tally.total "EMAIL_ADDRESS" (redactionEntries
          (([⟨ctx', 1, 40, 0⟩, ⟨ctx', 2, 40, 15⟩] : List Recording).foldl
            (fun c r => r.addTo c) c).recorded) =
        Tally.total "EMAIL_ADDRESS" (redactionEntries c.recorded) + 4 := by
  obtain ⟨ctx', s', hrun⟩ : ∃ ctx' s',
      (atSigns.maskingHook ⟨true, ["EMAIL_ADDRESS"]⟩).onPreMasking mailRequest ({}, ()) =
        (.ok ctx', s') := ⟨_, _, rfl⟩
  have hdetects : atSigns.Detects ⟨true, ["EMAIL_ADDRESS"]⟩ mailRequest.requestPayload :=
    ⟨"ann@example.org", List.mem_cons_self, by decide⟩
  have hdetected : atSigns.detected ["EMAIL_ADDRESS"] mailRequest.requestPayload
      "EMAIL_ADDRESS" = 2 := by decide
  obtain ⟨happlied, haudited, hrecorded⟩ := (redactions_accounted atSigns _ rfl hrun).2 hdetects
  refine ⟨ctx', s', hrun, happlied, ?_, fun c => ?_⟩
  · rw [(haudited ctx' rfl .toolInvocation 0 0 0 "").counts, hdetected]
    rfl
  · rw [hrecorded _ (by simp) c, hdetected]
    rfl

end Reported

end McpZero.Masking
