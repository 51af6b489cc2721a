import McpZero.Audit.Reporting
import McpZero.Logging.Format

/-! The audit trail in the log: what a reader of the lines finds are the events that were logged. -/
namespace McpZero.Logging
open Python Lib Audit
open Json (FloatReader IsJson defaultStr defaultStrEntries)

variable (floats : FloatReader)

/-- The message of the record is an object with an event type. -/
def LogRecord.isEvent (r : LogRecord) : Bool :=
  match tryParseJson floats r.message with
  | some d => d.has "event_type"
  | none => false

/-- An object without the fields that the log adds. -/
def withoutLogFields (d : Dict) : Dict :=
  d.filter fun e => !(e.1 == .str "service" || e.1 == .str "level")

/-- What a line tells of an event. -/
def eventOfLine (line : List Char) : Option Dict :=
  match Json.loads floats (.str (String.ofList line)) with
  | .ok (.dict d) => if Dict.has d "event_type" then some (withoutLogFields d) else none
  | _ => none

/-- The events that a reader finds in a log. -/
def trail (text : List Char) : List Dict :=
  (Lines.complete '\n' text).filterMap (eventOfLine floats)

theorem has_iff (d : Dict) (key : String) : d.has key = true ↔ .str key ∈ d.map Prod.fst := by
  rw [Dict.has, Dict.get?, List.lookup_isSome_iff, List.mem_map]
  simp only [beq_iff_eq]
  exact ⟨fun ⟨e, he, hkey⟩ => ⟨e, he, hkey.symm⟩, fun ⟨e, he, hkey⟩ => ⟨e, he, hkey.symm⟩⟩

theorem mem_keys_insert (d : Dict) (k k' : Scalar) (v : Value) :
    k' ∈ (Json.insert d k v).map Prod.fst ↔ k' = k ∨ k' ∈ d.map Prod.fst := by
  by_cases hk : k ∈ d.map Prod.fst
  · have hany : d.any (·.1 == k) = true := by
      obtain ⟨e, he, rfl⟩ := List.mem_map.mp hk
      exact List.any_eq_true.mpr ⟨e, he, beq_self_eq_true _⟩
    have hkeys : (d.map fun e => if e.1 == k then (k, v) else e).map Prod.fst =
        d.map Prod.fst := by
      rw [List.map_map]
      refine List.map_congr_left fun e _ => ?_
      by_cases he : e.1 = k
      · simp [he]
      · simp [he]
    rw [Json.insert, if_pos hany, hkeys]
    constructor
    · exact Or.inr
    · rintro (rfl | h)
      · exact hk
      · exact h
  · rw [Json.insert_of_notMem hk]
    simp [or_comm]

theorem mem_keys_setDefault (d : Dict) (key : String) (k' : Scalar) (v : Value) :
    k' ∈ (setDefault d key v).map Prod.fst ↔ k' = .str key ∨ k' ∈ d.map Prod.fst := by
  unfold setDefault
  split_ifs with hhas
  · have hmem := (has_iff d key).mp hhas
    constructor
    · exact Or.inr
    · rintro (rfl | h)
      · exact hmem
      · exact h
  · exact mem_keys_insert d (.str key) k' v

/-- The log adds no event type to what is logged. -/
theorem has_object (r : LogRecord) : (r.object floats).has "event_type" = r.isEvent floats := by
  have hfields : (r.fields floats).has "event_type" = r.isEvent floats := by
    unfold LogRecord.fields LogRecord.isEvent
    cases tryParseJson floats r.message with
    | none => rfl
    | some d =>
      rw [Bool.eq_iff_iff, has_iff, has_iff, mem_keys_insert, mem_keys_setDefault]
      simp
  unfold LogRecord.object
  cases r.error with
  | none => exact hfields
  | some e =>
    rw [← hfields, Bool.eq_iff_iff, has_iff, has_iff, mem_keys_insert]
    simp

theorem eventOfLine_of_loads {r : LogRecord} {line : List Char}
    (h : Json.loads floats (.str (String.ofList line)) = .ok (.dict (r.object floats))) :
    eventOfLine floats line =
      if r.isEvent floats then some (withoutLogFields (r.object floats)) else none := by
  unfold eventOfLine
  rw [h]
  dsimp only
  rw [has_object]

/-- The lines of the records that are events are found, and no others. -/
theorem filterMap_eventOfLine {records : List LogRecord} {lines : List (List Char)}
    (h : List.Forall₂ (fun r line => Json.Printable line ∧
      Json.loads floats (.str (String.ofList line)) = .ok (.dict (r.object floats)))
      records lines) :
    lines.filterMap (eventOfLine floats) =
      (records.filter (·.isEvent floats)).map fun r => withoutLogFields (r.object floats) := by
  induction h with
  | nil => rfl
  | @cons r line records lines hline _ ih =>
    rw [List.filterMap_cons, eventOfLine_of_loads floats hline.2, List.filter_cons]
    by_cases hevent : r.isEvent floats = true
    · simp [hevent, ih]
    · simp [hevent, ih]

/-- The audit hook has logged the event as this record. -/
structure Logs {η σ : Type} (h : AuditHook η σ) (event : AuditEvent) (r : LogRecord) : Prop where
  message : Json.dumps (defaultStr (.dict (h.jsonDict event))) = .ok r.message
  error : r.error = none

section Events

variable {η σ : Type} (h : AuditHook η σ)

/-- What is logged of the event is read back: a rule id and a reason that are JSON values, and a
duration whose text stands for it. -/
structure Rereads (event : AuditEvent) : Prop where
  rule : h.Includes "policy_rule_id" → IsJson floats.read (defaultStr event.policyRuleId)
  reason : h.Includes "short_circuit_reason" →
    IsJson floats.read (defaultStr event.shortCircuitReason)
  duration : h.Includes "duration_ms" →
    Json.JsonFloat floats.read ⟨.finite event.durationMs, h.reprFloat event.durationMs⟩

/-- The keys of an event. -/
def eventKeys : List Scalar :=
  [.str "event_type", .str "timestamp", .str "correlation_id", .str "trace_id", .str "user",
   .str "server_name", .str "tool_name", .str "transport", .str "policy_decision",
   .str "policy_rule_id", .str "short_circuited", .str "short_circuit_reason",
   .str "duration_ms", .str "request_size_bytes", .str "response_size_bytes",
   .str "masking_events", .str "error_type", .str "error_message"]

theorem keys_jsonDict (event : AuditEvent) :
    ((h.jsonDict event).map Prod.fst).Sublist eventKeys := by
  have hkeys : (event.jsonEntries h.reprFloat).map Prod.fst = eventKeys := rfl
  rw [← hkeys]
  unfold AuditHook.jsonDict AuditEvent.toJsonDict
  split_ifs
  · exact List.Sublist.refl _
  · exact List.filter_sublist.map _

theorem keys_defaultStrEntries (d : Dict) :
    (defaultStrEntries d).map Prod.fst = d.map Prod.fst := by
  rw [Json.defaultStrEntries_eq_map, List.map_map]
  rfl

theorem isJson_ofStrings (xs : List String) : IsJson floats.read (defaultStr (.ofStrings xs)) := by
  rw [Value.ofStrings, defaultStr, Json.defaultStrItems_eq_map]
  refine Json.isJsonItems_iff.mpr fun v hv => ?_
  simp only [List.map_map, List.mem_map, Function.comp_apply] at hv
  obtain ⟨x, -, rfl⟩ := hv
  trivial

theorem isJson_summary {m : MaskingEventSummary} (hcount : Json.Writable (.int m.count)) :
    IsJson floats.read (defaultStr (AuditEvent.summaryDict m)) := by
  have hkeys : ([.str "entity_type", .str "count", .str "status"] : List Scalar).Nodup := by decide
  have hdigits := (Json.writable_int_iff m.count).mp hcount
  exact ⟨hkeys, ⟨_, rfl⟩, trivial, ⟨_, rfl⟩, hdigits, ⟨_, rfl⟩, trivial, trivial⟩

theorem isJson_jsonDict {event : AuditEvent} (hwrites : h.Writes event)
    (hrereads : Rereads floats h event) :
    IsJson floats.read (.dict (defaultStrEntries (h.jsonDict event))) := by
  obtain ⟨-, -, hrequest, hresponse, hmasking⟩ := (h.writes_iff event).mp hwrites
  have hnodup : ((defaultStrEntries (h.jsonDict event)).map Prod.fst).Nodup := by
    have hall : eventKeys.Nodup := by decide
    rw [keys_defaultStrEntries]
    exact hall.sublist (keys_jsonDict h event)
  have htrace : IsJson floats.read (defaultStr (event.traceId.elim .none .str)) := by
    cases event.traceId <;> trivial
  have huser : IsJson floats.read (defaultStr (.dict [(.str "user_id", .str event.userId),
      (.str "groups", .ofStrings event.userGroups)])) := by
    have hkeys : ([.str "user_id", .str "groups"] : List Scalar).Nodup := by decide
    exact ⟨hkeys, ⟨_, rfl⟩, trivial, ⟨_, rfl⟩, isJson_ofStrings floats _, trivial⟩
  refine ⟨hnodup, Json.isJsonEntries_iff.mpr ?_⟩
  rw [Json.defaultStrEntries_eq_map, List.forall_mem_map, h.forall_mem_jsonDict]
  have hrule : h.Includes "policy_rule_id" → IsJson floats.read (defaultStr event.policyRuleId) :=
    hrereads.rule
  have hreason : h.Includes "short_circuit_reason" →
      IsJson floats.read (defaultStr event.shortCircuitReason) := hrereads.reason
  have hduration : h.Includes "duration_ms" → IsJson floats.read
      (defaultStr (.scalar (.float ⟨.finite event.durationMs, h.reprFloat event.durationMs⟩))) :=
    hrereads.duration
  have hsizes (key : String) (n : ℕ) (hn : h.Includes key → Json.Writable (.int n)) :
      h.Includes key → IsJson floats.read (defaultStr (.int n)) := by
    intro hkey
    exact (Json.writable_int_iff n).mp (hn hkey)
  have hevents : h.Includes "masking_events" → IsJson floats.read
      (defaultStr (.list (event.maskingEvents.map AuditEvent.summaryDict))) := by
    intro hkey
    rw [defaultStr, Json.defaultStrItems_eq_map]
    refine Json.isJsonItems_iff.mpr (List.forall_mem_map.mpr (List.forall_mem_map.mpr ?_))
    intro m hm
    exact isJson_summary floats (hmasking hkey m hm)
  simp only [AuditEvent.jsonEntries, List.forall_mem_cons, Scalar.str.injEq, exists_eq_right']
  have htext (s : String) : IsJson floats.read (defaultStr (.str s)) := trivial
  have hflag (b : Bool) : IsJson floats.read (defaultStr (.bool b)) := trivial
  exact ⟨fun _ => ⟨⟨_, rfl⟩, htext _⟩, fun _ => ⟨⟨_, rfl⟩, htext _⟩, fun _ => ⟨⟨_, rfl⟩, htext _⟩,
    fun _ => ⟨⟨_, rfl⟩, htrace⟩, fun _ => ⟨⟨_, rfl⟩, huser⟩, fun _ => ⟨⟨_, rfl⟩, htext _⟩,
    fun _ => ⟨⟨_, rfl⟩, htext _⟩, fun _ => ⟨⟨_, rfl⟩, htext _⟩, fun _ => ⟨⟨_, rfl⟩, htext _⟩,
    fun hkey => ⟨⟨_, rfl⟩, hrule hkey⟩, fun _ => ⟨⟨_, rfl⟩, hflag _⟩,
    fun hkey => ⟨⟨_, rfl⟩, hreason hkey⟩, fun hkey => ⟨⟨_, rfl⟩, hduration hkey⟩,
    fun hkey => ⟨⟨_, rfl⟩, hsizes _ _ hrequest hkey⟩,
    fun hkey => ⟨⟨_, rfl⟩, hsizes _ _ hresponse hkey⟩,
    fun hkey => ⟨⟨_, rfl⟩, hevents hkey⟩, fun _ => ⟨⟨_, rfl⟩, htext _⟩,
    fun _ => ⟨⟨_, rfl⟩, htext _⟩, List.forall_mem_nil _⟩

theorem tryParseJson_dumps {d : Dict} {msg : String} (hjson : IsJson floats.read (.dict d))
    (hdumps : Json.dumps (.dict d) = .ok msg) : tryParseJson floats msg = some d := by
  obtain ⟨msg', hdumps', hloads⟩ := Json.loads_dumps floats hjson
  obtain rfl : msg = msg' := Except.ok.inj (hdumps.symm.trans hdumps')
  have hbrace : msg.toList.head? = some '\x7b' := by
    unfold Json.dumps at hdumps
    cases htext : Json.text (.dict d) with
    | error e => rw [htext] at hdumps; cases hdumps
    | ok cs =>
      rw [htext] at hdumps
      obtain rfl := Except.ok.inj hdumps
      simp only [Json.text, bind_eq_ok, pure_eq_ok] at htext
      obtain ⟨body, -, rfl⟩ := htext
      rw [String.toList_ofList]
      rfl
  unfold tryParseJson
  rw [if_pos hbrace, hloads]

/-- The log gives the event back. -/
theorem withoutLogFields_object {event : AuditEvent} {r : LogRecord} (hlogs : Logs h event r)
    (hrereads : Rereads floats h event) :
    withoutLogFields (r.object floats) = defaultStrEntries (h.jsonDict event) := by
  have hwrites : h.Writes event := by
    have hmessage := hlogs.message
    unfold Json.dumps at hmessage
    cases htext : Json.text (defaultStr (.dict (h.jsonDict event))) with
    | error e => rw [htext] at hmessage; cases hmessage
    | ok cs => exact ⟨cs, htext⟩
  have hjson := isJson_jsonDict floats h hwrites hrereads
  have hmessage : Json.dumps (.dict (defaultStrEntries (h.jsonDict event))) = .ok r.message := by
    rw [← hlogs.message, defaultStr]
  have hparse := tryParseJson_dumps floats hjson hmessage
  have hservice : Scalar.str "service" ∉ (defaultStrEntries (h.jsonDict event)).map Prod.fst := by
    rw [keys_defaultStrEntries]
    intro hmem
    exact absurd ((keys_jsonDict h event).subset hmem) (by decide)
  have hlevel : Scalar.str "level" ∉ (defaultStrEntries (h.jsonDict event)).map Prod.fst := by
    rw [keys_defaultStrEntries]
    intro hmem
    exact absurd ((keys_jsonDict h event).subset hmem) (by decide)
  generalize defaultStrEntries (h.jsonDict event) = d at hparse hservice hlevel ⊢
  have hhas : ¬ d.has "service" = true := fun hhas => hservice ((has_iff d "service").mp hhas)
  have hset : setDefault d "service" (.str "mcp-gateway") =
      d ++ [(.str "service", .str "mcp-gateway")] := by
    rw [setDefault, if_neg hhas, Json.insert_of_notMem hservice]
  have hobject : r.object floats =
      d ++ [(.str "service", .str "mcp-gateway")] ++ [(.str "level", .str r.levelName)] := by
    unfold LogRecord.object LogRecord.fields
    rw [hlogs.error, hparse]
    dsimp only
    rw [hset, Json.insert_of_notMem]
    simpa using hlevel
  have hkept : withoutLogFields d = d := by
    refine List.filter_eq_self.mpr fun e he => ?_
    have hkey := List.mem_map_of_mem (f := Prod.fst) he
    have hne : e.1 ≠ .str "service" ∧ e.1 ≠ .str "level" :=
      ⟨fun heq => hservice (heq ▸ hkey), fun heq => hlevel (heq ▸ hkey)⟩
    simp [hne]
  rw [hobject, withoutLogFields, List.filter_append, List.filter_append]
  simpa [withoutLogFields] using hkept

theorem map_withoutLogFields {events : List AuditEvent} {records : List LogRecord}
    (hlogs : List.Forall₂ (Logs h) events records)
    (hrereads : ∀ event ∈ events, Rereads floats h event) :
    (records.map fun r => withoutLogFields (r.object floats)) =
      events.map fun event => defaultStrEntries (h.jsonDict event) := by
  induction hlogs with
  | nil => rfl
  | @cons event r events records hlog _ ih =>
    have hevent := hrereads event List.mem_cons_self
    have hrest := ih fun e he => hrereads e (List.mem_cons_of_mem _ he)
    rw [List.map_cons, List.map_cons, withoutLogFields_object floats h hlog hevent, hrest]

/-- The audit trail is in the log: if the records that look like events are those that the audit
hook logged, a reader finds the events with all that was logged of them, each once and in their
order, among any other messages. Of a log that is cut off it finds the first events. -/
theorem trail_written {records : List LogRecord} {events : List AuditEvent}
    (hlogs : List.Forall₂ (Logs h) events (records.filter (·.isEvent floats)))
    (hrereads : ∀ event ∈ events, Rereads floats h event) {text : List Char}
    (htext : text <+: written floats records) :
    trail floats text <+: (events.map fun event => defaultStrEntries (h.jsonDict event)) ∧
      (text = written floats records →
        trail floats text = events.map fun event => defaultStrEntries (h.jsonDict event)) := by
  have hevents := map_withoutLogFields floats h hlogs hrereads
  obtain ⟨first, hfirst, hwhole, hlines⟩ := exists_records_of_prefix floats records htext
  rw [← hevents, trail, filterMap_eventOfLine floats hlines]
  refine ⟨(hfirst.filter _).map _, fun hall => ?_⟩
  rw [hwhole hall]

end Events

def readHalf (cs : List Char) : Python.Float :=
  if cs = "2.5".toList then ⟨.finite (5 / 2), "2.5"⟩ else ⟨.nan, "nan"⟩

theorem readHalf_jsonFloat : Json.JsonFloat readHalf ⟨.finite (5 / 2), "2.5"⟩ := by
  refine .finite (rfl : _ = FloatValue.finite (5 / 2)) ?_ ?_
  · rfl
  · rfl

/-- A reader that knows one number with a point. -/
def halfReader : FloatReader where
  read := readHalf
  jsonFloat cs := by
    by_cases hcs : cs = "2.5".toList
    · obtain rfl := hcs
      exact readHalf_jsonFloat
    · rw [readHalf, if_neg hcs]
      exact .nan

/-- A hook that logs all fields. -/
def wholeEvents : AuditHook Unit Unit where
  monotonic _ := 0
  now _ := "2026-01-01T00:00:01+00:00"
  reprFloat _ := "2.5"

/-- A call that is let through, and one that is denied. -/
def searchCall : AuditEvent where
  eventType := .toolInvocation
  timestamp := "2026-01-01T00:00:01+00:00"
  correlationId := "c1"
  toolName := "search"
  policyDecision := "allow"
  policyRuleId := .str "readers"
  durationMs := 5 / 2

def exportDenied : AuditEvent where
  eventType := .policyDecision
  timestamp := "2026-01-01T00:00:02+00:00"
  correlationId := "c2"
  toolName := "export"
  policyDecision := "deny"
  shortCircuited := true
  shortCircuitReason := .str "No exports"
  errorType := "ShortCircuitError"
  errorMessage := "No exports"
  durationMs := 5 / 2

/-- The record of an event. -/
def recordOf (event : AuditEvent) : LogRecord where
  message := (Json.dumps (defaultStr (.dict (wholeEvents.jsonDict event)))).toOption.getD ""
  levelName := "INFO"
  created := event.timestamp
  loggerName := "mcp_zero.audit.hook"

def startedRecord : LogRecord where
  message := "started\n\x7b\"event_type\": \"error\"\x7d"
  levelName := "WARNING"
  created := "2026-01-01T00:00:00+00:00"
  loggerName := "mcp_zero.main"

theorem recordOf_logs {event : AuditEvent} (hwrites : wholeEvents.Writes event) :
    Logs wholeEvents event (recordOf event) := by
  obtain ⟨cs, hcs⟩ := hwrites
  refine ⟨?_, rfl⟩
  unfold recordOf Json.dumps
  rw [hcs]
  rfl

theorem recordOf_isEvent {event : AuditEvent} (hwrites : wholeEvents.Writes event)
    (hrereads : Rereads halfReader wholeEvents event) :
    (recordOf event).isEvent halfReader = true := by
  have hjson := isJson_jsonDict halfReader wholeEvents hwrites hrereads
  rw [LogRecord.isEvent, tryParseJson_dumps halfReader hjson (recordOf_logs hwrites).message]
  rfl

theorem searchCall_rereads : Rereads halfReader wholeEvents searchCall :=
  ⟨fun _ => trivial, fun _ => trivial, fun _ => readHalf_jsonFloat⟩

theorem exportDenied_rereads : Rereads halfReader wholeEvents exportDenied :=
  ⟨fun _ => trivial, fun _ => trivial, fun _ => readHalf_jsonFloat⟩

theorem searchCall_trail :
    trail halfReader (written halfReader
        [startedRecord, recordOf searchCall, recordOf exportDenied]) =
      [searchCall, exportDenied].map fun event =>
        defaultStrEntries (wholeEvents.jsonDict event) := by
  have hsearch : wholeEvents.Writes searchCall := ⟨_, rfl⟩
  have hexport : wholeEvents.Writes exportDenied := ⟨_, rfl⟩
  have hevents : [startedRecord, recordOf searchCall, recordOf exportDenied].filter
      (·.isEvent halfReader) = [recordOf searchCall, recordOf exportDenied] := by
    have hstarted : startedRecord.isEvent halfReader = false := rfl
    rw [List.filter_cons, hstarted, List.filter_cons, recordOf_isEvent hsearch searchCall_rereads,
      List.filter_cons, recordOf_isEvent hexport exportDenied_rereads]
    rfl
  have hlogs : List.Forall₂ (Logs wholeEvents) [searchCall, exportDenied]
      ([startedRecord, recordOf searchCall, recordOf exportDenied].filter
        (·.isEvent halfReader)) := by
    rw [hevents]
    exact .cons (recordOf_logs hsearch) (.cons (recordOf_logs hexport) .nil)
  have hrereads : ∀ event ∈ [searchCall, exportDenied], Rereads halfReader wholeEvents event :=
    List.forall_mem_cons.mpr ⟨searchCall_rereads, List.forall_mem_singleton.mpr
      exportDenied_rereads⟩
  exact (trail_written halfReader wholeEvents hlogs hrereads (List.prefix_refl _)).2 rfl

end McpZero.Logging
