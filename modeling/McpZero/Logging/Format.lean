import McpZero.Lib.Lines
import McpZero.Python.JsonPrintable

/-! The JSON log: `JsonFormatter` writes every record as one line. A message that is a JSON object
is an audit event, any other one gets an envelope. -/
namespace McpZero.Logging
open Python Lib
open Json (FloatReader IsJson)

/-- What `exc_info` of a record comes to. -/
structure ErrorInfo where
  typeName : String
  message : String
  traceback : String

/-- A log record. The time is in the form of `isoformat`. -/
structure LogRecord where
  message : String
  levelName : String
  created : String
  loggerName : String
  error : Option ErrorInfo := none

variable (floats : FloatReader)

/-- `_try_parse_json`. -/
def tryParseJson (msg : String) : Option Dict :=
  if msg.toList.head? = some '\x7b' then
    match Json.loads floats (.str msg) with
    | .ok (.dict d) => some d
    | .ok _ => none
    | .error _ => none
  else none

/-- `obj.setdefault(key, value)`. -/
def setDefault (d : Dict) (key : String) (value : Value) : Dict :=
  if d.has key then d else Json.insert d (.str key) value

namespace LogRecord

variable (r : LogRecord)

/-- The envelope of an operational message. -/
def envelope : Dict :=
  [(.str "service", .str "mcp-gateway"), (.str "level", .str r.levelName),
   (.str "timestamp", .str r.created), (.str "logger", .str r.loggerName),
   (.str "message", .str r.message)]

/-- The object before the exception is attached. -/
def fields : Dict :=
  match tryParseJson floats r.message with
  | some d => Json.insert (setDefault d "service" (.str "mcp-gateway")) (.str "level")
      (.str r.levelName)
  | none => r.envelope

/-- The object that is written. -/
def object : Dict :=
  match r.error with
  | none => r.fields floats
  | some e => Json.insert (r.fields floats) (.str "error") (.dict
      [(.str "type", .str e.typeName), (.str "message", .str e.message),
       (.str "traceback", .str e.traceback)])

/-- `JsonFormatter.format`. -/
def format : Except Exc String := Json.dumps (Json.defaultStr (.dict (r.object floats)))

end LogRecord

/-- `StreamHandler.emit`: a record that cannot be formatted is reported elsewhere. -/
def emit (stream : List Char) (r : LogRecord) : List Char :=
  match r.format floats with
  | .ok text => stream ++ text.toList ++ ['\n']
  | .error _ => stream

/-- What the handler has written after the records. -/
def written (records : List LogRecord) : List Char := records.foldl (emit floats) []

theorem isJson_of_tryParseJson {msg : String} {d : Dict} (h : tryParseJson floats msg = some d) :
    IsJson floats.read (.dict d) := by
  unfold tryParseJson at h
  split_ifs at h
  split at h
  · rename_i hloads
    obtain rfl := Option.some.inj h
    exact Json.isJson_loads floats hloads
  · cases h
  · cases h

theorem setDefault_isJson {d : Dict} {key : String} {v : Value}
    (hd : IsJson floats.read (.dict d)) (hv : IsJson floats.read v) :
    IsJson floats.read (.dict (setDefault d key v)) := by
  unfold setDefault
  split_ifs
  · exact hd
  · exact Json.insert_isJson hd hv

namespace LogRecord

variable (r : LogRecord)

theorem envelope_isJson : IsJson floats.read (.dict r.envelope) := by
  have hkeys : (r.envelope.map Prod.fst).Nodup := by
    show ([.str "service", .str "level", .str "timestamp", .str "logger", .str "message"] :
      List Scalar).Nodup
    decide
  exact ⟨hkeys, ⟨_, rfl⟩, trivial, ⟨_, rfl⟩, trivial, ⟨_, rfl⟩, trivial, ⟨_, rfl⟩, trivial,
    ⟨_, rfl⟩, trivial, trivial⟩

theorem fields_isJson : IsJson floats.read (.dict (r.fields floats)) := by
  unfold fields
  cases hparse : tryParseJson floats r.message with
  | none => exact r.envelope_isJson floats
  | some d =>
    have hd := isJson_of_tryParseJson floats hparse
    exact Json.insert_isJson (setDefault_isJson floats hd trivial) trivial

/-- Whatever a record holds, its object is a JSON value. -/
theorem object_isJson : IsJson floats.read (.dict (r.object floats)) := by
  have hfields := r.fields_isJson floats
  unfold object
  cases r.error with
  | none => exact hfields
  | some e =>
    have hkeys : ([.str "type", .str "message", .str "traceback"] : List Scalar).Nodup := by decide
    have herror : IsJson floats.read (.dict
        [(.str "type", .str e.typeName), (.str "message", .str e.message),
         (.str "traceback", .str e.traceback)]) :=
      ⟨hkeys, ⟨_, rfl⟩, trivial, ⟨_, rfl⟩, trivial, ⟨_, rfl⟩, trivial, trivial⟩
    exact Json.insert_isJson hfields herror

/-- Every record is formatted, as printable ASCII from which its object is read back. -/
theorem format_spec : ∃ text, r.format floats = .ok text ∧ Json.Printable text.toList ∧
    Json.loads floats (.str text) = .ok (.dict (r.object floats)) := by
  have hobject := r.object_isJson floats
  obtain ⟨text, hdumps, hloads⟩ := Json.loads_dumps floats hobject
  have hformat : r.format floats = .ok text := by
    unfold format
    rw [Json.defaultStr_of_isJson _ hobject, hdumps]
  exact ⟨text, hformat, Json.printable_dumps hobject hdumps, hloads⟩

end LogRecord

/-- The handler writes one line for every record. -/
theorem exists_lines (records : List LogRecord) : ∃ lines : List (List Char),
    written floats records = Lines.stream '\n' lines ∧
      List.Forall₂ (fun r line => Json.Printable line ∧
        Json.loads floats (.str (String.ofList line)) = .ok (.dict (r.object floats)))
        records lines := by
  induction records using List.reverseRecOn with
  | nil => exact ⟨[], rfl, .nil⟩
  | append_singleton records r ih =>
    obtain ⟨lines, hwritten, hlines⟩ := ih
    obtain ⟨text, hformat, hprintable, hloads⟩ := r.format_spec floats
    refine ⟨lines ++ [text.toList], ?_, ?_⟩
    · have hlast : written floats (records ++ [r]) =
          emit floats (written floats records) r := by
        rw [written, List.foldl_append]
        rfl
      rw [hlast, hwritten, emit, hformat]
      simp [Lines.stream]
    · refine List.rel_append hlines (.cons ⟨hprintable, ?_⟩ .nil)
      rw [String.ofList_toList]
      exact hloads

/-- A log that is cut off anywhere has the lines of the first records. -/
theorem exists_records_of_prefix (records : List LogRecord) {text : List Char}
    (htext : text <+: written floats records) :
    ∃ first, first <+: records ∧ (text = written floats records → first = records) ∧
      List.Forall₂ (fun r line => Json.Printable line ∧
        Json.loads floats (.str (String.ofList line)) = .ok (.dict (r.object floats)))
        first (Lines.complete '\n' text) := by
  obtain ⟨lines, hwritten, hlines⟩ := exists_lines floats records
  have hfree : ∀ line ∈ lines, '\n' ∉ line := by
    intro line hline
    obtain ⟨r, -, hr⟩ := exists_left_of_forall₂ hlines hline
    exact hr.1.newline_notMem
  rw [hwritten] at htext
  have hcomplete := Lines.complete_of_prefix '\n' hfree htext
  refine ⟨records.take (Lines.complete '\n' text).length, List.take_prefix _ _,
    fun hwhole => ?_, ?_⟩
  · rw [hwhole, hwritten, Lines.complete_stream '\n' hfree, ← hlines.length_eq, List.take_length]
  · have htaken := List.forall₂_take (Lines.complete '\n' text).length hlines
    rw [← List.prefix_iff_eq_take.mp hcomplete] at htaken
    exact htaken

/-- The log is line-delimited JSON, whatever the messages contain: its lines are printable ASCII
and give back the objects of the records, one line for each record and in their order. A log that
is cut off anywhere gives the objects of the first records. -/
theorem written_lines (records : List LogRecord) {text : List Char}
    (htext : text <+: written floats records) :
    (∀ line ∈ Lines.complete '\n' text, Json.Printable line) ∧
      ∃ first, first <+: records ∧ (text = written floats records → first = records) ∧
        List.Forall₂ (fun r line =>
          Json.loads floats (.str (String.ofList line)) = .ok (.dict (r.object floats)))
          first (Lines.complete '\n' text) := by
  obtain ⟨first, hfirst, hwhole, hlines⟩ := exists_records_of_prefix floats records htext
  refine ⟨fun line hline => ?_, first, hfirst, hwhole, hlines.imp fun _ _ h => h.2⟩
  obtain ⟨r, -, hr⟩ := exists_left_of_forall₂ hlines hline
  exact hr.1

/-- A reader for texts without number literals. -/
def noFloats : FloatReader where
  read _ := ⟨.inf false, "inf"⟩
  jsonFloat _ := .inf

/-- A message that spans two lines, and one that is an audit event. -/
def twoRecords : List LogRecord :=
  [⟨"first\nsecond", "WARNING", "2026-01-01T00:00:00+00:00", "mcp_zero.main", none⟩,
   ⟨"\x7b\"event_type\": \"error\"\x7d", "INFO", "2026-01-01T00:00:01+00:00",
     "mcp_zero.audit.hook", none⟩]

theorem twoRecords_lines :
    ∃ first, first = twoRecords ∧ List.Forall₂ (fun r line =>
      Json.loads noFloats (.str (String.ofList line)) = .ok (.dict (r.object noFloats)))
      first (Lines.complete '\n' (written noFloats twoRecords)) := by
  obtain ⟨-, first, -, hwhole, hlines⟩ :=
    written_lines noFloats twoRecords (List.prefix_refl (written noFloats twoRecords))
  exact ⟨first, hwhole rfl, hlines⟩

end McpZero.Logging
