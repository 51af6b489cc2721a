import Mathlib.Data.String.Basic
import McpZero.Lib.Tally
import McpZero.Masking.Walkers
import McpZero.Python.Operators

/-! The Presidio engine, and what its events tell of a payload. -/
namespace McpZero.Masking
open Python Lib

/-- The packages of Presidio. `analyze` gives the detections in a text, of type `ρ`. -/
structure Presidio (ρ σ : Type) where
  importPackages : Action σ Unit
  buildAnalyzer : Action σ Unit
  buildAnonymizer : Action σ Unit
  analyze : String → List String → Except Exc (List ρ)
  entityType : ρ → String
  anonymize : String → List ρ → List (String × String) → Except Exc String

/-- Which of `_analyzer` and `_anonymizer` are set. -/
structure Engines where
  analyzer : Bool := false
  anonymizer : Bool := false

/-- `except ImportError`. -/
def isImportError : Exc → Bool
  | .other typeName _ => typeName = "ImportError" || typeName = "ModuleNotFoundError"
  | _ => false

namespace Presidio

variable {ρ σ : Type} (p : Presidio ρ σ)

/-- An exception while the engines are built. -/
def initialisationFailed (e : Exc) : Exc :=
  .maskingEngine ("Failed to initialise Presidio engines: " ++ e.message) "presidio"

/-- `_ensure_initialized`. An anonymizer that cannot be built leaves the analyzer set, and is not
built again. -/
def ensureInitialized : Action (Engines × σ) Unit := fun (engines, s) =>
  if engines.analyzer then (.ok (), (engines, s))
  else
    match p.importPackages s with
    | (.error e, s) =>
      if isImportError e then
        (.error (.maskingEngine "presidio-analyzer and presidio-anonymizer must be installed"
          "presidio"), (engines, s))
      else (.error e, (engines, s))
    | (.ok (), s) =>
      match p.buildAnalyzer s with
      | (.error e, s) => (.error (initialisationFailed e), (engines, s))
      | (.ok (), s) =>
        match p.buildAnonymizer s with
        | (.error e, s) =>
          (.error (initialisationFailed e), ({ engines with analyzer := true }, s))
        | (.ok (), s) => (.ok (), (⟨true, true⟩, s))

/-- `Counter` of the entity types. -/
def counts (results : List ρ) : List (String × ℤ) :=
  Tally.tally (results.map fun r => (p.entityType r, 1))

/-- `operators[entity_type] = operator`. -/
def setOperator (entityType operator : String) :
    List (String × String) → List (String × String)
  | [] => [(entityType, operator)]
  | (t, o) :: rest =>
    if t = entityType then (t, operator) :: rest else (t, o) :: setOperator entityType operator rest

/-- What each entity type is replaced by. -/
def operators (counts : List (String × ℤ)) : List (String × String) :=
  counts.foldl (fun ops c => setOperator c.1 ("<" ++ c.1 ++ ">") ops) [("DEFAULT", "<MASKED>")]

/-- `sorted(counts.items())`. -/
def sortedCounts (counts : List (String × ℤ)) : List (String × ℤ) :=
  counts.mergeSort fun a b => a.1 ≤ b.1

/-- The events of the counts. -/
def maskedEvent (c : String × ℤ) : MaskingEvent where
  entityType := c.1
  count := c.2
  status := "masked"

/-- What `mask_text` returns for the detections. -/
def maskDetections (text : String) (results : List ρ) : Except Exc MaskingResult := do
  let counts := p.counts results
  let anonymized ← p.anonymize text results (operators counts)
  return {
    maskedText := anonymized
    events := (sortedCounts counts).map maskedEvent
    hasMasked := true }

/-- `mask_text`. -/
def maskText (text : String) (entities : List String) (_direction : String) :
    Action (Engines × σ) MaskingResult := fun s =>
  if text = "" then (.ok { maskedText := text }, s)
  else
    match p.ensureInitialized s with
    | (.error e, s) => (.error e, s)
    | (.ok (), s) =>
      match p.analyze text entities with
      | .error e => (.error e, s)
      | .ok [] => (.ok { maskedText := text }, s)
      | .ok (r :: results) =>
        if s.1.anonymizer then (p.maskDetections text (r :: results), s)
        else (.error (Value.noAttribute .none "anonymize"), s)

/-- The detections in a text. -/
def found (entities : List String) (text : String) : List ρ :=
  if text = "" then [] else (p.analyze text entities).toOption.getD []

/-- How often an entity type is detected in a text. -/
def detections (entities : List String) (entityType text : String) : ℕ :=
  (p.found entities text).countP fun r => p.entityType r = entityType

end Presidio

/-- The count and the entity type of an event. -/
def countOf (event : MaskingEvent) : String × ℤ := (event.entityType, event.count)

/-- What events count for an entity type. -/
def counted (entityType : String) (events : List MaskingEvent) : ℤ :=
  Tally.total entityType (events.map countOf)

theorem counted_append (entityType : String) (xs ys : List MaskingEvent) :
    counted entityType (xs ++ ys) = counted entityType xs + counted entityType ys := by
  rw [counted, List.map_append, Tally.total_append]
  rfl

namespace Presidio

variable {ρ σ : Type} (p : Presidio ρ σ)

theorem total_detected (entityType : String) (results : List ρ) :
    Tally.total entityType (results.map fun r => (p.entityType r, (1 : ℤ))) =
      results.countP fun r => p.entityType r = entityType := by
  induction results with
  | nil => rfl
  | cons r results ih =>
    rw [List.map_cons, Tally.total_cons, ih, List.countP_cons]
    by_cases hr : p.entityType r = entityType
    · simp [hr, add_comm]
    · simp [hr]

/-- The events of a text count its detections. -/
theorem counted_sortedCounts (entityType : String) (results : List ρ) :
    counted entityType ((sortedCounts (p.counts results)).map maskedEvent) =
      results.countP fun r => p.entityType r = entityType := by
  have hevents : ((sortedCounts (p.counts results)).map maskedEvent).map countOf =
      sortedCounts (p.counts results) := by
    rw [List.map_map]
    exact List.map_id _
  have hsorted : (sortedCounts (p.counts results)).Perm (p.counts results) :=
    List.mergeSort_perm _ _
  rw [counted, hevents, Tally.total_perm entityType hsorted, counts, Tally.total_tally,
    total_detected]

/-- What the engine answers for a text, whatever it has loaded before. -/
structure Answers (entities : List String) (text : String) (result : MaskingResult) : Prop where
  masked : result.hasMasked = true ↔ p.found entities text ≠ []
  counted : ∀ t, counted t (if result.hasMasked then result.events else []) =
    p.detections entities t text
  succeeded : ∀ event ∈ result.events, event.status = "masked"

theorem answers_of_nothing {entities : List String} {text : String}
    (hfound : p.found entities text = []) : p.Answers entities text { maskedText := text } where
  masked := by simp [hfound]
  counted t := by simp [detections, hfound, Masking.counted]
  succeeded event hevent := absurd hevent List.not_mem_nil

theorem answers_of_maskDetections {entities : List String} {text : String} {results : List ρ}
    {result : MaskingResult} (hne : results ≠ []) (hfound : p.found entities text = results)
    (h : p.maskDetections text results = .ok result) : p.Answers entities text result := by
  simp only [maskDetections, bind_eq_ok, pure_eq_ok] at h
  obtain ⟨anonymized, -, rfl⟩ := h
  refine ⟨by simp [hfound, hne], fun t => ?_, fun event hevent => ?_⟩
  · rw [detections, hfound]
    exact p.counted_sortedCounts t results
  · obtain ⟨c, -, rfl⟩ := List.mem_map.mp hevent
    rfl

theorem answers_of_maskText {text : String} {entities : List String} (direction : String)
    {s s' : Engines × σ} {result : MaskingResult}
    (h : p.maskText text entities direction s = (.ok result, s')) :
    p.Answers entities text result := by
  unfold maskText at h
  by_cases htext : text = ""
  · rw [if_pos htext] at h
    cases h
    exact p.answers_of_nothing (if_pos htext)
  rw [if_neg htext] at h
  rcases hloaded : p.ensureInitialized s with ⟨e | u, s₁⟩
  · rw [hloaded] at h
    cases h
  · rw [hloaded] at h
    dsimp only at h
    cases hanalyze : p.analyze text entities with
    | error e =>
      rw [hanalyze] at h
      cases h
    | ok results =>
      have hfound : p.found entities text = results := by
        rw [found, if_neg htext, hanalyze]
        rfl
      rw [hanalyze] at h
      cases results with
      | nil =>
        cases h
        exact p.answers_of_nothing hfound
      | cons r results =>
        dsimp only at h
        by_cases hanonymizer : s₁.1.anonymizer = true
        · rw [if_pos hanonymizer] at h
          exact p.answers_of_maskDetections (List.cons_ne_nil r results) hfound
            (congrArg Prod.fst h)
        · rw [if_neg hanonymizer] at h
          cases h

end Presidio

end McpZero.Masking
