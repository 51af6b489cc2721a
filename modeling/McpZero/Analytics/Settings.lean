import McpZero.Analytics.Shutdown
import McpZero.Analytics.KeyIsolation
import McpZero.Lib.Except

/-! Which settings are safe. The loader lets every integer through as the width of the buckets and
as the size of the queue, and a queue without a positive size is unbounded. -/
namespace McpZero.Analytics
open Python Governance Governance.Loader Lib

/-- No batch has been lost to a division by zero, and the queue holds no more events than
configured. -/
structure CollectorTasks.Safe (config : AnalyticsConfig) (s : CollectorTasks) : Prop where
  divides : zeroDivision ∉ s.errors
  bounded : s.queue.length ≤ config.queueSize

theorem settings_of_buildAnalytics {d : Dict} {config : AnalyticsConfig}
    (h : buildAnalytics (.dict d) = .ok config) :
    (d.getD "bucket_seconds" (.int 60)).toInt = .ok config.bucketSeconds ∧
      (d.getD "queue_size" (.int 10000)).toInt = .ok config.queueSize := by
  simp only [buildAnalytics, escaping, bind_eq_ok, map_error_eq_ok, pure_eq_ok] at h
  obtain ⟨d', hd', redis, -, bucketSeconds, hbucket, retention, -, heartbeat, -, queueSize, hqueue,
    -, -, rfl⟩ := h
  cases hd'
  exact ⟨hbucket, hqueue⟩

namespace CollectorTasks

variable {config : AnalyticsConfig} {keys : KeyBuilder} {s t : CollectorTasks} {a : CollectorAction}

/-- Where buckets have a width, `_build_operations` raises nothing. -/
theorem beginFlush_ne_raised (hne : config.bucketSeconds ≠ 0) (batch : List QueuedEvent)
    (exc : Exc) : s.beginFlush config keys batch ≠ .raised exc := by
  intro h
  unfold beginFlush at h
  split at h
  · cases h
  · rw [buildOperations_eq hne] at h
    dsimp only at h
    split at h <;> cases h

theorem enqueue_errors (event : TimedEvent) : (s.enqueue event).errors = s.errors := by
  unfold enqueue
  split <;> rfl

theorem enqueue_queueSize (event : TimedEvent) : (s.enqueue event).queueSize = s.queueSize := by
  unfold enqueue
  split <;> rfl

theorem enqueue_length (event : TimedEvent) (hpos : 0 < s.queueSize)
    (h : s.queue.length ≤ s.queueSize) :
    ((s.enqueue event).queue.length : ℤ) ≤ (s.enqueue event).queueSize := by
  have hbounded := s.collector.enqueue_bounded event.toAnalyticsEvent hpos
    (by simpa [collector] using h)
  have hcollector := s.enqueue_collector event
  have hqueue := congrArg AnalyticsCollector.queue hcollector
  have hsize := congrArg AnalyticsCollector.queueSize hcollector
  rw [← hqueue, ← hsize] at hbounded
  simpa [collector] using hbounded

/-- The queue is no longer than its size, and nothing has been raised. -/
structure Orderly (config : AnalyticsConfig) (s : CollectorTasks) : Prop where
  errors : s.errors = []
  queueSize : s.queueSize = config.queueSize
  length : s.queue.length ≤ config.queueSize

theorem Orderly.of_moves (h : Orderly config s) (hne : config.bucketSeconds ≠ 0)
    (hpos : 0 < config.queueSize) (hmoves : Moves config keys s a t) : Orderly config t := by
  cases hmoves with
  | recorded event =>
    have hlength := enqueue_length (s := s) event (h.queueSize ▸ hpos) (h.queueSize ▸ h.length)
    rw [enqueue_queueSize, h.queueSize] at hlength
    exact ⟨(enqueue_errors event).trans h.errors, (enqueue_queueSize event).trans h.queueSize,
      hlength⟩
  | woken _ _ =>
    unfold wake
    split
    · exact ⟨h.errors, h.queueSize, hpos.le⟩
    · cases houtcome : s.beginFlush config keys s.queue with
      | raised exc => exact absurd houtcome (beginFlush_ne_raised hne s.queue exc)
      | _ => exact ⟨h.errors, h.queueSize, hpos.le⟩
  | heartbeatAwaited _ _ =>
    unfold finalFlush
    split
    · exact ⟨h.errors, h.queueSize, hpos.le⟩
    · next exc hraised => exact absurd hraised (beginFlush_ne_raised hne s.queue exc)
    · exact ⟨h.errors, h.queueSize, hpos.le⟩
  | _ => exact ⟨h.errors, h.queueSize, h.length⟩

/-- With buckets of no width, the first flush of an event raises. -/
theorem run_flush_of_zero (hzero : config.bucketSeconds = 0) (queueSize : ℤ) (event : TimedEvent) :
    ∃ s, run (step config keys) (start queueSize)
        [.record event, .flushLoopStarts, .flushLoopWakes] = some s ∧ zeroDivision ∈ s.errors := by
  have hraised : (asleep queueSize event).beginFlush config keys (asleep queueSize event).queue =
      .raised zeroDivision := beginFlush_of_zero hzero (List.cons_ne_nil _ _)
  refine ⟨(asleep queueSize event).wake config keys, run_firstFlush queueSize event [], ?_⟩
  rw [wake, hraised]
  exact List.mem_singleton_self zeroDivision

/-- The settings of an accepted section are safe in all runs exactly when the width of the buckets
is not zero and the size of the queue is positive. -/
theorem safe_iff {d : Dict} (hconfig : buildAnalytics (.dict d) = .ok config) (keys : KeyBuilder) :
    (∀ actions s, run (step config keys) (start config.queueSize) actions = some s →
      s.Safe config) ↔
      (d.getD "bucket_seconds" (.int 60)).toInt ≠ .ok 0 ∧
        ∀ n, (d.getD "queue_size" (.int 10000)).toInt = .ok n → 0 < n := by
  obtain ⟨hbucket, hqueue⟩ := settings_of_buildAnalytics hconfig
  have hsettings : ((d.getD "bucket_seconds" (.int 60)).toInt ≠ .ok 0 ∧
      ∀ n, (d.getD "queue_size" (.int 10000)).toInt = .ok n → 0 < n) ↔
        config.bucketSeconds ≠ 0 ∧ 0 < config.queueSize := by
    rw [hbucket, hqueue]
    simp
  rw [hsettings]
  constructor
  · intro hsafe
    constructor
    · intro hzero
      obtain ⟨s, hrun, hraised⟩ := run_flush_of_zero hzero config.queueSize (queryCall 5)
      exact (hsafe _ s hrun).divides hraised
    · have hrun : run (step config keys) (start config.queueSize) [.record (queryCall 5)] =
          some (afterFirst config.queueSize (queryCall 5)) := by
        rw [run_cons (step_record_start config.queueSize (queryCall 5))]
        rfl
      have hlength : ((1 : ℕ) : ℤ) ≤ config.queueSize := (hsafe _ _ hrun).bounded
      omega
  · rintro ⟨hne, hpos⟩ actions s hrun
    have hstart : Orderly config (start config.queueSize) := ⟨rfl, rfl, hpos.le⟩
    have horderly : Orderly config s :=
      run_invariant (fun _ _ _ hs hstep => hs.of_moves hne hpos (moves_of_step hstep)) hstart hrun
    exact ⟨by simp [horderly.errors], horderly.length⟩

/-- The default settings are safe when the flush loop has drained an event. -/
theorem minuteConfig_safe :
    ∃ s, run (step minuteConfig eastKeys) (start minuteConfig.queueSize)
        [.record (queryCall 5), .flushLoopStarts, .flushLoopWakes] = some s ∧
      s.Safe minuteConfig := by
  have hconfig : buildAnalytics (segmentSection "mcpgw" "prod" "east-1") = .ok minuteConfig :=
    buildAnalytics_segmentSection "mcpgw" "prod" (by decide)
  have hsafe := (safe_iff hconfig eastKeys).mpr
    ⟨fun hzero => absurd (Except.ok.inj hzero) (by decide), fun n hn => by
      rw [← Except.ok.inj hn]
      decide⟩
  exact ⟨_, run_firstFlush minuteConfig.queueSize (queryCall 5) [],
    hsafe _ _ (run_firstFlush minuteConfig.queueSize (queryCall 5) [])⟩

/-- A section with one setting besides the interval of the flush loop. -/
def settingSection (name : String) (n : ℤ) : Value :=
  .dict [(.str name, .int n), (.str "flush_interval", .scalar (.float ⟨.finite 1, "1.0"⟩))]

/-- Buckets of no width, and a queue of no size, are accepted. -/
theorem zeroSettings_not_safe :
    (∃ config, buildAnalytics (settingSection "bucket_seconds" 0) = .ok config ∧ ∃ actions s,
      run (step config eastKeys) (start config.queueSize) actions = some s ∧ ¬ s.Safe config) ∧
    ∃ config, buildAnalytics (settingSection "queue_size" 0) = .ok config ∧ ∃ actions s,
      run (step config eastKeys) (start config.queueSize) actions = some s ∧ ¬ s.Safe config := by
  constructor
  · let config : AnalyticsConfig :=
      { minuteConfig with environment := .str "default", gatewayId := none, bucketSeconds := 0 }
    have hzero : config.bucketSeconds = 0 := rfl
    obtain ⟨s, hrun, hraised⟩ := run_flush_of_zero hzero config.queueSize (queryCall 5)
    exact ⟨config, rfl, _, s, hrun, fun hsafe => hsafe.divides hraised⟩
  · refine ⟨_, rfl, [.record (queryCall 5)], afterFirst 0 (queryCall 5), ?_, fun hsafe => ?_⟩
    · rw [run_cons (step_record_start 0 (queryCall 5))]
      rfl
    · exact absurd hsafe.bounded (by decide)

end CollectorTasks

end McpZero.Analytics
