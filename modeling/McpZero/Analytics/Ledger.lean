import Mathlib
import McpZero.Analytics.Tasks

/-! The books of the collector: where the events are that were put on the queue, and what else holds
at every `await`. -/
namespace McpZero.Analytics
open Python Governance Lib

def StopCall.stage : StopCall → ℕ
  | notCalled => 5
  | awaitingFlushLoop => 4
  | awaitingHeartbeat => 3
  | writing _ => 2
  | disconnecting => 1
  | returned | raised _ => 0

/-- The operations of a call are those of its batch. -/
structure PipelineCall.Built (config : AnalyticsConfig) (keys : KeyBuilder) (call : PipelineCall) :
    Prop where
  batch : call.batch ≠ []
  operations : buildOperations config keys (call.batch.map (·.toTimedEvent)) = .ok call.operations

namespace CollectorTasks

/-- The events that were put on the queue, wherever they are. -/
def events (s : CollectorTasks) : Multiset QueuedEvent :=
  ↑(s.completed.flatMap (·.batch)) + ↑s.lost + ↑s.flushLoop.batch + ↑s.stop.batch + ↑s.queue

section

variable (config : AnalyticsConfig) (keys : KeyBuilder)

/-- The steps of the tasks. -/
inductive Moves (s : CollectorTasks) : CollectorAction → CollectorTasks → Prop
  | recorded (event : TimedEvent) : Moves s (.record event) (s.enqueue event)
  | started : s.flushLoop = .created → s.cancelRequested = false →
      Moves s .flushLoopStarts s.nextIteration
  | woken : s.flushLoop = .sleeping → s.cancelRequested = false →
      Moves s .flushLoopWakes (s.wake config keys)
  | written {call : PipelineCall} : s.flushLoop = .writing call → s.cancelRequested = false →
      Moves s .flushLoopWritten { s with completed := s.completed ++ [call] }.nextIteration
  | interrupted : s.flushLoop ≠ .finished → s.cancelRequested = true →
      Moves s .flushLoopCancelled s.interrupted
  | heartbeatEnded : s.running = false → Moves s .heartbeatEnds { s with heartbeatFinished := true }
  | stopCalled : s.running = true →
      Moves s .stop
        { s with running := false, cancelRequested := true, stop := .awaitingFlushLoop }
  | stopCalledAgain : s.running = false → Moves s .stop s
  | flushLoopAwaited : s.stop = .awaitingFlushLoop → s.flushLoop = .finished →
      Moves s .stopResumes { s with stop := .awaitingHeartbeat }
  | heartbeatAwaited : s.stop = .awaitingHeartbeat → s.heartbeatFinished = true →
      Moves s .stopResumes (s.finalFlush config keys)
  | finalWritten {call : PipelineCall} : s.stop = .writing call →
      Moves s .stopResumes { s with completed := s.completed ++ [call], stop := .disconnecting }
  | disconnected : s.stop = .disconnecting →
      Moves s .stopResumes { s with stop := .returned, connected := false }

/-- What holds at every `await`. -/
structure Sound (s : CollectorTasks) : Prop where
  books : s.events.map (·.number) = Multiset.range s.put
  cancelRequested : s.cancelRequested = !s.running
  running : s.running = true ↔ s.stop.stage = 5
  putBeforeStop : s.putBeforeStop ≤ s.put
  putBeforeStop_eq : s.running = true → s.putBeforeStop = s.put
  flushLoop : s.stop.stage < 4 → s.flushLoop = .finished
  connected : 0 < s.stop.stage → s.connected = true
  early : ∀ e ∈ s.flushLoop.batch, e.number < s.putBeforeStop
  late : s.stop.stage < 3 → ∀ e ∈ s.queue, s.putBeforeStop ≤ e.number
  built : ∀ call, call ∈ s.completed ∨ s.flushLoop = .writing call ∨ s.stop = .writing call →
    call.Built config keys
  lost : config.bucketSeconds ≠ 0 → ∀ e ∈ s.lost, e.number < s.putBeforeStop

end

variable {config : AnalyticsConfig} {keys : KeyBuilder} {s t : CollectorTasks} {a : CollectorAction}

theorem moves_of_step (h : s.step config keys a = some t) : Moves config keys s a t := by
  cases a with
  | record event =>
    cases h
    exact .recorded event
  | flushLoopStarts =>
    simp only [step] at h
    split at h
    · next hloop hcancel =>
      cases h
      exact .started hloop hcancel
    · cases h
  | flushLoopWakes =>
    simp only [step] at h
    split at h
    · next hloop hcancel =>
      cases h
      exact .woken hloop hcancel
    · cases h
  | flushLoopWritten =>
    simp only [step] at h
    split at h
    · next hloop hcancel =>
      cases h
      exact .written hloop hcancel
    · cases h
  | flushLoopCancelled =>
    simp only [step] at h
    split at h
    · cases h
    · next hcancel hloop =>
      cases h
      exact .interrupted hloop hcancel
    · cases h
  | heartbeatEnds =>
    simp only [step] at h
    split at h
    · cases h
    · next hrunning =>
      cases h
      exact .heartbeatEnded hrunning
  | stop =>
    simp only [step] at h
    split at h
    · next hrunning =>
      cases h
      exact .stopCalled hrunning
    · next hrunning =>
      cases h
      exact .stopCalledAgain hrunning
  | stopResumes =>
    simp only [step] at h
    split at h
    · next _ hstop hloop =>
      cases h
      exact .flushLoopAwaited hstop hloop
    · next hstop hheartbeat =>
      cases h
      exact .heartbeatAwaited hstop hheartbeat
    · next hstop =>
      cases h
      exact .finalWritten hstop
    · next hstop =>
      cases h
      exact .disconnected hstop
    · cases h

/-! What a flush begins -/

theorem beginFlush_writing {batch : List QueuedEvent} {call : PipelineCall}
    (h : s.beginFlush config keys batch = .writing call) :
    call.batch = batch ∧ call.Built config keys := by
  unfold beginFlush at h
  split at h
  · cases h
  · next hbatch =>
    split at h
    · cases h
    · next operations hoperations =>
      split at h
      · cases h
      · cases h
        exact ⟨rfl, by simpa using hbatch, hoperations⟩

theorem beginFlush_nil : s.beginFlush config keys [] = .returned := rfl

/-- A connected client writes every batch that the arithmetic lets through. -/
theorem exists_beginFlush_eq {batch : List QueuedEvent} (hne : config.bucketSeconds ≠ 0)
    (hconnected : s.connected = true) (hbatch : batch ≠ []) :
    ∃ call, s.beginFlush config keys batch = .writing call := by
  have hevents : batch.map (·.toTimedEvent) ≠ [] := by simpa using hbatch
  obtain ⟨operations, hoperations⟩ : ∃ operations,
      buildOperations config keys (batch.map (·.toTimedEvent)) = .ok operations :=
    ⟨_, buildOperations_eq hne (batch.map (·.toTimedEvent))⟩
  have hwrites := operations_ne_nil hevents hoperations
  unfold beginFlush
  rw [if_neg (by simpa using hbatch), hoperations]
  simp [hconnected, hwrites]

theorem beginFlush_of_zero {batch : List QueuedEvent} (hzero : config.bucketSeconds = 0)
    (hbatch : batch ≠ []) : s.beginFlush config keys batch = .raised zeroDivision := by
  obtain ⟨event, events, rfl⟩ := List.exists_cons_of_ne_nil hbatch
  unfold beginFlush
  rw [if_neg (by simp), List.map_cons, buildOperations_of_zero hzero]

theorem not_built_of_zero {call : PipelineCall} (hzero : config.bucketSeconds = 0) :
    ¬ call.Built config keys := by
  rintro ⟨hbatch, hoperations⟩
  obtain ⟨event, events, hcons⟩ := List.exists_cons_of_ne_nil hbatch
  rw [hcons, List.map_cons, buildOperations_of_zero hzero] at hoperations
  cases hoperations

/-! What every step keeps -/

theorem sound_start (queueSize : ℤ) : Sound config keys (start queueSize) where
  books := rfl
  cancelRequested := rfl
  running := by simp [start, StopCall.stage]
  putBeforeStop := le_rfl
  putBeforeStop_eq _ := rfl
  flushLoop := by simp [start, StopCall.stage]
  connected _ := rfl
  early := by simp [start, FlushLoop.batch]
  late := by simp [start]
  built := by simp [start]
  lost := by simp [start]

theorem Sound.number_lt (h : Sound config keys s) {e : QueuedEvent} (he : e ∈ s.events) :
    e.number < s.put := by
  have hmem := Multiset.mem_map_of_mem (·.number) he
  rwa [h.books, Multiset.mem_range] at hmem

theorem Sound.not_running (h : Sound config keys s) (hstage : s.stop.stage < 5) :
    s.running = false := by
  rw [← Bool.not_eq_true, h.running]
  omega

theorem Sound.running_of_not_cancelled (h : Sound config keys s)
    (hcancel : s.cancelRequested = false) : s.running = true := by
  simpa [h.cancelRequested] using hcancel

theorem Sound.enqueue (h : Sound config keys s) (event : TimedEvent) :
    Sound config keys (s.enqueue event) := by
  unfold CollectorTasks.enqueue
  split
  · exact { h with }
  · have hle := h.putBeforeStop
    have hbefore : s.putBeforeStop ≤ if s.running then s.put + 1 else s.putBeforeStop := by
      split <;> omega
    refine { h with
      books := ?_
      putBeforeStop := ?_
      putBeforeStop_eq := fun hrunning => if_pos hrunning
      early := fun e he => (h.early e he).trans_le hbefore
      late := fun hstage e he => ?_
      lost := fun hne e he => (h.lost hne e he).trans_le hbefore }
    · have hbooks := h.books
      simp only [events] at hbooks ⊢
      rw [← Multiset.coe_add, ← add_assoc, Multiset.map_add, hbooks, Multiset.range_succ, add_comm]
      rfl
    · dsimp only
      split <;> omega
    · dsimp only at hstage he ⊢
      rw [h.not_running (by omega), if_neg Bool.false_ne_true]
      rcases List.mem_append.mp he with he | he
      · exact h.late hstage e he
      · rw [List.mem_singleton.mp he]
        exact hle

/-- The flush loop goes to sleep. -/
theorem Sound.nextIteration (h : Sound config keys s) (hrunning : s.running = true)
    (hloop : s.flushLoop.batch = []) : Sound config keys s.nextIteration := by
  have hsleeping : s.nextIteration = { s with flushLoop := .sleeping } := by
    rw [CollectorTasks.nextIteration, if_pos hrunning]
  have hstage := h.running.mp hrunning
  rw [hsleeping]
  refine { h with
    books := ?_
    flushLoop := fun hlt => ?_
    early := List.forall_mem_nil _
    built := ?_ }
  · have hbooks := h.books
    rwa [events, hloop] at hbooks
  · dsimp only at hlt
    omega
  · rintro call (hcall | hcall | hcall)
    · exact h.built call (.inl hcall)
    · cases hcall
    · exact h.built call (.inr (.inr hcall))

theorem Sound.queue_eq_nil (h : Sound config keys s) (hne : config.bucketSeconds ≠ 0)
    (hstage : 0 < s.stop.stage)
    (hwriting : ∀ call, s.beginFlush config keys s.queue ≠ .writing call) : s.queue = [] := by
  by_contra hqueue
  obtain ⟨call, hcall⟩ : ∃ call, s.beginFlush config keys s.queue = .writing call :=
    exists_beginFlush_eq hne (h.connected hstage) hqueue
  exact hwriting call hcall

/-- A drained batch that is not written is lost. -/
theorem Sound.drain (h : Sound config keys s) (hstage : 0 < s.stop.stage)
    (hwriting : ∀ call, s.beginFlush config keys s.queue ≠ .writing call) :
    Sound config keys (s.drain (s.beginFlush config keys s.queue)) := by
  have hbooks : (({ s with queue := [], lost := s.lost ++ s.queue } : CollectorTasks).events.map
      (·.number)) = Multiset.range s.put := by
    rw [← h.books]
    congr 1
    simp only [events, ← Multiset.coe_add, Multiset.coe_nil, add_zero]
    abel
  have hlost (hne : config.bucketSeconds ≠ 0) :
      ∀ e ∈ s.lost ++ s.queue, e.number < s.putBeforeStop := by
    rw [h.queue_eq_nil hne hstage hwriting, List.append_nil]
    exact h.lost hne
  cases houtcome : s.beginFlush config keys s.queue with
  | returned => exact { h with books := hbooks, late := by simp [CollectorTasks.drain], lost := hlost }
  | raised exc => exact { h with books := hbooks, late := by simp [CollectorTasks.drain], lost := hlost }
  | writing call => exact absurd houtcome (hwriting call)

theorem Sound.wake (h : Sound config keys s) (hloop : s.flushLoop = .sleeping)
    (hcancel : s.cancelRequested = false) : Sound config keys (s.wake config keys) := by
  have hrunning := h.running_of_not_cancelled hcancel
  have hstage := h.running.mp hrunning
  unfold CollectorTasks.wake
  split
  · next call hcall =>
    obtain ⟨hbatch, hbuilt⟩ := beginFlush_writing hcall
    have hevents : ({ s with queue := [], flushLoop := .writing call } : CollectorTasks).events =
        s.events := by
      simp only [events, hloop, FlushLoop.batch, hbatch, Multiset.coe_nil, add_zero]
      abel
    refine { h with
      books := (congrArg _ hevents).trans h.books
      flushLoop := fun hlt => ?_
      early := fun e he => ?_
      late := fun _ => List.forall_mem_nil _
      built := ?_ }
    · dsimp only [CollectorTasks.drain] at hlt
      omega
    · have hqueue : e ∈ s.queue := hbatch ▸ he
      have hmem : e ∈ s.events := by
        rw [events, Multiset.mem_add]
        exact .inr hqueue
      exact (h.number_lt hmem).trans_eq (h.putBeforeStop_eq hrunning).symm
    · rintro call' (hcall' | hcall' | hcall')
      · exact h.built call' (.inl hcall')
      · cases hcall'
        exact hbuilt
      · exact h.built call' (.inr (.inr hcall'))
  · next hwriting =>
    have hdrain := h.drain (by omega) hwriting
    refine hdrain.nextIteration ?_ ?_
    · cases s.beginFlush config keys s.queue <;> exact hrunning
    · cases s.beginFlush config keys s.queue <;> exact congrArg FlushLoop.batch hloop

theorem Sound.written {call : PipelineCall} (h : Sound config keys s)
    (hloop : s.flushLoop = .writing call) (hcancel : s.cancelRequested = false) :
    Sound config keys { s with completed := s.completed ++ [call] }.nextIteration := by
  have hrunning := h.running_of_not_cancelled hcancel
  have hstage := h.running.mp hrunning
  have hsleeping : { s with completed := s.completed ++ [call] }.nextIteration =
      { s with completed := s.completed ++ [call], flushLoop := .sleeping } := by
    rw [CollectorTasks.nextIteration, if_pos hrunning]
  have hevents : ({ s with completed := s.completed ++ [call], flushLoop := .sleeping } :
      CollectorTasks).events = s.events := by
    simp only [events, hloop, FlushLoop.batch, List.flatMap_append, List.flatMap_singleton,
      ← Multiset.coe_add, Multiset.coe_nil, add_zero]
    abel
  rw [hsleeping]
  refine { h with
    books := (congrArg _ hevents).trans h.books
    flushLoop := fun hlt => ?_
    early := List.forall_mem_nil _
    built := ?_ }
  · dsimp only at hlt
    omega
  · rintro call' (hcall' | hcall' | hcall')
    · rcases List.mem_append.mp hcall' with hcall' | hcall'
      · exact h.built call' (.inl hcall')
      · rw [List.mem_singleton.mp hcall']
        exact h.built call (.inr (.inl hloop))
    · cases hcall'
    · exact h.built call' (.inr (.inr hcall'))

theorem Sound.interrupted (h : Sound config keys s) : Sound config keys s.interrupted := by
  have hevents : s.interrupted.events = s.events := by
    simp only [events, CollectorTasks.interrupted, FlushLoop.batch, ← Multiset.coe_add,
      Multiset.coe_nil, add_zero]
    abel
  refine { h with
    books := (congrArg _ hevents).trans h.books
    flushLoop := fun _ => rfl
    early := List.forall_mem_nil _
    built := ?_
    lost := fun hne e he => ?_ }
  · rintro call' (hcall' | hcall' | hcall')
    · exact h.built call' (.inl hcall')
    · cases hcall'
    · exact h.built call' (.inr (.inr hcall'))
  · rcases List.mem_append.mp he with he | he
    · exact h.lost hne e he
    · exact h.early e he

/-- `stop` goes on to a later `await` that writes nothing. -/
theorem Sound.advance {x : StopCall} (h : Sound config keys s) (hrunning : s.running = false)
    (hbatch : s.stop.batch = []) (hx : ∀ call, x ≠ .writing call) (hstage : x.stage < 5)
    (hloop : x.stage < 4 → s.flushLoop = .finished) (hconnected : 0 < x.stage → s.connected = true)
    (hlate : x.stage < 3 → ∀ e ∈ s.queue, s.putBeforeStop ≤ e.number) :
    Sound config keys { s with stop := x } := by
  have hxbatch : x.batch = [] := by
    cases x with
    | writing call => exact absurd rfl (hx call)
    | _ => rfl
  have hevents : ({ s with stop := x } : CollectorTasks).events = s.events := by
    simp only [events, hbatch, hxbatch]
  refine { h with
    books := (congrArg _ hevents).trans h.books
    running := ?_
    flushLoop := hloop
    connected := hconnected
    late := hlate
    built := ?_ }
  · rw [hrunning]
    simp only [Bool.false_eq_true, false_iff]
    omega
  · rintro call' (hcall' | hcall' | hcall')
    · exact h.built call' (.inl hcall')
    · exact h.built call' (.inr (.inl hcall'))
    · exact absurd hcall' (hx call')

theorem Sound.finalFlush (h : Sound config keys s) (hstop : s.stop = .awaitingHeartbeat) :
    Sound config keys (s.finalFlush config keys) := by
  have hrunning : s.running = false := h.not_running (by rw [hstop, StopCall.stage]; omega)
  have hstage : s.stop.stage = 3 := by rw [hstop, StopCall.stage]
  unfold CollectorTasks.finalFlush
  split
  · next call hcall =>
    obtain ⟨hbatch, hbuilt⟩ := beginFlush_writing hcall
    have hevents : ({ s with queue := [], stop := .writing call } : CollectorTasks).events =
        s.events := by
      simp only [events, hstop, StopCall.batch, hbatch, Multiset.coe_nil, add_zero]
    refine { h with
      books := (congrArg _ hevents).trans h.books
      running := ?_
      flushLoop := fun _ => h.flushLoop (by omega)
      connected := fun _ => h.connected (by omega)
      late := fun _ => List.forall_mem_nil _
      built := ?_ }
    · simp [CollectorTasks.drain, hrunning, StopCall.stage]
    · rintro call' (hcall' | hcall' | hcall')
      · exact h.built call' (.inl hcall')
      · exact h.built call' (.inr (.inl hcall'))
      · cases hcall'
        exact hbuilt
  · next exc hraised =>
    have hdrain := h.drain (by omega) fun call => by rw [hraised]; exact FlushOutcome.noConfusion
    rw [hraised] at hdrain
    exact hdrain.advance hrunning (congrArg StopCall.batch hstop) (fun _ => StopCall.noConfusion)
      (Nat.succ_pos 4) (fun _ => h.flushLoop (by omega)) (fun _ => h.connected (by omega))
      fun _ => List.forall_mem_nil _
  · next hreturned =>
    have hdrain := h.drain (by omega) fun call => by rw [hreturned]; exact FlushOutcome.noConfusion
    rw [hreturned] at hdrain
    exact hdrain.advance hrunning (congrArg StopCall.batch hstop) (fun _ => StopCall.noConfusion)
      (by decide) (fun _ => h.flushLoop (by omega)) (fun _ => h.connected (by omega))
      fun _ => List.forall_mem_nil _

theorem Sound.stopCalled (h : Sound config keys s) (hrunning : s.running = true) :
    Sound config keys
      { s with running := false, cancelRequested := true, stop := .awaitingFlushLoop } := by
  have hstage := h.running.mp hrunning
  have hstop : s.stop = .notCalled := by
    cases hstop : s.stop with
    | notCalled => rfl
    | _ => simp [hstop, StopCall.stage] at hstage
  have hevents : ({ s with running := false, cancelRequested := true, stop := .awaitingFlushLoop } :
      CollectorTasks).events = s.events := by
    simp only [events, hstop, StopCall.batch]
  refine { h with
    books := (congrArg _ hevents).trans h.books
    cancelRequested := rfl
    running := by simp [StopCall.stage]
    putBeforeStop_eq := fun hfalse => absurd hfalse Bool.false_ne_true
    flushLoop := fun hlt => absurd hlt (Nat.lt_irrefl 4)
    connected := fun _ => h.connected (by omega)
    late := fun hlt => absurd hlt (Nat.not_succ_lt_self (n := 3))
    built := ?_ }
  rintro call' (hcall' | hcall' | hcall')
  · exact h.built call' (.inl hcall')
  · exact h.built call' (.inr (.inl hcall'))
  · cases hcall'

theorem Sound.finalWritten {call : PipelineCall} (h : Sound config keys s)
    (hstop : s.stop = .writing call) :
    Sound config keys { s with completed := s.completed ++ [call], stop := .disconnecting } := by
  have hstage : s.stop.stage = 2 := by rw [hstop, StopCall.stage]
  have hrunning := h.not_running (by omega)
  have hevents : ({ s with completed := s.completed ++ [call], stop := .disconnecting } :
      CollectorTasks).events = s.events := by
    simp only [events, hstop, StopCall.batch, List.flatMap_append, List.flatMap_singleton,
      ← Multiset.coe_add, Multiset.coe_nil, add_zero]
    abel
  refine { h with
    books := (congrArg _ hevents).trans h.books
    running := by simp [hrunning, StopCall.stage]
    flushLoop := fun _ => h.flushLoop (by omega)
    connected := fun _ => h.connected (by omega)
    late := fun _ => h.late (by omega)
    built := ?_ }
  rintro call' (hcall' | hcall' | hcall')
  · rcases List.mem_append.mp hcall' with hcall' | hcall'
    · exact h.built call' (.inl hcall')
    · rw [List.mem_singleton.mp hcall']
      exact h.built call (.inr (.inr hstop))
  · exact h.built call' (.inr (.inl hcall'))
  · cases hcall'

theorem sound_of_moves (h : Sound config keys s) (hmoves : Moves config keys s a t) :
    Sound config keys t := by
  cases hmoves with
  | recorded event => exact h.enqueue event
  | started hloop hcancel =>
    exact h.nextIteration (h.running_of_not_cancelled hcancel) (by rw [hloop]; rfl)
  | woken hloop hcancel => exact h.wake hloop hcancel
  | written hloop hcancel => exact h.written hloop hcancel
  | interrupted hloop hcancel => exact h.interrupted
  | heartbeatEnded _ => exact { h with }
  | stopCalled hrunning => exact h.stopCalled hrunning
  | stopCalledAgain _ => exact h
  | flushLoopAwaited hstop hloop =>
    have hstage : s.stop.stage = 4 := by rw [hstop, StopCall.stage]
    refine h.advance (h.not_running (by omega)) (by rw [hstop]; rfl)
      (fun _ => StopCall.noConfusion) (by decide) (fun _ => hloop)
      (fun _ => h.connected (by omega)) fun hlt => ?_
    exact absurd hlt (by decide)
  | heartbeatAwaited hstop _ => exact h.finalFlush hstop
  | finalWritten hstop => exact h.finalWritten hstop
  | disconnected hstop =>
    have hstage : s.stop.stage = 1 := by rw [hstop, StopCall.stage]
    have hadvance := h.advance (x := .returned) (h.not_running (by omega)) (by rw [hstop]; rfl)
      (fun _ => StopCall.noConfusion) (by decide) (fun _ => h.flushLoop (by omega))
      (fun hlt => absurd hlt (by decide)) fun _ => h.late (by omega)
    exact { hadvance with connected := fun hlt => absurd hlt (Nat.lt_irrefl 0) }

theorem sound_of_run (queueSize : ℤ) {actions : List CollectorAction}
    (hrun : run (step config keys) (start queueSize) actions = some s) : Sound config keys s :=
  run_invariant (fun _ _ _ h hstep => sound_of_moves h (moves_of_step hstep))
    (sound_start queueSize) hrun

end CollectorTasks

end McpZero.Analytics
