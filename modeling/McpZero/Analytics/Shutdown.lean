import McpZero.Analytics.Counters
import McpZero.Analytics.Ledger

/-! What a shutdown keeps. An event is lost when its batch has been drained and is not written. -/
namespace McpZero.Analytics
open Governance Lib

def FlushLoop.isFinished : FlushLoop → Bool
  | finished => true
  | _ => false

/-- The calls that contain an element that stands at most once in all of them. -/
theorem countP_mem_eq_count {α β : Type} [DecidableEq α] {f : β → List α} {a : α} {bs : List β}
    (h : (bs.flatMap f).count a ≤ 1) : bs.countP (fun b => a ∈ f b) = (bs.flatMap f).count a := by
  induction bs with
  | nil => rfl
  | cons b bs ih =>
    rw [List.flatMap_cons, List.count_append] at h ⊢
    rw [List.countP_cons, ih (by omega)]
    by_cases hmem : a ∈ f b
    · have hpos := List.count_pos_iff.mpr hmem
      simp only [hmem, decide_true, if_true]
      omega
    · have hzero := List.count_eq_zero.mpr hmem
      simp [hmem, hzero]

namespace CollectorTasks

/-- Each event that was put on the queue before `stop` was called is in exactly one call of
`execute_pipeline` that ran to completion. -/
def Conserves (s : CollectorTasks) : Prop :=
  ∀ n < s.putBeforeStop, s.completed.countP (fun call => n ∈ call.numbers) = 1

/-- `stop` is not called while the flush loop writes. -/
def StopsBetweenFlushes (s : CollectorTasks) (a : CollectorAction) (_ : CollectorTasks) : Prop :=
  a = .stop → s.running = true → s.flushLoop.isWriting = false

variable {config : AnalyticsConfig} {keys : KeyBuilder} {s t : CollectorTasks} {a : CollectorAction}

/-! What is lost -/

/-- Nothing is lost, and nothing is being lost. -/
def Kept (s : CollectorTasks) : Prop :=
  s.lost = [] ∧ (s.running = false → s.flushLoop.isWriting = false)

theorem enqueue_frame (event : TimedEvent) :
    (s.enqueue event).lost = s.lost ∧ (s.enqueue event).running = s.running ∧
      (s.enqueue event).flushLoop = s.flushLoop := by
  unfold enqueue
  split <;> exact ⟨rfl, rfl, rfl⟩

theorem wake_running : (s.wake config keys).running = s.running := by
  unfold wake
  split
  · rfl
  · cases s.beginFlush config keys s.queue <;> rfl

theorem finalFlush_frame : (s.finalFlush config keys).running = s.running ∧
    (s.finalFlush config keys).flushLoop = s.flushLoop ∧
    (s.finalFlush config keys).heartbeatFinished = s.heartbeatFinished := by
  unfold finalFlush
  split <;> exact ⟨rfl, rfl, rfl⟩

theorem Sound.drain_lost (h : Sound config keys s) (hne : config.bucketSeconds ≠ 0)
    (hstage : 0 < s.stop.stage)
    (hwriting : ∀ call, s.beginFlush config keys s.queue ≠ .writing call) :
    (s.drain (s.beginFlush config keys s.queue)).lost = s.lost := by
  have hqueue := h.queue_eq_nil hne hstage hwriting
  rw [hqueue, beginFlush_nil, CollectorTasks.drain, hqueue]
  exact List.append_nil s.lost

theorem Sound.wake_lost (h : Sound config keys s) (hne : config.bucketSeconds ≠ 0)
    (hstage : 0 < s.stop.stage) : (s.wake config keys).lost = s.lost := by
  unfold CollectorTasks.wake
  split
  · rfl
  · next hwriting => exact h.drain_lost hne hstage hwriting

theorem Sound.finalFlush_lost (h : Sound config keys s) (hne : config.bucketSeconds ≠ 0)
    (hstage : 0 < s.stop.stage) : (s.finalFlush config keys).lost = s.lost := by
  have hlost := h.drain_lost hne hstage
  unfold CollectorTasks.finalFlush
  split
  · rfl
  · next exc hraised =>
    rw [hraised] at hlost
    exact hlost fun _ => FlushOutcome.noConfusion
  · next hreturned =>
    rw [hreturned] at hlost
    exact hlost fun _ => FlushOutcome.noConfusion

theorem kept_iff_of_running (hrunning : s.running = true) : Kept s ↔ s.lost = [] := by
  simp [Kept, hrunning]

theorem kept_iff_of_stopped (hrunning : s.running = false) :
    Kept s ↔ s.lost = [] ∧ s.flushLoop.isWriting = false := by
  simp [Kept, hrunning]

theorem batch_eq_nil_of_not_writing {loop : FlushLoop} (h : loop.isWriting = false) :
    loop.batch = [] := by
  cases loop with
  | writing call => cases h
  | _ => rfl

/-- An interrupted loop loses the batch that it writes, if it writes. -/
theorem Sound.kept_interrupted (h : Sound config keys s) (hcancel : s.cancelRequested = true) :
    Kept s.interrupted ↔ Kept s := by
  have hrunning : s.running = false := by simpa [h.cancelRequested] using hcancel
  rw [kept_iff_of_stopped hrunning, kept_iff_of_stopped (s := s.interrupted) hrunning]
  cases hwriting : s.flushLoop.isWriting with
  | false =>
    simp [CollectorTasks.interrupted, batch_eq_nil_of_not_writing hwriting, FlushLoop.isWriting]
  | true =>
    obtain ⟨call, hcall⟩ : ∃ call, s.flushLoop = .writing call := by
      cases hloop : s.flushLoop with
      | writing call => exact ⟨call, rfl⟩
      | _ => simp [hloop, FlushLoop.isWriting] at hwriting
    have hbatch := (h.built call (.inr (.inl hcall))).batch
    simp [CollectorTasks.interrupted, hcall, FlushLoop.batch, hbatch]

theorem kept_congr (hlost : t.lost = s.lost) (hrunning : t.running = s.running)
    (hloop : t.flushLoop = s.flushLoop) : Kept t ↔ Kept s := by
  rw [Kept, Kept, hlost, hrunning, hloop]

/-- While the collector runs, nothing is being lost. -/
theorem kept_congr_of_running (hlost : t.lost = s.lost) (hs : s.running = true)
    (ht : t.running = true) : Kept t ↔ Kept s := by
  rw [kept_iff_of_running hs, kept_iff_of_running ht, hlost]

/-- Events are lost exactly by a `stop` that finds the flush loop writing. -/
theorem Sound.kept_iff (h : Sound config keys s) (hne : config.bucketSeconds ≠ 0)
    (hmoves : Moves config keys s a t) : Kept t ↔ Kept s ∧ StopsBetweenFlushes s a t := by
  have hother (hstop : a ≠ .stop) (hkept : Kept t ↔ Kept s) :
      Kept t ↔ Kept s ∧ StopsBetweenFlushes s a t :=
    hkept.trans ⟨fun hs => ⟨hs, fun ha => absurd ha hstop⟩, And.left⟩
  cases hmoves with
  | recorded event =>
    obtain ⟨hlost, hrunning, hloop⟩ := s.enqueue_frame event
    exact hother CollectorAction.noConfusion (kept_congr hlost hrunning hloop)
  | started hloop hcancel =>
    have hrunning := h.running_of_not_cancelled hcancel
    exact hother CollectorAction.noConfusion (kept_congr_of_running rfl hrunning hrunning)
  | woken hloop hcancel =>
    have hrunning := h.running_of_not_cancelled hcancel
    have hstage := h.running.mp hrunning
    exact hother CollectorAction.noConfusion
      (kept_congr_of_running (h.wake_lost hne (by omega)) hrunning (wake_running.trans hrunning))
  | written hloop hcancel =>
    have hrunning := h.running_of_not_cancelled hcancel
    exact hother CollectorAction.noConfusion (kept_congr_of_running rfl hrunning hrunning)
  | interrupted _ hcancel => exact hother CollectorAction.noConfusion (h.kept_interrupted hcancel)
  | heartbeatEnded _ => exact hother CollectorAction.noConfusion (kept_congr rfl rfl rfl)
  | stopCalled hrunning =>
    rw [kept_iff_of_running hrunning, kept_iff_of_stopped rfl]
    exact and_congr_right fun _ => ⟨fun hloop _ _ => hloop, fun hstops => hstops rfl hrunning⟩
  | stopCalledAgain hrunning =>
    exact ⟨fun hkept => ⟨hkept, fun _ hs => absurd hs (by simp [hrunning])⟩, And.left⟩
  | flushLoopAwaited _ _ => exact hother CollectorAction.noConfusion (kept_congr rfl rfl rfl)
  | heartbeatAwaited hstop _ =>
    have hstage : s.stop.stage = 3 := by rw [hstop, StopCall.stage]
    exact hother CollectorAction.noConfusion
      (kept_congr (h.finalFlush_lost hne (by omega)) finalFlush_frame.1 finalFlush_frame.2.1)
  | finalWritten _ => exact hother CollectorAction.noConfusion (kept_congr rfl rfl rfl)
  | disconnected _ => exact hother CollectorAction.noConfusion (kept_congr rfl rfl rfl)

/-- After a call of `stop`, no event counts as put before it any more. -/
theorem stopped_of_moves (hmoves : Moves config keys s a t) (hrunning : s.running = false) :
    t.running = false ∧ t.putBeforeStop = s.putBeforeStop := by
  cases hmoves with
  | recorded event =>
    unfold enqueue
    split
    · exact ⟨hrunning, rfl⟩
    · exact ⟨hrunning, if_neg (by simp [hrunning])⟩
  | woken _ _ =>
    refine ⟨wake_running.trans hrunning, ?_⟩
    unfold wake
    split
    · rfl
    · cases s.beginFlush config keys s.queue <;> rfl
  | heartbeatAwaited _ _ =>
    refine ⟨finalFlush_frame.1.trans hrunning, ?_⟩
    unfold finalFlush
    split <;> rfl
  | stopCalled _ => exact ⟨rfl, rfl⟩
  | _ => exact ⟨hrunning, rfl⟩

theorem stage_of_finished (hfinished : s.stop.isFinished = true) : s.stop.stage = 0 := by
  cases hstop : s.stop with
  | returned => rfl
  | raised exc => rfl
  | _ => simp [hstop, StopCall.isFinished] at hfinished

/-- When `stop` is finished, an event that was put before it is in a completed call or lost. -/
theorem Sound.count_eq (h : Sound config keys s) (hfinished : s.stop.isFinished = true) {n : ℕ}
    (hn : n < s.putBeforeStop) :
    (s.completed.flatMap (·.numbers)).count n + (s.lost.map (·.number)).count n = 1 := by
  have hstage := stage_of_finished hfinished
  have hloop : s.flushLoop.batch = [] := by
    rw [h.flushLoop (by omega)]
    rfl
  have hstop : s.stop.batch = [] := by
    cases hstop : s.stop with
    | writing call => simp [hstop, StopCall.stage] at hstage
    | _ => rfl
  have hqueue : (s.queue.map (·.number)).count n = 0 := by
    rw [List.count_eq_zero, List.mem_map]
    rintro ⟨e, he, rfl⟩
    exact absurd (h.late (by omega) e he) (Nat.not_le.mpr hn)
  have hput : Multiset.count n (Multiset.range s.put) = 1 :=
    Multiset.count_eq_one_of_mem (Multiset.nodup_range s.put)
      (Multiset.mem_range.mpr (hn.trans_le h.putBeforeStop))
  rw [← h.books, events, hloop, hstop] at hput
  simp only [Multiset.coe_nil, add_zero, Multiset.map_add, Multiset.map_coe, Multiset.count_add,
    Multiset.coe_count, hqueue, List.map_flatMap] at hput
  exact hput

/-- A finished `stop` has kept all events exactly when none is lost. -/
theorem Sound.conserves_iff_kept (h : Sound config keys s) (hne : config.bucketSeconds ≠ 0)
    (hfinished : s.stop.isFinished = true) : s.Conserves ↔ Kept s := by
  have hcalls {n : ℕ} (hn : n < s.putBeforeStop) :
      s.completed.countP (fun call => n ∈ call.numbers) +
        (s.lost.map (·.number)).count n = 1 := by
    have hcount := h.count_eq hfinished hn
    have hle : (s.completed.flatMap (·.numbers)).count n ≤ 1 := by omega
    rwa [← countP_mem_eq_count hle] at hcount
  constructor
  · intro hconserves
    refine ⟨List.eq_nil_iff_forall_not_mem.mpr fun e he => ?_, fun _ => ?_⟩
    · have hn := h.lost hne e he
      have hlost : 0 < (s.lost.map (·.number)).count e.number :=
        List.count_pos_iff.mpr (List.mem_map_of_mem he)
      have hcount := hcalls hn
      rw [hconserves e.number hn] at hcount
      omega
    · have hstage := stage_of_finished hfinished
      rw [h.flushLoop (by omega)]
      rfl
  · rintro ⟨hlost, -⟩ n hn
    simpa [hlost] using hcalls hn

/-- With buckets of no width no call is made. -/
theorem Sound.conserves_iff_of_zero (h : Sound config keys s) (hzero : config.bucketSeconds = 0) :
    s.Conserves ↔ s.putBeforeStop = 0 := by
  have hcompleted : s.completed = [] := List.eq_nil_iff_forall_not_mem.mpr fun call hcall =>
    not_built_of_zero hzero (h.built call (.inl hcall))
  simp only [Conserves, hcompleted, List.countP_nil, Nat.zero_ne_one, imp_false, not_lt]
  exact ⟨fun hnone => Nat.le_zero.mp (hnone 0), fun hnone n => hnone ▸ Nat.zero_le n⟩

theorem Sound.stopsBetweenFlushes_of_zero (h : Sound config keys s)
    (hzero : config.bucketSeconds = 0) : StopsBetweenFlushes s a t := by
  intro _ _
  cases hloop : s.flushLoop with
  | writing call => exact absurd (h.built call (.inr (.inl hloop))) (not_built_of_zero hzero)
  | _ => rfl

/-! What is left to do -/

def remaining (s : CollectorTasks) : ℕ :=
  s.stop.stage + (if s.flushLoop.isFinished then 0 else 1) + if s.heartbeatFinished then 0 else 1

theorem finalFlush_stage : (s.finalFlush config keys).stop.stage < 3 := by
  unfold finalFlush
  split <;> simp [StopCall.stage]

/-- A `stop` that has been called has a step left until it is finished. -/
theorem Sound.progress (h : Sound config keys s) (hrunning : s.running = false)
    (hfinished : ¬ s.stop.isFinished = true) :
    ∃ a t, s.step config keys a = some t ∧ remaining t < remaining s := by
  have hcancel : s.cancelRequested = true := by simp [h.cancelRequested, hrunning]
  cases hstop : s.stop with
  | notCalled =>
    have hcalled := h.running.mpr (by rw [hstop, StopCall.stage])
    exact absurd (hrunning.symm.trans hcalled) Bool.false_ne_true
  | awaitingFlushLoop =>
    cases hloop : s.flushLoop with
    | finished =>
      exact ⟨.stopResumes, _, by simp only [step, hstop, hloop]; rfl,
        by simp [remaining, hstop, hloop, StopCall.stage]⟩
    | _ =>
      refine ⟨.flushLoopCancelled, s.interrupted, by simp only [step, hloop, hcancel], ?_⟩
      simp [remaining, CollectorTasks.interrupted, hloop, FlushLoop.isFinished]
  | awaitingHeartbeat =>
    cases hheartbeat : s.heartbeatFinished with
    | true =>
      have hstage : (s.finalFlush config keys).stop.stage < 3 := finalFlush_stage
      refine ⟨.stopResumes, s.finalFlush config keys, by simp only [step, hstop, hheartbeat], ?_⟩
      have hbefore : s.stop.stage = 3 := by rw [hstop, StopCall.stage]
      rw [remaining, remaining, finalFlush_frame.2.1, finalFlush_frame.2.2, hbefore]
      omega
    | false =>
      exact ⟨.heartbeatEnds, { s with heartbeatFinished := true }, by simp only [step, hrunning],
        by simp [remaining, hheartbeat]⟩
  | writing call =>
    exact ⟨.stopResumes, _, by simp only [step, hstop]; rfl,
      by simp [remaining, hstop, StopCall.stage]⟩
  | disconnecting =>
    exact ⟨.stopResumes, _, by simp only [step, hstop]; rfl,
      by simp [remaining, hstop, StopCall.stage]⟩
  | returned => exact absurd (by rw [hstop]; rfl) hfinished
  | raised exc => exact absurd (by rw [hstop]; rfl) hfinished

theorem Sound.exists_finished (h : Sound config keys s) (hrunning : s.running = false) :
    ∃ actions t, run (step config keys) s actions = some t ∧ t.stop.isFinished = true := by
  refine exists_run_of_measure (I := fun s => Sound config keys s ∧ s.running = false) remaining
    (fun s hs hdone => ?_) ⟨h, hrunning⟩
  obtain ⟨a, t, hstep, hlt⟩ := hs.1.progress hs.2 hdone
  have hmoves := moves_of_step hstep
  exact ⟨a, t, hstep, ⟨sound_of_moves hs.1 hmoves, (stopped_of_moves hmoves hs.2).1⟩, hlt⟩

/-- A run loses events exactly by the calls of `stop` that find the flush loop writing. -/
theorem Sound.kept_run {actions : List CollectorAction} (h : Sound config keys s)
    (hne : config.bucketSeconds ≠ 0) (hrun : run (step config keys) s actions = some t) :
    Kept t ↔ Kept s ∧ EachStep (step config keys) StopsBetweenFlushes s actions :=
  iff_eachStep_of_run (I := Sound config keys) (fun _ _ _ hs hstep =>
    ⟨sound_of_moves hs (moves_of_step hstep), hs.kept_iff hne (moves_of_step hstep)⟩) h hrun

/-- What happens after the call of `stop` does not change what is kept. -/
theorem Sound.kept_iff_of_run {actions : List CollectorAction} (h : Sound config keys s)
    (hne : config.bucketSeconds ≠ 0) (hrunning : s.running = false)
    (hrun : run (step config keys) s actions = some t) : Kept t ↔ Kept s := by
  have hkept := h.kept_run hne hrun
  have hafter : EachStep (step config keys) StopsBetweenFlushes s actions :=
    eachStep_of_invariant (I := fun s => s.running = false) hrunning fun s a t hs hstep =>
      ⟨(stopped_of_moves (moves_of_step hstep) hs).1, fun _ hrunning' =>
        absurd (hs.symm.trans hrunning') Bool.false_ne_true⟩
  exact hkept.trans (and_iff_left hafter)

theorem stopped_of_run {actions : List CollectorAction} (hrunning : s.running = false)
    (hrun : run (step config keys) s actions = some t) : t.putBeforeStop = s.putBeforeStop :=
  (run_invariant (I := fun u => u.running = false ∧ u.putBeforeStop = s.putBeforeStop)
    (fun _ _ _ hu hstep =>
      have hstopped := stopped_of_moves (moves_of_step hstep) hu.1
      ⟨hstopped.1, hstopped.2.trans hu.2⟩) ⟨hrunning, rfl⟩ hrun).2

/-- A run in which `stop` has been called can be brought to the end of `stop`, and each event put on
the queue before is then in exactly one completed call, exactly when buckets have a width, or
nothing was put, and `stop` was not called while the flush loop was writing. -/
theorem conserves_iff {queueSize : ℤ} {actions : List CollectorAction}
    (hrun : run (step config keys) (start queueSize) actions = some s)
    (hcalled : s.running = false) :
    (∃ more t, run (step config keys) s more = some t ∧ t.stop.isFinished = true) ∧
      ((∀ more t, run (step config keys) s more = some t → t.stop.isFinished = true →
          t.Conserves) ↔
        (config.bucketSeconds ≠ 0 ∨ s.putBeforeStop = 0) ∧
          EachStep (step config keys) StopsBetweenFlushes (start queueSize) actions) := by
  have hsound := sound_of_run queueSize hrun
  have hfinish := hsound.exists_finished hcalled
  have hmore {more : List CollectorAction} {t : CollectorTasks}
      (ht : run (step config keys) s more = some t) : Sound config keys t :=
    run_invariant (fun _ _ _ h hstep => sound_of_moves h (moves_of_step hstep)) hsound ht
  refine ⟨hfinish, ?_⟩
  obtain ⟨more, t, ht, hfinished⟩ := hfinish
  by_cases hzero : config.bucketSeconds = 0
  · have hquiet : EachStep (step config keys) StopsBetweenFlushes (start queueSize) actions :=
      eachStep_of_invariant (I := Sound config keys) (sound_start queueSize) fun s a t hs hstep =>
        ⟨sound_of_moves hs (moves_of_step hstep), hs.stopsBetweenFlushes_of_zero hzero⟩
    have hconserves {more : List CollectorAction} {t : CollectorTasks}
        (ht : run (step config keys) s more = some t) : t.Conserves ↔ s.putBeforeStop = 0 := by
      rw [(hmore ht).conserves_iff_of_zero hzero, stopped_of_run hcalled ht]
    constructor
    · intro hall
      exact ⟨.inr ((hconserves ht).mp (hall more t ht hfinished)), hquiet⟩
    · rintro ⟨hwidth, -⟩ more t ht -
      exact (hconserves ht).mpr (hwidth.resolve_left fun hne => hne hzero)
  · have hkept := (sound_start queueSize).kept_run hzero hrun
    have hstart : Kept (start queueSize) := ⟨rfl, fun _ => rfl⟩
    have hconserves {more : List CollectorAction} {t : CollectorTasks}
        (ht : run (step config keys) s more = some t) (hfinished : t.stop.isFinished = true) :
        t.Conserves ↔
          EachStep (step config keys) StopsBetweenFlushes (start queueSize) actions := by
      rw [(hmore ht).conserves_iff_kept hzero hfinished,
        hsound.kept_iff_of_run hzero hcalled ht, hkept]
      exact and_iff_right hstart
    constructor
    · intro hall
      exact ⟨.inl hzero, (hconserves ht hfinished).mp (hall more t ht hfinished)⟩
    · rintro ⟨-, hsteps⟩ more t ht hfinished
      exact (hconserves ht hfinished).mpr hsteps

/-! The first event -/

/-- The state after the first event, which finds room whatever the size is. -/
def afterFirst (queueSize : ℤ) (event : TimedEvent) : CollectorTasks :=
  { queueSize := queueSize, queue := [{ toTimedEvent := event, number := 0 }], put := 1,
    putBeforeStop := 1 }

def asleep (queueSize : ℤ) (event : TimedEvent) : CollectorTasks :=
  { afterFirst queueSize event with flushLoop := .sleeping }

theorem step_record_start (queueSize : ℤ) (event : TimedEvent) :
    (start queueSize).step config keys (.record event) = some (afterFirst queueSize event) := by
  have hfull : (start queueSize).collector.full = false := by
    simp only [AnalyticsCollector.full, Bool.and_eq_false_iff, decide_eq_false_iff_not]
    change ¬ 0 < queueSize ∨ ¬ queueSize ≤ 0
    omega
  change some ((start queueSize).enqueue event) = _
  rw [enqueue, hfull]
  rfl

theorem run_firstFlush (queueSize : ℤ) (event : TimedEvent) (rest : List CollectorAction) :
    run (step config keys) (start queueSize)
        (.record event :: .flushLoopStarts :: .flushLoopWakes :: rest) =
      run (step config keys) ((asleep queueSize event).wake config keys) rest := by
  rw [run_cons (step_record_start queueSize event), run_cons (t := asleep queueSize event) rfl,
    run_cons (t := (asleep queueSize event).wake config keys) rfl]

/-- A call that waits on the queue when `stop` is called is written. -/
theorem waitingCall_conserved :
    ∃ s, run (step minuteConfig eastKeys) (start 10)
        [.record (queryCall 5), .flushLoopStarts, .stop] = some s ∧
      (∃ more t, run (step minuteConfig eastKeys) s more = some t ∧ t.stop.isFinished = true) ∧
      ∀ more t, run (step minuteConfig eastKeys) s more = some t → t.stop.isFinished = true →
        t.Conserves := by
  let waiting : CollectorTasks :=
    { queueSize := 10, queue := [{ toTimedEvent := queryCall 5, number := 0 }], running := false,
      flushLoop := .sleeping, cancelRequested := true, stop := .awaitingFlushLoop, put := 1,
      putBeforeStop := 1 }
  have hrun : run (step minuteConfig eastKeys) (start 10)
      [.record (queryCall 5), .flushLoopStarts, .stop] = some waiting := rfl
  obtain ⟨hfinish, hconserves⟩ := conserves_iff hrun rfl
  refine ⟨waiting, hrun, hfinish, hconserves.mpr ⟨.inl (by decide), ?_⟩⟩
  rw [eachStep_cons rfl, eachStep_cons rfl, eachStep_cons rfl]
  exact ⟨CollectorAction.noConfusion, CollectorAction.noConfusion, fun _ _ => rfl, trivial⟩

/-- A `stop` that interrupts a flush loses its batch. -/
theorem interruptedFlush_not_conserved :
    ∃ s, run (step minuteConfig eastKeys) (start 10)
        [.record (queryCall 5), .flushLoopStarts, .flushLoopWakes, .stop, .flushLoopCancelled,
          .stopResumes, .heartbeatEnds, .stopResumes, .stopResumes] = some s ∧
      s.stop.isFinished = true ∧ ¬ s.Conserves := by
  obtain ⟨call, hcall⟩ : ∃ call, (asleep 10 (queryCall 5)).beginFlush minuteConfig eastKeys
      (asleep 10 (queryCall 5)).queue = .writing call :=
    exists_beginFlush_eq (by decide) rfl (List.cons_ne_nil _ _)
  let writing : CollectorTasks :=
    { asleep 10 (queryCall 5) with queue := [], flushLoop := .writing call }
  have hwake : (asleep 10 (queryCall 5)).wake minuteConfig eastKeys = writing := by
    rw [wake, hcall]
    rfl
  let returned : CollectorTasks :=
    { writing with
      running := false, connected := false, flushLoop := .finished, cancelRequested := true,
      heartbeatFinished := true, stop := .returned, lost := call.batch ++ [] }
  have hrest : run (step minuteConfig eastKeys) writing
      [.stop, .flushLoopCancelled, .stopResumes, .heartbeatEnds, .stopResumes, .stopResumes] =
      some returned := rfl
  refine ⟨returned, ?_, rfl, fun hconserves => ?_⟩
  · rw [run_firstFlush, hwake, hrest]
  · exact absurd (hconserves 0 Nat.one_pos) Nat.zero_ne_one

end CollectorTasks

end McpZero.Analytics
