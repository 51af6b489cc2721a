import McpZero.Transport.ManagerSteps

/-! Which transports have a restart in progress. The health checks pass over such a transport until
the restart ends, so the flag must not outlive the restart. -/
namespace McpZero.Transport
open Lib

namespace StdioProcessManager

variable {names : List String} {config : String → RestartConfig} {s t : StdioProcessManager}
  {a : ManagerAction}

/-- A restart is running for every transport that has one in progress. So the checks pass over a
transport only where it is given up or another loop is restarting it. -/
structure Supervised (s : StdioProcessManager) : Prop where
  running (n : String) : (s.status n).restartInProgress = true → ∃ id, s.restarting id = some n
  eligible (id : ℕ) (woken : Bool) (n : String) : (s.loops id).phase = .waiting woken →
    (∀ other, other ≠ id → s.restarting other ≠ some n) →
    (s.status n).permanentlyFailed = false → (s.status n).Eligible

/-- The restarts that are running, and the transports that are flagged for them. -/
structure Exclusive (s : StdioProcessManager) : Prop where
  fresh : s.Fresh
  flagged (id : ℕ) (n : String) : s.restarting id = some n → (s.status n).restartInProgress = true
  unique (i j : ℕ) (n : String) : s.restarting i = some n → s.restarting j = some n → i = j

/-- A loop ends its restart, if it is in one, and may begin another, in which it is afterwards or
not. -/
structure Turn (s t : StdioProcessManager) (id : ℕ) (begun after : Option String) : Prop where
  flags (n : String) : (t.status n).restartInProgress = true ↔
    ((s.status n).restartInProgress = true ∧ s.restarting id ≠ some n) ∨ begun = some n
  idle (n : String) : begun = some n →
    ¬ ((s.status n).restartInProgress = true ∧ s.restarting id ≠ some n)
  restarting : t.restarting = Function.update s.restarting id after
  stays (n : String) : after = some n → begun = some n

theorem Freed.flags {id : ℕ} {healthy : String → Bool} {rest : List String}
    {status : String → ProcessStatus} (h : s.Freed names a id healthy rest status) (n : String) :
    (status n).restartInProgress = true ↔
      (s.status n).restartInProgress = true ∧ s.restarting id ≠ some n := by
  cases h with
  | interval hloop =>
    unfold StdioProcessManager.restarting
    rw [hloop]
    exact ⟨fun hflag => ⟨hflag, nofun⟩, fun hflag => hflag.1⟩
  | @reconnect _ ok _ name rest hloop =>
    have hname : s.restarting id = some name := by
      unfold StdioProcessManager.restarting
      rw [hloop]
      rfl
    rw [hname]
    unfold afterReconnect
    by_cases hn : n = name
    · subst hn
      rw [Function.update_self]
      cases ok <;> simp [ProcessStatus.restarted, ProcessStatus.restartFailed]
    · rw [Function.update_of_ne hn]
      exact ⟨fun hflag => ⟨hflag, fun h => hn (Option.some.inj h).symm⟩, fun hflag => hflag.1⟩

theorem turn_of_checked {id : ℕ} {healthy : String → Bool} {rest : List String}
    {status : String → ProcessStatus} {target after : Option String}
    (hfreed : s.Freed names a id healthy rest status)
    (hchecked : Checked config status t.status target)
    (hrestarting : t.restarting = Function.update s.restarting id after)
    (hstays : ∀ n, after = some n → target = some n) : s.Turn t id target after where
  flags n := by
    rw [← hfreed.flags n]
    by_cases hn : target = some n
    · obtain ⟨q, -, -, -, hbegun⟩ := hchecked.begun n hn
      simp [hbegun, ProcessStatus.beginRestart, hn]
    · rw [(hchecked.settled n hn).keeps.1]
      simp [hn]
  idle n hn := by
    rw [← hfreed.flags n]
    obtain ⟨q, hq, heligible, -, -⟩ := hchecked.begun n hn
    rw [← hq.keeps.1, heligible.2]
    exact Bool.false_ne_true
  restarting := hrestarting
  stays := hstays

theorem Turn.exclusive {id : ℕ} {begun after : Option String} (h : s.Turn t id begun after)
    (hs : s.Exclusive) (hfresh : t.Fresh) : t.Exclusive := by
  have hother (j : ℕ) (n : String) (hj : j ≠ id) (hn : t.restarting j = some n) :
      s.restarting j = some n ∧ (s.status n).restartInProgress = true ∧
        s.restarting id ≠ some n := by
    rw [h.restarting, Function.update_of_ne hj] at hn
    exact ⟨hn, hs.flagged j n hn, fun hid => hj (hs.unique j id n hn hid)⟩
  have hself (n : String) (hn : t.restarting id = some n) : begun = some n := by
    rw [h.restarting, Function.update_self] at hn
    exact h.stays n hn
  refine ⟨hfresh, ?_, ?_⟩
  · intro j n hn
    by_cases hj : j = id
    · subst hj
      exact (h.flags n).mpr (.inr (hself n hn))
    · exact (h.flags n).mpr (.inl (hother j n hj hn).2)
  · intro i j n hi hj
    by_cases hiid : i = id
    · by_cases hjid : j = id
      · rw [hiid, hjid]
      · subst hiid
        exact absurd (hother j n hjid hj).2 (h.idle n (hself n hi))
    · by_cases hjid : j = id
      · subst hjid
        exact absurd (hother i n hiid hi).2 (h.idle n (hself n hj))
      · exact hs.unique i j n (hother i n hiid hi).1 (hother j n hjid hj).1

/-- A loop that stays in the restart that it begins leaves no flag behind. -/
theorem Turn.running {id : ℕ} {begun : Option String} (h : s.Turn t id begun begun)
    (hs : ∀ n, (s.status n).restartInProgress = true → ∃ id, s.restarting id = some n) (n : String)
    (hn : (t.status n).restartInProgress = true) : ∃ id, t.restarting id = some n := by
  rw [h.restarting]
  rcases (h.flags n).mp hn with ⟨hflag, hid⟩ | hbegun
  · obtain ⟨j, hj⟩ := hs n hflag
    have hne : j ≠ id := fun heq => hid (heq ▸ hj)
    exact ⟨j, (Function.update_of_ne hne ..).trans hj⟩
  · exact ⟨id, (Function.update_self ..).trans hbegun⟩

/-- The restarts that still run when a loop has got out of its own. -/
theorem restarting_of_released {id j : ℕ} {n : String}
    (hrestarting : t.restarting = Function.update s.restarting id none)
    (hj : t.restarting j = some n) : j ≠ id ∧ s.restarting j = some n := by
  rw [hrestarting] at hj
  have hne : j ≠ id := by
    rintro rfl
    rw [Function.update_self] at hj
    cases hj
  rw [Function.update_of_ne hne] at hj
  exact ⟨hne, hj⟩

/-- A loop that does not get into the restart that it begins leaves the flag behind. -/
theorem Turn.stranded {id : ℕ} {n : String} (h : s.Turn t id (some n) none) (hs : s.Exclusive) :
    (t.status n).restartInProgress = true ∧ ∀ j, t.restarting j ≠ some n := by
  refine ⟨(h.flags n).mpr (.inr rfl), ?_⟩
  intro j hj
  obtain ⟨hne, hbefore⟩ := restarting_of_released h.restarting hj
  exact h.idle n rfl ⟨hs.flagged j n hbefore, fun hid => hne (hs.unique j id n hbefore hid)⟩

theorem turn_of_interrupted {id : ℕ} {name : String} (hname : s.restarting id = some name)
    (hstatus : t.status = Function.update s.status name (s.status name).interrupted)
    (hrestarting : t.restarting = Function.update s.restarting id none) :
    s.Turn t id none none where
  flags n := by
    rw [hstatus, hname]
    by_cases hn : n = name
    · subst hn
      simp [ProcessStatus.interrupted]
    · have hne : some name ≠ some n := fun h => hn (Option.some.inj h).symm
      rw [Function.update_of_ne hn]
      simp [hne]
  idle := nofun
  restarting := hrestarting
  stays := nofun

/-- Steps that leave the restarts as they are. -/
theorem Exclusive.of_eq (hs : s.Exclusive) (hfresh : t.Fresh)
    (hflags : ∀ n, (t.status n).restartInProgress = (s.status n).restartInProgress)
    (hrestarting : ∀ id, t.restarting id = s.restarting id) : t.Exclusive where
  fresh := hfresh
  flagged id n hn := by
    rw [hflags]
    exact hs.flagged id n ((hrestarting id).symm.trans hn)
  unique i j n hi hj :=
    hs.unique i j n ((hrestarting i).symm.trans hi) ((hrestarting j).symm.trans hj)

theorem connected_flags {name : String} {ok : Bool}
    (hstatus : t.status = Function.update s.status name
      (if ok then (s.status name).foundUp else (s.status name).connectFailed)) (n : String) :
    (t.status n).restartInProgress = (s.status n).restartInProgress := by
  rw [hstatus]
  exact update_keeps (·.restartInProgress) (by cases ok <;> rfl) n

theorem Moves.exclusive (h : s.Moves names config a t) (hs : s.Exclusive) (hfresh : t.Fresh) :
    t.Exclusive := by
  cases h with
  | quiet hstatus hrestarting => exact hs.of_eq hfresh (fun n => by rw [hstatus]) hrestarting
  | connected name ok hstatus hrestarting =>
    exact hs.of_eq hfresh (connected_flags hstatus) hrestarting
  | checked target hfreed hchecked hrestarting =>
    exact (turn_of_checked hfreed hchecked hrestarting fun _ h => h).exclusive hs hfresh
  | interrupted id name hname hstatus hrestarting =>
    exact (turn_of_interrupted hname hstatus hrestarting).exclusive hs hfresh

theorem Strands.exclusive (h : s.Strands names config a t) (hs : s.Exclusive) (hfresh : t.Fresh) :
    t.Exclusive := by
  cases h with
  | abandoned id name hname hstatus hrestarting =>
    have hother (j : ℕ) (n : String) (hn : t.restarting j = some n) : s.restarting j = some n :=
      (restarting_of_released hrestarting hn).2
    refine ⟨hfresh, fun j n hn => ?_, fun i j n hi hj => ?_⟩
    · rw [hstatus]
      exact hs.flagged j n (hother j n hn)
    · exact hs.unique i j n (hother i n hi) (hother j n hj)
  | died n hfreed hchecked hrestarting =>
    exact (turn_of_checked hfreed hchecked hrestarting nofun).exclusive hs hfresh

theorem Moves.running (h : s.Moves names config a t)
    (hs : ∀ n, (s.status n).restartInProgress = true → ∃ id, s.restarting id = some n) (n : String)
    (hn : (t.status n).restartInProgress = true) : ∃ id, t.restarting id = some n := by
  cases h with
  | quiet hstatus hrestarting =>
    rw [hstatus] at hn
    obtain ⟨id, hid⟩ := hs n hn
    exact ⟨id, (hrestarting id).trans hid⟩
  | connected name ok hstatus hrestarting =>
    rw [connected_flags hstatus] at hn
    obtain ⟨id, hid⟩ := hs n hn
    exact ⟨id, (hrestarting id).trans hid⟩
  | checked target hfreed hchecked hrestarting =>
    exact (turn_of_checked hfreed hchecked hrestarting fun _ h => h).running hs n hn
  | interrupted id name hname hstatus hrestarting =>
    exact (turn_of_interrupted hname hstatus hrestarting).running hs n hn

theorem Strands.stranded (h : s.Strands names config a t) (hs : s.Exclusive) :
    ∃ n, (t.status n).restartInProgress = true ∧ ∀ id, t.restarting id ≠ some n := by
  cases h with
  | abandoned id name hname hstatus hrestarting =>
    refine ⟨name, ?_, ?_⟩
    · rw [hstatus]
      exact hs.flagged id name hname
    · intro j hj
      obtain ⟨hne, hbefore⟩ := restarting_of_released hrestarting hj
      exact hne (hs.unique j id name hbefore hname)
  | died n hfreed hchecked hrestarting =>
    exact ⟨n, (turn_of_checked hfreed hchecked hrestarting nofun).stranded hs⟩

theorem supervised_iff_running : s.Supervised ↔
    ∀ n, (s.status n).restartInProgress = true → ∃ id, s.restarting id = some n := by
  constructor
  · exact fun h => h.running
  · refine fun h => ⟨h, ?_⟩
    intro id woken n hwaiting hother hgivenUp
    refine ⟨hgivenUp, Bool.eq_false_iff.mpr fun hflag => ?_⟩
    obtain ⟨j, hj⟩ := h n hflag
    refine hother j ?_ hj
    rintro rfl
    rw [restarting, hwaiting] at hj
    cases hj

theorem exclusive_start : ({} : StdioProcessManager).Exclusive :=
  ⟨fun _ _ => rfl, nofun, nofun⟩

theorem exclusive_of_step (hs : s.Exclusive) (h : s.step names config a = some t) :
    t.Exclusive := by
  have hfresh := (loopsStep_of_step h).fresh hs.fresh
  rcases moves_of_step hs.fresh h with ⟨-, hmoves⟩ | ⟨-, hstrands⟩
  · exact hmoves.exclusive hs hfresh
  · exact hstrands.exclusive hs hfresh

/-- In every run, the flags are supervised exactly as long as no loop is cancelled in the sleep of a
restart and no restart begins after 1024 failures in a row. -/
theorem eachStep_supervised_iff (names : List String) (config : String → RestartConfig)
    (actions : List ManagerAction) :
    EachStep (step names config) (fun _ _ t => t.Supervised) {} actions ↔
      EachStep (step names config) (fun s a _ => s.Calm names config a) {} actions := by
  have hstart : ({} : StdioProcessManager).Supervised := supervised_iff_running.mpr nofun
  refine eachStep_iff (I := fun s => s.Exclusive ∧ s.Supervised) ⟨exclusive_start, hstart⟩ ?_ ?_
  · intro s a t hs hstep ht
    refine ⟨⟨exclusive_of_step hs.1 hstep, ht⟩, ?_⟩
    rcases moves_of_step hs.1.fresh hstep with ⟨hcalm, -⟩ | ⟨-, hstrands⟩
    · exact hcalm
    · obtain ⟨n, hflag, hnone⟩ := hstrands.stranded hs.1
      obtain ⟨id, hid⟩ := ht.running n hflag
      exact absurd hid (hnone id)
  · intro s a t hs hstep hcalm
    rcases moves_of_step hs.1.fresh hstep with ⟨-, hmoves⟩ | ⟨hnot, -⟩
    · have ht := supervised_iff_running.mpr (hmoves.running hs.2.running)
      exact ⟨⟨exclusive_of_step hs.1 hstep, ht⟩, ht⟩
    · exact absurd hcalm hnot

/-- The gateway shuts down in the sleep before the first restart, and starts again. -/
def stoppedAndStarted : List ManagerAction :=
  [.startAll 0, .connectEnds 0 true, .loopStarts 0, .intervalElapsed 0 fun _ => false, .shutdown 1,
    .loopCancelled 0, .shutdownResumes 1, .disconnected 1, .startAll 0, .connectEnds 0 true,
    .loopStarts 1]

/-- The transport is flagged for a restart that nobody is running. -/
theorem stoppedAndStarted_not_supervised :
    (∃ t, run (step ["db"] fun _ => {}) {} stoppedAndStarted = some t ∧
        (t.status "db").restartInProgress = true ∧ (t.status "db").permanentlyFailed = false ∧
        ∀ id, t.restarting id = none) ∧
      ¬ EachStep (step ["db"] fun _ => {}) (fun _ _ t => t.Supervised) {} stoppedAndStarted := by
  have hrestarting : ∀ id, (run (step ["db"] fun _ => {}) {} stoppedAndStarted).map
      (fun t => t.restarting id) = some none
    | 0 => rfl
    | 1 => rfl
    | _ + 2 => rfl
  have hflag : (run (step ["db"] fun _ => {}) {} stoppedAndStarted).map
      (fun t => ((t.status "db").restartInProgress, (t.status "db").permanentlyFailed)) =
        some (true, false) := rfl
  obtain ⟨t, hrun, ht⟩ := Option.map_eq_some_iff.mp hflag
  obtain ⟨hprogress, hfailed⟩ := Prod.mk.inj ht
  have hnone (id : ℕ) : t.restarting id = none := by
    have hid := hrestarting id
    rw [hrun] at hid
    exact Option.some.inj hid
  refine ⟨⟨t, hrun, hprogress, hfailed, hnone⟩, fun h => ?_⟩
  have hlast : EachStep (step ["db"] fun _ => {}) (fun _ _ t => t.Supervised) {}
    (stoppedAndStarted.dropLast ++ [.loopStarts 1]) := h
  have hsupervised : t.Supervised := hlast.last hrun
  obtain ⟨id, hid⟩ := hsupervised.running "db" hprogress
  rw [hnone id] at hid
  cases hid

end StdioProcessManager

end McpZero.Transport
