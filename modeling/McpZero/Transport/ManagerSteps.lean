import Mathlib.Tactic.Common
import McpZero.Transport.ProcessManager

/-! What a step of the manager of stdio transports does to the transports and to the restarts that
are running. -/
namespace McpZero.Transport
open Lib

/-- What checks that do not begin a restart do to a transport. -/
inductive Settled (config : RestartConfig) : ProcessStatus → ProcessStatus → Prop
  | refl (p : ProcessStatus) : Settled config p p
  | up {p q : ProcessStatus} : Settled config p q → q.Eligible → Settled config p q.foundUp
  | gaveUp {p q : ProcessStatus} : Settled config p q → q.Eligible →
      config.maxRestarts ≤ q.consecutiveFailures → Settled config p q.giveUp

theorem Settled.trans {config : RestartConfig} {p q r : ProcessStatus} (h : Settled config p q)
    (k : Settled config q r) : Settled config p r := by
  induction k with
  | refl => exact h
  | up _ hq ih => exact .up ih hq
  | gaveUp _ hq hmax ih => exact .gaveUp ih hq hmax

/-- What checks that do not begin a restart keep of a transport. -/
theorem Settled.keeps {config : RestartConfig} {p q : ProcessStatus} (h : Settled config p q) :
    q.restartInProgress = p.restartInProgress ∧ q.consecutiveFailures = p.consecutiveFailures := by
  induction h with
  | refl => exact ⟨rfl, rfl⟩
  | up _ _ ih => exact ih
  | gaveUp _ _ _ ih => exact ih

def CheckOutcome.target : CheckOutcome → Option String
  | finished => none
  | restarting name _ _ => some name

/-- What the checks of a round do to the transports. They end at the restart of one, if any. -/
structure Checked (config : String → RestartConfig) (status status' : String → ProcessStatus)
    (target : Option String) : Prop where
  settled (n : String) : target ≠ some n → Settled (config n) (status n) (status' n)
  begun (n : String) : target = some n → ∃ q, Settled (config n) (status n) q ∧ q.Eligible ∧
    (q.consecutiveFailures : ℤ) < (config n).maxRestarts ∧ status' n = q.beginRestart

/-- A check restarts the transport. -/
def NeedsRestart (config : RestartConfig) (healthy : Bool) (p : ProcessStatus) : Prop :=
  p.Eligible ∧ healthy = false ∧ (p.consecutiveFailures : ℤ) < config.maxRestarts

instance (config : RestartConfig) (healthy : Bool) (p : ProcessStatus) :
    Decidable (NeedsRestart config healthy p) := inferInstanceAs (Decidable (_ ∧ _))

/-- The first transport that a round of checks restarts. -/
def firstRestart (config : String → RestartConfig) (healthy : String → Bool)
    (rest : List String) (status : String → ProcessStatus) : Option String :=
  rest.find? fun name => NeedsRestart (config name) (healthy name) (status name)

section
variable {config : String → RestartConfig} {status status' : String → ProcessStatus}

/-- What an update keeps of one transport, it keeps of all. -/
theorem update_keeps {α : Type} (f : ProcessStatus → α) {name : String} {p : ProcessStatus}
    (h : f p = f (status name)) (n : String) :
    f (Function.update status name p n) = f (status n) := by
  have hupdate := Function.apply_update (fun _ => f) status name p n
  rw [hupdate, h]
  exact congrFun (Function.update_eq_self name fun k => f (status k)) n

/-- Checks after the check of one transport. -/
theorem Checked.after {name : String} {p : ProcessStatus} {target : Option String}
    (hp : Settled (config name) (status name) p)
    (h : Checked config (Function.update status name p) status' target) :
    Checked config status status' target := by
  have hfirst (n : String) : Settled (config n) (status n) (Function.update status name p n) := by
    by_cases hn : n = name
    · subst hn
      rw [Function.update_self]
      exact hp
    · rw [Function.update_of_ne hn]
      exact .refl _
  constructor
  · intro n hn
    exact (hfirst n).trans (h.settled n hn)
  · intro n hn
    obtain ⟨q, hq, hrest⟩ := h.begun n hn
    exact ⟨q, (hfirst n).trans hq, hrest⟩

/-- What a round of checks does, by induction over the transports that are left. -/
theorem checkFrom_checked (config : String → RestartConfig) (healthy : String → Bool)
    (rest : List String) (status : String → ProcessStatus) :
    Checked config status (checkFrom config healthy rest status).1
      (checkFrom config healthy rest status).2.target := by
  induction rest generalizing status with
  | nil => exact ⟨fun n _ => .refl _, nofun⟩
  | cons name rest ih =>
    unfold checkFrom
    split
    · exact ih status
    · rename_i heligible
      rw [not_not] at heligible
      split
      · exact (ih _).after (.up (.refl _) heligible)
      · split
        · rename_i hmax
          exact (ih _).after (.gaveUp (.refl _) heligible hmax)
        · rename_i hmax
          constructor
          · intro n hn
            have hne : n ≠ name := fun h => hn (congrArg some h.symm)
            dsimp only
            rw [Function.update_of_ne hne]
            exact .refl _
          · intro n hn
            cases hn
            exact ⟨status name, .refl _, heligible, Int.not_le.mp hmax, Function.update_self ..⟩

/-- The delay of the restart that a round of checks ends with. -/
theorem checkFrom_delay {healthy : String → Bool} {rest : List String} {name : String}
    {left : List String} {delay : Except Exc ℚ}
    (h : (checkFrom config healthy rest status).2 = .restarting name left delay) :
    delay = restartDelay (config name)
      ((checkFrom config healthy rest status).1 name).consecutiveFailures := by
  induction rest generalizing status with
  | nil => cases h
  | cons first rest ih =>
    unfold checkFrom at h ⊢
    split at h
    · rename_i hpassed
      rw [if_pos hpassed]
      exact ih h
    · rename_i hpassed
      rw [if_neg hpassed]
      split at h
      · rename_i hup
        rw [if_pos hup]
        exact ih h
      · rename_i hup
        rw [if_neg hup]
        split at h
        · rename_i hmax
          rw [if_pos hmax]
          exact ih h
        · rename_i hmax
          rw [if_neg hmax]
          cases h
          simp [ProcessStatus.beginRestart]

/-- A check that does not begin a restart leaves the first restart to the checks after it. -/
theorem firstRestart_update {healthy : String → Bool} {name : String} {p : ProcessStatus}
    (rest : List String) (hafter : ¬ NeedsRestart (config name) (healthy name) p)
    (hbefore : ¬ NeedsRestart (config name) (healthy name) (status name)) :
    firstRestart config healthy rest (Function.update status name p) =
      firstRestart config healthy rest status := by
  unfold firstRestart
  congr 1
  funext n
  by_cases hn : n = name
  · subst hn
    rw [Function.update_self]
    simp only [hafter, hbefore]
  · rw [Function.update_of_ne hn]

theorem firstRestart_cons (healthy : String → Bool) (name : String) (rest : List String) :
    firstRestart config healthy (name :: rest) status =
      if NeedsRestart (config name) (healthy name) (status name) then some name
      else firstRestart config healthy rest status := by
  unfold firstRestart
  by_cases h : NeedsRestart (config name) (healthy name) (status name)
  · rw [if_pos h, List.find?_cons_of_pos (by simpa using h)]
  · rw [if_neg h, List.find?_cons_of_neg (by simpa using h)]

theorem checkFrom_target (config : String → RestartConfig) (healthy : String → Bool)
    (rest : List String) (status : String → ProcessStatus) :
    (checkFrom config healthy rest status).2.target = firstRestart config healthy rest status := by
  induction rest generalizing status with
  | nil => rfl
  | cons name rest ih =>
    rw [firstRestart_cons]
    unfold checkFrom
    by_cases heligible : (status name).Eligible
    · rw [if_neg (not_not.mpr heligible)]
      by_cases hhealthy : healthy name = true
      · have hnot (p : ProcessStatus) : ¬ NeedsRestart (config name) (healthy name) p := by
          simp [NeedsRestart, hhealthy]
        rw [if_pos hhealthy, if_neg (hnot _), ih, firstRestart_update rest (hnot _) (hnot _)]
      · rw [if_neg hhealthy]
        by_cases hmax : (config name).maxRestarts ≤ (status name).consecutiveFailures
        · have hbefore : ¬ NeedsRestart (config name) (healthy name) (status name) :=
            fun h => absurd h.2.2 (Int.not_lt.mpr hmax)
          have hafter : ¬ NeedsRestart (config name) (healthy name) (status name).giveUp :=
            fun h => absurd h.1.1 Bool.true_eq_false.mp
          rw [if_pos hmax, if_neg hbefore, ih, firstRestart_update rest hafter hbefore]
        · have hneeds : NeedsRestart (config name) (healthy name) (status name) :=
            ⟨heligible, Bool.eq_false_iff.mpr hhealthy, Int.not_le.mp hmax⟩
          rw [if_neg hmax, if_pos hneeds]
          rfl
    · rw [if_pos heligible, if_neg (fun h => heligible h.1), ih]

/-- The checks do not touch the counters. -/
theorem Checked.consecutiveFailures_eq {target : Option String}
    (h : Checked config status status' target) (n : String) :
    (status' n).consecutiveFailures = (status n).consecutiveFailures := by
  by_cases hn : target = some n
  · obtain ⟨q, hq, -, -, hbegun⟩ := h.begun n hn
    rw [hbegun]
    exact hq.keeps.2
  · exact (h.settled n hn).keeps.2

end

namespace StdioProcessManager

/-- The transport that a loop is restarting. -/
def restarting (s : StdioProcessManager) (id : ℕ) : Option String := (s.loops id).phase.restarting

/-- The transports after a reconnect. -/
def afterReconnect (status : String → ProcessStatus) (name : String) (ok : Bool) :
    String → ProcessStatus :=
  Function.update status name (if ok then (status name).restarted else (status name).restartFailed)

variable (names : List String) (config : String → RestartConfig) (s : StdioProcessManager)

/-- The step does not cancel a loop in the sleep before a reconnect, and it begins no restart after
so many failures that the delay is no float. -/
def Calm : ManagerAction → Prop
  | .loopCancelled id => ∀ name rest delay, (s.loops id).phase ≠ .sleeping name rest delay
  | .intervalElapsed _ healthy => ∀ n, firstRestart config healthy names s.status = some n →
      (s.status n).consecutiveFailures < 1024
  | .reconnectEnds id ok healthy => ∀ name rest, (s.loops id).phase = .reconnecting name rest →
      ∀ n, firstRestart config healthy rest (afterReconnect s.status name ok) = some n →
        (afterReconnect s.status name ok n).consecutiveFailures < 1024
  | _ => True

/-- The loop gets to the checks of the transports in `rest`. -/
inductive Freed :
    ManagerAction → ℕ → (String → Bool) → List String → (String → ProcessStatus) → Prop
  | interval {id : ℕ} {healthy : String → Bool} {woken : Bool} :
      s.loops id = ⟨.waiting woken, false⟩ →
      Freed (.intervalElapsed id healthy) id healthy names s.status
  | reconnect {id : ℕ} {ok : Bool} {healthy : String → Bool} {name : String} {rest : List String} :
      s.loops id = ⟨.reconnecting name rest, false⟩ →
      Freed (.reconnectEnds id ok healthy) id healthy rest (afterReconnect s.status name ok)

/-- What a step does to the transports and to the restarts that are running. -/
inductive Moves (a : ManagerAction) (t : StdioProcessManager) : Prop
  | quiet : t.status = s.status → (∀ id, t.restarting id = s.restarting id) → Moves a t
  | connected (name : String) (ok : Bool) : t.status = Function.update s.status name
      (if ok then (s.status name).foundUp else (s.status name).connectFailed) →
      (∀ id, t.restarting id = s.restarting id) → Moves a t
  | checked {id : ℕ} {healthy : String → Bool} {rest : List String}
      {status : String → ProcessStatus} (target : Option String) :
      s.Freed names a id healthy rest status → Checked config status t.status target →
      t.restarting = Function.update s.restarting id target → Moves a t
  | interrupted (id : ℕ) (name : String) : s.restarting id = some name →
      t.status = Function.update s.status name (s.status name).interrupted →
      t.restarting = Function.update s.restarting id none → Moves a t

/-- The step ends a restart that is still in progress for the checks. -/
inductive Strands (a : ManagerAction) (t : StdioProcessManager) : Prop
  | abandoned (id : ℕ) (name : String) : s.restarting id = some name → t.status = s.status →
      t.restarting = Function.update s.restarting id none → Strands a t
  | died {id : ℕ} {healthy : String → Bool} {rest : List String}
      {status : String → ProcessStatus} (n : String) :
      s.Freed names a id healthy rest status → Checked config status t.status (some n) →
      t.restarting = Function.update s.restarting id none → Strands a t

/-- Loops that do not exist yet do nothing. -/
def Fresh : Prop := ∀ id, s.nextLoop ≤ id → (s.loops id).phase = .finished

variable {names config s} {t : StdioProcessManager} {a : ManagerAction}

theorem restarting_setLoop (s : StdioProcessManager) (id : ℕ) (l : HealthLoop) :
    (s.setLoop id l).restarting = Function.update s.restarting id l.phase.restarting := by
  funext other
  unfold restarting setLoop
  by_cases h : other = id
  · subst h
    simp
  · simp [Function.update_of_ne h]

theorem wake_restarting (l : HealthLoop) : l.wake.phase.restarting = l.phase.restarting := by
  unfold HealthLoop.wake
  split
  · rename_i h
    rw [h]
    rfl
  · rfl

theorem runChecks_status (config : String → RestartConfig) (s : StdioProcessManager) (id : ℕ)
    (healthy : String → Bool) (rest : List String) :
    (s.runChecks config id healthy rest).status = (checkFrom config healthy rest s.status).1 := by
  unfold runChecks
  split <;> simp_all [nextIteration, setLoop]

theorem restartDelay_eq_ok {config : RestartConfig} {failures : ℕ} {delay : ℚ} :
    restartDelay config failures = .ok delay ↔
      failures < 1024 ∧ min (config.restartDelay * 2 ^ failures) 60 = delay := by
  unfold restartDelay
  split
  · rename_i hfew
    simp [hfew]
  · rename_i hmany
    simp [hmany]

/-- Where the loop stands after the checks: in the restart that they began, unless that raised. -/
theorem runChecks_restarting (s : StdioProcessManager) (id : ℕ) (healthy : String → Bool)
    (rest : List String) :
    (s.runChecks config id healthy rest).restarting = Function.update s.restarting id
      ((firstRestart config healthy rest s.status).filter fun n =>
        (s.status n).consecutiveFailures < 1024) := by
  have htarget := checkFrom_target config healthy rest s.status
  have hcounters := (checkFrom_checked config healthy rest s.status).consecutiveFailures_eq
  unfold runChecks
  split
  · rename_i status hchecks
    rw [hchecks] at htarget
    rw [← htarget, nextIteration, restarting_setLoop]
    split <;> rfl
  · rename_i status name left delay hchecks
    have hdelay := checkFrom_delay (congrArg Prod.snd hchecks)
    rw [hcounters] at hdelay
    have hfew := (restartDelay_eq_ok.mp hdelay.symm).1
    have hfilter : (some name).filter (fun n => decide ((s.status n).consecutiveFailures < 1024)) =
        some name := by
      simp [Option.filter, hfew]
    rw [hchecks] at htarget
    rw [← htarget, restarting_setLoop]
    exact congrArg (Function.update s.restarting id) hfilter.symm
  · rename_i status name left e hchecks
    have hdelay := checkFrom_delay (congrArg Prod.snd hchecks)
    rw [hcounters] at hdelay
    have hmany : ¬ (s.status name).consecutiveFailures < 1024 := by
      intro hfew
      rw [restartDelay, if_pos hfew] at hdelay
      cases hdelay
    have hfilter : (some name).filter (fun n => decide ((s.status n).consecutiveFailures < 1024)) =
        none := by
      simp [Option.filter, hmany]
    rw [hchecks] at htarget
    rw [← htarget, restarting_setLoop]
    exact congrArg (Function.update s.restarting id) hfilter.symm

/-- A round of checks begins a restart that then waits, or one that raises. -/
theorem moves_of_runChecks {id : ℕ} {healthy : String → Bool} {rest : List String}
    {status : String → ProcessStatus} (hfreed : s.Freed names a id healthy rest status)
    (ht : t.status = (checkFrom config healthy rest status).1)
    (hrestarting : t.restarting = Function.update s.restarting id
      ((firstRestart config healthy rest status).filter fun n =>
        (status n).consecutiveFailures < 1024)) :
    ((∀ n, firstRestart config healthy rest status = some n →
        (status n).consecutiveFailures < 1024) ∧ s.Moves names config a t) ∨
      (¬ (∀ n, firstRestart config healthy rest status = some n →
        (status n).consecutiveFailures < 1024) ∧ s.Strands names config a t) := by
  have hchecked := checkFrom_checked config healthy rest status
  rw [checkFrom_target, ← ht] at hchecked
  cases htarget : firstRestart config healthy rest status with
  | none =>
    rw [htarget] at hchecked hrestarting
    exact .inl ⟨nofun, .checked none hfreed hchecked hrestarting⟩
  | some n =>
    rw [htarget] at hchecked hrestarting
    by_cases hfew : (status n).consecutiveFailures < 1024
    · refine .inl ⟨?_, .checked (some n) hfreed hchecked ?_⟩
      · intro m hm
        cases hm
        exact hfew
      · rw [hrestarting]
        simp [Option.filter, hfew]
    · refine .inr ⟨fun hall => hfew (hall n rfl), .died n hfreed hchecked ?_⟩
      rw [hrestarting]
      simp [Option.filter, hfew]

/-- A loop that changes its place, and not the restart in which it is, moves nothing. -/
theorem restarting_setLoop_of_eq {id : ℕ} {l : HealthLoop}
    (h : l.phase.restarting = s.restarting id) (other : ℕ) :
    (s.setLoop id l).restarting other = s.restarting other := by
  rw [restarting_setLoop, h, Function.update_eq_self]

theorem moves_setLoop {id : ℕ} {l l' : HealthLoop} (hloop : s.loops id = l)
    (h : l'.phase.restarting = l.phase.restarting) : s.Moves names config a (s.setLoop id l') := by
  refine .quiet rfl (restarting_setLoop_of_eq ?_)
  rw [restarting, hloop, h]

theorem calm_of_not_sleeping {id : ℕ} {l : HealthLoop} (hloop : s.loops id = l)
    (hl : ∀ name rest delay, l.phase ≠ .sleeping name rest delay) :
    s.Calm names config (.loopCancelled id) := by
  intro name rest delay
  rw [hloop]
  exact hl name rest delay

theorem restarting_connectFrom (hfresh : s.Fresh) (id : ℕ) (rest : List String) (other : ℕ) :
    (s.connectFrom id rest).restarting other = s.restarting other := by
  cases rest with
  | nil =>
    let created : HealthLoop := { phase := .created }
    have hnew : created.phase.restarting = s.restarting s.nextLoop := by
      unfold restarting
      rw [hfresh s.nextLoop le_rfl]
      rfl
    have hloop : (s.connectFrom id []).restarting = (s.setLoop s.nextLoop created).restarting := rfl
    rw [hloop]
    exact restarting_setLoop_of_eq hnew other
  | cons name rest => rfl

theorem restarting_setShutdownEvent (s : StdioProcessManager) (other : ℕ) :
    s.setShutdownEvent.restarting other = s.restarting other := wake_restarting _

/-- What a step does, by cases of the action. -/
theorem moves_of_step (hfresh : s.Fresh) (h : s.step names config a = some t) :
    (s.Calm names config a ∧ s.Moves names config a t) ∨
      (¬ s.Calm names config a ∧ s.Strands names config a t) := by
  cases a with
  | startAll id =>
    simp only [step] at h
    split at h
    · cases h
      refine .inl ⟨trivial, .quiet ?_ (restarting_connectFrom hfresh id names)⟩
      cases names <;> rfl
    · cases h
  | connectEnds id ok =>
    simp only [step] at h
    split at h
    · rename_i name rest hcall
      cases h
      let after := s.setStatus name (if ok then (s.status name).foundUp
        else (s.status name).connectFailed)
      have hafter : after.Fresh := hfresh
      refine .inl ⟨trivial, .connected name ok ?_ (restarting_connectFrom hafter id rest)⟩
      cases rest <;> rfl
    · cases h
  | loopStarts id =>
    simp only [step] at h
    split at h
    · rename_i hloop
      cases h
      refine .inl ⟨trivial, moves_setLoop hloop ?_⟩
      dsimp only
      split <;> rfl
    · cases h
  | intervalElapsed id healthy =>
    simp only [step] at h
    split at h
    · rename_i woken hloop
      cases h
      exact moves_of_runChecks (.interval hloop) (runChecks_status config ..)
        (runChecks_restarting ..)
    · cases h
  | shutdownNoticed id =>
    simp only [step] at h
    split at h
    · rename_i hloop
      cases h
      exact .inl ⟨trivial, moves_setLoop hloop rfl⟩
    · cases h
  | sleepEnds id =>
    simp only [step] at h
    split at h
    · rename_i hloop
      cases h
      exact .inl ⟨trivial, moves_setLoop hloop rfl⟩
    · cases h
  | reconnectEnds id ok healthy =>
    simp only [step] at h
    split at h
    · rename_i name rest hloop
      cases h
      let after := s.setStatus name (if ok then (s.status name).restarted
        else (s.status name).restartFailed)
      have hfreed : s.Freed names (.reconnectEnds id ok healthy) id healthy rest
        (afterReconnect s.status name ok) := .reconnect hloop
      have hchecks := moves_of_runChecks hfreed (runChecks_status config after id healthy rest)
        (runChecks_restarting after id healthy rest)
      have hphase : ∀ name' rest', (s.loops id).phase = .reconnecting name' rest' →
          name = name' ∧ rest = rest' := by
        intro name' rest' hphase
        rw [hloop] at hphase
        exact LoopPhase.reconnecting.inj hphase
      rcases hchecks with ⟨hfew, hmoves⟩ | ⟨hmany, hstrands⟩
      · refine .inl ⟨?_, hmoves⟩
        intro name' rest' hloop'
        obtain ⟨rfl, rfl⟩ := hphase name' rest' hloop'
        exact hfew
      · refine .inr ⟨fun hcalm => hmany (hcalm name rest ?_), hstrands⟩
        rw [hloop]
    · cases h
  | cancelSwallowed id =>
    simp only [step] at h
    split at h
    · rename_i hloop
      cases h
      exact .inl ⟨trivial, moves_setLoop hloop rfl⟩
    · cases h
  | loopCancelled id =>
    simp only [step] at h
    -- only the loop that sleeps before a reconnect has a restart that no `finally` ends
    split at h
    · rename_i hloop
      cases h
      exact .inl ⟨calm_of_not_sleeping hloop nofun, moves_setLoop hloop rfl⟩
    · rename_i woken hloop
      cases h
      exact .inl ⟨calm_of_not_sleeping hloop nofun, moves_setLoop hloop rfl⟩
    · rename_i name rest delay hloop
      cases h
      refine .inr ⟨fun hcalm => hcalm name rest delay (by rw [hloop]),
        .abandoned id name ?_ rfl (restarting_setLoop s id {})⟩
      rw [restarting, hloop]
      rfl
    · rename_i name rest hloop
      cases h
      refine .inl ⟨calm_of_not_sleeping hloop nofun,
        .interrupted id name ?_ rfl (restarting_setLoop _ id {})⟩
      rw [restarting, hloop]
      rfl
    · cases h
  | shutdown id =>
    simp only [step] at h
    split at h
    · cases h
      exact .inl ⟨trivial, .quiet rfl (restarting_setShutdownEvent s)⟩
    · rename_i loop _ _
      cases h
      let cancelled : HealthLoop := { (s.loops loop).wake with cancelRequested := true }
      have hsame : cancelled.phase.restarting = s.setShutdownEvent.restarting loop := rfl
      refine .inl ⟨trivial, .quiet rfl ?_⟩
      intro other
      exact (restarting_setLoop_of_eq hsame other).trans (restarting_setShutdownEvent s other)
    · cases h
  | shutdownResumes id =>
    simp only [step] at h
    split at h
    · split at h
      · cases h
        exact .inl ⟨trivial, .quiet rfl fun _ => rfl⟩
      · cases h
        exact .inl ⟨trivial, .quiet rfl fun _ => rfl⟩
      · cases h
    · cases h
  | disconnected id =>
    simp only [step] at h
    split at h
    · cases h
      exact .inl ⟨trivial, .quiet rfl fun _ => rfl⟩
    · cases h
  | signalled =>
    cases h
    exact .inl ⟨trivial, .quiet rfl (restarting_setShutdownEvent s)⟩

/-- How a health loop gets on in a step. -/
inductive PhaseStep (config : String → RestartConfig) : LoopPhase → LoopPhase → Prop
  | same (p : LoopPhase) : PhaseStep config p p
  | woken (woken : Bool) : PhaseStep config (.waiting woken) (.waiting true)
  | ended {p : LoopPhase} : p ≠ .finished → PhaseStep config p .finished
  | waits {p : LoopPhase} : p ≠ .finished → PhaseStep config p (.waiting false)
  | sleeps {p : LoopPhase} {name : String} {rest : List String} {failures : ℕ} {delay : ℚ} :
      p ≠ .finished → restartDelay (config name) failures = .ok delay →
      PhaseStep config p (.sleeping name rest delay)
  | reconnects (name : String) (rest : List String) (delay : ℚ) :
      PhaseStep config (.sleeping name rest delay) (.reconnecting name rest)
  | died {p : LoopPhase} {e : Exc} : p ≠ .finished → PhaseStep config p (.died e)

/-- How the health loops get on in a step. There may be one more afterwards. -/
structure LoopsStep (config : String → RestartConfig) (s t : StdioProcessManager) : Prop where
  phases (id : ℕ) : PhaseStep config (s.loops id).phase (t.loops id).phase ∨
    id = s.nextLoop ∧ (t.loops id).phase = .created ∧ s.nextLoop < t.nextLoop
  later : s.nextLoop ≤ t.nextLoop

theorem loopsStep_update {id : ℕ} {l : HealthLoop}
    (hloops : t.loops = Function.update s.loops id l) (hnext : t.nextLoop = s.nextLoop)
    (h : PhaseStep config (s.loops id).phase l.phase) : LoopsStep config s t := by
  refine ⟨fun other => .inl ?_, hnext.ge⟩
  rw [hloops]
  by_cases heq : other = id
  · subst heq
    rw [Function.update_self]
    exact h
  · rw [Function.update_of_ne heq]
    exact .same _

theorem phaseStep_wake (l : HealthLoop) : PhaseStep config l.phase l.wake.phase := by
  unfold HealthLoop.wake
  split
  · rename_i woken hphase
    rw [hphase]
    exact .woken woken
  · exact .same _

theorem loopsStep_connectFrom {u : StdioProcessManager} (hloops : u.loops = s.loops)
    (hnext : u.nextLoop = s.nextLoop) (id : ℕ) (rest : List String) :
    LoopsStep config s (u.connectFrom id rest) := by
  cases rest with
  | cons name rest => exact ⟨fun _ => .inl (hloops ▸ .same _), hnext.ge⟩
  | nil =>
    have hafter : (u.connectFrom id []).loops =
        Function.update s.loops s.nextLoop { phase := .created } := by
      rw [← hloops, ← hnext]
      rfl
    have hnew : s.nextLoop < (u.connectFrom id []).nextLoop := by
      rw [← hnext]
      exact Nat.lt_succ_self _
    refine ⟨fun other => ?_, hnew.le⟩
    rw [hafter]
    by_cases heq : other = s.nextLoop
    · subst heq
      rw [Function.update_self]
      exact .inr ⟨rfl, rfl, hnew⟩
    · rw [Function.update_of_ne heq]
      exact .inl (.same _)

theorem loopsStep_runChecks {u : StdioProcessManager} {id : ℕ} (hloops : u.loops = s.loops)
    (hnext : u.nextLoop = s.nextLoop) (hid : (s.loops id).phase ≠ .finished)
    (healthy : String → Bool) (rest : List String) :
    LoopsStep config s (u.runChecks config id healthy rest) := by
  unfold runChecks
  rw [← hloops] at hid
  split
  · refine loopsStep_update (congrArg (Function.update · id _) hloops) hnext ?_
    rw [← hloops]
    dsimp only
    split
    · exact .ended hid
    · exact .waits hid
  · rename_i hchecks
    refine loopsStep_update (congrArg (Function.update · id _) hloops) hnext ?_
    rw [← hloops]
    exact .sleeps hid (checkFrom_delay (congrArg Prod.snd hchecks)).symm
  · refine loopsStep_update (congrArg (Function.update · id _) hloops) hnext ?_
    rw [← hloops]
    exact .died hid

theorem loopsStep_of_step (h : s.step names config a = some t) : LoopsStep config s t := by
  have hsame {u : StdioProcessManager} (hloops : u.loops = s.loops)
      (hnext : u.nextLoop = s.nextLoop) : LoopsStep config s u :=
    ⟨fun id => .inl (by rw [hloops]; exact .same _), hnext.ge⟩
  have hwake {u : StdioProcessManager} (hloops : ∀ id, (u.loops id).phase = (s.loops id).wake.phase)
      (hnext : u.nextLoop = s.nextLoop) : LoopsStep config s u :=
    ⟨fun id => .inl (by rw [hloops]; exact phaseStep_wake (s.loops id)), hnext.ge⟩
  have hbusy {id : ℕ} {l : HealthLoop} (hloop : s.loops id = l) (hl : l.phase ≠ .finished) :
      (s.loops id).phase ≠ .finished := by rwa [hloop]
  cases a with
  | startAll id =>
    simp only [step] at h
    split at h
    · cases h
      exact loopsStep_connectFrom rfl rfl id names
    · cases h
  | connectEnds id ok =>
    simp only [step] at h
    split at h
    · rename_i name rest _
      cases h
      refine loopsStep_connectFrom ?_ ?_ id rest
      · rfl
      · rfl
    · cases h
  | loopStarts id =>
    simp only [step] at h
    split at h
    · rename_i hloop
      cases h
      refine loopsStep_update rfl rfl ?_
      dsimp only
      split
      · exact .ended (hbusy hloop nofun)
      · exact .waits (hbusy hloop nofun)
    · cases h
  | intervalElapsed id healthy =>
    simp only [step] at h
    split at h
    · rename_i hloop
      cases h
      exact loopsStep_runChecks rfl rfl (hbusy hloop nofun) healthy names
    · cases h
  | shutdownNoticed id =>
    simp only [step] at h
    split at h
    · rename_i hloop
      cases h
      exact loopsStep_update rfl rfl (.ended (hbusy hloop nofun))
    · cases h
  | sleepEnds id =>
    simp only [step] at h
    split at h
    · rename_i name rest delay hloop
      cases h
      refine loopsStep_update rfl rfl ?_
      rw [hloop]
      exact .reconnects name rest delay
    · cases h
  | reconnectEnds id ok healthy =>
    simp only [step] at h
    split at h
    · rename_i name rest hloop
      cases h
      refine loopsStep_runChecks ?_ ?_ (hbusy hloop nofun) healthy rest
      · rfl
      · rfl
    · cases h
  | cancelSwallowed id =>
    simp only [step] at h
    split at h
    · rename_i hloop
      cases h
      refine loopsStep_update rfl rfl ?_
      rw [hloop]
      exact .same _
    · cases h
  | loopCancelled id =>
    simp only [step] at h
    split at h
    · rename_i hloop
      cases h
      exact loopsStep_update rfl rfl (.ended (hbusy hloop nofun))
    · rename_i hloop
      cases h
      exact loopsStep_update rfl rfl (.ended (hbusy hloop nofun))
    · rename_i hloop
      cases h
      exact loopsStep_update rfl rfl (.ended (hbusy hloop nofun))
    · rename_i name rest hloop
      cases h
      exact loopsStep_update rfl rfl (.ended (hbusy hloop nofun))
    · cases h
  | shutdown id =>
    simp only [step] at h
    split at h
    · cases h
      exact hwake (fun _ => rfl) rfl
    · rename_i loop _ _
      cases h
      refine hwake (fun other => ?_) rfl
      unfold setCall setLoop
      dsimp only
      by_cases heq : other = loop
      · subst heq
        rw [Function.update_self]
      · rw [Function.update_of_ne heq]
        rfl
    · cases h
  | shutdownResumes id =>
    simp only [step] at h
    split at h
    · split at h
      · cases h
        exact hsame rfl rfl
      · cases h
        exact hsame rfl rfl
      · cases h
    · cases h
  | disconnected id =>
    simp only [step] at h
    split at h
    · cases h
      exact hsame rfl rfl
    · cases h
  | signalled =>
    cases h
    exact hwake (fun _ => rfl) rfl

theorem LoopsStep.fresh (h : LoopsStep config s t) (hfresh : s.Fresh) : t.Fresh := by
  intro id hid
  have hlater := h.later
  rcases h.phases id with hphase | ⟨rfl, -, hnew⟩
  · rw [hfresh id (by omega)] at hphase
    generalize hq : (t.loops id).phase = q at hphase
    cases hphase with
    | same => rfl
    | ended hne => rfl
    | waits hne => exact absurd rfl hne
    | sleeps hne => exact absurd rfl hne
    | died hne => exact absurd rfl hne
  · omega

end StdioProcessManager

end McpZero.Transport
