import McpZero.Transport.Supervision

/-! The budget of restarts. A connect of `start_all` that fails is counted among the failed
reconnects, and a transport that is found up keeps its count, so the counter need not tell how many
reconnects have failed in a row. -/
namespace McpZero.Transport
open Lib

/-- What holds of the counter of a transport and its history. -/
structure Tracked (config : RestartConfig) (p : ProcessStatus) : Prop where
  followed : p.followed = true ↔ p.consecutiveFailures ≤ p.failedInARow
  alive : p.permanentlyFailed = true → p.restartInProgress = false
  restarting : p.restartInProgress = true → if p.overtaken = true then p.consecutiveFailures = 1
    else (p.consecutiveFailures : ℤ) < config.maxRestarts

namespace Tracked

variable {config : RestartConfig} {p : ProcessStatus} (h : Tracked config p)

theorem start (config : RestartConfig) : Tracked config {} := ⟨by simp, nofun, nofun⟩

include h

theorem connectFailed : Tracked config p.connectFailed where
  followed := by simp [ProcessStatus.connectFailed]
  alive := h.alive
  restarting _ := by simp [ProcessStatus.connectFailed]

theorem foundUp : Tracked config p.foundUp where
  followed := by simp [ProcessStatus.foundUp]
  alive := h.alive
  restarting := h.restarting

theorem giveUp (hidle : p.restartInProgress = false) : Tracked config p.giveUp where
  followed := h.followed
  alive _ := hidle
  restarting := h.restarting

theorem beginRestart (heligible : p.Eligible)
    (hmax : (p.consecutiveFailures : ℤ) < config.maxRestarts) : Tracked config p.beginRestart where
  followed := h.followed
  alive hfailed := by
    have hnot : p.permanentlyFailed = false := heligible.1
    rw [ProcessStatus.beginRestart, hnot] at hfailed
    cases hfailed
  restarting _ := by simpa [ProcessStatus.beginRestart] using hmax

omit h in
theorem restarted : Tracked config p.restarted where
  followed := by simp [ProcessStatus.restarted]
  alive _ := rfl
  restarting := nofun

theorem restartFailed : Tracked config p.restartFailed where
  followed := by
    simp only [ProcessStatus.restartFailed]
    rw [h.followed]
    omega
  alive _ := rfl
  restarting := nofun

theorem interrupted : Tracked config p.interrupted where
  followed := h.followed
  alive _ := rfl
  restarting := nofun

theorem settled {q : ProcessStatus} (hq : Settled config p q) : Tracked config q := by
  induction hq with
  | refl => exact h
  | up _ _ ih => exact ih.foundUp
  | gaveUp _ heligible _ ih => exact ih.giveUp heligible.2

end Tracked

/-- A transport is given up with a counter that has come to the budget. -/
theorem Settled.marked {config : RestartConfig} {p q : ProcessStatus} (h : Settled config p q)
    (hp : p.permanentlyFailed = false) (hq : q.permanentlyFailed = true) :
    config.maxRestarts ≤ q.consecutiveFailures := by
  induction h with
  | refl =>
    rw [hp] at hq
    cases hq
  | up _ heligible _ =>
    have hnot := heligible.1
    rw [ProcessStatus.foundUp] at hq
    rw [hnot] at hq
    cases hq
  | gaveUp _ _ hmax _ => exact hmax

theorem tracked_update {config : String → RestartConfig} {status : String → ProcessStatus}
    {name : String} {p : ProcessStatus} (h : ∀ n, Tracked (config n) (status n))
    (hp : Tracked (config name) p) (n : String) :
    Tracked (config n) (Function.update status name p n) := by
  by_cases hn : n = name
  · subst hn
    rw [Function.update_self]
    exact hp
  · rw [Function.update_of_ne hn]
    exact h n

theorem Checked.tracked {config : String → RestartConfig} {status status' : String → ProcessStatus}
    {target : Option String} (hchecked : Checked config status status' target)
    (h : ∀ n, Tracked (config n) (status n)) (n : String) : Tracked (config n) (status' n) := by
  by_cases hn : target = some n
  · obtain ⟨q, hq, heligible, hmax, hbegun⟩ := hchecked.begun n hn
    rw [hbegun]
    exact ((h n).settled hq).beginRestart heligible hmax
  · exact (h n).settled (hchecked.settled n hn)

theorem Checked.marked {config : String → RestartConfig} {status status' : String → ProcessStatus}
    {target : Option String} (hchecked : Checked config status status' target) {n : String}
    (hbefore : (status n).permanentlyFailed = false)
    (hafter : (status' n).permanentlyFailed = true) :
    (config n).maxRestarts ≤ (status' n).consecutiveFailures := by
  by_cases hn : target = some n
  · obtain ⟨q, -, heligible, -, hbegun⟩ := hchecked.begun n hn
    have hnot : (status' n).permanentlyFailed = false := by
      rw [hbegun]
      exact heligible.1
    rw [hnot] at hafter
    cases hafter
  · exact (hchecked.settled n hn).marked hbefore hafter

namespace StdioProcessManager

variable (config : String → RestartConfig) (s : StdioProcessManager) (a : ManagerAction)
  (t : StdioProcessManager)

/-- The promises of a step: a transport is given up after as many reconnects in a row as its budget
allows, the counter does not exceed the budget, no transport that is given up is being restarted, no
delay is longer than a minute, and a restart that succeeds resets the counter. -/
structure Budgeted : Prop where
  marked (n : String) : 1 ≤ (config n).maxRestarts → (s.status n).permanentlyFailed = false →
    (t.status n).permanentlyFailed = true → (config n).maxRestarts ≤ (t.status n).failedInARow
  bounded (n : String) : 1 ≤ (config n).maxRestarts →
    ((t.status n).consecutiveFailures : ℤ) ≤ (config n).maxRestarts
  alive (id : ℕ) (n : String) : t.restarting id = some n → (t.status n).permanentlyFailed = false
  delayed (id : ℕ) (name : String) (rest : List String) (delay : ℚ) :
    (t.loops id).phase = .sleeping name rest delay → delay ≤ 60
  reset (id : ℕ) (healthy : String → Bool) (name : String) (rest : List String) :
    a = .reconnectEnds id true healthy → (s.loops id).phase = .reconnecting name rest →
      (t.status name).consecutiveFailures = 0

/-- A transport that the step gives up has a counter that has followed its reconnects, and a
reconnect of a transport with a budget of one does not fail when a connect of `start_all` has failed
in the meantime. -/
structure Attentive : Prop where
  followed (n : String) : 1 ≤ (config n).maxRestarts → (s.status n).permanentlyFailed = false →
    (t.status n).permanentlyFailed = true → (t.status n).followed = true
  alone (id : ℕ) (healthy : String → Bool) (name : String) (rest : List String) :
    a = .reconnectEnds id false healthy → (s.loops id).phase = .reconnecting name rest →
      (config name).maxRestarts = 1 → (s.status name).overtaken = false

/-- What holds in every state of a run that keeps the promises. -/
structure InBudget : Prop where
  exclusive : s.Exclusive
  tracked (n : String) : Tracked (config n) (s.status n)
  bounded (n : String) : 1 ≤ (config n).maxRestarts →
    ((s.status n).consecutiveFailures : ℤ) ≤ (config n).maxRestarts
  delayed (id : ℕ) (name : String) (rest : List String) (delay : ℚ) :
    (s.loops id).phase = .sleeping name rest delay → delay ≤ 60

variable {config s a t} {names : List String}

theorem tracked_afterReconnect (h : ∀ n, Tracked (config n) (s.status n)) (name : String)
    (ok : Bool) (n : String) : Tracked (config n) (afterReconnect s.status name ok n) := by
  refine tracked_update h ?_ n
  cases ok with
  | true => exact .restarted
  | false => exact (h name).restartFailed

theorem Freed.tracked {id : ℕ} {healthy : String → Bool} {rest : List String}
    {status : String → ProcessStatus} (hfreed : s.Freed names a id healthy rest status)
    (h : ∀ n, Tracked (config n) (s.status n)) (n : String) : Tracked (config n) (status n) := by
  cases hfreed with
  | interval => exact h n
  | reconnect => exact tracked_afterReconnect h _ _ n

theorem Freed.permanentlyFailed_eq {id : ℕ} {healthy : String → Bool} {rest : List String}
    {status : String → ProcessStatus} (hfreed : s.Freed names a id healthy rest status)
    (n : String) : (status n).permanentlyFailed = (s.status n).permanentlyFailed := by
  cases hfreed with
  | interval => rfl
  | @reconnect _ ok _ name =>
    exact update_keeps (·.permanentlyFailed) (by cases ok <;> rfl) n

/-- The counter after a reconnect. The checks that follow it do not touch it. -/
theorem reconnect_counter {id : ℕ} {ok : Bool} {healthy : String → Bool} {name : String}
    {rest : List String} (hphase : (s.loops id).phase = .reconnecting name rest)
    (h : s.step names config (.reconnectEnds id ok healthy) = some t) :
    (t.status name).consecutiveFailures =
      if ok then 0 else (s.status name).consecutiveFailures + 1 := by
  simp only [step] at h
  split at h
  · rename_i name' rest' hloop
    cases h
    rw [hloop] at hphase
    obtain ⟨rfl, rfl⟩ := LoopPhase.reconnecting.inj hphase
    rw [runChecks_status, (checkFrom_checked config healthy rest' _).consecutiveFailures_eq,
      setStatus]
    dsimp only
    rw [Function.update_self]
    cases ok <;> rfl
  · cases h

/-- What a step does to the transports. -/
theorem change_of_step (hfresh : s.Fresh) (h : s.step names config a = some t) :
    t.status = s.status ∨
      (∃ name, ∃ ok : Bool, t.status = Function.update s.status name
        (if ok then (s.status name).foundUp else (s.status name).connectFailed)) ∨
      (∃ id healthy rest status target, s.Freed names a id healthy rest status ∧
        Checked config status t.status target) ∨
      ∃ name, t.status = Function.update s.status name (s.status name).interrupted := by
  rcases moves_of_step hfresh h with ⟨-, hmoves⟩ | ⟨-, hstrands⟩
  · cases hmoves with
    | quiet hstatus => exact .inl hstatus
    | connected name ok hstatus => exact .inr (.inl ⟨name, ok, hstatus⟩)
    | checked target hfreed hchecked => exact .inr (.inr (.inl ⟨_, _, _, _, _, hfreed, hchecked⟩))
    | interrupted id name _ hstatus => exact .inr (.inr (.inr ⟨name, hstatus⟩))
  · cases hstrands with
    | abandoned id name _ hstatus => exact .inl hstatus
    | died n hfreed hchecked => exact .inr (.inr (.inl ⟨_, _, _, _, _, hfreed, hchecked⟩))

theorem tracked_of_step (hfresh : s.Fresh) (hs : ∀ n, Tracked (config n) (s.status n))
    (h : s.step names config a = some t) (n : String) : Tracked (config n) (t.status n) := by
  rcases change_of_step hfresh h with hstatus | ⟨name, ok, hstatus⟩ |
    ⟨_, _, _, _, _, hfreed, hchecked⟩ | ⟨name, hstatus⟩
  · rw [hstatus]
    exact hs n
  · rw [hstatus]
    refine tracked_update hs ?_ n
    cases ok with
    | true => exact (hs name).foundUp
    | false => exact (hs name).connectFailed
  · exact hchecked.tracked (hfreed.tracked hs) n
  · rw [hstatus]
    exact tracked_update hs (hs name).interrupted n

/-- A step that gives a transport up finds its counter at the budget. -/
theorem marked_of_step (hfresh : s.Fresh) (h : s.step names config a = some t) {n : String}
    (hbefore : (s.status n).permanentlyFailed = false)
    (hafter : (t.status n).permanentlyFailed = true) :
    (config n).maxRestarts ≤ (t.status n).consecutiveFailures := by
  have hkept {name : String} (p : ProcessStatus)
      (hp : p.permanentlyFailed = (s.status name).permanentlyFailed)
      (hstatus : t.status = Function.update s.status name p) :
      (t.status n).permanentlyFailed = (s.status n).permanentlyFailed := by
    rw [hstatus]
    exact update_keeps (·.permanentlyFailed) hp n
  rcases change_of_step hfresh h with hstatus | ⟨name, ok, hstatus⟩ |
    ⟨_, _, _, _, _, hfreed, hchecked⟩ | ⟨name, hstatus⟩
  · rw [hstatus, hbefore] at hafter
    cases hafter
  · rw [hkept _ (by cases ok <;> rfl) hstatus, hbefore] at hafter
    cases hafter
  · exact hchecked.marked ((hfreed.permanentlyFailed_eq n).trans hbefore) hafter
  · rw [hkept (s.status name).interrupted rfl hstatus, hbefore] at hafter
    cases hafter

theorem delayed_of_step (hs : s.InBudget config) (h : s.step names config a = some t) (id : ℕ)
    (name : String) (rest : List String) (delay : ℚ)
    (hphase : (t.loops id).phase = .sleeping name rest delay) : delay ≤ 60 := by
  rcases (loopsStep_of_step h).phases id with hstep | ⟨-, hcreated, -⟩
  · rw [hphase] at hstep
    generalize hp : (s.loops id).phase = p at hstep
    cases hstep with
    | same => exact hs.delayed id name rest delay hp
    | sleeps _ hdelay =>
      obtain ⟨-, rfl⟩ := restartDelay_eq_ok.mp hdelay
      exact min_le_right _ _
  · rw [hphase] at hcreated
    cases hcreated

/-- The counter stays within the budget where reconnects with a budget of one are left alone. -/
theorem bounded_of_step (hs : s.InBudget config) (h : s.step names config a = some t)
    (halone : ∀ id healthy name rest, a = .reconnectEnds id false healthy →
      (s.loops id).phase = .reconnecting name rest → (config name).maxRestarts = 1 →
        (s.status name).overtaken = false) (n : String) (hmax : 1 ≤ (config n).maxRestarts) :
    ((t.status n).consecutiveFailures : ℤ) ≤ (config n).maxRestarts := by
  have hbound := hs.bounded n hmax
  rcases change_of_step hs.exclusive.fresh h with hstatus | ⟨name, ok, hstatus⟩ |
    ⟨id, healthy, rest, status, target, hfreed, hchecked⟩ | ⟨name, hstatus⟩
  · rwa [hstatus]
  · rw [hstatus]
    by_cases hn : n = name
    · subst hn
      rw [Function.update_self]
      cases ok with
      | true => exact hbound
      | false => exact hmax
    · rwa [Function.update_of_ne hn]
  · rw [hchecked.consecutiveFailures_eq]
    cases hfreed with
    | interval => exact hbound
    | @reconnect _ ok _ name _ hloop =>
      unfold afterReconnect
      by_cases hn : n = name
      · subst hn
        rw [Function.update_self]
        cases ok with
        | true => exact le_trans Int.one_nonneg hmax
        | false =>
          have hphase : (s.loops id).phase = .reconnecting n rest := by rw [hloop]
          have hflag := hs.exclusive.flagged id n (by rw [restarting, hphase]; rfl)
          have hrestarting := (hs.tracked n).restarting hflag
          have halone' := halone id healthy n rest rfl hphase
          have hcount : ((s.status n).consecutiveFailures : ℤ) + 1 ≤ (config n).maxRestarts := by
            cases hovertaken : (s.status n).overtaken with
            | false =>
              rw [hovertaken, if_neg Bool.false_ne_true] at hrestarting
              omega
            | true =>
              rw [hovertaken, if_pos rfl] at hrestarting
              have hnot : (config n).maxRestarts ≠ 1 := by
                intro hone
                have hfalse := halone' hone
                rw [hovertaken] at hfalse
                cases hfalse
              omega
          simpa [ProcessStatus.restartFailed] using hcount
      · rwa [Function.update_of_ne hn]
  · have hcounter : (t.status n).consecutiveFailures = (s.status n).consecutiveFailures := by
      rw [hstatus]
      exact update_keeps (·.consecutiveFailures) (p := (s.status name).interrupted) rfl n
    rw [hcounter]
    exact hbound

theorem inBudget_start (config : String → RestartConfig) :
    ({} : StdioProcessManager).InBudget config where
  exclusive := exclusive_start
  tracked n := .start (config n)
  bounded _ hmax := le_trans Int.one_nonneg hmax
  delayed := nofun

/-- In every run, the promises are kept exactly as long as no transport is given up with a counter
that has not followed its reconnects, and no reconnect with a budget of one is overtaken by a failed
connect. -/
theorem eachStep_budgeted_iff (names : List String) (config : String → RestartConfig)
    (actions : List ManagerAction) :
    EachStep (step names config) (Budgeted config) {} actions ↔
      EachStep (step names config) (Attentive config) {} actions := by
  refine eachStep_iff (I := InBudget config) (inBudget_start config) ?_ ?_
  · intro s a t hs hstep hbudgeted
    have htracked := tracked_of_step hs.exclusive.fresh hs.tracked hstep
    refine ⟨⟨exclusive_of_step hs.exclusive hstep, htracked, hbudgeted.bounded,
      delayed_of_step hs hstep⟩, ?_, ?_⟩
    · intro n hmax hbefore hafter
      have hfailures := hbudgeted.marked n hmax hbefore hafter
      have hcounter := hbudgeted.bounded n hmax
      rw [(htracked n).followed]
      omega
    · intro id healthy name rest ha hphase hone
      subst ha
      have hcounter := reconnect_counter hphase hstep
      have hbound := hbudgeted.bounded name hone.ge
      have hflag := hs.exclusive.flagged id name (by rw [restarting, hphase]; rfl)
      have hrestarting := (hs.tracked name).restarting hflag
      refine Bool.eq_false_iff.mpr fun hovertaken => ?_
      rw [if_pos hovertaken] at hrestarting
      rw [hcounter, hrestarting, hone] at hbound
      exact absurd hbound (by decide)
  · intro s a t hs hstep hattentive
    have htracked := tracked_of_step hs.exclusive.fresh hs.tracked hstep
    have hexclusive := exclusive_of_step hs.exclusive hstep
    have hbounded := bounded_of_step hs hstep hattentive.alone
    have hdelayed := delayed_of_step hs hstep
    refine ⟨⟨hexclusive, htracked, hbounded, hdelayed⟩, ⟨?_, hbounded, ?_, hdelayed, ?_⟩⟩
    · intro n hmax hbefore hafter
      have hmarked := marked_of_step hs.exclusive.fresh hstep hbefore hafter
      have hfollowed := (htracked n).followed.mp (hattentive.followed n hmax hbefore hafter)
      omega
    · intro id n hn
      refine Bool.eq_false_iff.mpr fun hfailed => ?_
      have hidle := (htracked n).alive hfailed
      rw [hexclusive.flagged id n hn] at hidle
      cases hidle
    · intro id healthy name rest ha hphase
      subst ha
      exact reconnect_counter hphase hstep

/-- The first connect fails, and the first health check finds the transport down. -/
def downFromTheStart : List ManagerAction :=
  [.startAll 0, .connectEnds 0 false, .loopStarts 0, .intervalElapsed 0 fun _ => false]

/-- With a budget of one the transport is given up before any reconnect. -/
theorem downFromTheStart_not_budgeted :
    ((run (step ["db"] fun _ => { maxRestarts := 1 }) {} downFromTheStart).map fun t =>
        ((t.status "db").permanentlyFailed, (t.status "db").failedInARow)) = some (true, 0) ∧
      ¬ EachStep (step ["db"] fun _ => { maxRestarts := 1 })
        (Budgeted fun _ => { maxRestarts := 1 }) {} downFromTheStart := by
  refine ⟨rfl, fun h => ?_⟩
  obtain ⟨-, h⟩ := h _ rfl
  obtain ⟨-, h⟩ := h _ rfl
  obtain ⟨-, h⟩ := h _ rfl
  obtain ⟨hbudgeted, -⟩ := h _ rfl
  exact absurd (hbudgeted.marked "db" le_rfl rfl rfl) (by decide)

end StdioProcessManager

end McpZero.Transport
