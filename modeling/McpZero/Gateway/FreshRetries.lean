import McpZero.Gateway.Isolation
import McpZero.Transport.Fresh

/-! The retries of a call whose attempt failed on its transport: whatever the other calls do in
the meantime, they work on transports that were created after the failure. -/
namespace McpZero
open Identity Lib Proxy Transport

namespace Gateway

variable {subjectOf : String → Option String} {servers : Servers} {cacheTtl : ℤ}
  {gw gw' : Gateway subjectOf}

/-- The transport of the attempt that a call is in. -/
def attemptsOn (gw : Gateway subjectOf) (t : TaskId) : Option TransportId :=
  match gw.call t with
  | .connecting _ _ _ => gw.pool.workedOn (gw.pool.task t)
  | .invoking _ _ _ session => some (gw.pool.owner session).transport
  | _ => none

/-- The attempt of the task `t` fails in this step with an error of its transport. -/
def FailsOnTransport (gw : Gateway subjectOf) (t : TaskId) (a : GatewayAction subjectOf) : Prop :=
  (a = .answer t .transportError ∧
    ∃ c token attempt session, gw.call t = .invoking c token attempt session) ∨
  (a = .proceed t ∧ ∃ c token attempt g, gw.call t = .connecting c token attempt ∧
    gw.pool.task t = .raised g (.connect .connection))

/-- What a call that runs has to go on with: it and its attempts see transports newer than `n`. -/
def RetriesOnNewer (n : TransportId) (c : ToolCall subjectOf) (t : TaskId)
    (gw : Gateway subjectOf) : Prop :=
  match gw.call t with
  | .authorized c' _ _ => c' = c ∧ gw.pool.NewerExcept n c.serverName []
  | .connecting c' _ _ => c' = c ∧ gw.pool.SeesNewer n c.serverName t
  | .invoking c' _ _ session => c' = c ∧ gw.pool.NewerExcept n c.serverName [] ∧
    session < gw.pool.nextOwner ∧ n ≤ (gw.pool.owner session).transport
  | .recovering c' _ _ => c' = c ∧ gw.pool.SeesNewer n c.serverName t ∧
    (gw.pool.task t).getSession? = none
  | .finished _ => True
  | _ => False

/-- Only the call itself moves a call that runs. -/
theorem acts_of_moved {a : GatewayAction subjectOf} {m : Move subjectOf} {t : TaskId}
    {call : Call subjectOf} (hm : gw.move servers a = some m) (hcall : m.call = some (t, call))
    (hrunning : (gw.call t).running) :
    gw.proceed servers t = some m ∨ ∃ ans, gw.answer servers t ans = some m := by
  cases a with
  | callTool t' c =>
    simp only [move] at hm
    split at hm
    · cases hm
      have ht : t' = t := by
        unfold startCall at hcall
        split at hcall
        · exact (Prod.mk.inj (Option.some.inj hcall)).1
        · dsimp only at hcall
          split at hcall <;> exact (Prod.mk.inj (Option.some.inj hcall)).1
      subst ht
      simp_all [free]
    · cases hm
  | proceed t' =>
    have ht : t' = t := by
      simp only [move, proceed] at hm
      repeat' split at hm
      all_goals first
        | cases hm
          exact (Prod.mk.inj (Option.some.inj hcall)).1
        | cases hm
    subst ht
    exact .inl hm
  | answer t' ans =>
    have ht : t' = t := by
      simp only [move, answer] at hm
      repeat' split at hm
      all_goals first
        | cases hm
          exact (Prod.mk.inj (Option.some.inj hcall)).1
        | cases hm
    subst ht
    exact .inr ⟨ans, hm⟩
  | listTools t' serverName =>
    simp only [move] at hm
    split at hm <;> cases hm
    cases hcall
  | disconnect t' serverName =>
    simp only [move] at hm
    split at hm <;> cases hm
    cases hcall
  | disconnectAll t' =>
    simp only [move] at hm
    split at hm <;> cases hm
    cases hcall
  | exchange a =>
    cases a with
    | exchange => cases hm
    | _ =>
      cases hm
      cases hcall
  | pool a =>
    simp only [move] at hm
    split at hm <;> cases hm
    cases hcall

/-- A step that does not move the call leaves it what it has to go on with. -/
theorem RetriesOnNewer.kept {n : TransportId} {c : ToolCall subjectOf} {t : TaskId}
    (h : gw.RetriesOnNewer n c t) (hbacked : gw.Backed servers) {m : Move subjectOf}
    (hst : gw.applyMove servers cacheTtl m = some gw')
    (hcall : ∀ call, m.call ≠ some (t, call))
    (hstarts : ∀ a, m.pool = some a → a.starts ≠ some t) : gw'.RetriesOnNewer n c t := by
  obtain ⟨hpool, -, -, hkept, -⟩ := applyMove_eq_some hst
  have hext : gw.pool.Extends gw'.pool :=
    of_stepPart (P := fun s => gw.pool.Extends s) hpool .refl
      fun a _ hst => Pool.extends_of_step hst
  have hrenews : gw.pool.Renews gw'.pool :=
    of_stepPart (P := fun s => gw.pool.Renews s) hpool .refl
      fun a _ hst => Pool.renews_of_step hst
  have hsame := hkept t hcall
  have hplace := hbacked.call t
  unfold RetriesOnNewer at h ⊢
  rw [hsame]
  split at h
  · exact ⟨h.1, h.2.renews hrenews⟩
  · rename_i c' token attempt heq
    obtain ⟨rfl, hsees⟩ := h
    rw [heq] at hplace
    refine ⟨rfl, of_stepPart (P := fun s => s.SeesNewer n c'.serverName t) hpool hsees
      fun a ha hst => hsees.step hbacked.pool hst (hstarts a ha) fun g hg => ?_⟩
    rw [hplace.2] at hg
    cases hg
    rfl
  · obtain ⟨rfl, hnewer, hlt, howner⟩ := h
    refine ⟨rfl, hnewer.renews hrenews, hlt.trans_le hext.nextOwner, ?_⟩
    rw [(hext.owner _ hlt).1]
    exact howner
  · rename_i c' token attempt heq
    obtain ⟨rfl, hsees, hclosing⟩ := h
    have hidle : ∀ g, (gw.pool.task t).getSession? = some g → g.serverName = c'.serverName := by
      intro g hg
      rw [hclosing] at hg
      cases hg
    refine ⟨rfl, ?_, ?_⟩
    · exact of_stepPart (P := fun s => s.SeesNewer n c'.serverName t) hpool hsees
        fun a ha hst => hsees.step hbacked.pool hst (hstarts a ha) hidle
    · exact of_stepPart (P := fun s => (s.task t).getSession? = none) hpool hclosing
        fun a ha hst => Pool.not_getSession?_of_step hst (hstarts a ha) hclosing
  · trivial
  · exact h

/-- The next attempt, or the end of the call. -/
theorem retriesOnNewer_retry {n : TransportId} {c : ToolCall subjectOf} {t : TaskId}
    {token : Option String} {attempt : ℕ}
    (hcall : gw'.call t = retry servers c token attempt)
    (hnewer : gw'.pool.NewerExcept n c.serverName []) : gw'.RetriesOnNewer n c t := by
  unfold retry at hcall
  unfold RetriesOnNewer
  rw [hcall]
  cases getConfig servers.configs c.serverName with
  | error e => trivial
  | ok config =>
    dsimp only
    split_ifs
    · exact ⟨rfl, hnewer⟩
    · trivial

/-- A transport error takes the call to the `disconnect` of its server. -/
theorem retriesOnNewer_recovering {n : TransportId} {c : ToolCall subjectOf} {t : TaskId}
    {token : Option String} {attempt : ℕ} (hn : n ≤ gw.pool.nextTransport)
    (hst : gw.applyMove servers cacheTtl {
      pool := some (.disconnect t c.serverName)
      call := some (t, .recovering c token attempt) } = some gw') : gw'.RetriesOnNewer n c t := by
  obtain ⟨hpool, -, hmoved, -⟩ := applyMove_eq_some hst
  unfold RetriesOnNewer
  rw [hmoved t _ rfl]
  have hstep : Pool.step servers.configs gw.pool (.disconnect t c.serverName) = some gw'.pool :=
    hpool
  exact ⟨rfl, .disconnect hstep hn, Pool.getSession?_of_disconnect hstep⟩

theorem RetriesOnNewer.proceeds {n : TransportId} {c : ToolCall subjectOf} {t : TaskId}
    (h : gw.RetriesOnNewer n c t) (hbacked : gw.Backed servers) {m : Move subjectOf}
    (hm : gw.proceed servers t = some m) (hst : gw.applyMove servers cacheTtl m = some gw') :
    gw'.RetriesOnNewer n c t := by
  have hlinked := hbacked.pool.task t
  obtain ⟨hpool, -, hmoved, -⟩ := applyMove_eq_some hst
  unfold RetriesOnNewer at h
  unfold proceed at hm
  split at hm
  case h_1 heq =>
    rw [heq] at h
    exact h.elim
  case h_2 c' token attempt heq =>
    rw [heq] at h
    obtain ⟨rfl, hnewer⟩ := h
    cases hm
    unfold RetriesOnNewer
    rw [hmoved t _ rfl]
    exact ⟨rfl, Pool.SeesNewer.getSession hpool hnewer hbacked.pool rfl⟩
  case h_3 c' token attempt heq =>
    rw [heq] at h
    obtain ⟨rfl, hsees, hworks⟩ := h
    split at hm
    · rename_i g session htask
      rw [htask] at hsees hworks hlinked
      cases hm
      unfold RetriesOnNewer
      rw [hmoved t _ rfl]
      have hsame : gw.pool = gw'.pool := Option.some.inj hpool
      rw [← hsame]
      exact ⟨rfl, hsees, hlinked.1, hworks _ rfl⟩
    · cases hm
      exact retriesOnNewer_recovering hsees.nextTransport hst
    · cases hm
      unfold RetriesOnNewer
      rw [hmoved t _ rfl]
      trivial
    · cases hm
  case h_4 c' token attempt heq =>
    rw [heq] at h
    obtain ⟨rfl, ⟨hnewer, -⟩, -⟩ := h
    split at hm
    · rename_i htask
      rw [htask] at hnewer
      cases hm
      have hsame : gw.pool = gw'.pool := Option.some.inj hpool
      rw [hsame] at hnewer
      exact retriesOnNewer_retry (hmoved t _ rfl) hnewer
    · cases hm
  case h_5 => cases hm

theorem RetriesOnNewer.answers {n : TransportId} {c : ToolCall subjectOf} {t : TaskId}
    (h : gw.RetriesOnNewer n c t) {ans : Answer} {m : Move subjectOf}
    (hm : gw.answer servers t ans = some m) (hst : gw.applyMove servers cacheTtl m = some gw') :
    gw'.RetriesOnNewer n c t := by
  obtain ⟨hpool, -, hmoved, -⟩ := applyMove_eq_some hst
  unfold RetriesOnNewer at h
  unfold answer at hm
  split at hm
  case h_1 c' token attempt session heq =>
    rw [heq] at h
    obtain ⟨rfl, hnewer, -⟩ := h
    cases ans with
    | done =>
      cases hm
      unfold RetriesOnNewer
      rw [hmoved t _ rfl]
      trivial
    | timeout =>
      cases hm
      have hsame : gw.pool = gw'.pool := Option.some.inj hpool
      rw [hsame] at hnewer
      exact retriesOnNewer_retry (hmoved t _ rfl) hnewer
    | transportError =>
      cases hm
      exact retriesOnNewer_recovering hnewer.nextTransport hst
  case h_2 => cases hm

/-- A call that runs keeps to newer transports in every step. -/
theorem RetriesOnNewer.step {n : TransportId} {c : ToolCall subjectOf} {t : TaskId}
    (h : gw.RetriesOnNewer n c t) (hrunning : (gw.call t).running) (hbacked : gw.Backed servers)
    {a : GatewayAction subjectOf} (hst : gw.step servers cacheTtl a = some gw') :
    gw'.RetriesOnNewer n c t := by
  obtain ⟨m, hm, hst⟩ := Option.bind_eq_some_iff.mp hst
  by_cases hcall : ∃ call, m.call = some (t, call)
  · obtain ⟨call, hcall⟩ := hcall
    rcases acts_of_moved hm hcall hrunning with hproceed | ⟨ans, hanswer⟩
    · exact h.proceeds hbacked hproceed hst
    · exact h.answers hanswer hst
  · have hothers : ∀ call, m.call ≠ some (t, call) := fun call hmove => hcall ⟨call, hmove⟩
    exact h.kept hbacked hst hothers
      ((hbacked.sound (moves_of_move hm)).kept t hothers hrunning).1

/-- After a transport error the call goes on with transports newer than the error. -/
theorem retriesOnNewer_of_failsOnTransport {t : TaskId} {a : GatewayAction subjectOf}
    (hfails : gw.FailsOnTransport t a) (hst : gw.step servers cacheTtl a = some gw') :
    ∃ c, gw'.RetriesOnNewer gw.pool.nextTransport c t := by
  obtain ⟨m, hm, hst⟩ := Option.bind_eq_some_iff.mp hst
  rcases hfails with ⟨rfl, c, token, attempt, session, hcall⟩ |
    ⟨rfl, c, token, attempt, g, hcall, htask⟩
  · simp only [move, answer, hcall] at hm
    cases hm
    exact ⟨c, retriesOnNewer_recovering le_rfl hst⟩
  · simp only [move, proceed, hcall, htask] at hm
    cases hm
    exact ⟨c, retriesOnNewer_recovering le_rfl hst⟩

theorem RetriesOnNewer.attemptsOn {n : TransportId} {c : ToolCall subjectOf} {t : TaskId}
    (h : gw.RetriesOnNewer n c t) {tr : TransportId} (htr : gw.attemptsOn t = some tr) :
    n ≤ tr := by
  unfold RetriesOnNewer at h
  unfold Gateway.attemptsOn at htr
  split at htr
  · rename_i heq
    rw [heq] at h
    exact h.2.worksOn tr htr
  · rename_i heq
    rw [heq] at h
    cases htr
    exact h.2.2.2
  · cases htr

theorem backed_of_run {as : List (GatewayAction subjectOf)}
    (hrun : run (step servers cacheTtl) {} as = some gw) : gw.Backed servers :=
  run_invariant (I := Backed servers) (fun _ _ _ h hst => h.step hst) backed_empty hrun

/-- In every run, whatever the other tasks do, an attempt of a call works on a transport that was
created after every transport error of the call. -/
theorem attemptsOn_of_failsOnTransport {as : List (GatewayAction subjectOf)} {t : TaskId}
    {a : GatewayAction subjectOf} {gw₁ gw₂ : Gateway subjectOf}
    {bs : List (GatewayAction subjectOf)} (hrun : run (step servers cacheTtl) {} as = some gw)
    (hfails : gw.FailsOnTransport t a) (hst : gw.step servers cacheTtl a = some gw₁)
    (hrest : RunsFrom (step servers cacheTtl) (fun gw => (gw.call t).running) gw₁ bs gw₂)
    {tr : TransportId} (htr : gw₂.attemptsOn t = some tr) : gw.pool.nextTransport ≤ tr := by
  have hbacked := backed_of_run hrun
  obtain ⟨c, hnewer⟩ := retriesOnNewer_of_failsOnTransport hfails hst
  have hkept := hrest.invariant
    (I := fun gw' => gw'.Backed servers ∧ gw'.RetriesOnNewer gw.pool.nextTransport c t)
    (fun _ _ _ hrunning h hst => ⟨h.1.step hst, h.2.step hrunning h.1 hst⟩)
    ⟨hbacked.step hst, hnewer⟩
  exact hkept.2.attemptsOn htr

end Gateway

end McpZero
