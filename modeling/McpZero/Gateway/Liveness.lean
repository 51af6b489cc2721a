import McpZero.Gateway.Credentials
import McpZero.Identity.Liveness
import McpZero.Transport.Fresh
import McpZero.Transport.Liveness

/-! Tool calls come to an end: whatever the order of the steps, a call takes a bounded number of
them, and none waits for something that nobody owes it. -/
namespace McpZero
open Identity Lib Proxy Transport

/-- A task that is in a `disconnect` or has ended it. -/
def Transport.Task.disconnects : Task → Bool
  | .closing _ _ _ _ => true
  | .closed _ => true
  | _ => false

namespace Transport.Pool

variable {configs : List ServerConfig} {s s' : Pool} {t : TaskId}

theorem closeKeys_disconnects (t : TaskId) (all : Bool) (keys : List SessionKey) (s : Pool) :
    ((closeKeys t all keys s).task t).disconnects = true := by
  induction keys generalizing s with
  | nil => simp [closeKeys, Task.disconnects]
  | cons key rest ih =>
    unfold closeKeys
    cases s.find? key with
    | none => exact ih _
    | some tr =>
      dsimp only
      split
      · exact cleanupBgTask_task (P := fun x => x.disconnects = true) (fun s' => ih _) fun o => rfl
      · exact ih _

/-- What a task is in, or has ended, it keeps until it starts another call. -/
theorem stays_of_step {a : PoolAction} (hst : step configs s a = some s') (ha : a.starts ≠ some t) :
    ((s.task t).disconnects = true → (s'.task t).disconnects = true) ∧
      ((s.task t).pending = false → (s'.task t).pending = false) := by
  by_cases ht : a.task? = some t
  · cases steps_of_step hst with
    | resume hr =>
      cases ht
      cases hr with
      | closing htask =>
        exact ⟨fun _ => closeKeys_disconnects t _ _ _, by simp [htask, Task.pending]⟩
      | waiting htask => simp [htask, Task.disconnects, Task.pending, Task.pendingGet]
      | clearing htask => simp [htask, Task.disconnects, Task.pending, Task.pendingGet]
      | connected htask => simp [htask, Task.disconnects, Task.pending, Task.pendingGet]
      | failed htask => simp [htask, Task.disconnects, Task.pending, Task.pendingGet]
      | failing htask => simp [htask, Task.disconnects, Task.pending, Task.pendingGet]
    | getSession => exact absurd ht ha
    | disconnect => exact absurd ht ha
    | disconnectAll => exact absurd ht ha
    | _ => cases ht
  · rw [task_of_step hst ht]
    exact ⟨id, id⟩

end Transport.Pool

/-- The retries that the configuration of a server allows. -/
def Servers.maxRetries (servers : Servers) (serverName : String) : ℕ :=
  match getConfig servers.configs serverName with
  | .ok config => config.maxRetries
  | .error _ => 0

namespace Call

variable {subjectOf : String → Option String}

/-- The steps that a call has still to take, with those of the `get_session` of each attempt. -/
def work (servers : Servers) : Call subjectOf → ℕ
  | idle => 0
  | exchanging c => 12 + 11 * servers.maxRetries c.serverName
  | authorized c _ attempt => 11 + 11 * (servers.maxRetries c.serverName - attempt)
  | connecting c _ attempt => 3 + 11 * (servers.maxRetries c.serverName - attempt)
  | invoking c _ attempt _ => 2 + 11 * (servers.maxRetries c.serverName - attempt)
  | recovering c _ attempt => 1 + 11 * (servers.maxRetries c.serverName - attempt)
  | finished _ => 0

end Call

namespace GatewayAction

variable {subjectOf : String → Option String}

/-- The task that runs in a step. -/
def task? : GatewayAction subjectOf → Option TaskId
  | callTool t _ => some t
  | proceed t => some t
  | answer t _ => some t
  | listTools t _ => some t
  | disconnect t _ => some t
  | disconnectAll t => some t
  | exchange a => a.task?
  | pool a => a.task?

/-- Whether an action goes on with what has begun. -/
def goesOn : GatewayAction subjectOf → ℕ
  | proceed _ => 1
  | answer _ _ => 1
  | exchange a => a.goesOn
  | pool a => a.goesOn
  | _ => 0

/-- What a request may cost. -/
def cost (servers : Servers) : GatewayAction subjectOf → ℕ
  | callTool _ c => 14 + 11 * servers.maxRetries c.serverName
  | listTools _ _ => 7
  | _ => 0

end GatewayAction

namespace Gateway

variable {subjectOf : String → Option String} {servers : Servers} {cacheTtl : ℤ}
  {gw gw' : Gateway subjectOf}

/-- The steps that are owed to the requests under way. The clock owes nothing. -/
def Owed (gw : Gateway subjectOf) : GatewayAction subjectOf → Prop
  | .proceed _ => True
  | .answer _ _ => True
  | .exchange a => a.goesOn = 1
  | .pool a => gw.pool.Owed a
  | _ => False

/-- Nothing that is owed can be done. -/
def Settled (servers : Servers) (cacheTtl : ℤ) (gw : Gateway subjectOf) : Prop :=
  ∀ a, gw.Owed a → step servers cacheTtl gw a = none

/-- Where the task of a call stands in the pool. -/
def Placed (gw : Gateway subjectOf) (t : TaskId) : Prop :=
  match gw.call t with
  | .exchanging _ => (gw.pool.task t).pending = false
  | .authorized _ _ _ => (gw.pool.task t).pending = false
  | .invoking _ _ _ _ => (gw.pool.task t).pending = false
  | .recovering _ _ _ => (gw.pool.task t).disconnects = true
  | _ => True

/-- Where a move puts the task of a call. -/
def MovesTo (gw : Gateway subjectOf) (m : Move subjectOf) (t : TaskId) : Call subjectOf → Prop
  | .exchanging _ => m.pool = none ∧ (gw.pool.task t).pending = false
  | .authorized _ _ _ => m.pool = none ∧ (gw.pool.task t).pending = false
  | .invoking _ _ _ _ => m.pool = none ∧ (gw.pool.task t).pending = false
  | .recovering c _ _ => m.pool = some (.disconnect t c.serverName)
  | _ => True

theorem pending_of_free {t : TaskId} (h : gw.free t = true) :
    (gw.call t).running = false ∧ (gw.pool.task t).pending = false := by
  simpa [free] using h

theorem movesTo_retry (hidle : (gw.pool.task t).pending = false) (c : ToolCall subjectOf)
    (token : Option String) (attempt : ℕ) {m : Move subjectOf} (hm : m.pool = none) :
    gw.MovesTo m t (retry servers c token attempt) := by
  unfold retry
  split
  · split
    · exact ⟨hm, hidle⟩
    · trivial
  · trivial

theorem movesTo_of_move {a : GatewayAction subjectOf} {m : Move subjectOf} {t : TaskId}
    {call : Call subjectOf} (hplaced : ∀ t, gw.Placed t) (h : gw.move servers a = some m)
    (hcall : m.call = some (t, call)) : gw.MovesTo m t call := by
  cases a with
  | callTool t' c =>
    simp only [move] at h
    split at h <;> cases h
    obtain ⟨-, hidle⟩ := pending_of_free ‹_›
    unfold startCall at hcall ⊢
    split at hcall
    · cases hcall
      trivial
    · dsimp only at hcall ⊢
      split at hcall <;> cases hcall
      · trivial
      · exact ⟨by simp [*], hidle⟩
      · exact ⟨by simp [*], hidle⟩
  | proceed t' =>
    have hplace := hplaced t'
    unfold Placed at hplace
    simp only [move, proceed] at h
    split at h
    case h_1 c hc =>
      rw [hc] at hplace
      split at h <;> cases h <;> cases hcall
      · exact ⟨rfl, hplace⟩
      · trivial
    case h_2 c token attempt hc =>
      cases h
      cases hcall
      trivial
    case h_3 c token attempt hc =>
      split at h <;> cases h <;> cases hcall
      · exact ⟨rfl, by simp [*, Task.pending, Task.pendingGet]⟩
      · rfl
      · trivial
    case h_4 c token attempt hc =>
      split at h <;> cases h
      obtain ⟨rfl, rfl⟩ := Prod.mk.inj (Option.some.inj hcall)
      exact movesTo_retry (by simp [*, Task.pending, Task.pendingGet]) c token attempt rfl
    case h_5 => cases h
  | answer t' a =>
    have hplace := hplaced t'
    unfold Placed at hplace
    simp only [move, answer] at h
    split at h
    case h_1 c token attempt session hc =>
      rw [hc] at hplace
      cases a with
      | done =>
        cases h
        cases hcall
        trivial
      | timeout =>
        cases h
        obtain ⟨rfl, rfl⟩ := Prod.mk.inj (Option.some.inj hcall)
        exact movesTo_retry hplace c token attempt rfl
      | transportError =>
        cases h
        cases hcall
        rfl
    case h_2 => cases h
  | listTools t' serverName =>
    simp only [move] at h
    split at h <;> cases h
    cases hcall
  | disconnect t' serverName =>
    simp only [move] at h
    split at h <;> cases h
    cases hcall
  | disconnectAll t' =>
    simp only [move] at h
    split at h <;> cases h
    cases hcall
  | exchange a =>
    cases a <;> simp only [move] at h <;> cases h <;> cases hcall
  | pool a =>
    simp only [move] at h
    split at h <;> cases h
    cases hcall

/-- The tasks that a move concerns are the one that runs. -/
theorem task_of_move {a : GatewayAction subjectOf} {m : Move subjectOf}
    (h : gw.move servers a = some m) :
    (∀ b, m.pool = some b → b.task? = a.task?) ∧ (∀ b, m.obo = some b → b.task? = a.task?) ∧
      ∀ t call, m.call = some (t, call) → a.task? = some t := by
  cases a with
  | callTool t c =>
    simp only [move] at h
    split at h <;> cases h
    unfold startCall
    split
    · exact ⟨nofun, nofun, fun t' call hc => by cases hc; rfl⟩
    · dsimp only
      split
      · exact ⟨nofun, nofun, fun t' call hc => by cases hc; rfl⟩
      · exact ⟨nofun, nofun, fun t' call hc => by cases hc; rfl⟩
      · exact ⟨nofun, fun b hb => by cases hb; rfl, fun t' call hc => by cases hc; rfl⟩
  | proceed t =>
    simp only [move, proceed] at h
    split at h
    · split at h <;> cases h
      · exact ⟨nofun, nofun, fun t' call hc => by cases hc; rfl⟩
      · exact ⟨nofun, nofun, fun t' call hc => by cases hc; rfl⟩
    · cases h
      exact ⟨fun b hb => by cases hb; rfl, nofun, fun t' call hc => by cases hc; rfl⟩
    · split at h <;> cases h
      · exact ⟨nofun, nofun, fun t' call hc => by cases hc; rfl⟩
      · exact ⟨fun b hb => by cases hb; rfl, nofun, fun t' call hc => by cases hc; rfl⟩
      · exact ⟨nofun, nofun, fun t' call hc => by cases hc; rfl⟩
    · split at h <;> cases h
      exact ⟨nofun, nofun, fun t' call hc => by cases hc; rfl⟩
    · cases h
  | answer t a =>
    simp only [move, answer] at h
    split at h
    · cases a <;> cases h
      · exact ⟨nofun, nofun, fun t' call hc => by cases hc; rfl⟩
      · exact ⟨nofun, nofun, fun t' call hc => by cases hc; rfl⟩
      · exact ⟨fun b hb => by cases hb; rfl, nofun, fun t' call hc => by cases hc; rfl⟩
    · cases h
  | listTools t serverName =>
    simp only [move] at h
    split at h <;> cases h
    exact ⟨fun b hb => by cases hb; rfl, nofun, nofun⟩
  | disconnect t serverName =>
    simp only [move] at h
    split at h <;> cases h
    exact ⟨fun b hb => by cases hb; rfl, nofun, nofun⟩
  | disconnectAll t =>
    simp only [move] at h
    split at h <;> cases h
    exact ⟨fun b hb => by cases hb; rfl, nofun, nofun⟩
  | exchange a =>
    cases a <;> simp only [move] at h <;> cases h
    · exact ⟨nofun, fun b hb => by cases hb; rfl, nofun⟩
    · exact ⟨nofun, fun b hb => by cases hb; rfl, nofun⟩
    · exact ⟨nofun, fun b hb => by cases hb; rfl, nofun⟩
  | pool a =>
    simp only [move] at h
    split at h <;> cases h
    exact ⟨fun b hb => by cases hb; rfl, nofun, nofun⟩

/-- Every call keeps its task where it needs it. -/
theorem placed_of_step {a : GatewayAction subjectOf} (hbacked : gw.Backed servers)
    (hplaced : ∀ t, gw.Placed t) (hst : gw.step servers cacheTtl a = some gw') (t : TaskId) :
    gw'.Placed t := by
  obtain ⟨m, hmove, happly⟩ := Option.bind_eq_some_iff.mp hst
  obtain ⟨hpool, -, hmoved, hkept, -⟩ := applyMove_eq_some happly
  have hsound := hbacked.sound (moves_of_move hmove)
  by_cases hcall : ∃ call, m.call = some (t, call)
  · obtain ⟨call, hcall⟩ := hcall
    have hto := movesTo_of_move hplaced hmove hcall
    have hstill : m.pool = none → gw'.pool = gw.pool := by
      intro hnone
      rw [hnone] at hpool
      exact (Option.some.inj hpool).symm
    unfold Placed
    rw [hmoved t call hcall]
    cases call with
    | exchanging c =>
      rw [hstill hto.1]
      exact hto.2
    | authorized c token attempt =>
      rw [hstill hto.1]
      exact hto.2
    | invoking c token attempt session =>
      rw [hstill hto.1]
      exact hto.2
    | recovering c token attempt =>
      have hdisconnect : m.pool = some (.disconnect t c.serverName) := hto
      rw [hdisconnect] at hpool
      simp only [stepPart, Pool.step] at hpool
      split at hpool
      · cases hpool
      · rw [← Option.some.inj hpool]
        exact Pool.closeKeys_disconnects t false _ _
    | _ => trivial
  · push Not at hcall
    have hplace := hplaced t
    unfold Placed at hplace ⊢
    rw [hkept t hcall]
    by_cases hrunning : (gw.call t).running = true
    · have hstarts := (hsound.kept t hcall hrunning).1
      have hstays : ((gw.pool.task t).disconnects = true → (gw'.pool.task t).disconnects = true) ∧
          ((gw.pool.task t).pending = false → (gw'.pool.task t).pending = false) :=
        of_stepPart (P := fun p => ((gw.pool.task t).disconnects = true →
          (p.task t).disconnects = true) ∧ ((gw.pool.task t).pending = false →
            (p.task t).pending = false)) hpool ⟨id, id⟩
          fun b hb hstep => Pool.stays_of_step hstep (hstarts b hb)
      cases hc : gw.call t with
      | exchanging c =>
        rw [hc] at hplace
        exact hstays.2 hplace
      | authorized c token attempt =>
        rw [hc] at hplace
        exact hstays.2 hplace
      | invoking c token attempt session =>
        rw [hc] at hplace
        exact hstays.2 hplace
      | recovering c token attempt =>
        rw [hc] at hplace
        exact hstays.1 hplace
      | _ => trivial
    · cases hc : gw.call t <;> simp [hc, Call.running] at hrunning ⊢

/-- The steps that are still to be taken by the tasks of `T` and on their behalf. -/
def work (servers : Servers) (T : Finset TaskId) (gw : Gateway subjectOf) : ℕ :=
  totalWork (Call.work servers) T gw.call + gw.pool.work T +
    totalWork ExchangeTask.work T gw.obo.task

/-- Every part of the gateway keeps to its discipline. -/
structure Orderly (servers : Servers) (T : Finset TaskId) (gw : Gateway subjectOf) : Prop where
  backed : gw.Backed servers
  placed (t : TaskId) : gw.Placed t
  pool : Pool.Suspended T (gw.pool.work T) gw.pool
  obo : gw.obo.Disciplined

/-- What the parts of a move pay, and what they bring in. -/
def Move.paid (m : Move subjectOf) : ℕ :=
  m.pool.elim 0 PoolAction.goesOn + m.obo.elim 0 OBOAction.goesOn

def Move.income (m : Move subjectOf) : ℕ :=
  m.pool.elim 0 PoolAction.cost + m.obo.elim 0 OBOAction.cost

/-- The work of the call that a move concerns, before and after it. -/
def before (servers : Servers) (gw : Gateway subjectOf) (m : Move subjectOf) : ℕ :=
  m.call.elim 0 fun c => (gw.call c.1).work servers

def after (servers : Servers) (m : Move subjectOf) : ℕ := m.call.elim 0 fun c => c.2.work servers

/-- A move pays for itself, if its parts do. -/
theorem Orderly.applyMove {T : Finset TaskId} {m : Move subjectOf} (h : gw.Orderly servers T)
    (hpoolT : ∀ b, m.pool = some b → ∀ t, b.task? = some t → t ∈ T)
    (hoboT : ∀ b, m.obo = some b → ∀ t, b.task? = some t → t ∈ T)
    (hcallT : ∀ t call, m.call = some (t, call) → t ∈ T)
    (hst : gw.applyMove servers cacheTtl m = some gw') :
    Pool.Suspended T (gw'.pool.work T) gw'.pool ∧ gw'.obo.Disciplined ∧
      gw'.work servers T + Move.paid m + gw.before servers m ≤
        gw.work servers T + Move.income m + after servers m := by
  obtain ⟨hpool, hobo, hmoved, hkept, -⟩ := applyMove_eq_some hst
  have hpoolWork : Pool.Suspended T (gw'.pool.work T) gw'.pool ∧
      gw'.pool.work T + m.pool.elim 0 PoolAction.goesOn ≤
        gw.pool.work T + m.pool.elim 0 PoolAction.cost := by
    cases hm : m.pool with
    | none =>
      rw [hm] at hpool
      obtain heq : gw.pool = gw'.pool := Option.some.inj hpool
      rw [← heq]
      exact ⟨h.pool, le_rfl⟩
    | some b =>
      rw [hm] at hpool
      exact h.pool.step (hpoolT b hm) hpool
  have hoboWork : gw'.obo.Disciplined ∧
      totalWork ExchangeTask.work T gw'.obo.task + m.obo.elim 0 OBOAction.goesOn ≤
        totalWork ExchangeTask.work T gw.obo.task + m.obo.elim 0 OBOAction.cost := by
    cases hm : m.obo with
    | none =>
      rw [hm] at hobo
      obtain heq : gw.obo = gw'.obo := Option.some.inj hobo
      rw [← heq]
      exact ⟨h.obo, le_rfl⟩
    | some b =>
      rw [hm] at hobo
      exact ⟨h.obo.step hobo, OBOClient.totalWork_of_step (hoboT b hm) hobo⟩
  have hcallWork : totalWork (Call.work servers) T gw'.call + gw.before servers m =
      totalWork (Call.work servers) T gw.call + after servers m := by
    cases hm : m.call with
    | none =>
      have hsame : gw'.call = gw.call := funext fun t => hkept t (by simp [hm])
      simp [before, after, hm, hsame]
    | some moved =>
      obtain ⟨t, call⟩ := moved
      have hsame : gw'.call = Function.update gw.call t call := by
        funext t'
        by_cases ht : t' = t
        · subst ht
          rw [Function.update_self]
          exact hmoved t' call hm
        · rw [Function.update_of_ne ht]
          exact hkept t' (by simp [hm, Ne.symm ht])
      have hupdate := totalWork_update (Call.work servers) (hcallT t call hm) gw.call call
      rw [← hsame] at hupdate
      simpa [before, after, hm] using hupdate
  refine ⟨hpoolWork.1, hoboWork.1, ?_⟩
  have hp := hpoolWork.2
  have ho := hoboWork.2
  unfold work Move.paid Move.income
  omega

theorem work_retry (servers : Servers) (c : ToolCall subjectOf) (token : Option String)
    (attempt : ℕ) :
    (retry servers c token attempt).work servers ≤
      11 * (servers.maxRetries c.serverName - attempt) := by
  unfold retry Servers.maxRetries
  split
  · rename_i config hconfig
    split
    · simp only [Call.work, Servers.maxRetries, hconfig]
      omega
    · exact Nat.zero_le _
  · exact Nat.zero_le _

/-- A move is paid for by the call that it concerns, or by the request that begins. -/
theorem pays_of_move {a : GatewayAction subjectOf} {m : Move subjectOf}
    (h : gw.move servers a = some m) :
    after servers m + Move.income m + a.goesOn ≤
      gw.before servers m + Move.paid m + a.cost servers := by
  cases a with
  | callTool t c =>
    simp only [move] at h
    split at h <;> cases h
    unfold startCall
    split
    · exact Nat.zero_le _
    · dsimp only
      split
      · exact Nat.zero_le _
      · simp only [after, before, Move.income, Move.paid, Option.elim, Call.work,
          GatewayAction.goesOn, GatewayAction.cost]
        omega
      · simp only [after, before, Move.income, Move.paid, Option.elim, Call.work,
          GatewayAction.goesOn, GatewayAction.cost, OBOAction.cost, OBOAction.goesOn]
        omega
  | proceed t =>
    simp only [move, proceed] at h
    split at h
    case h_1 c hc =>
      split at h <;> cases h <;>
        simp only [after, before, Move.income, Move.paid, Option.elim, hc, Call.work,
          GatewayAction.goesOn, GatewayAction.cost] <;> omega
    case h_2 c token attempt hc =>
      cases h
      simp only [after, before, Move.income, Move.paid, Option.elim, hc, Call.work,
        GatewayAction.goesOn, GatewayAction.cost, PoolAction.cost]
      omega
    case h_3 c token attempt hc =>
      split at h <;> cases h <;>
        simp only [after, before, Move.income, Move.paid, Option.elim, hc, Call.work,
          GatewayAction.goesOn, GatewayAction.cost, PoolAction.cost] <;> omega
    case h_4 c token attempt hc =>
      split at h <;> cases h
      have hretry := work_retry servers c token attempt
      have hbefore : (gw.call t).work servers =
          1 + 11 * (servers.maxRetries c.serverName - attempt) := by rw [hc, Call.work]
      show (retry servers c token attempt).work servers + (0 + 0) + 1 ≤
        (gw.call t).work servers + (0 + 0) + 0
      omega
    case h_5 => cases h
  | answer t a =>
    simp only [move, answer] at h
    split at h
    case h_1 c token attempt session hc =>
      have hretry := work_retry servers c token attempt
      have hbefore : (gw.call t).work servers =
          2 + 11 * (servers.maxRetries c.serverName - attempt) := by rw [hc, Call.work]
      cases a with
      | done =>
        cases h
        show 0 + (0 + 0) + 1 ≤ (gw.call t).work servers + (0 + 0) + 0
        omega
      | timeout =>
        cases h
        show (retry servers c token attempt).work servers + (0 + 0) + 1 ≤
          (gw.call t).work servers + (0 + 0) + 0
        omega
      | transportError =>
        cases h
        show 1 + 11 * (servers.maxRetries c.serverName - attempt) + (0 + 0) + 1 ≤
          (gw.call t).work servers + (0 + 0) + 0
        omega
    case h_2 => cases h
  | listTools t serverName =>
    simp only [move] at h
    split at h <;> cases h
    exact Nat.le_add_left _ _
  | disconnect t serverName =>
    simp only [move] at h
    split at h <;> cases h
    exact Nat.zero_le _
  | disconnectAll t =>
    simp only [move] at h
    split at h <;> cases h
    exact Nat.zero_le _
  | exchange a =>
    cases a <;> simp only [move] at h <;> cases h <;> exact le_rfl
  | pool a =>
    simp only [move] at h
    split at h <;> cases h
    have hcost : a.cost = 0 := by cases a <;> simp_all [PoolAction.starts, PoolAction.cost]
    simp only [after, before, Move.income, Move.paid, Option.elim, GatewayAction.goesOn,
      GatewayAction.cost, hcost]
    omega

theorem Orderly.step {T : Finset TaskId} {a : GatewayAction subjectOf} (h : gw.Orderly servers T)
    (hT : ∀ t, a.task? = some t → t ∈ T) (hst : gw.step servers cacheTtl a = some gw') :
    gw'.Orderly servers T ∧
      gw'.work servers T + a.goesOn ≤ gw.work servers T + a.cost servers := by
  obtain ⟨m, hmove, happly⟩ := Option.bind_eq_some_iff.mp hst
  obtain ⟨hpool, hobo, hcall⟩ := task_of_move hmove
  obtain ⟨hsuspended, hdisciplined, hwork⟩ := h.applyMove
    (fun b hb t ht => hT t ((hpool b hb).symm.trans ht))
    (fun b hb t ht => hT t ((hobo b hb).symm.trans ht))
    (fun t call hc => hT t (hcall t call hc)) happly
  have hpays := pays_of_move hmove
  refine ⟨⟨h.backed.step hst, placed_of_step h.backed h.placed hst, hsuspended, hdisciplined⟩, ?_⟩
  omega

theorem orderly_empty (subjectOf : String → Option String) (servers : Servers)
    (T : Finset TaskId) :
    ({} : Gateway subjectOf).Orderly servers T ∧ ({} : Gateway subjectOf).work servers T = 0 := by
  have hpool := Pool.Suspended.suspended_empty T
  have hcall : totalWork (Call.work servers) T ({} : Gateway subjectOf).call = 0 :=
    totalWork_eq_zero fun _ => rfl
  have hobo : totalWork ExchangeTask.work T ({} : Gateway subjectOf).obo.task = 0 :=
    totalWork_eq_zero fun _ => rfl
  have hzero : ({} : Gateway subjectOf).pool.work T = 0 := Nat.le_zero.mp hpool.work
  refine ⟨⟨backed_empty, fun _ => trivial, hpool.weaken (Nat.zero_le _),
    OBOClient.disciplined_initial 0⟩, ?_⟩
  unfold work
  omega

/-- A move that is not made is held up by the pool or by the token client. -/
theorem stuck_of_move {a : GatewayAction subjectOf} {m : Move subjectOf}
    (hmove : gw.move servers a = some m) (hst : gw.step servers cacheTtl a = none) :
    (∃ b, m.pool = some b ∧ Pool.step servers.configs gw.pool b = none) ∨
      ∃ b, m.obo = some b ∧ OBOClient.step cacheTtl gw.obo b = none := by
  unfold step at hst
  rw [hmove, Option.bind_some] at hst
  unfold applyMove at hst
  cases hpool : stepPart (Pool.step servers.configs) gw.pool m.pool with
  | none =>
    cases hm : m.pool with
    | none => simp [hm, stepPart] at hpool
    | some b => exact .inl ⟨b, rfl, by simpa [hm, stepPart] using hpool⟩
  | some p =>
    cases hobo : stepPart (OBOClient.step cacheTtl) gw.obo m.obo with
    | none =>
      cases hm : m.obo with
      | none => simp [hm, stepPart] at hobo
      | some b => exact .inr ⟨b, rfl, by simpa [hm, stepPart] using hobo⟩
    | some o => simp [hpool, hobo] at hst

/-- The pool and the token client are settled when the gateway is. -/
theorem Settled.parts (h : gw.Settled servers cacheTtl) :
    gw.pool.Settled servers.configs ∧ gw.obo.Settled cacheTtl := by
  constructor
  · intro b hb
    have hstarts : b.starts = none := by cases b <;> first | rfl | exact absurd hb id
    have hmove : gw.move servers (.pool b) = some { pool := some b } := by simp [move, hstarts]
    rcases stuck_of_move hmove (h (.pool b) hb) with ⟨b', hb', hnone⟩ | ⟨b', hb', -⟩
    · obtain rfl := Option.some.inj hb'
      exact hnone
    · cases hb'
  · intro b hb
    have hmove : gw.move servers (.exchange b) = some { obo := some b } := by
      cases b <;> first | rfl | cases hb
    rcases stuck_of_move hmove (h (.exchange b) hb) with ⟨b', hb', -⟩ | ⟨b', hb', hnone⟩
    · cases hb'
    · obtain rfl := Option.some.inj hb'
      exact hnone

/-- A call whose task waits for nothing can go on. -/
theorem Orderly.proceeds {T : Finset TaskId} (h : gw.Orderly servers T) {t : TaskId}
    (hpool : (gw.pool.task t).pending = false) (hobo : (gw.obo.task t).pending = false)
    (hrunning : (gw.call t).running = true) :
    ∃ a m, gw.Owed a ∧ gw.move servers a = some m ∧ m.obo = none ∧
      ∀ b, m.pool = some b → Pool.step servers.configs gw.pool b ≠ none := by
  have hbacked := h.backed.call t
  have hplaced := h.placed t
  unfold Placed at hplaced
  cases hc : gw.call t with
  | idle => simp [hc, Call.running] at hrunning
  | finished c => simp [hc, Call.running] at hrunning
  | exchanging c =>
    rw [hc] at hbacked
    obtain ⟨r, -, hrequest⟩ := hbacked
    cases ht : gw.obo.task t with
    | returned r' token =>
      exact ⟨.proceed t, { call := some (t, .authorized c (some token) 0) }, trivial,
        by simp [move, proceed, hc, ht], rfl, by simp⟩
    | raised r' e =>
      exact ⟨.proceed t, { call := some (t, .finished c) }, trivial,
        by simp [move, proceed, hc, ht], rfl, by simp⟩
    | idle => simp [ht, ExchangeTask.request?] at hrequest
    | waiting r' l => simp [ht, ExchangeTask.pending] at hobo
    | posting r' l => simp [ht, ExchangeTask.pending] at hobo
  | authorized c token attempt =>
    refine ⟨.proceed t, _, trivial, by simp [move, proceed, hc]; rfl, rfl, fun b hb => ?_⟩
    obtain rfl := Option.some.inj hb
    simp [Pool.step, hpool]
  | connecting c token attempt =>
    rw [hc] at hbacked
    have hget := hbacked.2
    cases ht : gw.pool.task t with
    | returned g session =>
      exact ⟨.proceed t, { call := some (t, .invoking c token attempt session)
                           invoked := some ⟨c, token, session⟩ }, trivial,
        by simp [move, proceed, hc, ht], rfl, by simp⟩
    | raised g e =>
      by_cases he : e = .connect .connection
      · subst he
        refine ⟨.proceed t, _, trivial, by simp [move, proceed, hc, ht]; rfl, rfl, fun b hb => ?_⟩
        obtain rfl := Option.some.inj hb
        simp [Pool.step, hpool]
      · refine ⟨.proceed t, { call := some (t, .finished c) }, trivial, ?_, rfl, by simp⟩
        simp only [move, proceed, hc, ht]
    | idle => simp [ht, Task.getSession?] at hget
    | waiting g config l => simp [ht, Task.pending, Task.pendingGet] at hpool
    | clearing g l tr o => simp [ht, Task.pending, Task.pendingGet] at hpool
    | connecting g l tr o => simp [ht, Task.pending, Task.pendingGet] at hpool
    | failing g l tr o e => simp [ht, Task.pending, Task.pendingGet] at hpool
    | closing all tr o rest => simp [ht, Task.pending] at hpool
    | closed all => simp [ht, Task.getSession?] at hget
  | invoking c token attempt session =>
    exact ⟨.answer t .done, { call := some (t, .finished c) }, trivial,
      by simp [move, answer, hc], rfl, by simp⟩
  | recovering c token attempt =>
    rw [hc] at hplaced
    cases ht : gw.pool.task t with
    | closed all =>
      exact ⟨.proceed t, { call := some (t, retry servers c token attempt) }, trivial,
        by simp [move, proceed, hc, ht], rfl, by simp⟩
    | closing all tr o rest => simp [ht, Task.pending] at hpool
    | _ => simp [ht, Task.disconnects] at hplaced

theorem Orderly.not_running_of_settled {T : Finset TaskId} (h : gw.Orderly servers T)
    (hsettled : gw.Settled servers cacheTtl) (t : TaskId) :
    (gw.call t).running = false ∧ (gw.pool.task t).pending = false ∧
      (gw.obo.task t).pending = false := by
  have hpool := h.pool.not_pending_of_settled hsettled.parts.1 t
  have hobo := h.obo.not_pending_of_settled hsettled.parts.2 t
  refine ⟨?_, hpool, hobo⟩
  by_contra hrunning
  obtain ⟨a, m, howed, hmove, hnone, hstep⟩ := h.proceeds hpool hobo (by simpa using hrunning)
  rcases stuck_of_move hmove (hsettled a howed) with ⟨b, hb, hstuck⟩ | ⟨b, hb, -⟩
  · exact hstep b hb hstuck
  · rw [hnone] at hb
    cases hb

/-- Every request comes to an end, in whatever order the steps are taken. A run goes on with calls
at most as often as the calls and listings that it begins pay for, and where nothing that is owed
can be done, no call runs and no task waits in the pool or for a token. -/
theorem requests_end (servers : Servers) (cacheTtl : ℤ) (actions : List (GatewayAction subjectOf))
    (hrun : run (step servers cacheTtl) {} actions = some gw) :
    (actions.map GatewayAction.goesOn).sum ≤ (actions.map (GatewayAction.cost servers)).sum ∧
      (gw.Settled servers cacheTtl → ∀ t, (gw.call t).running = false ∧
        (gw.pool.task t).pending = false ∧ (gw.obo.task t).pending = false) := by
  let T := (actions.filterMap GatewayAction.task?).toFinset
  have hT : ∀ a ∈ actions, ∀ t, a.task? = some t → t ∈ T := fun a ha t ht =>
    List.mem_toFinset.mpr (List.mem_filterMap.mpr ⟨a, ha, ht⟩)
  obtain ⟨horderly, hzero⟩ := orderly_empty subjectOf servers T
  obtain ⟨hlast, hpaid⟩ := run_potential (I := Orderly servers T) (work servers T)
    GatewayAction.goesOn (GatewayAction.cost servers)
    (fun gw a gw' ha hgw hst => hgw.step (hT a ha) hst) horderly hrun
  refine ⟨?_, hlast.not_running_of_settled⟩
  omega

/-- A gateway at rest, in which sessions may stay open, is settled. -/
theorem settled_of_rest (hcall : ∀ t, (gw.call t).running = false)
    (hpool : ∀ t, (gw.pool.task t).pending = false) (hobo : ∀ t, (gw.obo.task t).pending = false)
    (howner : ∀ o, (gw.pool.owner o).phase = .done ∨
      (gw.pool.owner o).phase = .serving ∧ (gw.pool.owner o).stopRequested = false) :
    gw.Settled servers cacheTtl := by
  intro a ha
  cases a with
  | proceed t =>
    have hcall := hcall t
    cases hc : gw.call t <;> simp [hc, Call.running] at hcall <;>
      simp [step, move, proceed, hc]
  | answer t a =>
    have hcall := hcall t
    cases hc : gw.call t <;> simp [hc, Call.running] at hcall <;> simp [step, move, answer, hc]
  | exchange a =>
    cases a with
    | resume t =>
      have hobo := hobo t
      cases ht : gw.obo.task t <;> simp [ht, ExchangeTask.pending] at hobo <;>
        simp [step, move, applyMove, stepPart, OBOClient.step, ht]
    | respond t response =>
      have hobo := hobo t
      cases ht : gw.obo.task t <;> simp [ht, ExchangeTask.pending] at hobo <;>
        simp [step, move, applyMove, stepPart, OBOClient.step, ht]
    | exchange t r => cases ha
    | tick seconds => cases ha
  | pool a =>
    cases a with
    | resume t =>
      have hpool := hpool t
      cases ht : gw.pool.task t <;> simp [ht, Task.pending, Task.pendingGet] at hpool <;>
        simp [step, move, applyMove, stepPart, Pool.step, Pool.resume, ht, PoolAction.starts]
    | ownerConnects o =>
      rcases howner o with ho | ⟨ho, -⟩ <;>
        simp [step, move, applyMove, stepPart, Pool.step, ho, PoolAction.starts]
    | ownerFails o e =>
      rcases howner o with ho | ⟨ho, -⟩ <;>
        simp [step, move, applyMove, stepPart, Pool.step, ho, PoolAction.starts]
    | ownerCloses o =>
      rcases howner o with ho | ⟨ho, -⟩ <;>
        simp [step, move, applyMove, stepPart, Pool.step, ho, PoolAction.starts]
    | ownerEnds o =>
      have hstop : (gw.pool.owner o).stopRequested = true := ha
      rcases howner o with ho | ⟨-, ho⟩
      · simp [step, move, applyMove, stepPart, Pool.step, ho, PoolAction.starts]
      · rw [hstop] at ho
        cases ho
    | _ => exact absurd ha id
  | _ => exact absurd ha id

/-- A call that connects, goes out and is answered. -/
def answeredCall : List (GatewayAction subjectOfJwt) := firstSend ++ [.answer 0 .done]

theorem answeredCall_ends :
    ∃ gw, run (step searchServers 300) {} answeredCall = some gw ∧
      (answeredCall.map GatewayAction.goesOn).sum ≤
        (answeredCall.map (GatewayAction.cost searchServers)).sum ∧
      ∀ t, (gw.call t).running = false ∧ (gw.pool.task t).pending = false ∧
        (gw.obo.task t).pending = false := by
  refine ⟨_, rfl, (requests_end searchServers 300 answeredCall rfl).1,
    (requests_end searchServers 300 answeredCall rfl).2 (settled_of_rest ?_ ?_ ?_ ?_)⟩
  · exact fun | 0 => rfl | _ + 1 => rfl
  · exact fun | 0 => rfl | _ + 1 => rfl
  · exact fun | 0 => rfl | _ + 1 => rfl
  · exact fun | 0 => .inr ⟨rfl, rfl⟩ | _ + 1 => .inl rfl

end Gateway

end McpZero
