import McpZero.Transport.Frame

/-! Which connection a `get_session` gets. The pool looks for a transport by server and user
alone, so the connection may have been opened with an older token of the user. -/
namespace McpZero.Transport
open Lib

namespace Pool

variable {configs : List ServerConfig} {Q : GetSession → Prop} {s s' : Pool} {t : TaskId}
  {g : GetSession} {o : OwnerId}

/-- Whatever connection a `get_session` is about to get was opened with the token that it asks
for: one that it finds in the pool, and one that has taken the place of its own. -/
structure TokensAgree (configs : List ServerConfig) (s : Pool) (a : PoolAction) : Prop where
  reused (t : TaskId) (g : GetSession) (tr : TransportId) (o : OwnerId) :
    s.entering configs a = some (t, g) → s.find? g.key = some tr →
      (s.transport tr).activeSession = some o → (s.owner o).request.authToken = g.authToken
  overtaken (t : TaskId) (g : GetSession) (l : LockId) (tr : TransportId) (o o' : OwnerId) :
    a = .resume t → s.task t = .connecting g l tr o → (s.owner o).ready →
      (s.owner o).error = none → (s.transport tr).activeSession = some o' → o' ≠ o →
        (s.owner o').request.authToken = g.authToken

/-- Every session that was returned was opened with the token of its request. -/
def Credited (s : Pool) : Prop :=
  ∀ t g o, s.task t = .returned g o → (s.owner o).request.authToken = g.authToken

/-- How a step may return a session: from the pool, or after a connect. -/
inductive Returns (configs : List ServerConfig) (s : Pool) (a : PoolAction) (t : TaskId)
    (g : GetSession) (o : OwnerId) : Prop
  | reuse (tr : TransportId) : s.entering configs a = some (t, g) → s.find? g.key = some tr →
      (s.transport tr).activeSession = some o → Returns configs s a t g o
  | connect (l : LockId) (tr : TransportId) (o' : OwnerId) : a = .resume t →
      s.task t = .connecting g l tr o' → (s.owner o').ready → (s.owner o').error = none →
        (s.transport tr).activeSession = some o → Returns configs s a t g o

theorem finishGet_returned {g' : GetSession} {l : LockId} {tr : TransportId}
    (h : (s.finishGet t g' l tr).task t = .returned g o) :
    g = g' ∧ (s.transport tr).activeSession = some o := by
  unfold finishGet at h
  simp only [setTask_task, Function.update_self] at h
  split at h
  · obtain ⟨rfl, rfl⟩ := Task.returned.inj h
    exact ⟨rfl, ‹_›⟩
  · cases h

theorem beginConnect_not_returned {g' : GetSession} {l : LockId} {tr : TransportId} :
    (s.beginConnect t g' l tr).task t ≠ .returned g o := by
  unfold beginConnect
  split
  · simp [refuseConnect]
  · simp [spawnConnect]

/-- A task that cleans up a background task returns nothing in that step. -/
theorem cleanupBgTask_not_returned {tr : TransportId} {finish : Pool → Pool}
    {wait : OwnerId → Task} (hfinish : ∀ s' : Pool, (finish s').task t ≠ .returned g o)
    (hwait : ∀ o', wait o' ≠ .returned g o) :
    (s.cleanupBgTask t tr finish wait).task t ≠ .returned g o :=
  cleanupBgTask_task (P := fun x => x ≠ .returned g o) hfinish hwait

theorem connectOrReturn_returned {g' : GetSession} {l : LockId} {tr : TransportId}
    (h : (s.connectOrReturn t g' l tr).task t = .returned g o) :
    g = g' ∧ (s.transport tr).activeSession = some o := by
  unfold connectOrReturn at h
  split at h
  · exact finishGet_returned h
  · refine absurd h (cleanupBgTask_not_returned (fun s' => ?_) fun _ => nofun)
    exact beginConnect_not_returned

theorem enter_returned {g' : GetSession} {config : ServerConfig} {l : LockId}
    (h : (s.enter t g' config l).task t = .returned g o) :
    g = g' ∧ ∃ tr, s.find? g.key = some tr ∧ (s.transport tr).activeSession = some o := by
  unfold enter transportOf at h
  cases hfind : s.find? g'.key with
  | some tr =>
    rw [hfind] at h
    obtain ⟨rfl, hactive⟩ := connectOrReturn_returned h
    exact ⟨rfl, tr, hfind, hactive⟩
  | none =>
    -- a transport that was just created is not connected
    rw [hfind] at h
    obtain ⟨-, hactive⟩ := connectOrReturn_returned h
    simp [MCPTransport.activeSession] at hactive

theorem closeKeys_not_returned {all : Bool} {keys : List SessionKey} :
    (closeKeys t all keys s).task t ≠ .returned g o := by
  induction keys generalizing s with
  | nil => simp [closeKeys]
  | cons key rest ih =>
    unfold Pool.closeKeys
    cases s.find? key with
    | none => exact ih
    | some tr =>
      dsimp only
      split
      · exact cleanupBgTask_not_returned (fun _ => ih) fun _ => nofun
      · exact ih

theorem returns_of_step {a : PoolAction} (hst : step configs s a = some s')
    (ht : a.task? = some t) (hret : s'.task t = .returned g o) : s.Returns configs a t g o := by
  cases steps_of_step hst with
  | @getSession t' g' =>
    cases ht
    rcases startGet_cases configs s t g' with
      ⟨e, -, heq⟩ | ⟨s₀, l, config, hlock, hconfig, ⟨hfree, heq⟩ | ⟨-, heq⟩⟩
    · simp [heq] at hret
    · rw [heq] at hret
      obtain ⟨rfl, tr, hfind, hactive⟩ := enter_returned hret
      rw [find?_setLock, lockOf_find? hlock] at hfind
      rw [setLock_transport, lockOf_transport hlock] at hactive
      exact .reuse tr (by simp [entering, hconfig, hlock, hfree]) hfind hactive
    · simp [heq] at hret
  | disconnect => cases ht; exact absurd hret closeKeys_not_returned
  | disconnectAll => cases ht; exact absurd hret closeKeys_not_returned
  | resume hr =>
    cases ht
    cases hr with
    | @waiting g' config l htask hturn =>
      obtain ⟨rfl, tr, hfind, hactive⟩ := enter_returned hret
      exact .reuse tr (by simp [entering, htask, hturn]) hfind hactive
    | clearing => exact absurd hret beginConnect_not_returned
    | @connected g' l tr o' htask hready herror =>
      obtain ⟨rfl, hactive⟩ := finishGet_returned hret
      exact .connect l tr o' rfl htask hready herror hactive
    | failed =>
      refine absurd hret (cleanupBgTask_not_returned (fun s' => ?_) fun _ h => by cases h)
      simp [abortConnect]
    | failing => simp [abortConnect] at hret
    | closing => exact absurd hret closeKeys_not_returned
  | _ => cases ht

/-- Where tokens agree, what a step returns was opened with the token of its request. -/
theorem TokensAgree.authToken_eq {a : PoolAction} (h : s.TokensAgree configs a)
    (hl : s.Linked configs Q) (hret : s.Returns configs a t g o) :
    (s.owner o).request.authToken = g.authToken := by
  cases hret with
  | reuse tr hentering hfind hactive => exact h.reused t g tr o hentering hfind hactive
  | connect l tr o' ha htask hready herror hactive =>
    by_cases ho : o = o'
    · subst ho
      have hlinked := hl.task t
      rw [htask] at hlinked
      obtain ⟨-, -, -, hrequest⟩ := hlinked
      rw [hrequest]
    · exact h.overtaken t g l tr o' o ha htask hready herror hactive ho

theorem lt_of_activeSession (h : s.Linked configs Q) {tr : TransportId}
    (hactive : (s.transport tr).activeSession = some o) : o < s.nextOwner := by
  obtain ⟨-, hsession⟩ := MCPTransport.activeSession_eq_some.mp hactive
  obtain ⟨-, hphase⟩ := h.session tr o hsession
  exact h.allocated o (by simp [hphase])

theorem Returns.lt_nextOwner {a : PoolAction} (hret : s.Returns configs a t g o)
    (h : s.Linked configs Q) : o < s.nextOwner := by
  cases hret with
  | reuse tr _ _ hactive => exact lt_of_activeSession h hactive
  | connect l tr o' _ _ _ _ hactive => exact lt_of_activeSession h hactive

theorem Credited.step {a : PoolAction} (hc : s.Credited) (hl : s.Linked configs Q)
    (ha : s.TokensAgree configs a) (hst : step configs s a = some s') : s'.Credited := by
  intro t g o hret
  by_cases ht : a.task? = some t
  · have hreturns := returns_of_step hst ht hret
    rw [((extends_of_step hst).owner o (hreturns.lt_nextOwner hl)).2]
    exact ha.authToken_eq hl hreturns
  · rw [task_of_step hst ht] at hret
    have hlinked := hl.task t
    rw [hret] at hlinked
    rw [((extends_of_step hst).owner o hlinked.1).2]
    exact hc t g o hret

/-- The steps of owners return no session. -/
theorem tokensAgree_of_owner {a : PoolAction} (ha : a.task? = none) :
    s.TokensAgree configs a where
  reused t g tr o hentering := by
    cases a with
    | getSession => cases ha
    | resume => cases ha
    | _ => cases hentering
  overtaken t g l tr o o' h := by
    subst h
    cases ha

theorem credited_empty : ({} : Pool).Credited := nofun

end Pool

end McpZero.Transport
