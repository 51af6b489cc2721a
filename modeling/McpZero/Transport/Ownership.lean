import McpZero.Transport.Frame

/-! Who owns the transports: connected and connecting transports are in the pool, each is
connected by one task at a time, and `disconnect_all` leaves none of them, as long as no key
is taken out under a pending `get_session`. -/
namespace McpZero.Transport
open Lib

namespace Task

/-- The pending `get_session` of a task, with its lock. -/
def entry : Task → Option (GetSession × LockId)
  | waiting g _ l => some (g, l)
  | clearing g l _ _ => some (g, l)
  | connecting g l _ _ => some (g, l)
  | failing g l _ _ _ => some (g, l)
  | _ => none

/-- The `connect` that a task is in, with its lock and its transport. -/
def connect : Task → Option (GetSession × LockId × TransportId)
  | clearing g l tr _ => some (g, l, tr)
  | connecting g l tr _ => some (g, l, tr)
  | failing g l tr _ _ => some (g, l, tr)
  | _ => none

theorem pendingGet_of_entry {x : Task} {g : GetSession} {l : LockId} (h : x.entry = some (g, l)) :
    x.pendingGet = some g := by
  cases x <;> simp_all [entry, pendingGet]

theorem entry_of_connect {x : Task} {g : GetSession} {l : LockId} {tr : TransportId}
    (h : x.connect = some (g, l, tr)) : x.entry = some (g, l) := by
  cases x <;> simp_all [entry, connect]

end Task

namespace Pool

variable {configs : List ServerConfig} {Q : GetSession → Prop} {s s' : Pool}

/-- What the pool promises after a step. -/
structure OwnsTransports (a : PoolAction) (s' : Pool) : Prop where
  stored (tr : TransportId) :
    (s'.transport tr).state = .connected ∨ (s'.transport tr).state = .connecting →
      s'.find? (s'.transport tr).key = some tr ∨
        ∃ t all o rest, s'.task t = .closing all tr o rest
  exclusive {t₁ t₂ : TaskId} {g₁ g₂ : GetSession} {l₁ l₂ : LockId} {tr : TransportId} :
    (s'.task t₁).connect = some (g₁, l₁, tr) → (s'.task t₂).connect = some (g₂, l₂, tr) → t₁ = t₂
  emptied (t : TaskId) : a.task? = some t → s'.task t = .closed true →
    (∀ t', (s'.task t').pendingGet = none) → ∀ tr, (s'.transport tr).state ≠ .connected

/-- The transport and the owner that `disconnect` waits for when it comes to this key. -/
def closingOwner (s : Pool) (key : SessionKey) : Option (TransportId × OwnerId) :=
  match s.find? key with
  | none => none
  | some tr =>
    if (s.transport tr).state = .connected ∨ (s.transport tr).state = .error then
      match (s.transport tr).bgTask with
      | none => none
      | some o => if (s.owner o).phase = .done then none else some (tr, o)
    else none

/-- `_cleanup_bg_task` when there is nothing to wait for. -/
def stopBgTask (s : Pool) (tr : TransportId) : Pool :=
  match (s.transport tr).bgTask with
  | none => s
  | some o => (s.requestStop o).clearBgTask tr

theorem quiet_stopBgTask (s : Pool) (tr : TransportId) : s.Quiet (s.stopBgTask tr) := by
  unfold stopBgTask
  split
  · exact .refl
  · exact (s.quiet_requestStop _).trans (quiet_clearBgTask _ tr)

/-- `disconnect` of a key that it does not have to wait for. -/
def closeOne (s : Pool) (key : SessionKey) : Pool :=
  match s.find? key with
  | none => s.takeOut key
  | some tr =>
    if (s.transport tr).state = .connected ∨ (s.transport tr).state = .error then
      (((s.takeOut key).setTransport tr { s.transport tr with
        state := .disconnecting }).stopBgTask tr).finishDisconnect tr
    else s.takeOut key

/-- The loop of `disconnect`, one key at a time. -/
theorem closeKeys_cons (t : TaskId) (all : Bool) (key : SessionKey) (rest : List SessionKey)
    (s : Pool) :
    closeKeys t all (key :: rest) s =
      match s.closingOwner key with
      | some (tr, o) =>
        (((s.takeOut key).setTransport tr { s.transport tr with
          state := .disconnecting }).requestStop o).setTask t (.closing all tr o rest)
      | none => closeKeys t all rest (s.closeOne key) := by
  cases hfind : s.find? key with
  | none => simp [closeKeys, closingOwner, closeOne, hfind]
  | some tr =>
    by_cases hstate : (s.transport tr).state = .connected ∨ (s.transport tr).state = .error
    · cases hbg : (s.transport tr).bgTask with
      | none => simp [closeKeys, closingOwner, closeOne, hfind, hstate, hbg, cleanupBgTask,
          stopBgTask]
      | some o =>
        by_cases hdone : (s.owner o).phase = .done
        · simp [closeKeys, closingOwner, closeOne, hfind, hstate, hbg, hdone, cleanupBgTask,
            requestStop, stopBgTask]
        · simp [closeKeys, closingOwner, hfind, hstate, hbg, hdone, cleanupBgTask, requestStop]
    · simp [closeKeys, closingOwner, closeOne, hfind, hstate]

theorem find?_of_closingOwner {key : SessionKey} {tr : TransportId} {o : OwnerId}
    (h : s.closingOwner key = some (tr, o)) : s.find? key = some tr := by
  unfold closingOwner at h
  split at h
  · cases h
  · split at h
    · split at h
      · cases h
      · split at h <;> cases h
        assumption
    · cases h

theorem closeOne_task (s : Pool) (key : SessionKey) : (s.closeOne key).task = s.task := by
  unfold closeOne
  split
  · rfl
  · split
    · exact (quiet_stopBgTask _ _).task
    · rfl

theorem closeOne_find? (s : Pool) (key key' : SessionKey) :
    (s.closeOne key).find? key' = (s.takeOut key).find? key' := by
  unfold closeOne
  split
  · rfl
  · split
    · exact (quiet_stopBgTask _ _).find? key'
    · rfl

/-- `disconnect` of a key makes no transport connect. -/
theorem connecting_of_closeOne {key : SessionKey} {tr : TransportId}
    (hstate : ((s.closeOne key).transport tr).state = .connecting) :
    (s.transport tr).state = .connecting := by
  unfold closeOne at hstate
  split at hstate
  · exact hstate
  · rename_i tr' _
    split at hstate
    · by_cases htr : tr = tr'
      · subst htr
        simp [finishDisconnect] at hstate
      · have hq := quiet_stopBgTask ((s.takeOut key).setTransport tr'
          { s.transport tr' with state := .disconnecting }) tr'
        rw [finishDisconnect, setTransport_transport, Function.update_of_ne htr, hq.state] at hstate
        simpa [Function.update_of_ne htr] using hstate
    · exact hstate

/-- The keys that the loop of `disconnect` takes out before it waits or returns. -/
def takenOut : List SessionKey → Pool → List SessionKey
  | [], _ => []
  | key :: rest, s =>
    key :: if (s.closingOwner key).isSome then [] else takenOut rest (s.closeOne key)

/-- The keys that a step takes out of the pool. -/
def takesOut (s : Pool) : PoolAction → List SessionKey
  | .disconnect _ serverName => takenOut (s.keys.filter (·.serverName = serverName)) s
  | .disconnectAll _ => takenOut s.keys s
  | .resume t =>
    match s.task t with
    | .closing _ tr _ rest => takenOut rest ((s.clearBgTask tr).finishDisconnect tr)
    | _ => []
  | _ => []

/-- No key is taken out while a `get_session` for it is pending or after one was refused, and no
`get_session` begins for a key that a running `disconnect_all` does not have before it. -/
structure KeepsKeysInUse (configs : List ServerConfig) (s : Pool) (a : PoolAction) : Prop where
  unused (t : TaskId) (g : GetSession) : (s.task t).pendingGet = some g → g.key ∉ s.takesOut a
  settled (key : SessionKey) (tr : TransportId) : key ∈ s.takesOut a → s.find? key = some tr →
    (s.transport tr).state ≠ .connecting
  notPassed (t : TaskId) (g : GetSession) (config : ServerConfig) : a = .getSession t g →
    getConfig configs g.serverName = .ok config →
      ∀ t' tr o rest, s.task t' = .closing true tr o rest → g.key ∈ rest

/-- The invariant behind the promise: pending requests use the lock of their key, which is in
the pool, and a task that connects holds it. -/
structure Owned (s : Pool) : Prop where
  pending (t : TaskId) (g : GetSession) (l : LockId) : (s.task t).entry = some (g, l) →
    s.locks g.key = some l
  working (t : TaskId) (g : GetSession) (l : LockId) (tr : TransportId) :
    (s.task t).connect = some (g, l, tr) →
      s.find? g.key = some tr ∧ (s.lock l).holder = some t
  locked (key : SessionKey) (l : LockId) : s.locks key = some l →
    l < s.nextLock ∧ ∃ tr, s.find? key = some tr
  fresh (l : LockId) : s.nextLock ≤ l → (s.lock l).free
  inPool (key : SessionKey) (tr : TransportId) : s.find? key = some tr →
    tr < s.nextTransport ∧ (s.transport tr).key = key
  stored (tr : TransportId) :
    (s.transport tr).state = .connected ∨ (s.transport tr).state = .connecting →
      s.find? (s.transport tr).key = some tr
  closing (t : TaskId) (all : Bool) (tr : TransportId) (o : OwnerId) (rest : List SessionKey) :
    s.task t = .closing all tr o rest → all → ∀ key tr', s.find? key = some tr' → key ∈ rest

theorem mem_keys_of_find? {key : SessionKey} {tr : TransportId} (hfind : s.find? key = some tr) :
    key ∈ s.keys := by
  have hsome : (s.transports.lookup key).isSome := Option.isSome_iff_exists.mpr ⟨tr, hfind⟩
  exact List.mem_reverse.mpr (AList.mem_keys.mp (AList.lookup_isSome.mp hsome))

/-- The task `t` is inside `async with lock` for `g`, with the transport of its key. -/
structure InLock (s : Pool) (t : TaskId) (g : GetSession) (l : LockId) (tr : TransportId) :
    Prop where
  lock : s.locks g.key = some l
  transport : s.find? g.key = some tr
  holder : (s.lock l).holder = some t

theorem InLock.quiet {t : TaskId} {g : GetSession} {l : LockId} {tr : TransportId}
    (h : s.InLock t g l tr) (hq : s.Quiet s') : s'.InLock t g l tr := by
  obtain ⟨hlock, hfind, hholder⟩ := h
  rw [← hq.locks] at hlock
  rw [← hq.find?] at hfind
  rw [← hq.lock] at hholder
  exact ⟨hlock, hfind, hholder⟩

theorem ne_of_find? {key key' : SessionKey} {tr : TransportId} (hmissing : s.find? key = none)
    (hlookup : s.find? key' = some tr) : key' ≠ key := by
  intro hk
  rw [hk, hmissing] at hlookup
  cases hlookup

theorem mem_rest_of_takeOut {key key' : SessionKey} {rest : List SessionKey} {tr : TransportId}
    (hall : ∀ key' tr, s.find? key' = some tr → key' ∈ key :: rest)
    (hfind : (s.takeOut key).find? key' = some tr) : key' ∈ rest := by
  rw [find?_takeOut] at hfind
  split at hfind
  case isTrue => cases hfind
  case isFalse hne => exact (List.mem_cons.mp (hall key' tr hfind)).resolve_left hne

namespace Owned

theorem inLock (h : s.Owned) {t : TaskId} {g : GetSession} {l : LockId} {tr : TransportId}
    (hc : (s.task t).connect = some (g, l, tr)) : s.InLock t g l tr := by
  obtain ⟨hfind, hholder⟩ := h.working t g l tr hc
  exact ⟨h.pending t g l (Task.entry_of_connect hc), hfind, hholder⟩

theorem quiet (h : s.Owned) (hq : s.Quiet s') : s'.Owned where
  pending t g l := by
    rw [hq.task, hq.locks]
    exact h.pending t g l
  working t g l tr := by
    rw [hq.task, hq.find?, hq.lock]
    exact h.working t g l tr
  locked key l := by
    rw [hq.locks, hq.nextLock, hq.find?]
    exact h.locked key l
  fresh l := by
    rw [hq.nextLock, hq.lock]
    exact h.fresh l
  inPool key tr := by
    rw [hq.find?, hq.nextTransport, hq.key]
    exact h.inPool key tr
  stored tr := by
    rw [hq.state, hq.key, hq.find?]
    exact h.stored tr
  closing t all tr o rest := by
    simp only [hq.task, hq.find?]
    exact h.closing t all tr o rest

theorem setTask (h : s.Owned) (t : TaskId) {x : Task}
    (hentry : ∀ g l, x.entry = some (g, l) → s.locks g.key = some l)
    (hconnect : ∀ g l tr, x.connect = some (g, l, tr) →
      s.find? g.key = some tr ∧ (s.lock l).holder = some t)
    (hclosing : ∀ all tr o rest, x = .closing all tr o rest → all →
      ∀ key tr', s.find? key = some tr' → key ∈ rest) :
    (s.setTask t x).Owned where
  pending t' g l := by
    by_cases ht : t' = t
    · subst ht
      simpa using hentry g l
    · simpa [Function.update_of_ne ht] using h.pending t' g l
  working t' g l tr := by
    by_cases ht : t' = t
    · subst ht
      simpa using hconnect g l tr
    · simpa [Function.update_of_ne ht] using h.working t' g l tr
  locked := h.locked
  fresh := h.fresh
  inPool := h.inPool
  stored := h.stored
  closing t' all tr o rest := by
    by_cases ht : t' = t
    · subst ht
      simpa using hclosing all tr o rest
    · simpa [Function.update_of_ne ht] using h.closing t' all tr o rest

/-- A task may leave the manager. -/
theorem leave (h : s.Owned) (t : TaskId) {x : Task} (hx : x.pending = false) :
    (s.setTask t x).Owned := by
  refine h.setTask t ?_ ?_ ?_ <;> cases x <;> simp_all [Task.entry, Task.connect, Task.pending,
    Task.pendingGet]

theorem setLock (h : s.Owned) {l : LockId} {x : AsyncLock TaskId} (hlt : l < s.nextLock)
    (hx : ∀ t g tr, (s.task t).connect = some (g, l, tr) → x.holder = some t) :
    (s.setLock l x).Owned where
  pending := h.pending
  working t g l' tr hc := by
    obtain ⟨hlookup, hholder⟩ := h.working t g l' tr hc
    refine ⟨hlookup, ?_⟩
    by_cases hl : l' = l
    · subst hl
      simpa using hx t g tr hc
    · simpa [Function.update_of_ne hl] using hholder
  locked := h.locked
  fresh l' hle := by
    have hne : l' ≠ l := (hlt.trans_le hle).ne'
    simpa [Function.update_of_ne hne] using h.fresh l' hle
  inPool := h.inPool
  stored := h.stored
  closing := h.closing

/-- The holder of a lock may release it when it leaves. -/
theorem release (h : s.Owned) {t : TaskId} {l : LockId} {x : Task} (hlt : l < s.nextLock)
    (hholder : (s.lock l).holder = some t) (hx : x.pending = false) :
    ((s.setLock l (s.lock l).release).setTask t x).Owned := by
  have hleft : (s.setTask t x).Owned := h.leave t hx
  refine hleft.setLock (x := (s.lock l).release) hlt fun t' g tr hc => ?_
  -- the only task that connects under `l` was `t`, which is no longer in the manager
  exfalso
  obtain ⟨-, hheld⟩ := hleft.working t' g l tr hc
  obtain rfl : t = t' := Option.some.inj (hholder.symm.trans hheld)
  cases x <;> simp_all [Task.connect, Task.pending, Task.pendingGet]

theorem setTransport (h : s.Owned) (tr : TransportId) {x : MCPTransport}
    (hkey : x.key = (s.transport tr).key)
    (hx : x.state = .connected ∨ x.state = .connecting → s.find? x.key = some tr) :
    (s.setTransport tr x).Owned where
  pending := h.pending
  working := h.working
  locked := h.locked
  fresh := h.fresh
  inPool key tr' hfind := by
    by_cases htr : tr' = tr
    · subst htr
      simpa [hkey] using h.inPool key tr' hfind
    · simpa [Function.update_of_ne htr] using h.inPool key tr' hfind
  stored tr' := by
    by_cases htr : tr' = tr
    · subst htr
      simpa using hx
    · simpa [Function.update_of_ne htr] using h.stored tr'
  closing := h.closing

theorem setOwner (h : s.Owned) (o : OwnerId) (x : Owner) : (s.setOwner o x).Owned :=
  ⟨h.pending, h.working, h.locked, h.fresh, h.inPool, h.stored, h.closing⟩

/-- A key may be taken out when no `get_session` for it is pending and its transport is neither
connected nor connecting. -/
theorem takeOut (h : s.Owned) {key : SessionKey}
    (hunused : ∀ t g, (s.task t).pendingGet = some g → g.key ≠ key)
    (hclosed : ∀ tr, s.find? key = some tr →
      (s.transport tr).state ≠ .connected ∧ (s.transport tr).state ≠ .connecting) :
    (s.takeOut key).Owned where
  pending t g l hentry := by
    have hne := hunused t g (Task.pendingGet_of_entry hentry)
    simpa [Function.update_of_ne hne] using h.pending t g l hentry
  working t g l tr hc := by
    have hne := hunused t g (Task.pendingGet_of_entry (Task.entry_of_connect hc))
    simpa [find?_takeOut, hne] using h.working t g l tr hc
  locked key' l hl := by
    by_cases hk : key' = key
    · subst hk
      simp at hl
    · simpa [find?_takeOut, hk] using
        h.locked key' l (by simpa [Function.update_of_ne hk] using hl)
  fresh := h.fresh
  inPool key' tr hlookup := by
    rw [find?_takeOut] at hlookup
    split at hlookup
    · cases hlookup
    · exact h.inPool key' tr hlookup
  stored tr hstate := by
    have hlookup := h.stored tr hstate
    have hne : (s.transport tr).key ≠ key := by
      intro hk
      rw [hk] at hlookup
      obtain ⟨hconnected, hconnecting⟩ := hclosed tr hlookup
      exact hstate.elim hconnected hconnecting
    simpa [find?_takeOut, hne] using hlookup
  closing t all tr o rest ht hall key' tr' hlookup := by
    rw [find?_takeOut] at hlookup
    split at hlookup
    · cases hlookup
    · exact h.closing t all tr o rest ht hall key' tr' hlookup

theorem create (h : s.Owned) {key : SessionKey} (config : ServerConfig)
    (hmissing : s.find? key = none)
    (hclosing : ∀ t tr o rest, s.task t = .closing true tr o rest → key ∈ rest) :
    (s.create key config).Owned where
  pending := h.pending
  working t g l tr hc := by
    obtain ⟨hlookup, hholder⟩ := h.working t g l tr hc
    have hne := ne_of_find? hmissing hlookup
    simpa [find?_create, hne] using ⟨hlookup, hholder⟩
  locked key' l hl := by
    obtain ⟨hlt, tr, hlookup⟩ := h.locked key' l hl
    have hne := ne_of_find? hmissing hlookup
    exact ⟨hlt, tr, by simpa [find?_create, hne] using hlookup⟩
  fresh := h.fresh
  inPool key' tr hlookup := by
    rw [find?_create] at hlookup
    split at hlookup
    case isTrue hk =>
      obtain rfl := Option.some.inj hlookup
      exact ⟨Nat.lt_succ_self _, by simp [hk]⟩
    case isFalse =>
      obtain ⟨hlt, hkey⟩ := h.inPool key' tr hlookup
      exact ⟨hlt.trans (Nat.lt_succ_self _), by simpa [Function.update_of_ne hlt.ne] using hkey⟩
  stored tr hstate := by
    by_cases htr : tr = s.nextTransport
    · subst htr
      simp at hstate
    · have hlookup := h.stored tr (by simpa [Function.update_of_ne htr] using hstate)
      have hne := ne_of_find? hmissing hlookup
      simpa [Function.update_of_ne htr, find?_create, hne] using hlookup
  closing t all tr o rest ht hall key' tr' hlookup := by
    rw [find?_create] at hlookup
    split at hlookup
    case isTrue hk =>
      subst hk hall
      exact hclosing t tr o rest ht
    case isFalse => exact h.closing t all tr o rest ht hall key' tr' hlookup

theorem finishGet (h : s.Owned) {t : TaskId} {g : GetSession} {l : LockId} {tr : TransportId}
    (hin : s.InLock t g l tr) : (s.finishGet t g l tr).Owned := by
  refine h.release (h.locked _ _ hin.lock).1 hin.holder ?_
  cases (s.transport tr).activeSession <;> rfl

theorem abortConnect (h : s.Owned) {t : TaskId} {g : GetSession} {l : LockId}
    {tr : TransportId} (hin : s.InLock t g l tr) (e : ConnectError) :
    (s.abortConnect t g l tr e).Owned := by
  have herror : (s.setTransport tr { s.transport tr with state := .error }).Owned :=
    h.setTransport tr rfl (by simp)
  exact herror.release (h.locked _ _ hin.lock).1 hin.holder rfl

/-- A task inside `async with lock` may wait in `connect`. -/
theorem setConnect (h : s.Owned) {t : TaskId} {g : GetSession} {l : LockId} {tr : TransportId}
    (hin : s.InLock t g l tr) {x : Task} (hx : x.connect = some (g, l, tr)) :
    (s.setTask t x).Owned := by
  refine h.setTask t ?_ ?_ ?_
  · intro g' l' hentry
    cases (Task.entry_of_connect hx).symm.trans hentry
    exact hin.lock
  · intro g' l' tr' hc
    cases hx.symm.trans hc
    exact ⟨hin.transport, hin.holder⟩
  · rintro all tr' o rest rfl
    cases hx

/-- The transport of a task inside `async with lock` may connect. -/
theorem setConnecting (h : s.Owned) {t : TaskId} {g : GetSession} {l : LockId} {tr : TransportId}
    (hin : s.InLock t g l tr) {x : MCPTransport} (hkey : x.key = (s.transport tr).key) :
    (s.setTransport tr x).Owned := by
  refine h.setTransport tr hkey fun _ => ?_
  rw [hkey, (h.inPool g.key tr hin.transport).2, hin.transport]

theorem beginConnect (h : s.Owned) {t : TaskId} {g : GetSession} {l : LockId}
    {tr : TransportId} (hin : s.InLock t g l tr) : (s.beginConnect t g l tr).Owned := by
  unfold Pool.beginConnect
  split
  · have hstate : (s.setTransport tr { s.transport tr with state := .connecting }).Owned :=
      h.setConnecting hin rfl
    exact hstate.release (h.locked _ _ hin.lock).1 hin.holder rfl
  · have hbegun : (s.setTransport tr { s.transport tr with
        state := .connecting, bgTask := some s.nextOwner }).Owned := h.setConnecting hin rfl
    have hspawned : ((s.setTransport tr { s.transport tr with
        state := .connecting, bgTask := some s.nextOwner }).spawnOwner
          { transport := tr, request := g }).Owned :=
      ⟨hbegun.pending, hbegun.working, hbegun.locked, hbegun.fresh, hbegun.inPool, hbegun.stored,
        hbegun.closing⟩
    exact hspawned.setConnect ⟨hin.lock, hin.transport, hin.holder⟩ rfl

theorem cleanupBgTask (h : s.Owned) {t : TaskId} {g : GetSession} {l : LockId}
    {tr : TransportId} (hin : s.InLock t g l tr) {finish : Pool → Pool} {wait : OwnerId → Task}
    (hfinish : ∀ s' : Pool, s'.Owned → s'.InLock t g l tr → (finish s').Owned)
    (hwait : ∀ o, (wait o).connect = some (g, l, tr)) :
    (s.cleanupBgTask t tr finish wait).Owned := by
  obtain ⟨s', hq, heq | ⟨o, heq⟩⟩ := s.cleanupBgTask_quiet t tr finish wait
  · rw [heq]
    exact hfinish s' (h.quiet hq) (hin.quiet hq)
  · rw [heq]
    exact (h.quiet hq).setConnect (hin.quiet hq) (hwait o)

theorem connectOrReturn (h : s.Owned) {t : TaskId} {g : GetSession} {l : LockId}
    {tr : TransportId} (hin : s.InLock t g l tr) : (s.connectOrReturn t g l tr).Owned := by
  unfold Pool.connectOrReturn
  split
  · exact h.finishGet hin
  · exact h.cleanupBgTask hin (fun s' h' hin' => h'.beginConnect hin') fun _ => rfl

/-- The lock of a key that is in the pool. -/
theorem lockOf (h : s.Owned) {key : SessionKey} {tr : TransportId} {s₀ : Pool} {l : LockId}
    (hfind : s.find? key = some tr) (hlock : s.lockOf key = (s₀, l)) :
    s₀.Owned ∧ s₀.locks key = some l := by
  unfold Pool.lockOf at hlock
  cases hl : s.locks key with
  | some l' =>
    rw [hl] at hlock
    cases hlock
    exact ⟨h, hl⟩
  | none =>
    rw [hl] at hlock
    cases hlock
    refine ⟨⟨?_, h.working, ?_, ?_, h.inPool, h.stored, h.closing⟩, by simp⟩
    · intro t g l' hentry
      have hold := h.pending t g l' hentry
      have hne : g.key ≠ key := by
        intro hk
        rw [hk, hl] at hold
        cases hold
      simpa [Function.update_of_ne hne] using hold
    · intro key' l' hl'
      by_cases hk : key' = key
      · subst hk
        obtain rfl : s.nextLock = l' := by simpa using hl'
        exact ⟨Nat.lt_succ_self _, tr, hfind⟩
      · obtain ⟨hlt, hfind'⟩ := h.locked key' l' (by simpa [Function.update_of_ne hk] using hl')
        exact ⟨hlt.trans (Nat.lt_succ_self _), hfind'⟩
    · intro l' hle
      exact h.fresh l' ((Nat.le_succ _).trans hle)

/-- A task takes a lock that nobody holds. -/
theorem hold (h : s.Owned) {t : TaskId} {g : GetSession} {l : LockId} {tr : TransportId}
    {x : AsyncLock TaskId} (hlock : s.locks g.key = some l) (hfind : s.find? g.key = some tr)
    (hnone : (s.lock l).holder = none) (hx : x.holder = some t) :
    (s.setLock l x).Owned ∧ (s.setLock l x).InLock t g l tr := by
  refine ⟨h.setLock (h.locked _ _ hlock).1 fun t' g' tr' hc => ?_, hlock, hfind, by simpa using hx⟩
  obtain ⟨-, hheld⟩ := h.working t' g' l tr' hc
  rw [hnone] at hheld
  cases hheld

/-- Taking out a transport that is being closed. -/
theorem takeOutClosing (h : s.Owned) {key : SessionKey} {tr : TransportId}
    (hunused : ∀ t g, (s.task t).pendingGet = some g → g.key ≠ key)
    (hfind : s.find? key = some tr) :
    ((s.takeOut key).setTransport tr { s.transport tr with state := .disconnecting }).Owned := by
  have hdisc : (s.setTransport tr { s.transport tr with state := .disconnecting }).Owned :=
    h.setTransport tr rfl (by simp)
  refine hdisc.takeOut hunused fun tr' hfind' => ?_
  obtain rfl : tr = tr' := Option.some.inj (hfind.symm.trans hfind')
  simp

theorem closeOne (h : s.Owned) {key : SessionKey}
    (hunused : ∀ t g, (s.task t).pendingGet = some g → g.key ≠ key)
    (hsettled : ∀ tr, s.find? key = some tr → (s.transport tr).state ≠ .connecting) :
    (s.closeOne key).Owned := by
  unfold Pool.closeOne
  cases hfind : s.find? key with
  | none =>
    refine h.takeOut hunused fun tr hfind' => ?_
    cases hfind.symm.trans hfind'
  | some tr =>
    dsimp only
    split
    · have hclosing := h.takeOutClosing hunused hfind
      exact (hclosing.quiet (quiet_stopBgTask _ tr)).setTransport tr rfl (by simp)
    · rename_i hstate
      refine h.takeOut hunused fun tr' hfind' => ?_
      obtain rfl : tr = tr' := Option.some.inj (hfind.symm.trans hfind')
      exact ⟨fun hconnected => hstate (.inl hconnected), hsettled tr hfind⟩

theorem closeKeys (t : TaskId) (all : Bool) (keys : List SessionKey) (h : s.Owned)
    (hunused : ∀ t g, (s.task t).pendingGet = some g → g.key ∉ takenOut keys s)
    (hsettled : ∀ key tr, key ∈ takenOut keys s → s.find? key = some tr →
      (s.transport tr).state ≠ .connecting)
    (hall : all → ∀ key tr, s.find? key = some tr → key ∈ keys) :
    (closeKeys t all keys s).Owned := by
  induction keys generalizing s with
  | nil => exact h.leave t rfl
  | cons key rest ih =>
    have hkey : ∀ t g, (s.task t).pendingGet = some g → g.key ≠ key := by
      intro t g hpending heq
      exact hunused t g hpending (heq ▸ List.mem_cons_self)
    rw [closeKeys_cons]
    cases hclosing : s.closingOwner key with
    | some p =>
      obtain ⟨tr, o⟩ := p
      have hfind := find?_of_closingOwner hclosing
      have hstopped := (h.takeOutClosing hkey hfind).quiet (quiet_requestStop _ o)
      refine hstopped.setTask t (by simp [Task.entry]) (by simp [Task.connect]) ?_
      rintro all' tr' o' rest' heq hall' key' tr'' hfind'
      obtain ⟨rfl, -, -, rfl⟩ := Task.closing.inj heq
      exact mem_rest_of_takeOut (hall hall') hfind'
    | none =>
      have htaken : ∀ key', key' ∈ takenOut rest (s.closeOne key) →
          key' ∈ takenOut (key :: rest) s := by
        intro key' hmem
        rw [takenOut, hclosing]
        exact List.mem_cons_of_mem _ hmem
      refine ih (h.closeOne hkey fun tr => hsettled key tr List.mem_cons_self) ?_ ?_ ?_
      · intro t' g hpending hmem
        rw [closeOne_task] at hpending
        exact hunused t' g hpending (htaken g.key hmem)
      · intro key' tr hmem hfind hstate
        rw [closeOne_find?, find?_takeOut] at hfind
        split at hfind
        · cases hfind
        · exact hsettled key' tr (htaken key' hmem) hfind (connecting_of_closeOne hstate)
      · intro hall' key' tr' hfind'
        rw [closeOne_find?] at hfind'
        exact mem_rest_of_takeOut (hall hall') hfind'

/-- A task that finds its lock free enters with it. A missing transport may as well be created
before the lock is looked up. -/
theorem enterFree (h : s.Owned) {t : TaskId} {g : GetSession} {config : ServerConfig}
    {s₀ : Pool} {l : LockId} (hlock : s.lockOf g.key = (s₀, l)) (hfree : (s₀.lock l).free)
    (hpassed : ∀ t' tr o rest, s.task t' = .closing true tr o rest → g.key ∈ rest) :
    ((s₀.setLock l ((s₀.lock l).hold t)).enter t g config l).Owned := by
  cases hfind : s.find? g.key with
  | some tr =>
    obtain ⟨h₀, hl⟩ := h.lockOf hfind hlock
    have hfind₀ : s₀.find? g.key = some tr := (lockOf_find? hlock _).trans hfind
    obtain ⟨hheld, hin⟩ := h₀.hold hl hfind₀ (AsyncLock.holder_of_free hfree)
      (AsyncLock.holder_hold _ t)
    have hsame : (s₀.setLock l ((s₀.lock l).hold t)).find? g.key = some tr := hfind₀
    simpa [enter, transportOf, hsame] using hheld.connectOrReturn hin
  | none =>
    have hlock₁ : (s.create g.key config).lockOf g.key = (s₀.create g.key config, l) := by
      unfold Pool.lockOf at hlock ⊢
      cases hl : s.locks g.key <;> simp only [hl, create_locks] at hlock ⊢ <;> cases hlock <;> rfl
    have hfind₁ : (s.create g.key config).find? g.key = some s.nextTransport := by
      simp [find?_create]
    obtain ⟨h₁, hl⟩ := (h.create config hfind hpassed).lockOf hfind₁ hlock₁
    have hfind₂ := (lockOf_find? hlock₁ g.key).trans hfind₁
    obtain ⟨hheld, hin⟩ := h₁.hold hl hfind₂ (AsyncLock.holder_of_free hfree)
      (AsyncLock.holder_hold _ t)
    have hmissing : (s₀.setLock l ((s₀.lock l).hold t)).find? g.key = none :=
      (lockOf_find? hlock _).trans hfind
    have hnext : s₀.nextTransport = s.nextTransport := by
      unfold Pool.lockOf at hlock
      split at hlock <;> cases hlock <;> rfl
    have henter : (s₀.setLock l ((s₀.lock l).hold t)).enter t g config l =
        ((s₀.create g.key config).setLock l ((s₀.lock l).hold t)).connectOrReturn t g l
          s.nextTransport := by
      simp only [enter, transportOf, hmissing, ← hnext]
      rfl
    rw [henter]
    exact hheld.connectOrReturn hin

theorem waitLocked (h : s.Owned) {t : TaskId} {g : GetSession} {config : ServerConfig}
    {s₀ : Pool} {l : LockId} (hlock : s.lockOf g.key = (s₀, l)) (hbusy : ¬ (s₀.lock l).free) :
    ((s₀.setLock l ((s₀.lock l).wait t)).setTask t (.waiting g config l)).Owned := by
  unfold Pool.lockOf at hlock
  cases hl : s.locks g.key with
  | none =>
    -- a new lock is free
    rw [hl] at hlock
    cases hlock
    exact absurd (h.fresh _ le_rfl) hbusy
  | some l' =>
    rw [hl] at hlock
    cases hlock
    have hqueued : (s.setLock l ((s.lock l).wait t)).Owned :=
      h.setLock (h.locked _ _ hl).1 fun t' g' tr hc => (h.working t' g' l tr hc).2
    refine hqueued.setTask t ?_ (by simp [Task.connect]) (by simp)
    intro g' l' hentry
    cases hentry
    exact hl

theorem startGet (h : s.Owned) (t : TaskId) (g : GetSession)
    (hpassed : ∀ config, getConfig configs g.serverName = .ok config →
      ∀ t' tr o rest, s.task t' = .closing true tr o rest → g.key ∈ rest) :
    (s.startGet configs t g).Owned := by
  rcases startGet_cases configs s t g with
    ⟨e, -, heq⟩ | ⟨s₀, l, config, hlock, hconfig, ⟨hfree, heq⟩ | ⟨hbusy, heq⟩⟩
  · rw [heq]
    exact h.leave t rfl
  · rw [heq]
    exact h.enterFree hlock hfree (hpassed config hconfig)
  · rw [heq]
    exact h.waitLocked hlock hbusy

theorem resumes (h : s.Owned) {t : TaskId} (hr : s.Resumes t s')
    (hunused : ∀ t' g, (s.task t').pendingGet = some g → g.key ∉ s.takesOut (.resume t))
    (hsettled : ∀ key tr, key ∈ s.takesOut (.resume t) → s.find? key = some tr →
      (s.transport tr).state ≠ .connecting) : s'.Owned := by
  cases hr with
  | @waiting g config l ht hturn =>
    have hlock := h.pending t g l (by rw [ht]; rfl)
    obtain ⟨-, tr, hfind⟩ := h.locked _ _ hlock
    obtain ⟨hheld, hin⟩ := h.hold hlock hfind (AsyncLock.holder_of_turn hturn)
      (AsyncLock.holder_takeTurn _ t)
    have hsame : (s.setLock l ((s.lock l).takeTurn t)).find? g.key = some tr := hfind
    simpa [enter, transportOf, hsame] using hheld.connectOrReturn hin
  | @clearing g l tr o ht =>
    have hq := s.quiet_clearBgTask tr
    exact (h.quiet hq).beginConnect ((h.inLock (by rw [ht]; rfl)).quiet hq)
  | connected ht => exact h.finishGet (h.inLock (by rw [ht]; rfl))
  | failed ht =>
    exact h.cleanupBgTask (h.inLock (by rw [ht]; rfl)) (fun s' h' hin => h'.abortConnect hin _)
      fun _ => rfl
  | @failing g l tr o e ht =>
    have hq := s.quiet_clearBgTask tr
    exact (h.quiet hq).abortConnect ((h.inLock (by rw [ht]; rfl)).quiet hq) _
  | @closing all tr o rest ht =>
    have hclosed : ((s.clearBgTask tr).finishDisconnect tr).Owned :=
      (h.quiet (s.quiet_clearBgTask tr)).setTransport tr rfl (by simp)
    refine hclosed.closeKeys t all rest ?_ ?_ ?_
    · intro t' g hpending
      have hnot := hunused t' g hpending
      simpa only [takesOut, ht] using hnot
    · intro key tr' hmem hfind hstate
      refine hsettled key tr' (by simpa only [takesOut, ht] using hmem) hfind ?_
      by_cases htr : tr' = tr
      · subst htr
        simp [finishDisconnect] at hstate
      · simpa [finishDisconnect, clearBgTask, Function.update_of_ne htr] using hstate
    · exact fun hall key tr' hfind => h.closing t all tr o rest ht hall key tr' hfind

/-- The transport of a connecting owner is in the pool. -/
theorem find?_of_connecting (h : s.Owned) (hl : s.Linked configs Q) (hs : s.Staged) {o : OwnerId}
    (hphase : (s.owner o).phase = .connecting) :
    s.find? (s.transport (s.owner o).transport).key = some (s.owner o).transport := by
  obtain ⟨t, g, l, ht⟩ := hs.owner o hphase
  obtain ⟨hfind, -⟩ := h.working t g l _ (by rw [ht]; rfl)
  obtain ⟨-, hkey⟩ := hl.inPool _ _ hfind
  rw [hkey, hfind]

theorem step (h : s.Owned) (hl : s.Linked configs Q) (hs : s.Staged) {a : PoolAction}
    (hkeys : s.KeepsKeysInUse configs a) (hst : step configs s a = some s') : s'.Owned := by
  cases steps_of_step hst with
  | @getSession t g => exact h.startGet t g fun config => hkeys.notPassed t g config rfl
  | @disconnect t serverName =>
    exact h.closeKeys t false _ hkeys.unused hkeys.settled (by simp)
  | @disconnectAll t =>
    exact h.closeKeys t true _ hkeys.unused hkeys.settled fun _ key tr hfind =>
      mem_keys_of_find? hfind
  | resume hr => exact h.resumes hr hkeys.unused hkeys.settled
  | @ownerConnects o hphase =>
    exact (h.setOwner o _).setTransport _ rfl fun _ => h.find?_of_connecting hl hs hphase
  | @ownerFails o =>
    have herror := h.setTransport (s.owner o).transport (x := {
      s.transport (s.owner o).transport with state := .error, session := none }) rfl (by simp)
    exact herror.setOwner _ _
  | @ownerEnds o =>
    have hdropped := h.setTransport (s.owner o).transport
      (x := { s.transport (s.owner o).transport with session := none }) rfl (h.stored _)
    exact hdropped.setOwner _ _
  | ownerCloses => exact h.setOwner _ _

end Owned

theorem owned_empty : ({} : Pool).Owned where
  pending t g l h := by cases h
  working t g l tr h := by cases h
  locked key l h := by cases h
  fresh l h := rfl
  inPool key tr h := by cases h
  stored tr h := by rcases h with h | h <;> cases h
  closing t all tr o rest h := by cases h

/-- When the loop of `disconnect` returns, the keys that it was given are out of the pool. -/
theorem find?_closeKeys {t : TaskId} {all b : Bool} {keys : List SessionKey}
    (hall : ∀ key tr, s.find? key = some tr → key ∈ keys)
    (hdone : (closeKeys t all keys s).task t = .closed b) (key : SessionKey) :
    (closeKeys t all keys s).find? key = none := by
  induction keys generalizing s with
  | nil =>
    have hnone : s.find? key = none := by
      cases hfind : s.find? key with
      | none => rfl
      | some tr => exact absurd (hall key tr hfind) List.not_mem_nil
    exact hnone
  | cons key' rest ih =>
    rw [closeKeys_cons] at hdone ⊢
    cases hclosing : s.closingOwner key' with
    | some p => simp [hclosing] at hdone
    | none =>
      simp only [hclosing] at hdone ⊢
      refine ih (fun key'' tr hfind => ?_) hdone
      rw [closeOne_find?] at hfind
      exact mem_rest_of_takeOut hall hfind

theorem closeKeys_task {t : TaskId} {all b : Bool} {keys : List SessionKey}
    (hdone : (closeKeys t all keys s).task t = .closed b) : b = all := by
  induction keys generalizing s with
  | nil => simpa [closeKeys, eq_comm] using hdone
  | cons key rest ih =>
    rw [closeKeys_cons] at hdone
    cases hclosing : s.closingOwner key with
    | some p => simp [hclosing] at hdone
    | none => exact ih (by simpa only [hclosing] using hdone)

/-- A `get_session` does not end as a `disconnect` does. -/
theorem ne_closed_of_getSession? {x : Task} {g : GetSession} (h : x.getSession? = some g) :
    x ≠ .closed true := by
  rintro rfl
  cases h

/-- A `disconnect_all` that returns leaves the pool empty. -/
theorem find?_of_closed (h : s.Owned) {a : PoolAction} {t : TaskId}
    (hst : step configs s a = some s') (ht : a.task? = some t) (hdone : s'.task t = .closed true)
    (key : SessionKey) : s'.find? key = none := by
  cases steps_of_step hst with
  | getSession g =>
    cases ht
    exact absurd hdone (ne_closed_of_getSession? (startGet_getSession? _ g))
  | disconnect serverName =>
    cases ht
    cases closeKeys_task hdone
  | disconnectAll =>
    cases ht
    exact find?_closeKeys (fun key tr hfind => mem_keys_of_find? hfind) hdone key
  | resume hr =>
    cases ht
    have hget : ∀ {g : GetSession}, (s.task t).getSession? ≠ some g := by
      intro g hg
      exact ne_closed_of_getSession? (getSession?_of_resumes hr hg) hdone
    cases hr with
    | waiting htask => exact absurd (by rw [htask]; rfl) hget
    | clearing htask => exact absurd (by rw [htask]; rfl) hget
    | connected htask => exact absurd (by rw [htask]; rfl) hget
    | failed htask => exact absurd (by rw [htask]; rfl) hget
    | failing htask => exact absurd (by rw [htask]; rfl) hget
    | @closing all tr o rest htask =>
      obtain rfl := closeKeys_task hdone
      have hall : ∀ key tr', ((s.clearBgTask tr).finishDisconnect tr).find? key = some tr' →
          key ∈ rest := h.closing t true tr o rest htask rfl
      exact find?_closeKeys hall hdone key
  | _ => cases ht

theorem ownsTransports_of_owned {a : PoolAction} (h : s.Owned) (hst : step configs s a = some s')
    (h' : s'.Owned) : OwnsTransports a s' where
  stored tr hstate := .inl (h'.stored tr hstate)
  exclusive {t₁ t₂ g₁ g₂ l₁ l₂ tr} hc₁ hc₂ := by
    have hin₁ := h'.inLock hc₁
    have hin₂ := h'.inLock hc₂
    have hkey : g₁.key = g₂.key :=
      (h'.inPool _ _ hin₁.transport).2.symm.trans (h'.inPool _ _ hin₂.transport).2
    have hlock : l₁ = l₂ := by
      have hlock₁ := hin₁.lock
      rw [hkey, hin₂.lock] at hlock₁
      exact (Option.some.inj hlock₁).symm
    subst hlock
    exact Option.some.inj (hin₁.holder.symm.trans hin₂.holder)
  emptied t ht hdone _ tr hconnected := by
    have hfind := h'.stored tr (.inl hconnected)
    rw [find?_of_closed h hst ht hdone] at hfind
    cases hfind

/-- In a run that takes out no key in use, the pool owns its transports after every step. -/
theorem ownsTransports_of_keepsKeysInUse (configs : List ServerConfig) (as : List PoolAction)
    (h : EachStep (step configs) (fun s a _ => s.KeepsKeysInUse configs a) {} as) :
    EachStep (step configs) (fun _ a s' => OwnsTransports a s') {} as := by
  refine h.rule (I := fun s => s.Linked configs (fun _ => True) ∧ s.Staged ∧ s.Owned)
    ⟨linked_empty, staged_empty, owned_empty⟩ ?_
  rintro s a s' ⟨hl, hs, ho⟩ hst hkeys
  have hl' := hl.step hst fun _ _ _ => trivial
  have hs' := hs.step hl.allocated hst
  have ho' := ho.step hl hs hkeys hst
  exact ⟨⟨hl', hs', ho'⟩, ownsTransports_of_owned ho hst ho'⟩

theorem keepsKeysInUse_of_idle (hnone : ∀ t, (s.task t).pendingGet = none)
    (hsettled : ∀ tr, (s.transport tr).state ≠ .connecting) {a : PoolAction}
    (ha : ∀ t g, a ≠ .getSession t g) : s.KeepsKeysInUse configs a where
  unused t g hpending := by cases (hnone t).symm.trans hpending
  settled _ tr _ _ := hsettled tr
  notPassed t g config h := absurd h (ha t g)

theorem keepsKeysInUse_of_takesOut {a : PoolAction} (hout : s.takesOut a = [])
    (ha : ∀ t g, a ≠ .getSession t g) : s.KeepsKeysInUse configs a where
  unused t g _ := by simp [hout]
  settled key tr hmem := by simp [hout] at hmem
  notPassed t g config h := absurd h (ha t g)

/-- A session is opened, and `disconnect_all` closes it. -/
def shutDown : List PoolAction :=
  [.getSession 0 searchRequest, .ownerConnects 0, .resume 0, .disconnectAll 1, .ownerEnds 0,
    .ownerCloses 0, .resume 1]

theorem shutDown_ownsTransports :
    EachStep (step [searchServer]) (fun _ a s' => OwnsTransports a s') {} shutDown := by
  refine ownsTransports_of_keepsKeysInUse [searchServer] shutDown ?_
  refine (eachStep_cons rfl).mpr ⟨⟨?_, ?_, ?_⟩, ?_⟩
  · exact fun _ _ h => nomatch h
  · exact fun _ _ h => nomatch h
  · exact fun _ _ _ _ _ _ _ _ _ h => nomatch h
  refine (eachStep_cons rfl).mpr ⟨keepsKeysInUse_of_takesOut rfl nofun, ?_⟩
  refine (eachStep_cons rfl).mpr ⟨keepsKeysInUse_of_takesOut rfl nofun, ?_⟩
  -- from here on no `get_session` is pending
  refine (eachStep_cons rfl).mpr ⟨keepsKeysInUse_of_idle ?_ ?_ nofun, ?_⟩
  · exact fun | 0 => rfl | _ + 1 => rfl
  · exact fun | 0 => nofun | _ + 1 => nofun
  refine (eachStep_cons rfl).mpr ⟨keepsKeysInUse_of_takesOut rfl nofun, ?_⟩
  refine (eachStep_cons rfl).mpr ⟨keepsKeysInUse_of_takesOut rfl nofun, ?_⟩
  refine (eachStep_cons rfl).mpr ⟨keepsKeysInUse_of_takesOut rfl nofun, ?_⟩
  trivial

/-- A server is disconnected while a `get_session` connects it. -/
def disconnectWhileConnecting : List PoolAction :=
  [.getSession 0 searchRequest, .disconnect 1 "search", .ownerConnects 0, .resume 0,
    .disconnectAll 1]

/-- A server whose arguments are not all strings, say. -/
def filesServer : ServerConfig :=
  { name := .str "files", transport := .stdio, parametersAccepted := false }

/-- A `get_session` is refused, and `disconnect_all` takes out what it has left. -/
def disconnectRefused : List PoolAction :=
  [.getSession 0 { serverName := "files" }, .disconnectAll 1]

theorem disconnectWhileConnecting_not_ownsTransports :
    ¬ EachStep (step [searchServer]) (fun _ a s' => OwnsTransports a s') {}
        disconnectWhileConnecting ∧
      (∃ s, run (step [searchServer]) {} disconnectWhileConnecting = some s ∧
        s.task 1 = .closed true ∧ (∀ t, (s.task t).pendingGet = none) ∧
          (s.transport 0).state = .connected) ∧
      ¬ EachStep (step [filesServer]) (fun _ a s' => OwnsTransports a s') {} disconnectRefused := by
  refine ⟨fun h => ?_, ⟨_, rfl, rfl, fun | 0 => rfl | 1 => rfl | t + 2 => rfl, rfl⟩, fun h => ?_⟩
  · obtain ⟨-, h⟩ := h _ rfl
    obtain ⟨hdisconnect, -⟩ := h _ rfl
    rcases hdisconnect.stored 0 (.inr rfl) with hfind | ⟨t, all, o, rest, ht⟩
    · cases hfind
    · match t with
      | 0 => cases ht
      | 1 => cases ht
      | t + 2 => cases ht
  · obtain ⟨-, h⟩ := h _ rfl
    obtain ⟨hdisconnect, -⟩ := h _ rfl
    rcases hdisconnect.stored 0 (.inr rfl) with hfind | ⟨t, all, o, rest, ht⟩
    · cases hfind
    · match t with
      | 0 => cases ht
      | 1 => cases ht
      | t + 2 => cases ht

end Pool

end McpZero.Transport
