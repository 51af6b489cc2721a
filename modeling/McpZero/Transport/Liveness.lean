import McpZero.Lib.Work
import McpZero.Transport.Ownership

/-! Calls of the manager come to an end: no task waits for something that nobody owes it, and the
steps of a run are paid for by the calls that it begins. -/
namespace McpZero.Transport
open Lib

/-- The places of a task that stands at one lock. -/
def atLock (p : Place) (l l' : LockId) : Place := if l = l' then p else .outside

theorem atLock_outside (l : LockId) : atLock .outside l = fun _ => .outside := by
  funext l'
  simp [atLock]

theorem atLock_eq {p q : Place} {l l' : LockId} (h : atLock p l l' = q) (hq : q ≠ .outside) :
    p = q ∧ l = l' := by
  unfold atLock at h
  split at h
  · exact ⟨h, ‹_›⟩
  · exact absurd h.symm hq

namespace Task

/-- Where a task stands with the locks. -/
def place : Task → LockId → Place
  | waiting _ _ l => atLock .waiting l
  | clearing _ l _ _ => atLock .inside l
  | connecting _ l _ _ => atLock .inside l
  | failing _ l _ _ _ => atLock .inside l
  | _ => fun _ => .outside

/-- The steps that a task has still to take, with those of the owner that it may create. -/
def work : Task → ℕ
  | waiting _ _ _ => 7
  | clearing _ _ _ _ => 6
  | connecting _ _ _ _ => 2
  | failing _ _ _ _ _ => 1
  | closing _ _ _ _ => 1
  | _ => 0

theorem place_of_not_pending {x : Task} (h : x.pending = false) : x.place = fun _ => .outside := by
  cases x <;> first | rfl | cases h

theorem work_of_not_pending {x : Task} (h : x.pending = false) : x.work = 0 := by
  cases x <;> first | rfl | cases h

theorem eq_waiting_of_place {x : Task} {l : LockId} (h : x.place l = .waiting) :
    ∃ g config, x = .waiting g config l := by
  cases x with
  | waiting g config l' =>
    obtain ⟨-, rfl⟩ := atLock_eq h nofun
    exact ⟨g, config, rfl⟩
  | clearing g l' tr o => exact absurd (atLock_eq h nofun).1 nofun
  | connecting g l' tr o => exact absurd (atLock_eq h nofun).1 nofun
  | failing g l' tr o e => exact absurd (atLock_eq h nofun).1 nofun
  | idle => exact absurd h nofun
  | returned g o => exact absurd h nofun
  | raised g e => exact absurd h nofun
  | closing all tr o rest => exact absurd h nofun
  | closed all => exact absurd h nofun

theorem connect_of_place {x : Task} {l : LockId} (h : x.place l = .inside) :
    ∃ g tr, x.connect = some (g, l, tr) := by
  cases x with
  | waiting g config l' => exact absurd (atLock_eq h nofun).1 nofun
  | clearing g l' tr o =>
    obtain ⟨-, rfl⟩ := atLock_eq h nofun
    exact ⟨g, tr, rfl⟩
  | connecting g l' tr o =>
    obtain ⟨-, rfl⟩ := atLock_eq h nofun
    exact ⟨g, tr, rfl⟩
  | failing g l' tr o e =>
    obtain ⟨-, rfl⟩ := atLock_eq h nofun
    exact ⟨g, tr, rfl⟩
  | idle => exact absurd h nofun
  | returned g o => exact absurd h nofun
  | raised g e => exact absurd h nofun
  | closing all tr o rest => exact absurd h nofun
  | closed all => exact absurd h nofun

end Task

/-- The steps that an owner has still to take. -/
def OwnerPhase.work : OwnerPhase → ℕ
  | .connecting => 3
  | .serving => 2
  | .closing => 1
  | .done => 0

def Owner.work (x : Owner) : ℕ := x.phase.work

namespace PoolAction

/-- Whether an action goes on with what has begun. -/
def goesOn (a : PoolAction) : ℕ := if a.starts.isNone then 1 else 0

/-- What a call may cost: a `get_session` its own steps, those of an owner and one for the entry
that it adds to the pool. The steps of a `disconnect` are paid by the entries that it takes out. -/
def cost : PoolAction → ℕ
  | .getSession _ _ => 7
  | _ => 0

end PoolAction

namespace Pool

variable {configs : List ServerConfig} {s s' : Pool} {t : TaskId} {l : LockId} {p q : Place}

/-- The steps that are owed to the tasks that wait. An owner that serves and has not been asked to
stop owes nothing. -/
def Owed (s : Pool) : PoolAction → Prop
  | .resume _ => True
  | .ownerConnects _ => True
  | .ownerFails _ _ => True
  | .ownerCloses _ => True
  | .ownerEnds o => (s.owner o).stopRequested = true
  | _ => False

/-- Nothing that is owed can be done. -/
def Settled (configs : List ServerConfig) (s : Pool) : Prop :=
  ∀ a, s.Owed a → step configs s a = none

/-- The locks agree with the tasks, where the task `t` is taken to be at the places `p`. -/
def Serving (s : Pool) (t : TaskId) (p : LockId → Place) : Prop :=
  ∀ l, (s.lock l).Serves (Function.update (fun t' => (s.task t').place l) t (p l))

/-- The locks agree with the tasks. -/
def Disciplined (s : Pool) : Prop := ∀ l, (s.lock l).Serves fun t => (s.task t).place l

theorem Disciplined.serving (h : s.Disciplined) (t : TaskId) : s.Serving t (s.task t).place := by
  intro l
  rw [Function.update_eq_self]
  exact h l

namespace Serving

theorem congr {p : LockId → Place} (h : s.Serving t p) (hlock : s'.lock = s.lock)
    (htask : s'.task = s.task) : s'.Serving t p := by
  unfold Serving
  rw [hlock, htask]
  exact h

theorem setTask {p : LockId → Place} (h : s.Serving t p) {x : Task} (hx : x.place = p) :
    (s.setTask t x).Disciplined := by
  intro l
  have hplace : (fun t' => ((s.setTask t x).task t').place l) =
      Function.update (fun t' => (s.task t').place l) t (p l) := by
    funext t'
    by_cases ht : t' = t
    · subst ht
      simp [hx]
    · simp [ht]
  rw [hplace]
  exact h l

/-- The task goes from one place at the lock to another. -/
theorem setLock (h : s.Serving t (atLock p l)) {k : AsyncLock TaskId}
    (hk : ∀ place, (s.lock l).Serves place → place t = p → k.Serves (Function.update place t q)) :
    (s.setLock l k).Serving t (atLock q l) := by
  intro l'
  by_cases hl : l = l'
  · subst hl
    have hserves := h l
    have hmoved := hk _ hserves (by simp [atLock])
    rw [Function.update_idem] at hmoved
    simpa [atLock] using hmoved
  · have hserves := h l'
    simpa [atLock, hl, Ne.symm hl] using hserves

theorem release (h : s.Serving t (atLock .inside l)) :
    (s.setLock l (s.lock l).release).Serving t fun _ => .outside := by
  rw [← atLock_outside l]
  exact h.setLock fun _ hplace ht => hplace.release ht

theorem hold (h : s.Serving t fun _ => .outside) (hfree : (s.lock l).free) :
    (s.setLock l ((s.lock l).hold t)).Serving t (atLock .inside l) := by
  rw [← atLock_outside l] at h
  exact h.setLock fun _ hplace _ => hplace.hold hfree

theorem wait (h : s.Serving t fun _ => .outside) :
    (s.setLock l ((s.lock l).wait t)).Serving t (atLock .waiting l) := by
  rw [← atLock_outside l] at h
  exact h.setLock fun _ hplace ht => hplace.wait ht

theorem takeTurn (h : s.Serving t (atLock .waiting l)) (hturn : (s.lock l).turn t) :
    (s.setLock l ((s.lock l).takeTurn t)).Serving t (atLock .inside l) :=
  h.setLock fun _ hplace _ => hplace.takeTurn hturn

end Serving

/-- The owner owes its end to those that wait for it. -/
def Ending (s : Pool) (o : OwnerId) : Prop :=
  o < s.nextOwner ∧ ((s.owner o).phase = .done ∨ (s.owner o).stopRequested = true)

/-- The owner is ready, or it owes that. -/
def Beginning (s : Pool) (o : OwnerId) : Prop :=
  o < s.nextOwner ∧ ((s.owner o).phase = .connecting ∨ (s.owner o).ready = true)

/-- What a task that waits for an owner may rely on. -/
def Backed (s : Pool) : Task → Prop
  | .clearing _ _ _ o => s.Ending o
  | .connecting _ _ _ o => s.Beginning o
  | .failing _ _ _ o _ => s.Ending o
  | .closing _ _ o _ => s.Ending o
  | _ => True

/-- Every task that waits for an owner is owed what it waits for. -/
structure Answered (s : Pool) : Prop where
  task (t : TaskId) : s.Backed (s.task t)
  bgTask (tr : TransportId) (o : OwnerId) : (s.transport tr).bgTask = some o → o < s.nextOwner
  owner (o : OwnerId) : (s.owner o).phase ≠ .done → o < s.nextOwner

/-- The owners of `s` owe in `s'` what they owe in `s`. -/
structure KeepsOwing (s s' : Pool) : Prop where
  nextOwner : s.nextOwner ≤ s'.nextOwner
  ending (o : OwnerId) : s.Ending o → s'.Ending o
  beginning (o : OwnerId) : s.Beginning o → s'.Beginning o

theorem KeepsOwing.backed (h : s.KeepsOwing s') {x : Task} (hx : s.Backed x) : s'.Backed x := by
  cases x with
  | clearing g l tr o => exact h.ending o hx
  | connecting g l tr o => exact h.beginning o hx
  | failing g l tr o e => exact h.ending o hx
  | closing all tr o rest => exact h.ending o hx
  | _ => trivial

theorem KeepsOwing.of_eq (hnext : s'.nextOwner = s.nextOwner) (howner : s'.owner = s.owner) :
    s.KeepsOwing s' where
  nextOwner := hnext.ge
  ending o := by
    unfold Ending
    rw [hnext, howner]
    exact id
  beginning o := by
    unfold Beginning
    rw [hnext, howner]
    exact id

/-- One owner changes. -/
theorem keepsOwing_setOwner {o : OwnerId} {x : Owner}
    (hending : (s.owner o).phase = .done ∨ (s.owner o).stopRequested = true →
      x.phase = .done ∨ x.stopRequested = true)
    (hbeginning : (s.owner o).phase = .connecting ∨ (s.owner o).ready = true →
      x.phase = .connecting ∨ x.ready = true) : s.KeepsOwing (s.setOwner o x) where
  nextOwner := le_rfl
  ending o' h := by
    refine ⟨h.1, ?_⟩
    by_cases ho : o' = o
    · subst ho
      simpa using hending h.2
    · simpa [ho] using h.2
  beginning o' h := by
    refine ⟨h.1, ?_⟩
    by_cases ho : o' = o
    · subst ho
      simpa using hbeginning h.2
    · simpa [ho] using h.2

namespace Answered

theorem setTask (h : s.Answered) {x : Task} (hx : s.Backed x) : (s.setTask t x).Answered where
  task t' := by
    have hkeeps : s.KeepsOwing (s.setTask t x) := .of_eq rfl rfl
    by_cases ht : t' = t
    · subst ht
      simpa using hkeeps.backed hx
    · simpa [ht] using hkeeps.backed (h.task t')
  bgTask := h.bgTask
  owner := h.owner

/-- Locks and entries are nothing to the owners. -/
theorem of_eq (h : s.Answered) (htask : s'.task = s.task) (htransport : s'.transport = s.transport)
    (howner : s'.owner = s.owner) (hnext : s'.nextOwner = s.nextOwner) : s'.Answered where
  task t := by
    rw [htask]
    exact (KeepsOwing.of_eq hnext howner).backed (h.task t)
  bgTask := by
    rw [htransport, hnext]
    exact h.bgTask
  owner := by
    rw [howner, hnext]
    exact h.owner

theorem setLock (h : s.Answered) (l : LockId) (k : AsyncLock TaskId) : (s.setLock l k).Answered :=
  h.of_eq rfl rfl rfl rfl

theorem takeOut (h : s.Answered) (key : SessionKey) : (s.takeOut key).Answered :=
  h.of_eq rfl rfl rfl rfl

theorem setTransport (h : s.Answered) {tr : TransportId} {x : MCPTransport}
    (hx : ∀ o, x.bgTask = some o → o < s.nextOwner) : (s.setTransport tr x).Answered where
  task t := (KeepsOwing.of_eq rfl rfl : s.KeepsOwing (s.setTransport tr x)).backed (h.task t)
  bgTask tr' o ho := by
    by_cases htr : tr' = tr
    · subst htr
      exact hx o (by simpa using ho)
    · exact h.bgTask tr' o (by simpa [htr] using ho)
  owner := h.owner

theorem setOwner (h : s.Answered) {o : OwnerId} {x : Owner} (hkeeps : s.KeepsOwing (s.setOwner o x))
    (hx : x.phase ≠ .done → o < s.nextOwner) : (s.setOwner o x).Answered where
  task t := hkeeps.backed (h.task t)
  bgTask := h.bgTask
  owner o' ho' := by
    by_cases ho : o' = o
    · subst ho
      exact hx (by simpa using ho')
    · exact h.owner o' (by simpa [ho] using ho')

theorem requestStop (h : s.Answered) {o : OwnerId} (ho : o < s.nextOwner) :
    (s.requestStop o).Answered ∧ (s.requestStop o).Ending o := by
  have hkeeps : s.KeepsOwing (s.requestStop o) :=
    keepsOwing_setOwner (fun _ => .inr rfl) fun h => h
  refine ⟨h.setOwner hkeeps fun _ => ho, ho, .inr ?_⟩
  simp [Pool.requestStop]

theorem clearBgTask (h : s.Answered) (tr : TransportId) : (s.clearBgTask tr).Answered :=
  h.setTransport nofun

theorem create (h : s.Answered) (key : SessionKey) (config : ServerConfig) :
    (s.create key config).Answered where
  task t := (KeepsOwing.of_eq rfl rfl : s.KeepsOwing (s.create key config)).backed (h.task t)
  bgTask tr o ho := by
    by_cases htr : tr = s.nextTransport
    · subst htr
      simp at ho
    · exact h.bgTask tr o (by simpa [htr] using ho)
  owner := h.owner

/-- A new owner begins to connect. -/
theorem spawnOwner (h : s.Answered) (tr : TransportId) (g : GetSession) :
    (s.spawnOwner { transport := tr, request := g }).Answered ∧
      (s.spawnOwner { transport := tr, request := g }).Beginning s.nextOwner := by
  have hold : ∀ o, o < s.nextOwner → ((s.spawnOwner { transport := tr, request := g }).owner o) =
      s.owner o := by
    intro o ho
    simp [ho.ne]
  have hkeeps : s.KeepsOwing (s.spawnOwner { transport := tr, request := g }) := by
    refine ⟨Nat.le_succ _, fun o ho => ⟨Nat.lt_succ_of_lt ho.1, ?_⟩,
      fun o ho => ⟨Nat.lt_succ_of_lt ho.1, ?_⟩⟩
    · rw [hold o ho.1]
      exact ho.2
    · rw [hold o ho.1]
      exact ho.2
  refine ⟨⟨fun t => hkeeps.backed (h.task t), fun tr o ho => ?_, fun o ho => ?_⟩,
    Nat.lt_succ_self _, .inl (by simp)⟩
  · exact Nat.lt_succ_of_lt (h.bgTask tr o ho)
  · by_cases hnew : o = s.nextOwner
    · subst hnew
      exact Nat.lt_succ_self _
    · exact Nat.lt_succ_of_lt (h.owner o (by simpa [hnew] using ho))

end Answered

/-- The steps that owners have still to take, and the entries of the pool. -/
def background (s : Pool) : ℕ :=
  totalWork Owner.work (Finset.range s.nextOwner) s.owner + s.transports.keys.length

/-- The steps that others than `t` have still to take. -/
def restWork (T : Finset TaskId) (t : TaskId) (s : Pool) : ℕ :=
  totalWork Task.work (T.erase t) s.task + s.background

/-- The steps that are still to be taken by the tasks of `T` and on their behalf. -/
def work (T : Finset TaskId) (s : Pool) : ℕ := totalWork Task.work T s.task + s.background

theorem work_eq {T : Finset TaskId} (ht : t ∈ T) (s : Pool) :
    s.work T = (s.task t).work + s.restWork T t := by
  unfold work restWork
  rw [totalWork_eq_add Task.work ht, add_assoc]

theorem work_setTask {T : Finset TaskId} (ht : t ∈ T) (s : Pool) (x : Task) :
    (s.setTask t x).work T = x.work + s.restWork T t := by
  have hothers : totalWork Task.work (T.erase t) (s.setTask t x).task =
      totalWork Task.work (T.erase t) s.task :=
    totalWork_congr fun t' ht' => by simp [(Finset.mem_erase.mp ht').1]
  have hrest : (s.setTask t x).restWork T t = s.restWork T t :=
    congrArg (· + s.background) hothers
  have hself : ((s.setTask t x).task t).work = x.work := by simp
  rw [work_eq ht, hself, hrest]

/-- Nothing but the background differs. -/
theorem restWork_of_task {T : Finset TaskId} {n : ℕ} (htask : s'.task = s.task)
    (h : s'.background ≤ s.background + n) : s'.restWork T t ≤ s.restWork T t + n := by
  unfold restWork
  rw [htask]
  omega

theorem background_setOwner {o : OwnerId} {x : Owner} (ho : o < s.nextOwner) :
    (s.setOwner o x).background + (s.owner o).work = s.background + x.work := by
  have hupdate := totalWork_update Owner.work (Finset.mem_range.mpr ho) s.owner x
  have hset : (s.setOwner o x).background = totalWork Owner.work (Finset.range s.nextOwner)
      (Function.update s.owner o x) + s.transports.keys.length := rfl
  unfold background at hset ⊢
  omega

theorem background_requestStop (s : Pool) (o : OwnerId) :
    (s.requestStop o).background = s.background :=
  congrArg (· + s.transports.keys.length) (totalWork_congr fun o' _ =>
    congrArg OwnerPhase.work ((s.quiet_requestStop o).owner o').2.2.1)

theorem background_spawnOwner (s : Pool) (tr : TransportId) (g : GetSession) :
    (s.spawnOwner { transport := tr, request := g }).background = s.background + 3 := by
  have hmem : s.nextOwner ∈ Finset.range (s.nextOwner + 1) := Finset.self_mem_range_succ _
  have hothers : (Finset.range (s.nextOwner + 1)).erase s.nextOwner = Finset.range s.nextOwner := by
    rw [Finset.range_add_one, Finset.erase_insert Finset.notMem_range_self]
  have hold : totalWork Owner.work (Finset.range s.nextOwner)
      (s.spawnOwner { transport := tr, request := g }).owner =
        totalWork Owner.work (Finset.range s.nextOwner) s.owner :=
    totalWork_congr fun o ho => by simp [(Finset.mem_range.mp ho).ne]
  have hnew : ((s.spawnOwner { transport := tr, request := g }).owner s.nextOwner).work = 3 := by
    simp [Owner.work, OwnerPhase.work]
  have hkeys : (s.spawnOwner { transport := tr, request := g }).transports = s.transports := rfl
  unfold background
  rw [spawnOwner_nextOwner, totalWork_eq_add Owner.work hmem, hothers, hold, hnew, hkeys]
  omega

theorem background_create (s : Pool) (key : SessionKey) (config : ServerConfig) :
    (s.create key config).background ≤ s.background + 1 := by
  have hlength : (s.create key config).transports.keys.length ≤ s.transports.keys.length + 1 := by
    rw [create_transports, AList.keys_insert, List.length_cons]
    exact Nat.succ_le_succ (List.length_erase_le)
  have howner : (s.create key config).owner = s.owner := rfl
  have hnext : (s.create key config).nextOwner = s.nextOwner := rfl
  unfold background
  rw [howner, hnext]
  omega

theorem background_takeOut (s : Pool) (key : SessionKey) :
    (s.takeOut key).background ≤ s.background := by
  have hlength : (s.takeOut key).transports.keys.length ≤ s.transports.keys.length := by
    rw [takeOut_transports, AList.keys_erase]
    exact List.length_erase_le
  have howner : (s.takeOut key).owner = s.owner := rfl
  have hnext : (s.takeOut key).nextOwner = s.nextOwner := rfl
  unfold background
  rw [howner, hnext]
  omega

theorem background_takeOut_lt {key : SessionKey} {tr : TransportId}
    (hfind : s.find? key = some tr) : (s.takeOut key).background + 1 ≤ s.background := by
  have hmem : key ∈ s.transports.keys := by
    have hkeys := mem_keys_of_find? hfind
    unfold keys at hkeys
    exact List.mem_reverse.mp hkeys
  have hlength : (s.takeOut key).transports.keys.length + 1 = s.transports.keys.length := by
    rw [takeOut_transports, AList.keys_erase, List.length_erase_of_mem hmem]
    have hpos := List.length_pos_of_mem hmem
    omega
  have howner : (s.takeOut key).owner = s.owner := rfl
  have hnext : (s.takeOut key).nextOwner = s.nextOwner := rfl
  unfold background
  rw [howner, hnext]
  omega

/-- The task `t` runs, at the places `p`, and at most `n` steps are left to others. -/
structure Running (T : Finset TaskId) (t : TaskId) (p : LockId → Place) (n : ℕ) (s : Pool) :
    Prop where
  serving : s.Serving t p
  answered : s.Answered
  rest : s.restWork T t ≤ n

/-- No task runs, and at most `n` steps are left. -/
structure Suspended (T : Finset TaskId) (n : ℕ) (s : Pool) : Prop where
  disciplined : s.Disciplined
  answered : s.Answered
  work : s.work T ≤ n

namespace Running

variable {T : Finset TaskId} {p : LockId → Place} {n m : ℕ}

/-- A part of a step that changes neither tasks nor locks. -/
theorem congr (h : Running T t p n s) (hlock : s'.lock = s.lock) (htask : s'.task = s.task)
    (hanswered : s'.Answered) (hbackground : s'.background ≤ s.background + m) :
    Running T t p (n + m) s' where
  serving := h.serving.congr hlock htask
  answered := hanswered
  rest := (restWork_of_task htask hbackground).trans (Nat.add_le_add_right h.rest m)

theorem setTask (h : Running T t p n s) (ht : t ∈ T) {x : Task} (hplace : x.place = p)
    (hbacked : s.Backed x) (hwork : x.work + n ≤ m) : Suspended T m (s.setTask t x) where
  disciplined := h.serving.setTask hplace
  answered := h.answered.setTask hbacked
  work := by
    have hrest := h.rest
    rw [work_setTask ht]
    omega

theorem setLock {q : LockId → Place} {l : LockId} {k : AsyncLock TaskId} (h : Running T t p n s)
    (hserving : (s.setLock l k).Serving t q) : Running T t q n (s.setLock l k) :=
  ⟨hserving, h.answered.setLock l k, h.rest⟩

theorem finishGet (h : Running T t (atLock .inside l) n s) (ht : t ∈ T) (g : GetSession)
    (tr : TransportId) : Suspended T n (s.finishGet t g l tr) := by
  have hreleased := h.setLock h.serving.release
  unfold Pool.finishGet
  split
  · exact hreleased.setTask ht rfl trivial (Nat.zero_add n).le
  · exact hreleased.setTask ht rfl trivial (Nat.zero_add n).le

theorem setTransport (h : Running T t p n s) (tr : TransportId) (x : MCPTransport)
    (hx : ∀ o, x.bgTask = some o → o < s.nextOwner) : Running T t p n (s.setTransport tr x) :=
  h.congr (m := 0) rfl rfl (h.answered.setTransport hx) le_rfl

theorem abortConnect (h : Running T t (atLock .inside l) n s) (ht : t ∈ T) (g : GetSession)
    (tr : TransportId) (e : ConnectError) : Suspended T n (s.abortConnect t g l tr e) := by
  have hset := h.setTransport tr { s.transport tr with state := .error } (h.answered.bgTask tr)
  exact (hset.setLock hset.serving.release).setTask ht rfl trivial (Nat.zero_add n).le

theorem refuseConnect (h : Running T t (atLock .inside l) n s) (ht : t ∈ T) (g : GetSession)
    (tr : TransportId) : Suspended T n (s.refuseConnect t g l tr) := by
  have hset := h.setTransport tr { s.transport tr with state := .connecting } (h.answered.bgTask tr)
  exact (hset.setLock hset.serving.release).setTask ht rfl trivial (Nat.zero_add n).le

theorem spawnConnect (h : Running T t (atLock .inside l) n s) (ht : t ∈ T) (g : GetSession)
    (tr : TransportId) : Suspended T (n + 5) (s.spawnConnect t g l tr) := by
  obtain ⟨hspawned, hbeginning⟩ := h.answered.spawnOwner tr g
  have hrun : Running T t (atLock .inside l) (n + 3)
      (s.spawnOwner { transport := tr, request := g }) :=
    h.congr rfl rfl hspawned (background_spawnOwner s tr g).le
  have hset := hrun.setTransport tr
    { s.transport tr with state := .connecting, bgTask := some s.nextOwner } fun o ho => by
      obtain rfl := Option.some.inj ho
      exact Nat.lt_succ_self _
  exact hset.setTask (x := .connecting g l tr s.nextOwner) ht rfl hbeginning (by
    simp only [Task.work]
    omega)

theorem beginConnect (h : Running T t (atLock .inside l) n s) (ht : t ∈ T) (g : GetSession)
    (tr : TransportId) : Suspended T (n + 5) (s.beginConnect t g l tr) := by
  unfold Pool.beginConnect
  split
  · have hrefused := h.refuseConnect ht g tr
    exact ⟨hrefused.disciplined, hrefused.answered, hrefused.work.trans (Nat.le_add_right n 5)⟩
  · exact h.spawnConnect ht g tr

/-- `_cleanup_bg_task` goes on, or waits for an owner that it has asked to stop. -/
theorem cleanupBgTask (h : Running T t p n s) (ht : t ∈ T) {tr : TransportId}
    {finish : Pool → Pool} {wait : OwnerId → Task}
    (hfinish : ∀ s', Running T t p n s' → Suspended T m (finish s'))
    (hplace : ∀ o, (wait o).place = p) (hwork : ∀ o, (wait o).work + n ≤ m)
    (hbacked : ∀ s' o, Ending s' o → Backed s' (wait o)) :
    Suspended T m (s.cleanupBgTask t tr finish wait) := by
  rcases s.cleanupBgTask_cases t tr finish wait with ⟨-, heq⟩ | ⟨o, hbg, hcases⟩
  · rw [heq]
    exact hfinish s h
  · obtain ⟨hanswered, hending⟩ := h.answered.requestStop (h.answered.bgTask tr o hbg)
    have hstop : Running T t p n (s.requestStop o) :=
      h.congr (m := 0) rfl rfl hanswered (background_requestStop s o).le
    rcases hcases with ⟨-, heq⟩ | ⟨-, heq⟩
    · rw [heq]
      exact hfinish _ (hstop.setTransport tr _ nofun)
    · rw [heq]
      exact hstop.setTask ht (hplace o) (hbacked _ o hending) (hwork o)

theorem connectOrReturn (h : Running T t (atLock .inside l) n s) (ht : t ∈ T) (g : GetSession)
    (tr : TransportId) : Suspended T (n + 6) (s.connectOrReturn t g l tr) := by
  unfold Pool.connectOrReturn
  split
  · have hdone := h.finishGet ht g tr
    exact ⟨hdone.disciplined, hdone.answered, hdone.work.trans (Nat.le_add_right n 6)⟩
  · refine h.cleanupBgTask ht (fun s' hs' => ?_) (fun _ => rfl) (fun _ => ?_) fun _ _ ho => ho
    · have hbegun := hs'.beginConnect ht g tr
      exact ⟨hbegun.disciplined, hbegun.answered, hbegun.work.trans (Nat.le_succ _)⟩
    · simp only [Task.work]
      omega

/-- The body of `async with lock`. A transport that is created has nothing to clean up. -/
theorem enter (h : Running T t (atLock .inside l) n s) (ht : t ∈ T) (g : GetSession)
    (config : ServerConfig) : Suspended T (n + 6) (s.enter t g config l) := by
  unfold Pool.enter transportOf
  cases hfind : s.find? g.key with
  | some tr => exact h.connectOrReturn ht g tr
  | none =>
    have hcreated : Running T t (atLock .inside l) (n + 1) (s.create g.key config) :=
      h.congr rfl rfl (h.answered.create g.key config) (background_create s g.key config)
    have hconnect : (s.create g.key config).connectOrReturn t g l s.nextTransport =
        (s.create g.key config).beginConnect t g l s.nextTransport := by
      simp [Pool.connectOrReturn, Pool.cleanupBgTask]
    show Suspended T (n + 6) ((s.create g.key config).connectOrReturn t g l s.nextTransport)
    rw [hconnect]
    exact hcreated.beginConnect ht g s.nextTransport

/-- The loop of `disconnect`. It waits only after it has taken an entry out. -/
theorem closeKeys (all : Bool) (keys : List SessionKey) (h : Running T t (fun _ => .outside) n s)
    (ht : t ∈ T) : Suspended T n (Pool.closeKeys t all keys s) := by
  induction keys generalizing s with
  | nil => exact h.setTask ht rfl trivial (Nat.zero_add n).le
  | cons key rest ih =>
    have htaken : Running T t (fun _ => .outside) n (s.takeOut key) :=
      h.congr (m := 0) rfl rfl (h.answered.takeOut key) (background_takeOut s key)
    unfold Pool.closeKeys
    cases hfind : s.find? key with
    | none => exact ih htaken
    | some tr =>
      dsimp only
      split
      · have hpaid : Running T t (fun _ => .outside) (n - 1) (s.takeOut key) := by
          refine ⟨htaken.serving, htaken.answered, ?_⟩
          have hrest := h.rest
          have hlt := background_takeOut_lt hfind
          unfold restWork at hrest ⊢
          rw [show (s.takeOut key).task = s.task from rfl]
          omega
        have hpos : 1 ≤ n := by
          have hrest := h.rest
          have hlt := background_takeOut_lt hfind
          unfold restWork at hrest
          omega
        have hset := hpaid.setTransport tr
          { (s.takeOut key).transport tr with state := .disconnecting }
          (htaken.answered.bgTask tr)
        refine hset.cleanupBgTask ht (fun s' hs' => ?_) (fun _ => rfl) (fun _ => ?_)
          fun _ _ ho => ho
        · have hmore : Running T t (fun _ => .outside) n s' :=
            ⟨hs'.serving, hs'.answered, hs'.rest.trans (Nat.sub_le n 1)⟩
          exact ih (hmore.setTransport tr _ (hmore.answered.bgTask tr))
        · simp only [Task.work]
          omega
      · exact ih htaken

theorem lockOf (h : Running T t p n s) {key : SessionKey} {s₀ : Pool} {l : LockId}
    (hlock : s.lockOf key = (s₀, l)) : Running T t p n s₀ := by
  unfold Pool.lockOf at hlock
  split at hlock
  · obtain ⟨rfl, -⟩ := Prod.mk.inj hlock
    exact h
  · obtain ⟨rfl, -⟩ := Prod.mk.inj hlock
    exact h.congr (m := 0) rfl rfl (h.answered.of_eq rfl rfl rfl rfl) le_rfl

theorem startGet (h : Running T t (fun _ => .outside) n s) (ht : t ∈ T) (g : GetSession) :
    Suspended T (n + 7) (s.startGet configs t g) := by
  rcases s.startGet_cases configs t g with ⟨e, -, heq⟩ | ⟨s₀, l, config, hlock, -, hcases⟩
  · rw [heq]
    exact h.setTask ht rfl trivial (by simp [Task.work])
  · have hrun := h.lockOf hlock
    rcases hcases with ⟨hfree, heq⟩ | ⟨-, heq⟩
    · rw [heq]
      have hentered := (hrun.setLock (hrun.serving.hold hfree)).enter ht g config
      exact ⟨hentered.disciplined, hentered.answered, hentered.work.trans (Nat.le_succ _)⟩
    · rw [heq]
      exact (hrun.setLock hrun.serving.wait).setTask ht rfl trivial (by
        simp only [Task.work]
        omega)

end Running

namespace Suspended

variable {T : Finset TaskId} {n : ℕ}

theorem running (h : Suspended T n s) (t : TaskId) {p : LockId → Place}
    (hp : (s.task t).place = p) : Running T t p (s.restWork T t) s :=
  ⟨hp ▸ h.disciplined.serving t, h.answered, le_rfl⟩

theorem weaken {m : ℕ} (h : Suspended T n s) (hnm : n ≤ m) : Suspended T m s :=
  ⟨h.disciplined, h.answered, h.work.trans hnm⟩

/-- At least one step of the work is done. -/
theorem resumes (h : Suspended T n s) (ht : t ∈ T) (hr : s.Resumes t s') :
    ∃ m, m + 1 ≤ s.work T ∧ Suspended T m s' := by
  have hwork := work_eq ht s
  cases hr with
  | @waiting g config l htask hturn =>
    have hrun := h.running t (p := atLock .waiting l) (by rw [htask]; rfl)
    have hentered := (hrun.setLock (hrun.serving.takeTurn hturn)).enter ht g config
    rw [htask, Task.work] at hwork
    exact ⟨_, by omega, hentered⟩
  | @clearing g l tr o htask hdone =>
    have hrun := h.running t (p := atLock .inside l) (by rw [htask]; rfl)
    have hbegun := (hrun.setTransport tr { s.transport tr with bgTask := none } nofun).beginConnect
      ht g tr
    rw [htask, Task.work] at hwork
    exact ⟨_, by omega, hbegun⟩
  | @connected g l tr o htask hready herror =>
    have hrun := h.running t (p := atLock .inside l) (by rw [htask]; rfl)
    rw [htask, Task.work] at hwork
    exact ⟨_, by omega, hrun.finishGet ht g tr⟩
  | @failed g l tr o e htask hready herror =>
    have hrun := h.running t (p := atLock .inside l) (by rw [htask]; rfl)
    rw [htask, Task.work] at hwork
    refine ⟨s.restWork T t + 1, by omega, ?_⟩
    refine hrun.cleanupBgTask ht (fun s' hs' => ?_) (fun _ => rfl) (fun _ => ?_) fun _ _ ho => ho
    · exact (hs'.abortConnect ht g tr e).weaken (Nat.le_succ _)
    · exact (Nat.add_comm 1 _).le
  | @failing g l tr o e htask hdone =>
    have hrun := h.running t (p := atLock .inside l) (by rw [htask]; rfl)
    have hended := (hrun.setTransport tr { s.transport tr with bgTask := none } nofun).abortConnect
      ht g tr e
    rw [htask, Task.work] at hwork
    exact ⟨_, by omega, hended⟩
  | @closing all tr o rest htask hdone =>
    have hrun := h.running t (p := fun _ => .outside) (by rw [htask]; rfl)
    have hcleared := hrun.setTransport tr { s.transport tr with bgTask := none } nofun
    have hclosed := (hcleared.setTransport tr
      { (s.clearBgTask tr).transport tr with session := none, state := .disconnected }
      (hcleared.answered.bgTask tr)).closeKeys all rest ht
    rw [htask, Task.work] at hwork
    exact ⟨_, by omega, hclosed⟩

theorem setTransport (h : Suspended T n s) (tr : TransportId) (y : MCPTransport)
    (hy : y.bgTask = (s.transport tr).bgTask) : Suspended T n (s.setTransport tr y) := by
  refine ⟨h.disciplined, h.answered.setTransport fun o ho => ?_, h.work⟩
  rw [hy] at ho
  exact h.answered.bgTask tr o ho

/-- An owner takes a step, and owes less than before. -/
theorem setOwner (h : Suspended T n s) (o : OwnerId) (x : Owner)
    (hx : x.work < (s.owner o).work)
    (hending : (s.owner o).stopRequested = true → x.stopRequested = true)
    (hbeginning : (s.owner o).phase = .connecting ∨ (s.owner o).ready = true → x.ready = true) :
    ∃ m, m + 1 ≤ s.work T ∧ Suspended T m (s.setOwner o x) := by
  have ho : (s.owner o).phase ≠ .done := by
    intro hdone
    unfold Owner.work at hx
    rw [hdone] at hx
    exact absurd hx (Nat.not_lt_zero _)
  have hlt := h.answered.owner o ho
  have hkeeps : s.KeepsOwing (s.setOwner o x) :=
    keepsOwing_setOwner (fun hor => .inr (hending (hor.resolve_left ho)))
      fun hor => .inr (hbeginning hor)
  have hbackground : (s.setOwner o x).background + (s.owner o).work = s.background + x.work :=
    background_setOwner hlt
  have hset := h.answered.setOwner hkeeps fun _ => hlt
  refine ⟨(s.setOwner o x).work T, ?_, h.disciplined, hset, le_rfl⟩
  show totalWork Task.work T s.task + (s.setOwner o x).background + 1 ≤
    totalWork Task.work T s.task + s.background
  omega

/-- A step pays for itself, from what is left to do or from what a new call brings in. -/
theorem step (h : Suspended T n s) {a : PoolAction} (hT : ∀ t, a.task? = some t → t ∈ T)
    (hst : step configs s a = some s') :
    Suspended T (s'.work T) s' ∧ s'.work T + a.goesOn ≤ s.work T + a.cost := by
  have hdone : ∀ m, Suspended T m s' → m + a.goesOn ≤ s.work T + a.cost →
      Suspended T (s'.work T) s' ∧ s'.work T + a.goesOn ≤ s.work T + a.cost := by
    intro m hm hle
    have hwork := hm.work
    exact ⟨⟨hm.disciplined, hm.answered, le_rfl⟩, by omega⟩
  have hidle : ∀ t, a.task? = some t → ¬ (s.task t).pending → t ∈ T ∧
      Running T t (fun _ => .outside) (s.work T) s := by
    intro t ht hpending
    have hnot : (s.task t).pending = false := by simpa using hpending
    have hwork := work_eq (hT t ht) s
    rw [Task.work_of_not_pending hnot] at hwork
    have hrun := h.running t (Task.place_of_not_pending hnot)
    exact ⟨hT t ht, hrun.serving, hrun.answered, by omega⟩
  cases steps_of_step hst with
  | @getSession t g hpending =>
    obtain ⟨ht, hrun⟩ := hidle t rfl hpending
    exact hdone _ (hrun.startGet ht g) le_rfl
  | @disconnect t serverName hpending =>
    obtain ⟨ht, hrun⟩ := hidle t rfl hpending
    exact hdone _ (hrun.closeKeys false _ ht) le_rfl
  | @disconnectAll t hpending =>
    obtain ⟨ht, hrun⟩ := hidle t rfl hpending
    exact hdone _ (hrun.closeKeys true _ ht) le_rfl
  | @resume t s' hr =>
    obtain ⟨m, hm, hsuspended⟩ := h.resumes (hT t rfl) hr
    exact hdone m hsuspended hm
  | @ownerConnects o hphase =>
    obtain ⟨m, hm, hsuspended⟩ := h.setOwner o { s.owner o with
      ready := true, phase := if (s.owner o).stopRequested then .closing else .serving }
      (by
        unfold Owner.work
        rw [hphase]
        dsimp only
        split <;> simp [OwnerPhase.work]) id fun _ => rfl
    exact hdone m (hsuspended.setTransport (s.owner o).transport _ rfl) hm
  | @ownerFails o e hphase =>
    obtain ⟨m, hm, hsuspended⟩ := h.setOwner o
      { s.owner o with ready := true, error := some e, phase := .closing }
      (by simp [Owner.work, OwnerPhase.work, hphase]) id fun _ => rfl
    exact hdone m (hsuspended.setTransport (s.owner o).transport _ rfl) hm
  | @ownerEnds o hphase =>
    have hready : (s.owner o).phase = .connecting ∨ (s.owner o).ready = true →
        (s.owner o).ready = true := by simp [hphase]
    obtain ⟨m, hm, hsuspended⟩ := h.setOwner o { s.owner o with phase := .closing }
      (by simp [Owner.work, OwnerPhase.work, hphase]) id hready
    exact hdone m (hsuspended.setTransport (s.owner o).transport _ rfl) hm
  | @ownerCloses o hphase =>
    have hready : (s.owner o).phase = .connecting ∨ (s.owner o).ready = true →
        (s.owner o).ready = true := by simp [hphase]
    obtain ⟨m, hm, hsuspended⟩ := h.setOwner o { s.owner o with phase := .done }
      (by simp [Owner.work, OwnerPhase.work, hphase]) id hready
    exact hdone m hsuspended hm

theorem suspended_empty (T : Finset TaskId) : Suspended T 0 {} where
  disciplined l := AsyncLock.serves_empty
  answered := ⟨fun _ => trivial, nofun, fun o ho => absurd rfl ho⟩
  work := by
    show Pool.work T {} ≤ 0
    simp [Pool.work, background, totalWork, Task.work]

/-- Where nothing that is owed can be done, no call is pending: a task in a lock waits for an owner
that still owes it an answer, and a task before a lock waits for the task in it. -/
theorem not_pending_of_settled (h : Suspended T n s) (hsettled : s.Settled configs) (t : TaskId) :
    (s.task t).pending = false := by
  have hended : ∀ o, s.Ending o → (s.owner o).phase = .done := by
    intro o ho
    cases hphase : (s.owner o).phase with
    | done => rfl
    | connecting =>
      have hstep := hsettled (.ownerConnects o) trivial
      simp [Pool.step, hphase] at hstep
    | serving =>
      have hstop : (s.owner o).stopRequested = true := ho.2.resolve_left (by simp [hphase])
      have hstep := hsettled (.ownerEnds o) hstop
      simp [Pool.step, hphase] at hstep
    | closing =>
      have hstep := hsettled (.ownerCloses o) trivial
      simp [Pool.step, hphase] at hstep
  have hready : ∀ o, s.Beginning o → (s.owner o).ready = true := by
    intro o ho
    refine ho.2.resolve_left fun hphase => ?_
    have hstep := hsettled (.ownerConnects o) trivial
    simp [Pool.step, hphase] at hstep
  have hresume : ∀ t, s.resume t = none := fun t => hsettled (.resume t) trivial
  have hconnect : ∀ t, (s.task t).connect = none := by
    intro t
    have hnone := hresume t
    have hbacked := h.answered.task t
    unfold resume at hnone
    cases htask : s.task t with
    | clearing g l tr o =>
      rw [htask] at hnone hbacked
      simp [hended o hbacked] at hnone
    | connecting g l tr o =>
      rw [htask] at hnone hbacked
      cases herror : (s.owner o).error <;> simp [hready o hbacked, herror] at hnone
    | failing g l tr o e =>
      rw [htask] at hnone hbacked
      simp [hended o hbacked] at hnone
    | _ => rfl
  cases htask : s.task t with
  | idle => rfl
  | returned g o => rfl
  | raised g e => rfl
  | closed all => rfl
  | clearing g l tr o => exact absurd (hconnect t) (by simp [htask, Task.connect])
  | connecting g l tr o => exact absurd (hconnect t) (by simp [htask, Task.connect])
  | failing g l tr o e => exact absurd (hconnect t) (by simp [htask, Task.connect])
  | closing all tr o rest =>
    have hnone := hresume t
    have hbacked := h.answered.task t
    unfold resume at hnone
    rw [htask] at hnone hbacked
    simp [hended o hbacked] at hnone
  | waiting g config l =>
    have hplace : (s.task t).place l = .waiting := by simp [htask, Task.place, atLock]
    rcases (h.disciplined l).progress hplace with ⟨t', hinside⟩ | ⟨t', hwaiting, hturn⟩
    · obtain ⟨g', tr, hconnected⟩ := Task.connect_of_place hinside
      rw [hconnect t'] at hconnected
      cases hconnected
    · obtain ⟨g', config', htask'⟩ := Task.eq_waiting_of_place hwaiting
      have hnone := hresume t'
      unfold resume at hnone
      simp [htask', hturn] at hnone

end Suspended

/-- Every call comes to an end. A run goes on with calls at most seven times as often as it begins a
`get_session`, and where nothing that is owed to a task can be done, no call is pending. -/
theorem calls_end (configs : List ServerConfig) (actions : List PoolAction)
    (hrun : run (step configs) {} actions = some s) :
    (actions.map PoolAction.goesOn).sum ≤ (actions.map PoolAction.cost).sum ∧
      (s.Settled configs → ∀ t, (s.task t).pending = false) := by
  let T := (actions.filterMap PoolAction.task?).toFinset
  have hT : ∀ a ∈ actions, ∀ t, a.task? = some t → t ∈ T := fun a ha t ht =>
    List.mem_toFinset.mpr (List.mem_filterMap.mpr ⟨a, ha, ht⟩)
  have hempty := Suspended.suspended_empty T
  obtain ⟨hs, hpaid⟩ := run_potential (I := fun s => Suspended T (s.work T) s) (work T)
    PoolAction.goesOn PoolAction.cost (fun s a s' ha hs hst => hs.step (hT a ha) hst)
    (hempty.weaken (Nat.zero_le _)) hrun
  refine ⟨?_, hs.not_pending_of_settled⟩
  have hzero := hempty.work
  omega

theorem shutDown_calls_end :
    ∃ s, run (step [searchServer]) {} shutDown = some s ∧
      (shutDown.map PoolAction.goesOn).sum ≤ (shutDown.map PoolAction.cost).sum ∧
      ∀ t, (s.task t).pending = false := by
  refine ⟨_, rfl, (calls_end [searchServer] shutDown rfl).1,
    (calls_end [searchServer] shutDown rfl).2 fun a ha => ?_⟩
  cases a with
  | resume t => exact match t with | 0 => rfl | 1 => rfl | _ + 2 => rfl
  | ownerConnects o => exact match o with | 0 => rfl | _ + 1 => rfl
  | ownerFails o e => exact match o with | 0 => rfl | _ + 1 => rfl
  | ownerEnds o => exact match o with | 0 => rfl | _ + 1 => rfl
  | ownerCloses o => exact match o with | 0 => rfl | _ + 1 => rfl
  | _ => exact absurd ha id

end Pool

end McpZero.Transport
