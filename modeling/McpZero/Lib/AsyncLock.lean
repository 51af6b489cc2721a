import Mathlib.Data.List.Nodup
import Mathlib.Logic.Function.Basic
import Mathlib.Tactic.Common

/-! The lock of `asyncio`: one holder at a time, waiters in the order of arrival. -/
namespace McpZero.Lib

abbrev TaskId := ℕ
abbrev LockId := ℕ

/-- A released lock stays free until its first waiter runs again; until then a newcomer
queues behind the waiters. -/
structure AsyncLock (τ : Type) where
  holder : Option τ := none
  waiters : List τ := []

/-- Where a task stands with a lock. -/
inductive Place
  | outside
  | waiting
  | inside
  deriving DecidableEq

namespace AsyncLock

variable {τ : Type}

/-- Whether `acquire` returns without waiting. -/
def free (l : AsyncLock τ) : Bool := l.holder.isNone && l.waiters.isEmpty

def hold (l : AsyncLock τ) (t : τ) : AsyncLock τ := { l with holder := some t }

def wait (l : AsyncLock τ) (t : τ) : AsyncLock τ := { l with waiters := l.waiters ++ [t] }

/-- Whether it is the turn of the waiter `t`. -/
def turn [DecidableEq τ] (l : AsyncLock τ) (t : τ) : Bool :=
  l.holder.isNone && decide (l.waiters.head? = some t)

/-- The first waiter takes the lock. -/
def takeTurn (l : AsyncLock τ) (t : τ) : AsyncLock τ := ⟨some t, l.waiters.tail⟩

def release (l : AsyncLock τ) : AsyncLock τ := { l with holder := none }

@[simp] theorem holder_hold (l : AsyncLock τ) (t : τ) : (l.hold t).holder = some t := rfl

@[simp] theorem holder_wait (l : AsyncLock τ) (t : τ) : (l.wait t).holder = l.holder := rfl

@[simp] theorem holder_takeTurn (l : AsyncLock τ) (t : τ) :
    (l.takeTurn t).holder = some t := rfl

@[simp] theorem holder_release (l : AsyncLock τ) : l.release.holder = none := rfl

theorem holder_of_free {l : AsyncLock τ} (h : l.free) : l.holder = none := by
  unfold free at h
  simp_all

theorem holder_of_turn [DecidableEq τ] {l : AsyncLock τ} {t : τ} (h : l.turn t) :
    l.holder = none := by
  unfold turn at h
  simp_all

theorem waiters_of_turn [DecidableEq τ] {l : AsyncLock τ} {t : τ} (h : l.turn t) :
    l.waiters = t :: (l.takeTurn t).waiters := by
  have hhead : l.waiters.head? = some t := by
    unfold turn at h
    simp_all
  obtain ⟨rest, hwaiters⟩ := List.head?_eq_some_iff.mp hhead
  simp [takeTurn, hwaiters]

/-- The lock agrees with the places of the tasks: its holder is the task inside, and each task
that waits stands in the queue once. -/
structure Serves (l : AsyncLock τ) (place : τ → Place) : Prop where
  holder (t : τ) : l.holder = some t ↔ place t = .inside
  waiters (t : τ) : t ∈ l.waiters ↔ place t = .waiting
  nodup : l.waiters.Nodup

theorem serves_empty : ({} : AsyncLock τ).Serves fun _ => .outside where
  holder t := by simp
  waiters t := by simp
  nodup := List.nodup_nil

namespace Serves

variable {l : AsyncLock τ} {place : τ → Place} {s t : τ}

/-- Mutual exclusion. -/
theorem unique (h : l.Serves place) (hs : place s = .inside) (ht : place t = .inside) :
    s = t := by
  have hholder := (h.holder s).mpr hs
  rw [(h.holder t).mpr ht] at hholder
  exact (Option.some.inj hholder).symm

theorem outside_of_free (h : l.Serves place) (hfree : l.free) : place t = .outside := by
  obtain ⟨hholder, hwaiters⟩ : l.holder = none ∧ l.waiters = [] := by simpa [free] using hfree
  cases hplace : place t with
  | outside => rfl
  | waiting =>
    have hmem := (h.waiters t).mpr hplace
    rw [hwaiters] at hmem
    exact absurd hmem List.not_mem_nil
  | inside =>
    have hsome := (h.holder t).mpr hplace
    rw [hholder] at hsome
    cases hsome

/-- A task that waits does so behind the task inside, or behind a first waiter whose turn it
is. -/
theorem progress [DecidableEq τ] (h : l.Serves place) (ht : place t = .waiting) :
    (∃ s, place s = .inside) ∨ ∃ s, place s = .waiting ∧ l.turn s := by
  cases hholder : l.holder with
  | some s => exact .inl ⟨s, (h.holder s).mp hholder⟩
  | none =>
    have hmem := (h.waiters t).mpr ht
    cases hwaiters : l.waiters with
    | nil =>
      rw [hwaiters] at hmem
      exact absurd hmem List.not_mem_nil
    | cons s rest =>
      have hs : s ∈ l.waiters := by
        rw [hwaiters]
        exact List.mem_cons_self
      exact .inr ⟨s, (h.waiters s).mp hs, by simp [turn, hholder, hwaiters]⟩

variable [DecidableEq τ]

theorem hold (h : l.Serves place) (hfree : l.free) :
    (l.hold t).Serves (Function.update place t .inside) where
  holder s := by
    rw [holder_hold]
    by_cases hst : s = t
    · simp [hst]
    · simp [hst, Ne.symm hst, h.outside_of_free hfree]
  waiters s := by
    have hwaiters : (l.hold t).waiters = [] := by
      have hnil : l.holder = none ∧ l.waiters = [] := by simpa [free] using hfree
      exact hnil.2
    rw [hwaiters]
    by_cases hst : s = t
    · simp [hst]
    · simp [hst, h.outside_of_free hfree]
  nodup := h.nodup

theorem wait (h : l.Serves place) (ht : place t = .outside) :
    (l.wait t).Serves (Function.update place t .waiting) where
  holder s := by
    rw [holder_wait, h.holder]
    by_cases hst : s = t
    · simp [hst, ht]
    · simp [hst]
  waiters s := by
    have hmem : s ∈ (l.wait t).waiters ↔ s ∈ l.waiters ∨ s = t := by simp [AsyncLock.wait]
    rw [hmem, h.waiters]
    by_cases hst : s = t
    · simp [hst]
    · simp [hst]
  nodup := by
    have hnew : t ∉ l.waiters := by
      intro hmem
      have hplace := (h.waiters t).mp hmem
      rw [ht] at hplace
      cases hplace
    show (l.waiters ++ [t]).Nodup
    exact List.Nodup.append h.nodup (List.nodup_singleton t) (by simpa using hnew)

theorem takeTurn (h : l.Serves place) (hturn : l.turn t) :
    (l.takeTurn t).Serves (Function.update place t .inside) := by
  have hholder := holder_of_turn hturn
  have hwaiters := waiters_of_turn hturn
  have hnodup := h.nodup
  rw [hwaiters] at hnodup
  obtain ⟨hnew, hrest⟩ := List.nodup_cons.mp hnodup
  refine ⟨fun s => ?_, fun s => ?_, hrest⟩
  · rw [holder_takeTurn]
    by_cases hst : s = t
    · simp [hst]
    · have hs : place s ≠ .inside := by
        rw [Ne, ← h.holder, hholder]
        simp
      simp [hst, Ne.symm hst, hs]
  · by_cases hst : s = t
    · simp [hst, hnew]
    · have hs : s ∈ (l.takeTurn t).waiters ↔ s ∈ l.waiters := by
        rw [hwaiters]
        simp [hst]
      rw [Function.update_of_ne hst, hs, h.waiters]

theorem release (h : l.Serves place) (ht : place t = .inside) :
    l.release.Serves (Function.update place t .outside) where
  holder s := by
    rw [holder_release]
    by_cases hst : s = t
    · simp [hst]
    · have hs : place s ≠ .inside := fun hs => hst (h.unique hs ht)
      simp [hst, hs]
  waiters s := by
    show s ∈ l.waiters ↔ _
    rw [h.waiters]
    by_cases hst : s = t
    · simp [hst, ht]
    · simp [hst]
  nodup := h.nodup

end Serves

end AsyncLock

end McpZero.Lib
