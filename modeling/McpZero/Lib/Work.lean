import Mathlib.Algebra.BigOperators.Group.Finset.Basic
import Mathlib.Algebra.Order.Ring.Nat
import Mathlib.Logic.Function.Basic

/-! The work that is left to a finite set of tasks, each with its own share. -/
namespace McpZero.Lib

variable {ι τ : Type} {T : Finset ι} {i : ι}

/-- The sum of what is left to the tasks of `T`. -/
def totalWork (left : τ → ℕ) (T : Finset ι) (task : ι → τ) : ℕ := ∑ i ∈ T, left (task i)

theorem totalWork_eq_zero {left : τ → ℕ} {task : ι → τ} (h : ∀ i, left (task i) = 0) :
    totalWork left T task = 0 := Finset.sum_eq_zero fun i _ => h i

theorem totalWork_congr {left : τ → ℕ} {task task' : ι → τ}
    (h : ∀ i ∈ T, left (task' i) = left (task i)) :
    totalWork left T task' = totalWork left T task := Finset.sum_congr rfl h

variable [DecidableEq ι]

/-- The share of one task, and what is left to the others. -/
theorem totalWork_eq_add (left : τ → ℕ) (hi : i ∈ T) (task : ι → τ) :
    totalWork left T task = left (task i) + totalWork left (T.erase i) task :=
  (Finset.add_sum_erase T _ hi).symm

/-- A task changes its share, and that of no other. -/
theorem totalWork_update (left : τ → ℕ) (hi : i ∈ T) (task : ι → τ) (x : τ) :
    totalWork left T (Function.update task i x) + left (task i) =
      totalWork left T task + left x := by
  have hothers : totalWork left (T.erase i) (Function.update task i x) =
      totalWork left (T.erase i) task :=
    totalWork_congr fun j hj => by rw [Function.update_of_ne (Finset.mem_erase.mp hj).1]
  have hbefore := totalWork_eq_add left hi task
  have hafter := totalWork_eq_add left hi (Function.update task i x)
  rw [Function.update_self, hothers] at hafter
  omega

/-- A step that changes one task of `T` at most pays for itself, if the task does. -/
theorem totalWork_of_update {left : τ → ℕ} {task task' : ι → τ} {paid income : ℕ}
    (h : task' = task ∧ paid = 0 ∨
      ∃ i x, i ∈ T ∧ task' = Function.update task i x ∧ left x + paid ≤ left (task i) + income) :
    totalWork left T task' + paid ≤ totalWork left T task + income := by
  rcases h with ⟨rfl, rfl⟩ | ⟨i, x, hi, rfl, hpaid⟩
  · omega
  · have hupdate := totalWork_update left hi task x
    omega

end McpZero.Lib
