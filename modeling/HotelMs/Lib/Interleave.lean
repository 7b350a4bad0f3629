import Mathlib.Logic.Function.Basic
import HotelMs.Lib.Runs

/-!
# Tasks that take turns on shared data

Every turn lets one task do its next step, which sees the data as the turns
before it left them.
-/

namespace Interleave

open Runs

structure Shared (σ τ : Type*) where
  data : σ
  tasks : ℕ → τ

structure Turn (ε : Type*) where
  task : ℕ
  env : ε

variable {σ τ ε : Type*}

def turnStep (step : ε → σ → τ → τ × σ) (y : Shared σ τ) (e : Turn ε) : Shared σ τ where
  data := (step e.env y.data (y.tasks e.task)).2
  tasks := Function.update y.tasks e.task (step e.env y.data (y.tasks e.task)).1

/-- What holds of every task together with the data. -/
def AllTasks (P : σ → τ → Prop) (y : Shared σ τ) : Prop := ∀ i, P y.data (y.tasks i)

variable {step : ε → σ → τ → τ × σ}

theorem tasks_self (y : Shared σ τ) (e : Turn ε) :
    (turnStep step y e).tasks e.task = (step e.env y.data (y.tasks e.task)).1 :=
  Function.update_self ..

theorem tasks_of_ne (y : Shared σ τ) {e : Turn ε} {i : ℕ} (h : i ≠ e.task) :
    (turnStep step y e).tasks i = y.tasks i :=
  Function.update_of_ne h ..

/-- A turn keeps what its own step establishes and every other step leaves. -/
theorem allTasks_turnStep {P : σ → τ → Prop}
    (hown : ∀ env s t, P s t → P (step env s t).2 (step env s t).1)
    (hother : ∀ env s t u, P s t → P s u → P (step env s t).2 u) (y : Shared σ τ) (e : Turn ε)
    (h : AllTasks P y) : AllTasks P (turnStep step y e) := by
  intro i
  by_cases hi : i = e.task
  · rw [hi, tasks_self]
    exact hown e.env y.data _ (h e.task)
  · rw [tasks_of_ne y hi]
    exact hother e.env y.data _ _ (h e.task) (h i)

end Interleave
