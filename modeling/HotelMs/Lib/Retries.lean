import Mathlib.Data.Nat.Find

/-!
# Tasks that are run again when they fail

An attempt returns or it asks for another one, which is granted a fixed number
of times. A worker is any way of running tasks with these two laws.
-/

namespace Retries

structure Report (β : Type*) where
  result : Option β
  attempts : ℕ

/-- Attempts are numbered from zero; `none` asks for a retry. -/
structure RetryWorker (β : Type*) where
  work : ℕ → (ℕ → Option β) → Report β
  work_returned : ∀ {retries attempt k b}, k ≤ retries → (∀ j < k, attempt j = none) →
    attempt k = some b → work retries attempt = ⟨some b, k + 1⟩
  work_exhausted : ∀ {retries attempt}, (∀ j ≤ retries, attempt j = none) →
    work retries attempt = ⟨none, retries + 1⟩

section

variable {β : Type*}

/-- The attempt `n`, with `left` retries to come. -/
def attemptsFrom (attempt : ℕ → Option β) : ℕ → ℕ → Report β
  | 0, n => ⟨attempt n, n + 1⟩
  | left + 1, n =>
    match attempt n with
    | some b => ⟨some b, n + 1⟩
    | none => attemptsFrom attempt left (n + 1)

theorem attemptsFrom_returned {attempt : ℕ → Option β} {left n k : ℕ} {b : β} (hk : k ≤ left)
    (hbefore : ∀ j < k, attempt (n + j) = none) (hb : attempt (n + k) = some b) :
    attemptsFrom attempt left n = ⟨some b, n + k + 1⟩ := by
  induction left generalizing n k with
  | zero =>
    obtain rfl := Nat.le_zero.mp hk
    rw [attemptsFrom, ← hb]
    rfl
  | succ left ih =>
    cases k with
    | zero =>
      rw [Nat.add_zero] at hb
      rw [attemptsFrom, hb, Nat.add_zero]
    | succ k =>
      have hfirst : attempt n = none := hbefore 0 (Nat.succ_pos k)
      have hrest : ∀ j < k, attempt (n + 1 + j) = none := by
        intro j hj
        rw [Nat.add_right_comm]
        exact hbefore (j + 1) (Nat.succ_lt_succ hj)
      have hnext : n + (k + 1) = n + 1 + k := by omega
      rw [hnext] at hb ⊢
      rw [attemptsFrom, hfirst]
      exact ih (Nat.le_of_succ_le_succ hk) hrest hb

theorem attemptsFrom_exhausted {attempt : ℕ → Option β} {left n : ℕ}
    (h : ∀ j ≤ left, attempt (n + j) = none) :
    attemptsFrom attempt left n = ⟨none, n + left + 1⟩ := by
  induction left generalizing n with
  | zero =>
    have hlast : attempt n = none := h 0 le_rfl
    rw [attemptsFrom, hlast, Nat.add_zero]
  | succ left ih =>
    have hfirst : attempt n = none := h 0 (Nat.zero_le _)
    have hrest : ∀ j ≤ left, attempt (n + 1 + j) = none := by
      intro j hj
      rw [Nat.add_right_comm]
      exact h (j + 1) (Nat.succ_le_succ hj)
    have hnext : n + (left + 1) = n + 1 + left := by omega
    rw [hnext, attemptsFrom, hfirst]
    exact ih hrest

/-- The worker that tries again at once. -/
def loopWorker (β : Type*) : RetryWorker β where
  work retries attempt := attemptsFrom attempt retries 0
  work_returned hk hbefore hb := by
    have h := attemptsFrom_returned (n := 0) hk (by simpa using hbefore) (by simpa using hb)
    rwa [Nat.zero_add] at h
  work_exhausted h := by
    have hall := attemptsFrom_exhausted (n := 0) (by simpa using h)
    rwa [Nat.zero_add] at hall

/-- A task ends with its first attempt that returns, or with its last one. -/
theorem RetryWorker.work_cases (w : RetryWorker β) (retries : ℕ) (attempt : ℕ → Option β) :
    (∃ k b, k ≤ retries ∧ (∀ j < k, attempt j = none) ∧ attempt k = some b ∧
      w.work retries attempt = ⟨some b, k + 1⟩) ∨
    (∀ j ≤ retries, attempt j = none) ∧ w.work retries attempt = ⟨none, retries + 1⟩ := by
  by_cases hall : ∀ j ≤ retries, attempt j = none
  · exact Or.inr ⟨hall, w.work_exhausted hall⟩
  · left
    have hex : ∃ j, j ≤ retries ∧ attempt j ≠ none := by
      by_contra hno
      exact hall fun j hj => by_contra fun hne => hno ⟨j, hj, hne⟩
    classical
    obtain ⟨hk, hne⟩ := Nat.find_spec hex
    obtain ⟨b, hb⟩ := Option.ne_none_iff_exists'.mp hne
    have hbefore : ∀ j < Nat.find hex, attempt j = none := by
      intro j hj
      by_contra hj'
      exact Nat.find_min hex hj ⟨Nat.le_trans (Nat.le_of_lt hj) hk, hj'⟩
    exact ⟨_, b, hk, hbefore, hb, w.work_returned hk hbefore hb⟩

end

end Retries
