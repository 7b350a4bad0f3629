import Mathlib.Algebra.Order.Floor.Ring
import Mathlib.Logic.Function.Basic

/-!
# Keys that expire

A key is set with a time to live in whole seconds and is there until that is
over. `remaining` is the time to live that should cover a deadline checked in
whole seconds: up to and including the second `deadline`.
-/

namespace ExpiringKeys

variable {κ T : Type*} [DecidableEq κ] [Field T]

/-- The end of life of each key that was ever set. -/
abbrev Keys (κ T : Type*) := κ → Option T

def setex (m : Keys κ T) (k : κ) (now : T) (ttl : ℤ) : Keys κ T :=
  Function.update m k (some (now + ttl))

theorem setex_apply (m : Keys κ T) (k k' : κ) (now : T) (ttl : ℤ) :
    setex m k now ttl k' = if k' = k then some (now + ttl) else m k' :=
  Function.update_apply m k _ k'

variable [LinearOrder T]

def isLive (m : Keys κ T) (now : T) (k : κ) : Bool := (m k).any fun stop => now < stop

variable [IsStrictOrderedRing T] [FloorRing T]

def remaining (deadline : ℤ) (now : T) : ℤ := max (deadline - ⌊now⌋) 1

/-- A key set for the rest of its deadline ends in the last second, as far into it
as `s` was into its own. -/
theorem add_remaining_of_lt {deadline : ℤ} {s : T} (hs : ⌊s⌋ < deadline) :
    s + remaining deadline s = deadline + Int.fract s := by
  have hsplit : (⌊s⌋ : T) + Int.fract s = s := Int.floor_add_fract s
  rw [remaining, max_eq_left (by omega)]
  push_cast
  linarith

/-- Up to the deadline a key is missing from that end on, unless it was set in the
last second itself. -/
theorem lt_add_remaining_iff {deadline : ℤ} {s t : T} (hs : ⌊s⌋ ≤ deadline)
    (ht : ⌊t⌋ ≤ deadline) :
    t < s + remaining deadline s ↔ ⌊s⌋ = deadline ∨ t < deadline + Int.fract s := by
  rcases hs.lt_or_eq with hlt | heq
  · rw [add_remaining_of_lt hlt]
    exact (or_iff_right hlt.ne).symm
  · rw [remaining, heq, sub_self, max_eq_right zero_le_one, Int.cast_one]
    refine iff_of_true ?_ (Or.inl rfl)
    have hnext : t < deadline + 1 := by
      have hlt := Int.lt_floor_add_one t
      have hcast : (⌊t⌋ : T) ≤ deadline := Int.cast_le.mpr ht
      linarith
    have hle : (deadline : T) ≤ s := by
      rw [← heq]
      exact Int.floor_le s
    linarith

/-- A key set at `s` for the rest of its deadline is gone too early only in the
last second, as far into it as `s` was into its own. -/
theorem gone_before_deadline_iff {deadline : ℤ} {s t : T} (hs : ⌊s⌋ ≤ deadline) :
    ⌊t⌋ ≤ deadline ∧ ¬t < s + remaining deadline s ↔
      ⌊t⌋ = deadline ∧ ⌊s⌋ < deadline ∧ Int.fract s ≤ Int.fract t := by
  have htsplit : (⌊t⌋ : T) + Int.fract t = t := Int.floor_add_fract t
  constructor
  · intro h
    obtain ⟨hle, hgone⟩ := h
    rw [lt_add_remaining_iff hs hle, not_or, not_lt] at hgone
    have hfloor : deadline ≤ ⌊t⌋ := by
      rw [Int.le_floor]
      linarith [Int.fract_nonneg s, hgone.2]
    have he : ⌊t⌋ = deadline := le_antisymm hle hfloor
    refine ⟨he, lt_of_le_of_ne hs hgone.1, ?_⟩
    rw [he] at htsplit
    linarith [hgone.2]
  · intro h
    obtain ⟨he, hlt, hfract⟩ := h
    rw [lt_add_remaining_iff hs he.le, not_or, not_lt]
    rw [he] at htsplit
    exact ⟨he.le, hlt.ne, by linarith⟩

end ExpiringKeys
