import Mathlib.Logic.Function.Basic
import Mathlib.Data.List.Basic

/-!
# A cache in front of a store

Entries are written whole under their key and dropped by key. `Fits s k v` says
that the value `v` is a right answer for the key `k` in the store state `s`; a
cache is coherent with a state when each of its entries fits.
-/

namespace ReadThrough

variable {κ ν σ : Type*}

abbrev Cache (κ ν : Type*) := κ → Option ν

/-- `c'` holds no entry that `c` does not hold. -/
def Sub (c' c : Cache κ ν) : Prop := ∀ k v, c' k = some v → c k = some v

theorem Sub.refl (c : Cache κ ν) : Sub c c := fun _ _ h => h

theorem Sub.trans {c c' c'' : Cache κ ν} (h : Sub c'' c') (h' : Sub c' c) : Sub c'' c :=
  fun k v hv => h' k v (h k v hv)

def Coherent (Fits : σ → κ → ν → Prop) (s : σ) (c : Cache κ ν) : Prop :=
  ∀ k v, c k = some v → Fits s k v

variable {Fits : σ → κ → ν → Prop} {s s' : σ} {c c' : Cache κ ν}

theorem Coherent.of_sub (h : Coherent Fits s c) (hsub : Sub c' c) : Coherent Fits s c' :=
  fun k v hv => h k v (hsub k v hv)

/-- A write of the store keeps the cache coherent exactly when `Kept` holds of
each entry left, where `Kept` says that a fitting entry goes on to fit. -/
theorem Coherent.write_iff (h : Coherent Fits s c) (hsub : Sub c' c) (Kept : κ → ν → Prop)
    (hkept : ∀ k v, c' k = some v → Fits s k v → (Fits s' k v ↔ Kept k v)) :
    Coherent Fits s' c' ↔ ∀ k v, c' k = some v → Kept k v := by
  constructor
  · intro h' k v hv
    exact (hkept k v hv (h k v (hsub k v hv))).mp (h' k v hv)
  · intro h' k v hv
    exact (hkept k v hv (h k v (hsub k v hv))).mpr (h' k v hv)

variable [DecidableEq κ]

def put (c : Cache κ ν) (k : κ) (v : ν) : Cache κ ν := Function.update c k (some v)

def drop (c : Cache κ ν) (k : κ) : Cache κ ν := Function.update c k none

theorem put_apply (c : Cache κ ν) (k k' : κ) (v : ν) :
    put c k v k' = if k' = k then some v else c k' :=
  Function.update_apply c k (some v) k'

theorem drop_apply (c : Cache κ ν) (k k' : κ) : drop c k k' = if k' = k then none else c k' :=
  Function.update_apply c k none k'

theorem drop_eq_none {k k' : κ} : drop c k k' = none ↔ k' = k ∨ c k' = none := by
  rw [drop_apply]
  split
  next h => simp [h]
  next h => simp [h]

theorem drop_sub (c : Cache κ ν) (k : κ) : Sub (drop c k) c := by
  intro k' v h
  rw [drop_apply] at h
  split at h
  · cases h
  · exact h

theorem Coherent.put (h : Coherent Fits s c) {k : κ} {v : ν} (hv : Fits s k v) :
    Coherent Fits s (put c k v) := by
  intro k' v' hk
  rw [put_apply] at hk
  split at hk
  next he =>
    cases hk
    rw [he]
    exact hv
  next he => exact h k' v' hk

end ReadThrough
