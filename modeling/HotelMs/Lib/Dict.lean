import Mathlib.Data.List.Nodup
import Mathlib.Data.Set.Card

/-!
# Dictionaries in insertion order

Keys are distinct, which is a field. A new key goes to the end; a key that is
there keeps its place and its value.
-/

structure Dict (κ ν : Type*) where
  entries : List (κ × ν)
  distinct : (entries.map Prod.fst).Nodup

namespace Dict

variable {κ ν : Type*} [DecidableEq κ]

def empty : Dict κ ν := ⟨[], List.nodup_nil⟩

def get (d : Dict κ ν) (k : κ) : Option ν := (d.entries.find? fun e => e.1 = k).map Prod.snd

def pop (d : Dict κ ν) (k : κ) : Dict κ ν where
  entries := d.entries.filter fun e => e.1 ≠ k
  distinct := d.distinct.sublist (List.Sublist.map _ List.filter_sublist)

theorem find?_eq_some {d : Dict κ ν} {k : κ} {e : κ × ν} :
    d.entries.find? (fun e => e.1 = k) = some e ↔ e ∈ d.entries ∧ e.1 = k := by
  constructor
  · intro h
    exact ⟨List.mem_of_find?_eq_some h, by simpa using List.find?_some h⟩
  · intro h
    obtain ⟨he, hk⟩ := h
    cases hf : d.entries.find? fun e => e.1 = k with
    | none =>
      have hne := List.find?_eq_none.mp hf e he
      simp [hk] at hne
    | some e' =>
      have hk' : e'.1 = k := by simpa using List.find?_some hf
      have hsame := List.inj_on_of_nodup_map d.distinct (List.mem_of_find?_eq_some hf) he
        (hk'.trans hk.symm)
      rw [hsame]

theorem get_eq_some {d : Dict κ ν} {k : κ} {v : ν} : d.get k = some v ↔ (k, v) ∈ d.entries := by
  unfold get
  rw [Option.map_eq_some_iff]
  constructor
  · intro h
    obtain ⟨e, he, rfl⟩ := h
    obtain ⟨hmem, rfl⟩ := find?_eq_some.mp he
    exact hmem
  · intro h
    exact ⟨(k, v), find?_eq_some.mpr ⟨h, rfl⟩, rfl⟩

theorem get_eq_none {d : Dict κ ν} {k : κ} : d.get k = none ↔ k ∉ d.entries.map Prod.fst := by
  simp only [get, Option.map_eq_none_iff, List.find?_eq_none, decide_eq_true_eq, List.mem_map,
    not_exists, not_and]

/-- `setdefault`: a key that is there keeps its value. -/
def setDefault (d : Dict κ ν) (k : κ) (v : ν) : Dict κ ν :=
  if h : k ∈ d.entries.map Prod.fst then d else
    { entries := d.entries ++ [(k, v)]
      distinct := by
        rw [List.map_append, List.nodup_append]
        refine ⟨d.distinct, List.nodup_singleton _, fun a ha b hb hab => h ?_⟩
        obtain rfl : b = k := by simpa using hb
        rwa [← hab] }

theorem get_setDefault {d : Dict κ ν} {k k' : κ} {v : ν} :
    (d.setDefault k v).get k' = if k' = k then some ((d.get k).getD v) else d.get k' := by
  unfold setDefault
  split
  next hin =>
    split
    next hk =>
      subst hk
      cases hget : d.get k' with
      | none => exact absurd hin (get_eq_none.mp hget)
      | some w => rfl
    next => rfl
  next hout =>
    have hnone : d.get k = none := get_eq_none.mpr hout
    split
    next hk =>
      subst hk
      rw [hnone, get_eq_some]
      exact List.mem_append_right _ (List.mem_singleton.mpr rfl)
    next hk =>
      have hother : ¬k = k' := fun h => hk h.symm
      simp [get, List.find?_append, hother]

theorem get_pop {d : Dict κ ν} {k k' : κ} :
    (d.pop k).get k' = if k' = k then none else d.get k' := by
  split
  next hk =>
    subst hk
    rw [get_eq_none]
    simp [pop]
  next hk =>
    cases hget : d.get k' with
    | none =>
      rw [get_eq_none] at hget ⊢
      exact fun hin => hget (List.Sublist.subset (List.Sublist.map _ List.filter_sublist) hin)
    | some v =>
      rw [get_eq_some] at hget ⊢
      exact List.mem_filter.mpr ⟨hget, by simpa using hk⟩

theorem length_eq_ncard (d : Dict κ ν) : d.entries.length = {k | (d.get k).isSome}.ncard := by
  have hkeys : {k | (d.get k).isSome} = ((d.entries.map Prod.fst).toFinset : Set κ) := by
    ext k
    rw [Set.mem_ofPred_eq, List.coe_toFinset, Set.mem_ofPred_eq]
    cases hget : d.get k with
    | none => exact iff_of_false (by simp) (get_eq_none.mp hget)
    | some v => exact iff_of_true rfl (List.mem_map_of_mem (get_eq_some.mp hget))
  rw [hkeys, Set.ncard_coe_finset, List.toFinset_card_of_nodup d.distinct, List.length_map]

end Dict
