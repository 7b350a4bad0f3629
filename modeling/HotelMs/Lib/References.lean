import HotelMs.Lib.Tables
import Mathlib.Data.Set.Basic

/-!
# References between the tables of a store

A row may refer to rows of other tables. A store is closed when every reference
leads to a row that is there. The rules say what a statement has to check for
that: an insert and an update what the new row refers to, a delete that nothing
refers to what it drops.
-/

namespace References

open Tables

/-! ### Stores -/

/-- For a kind of store with tables `ο` and rows named by `ν`: what the rows of a
table refer to, and which rows are there. -/
structure Schema (σ ο ν : Type*) where
  links : σ → ο → Set ν
  present : σ → Set ν

namespace Schema

variable {σ ο ν : Type*} {S : Schema σ ο ν} {s s' : σ}

def Closed (S : Schema σ ο ν) (s : σ) : Prop := ∀ o, S.links s o ⊆ S.present s

/-- Each reference is an old one or one that was looked up, and what is still
referred to stays. -/
theorem Closed.step (h : S.Closed s) (hadded : ∀ o, S.links s' o ⊆ S.links s o ∪ S.present s)
    (hkept : ∀ o, ∀ p ∈ S.links s' o, p ∈ S.present s → p ∈ S.present s') : S.Closed s' := by
  intro o p hp
  have hold : p ∈ S.present s := by
    rcases hadded o hp with hlink | hseen
    · exact h o hlink
    · exact hseen
  exact hkept o p hp hold

end Schema

/-! ### Tables -/

/-- The rows that a row refers to. Its own key is none of its references. -/
class Linked (ν : outParam Type*) (α : Type*) [Keyed α] where
  links : α → List ν
  links_stamp : ∀ n a, links (Keyed.stamp n a) = links a

section

variable {ν α : Type*} [Keyed α] [Linked ν α] (t : Table α)

def links : Set ν := {p | ∃ r ∈ t.rows, p ∈ Linked.links r}

def keys (t : Table α) : Set ℤ := {k | ∃ r ∈ t.rows, Keyed.key r = k}

theorem mem_keys {k : ℤ} : k ∈ keys t ↔ (t.get k).isSome = true := by
  rw [Option.isSome_iff_exists]
  constructor
  · intro h
    obtain ⟨r, hr, hk⟩ := h
    exact ⟨r, (Table.get_eq_some _).mpr ⟨hr, hk⟩⟩
  · intro h
    obtain ⟨r, hr⟩ := h
    exact ⟨r, (Table.get_eq_some _).mp hr⟩

theorem links_insert_subset {a : α} {seen : Set ν} (ha : ∀ p ∈ Linked.links a, p ∈ seen) :
    links (t.insert a) ⊆ links t ∪ seen := by
  intro p hp
  obtain ⟨r, hr, hlink⟩ := hp
  rcases (Table.mem_insert _).mp hr with hr | rfl
  · exact Or.inl ⟨r, hr, hlink⟩
  · rw [Linked.links_stamp] at hlink
    exact Or.inr (ha p hlink)

theorem links_updateWhere_subset {q : α → Bool} {f : α → α} {seen : Set ν}
    (hf : ∀ r ∈ t.rows, q r = true → ∀ p ∈ Linked.links (f r), p ∈ Linked.links r ∨ p ∈ seen) :
    links (t.updateWhere q f) ⊆ links t ∪ seen := by
  intro p hp
  obtain ⟨r, hr, hlink⟩ := hp
  obtain ⟨r₀, hr₀, rfl⟩ := List.mem_map.mp hr
  split at hlink
  next hq =>
    rw [Linked.links_stamp] at hlink
    rcases hf r₀ hr₀ hq p hlink with hold | hseen
    · exact Or.inl ⟨r₀, hr₀, hold⟩
    · exact Or.inr hseen
  next => exact Or.inl ⟨r₀, hr₀, hlink⟩

theorem links_update_subset {k : ℤ} {f : α → α} {seen : Set ν}
    (hf : ∀ r, t.get k = some r → ∀ p ∈ Linked.links (f r), p ∈ Linked.links r ∨ p ∈ seen) :
    links (t.update k f) ⊆ links t ∪ seen :=
  links_updateWhere_subset t fun r hr hk =>
    hf r ((Table.get_eq_some _).mpr ⟨hr, of_decide_eq_true hk⟩)

theorem links_deleteWhere_subset {q : α → Bool} : links (t.deleteWhere q) ⊆ links t := by
  intro p hp
  obtain ⟨r, hr, hlink⟩ := hp
  exact ⟨r, ((Table.mem_deleteWhere _).mp hr).1, hlink⟩

/-- Nothing refers to a row when no row has the value that would. -/
theorem unreferenced {P : α → Prop} {p : ν} (hfree : ∀ r ∈ t.rows, ¬P r)
    (hlink : ∀ r, p ∈ Linked.links r → P r) : p ∉ links t := by
  intro hp
  obtain ⟨r, hr, hrefers⟩ := hp
  exact hfree r hr (hlink r hrefers)

omit [Linked ν α]

theorem keys_subset_insert {a : α} : keys t ⊆ keys (t.insert a) := by
  intro k hk
  obtain ⟨r, hr, hkey⟩ := hk
  exact ⟨r, (Table.mem_insert _).mpr (Or.inl hr), hkey⟩

theorem keys_subset_updateWhere {q : α → Bool} {f : α → α} :
    keys t ⊆ keys (t.updateWhere q f) := by
  intro k hk
  obtain ⟨r, hr, hkey⟩ := hk
  refine ⟨_, List.mem_map.mpr ⟨r, hr, rfl⟩, ?_⟩
  split
  · rw [Keyed.key_stamp, hkey]
  · exact hkey

theorem mem_keys_deleteWhere {q : α → Bool} {k : ℤ} (hk : k ∈ keys t)
    (hleft : ∀ r ∈ t.rows, Keyed.key r = k → q r = false) : k ∈ keys (t.deleteWhere q) := by
  obtain ⟨r, hr, hkey⟩ := hk
  exact ⟨r, (Table.mem_deleteWhere _).mpr ⟨hr, hleft r hr hkey⟩, hkey⟩

end

/-! ### Values that no two rows share -/

section

variable {α β : Type*} [Keyed α] {t : Table α} {f : α → Option β}

theorem uniqueBy_insert (h : t.UniqueBy f) {a : α} (hf : ∀ n, f (Keyed.stamp n a) = f a)
    (hfree : (f a).isSome = true → ∀ r ∈ t.rows, f r ≠ f a) : (t.insert a).UniqueBy f := by
  rw [Table.uniqueBy_insert_iff t h, hf]
  exact hfree

/-- A row may take any value that no other row has. -/
theorem uniqueBy_update (h : t.UniqueBy f) {k : ℤ} {g : α → α}
    (hg : ∀ r, t.get k = some r →
      f (Keyed.stamp k (g r)) = f r ∨ ∀ r' ∈ t.rows, Keyed.key r' ≠ k →
        (f r').isSome = true → f r' ≠ f (Keyed.stamp k (g r))) : (t.update k g).UniqueBy f := by
  -- the row `k` against a row that was left alone
  have hapart : ∀ r, t.get k = some r → ∀ r' ∈ t.rows, Keyed.key r' ≠ k →
      (f r').isSome = true → f r' ≠ f (Keyed.stamp k (g r)) := by
    intro r hr r' hr' hne hsome heq
    rcases hg r hr with hsame | hother
    · obtain ⟨hmem, hk⟩ := (Table.get_eq_some _).mp hr
      rw [hsame] at heq
      exact hne ((congrArg Keyed.key (h r' hr' r hmem hsome heq)).trans hk)
    · exact hother r' hr' hne hsome heq
  intro r hr r' hr' hsome heq
  obtain ⟨r₀, hr₀, rfl⟩ := (Table.mem_update _).mp hr
  obtain ⟨r₁, hr₁, rfl⟩ := (Table.mem_update _).mp hr'
  by_cases hk₀ : Keyed.key r₀ = k
  · have hget₀ : t.get k = some r₀ := (Table.get_eq_some _).mpr ⟨hr₀, hk₀⟩
    by_cases hk₁ : Keyed.key r₁ = k
    · rw [t.eq_of_key hr₀ hr₁ (hk₀.trans hk₁.symm)]
    · rw [if_pos hk₀, hk₀, if_neg hk₁] at heq
      rw [if_pos hk₀, hk₀, heq] at hsome
      exact absurd heq.symm (hapart r₀ hget₀ r₁ hr₁ hk₁ hsome)
  · by_cases hk₁ : Keyed.key r₁ = k
    · have hget₁ : t.get k = some r₁ := (Table.get_eq_some _).mpr ⟨hr₁, hk₁⟩
      rw [if_neg hk₀, if_pos hk₁, hk₁] at heq
      rw [if_neg hk₀] at hsome
      exact absurd heq (hapart r₁ hget₁ r₀ hr₀ hk₀ hsome)
    · rw [if_neg hk₀] at hsome heq ⊢
      rw [if_neg hk₁] at heq ⊢
      exact h r₀ hr₀ r₁ hr₁ hsome heq

end

end References
