import Mathlib.Data.List.Basic
import Mathlib.Data.List.Nodup
import Mathlib.Data.Int.Order.Basic
import Mathlib.Tactic.Common

/-!
# Tables with a serial primary key

A table is a list of rows with distinct keys together with the next value of
its key sequence, which is above every key handed out so far. Both facts are
fields, so an insert cannot reuse a key and no table with two rows of one key
can be built. An insert stamps its row with the next key, an update keeps the
keys it finds.
-/

namespace Tables

class Keyed (α : Type*) where
  key : α → ℤ
  stamp : ℤ → α → α
  key_stamp : ∀ n a, key (stamp n a) = n
  stamp_key : ∀ a, stamp (key a) a = a

open Keyed

attribute [simp] key_stamp stamp_key

theorem stamp_eq_self {α : Type*} [Keyed α] {n : ℤ} {a : α} (h : key a = n) : stamp n a = a := by
  rw [← h, stamp_key]

structure Table (α : Type*) [Keyed α] where
  rows : List α
  next : ℤ
  below : ∀ r ∈ rows, key r < next
  distinct : (rows.map key).Nodup

namespace Table

variable {α : Type*} [Keyed α]

def empty : Table α := ⟨[], 1, by simp, by simp⟩

/-- `SELECT ... WHERE id = k`: the row with this key. -/
def get (t : Table α) (k : ℤ) : Option α := t.rows.find? fun r => key r = k

def select (t : Table α) (p : α → Bool) : List α := t.rows.filter p

def any (t : Table α) (p : α → Bool) : Bool := t.rows.any p

/-- `INSERT`: the row gets the next key of the sequence. -/
def insert (t : Table α) (a : α) : Table α where
  rows := t.rows ++ [stamp t.next a]
  next := t.next + 1
  below := by
    intro r hr
    rcases List.mem_append.mp hr with hr | hr
    · have hlt := t.below r hr
      omega
    · rw [List.mem_singleton.mp hr, key_stamp]
      omega
  distinct := by
    rw [List.map_append, List.nodup_append]
    refine ⟨t.distinct, List.nodup_singleton _, ?_⟩
    intro a ha b hb
    obtain ⟨r, hr, rfl⟩ := List.mem_map.mp ha
    have hlt := t.below r hr
    obtain rfl : b = t.next := by simpa using hb
    omega

def updateWhere (t : Table α) (p : α → Bool) (f : α → α) : Table α where
  rows := t.rows.map fun r => if p r then stamp (key r) (f r) else r
  next := t.next
  below := by
    intro r hr
    obtain ⟨r₀, hr₀, rfl⟩ := List.mem_map.mp hr
    have hlt := t.below r₀ hr₀
    split
    · rwa [key_stamp]
    · exact hlt
  distinct := by
    have hkeys : (t.rows.map fun r => if p r then stamp (key r) (f r) else r).map key =
        t.rows.map key := by
      rw [List.map_map]
      refine List.map_congr_left fun r _ => ?_
      simp only [Function.comp_apply]
      split
      · exact key_stamp _ _
      · rfl
    rw [hkeys]
    exact t.distinct

def update (t : Table α) (k : ℤ) (f : α → α) : Table α := t.updateWhere (fun r => key r = k) f

def deleteWhere (t : Table α) (p : α → Bool) : Table α where
  rows := t.rows.filter fun r => !p r
  next := t.next
  below := fun r hr => t.below r (List.mem_filter.mp hr).1
  distinct := t.distinct.sublist (List.Sublist.map key List.filter_sublist)

def delete (t : Table α) (k : ℤ) : Table α := t.deleteWhere fun r => key r = k

variable (t : Table α)

theorem rows_ext {t t' : Table α} (hr : t.rows = t'.rows) (hn : t.next = t'.next) : t = t' := by
  cases t
  cases t'
  subst hr hn
  rfl

theorem eq_of_key {r r' : α} (hr : r ∈ t.rows) (hr' : r' ∈ t.rows) (h : key r = key r') :
    r = r' :=
  List.inj_on_of_nodup_map t.distinct hr hr' h

@[simp] theorem get_eq_some {k : ℤ} {r : α} : t.get k = some r ↔ r ∈ t.rows ∧ key r = k := by
  constructor
  · intro h
    exact ⟨List.mem_of_find?_eq_some h, by simpa using List.find?_some h⟩
  · rintro ⟨hr, rfl⟩
    cases hg : t.get (key r) with
    | none =>
      have hn := List.find?_eq_none.mp hg r hr
      simp at hn
    | some r' =>
      have hk : key r' = key r := by simpa using List.find?_some hg
      rw [t.eq_of_key (List.mem_of_find?_eq_some hg) hr hk]

@[simp] theorem get_eq_none {k : ℤ} : t.get k = none ↔ ∀ r ∈ t.rows, key r ≠ k := by
  simp only [get, List.find?_eq_none, decide_eq_true_eq, ne_eq]

@[simp] theorem mem_select {p : α → Bool} {r : α} : r ∈ t.select p ↔ r ∈ t.rows ∧ p r = true :=
  List.mem_filter

@[simp] theorem any_eq_true {p : α → Bool} : t.any p = true ↔ ∃ r ∈ t.rows, p r = true :=
  List.any_eq_true

@[simp] theorem any_eq_false {p : α → Bool} : t.any p = false ↔ ∀ r ∈ t.rows, p r = false := by
  simp [any]

@[simp] theorem mem_insert {a r : α} : r ∈ (t.insert a).rows ↔ r ∈ t.rows ∨ r = stamp t.next a := by
  simp [insert]

@[simp] theorem mem_update {k : ℤ} {f : α → α} {r : α} :
    r ∈ (t.update k f).rows ↔
      ∃ r₀ ∈ t.rows, (if key r₀ = k then stamp (key r₀) (f r₀) else r₀) = r := by
  simp [update, updateWhere]

theorem mem_update_of_get {k : ℤ} {f : α → α} {r r' : α} (hg : t.get k = some r) :
    r' ∈ (t.update k f).rows ↔ r' = stamp (key r) (f r) ∨ (r' ∈ t.rows ∧ key r' ≠ k) := by
  rw [get_eq_some] at hg
  rw [mem_update]
  constructor
  · rintro ⟨r₀, hr₀, rfl⟩
    split
    next h => exact Or.inl (by rw [t.eq_of_key hr₀ hg.1 (h.trans hg.2.symm)])
    next h => exact Or.inr ⟨hr₀, h⟩
  · rintro (rfl | ⟨hr', hne⟩)
    · exact ⟨r, hg.1, by rw [if_pos hg.2]⟩
    · exact ⟨r', hr', by rw [if_neg hne]⟩

theorem get_update {k k' : ℤ} {f : α → α} :
    (t.update k f).get k' =
      (t.get k').map fun r => if k' = k then stamp k (f r) else r := by
  cases hg : t.get k' with
  | none =>
    rw [Option.map_none, get_eq_none]
    rw [get_eq_none] at hg
    intro r hr
    obtain ⟨r₀, hr₀, rfl⟩ := (mem_update _).mp hr
    have hne := hg r₀ hr₀
    split
    · rwa [key_stamp]
    · exact hne
  | some r =>
    rw [Option.map_some, get_eq_some, mem_update]
    obtain ⟨hr, rfl⟩ := (get_eq_some _).mp hg
    by_cases hk : key r = k
    · subst hk
      exact ⟨⟨r, hr, by simp⟩, by simp⟩
    · exact ⟨⟨r, hr, by simp [hk]⟩, by simp [hk]⟩

theorem update_of_get_eq_none {k : ℤ} {f : α → α} (hg : t.get k = none) : t.update k f = t := by
  refine rows_ext ?_ rfl
  conv_rhs => rw [← List.map_id t.rows]
  refine List.map_congr_left fun r hr => ?_
  have hne := (t.get_eq_none).mp hg r hr
  simp [hne]

theorem update_of_fixed {k : ℤ} {f : α → α} {r : α} (hg : t.get k = some r)
    (hf : stamp (key r) (f r) = r) : t.update k f = t := by
  refine rows_ext ?_ rfl
  conv_rhs => rw [← List.map_id t.rows]
  refine List.map_congr_left fun r' hr' => ?_
  obtain ⟨hr, hk⟩ := (get_eq_some _).mp hg
  by_cases hk' : key r' = k
  · obtain rfl := t.eq_of_key hr' hr (hk'.trans hk.symm)
    simp only [hk', decide_true, if_true, id_eq]
    rwa [hk'] at hf
  · simp [hk']

@[simp] theorem mem_deleteWhere {p : α → Bool} {r : α} :
    r ∈ (t.deleteWhere p).rows ↔ r ∈ t.rows ∧ p r = false := by
  simp [deleteWhere]

theorem key_ne_next {r : α} (hr : r ∈ t.rows) : key r ≠ t.next := by
  have hlt := t.below r hr
  omega

theorem get_insert_of_get {a r : α} {k : ℤ} (h : t.get k = some r) :
    (t.insert a).get k = some r := by
  rw [get_eq_some] at h ⊢
  exact ⟨(mem_insert _).mpr (Or.inl h.1), h.2⟩

theorem get_insert_next {a : α} : (t.insert a).get t.next = some (stamp t.next a) :=
  (get_eq_some _).mpr ⟨(mem_insert _).mpr (Or.inr rfl), key_stamp _ _⟩

/-- A row just inserted and then updated is the updated row inserted. -/
theorem update_insert_next {a b : α} {f : α → α}
    (hf : stamp t.next (f (stamp t.next a)) = stamp t.next b) :
    (t.insert a).update t.next f = t.insert b := by
  refine rows_ext ?_ rfl
  have hold : t.rows.map (fun r => if key r = t.next then stamp (key r) (f r) else r) = t.rows := by
    conv_rhs => rw [← List.map_id t.rows]
    refine List.map_congr_left fun r hr => ?_
    rw [if_neg (t.key_ne_next hr), id]
  simp [update, updateWhere, insert, hold, hf]

theorem get_delete {k k' : ℤ} : (t.delete k).get k' = if k' = k then none else t.get k' := by
  split
  next h =>
    rw [get_eq_none]
    intro r hr hk
    have hkept := (List.mem_filter.mp hr).2
    simp [hk, h] at hkept
  next h =>
    cases hg : t.get k' with
    | none =>
      rw [get_eq_none] at hg ⊢
      exact fun r hr => hg r (List.mem_filter.mp hr).1
    | some r =>
      rw [get_eq_some] at hg ⊢
      refine ⟨List.mem_filter.mpr ⟨hg.1, ?_⟩, hg.2⟩
      simp [hg.2, h]

/-! ### Frame lemmas: the rows a statement's `WHERE` clause leaves out -/

theorem select_insert {a : α} {q : α → Bool} (hq : q (stamp t.next a) = false) :
    (t.insert a).select q = t.select q := by
  simp [select, insert, hq]

theorem select_updateWhere {p : α → Bool} {f : α → α} {q : α → Bool}
    (hq : ∀ r ∈ t.rows, p r = true → q r = false ∧ q (stamp (key r) (f r)) = false) :
    (t.updateWhere p f).select q = t.select q := by
  have hlist : ∀ l : List α,
      (∀ r ∈ l, p r = true → q r = false ∧ q (stamp (key r) (f r)) = false) →
      (l.map fun r => if p r then stamp (key r) (f r) else r).filter q = l.filter q := by
    intro l
    induction l with
    | nil => intro _; rfl
    | cons r l ih =>
      intro h
      have ht := ih fun x hx => h x (List.mem_cons_of_mem _ hx)
      by_cases hp : p r = true
      · obtain ⟨h₁, h₂⟩ := h r (List.mem_cons_self ..) hp
        simp [hp, h₁, h₂, ht]
      · simp [hp, List.filter_cons, ht]
  exact hlist t.rows hq

theorem select_update {k : ℤ} {f : α → α} {q : α → Bool}
    (hq : ∀ r ∈ t.rows, key r = k → q r = false ∧ q (stamp (key r) (f r)) = false) :
    (t.update k f).select q = t.select q :=
  t.select_updateWhere fun r hr hp => hq r hr (by simpa using hp)

theorem delete_update {k : ℤ} {f : α → α} : (t.update k f).delete k = t.delete k := by
  refine rows_ext (t.select_update (q := fun r => !decide (key r = k)) fun r _ hk => ?_) rfl
  simp [hk]

theorem select_deleteWhere {p q : α → Bool} (hq : ∀ r ∈ t.rows, p r = true → q r = false) :
    (t.deleteWhere p).select q = t.select q := by
  simp only [select, deleteWhere, List.filter_filter]
  refine List.filter_congr fun r hr => ?_
  cases hp : p r with
  | false => simp
  | true => simp [hq r hr hp]

theorem select_eq_of_select {t' : Table α} {p q : α → Bool} (h : t.select p = t'.select p)
    (hq : ∀ r, q r = true → p r = true) : t.select q = t'.select q := by
  have hnarrow : ∀ t : Table α, t.select q = (t.select p).filter q := by
    intro t
    rw [select, select, List.filter_filter]
    refine List.filter_congr fun r _ => ?_
    cases hqr : q r with
    | false => simp
    | true => simp [hq r hqr]
  rw [hnarrow t, hnarrow t', h]

theorem any_eq_of_select {t' : Table α} {p q : α → Bool} (h : t.select p = t'.select p)
    (hq : ∀ r, q r = true → p r = true) : t.any q = t'.any q := by
  have hnarrow : ∀ t : Table α, t.any q = (t.select q).any fun _ => true := by
    intro t
    rw [any, select, List.any_filter]
    simp
  rw [hnarrow t, hnarrow t', t.select_eq_of_select h hq]

/-! ### At most one row for each value -/

/-- No two rows have the same value of `f`; rows without one do not count. -/
def UniqueBy {β : Type*} (f : α → Option β) (t : Table α) : Prop :=
  ∀ r ∈ t.rows, ∀ r' ∈ t.rows, (f r).isSome = true → f r = f r' → r = r'

instance {β : Type*} [DecidableEq α] [DecidableEq β] (f : α → Option β) (t : Table α) :
    Decidable (t.UniqueBy f) :=
  inferInstanceAs (Decidable (∀ r ∈ t.rows, ∀ r' ∈ t.rows, _))

variable {β : Type*} {f : α → Option β}

theorem uniqueBy_insert_iff (h : UniqueBy f t) {a : α} :
    UniqueBy f (t.insert a) ↔
      ((f (stamp t.next a)).isSome = true → ∀ r ∈ t.rows, f r ≠ f (stamp t.next a)) := by
  have hnew : ∀ r ∈ t.rows, r ≠ stamp t.next a := by
    rintro r hr rfl
    exact t.key_ne_next hr (key_stamp _ _)
  constructor
  · intro hall hsome r hr heq
    have hmem : stamp t.next a ∈ (t.insert a).rows := (mem_insert _).mpr (Or.inr rfl)
    exact hnew r hr (hall _ hmem r ((mem_insert _).mpr (Or.inl hr)) hsome heq.symm).symm
  · intro hfree r hr r' hr' hsome heq
    rcases (mem_insert _).mp hr with hr | rfl
    · rcases (mem_insert _).mp hr' with hr' | rfl
      · exact h r hr r' hr' hsome heq
      · exact absurd heq (hfree (heq ▸ hsome) r hr)
    · rcases (mem_insert _).mp hr' with hr' | rfl
      · exact absurd heq.symm (hfree hsome r' hr')
      · rfl

theorem UniqueBy.update {t : Table α} (h : UniqueBy f t) {k : ℤ} {g : α → α}
    (hg : ∀ r, f (stamp (key r) (g r)) = f r) : UniqueBy f (t.update k g) := by
  have hsame : ∀ r₀ : α, f (if key r₀ = k then stamp (key r₀) (g r₀) else r₀) = f r₀ := by
    intro r₀
    split
    · exact hg r₀
    · rfl
  intro r hr r' hr' hsome heq
  obtain ⟨r₀, hr₀, rfl⟩ := (mem_update _).mp hr
  obtain ⟨r₁, hr₁, rfl⟩ := (mem_update _).mp hr'
  rw [hsame] at hsome
  rw [hsame, hsame] at heq
  rw [h r₀ hr₀ r₁ hr₁ hsome heq]

theorem UniqueBy.subset {t t' : Table α} (h : UniqueBy f t) (hsub : ∀ r ∈ t'.rows, r ∈ t.rows) :
    UniqueBy f t' := fun r hr r' hr' => h r (hsub r hr) r' (hsub r' hr')

end Table

end Tables
