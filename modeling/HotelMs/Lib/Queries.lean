import HotelMs.Lib.Tables
import Mathlib.Data.Multiset.Sort
import Mathlib.Data.Multiset.Filter
import Mathlib.Data.Multiset.Dedup
import Mathlib.Algebra.BigOperators.Group.Multiset.Basic
import Mathlib.Algebra.Order.BigOperators.Group.Multiset
import Mathlib.Algebra.Order.Group.Nat
import Mathlib.Data.Prod.Lex
import Mathlib.Data.Rat.Defs
import Mathlib.Algebra.Order.Ring.Unbundled.Rat

/-!
# Queries over bags of rows

`FROM`, inner joins along a key, `GROUP BY` and aggregates. What a query scans is
a multiset: without `ORDER BY` its rows have no order.
-/

namespace Queries

open Tables Keyed

section

variable {α : Type*} [Keyed α]

def bag (t : Table α) : Multiset α := t.rows

@[simp] theorem mem_bag {t : Table α} {a : α} : a ∈ bag t ↔ a ∈ t.rows := Iff.rfl

theorem nodup_bag (t : Table α) : (bag t).Nodup :=
  Multiset.coe_nodup.mpr (List.Nodup.of_map key t.distinct)

end

section

variable {α β κ : Type*}

/-- An inner join in which a row matches at most one row of the other table. -/
def joinOn (get : α → Option β) (rows : Multiset α) : Multiset (α × β) :=
  rows.filterMap fun a => (get a).map fun b => (a, b)

/-- `{k: count}.get(k, 0)` over the rows grouped by `key`. -/
def countIn [DecidableEq κ] (key : α → κ) (rows : Multiset α) (k : κ) : ℕ :=
  (rows.filter fun r => key r = k).card

/-- `GROUP BY`: a row for each key that occurs, aggregated. -/
def groupBy [DecidableEq κ] (key : α → κ) (aggregate : κ → Multiset α → β) (rows : Multiset α) :
    Multiset β :=
  (rows.map key).dedup.map fun k => aggregate k (rows.filter fun r => key r = k)

/-- `COUNT(DISTINCT …)`. -/
def countDistinct [DecidableEq κ] (key : α → κ) (rows : Multiset α) : ℕ :=
  (rows.map key).dedup.card

/-- `SUM`, which is `NULL` over no rows, and then `or 0`. -/
def sumOrZero {R : Type*} [AddCommMonoid R] (f : α → R) (rows : Multiset α) : R := (rows.map f).sum

/-- The row of `GROUP BY` that has this key. -/
def groupRow [DecidableEq κ] (key : α → κ) (aggregate : Multiset α → β) (rows : Multiset α)
    (k : κ) : Option β :=
  let group := rows.filter fun r => key r = k
  if group.card = 0 then none else some (aggregate group)

/-- `MAX`, which is `NULL` over no rows. -/
def maxOf (f : α → ℤ) (rows : Multiset α) : Option ℤ := ((rows.map f).sort (· ≥ ·)).head?

/-- `ORDER BY f DESC`. Rows that tie are in their own order, which the query
leaves open. -/
def sortDesc [LinearOrder β] (f : β → ℚ) (rows : Multiset β) : List β :=
  ((rows.map fun r => toLex (OrderDual.toDual (f r), r)).sort (· ≤ ·)).map fun x => (ofLex x).2

theorem coe_sortDesc [LinearOrder β] (f : β → ℚ) (rows : Multiset β) :
    (sortDesc f rows : Multiset β) = rows := by
  unfold sortDesc
  rw [← Multiset.map_coe, Multiset.sort_eq, Multiset.map_map]
  exact Multiset.map_id rows

theorem mem_joinOn {get : α → Option β} {rows : Multiset α} {x : α × β} :
    x ∈ joinOn get rows ↔ x.1 ∈ rows ∧ get x.1 = some x.2 := by
  obtain ⟨a, b⟩ := x
  simp only [joinOn, Multiset.mem_filterMap, Option.map_eq_some_iff, Prod.mk.injEq]
  constructor
  · intro h
    obtain ⟨a', ha, b', hget, rfl, rfl⟩ := h
    exact ⟨ha, hget⟩
  · intro h
    exact ⟨a, h.1, b, h.2, rfl, rfl⟩

theorem joinOn_cons_none {get : α → Option β} {a : α} {rows : Multiset α} (h : get a = none) :
    joinOn get (a ::ₘ rows) = joinOn get rows :=
  Multiset.filterMap_cons_none _ _ (by rw [h]; rfl)

theorem joinOn_cons_some {get : α → Option β} {a : α} {b : β} {rows : Multiset α}
    (h : get a = some b) : joinOn get (a ::ₘ rows) = (a, b) ::ₘ joinOn get rows :=
  Multiset.filterMap_cons_some _ _ _ (by rw [h]; rfl)

theorem nodup_joinOn {get : α → Option β} {rows : Multiset α} (h : rows.Nodup) :
    (joinOn get rows).Nodup := by
  refine Multiset.Nodup.filterMap _ (fun a a' x hx hx' => ?_) h
  obtain ⟨b, _, rfl⟩ := Option.map_eq_some_iff.mp hx
  obtain ⟨b', _, heq⟩ := Option.map_eq_some_iff.mp hx'
  exact (Prod.mk.inj heq).1.symm

theorem joinOn_congr {get get' : α → Option β} {rows : Multiset α}
    (h : ∀ a ∈ rows, get a = get' a) : joinOn get rows = joinOn get' rows := by
  induction rows using Multiset.induction_on with
  | empty => rfl
  | cons a rows ih =>
    have hrest := ih fun b hb => h b (Multiset.mem_cons_of_mem hb)
    unfold joinOn at hrest ⊢
    rw [Multiset.filterMap_cons, Multiset.filterMap_cons, hrest, h a (Multiset.mem_cons_self a _)]

theorem filter_eq_of_mem {p : α → Prop} [DecidablePred p] {m m' : Multiset α} (hm : m.Nodup)
    (hm' : m'.Nodup) (h : ∀ a, p a → (a ∈ m ↔ a ∈ m')) : m.filter p = m'.filter p := by
  refine (Multiset.Nodup.ext (hm.filter p) (hm'.filter p)).mpr fun a => ?_
  simp only [Multiset.mem_filter]
  constructor
  · intro ha
    exact ⟨(h a ha.2).mp ha.1, ha.2⟩
  · intro ha
    exact ⟨(h a ha.2).mpr ha.1, ha.2⟩

theorem filter_joinOn_eq_of_mem {p : α × β → Prop} [DecidablePred p] {get get' : α → Option β}
    {m m' : Multiset α} (hm : m.Nodup) (hm' : m'.Nodup)
    (h : ∀ a b, p (a, b) → (a ∈ m ∧ get a = some b ↔ a ∈ m' ∧ get' a = some b)) :
    (joinOn get m).filter p = (joinOn get' m').filter p := by
  refine filter_eq_of_mem (nodup_joinOn hm) (nodup_joinOn hm') fun x hx => ?_
  rw [mem_joinOn, mem_joinOn]
  exact h x.1 x.2 hx

end

/-! ### Sums over joins -/

section

variable {α β κ R : Type*} [AddCommMonoid R]

theorem sumOrZero_cons (f : α → R) (a : α) (rows : Multiset α) :
    sumOrZero f (a ::ₘ rows) = f a + sumOrZero f rows := by
  unfold sumOrZero
  rw [Multiset.map_cons, Multiset.sum_cons]

theorem sumOrZero_filter_cons (f : α → R) (p : α → Prop) [DecidablePred p] (a : α)
    (rows : Multiset α) :
    sumOrZero f ((a ::ₘ rows).filter p) =
      (if p a then f a else 0) + sumOrZero f (rows.filter p) := by
  by_cases h : p a
  · rw [Multiset.filter_cons_of_pos _ h, sumOrZero_cons, if_pos h]
  · rw [Multiset.filter_cons_of_neg _ h, if_neg h, zero_add]

theorem sumOrZero_zero {f : α → R} {rows : Multiset α} (h : ∀ a ∈ rows, f a = 0) :
    sumOrZero f rows = 0 := by
  refine Multiset.sum_eq_zero fun x hx => ?_
  obtain ⟨a, ha, rfl⟩ := Multiset.mem_map.mp hx
  exact h a ha

theorem sumOrZero_add (f g : α → R) (rows : Multiset α) :
    sumOrZero (fun a => f a + g a) rows = sumOrZero f rows + sumOrZero g rows :=
  Multiset.sum_map_add

theorem sumOrZero_congr {f g : α → R} {rows : Multiset α} (h : ∀ a ∈ rows, f a = g a) :
    sumOrZero f rows = sumOrZero g rows := by
  unfold sumOrZero
  rw [Multiset.map_congr rfl h]

/-- Groups of some keys add up to the rows with one of these keys. -/
theorem sum_groups [DecidableEq κ] (key : α → κ) (f : α → R) {keys : Multiset κ}
    (hkeys : keys.Nodup) (rows : Multiset α) :
    (keys.map fun k => sumOrZero f (rows.filter fun a => key a = k)).sum =
      sumOrZero f (rows.filter fun a => key a ∈ keys) := by
  induction rows using Multiset.induction_on with
  | empty => exact Multiset.sum_map_zero
  | cons a rows ih =>
    have hone : (keys.map fun k => if key a = k then f a else 0).sum =
        if key a ∈ keys then f a else 0 := by
      split
      next hmem =>
        obtain ⟨rest, rfl⟩ := Multiset.exists_cons_of_mem hmem
        have hout := (Multiset.nodup_cons.mp hkeys).1
        have hzero : (rest.map fun k => if key a = k then f a else 0).sum = 0 := by
          refine Multiset.sum_eq_zero fun x hx => ?_
          obtain ⟨k, hk, rfl⟩ := Multiset.mem_map.mp hx
          exact if_neg fun heq : key a = k => hout (heq ▸ hk)
        rw [Multiset.map_cons, Multiset.sum_cons, if_pos rfl, hzero, add_zero]
      next hmem =>
        refine Multiset.sum_eq_zero fun x hx => ?_
        obtain ⟨k, hk, rfl⟩ := Multiset.mem_map.mp hx
        exact if_neg fun heq : key a = k => hmem (heq ▸ hk)
    simp only [sumOrZero_filter_cons, Multiset.sum_map_add]
    rw [hone, ih]

/-- All groups of a `GROUP BY` add up to the rows. -/
theorem sum_all_groups [DecidableEq κ] (key : α → κ) (f : α → R) (rows : Multiset α) :
    ((rows.map key).dedup.map fun k => sumOrZero f (rows.filter fun a => key a = k)).sum =
      sumOrZero f rows := by
  rw [sum_groups key f (Multiset.nodup_dedup _)]
  congr 1
  refine Multiset.filter_eq_self.mpr fun a ha => ?_
  exact Multiset.mem_dedup.mpr (Multiset.mem_map_of_mem key ha)

theorem sumOrZero_one (rows : Multiset α) : sumOrZero (fun _ => 1) rows = rows.card := by
  induction rows using Multiset.induction_on with
  | empty => rfl
  | cons a rows ih => rw [sumOrZero_cons, ih, Multiset.card_cons, Nat.add_comm]

theorem sumOrZero_ite (p : α → Prop) [DecidablePred p] (rows : Multiset α) :
    sumOrZero (fun a => if p a then 1 else 0) rows = (rows.filter p).card := by
  induction rows using Multiset.induction_on with
  | empty => rfl
  | cons a rows ih =>
    rw [sumOrZero_cons, ih]
    by_cases h : p a
    · rw [if_pos h, Multiset.filter_cons_of_pos _ h, Multiset.card_cons, Nat.add_comm]
    · rw [if_neg h, Multiset.filter_cons_of_neg _ h, Nat.zero_add]

theorem map_fst_joinOn {get : α → Option β} {rows : Multiset α}
    (h : ∀ a ∈ rows, ∃ b, get a = some b) : (joinOn get rows).map Prod.fst = rows := by
  induction rows using Multiset.induction_on with
  | empty => rfl
  | cons a rows ih =>
    obtain ⟨b, hb⟩ := h a (Multiset.mem_cons_self a rows)
    rw [joinOn_cons_some hb, Multiset.map_cons, ih fun c hc => h c (Multiset.mem_cons_of_mem hc)]

/-- A condition on the rows of a join, as one on the rows it came from. -/
theorem map_fst_filter_joinOn {get : α → Option β} {rows : Multiset α} {p : α → Prop}
    [DecidablePred p] {q : α × β → Prop} [DecidablePred q]
    (h : ∀ a ∈ rows, p a ↔ ∃ b, get a = some b ∧ q (a, b)) :
    ((joinOn get rows).filter q).map Prod.fst = rows.filter p := by
  induction rows using Multiset.induction_on with
  | empty => rfl
  | cons a rows ih =>
    have hrest := ih fun c hc => h c (Multiset.mem_cons_of_mem hc)
    have ha := h a (Multiset.mem_cons_self a rows)
    cases hget : get a with
    | none =>
      have hout : ¬p a := fun hp => by
        obtain ⟨b, hb, _⟩ := ha.mp hp
        rw [hget] at hb
        cases hb
      rw [joinOn_cons_none hget, Multiset.filter_cons_of_neg _ hout, hrest]
    | some b =>
      have hiff : p a ↔ q (a, b) := by
        rw [ha, hget]
        simp
      rw [joinOn_cons_some hget]
      by_cases hp : p a
      · rw [Multiset.filter_cons_of_pos _ hp, Multiset.filter_cons_of_pos _ (hiff.mp hp),
          Multiset.map_cons, hrest]
      · rw [Multiset.filter_cons_of_neg _ hp,
          Multiset.filter_cons_of_neg _ fun hq => hp (hiff.mpr hq), hrest]

theorem sumOrZero_eq_iff {f g : α → ℕ} {rows : Multiset α} (h : ∀ a ∈ rows, g a ≤ f a) :
    sumOrZero f rows = sumOrZero g rows ↔ ∀ a ∈ rows, f a = g a := by
  induction rows using Multiset.induction_on with
  | empty => exact iff_of_true rfl fun _ ha => absurd ha (Multiset.notMem_zero _)
  | cons a rows ih =>
    have hrest := ih fun c hc => h c (Multiset.mem_cons_of_mem hc)
    have ha := h a (Multiset.mem_cons_self a rows)
    have hle : sumOrZero g rows ≤ sumOrZero f rows :=
      Multiset.sum_map_le_sum_map _ _ fun c hc => h c (Multiset.mem_cons_of_mem hc)
    rw [sumOrZero_cons, sumOrZero_cons, Multiset.forall_mem_cons, ← hrest]
    constructor
    · intro heq
      exact ⟨by omega, by omega⟩
    · intro heq
      rw [heq.1, heq.2]

/-- An inner join that finds a row for each row loses nothing of a sum. -/
theorem sumOrZero_joinOn_fst {get : α → Option β} (f : α → R) {rows : Multiset α}
    (h : ∀ a ∈ rows, ∃ b, get a = some b) :
    sumOrZero (fun x => f x.1) (joinOn get rows) = sumOrZero f rows := by
  have hmap : (joinOn get rows).map (fun x => f x.1) = ((joinOn get rows).map Prod.fst).map f :=
    (Multiset.map_map f Prod.fst _).symm
  unfold sumOrZero
  rw [hmap, map_fst_joinOn h]

/-- Of the rows with a condition at most one has the key. -/
theorem sumOrZero_at_key [Keyed β] (t : Table β) (q : β → Prop) [DecidablePred q] (k : ℤ)
    (v : R) :
    sumOrZero (fun b => if k = key b then v else 0) ((bag t).filter q) =
      if ∃ b, t.get k = some b ∧ q b then v else 0 := by
  split
  next h =>
    obtain ⟨b, hget, hq⟩ := h
    obtain ⟨hb, rfl⟩ := (t.get_eq_some).mp hget
    have hmem : b ∈ (bag t).filter q := Multiset.mem_filter.mpr ⟨hb, hq⟩
    obtain ⟨rest, hrest⟩ := Multiset.exists_cons_of_mem hmem
    have hnodup := (nodup_bag t).filter q
    rw [hrest] at hnodup ⊢
    have hout := (Multiset.nodup_cons.mp hnodup).1
    have hzero : sumOrZero (fun c : β => if key b = key c then v else 0) rest = 0 := by
      refine sumOrZero_zero fun c hc => if_neg fun heq => hout ?_
      have hc' : c ∈ (bag t).filter q := by
        rw [hrest]
        exact Multiset.mem_cons_of_mem hc
      rwa [t.eq_of_key hb (Multiset.mem_filter.mp hc').1 heq]
    rw [sumOrZero_cons, if_pos rfl, hzero, add_zero]
  next h =>
    refine sumOrZero_zero fun b hb => if_neg fun heq => h ⟨b, ?_, (Multiset.mem_filter.mp hb).2⟩
    exact (t.get_eq_some).mpr ⟨(Multiset.mem_filter.mp hb).1, heq.symm⟩

/-- A sum over the rows joined along a foreign key is the sum of what each row
of the other table is referred to by. -/
theorem sumOrZero_joinOn [Keyed β] (t : Table β) (fk : α → ℤ) (f : α → R) (p : α → Prop)
    [DecidablePred p] (q : β → Prop) [DecidablePred q] (rows : Multiset α) :
    sumOrZero (fun x => f x.1)
        ((joinOn (fun a => t.get (fk a)) rows).filter fun x => q x.2 ∧ p x.1) =
      sumOrZero (fun b => sumOrZero f (rows.filter fun a => fk a = key b ∧ p a))
        ((bag t).filter q) := by
  induction rows using Multiset.induction_on with
  | empty => exact (sumOrZero_zero fun _ _ => rfl).symm
  | cons a rows ih =>
    have hsplit : ∀ b : β, (if fk a = key b ∧ p a then f a else 0) =
        if fk a = key b then (if p a then f a else 0) else 0 := fun _ => ite_and _ _ _ _
    simp only [sumOrZero_filter_cons, sumOrZero_add, hsplit, sumOrZero_at_key]
    rw [← ih]
    cases hget : t.get (fk a) with
    | none =>
      have hno : ¬∃ b, (none : Option β) = some b ∧ q b := by simp
      have hskip : joinOn (fun a => t.get (fk a)) (a ::ₘ rows) = _ := joinOn_cons_none hget
      rw [hskip, if_neg hno, zero_add]
    | some b =>
      have hexists : (∃ c, some b = some c ∧ q c) ↔ q b := by simp
      have hrow : joinOn (fun a => t.get (fk a)) (a ::ₘ rows) = _ := joinOn_cons_some hget
      rw [hrow, sumOrZero_filter_cons]
      simp only [hexists, ite_and]

end

end Queries
