import HotelMs.Lib.Dict
import Mathlib.Algebra.BigOperators.Group.List.Basic
import Mathlib.Data.List.Count
import Mathlib.Data.List.Dedup

/-!
# Dictionaries that count, and the leading entries of one

`d[k] = d.get(k, 0) + 1` over the keys of a list, and
`sorted(…, key=…, reverse=True)[:n]`, which leaves ties in their order.
-/

namespace Counter

variable {κ : Type*} [DecidableEq κ]

/-! ### Counting -/

def keys (d : Dict κ ℕ) : List κ := d.entries.map Prod.fst

def count (d : Dict κ ℕ) (k : κ) : ℕ := (d.get k).getD 0

def total (d : Dict κ ℕ) : ℕ := (d.entries.map Prod.snd).sum

/-- `{k: 0 for k in ks}` -/
def zeros (ks : List κ) (h : ks.Nodup) : Dict κ ℕ where
  entries := ks.map fun k => (k, 0)
  distinct := by
    rw [List.map_map]
    exact (List.map_id ks).symm ▸ h

def raised (entries : List (κ × ℕ)) (k : κ) : List (κ × ℕ) :=
  if k ∈ entries.map Prod.fst then
    entries.map fun e => if e.1 = k then (e.1, e.2 + 1) else e
  else entries ++ [(k, 1)]

theorem keys_raised (entries : List (κ × ℕ)) (k : κ) :
    (raised entries k).map Prod.fst =
      if k ∈ entries.map Prod.fst then entries.map Prod.fst else entries.map Prod.fst ++ [k] := by
  unfold raised
  split
  · rw [List.map_map]
    refine List.map_congr_left fun e _ => ?_
    simp only [Function.comp_apply]
    split <;> rfl
  · rw [List.map_append, List.map_singleton]

/-- `d[k] = d.get(k, 0) + 1` -/
def bump (d : Dict κ ℕ) (k : κ) : Dict κ ℕ where
  entries := raised d.entries k
  distinct := by
    rw [keys_raised]
    split
    · exact d.distinct
    · rename_i hk
      refine List.nodup_append.mpr ⟨d.distinct, List.nodup_singleton k, fun a ha b hb hab => hk ?_⟩
      rwa [← List.mem_singleton.mp hb, ← hab]

def tally (d : Dict κ ℕ) (ks : List κ) : Dict κ ℕ := ks.foldl bump d

theorem mem_keys {d : Dict κ ℕ} {k : κ} : k ∈ keys d ↔ ∃ n, d.get k = some n := by
  rw [← Option.isSome_iff_exists, ← not_iff_not, Option.not_isSome_iff_eq_none]
  exact Dict.get_eq_none.symm

theorem mem_entries {d : Dict κ ℕ} {e : κ × ℕ} :
    e ∈ d.entries ↔ e.1 ∈ keys d ∧ e.2 = count d e.1 := by
  obtain ⟨k, n⟩ := e
  constructor
  · intro he
    have hget := Dict.get_eq_some.mpr he
    exact ⟨mem_keys.mpr ⟨n, hget⟩, by rw [count, hget, Option.getD_some]⟩
  · intro h
    obtain ⟨m, hget⟩ := mem_keys.mp h.1
    have hn : n = m := h.2.trans (by rw [count, hget, Option.getD_some])
    rw [hn]
    exact Dict.get_eq_some.mp hget

theorem keys_bump (d : Dict κ ℕ) (k : κ) :
    keys (bump d k) = if k ∈ keys d then keys d else keys d ++ [k] := keys_raised d.entries k

theorem mem_keys_bump {d : Dict κ ℕ} {k k' : κ} : k' ∈ keys (bump d k) ↔ k' ∈ keys d ∨ k' = k := by
  rw [keys_bump]
  split
  · rename_i hk
    refine ⟨Or.inl, ?_⟩
    rintro (h | rfl)
    · exact h
    · exact hk
  · rw [List.mem_append, List.mem_singleton]

theorem count_bump (d : Dict κ ℕ) (k k' : κ) :
    count (bump d k) k' = count d k' + if k = k' then 1 else 0 := by
  have hentry : ∀ n, (k', n) ∈ (bump d k).entries → n = count d k' + if k = k' then 1 else 0 := by
    intro n hn
    simp only [bump, raised] at hn
    split at hn
    · obtain ⟨e, he, heq⟩ := List.mem_map.mp hn
      split at heq
      · rename_i hek
        obtain ⟨rfl, rfl⟩ := Prod.mk.inj heq
        rw [← (mem_entries.mp he).2, if_pos hek.symm]
      · rename_i hek
        subst heq
        rw [← (mem_entries.mp he).2, if_neg fun hk => hek hk.symm]
        rfl
    · rename_i hk
      rcases List.mem_append.mp hn with hn | hn
      · have hne : k ≠ k' := by
          rintro rfl
          exact hk (List.mem_map_of_mem hn)
        rw [if_neg hne]
        exact (mem_entries.mp hn).2
      · obtain ⟨rfl, rfl⟩ := Prod.mk.inj (List.mem_singleton.mp hn)
        rw [if_pos rfl, count, Dict.get_eq_none.mpr hk]
        rfl
  by_cases hin : k' ∈ keys (bump d k)
  · obtain ⟨n, hn⟩ := mem_keys.mp hin
    rw [← hentry n (Dict.get_eq_some.mp hn), count, hn]
    rfl
  · have hout : k' ∉ keys d ∧ k' ≠ k := not_or.mp fun h => hin (mem_keys_bump.mpr h)
    rw [count, Dict.get_eq_none.mpr hin, count, Dict.get_eq_none.mpr hout.1,
      if_neg fun h => hout.2 h.symm]
    rfl

theorem total_eq (d : Dict κ ℕ) : total d = ((keys d).map (count d)).sum := by
  rw [total, keys, List.map_map]
  exact congrArg List.sum (List.map_congr_left fun e he => (mem_entries.mp he).2)

theorem sum_indicator {l : List κ} (hl : l.Nodup) (k : κ) :
    (l.map fun k' => if k = k' then 1 else 0).sum = if k ∈ l then 1 else 0 := by
  induction l with
  | nil => rfl
  | cons a l ih =>
    obtain ⟨hout, hl⟩ := List.nodup_cons.mp hl
    rw [List.map_cons, List.sum_cons, ih hl]
    by_cases hka : k = a
    · rw [if_pos hka, hka, if_neg hout, if_pos List.mem_cons_self]
    · have hmem : k ∈ a :: l ↔ k ∈ l := by
        rw [List.mem_cons]
        exact or_iff_right hka
      simp only [if_neg hka, hmem, Nat.zero_add]

theorem total_bump (d : Dict κ ℕ) (k : κ) : total (bump d k) = total d + 1 := by
  have hcount : count (bump d k) = fun k' => count d k' + if k = k' then 1 else 0 :=
    funext fun k' => count_bump d k k'
  have hkeys : (keys d).Nodup := d.distinct
  rw [total_eq, total_eq, keys_bump, hcount]
  split
  · rename_i hk
    rw [List.sum_map_add, sum_indicator hkeys, if_pos hk]
  · rename_i hk
    rw [List.map_append, List.sum_append, List.sum_map_add, sum_indicator hkeys, if_neg hk]
    simp only [List.map_singleton, List.sum_singleton, if_true, count, Dict.get_eq_none.mpr hk]
    rfl

variable (d : Dict κ ℕ) (ks : List κ)

@[simp] theorem total_tally : total (tally d ks) = total d + ks.length := by
  induction ks generalizing d with
  | nil => rfl
  | cons k ks ih =>
    rw [tally, List.foldl_cons, ← tally, ih, total_bump, List.length_cons]
    omega

@[simp] theorem count_tally (k : κ) : count (tally d ks) k = count d k + ks.count k := by
  induction ks generalizing d with
  | nil => rfl
  | cons a ks ih =>
    rw [tally, List.foldl_cons, ← tally, ih, count_bump, List.count_cons]
    simp only [beq_iff_eq]
    omega

theorem mem_keys_tally {k : κ} : k ∈ keys (tally d ks) ↔ k ∈ keys d ∨ k ∈ ks := by
  induction ks generalizing d with
  | nil => exact (or_iff_left List.not_mem_nil).symm
  | cons a ks ih => rw [tally, List.foldl_cons, ← tally, ih, mem_keys_bump, List.mem_cons, or_assoc]

theorem keys_tally_of_subset (h : ∀ k ∈ ks, k ∈ keys d) : keys (tally d ks) = keys d := by
  induction ks generalizing d with
  | nil => rfl
  | cons k ks ih =>
    have hk : keys (bump d k) = keys d := by rw [keys_bump, if_pos (h k List.mem_cons_self)]
    rw [tally, List.foldl_cons, ← tally, ih, hk]
    intro k' hk'
    rw [hk]
    exact h k' (List.mem_cons_of_mem k hk')

theorem sum_count {l : List κ} (hl : l.Nodup) (h : ∀ k ∈ ks, k ∈ l) :
    (l.map ks.count).sum = ks.length := by
  induction ks with
  | nil =>
    refine List.sum_eq_zero fun n hn => ?_
    obtain ⟨k, -, rfl⟩ := List.mem_map.mp hn
    exact List.count_nil
  | cons a ks ih =>
    have hcount : (l.map (List.count · (a :: ks))) =
        l.map fun k => ks.count k + if a = k then 1 else 0 := by
      refine List.map_congr_left fun k _ => ?_
      simp only [List.count_cons, beq_iff_eq]
    rw [hcount, List.sum_map_add, sum_indicator hl, if_pos (h a List.mem_cons_self),
      ih fun k hk => h k (List.mem_cons_of_mem a hk), List.length_cons]

theorem count_zeros {l : List κ} (hl : l.Nodup) (k : κ) : count (zeros l hl) k = 0 := by
  cases hget : (zeros l hl).get k with
  | none => rw [count, hget, Option.getD_none]
  | some n =>
    obtain ⟨a, -, heq⟩ := List.mem_map.mp (Dict.get_eq_some.mp hget)
    rw [count, hget, Option.getD_some, ← (Prod.mk.inj heq).2]

theorem total_zeros {l : List κ} (hl : l.Nodup) : total (zeros l hl) = 0 := by
  rw [total_eq]
  refine List.sum_eq_zero fun n hn => ?_
  obtain ⟨k, -, rfl⟩ := List.mem_map.mp hn
  exact count_zeros hl k

/-! ### The leading entries -/

/-- `sorted(l, key=…, reverse=True)[:n]`, where `le a b` says that `b` does not beat `a`. -/
def top {α : Type*} (le : α → α → Bool) (n : ℕ) (l : List α) : List α := (l.mergeSort le).take n

section

variable {α : Type*} {le : α → α → Bool} {n : ℕ} {l : List α}

theorem mem_of_mem_top {a : α} (h : a ∈ top le n l) : a ∈ l :=
  List.mem_mergeSort.mp (List.mem_of_mem_take h)

theorem length_top : (top le n l).length = min n l.length := by
  rw [top, List.length_take, List.length_mergeSort]

variable (htrans : ∀ a b c, le a b → le b c → le a c) (htotal : ∀ a b, le a b || le b a)

include htrans htotal

theorem pairwise_top : (top le n l).Pairwise fun a b => le a b :=
  (List.pairwise_mergeSort htrans htotal l).take

/-- Nothing that is left out beats what is in. -/
theorem le_of_not_mem_top {a b : α} (ha : a ∈ top le n l) (hb : b ∈ l) (hout : b ∉ top le n l) :
    le a b := by
  have hsorted := List.pairwise_mergeSort htrans htotal l
  rw [← List.take_append_drop n (l.mergeSort le)] at hsorted
  refine (List.pairwise_append.mp hsorted).2.2 a ha b ?_
  have hmem : b ∈ (l.mergeSort le).take n ++ (l.mergeSort le).drop n := by
    rw [List.take_append_drop]
    exact List.mem_mergeSort.mpr hb
  exact (List.mem_append.mp hmem).resolve_left hout

end

/-- At most `n` keys of a list with how often they occur, most frequent first, and
none left out that occurs more often. -/
structure Leading (ks : List κ) (n : ℕ) (l : List (κ × ℕ)) : Prop where
  counted : ∀ e ∈ l, e.1 ∈ ks ∧ e.2 = ks.count e.1
  distinct : (l.map Prod.fst).Nodup
  length : l.length = min n ks.dedup.length
  sorted : l.Pairwise fun e e' => e'.2 ≤ e.2
  beaten : ∀ k ∈ ks, k ∉ l.map Prod.fst → ∀ e ∈ l, ks.count k ≤ e.2

theorem keys_tally_perm : (keys (tally Dict.empty ks)).Perm ks.dedup := by
  refine (List.perm_ext_iff_of_nodup (tally Dict.empty ks).distinct ks.nodup_dedup).mpr fun k => ?_
  rw [List.mem_dedup]
  exact (mem_keys_tally _ _).trans (or_iff_right List.not_mem_nil)

theorem leading_top (n : ℕ) :
    Leading ks n (top (fun a b => decide (b.2 ≤ a.2)) n (tally Dict.empty ks).entries) := by
  have htrans : ∀ a b c : κ × ℕ, decide (b.2 ≤ a.2) → decide (c.2 ≤ b.2) → decide (c.2 ≤ a.2) := by
    simp only [decide_eq_true_eq]
    exact fun a b c hab hbc => hbc.trans hab
  have htotal : ∀ a b : κ × ℕ, (decide (b.2 ≤ a.2) || decide (a.2 ≤ b.2)) = true := by
    simp only [Bool.or_eq_true, decide_eq_true_eq]
    exact fun a b => Nat.le_total b.2 a.2
  have hentry : ∀ e, e ∈ (tally Dict.empty ks).entries ↔ e.1 ∈ ks ∧ e.2 = ks.count e.1 := by
    intro e
    rw [mem_entries, mem_keys_tally, count_tally]
    have hcount : count (Dict.empty : Dict κ ℕ) e.1 + ks.count e.1 = ks.count e.1 := Nat.zero_add _
    rw [hcount]
    exact and_congr_left' (or_iff_right List.not_mem_nil)
  refine ⟨fun e he => (hentry e).mp (mem_of_mem_top he), ?_, ?_, ?_, fun k hk hout e he => ?_⟩
  · have hperm := List.mergeSort_perm (tally Dict.empty ks).entries fun a b => decide (b.2 ≤ a.2)
    have hkeys := (hperm.map Prod.fst).nodup_iff.mpr (tally Dict.empty ks).distinct
    exact hkeys.sublist ((List.take_sublist _ _).map Prod.fst)
  · rw [length_top, ← (keys_tally_perm ks).length_eq, keys, List.length_map]
  · exact (pairwise_top htrans htotal).imp fun h => of_decide_eq_true h
  · have hmem : (k, ks.count k) ∈ (tally Dict.empty ks).entries := (hentry _).mpr ⟨hk, rfl⟩
    have hle := le_of_not_mem_top htrans htotal he hmem fun h => hout (List.mem_map_of_mem h)
    exact of_decide_eq_true hle

end Counter
