import Mathlib.Data.List.Perm.Basic
import Mathlib.Data.List.Perm.Lattice
import Mathlib.Data.List.Nodup
import Mathlib.Data.List.Sort
import Mathlib.Order.Basic

/-!
# Paging by offset and limit

Every request sorts the same rows by a key, descending, and cuts its page out of
them. Rows of the same key may stand in another order at every request.
-/

namespace Paging

/-! ### Pages of one list -/

section

variable {α : Type*}

/-- `.offset(offset).limit(limit)`. -/
def slice (offset limit : ℕ) (l : List α) : List α := (l.drop offset).take limit

theorem length_slice (offset limit : ℕ) (l : List α) :
    (slice offset limit l).length = min limit (l.length - offset) := by
  unfold slice
  rw [List.length_take, List.length_drop]

theorem take_append_slice (offset limit : ℕ) (l : List α) :
    l.take offset ++ slice offset limit l = l.take (offset + limit) := by
  unfold slice
  rw [List.take_add]

theorem slice_eq_nil {offset limit : ℕ} {l : List α} (h : l.length ≤ offset) :
    slice offset limit l = [] := by
  unfold slice
  rw [List.drop_eq_nil_of_le h, List.take_nil]

theorem pages_eq_take (size : ℕ) (l : List α) (n : ℕ) :
    (List.range n).flatMap (fun i => slice (i * size) size l) = l.take (n * size) := by
  induction n with
  | zero => rw [Nat.zero_mul, List.take_zero, List.range_zero, List.flatMap_nil]
  | succ n ih =>
    rw [List.range_succ, List.flatMap_append, ih, List.flatMap_singleton, take_append_slice,
      Nat.succ_mul]

/-- A page before one that has rows is full. -/
theorem length_slice_of_later {size i j : ℕ} {l : List α} (hij : i < j)
    (h : slice (j * size) size l ≠ []) : (slice (i * size) size l).length = size := by
  have hpos : j * size < l.length := by
    by_contra hle
    exact h (slice_eq_nil (Nat.le_of_not_lt hle))
  have hstep : (i + 1) * size ≤ j * size := Nat.mul_le_mul_right size hij
  rw [Nat.succ_mul] at hstep
  rw [length_slice]
  omega

end

/-! ### Walks -/

section

variable {ε β : Type*} (fetch : ℕ → Except ε β) (total : β → ℕ) (limit : ℕ)

/-- The pages a client fetches, from the `k`-th on, until its offset reaches the
total it is told. -/
inductive Walk : ℕ → List β → Prop
  | last {k : ℕ} {page : β} (h : fetch k = .ok page) (hend : total page ≤ (k + 1) * limit) :
      Walk k [page]
  | next {k : ℕ} {page : β} {rest : List β} (h : fetch k = .ok page)
      (hmore : (k + 1) * limit < total page) (hrest : Walk (k + 1) rest) : Walk k (page :: rest)

variable {fetch total limit}

theorem Walk.first {k : ℕ} {pages : List β} (h : Walk fetch total limit k pages) :
    ∃ page, fetch k = .ok page ∧ page ∈ pages := by
  cases h with
  | last h _ => exact ⟨_, h, List.mem_singleton_self _⟩
  | next h _ _ => exact ⟨_, h, List.mem_cons_self⟩

variable {page : ℕ → β} {n : ℕ}

/-- A walk under an unchanged total: `m` more pages when these reach it. -/
theorem walk_of_total (hfetch : ∀ k, fetch k = .ok (page k))
    (htotal : ∀ k, total (page k) = n) (m k : ℕ) (hmore : n ≤ (k + m + 1) * limit) :
    ∃ count, n ≤ (k + count) * limit ∧
      Walk fetch total limit k ((List.range count).map fun i => page (k + i)) := by
  induction m generalizing k with
  | zero =>
    refine ⟨1, hmore, ?_⟩
    exact Walk.last (hfetch k) (by rw [htotal]; exact hmore)
  | succ m ih =>
    by_cases hend : n ≤ (k + 1) * limit
    · exact ⟨1, hend, Walk.last (hfetch k) (by rw [htotal]; exact hend)⟩
    · have hnext : n ≤ (k + 1 + m + 1) * limit := by
        rw [Nat.add_right_comm k 1 m]
        exact hmore
      obtain ⟨count, hcount, hwalk⟩ := ih (k + 1) hnext
      refine ⟨count + 1, ?_, ?_⟩
      · rw [← Nat.add_assoc, Nat.add_right_comm]
        exact hcount
      · rw [List.range_succ_eq_map, List.map_cons, List.map_map]
        refine Walk.next (hfetch k) (by rw [htotal]; omega) ?_
        have hshift : (fun i => page (k + i)) ∘ Nat.succ = fun i => page (k + 1 + i) := by
          funext i
          show page (k + (i + 1)) = page (k + 1 + i)
          rw [Nat.add_right_comm, Nat.add_assoc]
        rw [hshift]
        exact hwalk

theorem walk_exists (hlimit : 0 < limit) (hfetch : ∀ k, fetch k = .ok (page k))
    (htotal : ∀ k, total (page k) = n) :
    ∃ count, n ≤ count * limit ∧ Walk fetch total limit 0 ((List.range count).map page) := by
  have hreach : n ≤ (0 + n + 1) * limit := by
    rw [Nat.zero_add]
    exact Nat.le_trans (Nat.le_succ n) (Nat.le_mul_of_pos_right (n + 1) hlimit)
  obtain ⟨count, hcount, hwalk⟩ := walk_of_total hfetch htotal n 0 hreach
  simp only [Nat.zero_add] at hcount hwalk
  exact ⟨count, hcount, hwalk⟩

end

/-! ### `ORDER BY key DESC` -/

section

variable {α κ : Type*} [LinearOrder κ] (key : α → κ)

def Descending (l : List α) : Prop := l.Pairwise fun a b => key b ≤ key a

def Arrangement (rows l : List α) : Prop := l.Perm rows ∧ Descending key l

/-- A database that answers every such query. -/
def Arranges (order : List α → List α) : Prop := ∀ rows, Arrangement key rows (order rows)

def countAbove (rows : List α) (v : κ) : ℕ := rows.countP fun a => v < key a

def countAtLeast (rows : List α) (v : κ) : ℕ := rows.countP fun a => v ≤ key a

/-- Rows of one key stand on both sides of the boundary in front of position `p`. -/
def Splits (rows : List α) (p : ℕ) : Prop :=
  ∃ v, countAbove key rows v < p ∧ p < countAtLeast key rows v

/-- Rows in no order at all are split at every boundary between two of them. -/
theorem splits_const_iff (v : κ) {rows : List α} {p : ℕ} :
    Splits (fun _ => v) rows p ↔ 0 < p ∧ p < rows.length := by
  unfold Splits countAbove countAtLeast
  constructor
  · intro h
    obtain ⟨w, habove, hatLeast⟩ := h
    exact ⟨Nat.lt_of_le_of_lt (Nat.zero_le _) habove,
      Nat.lt_of_lt_of_le hatLeast List.countP_le_length⟩
  · intro h
    refine ⟨v, ?_, ?_⟩
    · rw [List.countP_eq_zero.mpr fun _ _ => by simp]
      exact h.1
    · rw [List.countP_eq_length.mpr fun _ _ => by simp]
      exact h.2

theorem not_splits_const_iff (v : κ) {rows : List α} {size : ℕ} :
    (∀ k, ¬Splits (fun _ => v) rows (k * size)) ↔ rows.length ≤ size ∨ size = 0 := by
  simp only [splits_const_iff]
  constructor
  · intro h
    have hone := h 1
    rw [Nat.one_mul] at hone
    omega
  · intro h k hk
    rcases h with h | rfl
    · cases k with
      | zero => omega
      | succ k =>
        rw [Nat.succ_mul] at hk
        omega
    · exact Nat.lt_irrefl 0 (by simpa using hk.1)

def sortDescending (rows : List α) : List α := rows.insertionSort fun a b => key b ≤ key a

theorem arranges_sortDescending : Arranges key (sortDescending key) := by
  intro rows
  have : Std.Total fun a b : α => key b ≤ key a := ⟨fun a b => le_total (key b) (key a)⟩
  have : IsTrans α fun a b => key b ≤ key a := ⟨fun _ _ _ hab hbc => le_trans hbc hab⟩
  exact ⟨List.perm_insertionSort _ rows, List.pairwise_insertionSort _ rows⟩

variable {key}

theorem Arrangement.arranges_update [DecidableEq α] {order : List α → List α}
    (horder : Arranges key order) {rows l : List α} (h : Arrangement key rows l) :
    Arranges key (Function.update order rows l) := by
  intro rows'
  by_cases heq : rows' = rows
  · subst heq
    rw [Function.update_self]
    exact h
  · rw [Function.update_of_ne heq]
    exact horder rows'

/-- Rows with keys of their own can only be arranged in one way. -/
theorem Arrangement.unique {rows l l' : List α} (hkeys : (rows.map key).Nodup)
    (h : Arrangement key rows l) (h' : Arrangement key rows l') : l = l' := by
  refine List.Perm.eq_of_pairwise (fun a b ha hb hab hba => ?_) h.2 h'.2 (h.1.trans h'.1.symm)
  have ha' := h.1.mem_iff.mp ha
  have hb' := h'.1.mem_iff.mp hb
  exact List.inj_on_of_nodup_map hkeys ha' hb' (le_antisymm hba hab)

theorem countAbove_perm {l rows : List α} (h : l.Perm rows) (v : κ) :
    countAbove key l v = countAbove key rows v := h.countP_eq _

theorem countAtLeast_perm {l rows : List α} (h : l.Perm rows) (v : κ) :
    countAtLeast key l v = countAtLeast key rows v := h.countP_eq _

/-- Rows with a property that only rows behind them lack come first. -/
theorem filter_append_filter_not {p : α → Bool} {l : List α}
    (h : l.Pairwise fun a b => p b = true → p a = true) :
    l.filter p ++ l.filter (fun a => !p a) = l := by
  induction l with
  | nil => rfl
  | cons a l ih =>
    obtain ⟨hfirst, hrest⟩ := List.pairwise_cons.mp h
    cases ha : p a with
    | true =>
      rw [List.filter_cons_of_pos ha, List.filter_cons_of_neg (by simp [ha]), List.cons_append,
        ih hrest]
    | false =>
      have hnone : ∀ b ∈ a :: l, p b = false := by
        intro b hb
        rcases List.mem_cons.mp hb with rfl | hb
        · exact ha
        · exact Bool.eq_false_iff.mpr fun hpb => Bool.eq_false_iff.mp ha (hfirst b hb hpb)
      have hempty : (a :: l).filter p = [] :=
        List.filter_eq_nil_iff.mpr fun b hb => Bool.eq_false_iff.mp (hnone b hb)
      have hall : (a :: l).filter (fun b => !p b) = a :: l :=
        List.filter_eq_self.mpr fun b hb => by rw [hnone b hb]; rfl
      rw [hempty, hall, List.nil_append]

theorem Descending.take_countAbove {l : List α} (h : Descending key l) (v : κ) :
    l.take (countAbove key l v) = l.filter fun a => v < key a := by
  have hup : l.Pairwise fun a b => decide (v < key b) = true → decide (v < key a) = true :=
    h.imp fun hab hb => decide_eq_true (lt_of_lt_of_le (of_decide_eq_true hb) hab)
  have hlen : countAbove key l v = (l.filter fun a => v < key a).length :=
    List.countP_eq_length_filter
  have htake : ((l.filter fun a => decide (v < key a)) ++
      l.filter fun a => !decide (v < key a)).take (l.filter fun a => decide (v < key a)).length =
        l.filter fun a => decide (v < key a) := List.take_left
  rwa [filter_append_filter_not hup, ← hlen] at htake

/-- The rows above the key of the row at `p` stand in front of it, those of its
key or above reach beyond it. -/
theorem count_key_at {rows l : List α} (h : Arrangement key rows l) {p : ℕ} (hp : p < l.length) :
    countAbove key rows (key l[p]) ≤ p ∧ p < countAtLeast key rows (key l[p]) := by
  have hl : l.take p ++ l[p] :: l.drop (p + 1) = l := by
    rw [List.getElem_cons_drop, List.take_append_drop]
  have hlen : (l.take p).length = p := List.length_take_of_le (Nat.le_of_lt hp)
  have hdesc := h.2
  rw [← countAbove_perm h.1, ← countAtLeast_perm h.1]
  generalize l[p] = a at hl ⊢
  rw [← hl, Descending, List.pairwise_append, List.pairwise_cons] at hdesc
  obtain ⟨_, ⟨hbehind, _⟩, hacross⟩ := hdesc
  rw [← hl]
  unfold countAbove countAtLeast
  rw [List.countP_append, List.countP_append, List.countP_cons, List.countP_cons]
  have hfront : (l.take p).countP (fun b => decide (key a ≤ key b)) = (l.take p).length :=
    List.countP_eq_length.mpr fun b hb => decide_eq_true (hacross b hb a List.mem_cons_self)
  have hrest : (l.drop (p + 1)).countP (fun b => decide (key a < key b)) = 0 :=
    List.countP_eq_zero.mpr fun b hb => by simpa using hbehind b hb
  have habove : (l.take p).countP (fun b => decide (key a < key b)) ≤ (l.take p).length :=
    List.countP_le_length
  rw [hfront, hrest, hlen]
  simp only [lt_self_iff_false, le_refl, decide_true, decide_false, if_true, Bool.false_eq_true,
    if_false]
  omega

/-- Where no key is split, the first rows are the same in every arrangement. -/
theorem take_perm_of_not_splits {rows l l' : List α} {p : ℕ} (hsplit : ¬Splits key rows p)
    (h : Arrangement key rows l) (h' : Arrangement key rows l') :
    (l.take p).Perm (l'.take p) := by
  by_cases hp : p < l.length
  · obtain ⟨hle, hlt⟩ := count_key_at h hp
    have hcount : countAbove key rows (key l[p]) = p := by
      by_contra hne
      exact hsplit ⟨key l[p], Nat.lt_of_le_of_ne hle hne, hlt⟩
    have htake := h.2.take_countAbove (key l[p])
    have htake' := h'.2.take_countAbove (key l[p])
    rw [countAbove_perm h.1, hcount] at htake
    rw [countAbove_perm h'.1, hcount] at htake'
    rw [htake, htake']
    exact (h.1.trans h'.1.symm).filter _
  · have hlen : l'.length = l.length := (h'.1.trans h.1.symm).length_eq
    rw [List.take_of_length_le (Nat.le_of_not_lt hp),
      List.take_of_length_le (by rw [hlen]; exact Nat.le_of_not_lt hp)]
    exact h.1.trans h'.1.symm

theorem drop_perm_of_not_splits {rows l l' : List α} {p : ℕ} (hsplit : ¬Splits key rows p)
    (h : Arrangement key rows l) (h' : Arrangement key rows l') :
    (l.drop p).Perm (l'.drop p) := by
  have hboth : (l.take p ++ l.drop p).Perm (l'.take p ++ l'.drop p) := by
    rw [List.take_append_drop, List.take_append_drop]
    exact h.1.trans h'.1.symm
  have htake := take_perm_of_not_splits hsplit h h'
  exact (List.perm_append_left_iff _).mp (hboth.trans (htake.symm.append_right _))

/-- There the front of one answer and the rest of another are an answer. -/
theorem arrangement_take_append_drop {rows l l' : List α} {p : ℕ} (hsplit : ¬Splits key rows p)
    (h : Arrangement key rows l) (h' : Arrangement key rows l') :
    Arrangement key rows (l.take p ++ l'.drop p) := by
  have hdrop := drop_perm_of_not_splits hsplit h h'
  have hdesc : Descending key (l.take p ++ l.drop p) := by
    rw [List.take_append_drop]
    exact h.2
  obtain ⟨hfront, -, hacross⟩ := List.pairwise_append.mp hdesc
  refine ⟨?_, List.pairwise_append.mpr ⟨hfront, h'.2.sublist (List.drop_sublist _ _),
    fun a ha b hb => hacross a ha b (hdrop.mem_iff.mpr hb)⟩⟩
  have hperm : (l.take p ++ l'.drop p).Perm l := by
    simpa only [List.take_append_drop] using hdrop.symm.append_left (l.take p)
  exact hperm.trans h.1

theorem descending_of_keys {l l' : List α} (h : Descending key l)
    (hkeys : l'.map key = l.map key) : Descending key l' := by
  have hmap : (l.map key).Pairwise fun x y => y ≤ x := List.pairwise_map.mpr h
  rw [← hkeys] at hmap
  exact List.pairwise_map.mp hmap

theorem Descending.blocks {l : List α} (h : Descending key l) (v : κ) :
    ∃ above at_ below, l = above ++ (at_ ++ below) ∧ above.length = countAbove key l v ∧
      above.length + at_.length = countAtLeast key l v ∧ ∀ a ∈ at_, key a = v := by
  have hup : l.Pairwise fun a b => decide (v < key b) = true → decide (v < key a) = true :=
    h.imp fun hab hb => decide_eq_true (lt_of_lt_of_le (of_decide_eq_true hb) hab)
  have hupRest : (l.filter fun a => !decide (v < key a)).Pairwise
      fun a b => decide (v ≤ key b) = true → decide (v ≤ key a) = true :=
    (h.sublist List.filter_sublist).imp fun hab hb =>
      decide_eq_true (le_trans (of_decide_eq_true hb) hab)
  have hl := filter_append_filter_not hup
  have hrest := filter_append_filter_not hupRest
  rw [← hrest] at hl
  refine ⟨_, _, _, hl.symm, (List.countP_eq_length_filter).symm, ?_, fun a ha => ?_⟩
  · have hall : (l.filter fun a => decide (v < key a)).countP (fun a => decide (v ≤ key a)) =
        (l.filter fun a => decide (v < key a)).length :=
      List.countP_eq_length.mpr fun a ha =>
        decide_eq_true (le_of_lt (of_decide_eq_true (List.mem_filter.mp ha).2))
    unfold countAtLeast
    conv_rhs => rw [← filter_append_filter_not hup]
    rw [List.countP_append, hall]
    exact congrArg _ (List.countP_eq_length_filter).symm
  · obtain ⟨hmem, hle⟩ := List.mem_filter.mp ha
    have hnot := (List.mem_filter.mp hmem).2
    have hge : key a ≤ v := by simpa using hnot
    exact le_antisymm hge (of_decide_eq_true hle)

theorem mem_take_append {a : α} {l l' : List α} {p : ℕ} (h : l.length < p) :
    a ∈ (l ++ a :: l').take p := by
  obtain ⟨n, rfl⟩ := Nat.exists_eq_add_of_lt h
  rw [Nat.add_assoc, List.take_length_add_append, List.take_succ_cons]
  exact List.mem_append_right l List.mem_cons_self

theorem mem_drop_append {a : α} {l l' : List α} {p : ℕ} (h : p ≤ l.length) :
    a ∈ (l ++ a :: l').drop p := by
  rw [List.drop_append_of_le_length h]
  exact List.mem_append_right _ List.mem_cons_self

/-- Where a key is split, one of its rows can change sides. -/
theorem exists_swap_of_splits {rows l : List α} {p : ℕ} (hsplit : Splits key rows p)
    (h : Arrangement key rows l) :
    ∃ l', Arrangement key rows l' ∧ ∃ a, a ∈ l.take p ∧ a ∈ l'.drop p := by
  obtain ⟨v, habove, hatLeast⟩ := hsplit
  rw [← countAbove_perm h.1] at habove
  rw [← countAtLeast_perm h.1] at hatLeast
  obtain ⟨above, at_, below, hl, hlen, hlenAt, hkeys⟩ := h.2.blocks v
  cases at_ with
  | nil =>
    rw [List.length_nil] at hlenAt
    omega
  | cons a rest =>
    rw [List.length_cons] at hlenAt
    have hperm : (above ++ (rest.reverse ++ a :: below)).Perm l := by
      rw [hl]
      refine List.Perm.append_left _ (List.perm_middle.trans ?_)
      exact (List.reverse_perm rest).append_right below |>.cons a
    have hsame : (above ++ (rest.reverse ++ a :: below)).map key = l.map key := by
      have hrest : rest.map key = List.replicate rest.length v :=
        List.eq_replicate_iff.mpr ⟨List.length_map _, fun x hx => by
          obtain ⟨b, hb, rfl⟩ := List.mem_map.mp hx
          exact hkeys b (List.mem_cons_of_mem a hb)⟩
      rw [hl]
      simp only [List.map_append, List.map_cons, List.map_reverse, hrest,
        hkeys a List.mem_cons_self, List.reverse_replicate, List.cons_append]
      rw [List.append_cons, ← List.replicate_succ', List.replicate_succ, List.cons_append]
    refine ⟨_, ⟨hperm.trans h.1, descending_of_keys h.2 hsame⟩, a, ?_, ?_⟩
    · rw [hl]
      exact mem_take_append (by omega)
    · rw [← List.append_assoc]
      refine mem_drop_append ?_
      rw [List.length_append, List.length_reverse]
      omega

/-! ### Pages of many arrangements -/

/-- The first `n` pages, each cut out of the answer to its own query. -/
def pagesOf (size : ℕ) (picks : ℕ → List α) (n : ℕ) : List α :=
  (List.range n).flatMap fun i => slice (i * size) size (picks i)

theorem pagesOf_add (size : ℕ) (picks : ℕ → List α) (n m : ℕ) :
    pagesOf size picks (n + m) = pagesOf size picks n ++
      (List.range m).flatMap fun i => slice ((n + i) * size) size (picks (n + i)) := by
  unfold pagesOf
  rw [List.range_add, List.flatMap_append, List.flatMap_map]

theorem pagesOf_succ (size : ℕ) (picks : ℕ → List α) (n : ℕ) :
    pagesOf size picks (n + 1) = pagesOf size picks n ++ slice (n * size) size (picks n) := by
  rw [pagesOf_add, List.range_one, List.flatMap_singleton, Nat.add_zero]

theorem pagesOf_update (size : ℕ) (picks : ℕ → List α) (n : ℕ) (l : List α) :
    pagesOf size (Function.update picks n l) (n + 1) =
      pagesOf size picks n ++ slice (n * size) size l := by
  have hfront : pagesOf size (Function.update picks n l) n = pagesOf size picks n := by
    refine List.flatMap_congr fun i hi => ?_
    rw [Function.update_of_ne (Nat.ne_of_lt (List.mem_range.mp hi))]
  rw [pagesOf_succ, hfront, Function.update_self]

theorem pagesOf_const {size n : ℕ} {picks : ℕ → List α} {l : List α}
    (h : ∀ i < n, picks i = l) : pagesOf size picks n = l.take (n * size) := by
  rw [← pages_eq_take]
  refine List.flatMap_congr fun i hi => ?_
  rw [h i (List.mem_range.mp hi)]

/-- The pages from a boundary on are those of what lies behind it. -/
theorem pages_behind_eq_take (size : ℕ) (l : List α) (k m : ℕ) :
    (List.range m).flatMap (fun i => slice ((k + i) * size) size l) =
      (l.drop (k * size)).take (m * size) := by
  rw [← pages_eq_take]
  refine List.flatMap_congr fun i _ => ?_
  unfold slice
  rw [List.drop_drop, Nat.add_mul]

variable {rows : List α} {size : ℕ} {picks : ℕ → List α}

theorem pagesOf_perm_take (hsplit : ∀ k, ¬Splits key rows (k * size))
    (hpicks : ∀ i, Arrangement key rows (picks i)) (n : ℕ) {l : List α}
    (hl : Arrangement key rows l) : (pagesOf size picks n).Perm (l.take (n * size)) := by
  induction n generalizing l with
  | zero =>
    rw [Nat.zero_mul, List.take_zero]
    exact List.Perm.refl []
  | succ n ih =>
    rw [pagesOf_succ]
    have hfront := (ih (hpicks n)).append_right (slice (n * size) size (picks n))
    rw [take_append_slice, ← Nat.succ_mul] at hfront
    exact hfront.trans (take_perm_of_not_splits (hsplit (n + 1)) (hpicks n) hl)

/-- Then the pages are the front of an answer to the whole query. -/
theorem arrangement_pagesOf (hsplit : ∀ k, ¬Splits key rows (k * size))
    (hpicks : ∀ i, Arrangement key rows (picks i)) (n : ℕ) {l : List α}
    (hl : Arrangement key rows l) :
    Arrangement key rows (pagesOf size picks n ++ l.drop (n * size)) := by
  induction n generalizing l with
  | zero =>
    rw [Nat.zero_mul, List.drop_zero]
    exact hl
  | succ n ih =>
    have hfirst := pagesOf_perm_take hsplit hpicks (n + 1) hl
    have hold := (ih (hpicks n)).2
    have hcut : (picks n).drop (n * size) =
        slice (n * size) size (picks n) ++ (picks n).drop ((n + 1) * size) := by
      rw [Nat.succ_mul, ← List.drop_drop]
      exact (List.take_append_drop size _).symm
    rw [hcut, ← List.append_assoc, ← pagesOf_succ] at hold
    obtain ⟨hfront, -, hacross⟩ := List.pairwise_append.mp hold
    refine ⟨(hfirst.append_right _).trans ?_, List.pairwise_append.mpr
      ⟨hfront, hl.2.sublist (List.drop_sublist _ _), fun a ha b hb => ?_⟩⟩
    · rw [List.take_append_drop]
      exact hl.1
    · have hrest := drop_perm_of_not_splits (hsplit (n + 1)) (hpicks n) hl
      exact hacross a ha b (hrest.mem_iff.mpr hb)

/-- Paging gives every row once, however each query is answered, exactly when no
page boundary falls between rows of the same key. -/
theorem pagesOf_perm_iff (hrows : rows.Nodup) (hsize : 0 < size) {l : List α}
    (hl : Arrangement key rows l) :
    (∀ picks : ℕ → List α, (∀ i, Arrangement key rows (picks i)) →
      ∀ n, rows.length ≤ n * size → (pagesOf size picks n).Perm rows) ↔
    ∀ k, ¬Splits key rows (k * size) := by
  constructor
  · intro h k hsplit
    obtain ⟨l', hl', a, hfront, hbehind⟩ := exists_swap_of_splits hsplit hl
    have hreach : rows.length ≤ (k + rows.length) * size :=
      Nat.le_trans (Nat.le_add_left _ _) (Nat.le_mul_of_pos_right _ hsize)
    have hpages := h (fun i => if i < k then l else l')
      (fun i => by split; exacts [hl, hl']) (k + rows.length) hreach
    have hnodup := hpages.nodup_iff.mpr hrows
    have hfirst : pagesOf size (fun i => if i < k then l else l') k = l.take (k * size) :=
      pagesOf_const fun i hi => if_pos hi
    have hrest : (fun i => slice ((k + i) * size) size (if k + i < k then l else l')) =
        fun i => slice ((k + i) * size) size l' := by
      funext i
      rw [if_neg (Nat.not_lt.mpr (Nat.le_add_right k i))]
    have hlen : (l'.drop (k * size)).length ≤ rows.length * size := by
      rw [List.length_drop, hl'.1.length_eq]
      exact Nat.le_trans (Nat.sub_le _ _) (Nat.le_mul_of_pos_right _ hsize)
    rw [pagesOf_add, hfirst, hrest, pages_behind_eq_take, List.take_of_length_le hlen,
      List.nodup_append] at hnodup
    exact hnodup.2.2 a hfront a hbehind rfl
  · intro h picks hpicks n hn
    have hpages := pagesOf_perm_take h hpicks n hl
    rw [List.take_of_length_le (by rw [hl.1.length_eq]; exact hn)] at hpages
    exact hpages.trans hl.1

end

end Paging
