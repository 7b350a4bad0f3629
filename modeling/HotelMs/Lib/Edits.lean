import Mathlib.Data.List.Count
import Mathlib.Data.List.Nodup
import Mathlib.Data.List.Perm.Basic
import Mathlib.Data.List.Sort

/-!
# Edits that are answered later

A server holds a list of items with keys and a client a copy of it. The client sends
edits of single items; the server makes each of them at some time, and the client makes
it in the copy when it is answered. Any number can be under way at once, in any order.
If no two of them are about one item, the copy with the edits that are made and not
answered yet is the list of the server.
-/

namespace Edits

structure Editable (α κ β : Type*) where
  key : α → κ
  set : β → α → α
  key_set : ∀ b a, key (set b a) = key a

variable {α κ β : Type*} [DecidableEq κ] (I : Editable α κ β)

def edit (l : List α) (e : κ × β) : List α :=
  l.map fun a => if I.key a = e.1 then I.set e.2 a else a

def edits (l : List α) (es : List (κ × β)) : List α := es.foldl (edit I) l

variable {I} {l l' : List α} {e e' : κ × β}

/-! ### One edit -/

theorem key_ite (a : α) : I.key (if I.key a = e.1 then I.set e.2 a else a) = I.key a := by
  split
  · exact I.key_set _ _
  · rfl

@[simp] theorem map_key_edit : (edit I l e).map I.key = l.map I.key := by
  rw [edit, List.map_map]
  exact List.map_congr_left fun a _ => key_ite a

theorem edit_sublist (h : l.Sublist l') : (edit I l e).Sublist (edit I l' e) := h.map _

theorem mem_edit_of_ne {a : α} (h : I.key a ≠ e.1) : a ∈ edit I l e ↔ a ∈ l := by
  constructor
  · intro ha
    obtain ⟨b, hb, rfl⟩ := List.mem_map.mp ha
    rw [key_ite] at h
    rwa [if_neg h]
  · intro ha
    exact List.mem_map.mpr ⟨a, ha, if_neg h⟩

theorem edit_comm (h : e.1 ≠ e'.1) : edit I (edit I l e) e' = edit I (edit I l e') e := by
  unfold edit
  rw [List.map_map, List.map_map]
  refine List.map_congr_left fun a _ => ?_
  simp only [Function.comp_apply, key_ite]
  by_cases hkey : I.key a = e.1
  · have hne : I.key a ≠ e'.1 := fun hkey' => h (hkey.symm.trans hkey')
    rw [if_neg hne, if_neg hne]
  · rw [if_neg hkey, if_neg hkey]

/-- An edit takes one item from what it was to what it becomes. -/
theorem countP_edit (p : α → Bool) (hdistinct : (l.map I.key).Nodup) {a : α} (ha : a ∈ l)
    (hkey : I.key a = e.1) :
    (edit I l e).countP p + (if p a then 1 else 0) =
      l.countP p + if p (I.set e.2 a) then 1 else 0 := by
  obtain ⟨front, back, rfl⟩ := List.append_of_mem ha
  have hothers : ∀ b ∈ front ++ back, I.key b ≠ e.1 := by
    rw [List.map_append, List.map_cons] at hdistinct
    have hfresh := (List.nodup_middle.mp hdistinct).notMem
    rw [← List.map_append] at hfresh
    intro b hb hsame
    exact hfresh (List.mem_map.mpr ⟨b, hb, hsame.trans hkey.symm⟩)
  have hsame : ∀ part : List α, (∀ b ∈ part, b ∈ front ++ back) → edit I part e = part := by
    intro part hpart
    conv_rhs => rw [← List.map_id part]
    exact List.map_congr_left fun b hb => if_neg (hothers b (hpart b hb))
  have hfront := hsame front fun b hb => List.mem_append_left _ hb
  have hback := hsame back fun b hb => List.mem_append_right _ hb
  have hsplit : edit I (front ++ a :: back) e = front ++ I.set e.2 a :: back := by
    conv_rhs => rw [← hfront, ← hback]
    simp only [edit, List.map_append, List.map_cons, if_pos hkey]
  rw [hsplit]
  simp only [List.countP_append, List.countP_cons]
  omega

/-! ### Several edits -/

theorem edits_append (es es' : List (κ × β)) :
    edits I l (es ++ es') = edits I (edits I l es) es' := List.foldl_append

@[simp] theorem map_key_edits (es : List (κ × β)) : (edits I l es).map I.key = l.map I.key := by
  induction es generalizing l with
  | nil => rfl
  | cons e es ih => exact (ih (l := edit I l e)).trans map_key_edit

/-- Edits of different items can be made in any order. -/
theorem edits_perm {es es' : List (κ × β)} (h : es.Perm es')
    (hdistinct : (es.map Prod.fst).Nodup) : edits I l es = edits I l es' := by
  refine h.foldl_eq' (fun x hx y hy z => ?_) l
  by_cases hxy : x = y
  · rw [hxy]
  · exact edit_comm fun hkey => hxy (List.inj_on_of_nodup_map hdistinct hx hy hkey)

/-! ### Edits under way -/

theorem cons_eraseIdx_perm {τ : Type*} {ts : List τ} {n : ℕ} {t : τ} (h : ts[n]? = some t) :
    (t :: ts.eraseIdx n).Perm ts := by
  obtain ⟨hn, rfl⟩ := List.getElem?_eq_some_iff.mp h
  exact List.getElem_cons_eraseIdx_perm hn

/-- What the client knows and what the server has, with the edits that are sent and those
that are made. -/
structure Underway (I : Editable α κ β) (known current : List α) (sent made : List (κ × β)) :
    Prop where
  apart : ((sent ++ made).map Prod.fst).Nodup
  current_eq : current = edits I known made

namespace Underway

variable {known current : List α} {sent made : List (κ × β)}

theorem refl : Underway I l l [] [] := ⟨List.nodup_nil, rfl⟩

theorem quiet (h : Underway I known current sent []) : current = known := h.current_eq

theorem send (h : Underway I known current sent made) (hfresh : ∀ e' ∈ sent ++ made, e'.1 ≠ e.1) :
    Underway I known current (sent ++ [e]) made := by
  refine ⟨?_, h.current_eq⟩
  rw [List.append_assoc, List.singleton_append, List.map_append, List.map_cons,
    List.nodup_middle, ← List.map_append, List.nodup_cons]
  refine ⟨fun hmem => ?_, h.apart⟩
  obtain ⟨e', he', hkey⟩ := List.mem_map.mp hmem
  exact hfresh e' he' hkey

section

variable {n : ℕ}

theorem apart_of_perm {moved : List (κ × β)} (h : Underway I known current sent made)
    (hperm : moved.Perm (sent ++ made)) : (moved.map Prod.fst).Nodup :=
  (hperm.map Prod.fst).nodup_iff.mpr h.apart

theorem make (h : Underway I known current sent made) (hn : sent[n]? = some e) :
    Underway I known (edit I current e) (sent.eraseIdx n) (made ++ [e]) := by
  have hperm : (sent.eraseIdx n ++ (made ++ [e])).Perm (sent ++ made) := by
    have hlast : (sent.eraseIdx n ++ (made ++ [e])).Perm (e :: (sent.eraseIdx n ++ made)) := by
      rw [← List.append_assoc]
      exact List.perm_append_singleton _ _
    exact hlast.trans ((cons_eraseIdx_perm hn).append_right made)
  refine ⟨h.apart_of_perm hperm, ?_⟩
  rw [edits_append, ← h.current_eq]
  rfl

/-- An edit that does not reach the server. -/
theorem drop (h : Underway I known current sent made) (n : ℕ) :
    Underway I known current (sent.eraseIdx n) made := by
  refine ⟨h.apart.sublist ?_, h.current_eq⟩
  exact ((List.eraseIdx_sublist _ _).append_right _).map _

theorem answer (h : Underway I known current sent made) (hn : made[n]? = some e) :
    Underway I (edit I known e) current sent (made.eraseIdx n) := by
  have hfirst : (made.map Prod.fst).Nodup := by
    have hapart := h.apart
    rw [List.map_append] at hapart
    exact hapart.of_append_right
  refine ⟨h.apart.sublist (((List.eraseIdx_sublist _ _).append_left _).map _), ?_⟩
  rw [h.current_eq]
  exact edits_perm (cons_eraseIdx_perm hn).symm hfirst

end

end Underway

/-! ### Sorting and selecting -/

variable (r : α → α → Prop) [DecidableRel r] (p : α → Bool)

theorem filter_orderedInsert (htrans : ∀ a b c, r a b → r b c → r a c) {a : α}
    (hsorted : l.Pairwise r) :
    (l.orderedInsert r a).filter p =
      if p a then (l.filter p).orderedInsert r a else l.filter p := by
  induction l with
  | nil => cases hp : p a <;> simp [hp]
  | cons b l ih =>
    obtain ⟨hb, hl⟩ := List.pairwise_cons.mp hsorted
    by_cases hab : r a b
    · rw [List.orderedInsert_cons, if_pos hab, List.filter_cons]
      split
      · have hall : ∀ c ∈ (b :: l).filter p, r a c := by
          intro c hc
          rcases List.mem_cons.mp (List.mem_of_mem_filter hc) with rfl | hc
          · exact hab
          · exact htrans a b c hab (hb c hc)
        cases hkept : (b :: l).filter p with
        | nil => rfl
        | cons c kept =>
          rw [hkept] at hall
          exact (if_pos (hall c List.mem_cons_self)).symm
      · rfl
    · rw [List.orderedInsert_cons, if_neg hab, List.filter_cons, List.filter_cons, ih hl]
      split
      · split
        · exact (if_neg hab).symm
        · rfl
      · rfl

/-- A stable sort and a selection can change places. -/
theorem filter_insertionSort [Std.Total r] [IsTrans α r] :
    (l.insertionSort r).filter p = (l.filter p).insertionSort r := by
  induction l with
  | nil => rfl
  | cons a l ih =>
    rw [List.insertionSort_cons, filter_orderedInsert r p (fun _ _ _ => trans_of r)
      (List.pairwise_insertionSort r l), ih, List.filter_cons]
    split
    · rfl
    · rfl

end Edits
