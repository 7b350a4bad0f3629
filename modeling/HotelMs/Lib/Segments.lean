import Mathlib.Data.List.Basic
import Mathlib.Data.List.Count
import Mathlib.Data.List.Infix

/-!
# Cutting a path at one of its segments

`text.split(word)` for a word that is a segment between two separators. The cut
consumes both, so of two such segments side by side only the first is found.
-/

namespace Segments

section

variable {α : Type*}

def joined (sep : α) (segments : List (List α)) : List α := [sep].intercalate segments

/-- The word of a segment. -/
def between (sep : α) (b : List α) : List α := sep :: b ++ [sep]

variable {sep : α} {b : List α}

theorem joined_singleton (x : List α) : joined sep [x] = x := List.intercalate_singleton

theorem joined_cons_cons (x y : List α) (rest : List (List α)) :
    joined sep (x :: y :: rest) = x ++ sep :: joined sep (y :: rest) := by
  unfold joined
  rw [List.intercalate_cons_cons, List.append_assoc, List.singleton_append]

theorem joined_cons_of_ne {x : List α} {rest : List (List α)} (h : rest ≠ []) :
    joined sep (x :: rest) = x ++ sep :: joined sep rest := by
  obtain ⟨y, ys, rfl⟩ := List.exists_cons_of_ne_nil h
  exact joined_cons_cons x y ys

theorem joined_append {front back : List (List α)} (hfront : front ≠ []) (hback : back ≠ []) :
    joined sep (front ++ back) = joined sep front ++ sep :: joined sep back := by
  induction front with
  | nil => exact absurd rfl hfront
  | cons x rest ih =>
    rw [List.cons_append, joined_cons_of_ne (List.append_ne_nil_of_right_ne_nil rest hback)]
    cases rest with
    | nil => rw [List.nil_append, joined_singleton]
    | cons y ys =>
      rw [ih (List.cons_ne_nil y ys), joined_cons_cons, List.append_assoc]
      rfl

theorem joined_flatten {groups : List (List (List α))} (h : ∀ g ∈ groups, g ≠ []) :
    joined sep (groups.map (joined sep)) = joined sep groups.flatten := by
  induction groups with
  | nil => rfl
  | cons g groups ih =>
    have hg := h g List.mem_cons_self
    have hrest := ih fun x hx => h x (List.mem_cons_of_mem _ hx)
    cases groups with
    | nil =>
      rw [List.map_singleton, joined_singleton, List.flatten_cons, List.flatten_nil,
        List.append_nil]
    | cons g' more =>
      have hflat : (g' :: more).flatten ≠ [] := by
        have hg' := h g' (List.mem_cons_of_mem _ List.mem_cons_self)
        exact fun hnil => hg' (List.append_eq_nil_iff.mp hnil).1
      rw [List.map_cons, List.map_cons, joined_cons_cons, List.flatten_cons,
        joined_append hg hflat, ← hrest, List.map_cons]

/-- The last segment of a path may be `b`. -/
theorem not_mem_dropLast_cons {f : List α} {rest : List (List α)} (hf : f ≠ b) :
    b ∉ (f :: rest).dropLast ↔ b ∉ rest.dropLast := by
  cases rest with
  | nil => exact iff_of_true List.not_mem_nil List.not_mem_nil
  | cons g rest =>
    rw [List.dropLast_cons_of_ne_nil (List.cons_ne_nil g rest), List.mem_cons, not_or]
    exact and_iff_right hf.symm

theorem not_prefix_of_ne {c : α} {text : List α} (h : c ≠ sep) :
    ¬between sep b <+: c :: text := by
  intro hprefix
  exact h (List.cons_prefix_cons.mp hprefix).1.symm

end

section

variable {α : Type*} [DecidableEq α] {sep : α} {b : List α}

theorem joined_injective {segments others : List (List α)} (hne : segments ≠ [])
    (hne' : others ≠ []) (h : ∀ x ∈ segments, sep ∉ x) (h' : ∀ x ∈ others, sep ∉ x) :
    joined sep segments = joined sep others ↔ segments = others := by
  constructor
  · intro hsame
    rw [← List.splitOn_intercalate sep h hne, ← List.splitOn_intercalate sep h' hne']
    exact congrArg (List.splitOn sep) hsame
  · exact congrArg (joined sep)

theorem not_mem_of_mem_splitOn {text : List α} : ∀ x ∈ text.splitOn sep, sep ∉ x := by
  induction text with
  | nil =>
    intro x hx
    rw [List.splitOn_nil, List.mem_singleton] at hx
    rw [hx]
    exact List.not_mem_nil
  | cons c text ih =>
    obtain ⟨piece, more, hpieces⟩ := List.exists_cons_of_ne_nil (List.splitOn_ne_nil sep text)
    rw [hpieces] at ih
    rw [List.splitOn_cons_eq_if_modifyHead, hpieces]
    split
    · intro x hx
      rcases List.mem_cons.mp hx with rfl | hx
      · exact List.not_mem_nil
      · exact ih x hx
    next hc =>
      intro x hx
      rw [List.modifyHead_cons] at hx
      rcases List.mem_cons.mp hx with rfl | hx
      · intro hmem
        rcases List.mem_cons.mp hmem with rfl | hmem
        · exact hc (beq_self_eq_true sep)
        · exact ih piece List.mem_cons_self hmem
      · exact ih x (List.mem_cons_of_mem _ hx)

theorem joined_splitOn (text : List α) : joined sep (text.splitOn sep) = text :=
  List.intercalate_splitOn sep

/-- The word is found where the next segment is `b` and another one follows. -/
theorem prefix_joined_iff (hb : sep ∉ b) {y : List α} {rest : List (List α)} (hy : sep ∉ y) :
    between sep b <+: sep :: joined sep (y :: rest) ↔ y = b ∧ rest ≠ [] := by
  constructor
  · rintro ⟨tail, htail⟩
    have hsame : b ++ sep :: tail = joined sep (y :: rest) := by
      have hcons : b ++ [sep] ++ tail = joined sep (y :: rest) := (List.cons.inj htail).2
      rw [List.append_assoc, List.singleton_append] at hcons
      exact hcons
    have hrest : rest ≠ [] := by
      rintro rfl
      rw [joined_singleton] at hsame
      rw [← hsame] at hy
      exact hy (List.mem_append_right _ List.mem_cons_self)
    rw [joined_cons_of_ne hrest] at hsame
    have hsplit := congrArg (List.splitOn sep) hsame
    rw [List.splitOn_append_cons_self_of_not_mem hb,
      List.splitOn_append_cons_self_of_not_mem hy] at hsplit
    exact ⟨(List.cons.inj hsplit).1.symm, hrest⟩
  · rintro ⟨rfl, hrest⟩
    refine ⟨joined sep rest, ?_⟩
    rw [joined_cons_of_ne hrest, between, List.append_assoc]
    rfl

/-! ### Cutting -/

/-- `skip` is what is left of the word that was found. -/
def splitFrom (word : List α) : ℕ → List α → List (List α)
  | _, [] => [[]]
  | skip + 1, _ :: text => splitFrom word skip text
  | 0, c :: text =>
    if word <+: c :: text then [] :: splitFrom word (word.length - 1) text
    else (splitFrom word 0 text).modifyHead (c :: ·)

/-- `text.split(word)`. -/
def splitText (word text : List α) : List (List α) := splitFrom word 0 text

/-- The pieces of a path that is cut at `b`. -/
def pieces (b : List α) : List (List α) → List (List (List α))
  | [] => [[]]
  | [x] => [[x]]
  | x :: y :: rest =>
    if y = b ∧ rest ≠ [] then [x] :: pieces b rest
    else (pieces b (y :: rest)).modifyHead (x :: ·)

theorem splitFrom_drop (word : List α) (skip : ℕ) (text : List α) :
    splitFrom word skip text = splitFrom word 0 (text.drop skip) := by
  induction skip generalizing text with
  | zero => rfl
  | succ skip ih =>
    cases text with
    | nil => rfl
    | cons c text => exact ih text

theorem splitFrom_append {segment : List α} (h : sep ∉ segment) (text : List α) :
    splitFrom (between sep b) 0 (segment ++ text) =
      (splitFrom (between sep b) 0 text).modifyHead (segment ++ ·) := by
  induction segment with
  | nil =>
    rw [List.nil_append]
    cases splitFrom (between sep b) 0 text <;> rfl
  | cons c segment ih =>
    have hc : c ≠ sep := fun heq => h (heq ▸ List.mem_cons_self)
    have hrest : sep ∉ segment := fun hmem => h (List.mem_cons_of_mem _ hmem)
    rw [List.cons_append, splitFrom, if_neg (not_prefix_of_ne hc), ih hrest,
      List.modifyHead_modifyHead]
    rfl

theorem splitFrom_between (text : List α) :
    splitFrom (between sep b) 0 (between sep b ++ text) =
      [] :: splitFrom (between sep b) 0 text := by
  have hword : between sep b <+: sep :: (b ++ [sep] ++ text) := ⟨text, rfl⟩
  have hlength : (between sep b).length - 1 = (b ++ [sep]).length := rfl
  show splitFrom (between sep b) 0 (sep :: (b ++ [sep] ++ text)) = _
  rw [splitFrom, if_pos hword, splitFrom_drop, hlength, List.drop_left]

/-- The first piece begins with the first segment. -/
theorem pieces_cons (y : List α) (rest : List (List α)) :
    ∃ piece more, pieces b (y :: rest) = (y :: piece) :: more := by
  induction rest generalizing y with
  | nil => exact ⟨[], [], rfl⟩
  | cons z rest ih =>
    rw [pieces]
    split
    · exact ⟨[], _, rfl⟩
    · obtain ⟨piece, more, hpieces⟩ := ih z
      rw [hpieces]
      exact ⟨z :: piece, more, rfl⟩

theorem splitText_joined (hb : sep ∉ b) {segments : List (List α)} (hne : segments ≠ [])
    (h : ∀ x ∈ segments, sep ∉ x) :
    splitText (between sep b) (joined sep segments) = (pieces b segments).map (joined sep) := by
  unfold splitText
  induction segments using pieces.induct b with
  | case1 => exact absurd rfl hne
  | case2 x =>
    have hx := h x List.mem_cons_self
    have hsplit := splitFrom_append (b := b) hx []
    rw [List.append_nil] at hsplit
    rw [joined_singleton, hsplit]
    show [x ++ []] = [joined sep [x]]
    rw [List.append_nil, joined_singleton]
  | case3 x y rest hcut ih =>
    obtain ⟨rfl, hrest⟩ := hcut
    have hx := h x List.mem_cons_self
    have hpath : joined sep (x :: y :: rest) = x ++ (between sep y ++ joined sep rest) := by
      rw [joined_cons_cons, joined_cons_of_ne hrest, between, List.append_assoc]
      rfl
    rw [hpath, splitFrom_append hx, splitFrom_between, pieces, if_pos ⟨rfl, hrest⟩,
      ih hrest fun z hz => h z (List.mem_cons_of_mem _ (List.mem_cons_of_mem _ hz)),
      List.modifyHead_cons, List.append_nil, List.map_cons, joined_singleton]
  | case4 x y rest hcut ih =>
    have hx := h x List.mem_cons_self
    have hy := h y (List.mem_cons_of_mem _ List.mem_cons_self)
    have hword := mt (prefix_joined_iff hb hy).mp hcut
    have hnext := ih (List.cons_ne_nil y rest) fun z hz => h z (List.mem_cons_of_mem _ hz)
    obtain ⟨piece, more, hpieces⟩ := pieces_cons (b := b) y rest
    rw [joined_cons_cons, splitFrom_append hx, splitFrom, if_neg hword, hnext, pieces, if_neg hcut,
      hpieces, List.map_cons, List.modifyHead_cons, List.modifyHead_cons, List.modifyHead_cons,
      List.map_cons, joined_cons_cons]

/-! ### Joining again -/

/-- The segments that a cut leaves. -/
def kept (b : List α) (segments : List (List α)) : List (List α) := (pieces b segments).flatten

/-- Those behind the first place where it is cut. -/
def behind (b : List α) (segments : List (List α)) : List (List α) :=
  (pieces b segments).tail.flatten

theorem ne_nil_of_mem_pieces {segments : List (List α)} (hne : segments ≠ []) :
    ∀ g ∈ pieces b segments, g ≠ [] := by
  induction segments using pieces.induct b with
  | case1 => exact absurd rfl hne
  | case2 x =>
    intro g hg
    rw [List.mem_singleton.mp hg]
    exact List.cons_ne_nil _ _
  | case3 x y rest hcut ih =>
    intro g hg
    rw [pieces, if_pos hcut] at hg
    rcases List.mem_cons.mp hg with rfl | hg
    · exact List.cons_ne_nil _ _
    · exact ih hcut.2 g hg
  | case4 x y rest hcut ih =>
    intro g hg
    obtain ⟨piece, more, hpieces⟩ := pieces_cons (b := b) y rest
    have hnext := ih (List.cons_ne_nil y rest)
    rw [pieces, if_neg hcut, hpieces, List.modifyHead_cons] at hg
    rw [hpieces] at hnext
    rcases List.mem_cons.mp hg with rfl | hg
    · exact List.cons_ne_nil _ _
    · exact hnext g (List.mem_cons_of_mem _ hg)

/-- `sep.join(text.split(word)[1:])`. -/
theorem joined_splitText (hb : sep ∉ b) {segments : List (List α)} (hne : segments ≠ [])
    (h : ∀ x ∈ segments, sep ∉ x) :
    joined sep (splitText (between sep b) (joined sep segments)).tail =
      joined sep (behind b segments) := by
  rw [splitText_joined hb hne h, ← List.map_tail, behind]
  exact joined_flatten fun g hg => ne_nil_of_mem_pieces hne g (List.mem_of_mem_tail hg)

section

variable {x y : List α} {rest : List (List α)}

theorem kept_cut (hrest : rest ≠ []) : kept b (x :: b :: rest) = x :: kept b rest := by
  unfold kept
  rw [pieces, if_pos ⟨rfl, hrest⟩, List.flatten_cons, List.singleton_append]

theorem kept_next (h : ¬(y = b ∧ rest ≠ [])) :
    kept b (x :: y :: rest) = x :: kept b (y :: rest) := by
  obtain ⟨piece, more, hpieces⟩ := pieces_cons (b := b) y rest
  unfold kept
  rw [pieces, if_neg h, hpieces, List.modifyHead_cons]
  rfl

theorem behind_cut (hrest : rest ≠ []) : behind b (x :: b :: rest) = kept b rest := by
  unfold behind kept
  rw [pieces, if_pos ⟨rfl, hrest⟩, List.tail_cons]

theorem behind_next (h : ¬(y = b ∧ rest ≠ [])) :
    behind b (x :: y :: rest) = behind b (y :: rest) := by
  obtain ⟨piece, more, hpieces⟩ := pieces_cons (b := b) y rest
  unfold behind
  rw [pieces, if_neg h, hpieces, List.modifyHead_cons]
  rfl

theorem kept_sublist (b : List α) (segments : List (List α)) :
    (kept b segments).Sublist segments := by
  induction segments using pieces.induct b with
  | case1 => exact List.Sublist.refl _
  | case2 x => exact List.Sublist.refl _
  | case3 x y rest hcut ih =>
    obtain ⟨rfl, hrest⟩ := hcut
    rw [kept_cut hrest]
    exact (ih.cons y).cons_cons x
  | case4 x y rest hcut ih =>
    rw [kept_next hcut]
    exact ih.cons_cons x

/-- Nothing is lost if no inner segment is `b`. -/
theorem kept_eq_self_iff : kept b (x :: rest) = x :: rest ↔ b ∉ rest.dropLast := by
  induction rest generalizing x with
  | nil => exact iff_of_true rfl List.not_mem_nil
  | cons y rest ih =>
    by_cases hcut : y = b ∧ rest ≠ []
    · obtain ⟨rfl, hrest⟩ := hcut
      rw [kept_cut hrest, List.dropLast_cons_of_ne_nil hrest]
      refine iff_of_false (fun h => ?_) (fun h => h List.mem_cons_self)
      have hlength := congrArg List.length (List.cons.inj h).2
      have hle := (kept_sublist y rest).length_le
      rw [List.length_cons] at hlength
      omega
    · rw [kept_next hcut, List.cons.injEq, ih]
      cases rest with
      | nil => exact iff_of_true ⟨rfl, List.not_mem_nil⟩ List.not_mem_nil
      | cons z more =>
        have hne : b ≠ y := fun h => hcut ⟨h.symm, List.cons_ne_nil z more⟩
        rw [List.dropLast_cons_of_ne_nil (List.cons_ne_nil z more), List.mem_cons, not_or]
        exact ⟨fun h => ⟨hne, h.2⟩, fun h => ⟨rfl, h.2⟩⟩

/-- Only segments equal to `b` are lost. -/
theorem countP_kept (b : List α) (segments : List (List α)) :
    (kept b segments).countP (· ≠ b) = segments.countP (· ≠ b) := by
  induction segments using pieces.induct b with
  | case1 => rfl
  | case2 x => rfl
  | case3 x y rest hcut ih =>
    obtain ⟨rfl, hrest⟩ := hcut
    rw [kept_cut hrest, List.countP_cons, List.countP_cons, List.countP_cons, ih]
    simp only [ne_eq, not_true_eq_false, decide_false, Bool.false_eq_true, if_false, Nat.add_zero]
  | case4 x y rest hcut ih =>
    rw [kept_next hcut, List.countP_cons, ih, ← List.countP_cons]

theorem head_kept (x : List α) (rest : List (List α)) :
    ∃ more, kept b (x :: rest) = x :: more := by
  obtain ⟨piece, more, hpieces⟩ := pieces_cons (b := b) x rest
  unfold kept
  rw [hpieces]
  exact ⟨_, rfl⟩

theorem behind_append {front : List (List α)} (hfront : front ≠ []) (hfree : b ∉ front.tail)
    (hrest : rest ≠ []) : behind b (front ++ b :: rest) = kept b rest := by
  induction front with
  | nil => exact absurd rfl hfront
  | cons x front ih =>
    cases front with
    | nil => exact behind_cut hrest
    | cons y more =>
      have hne : y ≠ b := fun h => hfree (h ▸ List.mem_cons_self)
      have hlater : b ∉ (y :: more).tail := fun h => hfree (List.mem_cons_of_mem _ h)
      rw [List.cons_append, List.cons_append, behind_next fun h => hne h.1, ← List.cons_append]
      exact ih (List.cons_ne_nil y more) hlater

theorem mem_of_mem_behind {segments : List (List α)} (h : x ∈ behind b segments) :
    x ∈ segments := by
  obtain ⟨piece, hpiece, hx⟩ := List.mem_flatten.mp h
  exact (kept_sublist b segments).subset
    (List.mem_flatten.mpr ⟨piece, List.mem_of_mem_tail hpiece, hx⟩)

variable {front : List (List α)} {a f : List α}

/-- Of the copies of `b` the first one is where the path is cut. -/
theorem behind_of_mem {early late : List (List α)} (hearly : b ∉ early) :
    behind b (x :: (early ++ b :: late) ++ b :: rest) = kept b (late ++ b :: rest) := by
  have hpath : x :: (early ++ b :: late) ++ b :: rest =
      (x :: early) ++ b :: (late ++ b :: rest) := by
    rw [List.cons_append, List.append_assoc]
    rfl
  rw [hpath]
  exact behind_append (List.cons_ne_nil x early) hearly
    (List.append_ne_nil_of_right_ne_nil _ (List.cons_ne_nil _ _))

theorem kept_ne_nil {late : List (List α)} (hlate : late ≠ []) : kept b late ≠ [] := by
  obtain ⟨z, zs, rfl⟩ := List.exists_cons_of_ne_nil hlate
  obtain ⟨more, hmore⟩ := head_kept (b := b) z zs
  rw [hmore]
  exact List.cons_ne_nil _ _

theorem behind_ne_nil (hfront : front ≠ []) (hrest : rest ≠ []) :
    behind b (front ++ b :: rest) ≠ [] := by
  obtain ⟨z, front, rfl⟩ := List.exists_cons_of_ne_nil hfront
  by_cases hmem : b ∈ front
  · obtain ⟨early, late, rfl, hearly⟩ := List.eq_append_cons_of_mem hmem
    rw [behind_of_mem hearly]
    exact kept_ne_nil (List.append_ne_nil_of_right_ne_nil _ (List.cons_ne_nil _ _))
  · rw [behind_append (List.cons_ne_nil z front) hmem hrest]
    exact kept_ne_nil hrest

/-- A cut that loses as little as the copy of `b` has nothing else before it. -/
theorem eq_replicate_of_kept (h : kept b (front ++ b :: rest) = rest) :
    ∃ n, front = List.replicate n b := by
  have hcount := countP_kept b (front ++ b :: rest)
  rw [h, List.countP_append, List.countP_cons (a := b)] at hcount
  simp only [ne_eq, not_true_eq_false, decide_false, Bool.false_eq_true, if_false,
    Nat.add_zero] at hcount
  have hnone : front.countP (fun x => decide ¬x = b) = 0 := by omega
  have hall : ∀ x ∈ front, x = b := by
    intro x hx
    have hx' := List.countP_eq_zero.mp hnone x hx
    exact not_not.mp fun hne => hx' (decide_eq_true hne)
  exact ⟨front.length, List.eq_replicate_iff.mpr ⟨rfl, hall⟩⟩

variable (rest) in
/-- Of more than two in a row the third survives the cut at the second. -/
theorem kept_row (n : ℕ) : ∃ tail,
    kept b (List.replicate (n + 1) b ++ b :: b :: f :: rest) = b :: b :: tail := by
  have hrow : List.replicate n b ++ b :: b :: f :: rest =
      b :: b :: (List.replicate n b ++ f :: rest) := by
    rw [List.append_cons, List.append_cons, ← List.replicate_succ', ← List.replicate_succ']
    rfl
  obtain ⟨tail, htail⟩ := head_kept (b := b) b (List.replicate n b ++ f :: rest)
  refine ⟨tail, ?_⟩
  rw [List.replicate_succ, List.cons_append, hrow, kept_cut (List.cons_ne_nil _ _), htail]

/-- Cut at a copy of `b` before the place that was meant. -/
theorem kept_early_iff (hf : f ≠ a) :
    kept b (front ++ b :: a :: f :: rest) = a :: f :: rest ↔
      front = [] ∧ a = b ∧ b ∉ (f :: rest).dropLast := by
  constructor
  · intro h
    obtain ⟨n, rfl⟩ := eq_replicate_of_kept h
    have hhead : a = b := by
      cases n with
      | zero =>
        obtain ⟨more, hmore⟩ := head_kept (b := b) b (a :: f :: rest)
        rw [List.replicate_zero, List.nil_append, hmore] at h
        exact (List.cons.inj h).1.symm
      | succ n =>
        obtain ⟨more, hmore⟩ := head_kept (b := b) b (List.replicate n b ++ b :: a :: f :: rest)
        rw [List.replicate_succ, List.cons_append, hmore] at h
        exact (List.cons.inj h).1.symm
    subst hhead
    cases n with
    | zero =>
      rw [List.replicate_zero, List.nil_append, kept_cut (List.cons_ne_nil f rest), List.cons.injEq,
        kept_eq_self_iff] at h
      exact ⟨rfl, rfl, (not_mem_dropLast_cons hf).mpr h.2⟩
    | succ n =>
      obtain ⟨tail, htail⟩ := kept_row (b := a) (f := f) rest n
      rw [htail] at h
      exact absurd (List.cons.inj (List.cons.inj h).2).1.symm hf
  · rintro ⟨rfl, rfl, hfree⟩
    rw [List.nil_append, kept_cut (List.cons_ne_nil f rest), List.cons.injEq, kept_eq_self_iff]
    exact ⟨rfl, (not_mem_dropLast_cons hf).mp hfree⟩

/-- What is behind the cut is what was meant: no copy of `b` behind it, and none before
it but one that the next segment repeats. -/
theorem behind_eq_iff (hfront : front ≠ []) (hf : f ≠ a) :
    behind b (front ++ b :: a :: f :: rest) = a :: f :: rest ↔
      b ∉ (f :: rest).dropLast ∧ (b ∉ front.tail ∨
        a = b ∧ front.tail.getLast? = some b ∧ b ∉ front.tail.dropLast) := by
  obtain ⟨x, front, rfl⟩ := List.exists_cons_of_ne_nil hfront
  rw [List.tail_cons]
  by_cases hmem : b ∈ front
  · obtain ⟨early, late, rfl, hearly⟩ := List.eq_append_cons_of_mem hmem
    rw [behind_of_mem hearly, kept_early_iff hf]
    constructor
    · rintro ⟨rfl, rfl, hfree⟩
      refine ⟨hfree, .inr ⟨rfl, List.getLast?_concat .., ?_⟩⟩
      rw [List.dropLast_concat]
      exact hearly
    · rintro ⟨hfree, hnot | ⟨rfl, _, hlast⟩⟩
      · exact absurd hmem hnot
      · refine ⟨?_, rfl, hfree⟩
        cases late with
        | nil => rfl
        | cons z late =>
          rw [List.dropLast_append_of_ne_nil (List.cons_ne_nil _ _),
            List.dropLast_cons_of_ne_nil (List.cons_ne_nil z late)] at hlast
          exact absurd (List.mem_append_right _ List.mem_cons_self) hlast
  · rw [behind_append (List.cons_ne_nil x front) hmem (List.cons_ne_nil _ _), kept_eq_self_iff]
    exact ⟨fun h => ⟨h, .inl hmem⟩, fun h => h.1⟩

end

end

end Segments
