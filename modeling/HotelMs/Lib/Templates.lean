import Mathlib.Data.List.Infix
import Mathlib.Data.List.Nodup
import Mathlib.Data.List.Perm.Basic

/-!
# Texts with slots

A slot stands in a text as the mark of its key. Filling a text cuts it at the
marks once and puts a value into every slot. Replacing mark after mark in the
whole text does the same as long as no replacement finds a mark that the text
did not have.
-/

namespace Templates

inductive Piece (κ α : Type*)
  | slot (k : κ)
  | lit (a : α)

section

variable {κ α : Type*}

/-- Every slot with its own text. -/
@[grind =] def put (w : κ → List α) : List (Piece κ α) → List α
  | [] => []
  | .slot k :: ps => w k ++ put w ps
  | .lit a :: ps => a :: put w ps

/-- The slots that `τ` has a text for become letters, the others stay. -/
@[grind =] def settle (τ : κ → Option (List α)) : List (Piece κ α) → List (Piece κ α)
  | [] => []
  | .slot k :: ps =>
    match τ k with
    | some w => w.map .lit ++ settle τ ps
    | none => .slot k :: settle τ ps
  | .lit a :: ps => .lit a :: settle τ ps

@[grind =] def slots [DecidableEq κ] (k : κ) : List (Piece κ α) → ℕ
  | [] => 0
  | .slot k' :: ps => (if k' = k then 1 else 0) + slots k ps
  | .lit _ :: ps => slots k ps

theorem put_append (w : κ → List α) (ps qs : List (Piece κ α)) :
    put w (ps ++ qs) = put w ps ++ put w qs := by
  induction ps with
  | nil => rfl
  | cons p ps ih =>
    cases p with
    | slot k => rw [List.cons_append, put, put, ih, List.append_assoc]
    | lit a => rw [List.cons_append, put, put, ih, List.cons_append]

theorem put_lits (w : κ → List α) (text : List α) : put w (text.map Piece.lit) = text := by
  induction text with
  | nil => rfl
  | cons a text ih => rw [List.map_cons, put, ih]

theorem put_settle (w : κ → List α) (τ : κ → Option (List α)) (ps : List (Piece κ α)) :
    put w (settle τ ps) = put (fun k => (τ k).getD (w k)) ps := by
  induction ps with
  | nil => rfl
  | cons p ps ih =>
    cases p with
    | lit a => rw [settle, put, put, ih]
    | slot k =>
      rw [settle, put]
      cases hk : τ k with
      | none => rw [Option.getD_none]; exact congrArg (w k ++ ·) ih
      | some text => rw [Option.getD_some, put_append, put_lits, ih]

theorem put_congr {w w' : κ → List α} {ps : List (Piece κ α)}
    (h : ∀ k, Piece.slot k ∈ ps → w k = w' k) : put w ps = put w' ps := by
  induction ps with
  | nil => rfl
  | cons p ps ih =>
    have hrest := ih fun k hk => h k (List.mem_cons_of_mem _ hk)
    cases p with
    | lit a => rw [put, put, hrest]
    | slot k => rw [put, put, hrest, h k List.mem_cons_self]

theorem slot_mem_settle {τ : κ → Option (List α)} {ps : List (Piece κ α)} {k : κ}
    (h : Piece.slot k ∈ settle τ ps) : τ k = none := by
  induction ps with
  | nil => cases h
  | cons p ps ih =>
    cases p with
    | lit a =>
      rcases List.mem_cons.mp h with heq | h
      · cases heq
      · exact ih h
    | slot k' =>
      rw [settle] at h
      cases hk : τ k' with
      | none =>
        rw [hk] at h
        rcases List.mem_cons.mp h with heq | h
        · cases heq
          exact hk
        · exact ih h
      | some w =>
        rw [hk] at h
        rcases List.mem_append.mp h with h | h
        · obtain ⟨a, _, ha⟩ := List.mem_map.mp h
          cases ha
        · exact ih h

variable [DecidableEq κ]

theorem slots_append (k : κ) (ps qs : List (Piece κ α)) :
    slots k (ps ++ qs) = slots k ps + slots k qs := by
  induction ps with
  | nil => exact (Nat.zero_add _).symm
  | cons p ps ih =>
    cases p with
    | slot k' => rw [List.cons_append, slots, slots, ih, Nat.add_assoc]
    | lit a => rw [List.cons_append, slots, slots, ih]

theorem slots_lits (k : κ) (text : List α) : slots k (text.map Piece.lit) = 0 := by
  induction text with
  | nil => rfl
  | cons a text ih => rw [List.map_cons, slots, ih]

theorem slots_settle {τ : κ → Option (List α)} {k : κ} (h : τ k = none)
    (ps : List (Piece κ α)) : slots k (settle τ ps) = slots k ps := by
  induction ps with
  | nil => rfl
  | cons p ps ih =>
    cases p with
    | lit a => rw [settle, slots, slots, ih]
    | slot k' =>
      rw [settle]
      cases hk : τ k' with
      | none =>
        show slots k (.slot k' :: settle τ ps) = _
        rw [slots, slots, ih]
      | some w =>
        have hne : k' ≠ k := by
          rintro rfl
          rw [h] at hk
          cases hk
        show slots k (w.map .lit ++ settle τ ps) = _
        rw [slots_append, slots_lits, slots, if_neg hne, ih]

end

/-! ### Marks -/

section

variable {κ α : Type*}

/-- No mark begins inside another one, whatever text follows. -/
structure Separate (mark : κ → List α) : Prop where
  ne_nil : ∀ k, mark k ≠ []
  apart : ∀ k k' j rest, j < (mark k).length → mark k' <+: (mark k).drop j ++ rest →
    j = 0 ∧ k = k'

theorem Separate.eq_of_prefix {mark : κ → List α} (hm : Separate mark) {k k' : κ}
    {text : List α} (hk : mark k <+: text) (hk' : mark k' <+: text) : k = k' := by
  obtain ⟨rest, rfl⟩ := hk
  exact (hm.apart k k' 0 rest (List.length_pos_iff.mpr (hm.ne_nil k)) hk').2

variable [DecidableEq α]

/-- `skip` is what is left of the mark that was found. -/
@[grind =] def cutFrom (mark : κ → List α) (keys : List κ) : ℕ → List α → List (Piece κ α)
  | _, [] => []
  | skip + 1, _ :: text => cutFrom mark keys skip text
  | 0, c :: text =>
    match keys.find? fun k => mark k <+: c :: text with
    | some k => .slot k :: cutFrom mark keys ((mark k).length - 1) text
    | none => .lit c :: cutFrom mark keys 0 text

def cut (mark : κ → List α) (keys : List κ) (text : List α) : List (Piece κ α) :=
  cutFrom mark keys 0 text

variable {mark : κ → List α} {keys : List κ}

theorem cutFrom_drop (skip : ℕ) (text : List α) :
    cutFrom mark keys skip text = cut mark keys (text.drop skip) := by
  induction skip generalizing text with
  | zero => rfl
  | succ skip ih =>
    cases text with
    | nil => rfl
    | cons c text => exact ih text

theorem cut_mark (hm : Separate mark) {k : κ} (hk : k ∈ keys) (text : List α) :
    cut mark keys (mark k ++ text) = .slot k :: cut mark keys text := by
  obtain ⟨c, word, hword⟩ := List.exists_cons_of_ne_nil (hm.ne_nil k)
  have hprefix : mark k <+: c :: (word ++ text) := ⟨text, by rw [hword, List.cons_append]⟩
  have hfind : (keys.find? fun k' => mark k' <+: c :: (word ++ text)) = some k := by
    cases hf : keys.find? fun k' => mark k' <+: c :: (word ++ text) with
    | none => exact absurd (decide_eq_true hprefix) (List.find?_eq_none.mp hf k hk)
    | some k' =>
      have hk' : mark k' <+: c :: (word ++ text) := by
        have hsome := List.find?_some hf
        rwa [decide_eq_true_iff] at hsome
      rw [hm.eq_of_prefix hprefix hk']
  have hlength : (mark k).length - 1 = word.length := by rw [hword]; rfl
  rw [hword, List.cons_append, cut, cutFrom, hfind]
  show _ :: cutFrom mark keys ((mark k).length - 1) (word ++ text) = _
  rw [hlength, cutFrom_drop, List.drop_left]

theorem cut_lit {c : α} {text : List α} (h : ∀ k ∈ keys, ¬mark k <+: c :: text) :
    cut mark keys (c :: text) = .lit c :: cut mark keys text := by
  have hfind : (keys.find? fun k => mark k <+: c :: text) = none := by
    rw [List.find?_eq_none]
    intro k hk
    rw [decide_eq_true_iff]
    exact h k hk
  rw [cut, cutFrom, hfind]
  rfl

/-- A text is empty, or it begins with one of the marks, or with a letter. -/
theorem cut_induction {P : List α → Prop} (hm : Separate mark) (keys : List κ) (hnil : P [])
    (hmark : ∀ k ∈ keys, ∀ text, P text → P (mark k ++ text))
    (hlit : ∀ c text, (∀ k ∈ keys, ¬mark k <+: c :: text) → P text → P (c :: text))
    (text : List α) : P text := by
  induction hlength : text.length using Nat.strong_induction_on generalizing text with
  | _ length ih =>
    subst hlength
    by_cases hex : ∃ k ∈ keys, mark k <+: text
    · obtain ⟨k, hk, rest, rfl⟩ := hex
      have hpos := List.length_pos_iff.mpr (hm.ne_nil k)
      have hless : rest.length < (mark k ++ rest).length := by
        rw [List.length_append]
        omega
      exact hmark k hk rest (ih _ hless rest rfl)
    · push Not at hex
      cases text with
      | nil => exact hnil
      | cons c text =>
        have hless : text.length < (c :: text).length := Nat.lt_succ_self _
        exact hlit c text hex (ih _ hless text rfl)

theorem put_cut (hm : Separate mark) (text : List α) : put mark (cut mark keys text) = text := by
  induction text using cut_induction hm keys with
  | hnil => rfl
  | hmark k hk text ih => rw [cut_mark hm hk, put, ih]
  | hlit c text hno ih => rw [cut_lit hno, put, ih]

theorem mem_keys_of_mem_cut (hm : Separate mark) {k : κ} {text : List α}
    (h : Piece.slot k ∈ cut mark keys text) : k ∈ keys := by
  induction text using cut_induction hm keys with
  | hnil => cases h
  | hmark k' hk text ih =>
    rw [cut_mark hm hk] at h
    rcases List.mem_cons.mp h with heq | h
    · cases heq
      exact hk
    · exact ih h
  | hlit c text hno ih =>
    rw [cut_lit hno] at h
    rcases List.mem_cons.mp h with heq | h
    · cases heq
    · exact ih h

/-- The mark of a key that is not looked for is read as letters. -/
theorem cut_foreign (hm : Separate mark) {k : κ} (hk : k ∉ keys) (text : List α) :
    cut mark keys (mark k ++ text) = (mark k).map .lit ++ cut mark keys text := by
  have hwalk : ∀ y j, (mark k).drop j = y →
      cut mark keys (y ++ text) = y.map .lit ++ cut mark keys text := by
    intro y
    induction y with
    | nil => exact fun _ _ => rfl
    | cons c y ih =>
      intro j hj
      have hless : j < (mark k).length := by
        by_contra hge
        rw [List.drop_eq_nil_of_le (Nat.le_of_not_lt hge)] at hj
        cases hj
      have hno : ∀ k' ∈ keys, ¬mark k' <+: c :: (y ++ text) := by
        intro k' hk' hprefix
        have hsame := hm.apart k k' j text hless (by rw [hj]; exact hprefix)
        exact hk (hsame.2 ▸ hk')
      have hnext : (mark k).drop (j + 1) = y := by
        rw [← List.drop_drop, hj]
        rfl
      rw [List.cons_append, cut_lit hno, ih (j + 1) hnext]
      rfl
  exact hwalk (mark k) 0 rfl

theorem cut_congr {keys' : List κ} (hm : Separate mark) (h : ∀ k, k ∈ keys ↔ k ∈ keys')
    (text : List α) : cut mark keys text = cut mark keys' text := by
  induction text using cut_induction hm keys with
  | hnil => rfl
  | hmark k hk text ih => rw [cut_mark hm hk, cut_mark hm ((h k).mp hk), ih]
  | hlit c text hno ih => rw [cut_lit hno, cut_lit fun k hk => hno k ((h k).mpr hk), ih]

variable [DecidableEq κ]

/-- Cutting at fewer keys leaves the marks of the others as they are. -/
theorem cut_subset {keys' : List κ} (hm : Separate mark) (h : keys' ⊆ keys) (text : List α) :
    cut mark keys' text =
      settle (fun k => if k ∈ keys' then none else some (mark k)) (cut mark keys text) := by
  induction text using cut_induction hm keys with
  | hnil => rfl
  | hmark k hk text ih =>
    rw [cut_mark hm hk, settle]
    by_cases hk' : k ∈ keys'
    · rw [if_pos hk', cut_mark hm hk', ih]
    · rw [if_neg hk', cut_foreign hm hk', ih]
  | hlit c text hno ih =>
    rw [cut_lit hno, cut_lit fun k hk => hno k (h hk), settle, ih]

end

/-! ### Finding one mark in a text with slots -/

section

variable {κ α : Type*} {mark : κ → List α} {k : κ}

/-- The rest of a mark that has begun runs through letters only. -/
theorem lits_of_prefix (hm : Separate mark) {qs : List (Piece κ α)}
    (honly : ∀ k', Piece.slot k' ∈ qs → k' = k) {x : List α} {j : ℕ} (hj : 0 < j)
    (hx : (mark k).drop j = x) (h : x <+: put mark qs) : ∃ rest, qs = x.map .lit ++ rest := by
  induction x generalizing qs j with
  | nil => exact ⟨qs, rfl⟩
  | cons b x ih =>
    cases qs with
    | nil => exact absurd (List.prefix_nil.mp h) (List.cons_ne_nil b x)
    | cons q qs =>
      cases q with
      | lit a =>
        rw [put, List.cons_prefix_cons] at h
        obtain ⟨rfl, h⟩ := h
        have hnext : (mark k).drop (j + 1) = x := by
          rw [← List.drop_drop, hx]
          rfl
        have honly' := fun k' hk' => honly k' (List.mem_cons_of_mem _ hk')
        obtain ⟨rest, rfl⟩ := ih honly' (Nat.succ_pos j) hnext h
        exact ⟨rest, rfl⟩
      | slot k' =>
        -- the mark would begin again before it ends
        obtain rfl := honly k' List.mem_cons_self
        have hless : j < (mark k').length := by
          by_contra hge
          rw [List.drop_eq_nil_of_le (Nat.le_of_not_lt hge)] at hx
          cases hx
        have hshort : (b :: x).length ≤ (mark k').length := by
          rw [← hx, List.length_drop]
          omega
        rw [put] at h
        obtain ⟨y, hy⟩ := List.prefix_of_prefix_length_le h (List.prefix_append _ _) hshort
        have hback : mark k' <+: (mark k').drop j ++ y := by
          rw [hx, hy]
        have hzero := (hm.apart k' k' j y hless hback).1
        omega

variable [DecidableEq κ] [DecidableEq α]

omit [DecidableEq α] in
/-- A mark found at a letter is made of letters: taking it leaves the slots. -/
theorem exists_put_of_prefix (hm : Separate mark) {a : α} {qs : List (Piece κ α)}
    (honly : ∀ k', Piece.slot k' ∈ qs → k' = k) (h : mark k <+: put mark (.lit a :: qs)) :
    ∃ rest, put mark (.lit a :: qs) = mark k ++ put mark rest ∧
      slots k (.lit a :: qs) = slots k rest ∧ rest.length ≤ qs.length ∧
      ∀ k', Piece.slot k' ∈ rest → k' = k := by
  obtain ⟨c, word, hword⟩ := List.exists_cons_of_ne_nil (hm.ne_nil k)
  have hdrop : (mark k).drop 1 = word := by
    rw [hword]
    rfl
  rw [hword, put, List.cons_prefix_cons] at h
  obtain ⟨rfl, hbegin⟩ := h
  obtain ⟨rest, rfl⟩ := lits_of_prefix hm honly Nat.one_pos hdrop hbegin
  refine ⟨rest, ?_, ?_, ?_, fun k' hk' => honly k' (List.mem_append_right _ hk')⟩
  · rw [put, put_append, put_lits, hword, List.cons_append]
  · rw [slots, slots_append, slots_lits, Nat.zero_add]
  · rw [List.length_append]
    exact Nat.le_add_left _ _

/-- Looking for one mark finds the slots, or it finds more than there are. -/
theorem cut_put (hm : Separate mark) (qs : List (Piece κ α))
    (honly : ∀ k', Piece.slot k' ∈ qs → k' = k) :
    cut mark [k] (put mark qs) = qs ∨ slots k qs < slots k (cut mark [k] (put mark qs)) := by
  have hmem : k ∈ [k] := List.mem_singleton.mpr rfl
  induction hlength : qs.length using Nat.strong_induction_on generalizing qs with
  | _ length ih =>
    subst hlength
    cases qs with
    | nil => exact Or.inl rfl
    | cons q qs =>
      have honly' := fun k' hk' => honly k' (List.mem_cons_of_mem _ hk')
      have hrest := ih qs.length (Nat.lt_succ_self _) qs honly' rfl
      cases q with
      | slot k' =>
        obtain rfl := honly k' List.mem_cons_self
        rw [put, cut_mark hm hmem, slots, slots]
        rcases hrest with hsame | hmore
        · exact Or.inl (by rw [hsame])
        · exact Or.inr (Nat.add_lt_add_left hmore _)
      | lit a =>
        by_cases hprefix : mark k <+: put mark (.lit a :: qs)
        · -- the letters make a mark of their own: one slot more
          right
          obtain ⟨rest, htext, hcount, hlength, honly''⟩ :=
            exists_put_of_prefix hm honly' hprefix
          have hthen := ih _ (Nat.lt_succ_of_le hlength) rest honly'' rfl
          rw [htext, cut_mark hm hmem, hcount, slots, if_pos rfl]
          rcases hthen with hsame | hmore
          · rw [hsame]
            exact Nat.lt_add_of_pos_left Nat.one_pos
          · exact hmore.trans (Nat.lt_add_of_pos_left Nat.one_pos)
        · have hno : ∀ k' ∈ [k], ¬mark k' <+: a :: put mark qs := by
            intro k' hk'
            rw [List.mem_singleton.mp hk']
            exact hprefix
          rw [put, cut_lit hno, slots, slots]
          rcases hrest with hsame | hmore
          · exact Or.inl (by rw [hsame])
          · exact Or.inr hmore

end

/-! ### Replacing in the whole text -/

section

variable {α : Type*} [DecidableEq α]

@[grind =] def replaceFrom (old new : List α) : ℕ → List α → List α
  | _, [] => []
  | skip + 1, _ :: text => replaceFrom old new skip text
  | 0, c :: text =>
    if old <+: c :: text then new ++ replaceFrom old new (old.length - 1) text
    else c :: replaceFrom old new 0 text

/-- `text.replace(old, new)`, `old` not empty. -/
def replaceText (old new text : List α) : List α := replaceFrom old new 0 text

@[grind =] def countFrom (old : List α) : ℕ → List α → ℕ
  | _, [] => 0
  | skip + 1, _ :: text => countFrom old skip text
  | 0, c :: text =>
    if old <+: c :: text then 1 + countFrom old (old.length - 1) text
    else countFrom old 0 text

/-- `text.count(old)`, `old` not empty: how many `replaceText` replaces. -/
def occurrences (old text : List α) : ℕ := countFrom old 0 text

variable {κ : Type*} {mark : κ → List α}

theorem replaceFrom_eq (k : κ) (new : List α) (skip : ℕ) (text : List α) :
    replaceFrom (mark k) new skip text = put (fun _ => new) (cutFrom mark [k] skip text) := by
  induction text generalizing skip with
  | nil => rfl
  | cons c text ih =>
    cases skip with
    | succ skip => exact ih skip
    | zero =>
      rw [replaceFrom, cutFrom]
      by_cases hprefix : mark k <+: c :: text
      · rw [if_pos hprefix, List.find?_cons_of_pos (by rw [decide_eq_true_iff]; exact hprefix),
          ih]
        rfl
      · rw [if_neg hprefix, List.find?_cons_of_neg (by rw [decide_eq_true_iff]; exact hprefix),
          List.find?_nil, ih]
        rfl

theorem replaceText_eq (k : κ) (new text : List α) :
    replaceText (mark k) new text = put (fun _ => new) (cut mark [k] text) :=
  replaceFrom_eq k new 0 text

variable [DecidableEq κ]

theorem countFrom_eq (k : κ) (skip : ℕ) (text : List α) :
    countFrom (mark k) skip text = slots k (cutFrom mark [k] skip text) := by
  induction text generalizing skip with
  | nil => rfl
  | cons c text ih =>
    cases skip with
    | succ skip => exact ih skip
    | zero =>
      rw [countFrom, cutFrom]
      by_cases hprefix : mark k <+: c :: text
      · rw [if_pos hprefix, List.find?_cons_of_pos (by rw [decide_eq_true_iff]; exact hprefix),
          ih]
        show _ = slots k (_ :: _)
        rw [slots, if_pos rfl]
      · rw [if_neg hprefix, List.find?_cons_of_neg (by rw [decide_eq_true_iff]; exact hprefix),
          List.find?_nil, ih]
        rfl

theorem occurrences_eq (k : κ) (text : List α) :
    occurrences (mark k) text = slots k (cut mark [k] text) := countFrom_eq k 0 text

/-- A text has as many occurrences of a mark as slots of its key. -/
theorem occurrences_cut (hm : Separate mark) {keys : List κ} {k : κ} (hk : k ∈ keys)
    (text : List α) : occurrences (mark k) text = slots k (cut mark keys text) := by
  have hsub : [k] ⊆ keys := by
    intro k' hk'
    rw [List.mem_singleton.mp hk']
    exact hk
  let τ : κ → Option (List α) := fun k' => if k' ∈ [k] then none else some (mark k')
  have hkept : τ k = none := if_pos (List.mem_singleton.mpr rfl)
  rw [occurrences_eq, cut_subset hm hsub]
  exact slots_settle hkept _

end

/-! ### Filling -/

section

variable {κ α : Type*} [DecidableEq κ]

/-- The text that fills the slot of a key; without one its mark stays. -/
def valueOf (mark : κ → List α) (context : List (κ × List α)) (k : κ) : List α :=
  (context.lookup k).getD (mark k)

theorem lookup_eq_none {context : List (κ × List α)} {k : κ} (h : k ∉ context.map Prod.fst) :
    context.lookup k = none := by
  rw [List.lookup_eq_none_iff]
  intro p hp
  rw [bne_iff_ne]
  rintro rfl
  exact h (List.mem_map_of_mem hp)

theorem lookup_of_mem {context : List (κ × List α)} (hnodup : (context.map Prod.fst).Nodup)
    {p : κ × List α} (hp : p ∈ context) : context.lookup p.1 = some p.2 := by
  induction context with
  | nil => cases hp
  | cons q context ih =>
    rw [List.map_cons, List.nodup_cons] at hnodup
    rw [List.lookup_cons]
    rcases List.mem_cons.mp hp with rfl | hp
    · rw [beq_self_eq_true]
    · have hne : p.1 ≠ q.1 := fun heq => hnodup.1 (heq ▸ List.mem_map_of_mem hp)
      rw [beq_eq_false_iff_ne.mpr hne]
      exact ih hnodup.2 hp

variable {mark : κ → List α}

theorem valueOf_append (front back : List (κ × List α)) (k : κ) :
    valueOf mark (front ++ back) k = ((front.lookup k).or (back.lookup k)).getD (mark k) := by
  rw [valueOf, List.lookup_append]

variable (mark) in
/-- Every value of `front` in place, and only the slots of `k` left. -/
def otherTexts (front : List (κ × List α)) (k k' : κ) : Option (List α) :=
  if k' = k then none else some (valueOf mark front k')

theorem otherTexts_self (front : List (κ × List α)) (k : κ) : otherTexts mark front k k = none :=
  if_pos rfl

theorem otherTexts_of_ne {front : List (κ × List α)} {k k' : κ} (h : k' ≠ k) :
    otherTexts mark front k k' = some (valueOf mark front k') := if_neg h

variable [DecidableEq α]

/-- All slots of the context's keys filled at once. -/
def fill (mark : κ → List α) (context : List (κ × List α)) (text : List α) : List α :=
  put (valueOf mark context) (cut mark (context.map Prod.fst) text)

/-- One key after the other, each in the whole text. -/
def replaceEach (mark : κ → List α) (context : List (κ × List α)) (text : List α) : List α :=
  context.foldl (fun t p => replaceText (mark p.1) p.2 t) text

/-- A text filled with a part of the context, read at all keys of the context. -/
theorem fill_eq_put (hm : Separate mark) {front context : List (κ × List α)}
    (hsub : front.map Prod.fst ⊆ context.map Prod.fst) (text : List α) :
    fill mark front text =
      put (valueOf mark front) (cut mark (context.map Prod.fst) text) := by
  rw [fill, cut_subset hm hsub, put_settle]
  refine put_congr fun k _ => ?_
  by_cases hk : k ∈ front.map Prod.fst
  · rw [if_pos hk]
    rfl
  · rw [if_neg hk, Option.getD_some, valueOf, lookup_eq_none hk, Option.getD_none]

theorem fill_nil (hm : Separate mark) (text : List α) : fill mark [] text = text := put_cut hm text

/-- Filling does not ask for the order of the keys. -/
theorem fill_perm (hm : Separate mark) {context order : List (κ × List α)}
    (hnodup : (context.map Prod.fst).Nodup) (h : order.Perm context) (text : List α) :
    fill mark order text = fill mark context text := by
  have hkeys : ∀ k, k ∈ order.map Prod.fst ↔ k ∈ context.map Prod.fst :=
    fun k => (h.map Prod.fst).mem_iff
  rw [fill, fill, cut_congr hm hkeys]
  refine put_congr fun k hk => ?_
  obtain ⟨p, hp, rfl⟩ := List.mem_map.mp (mem_keys_of_mem_cut hm hk)
  have hnodup' : (order.map Prod.fst).Nodup := (h.map Prod.fst).nodup_iff.mpr hnodup
  rw [valueOf, valueOf, lookup_of_mem hnodup hp, lookup_of_mem hnodup' (h.mem_iff.mpr hp)]

variable (mark) in
/-- When the turn of a key comes, filling in the keys before it has made no mark
of it that the text did not have. -/
def NoNewMarks (context : List (κ × List α)) (text : List α) : Prop :=
  ∀ front k v back, context = front ++ (k, v) :: back →
    occurrences (mark k) (fill mark front text) = occurrences (mark k) text

variable (mark) in
/-- Each replacement replaces as many marks as the text has of its key. -/
def ReplacesMarks (context : List (κ × List α)) (text : List α) : Prop :=
  ∀ front k v back, context = front ++ (k, v) :: back →
    occurrences (mark k) (replaceEach mark front text) = occurrences (mark k) text

theorem replaceText_fill (hm : Separate mark) {front : List (κ × List α)} {k : κ} {v : List α}
    (hnodup : ((front ++ [(k, v)]).map Prod.fst).Nodup) {text : List α}
    (hsame : occurrences (mark k) (fill mark front text) = occurrences (mark k) text) :
    replaceText (mark k) v (fill mark front text) = fill mark (front ++ [(k, v)]) text := by
  have hsub : front.map Prod.fst ⊆ (front ++ [(k, v)]).map Prod.fst := by
    rw [List.map_append]
    exact List.subset_append_left _ _
  have hk : k ∈ (front ++ [(k, v)]).map Prod.fst := by
    rw [List.map_append]
    exact List.mem_append_right _ (List.mem_singleton.mpr rfl)
  have hfresh : k ∉ front.map Prod.fst := by
    rw [List.map_append, List.nodup_append] at hnodup
    exact fun hmem => hnodup.2.2 k hmem k (List.mem_singleton.mpr rfl) rfl
  let qs := settle (otherTexts mark front k) (cut mark ((front ++ [(k, v)]).map Prod.fst) text)
  have htext : fill mark front text = put mark qs := by
    rw [fill_eq_put hm hsub, put_settle]
    refine put_congr fun k' _ => ?_
    by_cases hk' : k' = k
    · rw [hk', otherTexts_self, valueOf, lookup_eq_none hfresh]
    · rw [otherTexts_of_ne hk', Option.getD_some]
  have honly : ∀ k', Piece.slot k' ∈ qs → k' = k := by
    intro k' hk'
    by_contra hne
    have hnone := slot_mem_settle hk'
    rw [otherTexts_of_ne hne] at hnone
    cases hnone
  have hcount : slots k qs = slots k (cut mark [k] (put mark qs)) := by
    rw [← occurrences_eq, ← htext, hsame, occurrences_cut hm hk]
    exact slots_settle (otherTexts_self front k) _
  have hcut : cut mark [k] (put mark qs) = qs := by
    rcases cut_put hm qs honly with heq | hmore
    · exact heq
    · omega
  rw [htext, replaceText_eq, hcut, put_settle, fill]
  refine put_congr fun k' _ => ?_
  rw [valueOf_append]
  by_cases hk' : k' = k
  · rw [hk', otherTexts_self, Option.getD_none, lookup_eq_none hfresh, Option.none_or,
      List.lookup_cons_self, Option.getD_some]
  · rw [otherTexts_of_ne hk', Option.getD_some, List.lookup_cons, beq_eq_false_iff_ne.mpr hk',
      List.lookup_nil, Option.or_none, valueOf]

omit [DecidableEq κ] in
theorem replaceEach_append (front back : List (κ × List α)) (text : List α) :
    replaceEach mark (front ++ back) text =
      replaceEach mark back (replaceEach mark front text) := by
  unfold replaceEach
  rw [List.foldl_append]

theorem replaceEach_eq_fill (hm : Separate mark) {context : List (κ × List α)}
    (hnodup : (context.map Prod.fst).Nodup) {text : List α}
    (hno : NoNewMarks mark context text) :
    replaceEach mark context text = fill mark context text := by
  induction context using List.reverseRecOn with
  | nil =>
    exact (fill_nil hm text).symm
  | append_singleton front p ih =>
    have hfront : (front.map Prod.fst).Nodup := by
      rw [List.map_append] at hnodup
      exact hnodup.of_append_left
    have hbefore : NoNewMarks mark front text := by
      intro front' k v back heq
      refine hno front' k v (back ++ [p]) ?_
      rw [heq, List.append_assoc, List.cons_append]
    rw [replaceEach_append, ih hfront hbefore]
    exact replaceText_fill hm hnodup (hno front p.1 p.2 [] rfl)

/-- Replacing key after key fills all slots at once, and replaces nothing but the
slots of the text, if and only if no filled in text makes a new mark. -/
theorem replaceEach_iff (hm : Separate mark) {context : List (κ × List α)}
    (hnodup : (context.map Prod.fst).Nodup) {text : List α} :
    replaceEach mark context text = fill mark context text ∧ ReplacesMarks mark context text ↔
      NoNewMarks mark context text := by
  have hsplit : ∀ front k v back, context = front ++ (k, v) :: back →
      (∀ front' k' v' back', front = front' ++ (k', v') :: back' →
        occurrences (mark k') (fill mark front' text) = occurrences (mark k') text) →
      replaceEach mark front text = fill mark front text := by
    intro front k v back heq hbefore
    have hfront : (front.map Prod.fst).Nodup := by
      rw [heq, List.map_append] at hnodup
      exact hnodup.of_append_left
    exact replaceEach_eq_fill hm hfront hbefore
  constructor
  · intro h front
    -- the keys before `front` ends have made no new mark either
    induction hlength : front.length using Nat.strong_induction_on generalizing front with
    | _ length ih =>
      subst hlength
      intro k v back heq
      have hsame := hsplit front k v back heq fun front' k' v' back' heq' => by
        have hless : front'.length < front.length := by
          rw [heq', List.length_append, List.length_cons]
          omega
        refine ih _ hless front' rfl k' v' (back' ++ (k, v) :: back) ?_
        rw [heq, heq', List.append_assoc, List.cons_append]
      rw [← hsame]
      exact h.2 front k v back heq
  · intro hno
    refine ⟨replaceEach_eq_fill hm hnodup hno, fun front k v back heq => ?_⟩
    have hsame := hsplit front k v back heq fun front' k' v' back' heq' => by
      refine hno front' k' v' (back' ++ (k, v) :: back) ?_
      rw [heq, heq', List.append_assoc, List.cons_append]
    rw [hsame]
    exact hno front k v back heq

end

end Templates
