import Mathlib.Data.List.Count
import Mathlib.Data.List.Infix

/-!
# `LIKE` and `ILIKE`

Patterns of SQL: `%` stands for any text, `_` for any character, a backslash for
the character behind it. A backslash at the end, an error in SQL, stands for itself.
-/

namespace Like

inductive Token
  | many
  | one
  | lit (c : Char)

def tokens : List Char → List Token
  | [] => []
  | '\\' :: c :: p => .lit c :: tokens p
  | '%' :: p => .many :: tokens p
  | '_' :: p => .one :: tokens p
  | c :: p => .lit c :: tokens p

def fits : List Token → List Char → Bool
  | [], text => text.isEmpty
  | .many :: ts, text => text.tails.any fun rest => fits ts rest
  | .one :: ts, text =>
    match text with
    | [] => false
    | _ :: rest => fits ts rest
  | .lit c :: ts, text =>
    match text with
    | [] => false
    | x :: rest => x == c && fits ts rest

def like (text pattern : List Char) : Bool := fits (tokens pattern) text

/-- What a character of a text and one of a pattern are folded to. -/
def ilike (fold : Char → Char) (text pattern : List Char) : Bool :=
  like (text.map fold) (pattern.map fold)

/-! ### Literal characters -/

section

variable (p : Char → Bool)

/-- The characters of a kind that a text must have to fit. -/
def literals : List Token → ℕ
  | [] => 0
  | .lit c :: ts => (if p c then 1 else 0) + literals ts
  | .many :: ts => literals ts
  | .one :: ts => literals ts

variable {p}

theorem literals_le_of_fits {ts : List Token} {text : List Char} (h : fits ts text = true) :
    literals p ts ≤ text.countP p := by
  induction ts generalizing text with
  | nil => exact Nat.zero_le _
  | cons t ts ih =>
    cases t with
    | many =>
      unfold fits at h
      obtain ⟨rest, hrest, hfits⟩ := List.any_eq_true.mp h
      have hsuffix := List.mem_tails rest text |>.mp hrest
      exact (ih hfits).trans (hsuffix.sublist.countP_le)
    | one =>
      cases text with
      | nil => cases h
      | cons x rest =>
        have hcount : literals p ts ≤ rest.countP p := ih h
        rw [List.countP_cons]
        show literals p ts ≤ _
        omega
    | lit c =>
      cases text with
      | nil => cases h
      | cons x rest =>
        unfold fits at h
        obtain ⟨hx, hrest⟩ := Bool.and_eq_true_iff.mp h
        obtain rfl := eq_of_beq hx
        have hcount := ih hrest
        rw [List.countP_cons]
        show (if p x then 1 else 0) + literals p ts ≤ _
        omega

/-- A kind without the special characters is literal wherever it stands. -/
theorem literals_tokens (hescape : p '\\' = false) (hmany : p '%' = false)
    (hone : p '_' = false) (pattern : List Char) :
    literals p (tokens pattern) = pattern.countP p := by
  induction pattern using tokens.induct with
  | case1 => rfl
  | case2 c rest ih =>
    rw [tokens, List.countP_cons, List.countP_cons, hescape, ← ih]
    show (if p c then 1 else 0) + _ = _
    simp only [Bool.false_eq_true, if_false, Nat.zero_add, Nat.add_comm]
  | case3 rest ih =>
    rw [tokens, List.countP_cons, hmany, ← ih]
    rfl
  | case4 rest ih =>
    rw [tokens, List.countP_cons, hone, ← ih]
    rfl
  | case5 c rest hnotEscape hnotMany hnotOne ih =>
    rw [tokens, List.countP_cons, ← ih]
    · exact Nat.add_comm _ _
    · exact hnotEscape
    · exact hnotMany
    · exact hnotOne

/-- A text that fits and has nothing of a kind beyond what it must have. -/
def sample (filler : Char) : List Token → List Char
  | [] => []
  | .many :: ts => sample filler ts
  | .one :: ts => filler :: sample filler ts
  | .lit c :: ts => c :: sample filler ts

theorem fits_sample (filler : Char) (ts : List Token) : fits ts (sample filler ts) = true := by
  induction ts with
  | nil => rfl
  | cons t ts ih =>
    cases t with
    | many =>
      refine List.any_eq_true.mpr ⟨sample filler ts, ?_, ih⟩
      exact (List.mem_tails _ _).mpr (List.suffix_refl _)
    | one => exact ih
    | lit c =>
      show (c == c && fits ts (sample filler ts)) = true
      rw [beq_self_eq_true, ih]
      rfl

theorem countP_sample {filler : Char} (hfiller : p filler = false) (ts : List Token) :
    (sample filler ts).countP p = literals p ts := by
  induction ts with
  | nil => rfl
  | cons t ts ih =>
    cases t with
    | many => exact ih
    | one =>
      show (filler :: sample filler ts).countP p = literals p ts
      rw [List.countP_cons, hfiller, ih]
      rfl
    | lit c =>
      show (c :: sample filler ts).countP p = (if p c then 1 else 0) + literals p ts
      rw [List.countP_cons, ih, Nat.add_comm]

/-- The sample of a folded pattern is folded. -/
theorem map_sample_tokens {fold : Char → Char} {filler : Char} (hfiller : fold filler = filler)
    {pattern : List Char} (h : ∀ c ∈ pattern, fold c = c) :
    (sample filler (tokens pattern)).map fold = sample filler (tokens pattern) := by
  induction pattern using tokens.induct with
  | case1 => rfl
  | case2 c rest ih =>
    have hrest := ih fun x hx => h x (List.mem_cons_of_mem _ (List.mem_cons_of_mem _ hx))
    have hc := h c (List.mem_cons_of_mem _ List.mem_cons_self)
    rw [tokens, sample, List.map_cons, hrest, hc]
  | case3 rest ih => exact ih fun x hx => h x (List.mem_cons_of_mem _ hx)
  | case4 rest ih =>
    have hrest := ih fun x hx => h x (List.mem_cons_of_mem _ hx)
    rw [tokens, sample, List.map_cons, hrest, hfiller]
  | case5 c rest hnotEscape hnotMany hnotOne ih =>
    have hrest := ih fun x hx => h x (List.mem_cons_of_mem _ hx)
    rw [tokens, sample, List.map_cons, hrest, h c List.mem_cons_self]
    · exact hnotEscape
    · exact hnotMany
    · exact hnotOne

end

end Like
