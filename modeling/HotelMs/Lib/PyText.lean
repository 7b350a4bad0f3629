import Mathlib.Data.List.Basic
import Mathlib.Data.List.DropRight

/-!
# Python text: white space, decimal digits, `strip`

The character classes are those of Python 3.11 (Unicode 14.0).
-/

namespace PyText

def isSpace (c : Char) : Bool :=
  let n := c.toNat
  (9 ≤ n && n ≤ 13) || (0x1c ≤ n && n ≤ 0x20) || n == 0x85 || n == 0xa0 || n == 0x1680 ||
    (0x2000 ≤ n && n ≤ 0x200a) || n == 0x2028 || n == 0x2029 || n == 0x202f || n == 0x205f ||
    n == 0x3000

/-- First code points of the runs of ten decimal digits (category Nd). -/
def decimalRuns : List ℕ :=
  [0x30, 0x660, 0x6f0, 0x7c0, 0x966, 0x9e6, 0xa66, 0xae6, 0xb66, 0xbe6, 0xc66, 0xce6, 0xd66,
    0xde6, 0xe50, 0xed0, 0xf20, 0x1040, 0x1090, 0x17e0, 0x1810, 0x1946, 0x19d0, 0x1a80, 0x1a90,
    0x1b50, 0x1bb0, 0x1c40, 0x1c50, 0xa620, 0xa8d0, 0xa900, 0xa9d0, 0xa9f0, 0xaa50, 0xabf0,
    0xff10, 0x104a0, 0x10d30, 0x11066, 0x110f0, 0x11136, 0x111d0, 0x112f0, 0x11450, 0x114d0,
    0x11650, 0x116c0, 0x11730, 0x118e0, 0x11950, 0x11c50, 0x11d50, 0x11da0, 0x16a60, 0x16ac0,
    0x16b50, 0x1d7ce, 0x1d7d8, 0x1d7e2, 0x1d7ec, 0x1d7f6, 0x1e140, 0x1e2f0, 0x1e950, 0x1fbf0]

def isDecimal (c : Char) : Bool := decimalRuns.any fun n => n ≤ c.toNat && c.toNat < n + 10

def stripChars (cs : List Char) : List Char :=
  (((cs.dropWhile isSpace).reverse).dropWhile isSpace).reverse

def strip (s : String) : String := String.ofList (stripChars s.toList)

theorem stripChars_eq (cs : List Char) :
    stripChars cs = (cs.dropWhile isSpace).rdropWhile isSpace := rfl

theorem dropWhile_eq_self_of_prefix {α : Type*} {p : α → Bool} {l m : List α} (hl : l <+: m)
    (hm : m.dropWhile p = m) : l.dropWhile p = l := by
  rw [List.dropWhile_eq_self_iff] at hm ⊢
  intro hpos
  have hlonger : 0 < m.length := Nat.lt_of_lt_of_le hpos hl.length_le
  have hhead : l[0] = m[0] := hl.getElem hpos
  rw [hhead]
  exact hm hlonger

theorem stripChars_stripChars (cs : List Char) : stripChars (stripChars cs) = stripChars cs := by
  have hleft : (stripChars cs).dropWhile isSpace = stripChars cs :=
    dropWhile_eq_self_of_prefix (List.rdropWhile_prefix _ _) (List.dropWhile_idempotent _ cs)
  rw [stripChars_eq (stripChars cs), hleft, stripChars_eq, List.rdropWhile_idempotent]

theorem strip_strip (s : String) : strip (strip s) = strip s := by
  simp only [strip, String.toList_ofList, stripChars_stripChars]

/-- A change of letters that leaves white space white space, and nothing else,
can be made before or after. -/
theorem strip_map {f : Char → Char} (hf : ∀ c, isSpace (f c) = isSpace c) (s : String) :
    strip (String.ofList (s.toList.map f)) = String.ofList ((strip s).toList.map f) := by
  have hcomp : isSpace ∘ f = isSpace := funext hf
  simp only [strip, stripChars, String.toList_ofList, List.dropWhile_map, hcomp,
    ← List.map_reverse]

/-! ### ASCII letters lowered -/

theorem toLower_toNat (c : Char) :
    c.toLower.toNat = if 65 ≤ c.toNat ∧ c.toNat ≤ 90 then c.toNat + 32 else c.toNat := by
  unfold Char.toLower
  split
  next h =>
    have hupper : 65 ≤ c.toNat ∧ c.toNat ≤ 90 := h
    have hsmall : c.toNat + 32 < 2 ^ 32 := by omega
    rw [if_pos hupper]
    exact Nat.mod_eq_of_lt hsmall
  next h =>
    have hother : ¬(65 ≤ c.toNat ∧ c.toNat ≤ 90) := h
    rw [if_neg hother]

theorem isSpace_toLower (c : Char) : isSpace c.toLower = isSpace c := by
  unfold isSpace
  rw [toLower_toNat]
  split
  next h =>
    rw [Bool.eq_iff_iff]
    simp only [Bool.or_eq_true, Bool.and_eq_true, decide_eq_true_eq, beq_iff_eq]
    omega
  next => rfl

theorem toLower_toLower (c : Char) : c.toLower.toLower = c.toLower := by
  have hlower : ¬(65 ≤ c.toLower.toNat ∧ c.toLower.toNat ≤ 90) := by
    rw [toLower_toNat]
    split <;> omega
  have hnat : c.toLower.toLower.toNat = c.toLower.toNat := by
    rw [toLower_toNat c.toLower, if_neg hlower]
  exact Char.ext (UInt32.toNat_inj.mp hnat)

end PyText
