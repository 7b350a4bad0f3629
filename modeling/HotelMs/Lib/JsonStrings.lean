import Mathlib.Data.List.Basic

/-!
# String literals of JSON

Written as `json.dumps` writes them, in ASCII: a character outside `' '..'~'` is
escaped, one above `U+FFFF` as a surrogate pair. Read as `json.loads` reads them;
a text is a list of Unicode scalar values, so a lone surrogate is refused.
-/

namespace JsonStrings

def hexDigits : List Char :=
  ['0', '1', '2', '3', '4', '5', '6', '7', '8', '9', 'a', 'b', 'c', 'd', 'e', 'f']

def hexDigit (d : ℕ) : Char := hexDigits.getD d '0'

def hexValue (c : Char) : Option ℕ :=
  if 'A' ≤ c ∧ c ≤ 'F' then some (c.toNat - 55) else hexDigits.idxOf? c

/-- `f"{n:04x}"` of a unit of 16 bits -/
def hex4 (n : ℕ) : List Char :=
  [hexDigit (n / 4096 % 16), hexDigit (n / 256 % 16), hexDigit (n / 16 % 16), hexDigit (n % 16)]

def readHex4 : List Char → Option (ℕ × List Char)
  | a :: b :: c :: d :: rest => do
    let a ← hexValue a
    let b ← hexValue b
    let c ← hexValue c
    let d ← hexValue d
    return (4096 * a + 256 * b + 16 * c + d, rest)
  | _ => none

theorem hexValue_hexDigit {d : ℕ} (h : d < 16) : hexValue (hexDigit d) = some d := by
  have hall : ∀ d < 16, hexValue (hexDigit d) = some d := by decide
  exact hall d h

theorem readHex4_hex4 {n : ℕ} (h : n < 65536) (rest : List Char) :
    readHex4 (hex4 n ++ rest) = some (n, rest) := by
  have hdigit : ∀ m, hexValue (hexDigit (m % 16)) = some (m % 16) :=
    fun m => hexValue_hexDigit (Nat.mod_lt m (by decide))
  have hsum : 4096 * (n / 4096 % 16) + 256 * (n / 256 % 16) + 16 * (n / 16 % 16) + n % 16 = n := by
    omega
  simp only [hex4, List.cons_append, List.nil_append, readHex4, hdigit, Option.bind_eq_bind,
    Option.bind_some, hsum]
  rfl

/-! ### Writing -/

def isPlain (c : Char) : Bool := ' ' ≤ c && c ≤ '~' && c != '"' && c != '\\'

/-- What stands after the backslash. -/
def escaped (c : Char) : List Char :=
  if c = '"' ∨ c = '\\' then [c]
  else if c = '\n' then ['n']
  else if c = '\r' then ['r']
  else if c = '\t' then ['t']
  else if c = Char.ofNat 12 then ['f']
  else if c = Char.ofNat 8 then ['b']
  else if c.toNat < 0x10000 then 'u' :: hex4 c.toNat
  else
    let n := c.toNat - 0x10000
    'u' :: hex4 (0xd800 + n / 0x400) ++ '\\' :: 'u' :: hex4 (0xdc00 + n % 0x400)

def character (c : Char) : List Char := if isPlain c then [c] else '\\' :: escaped c

def contents (cs : List Char) : List Char := cs.flatMap character

def literal (s : String) : List Char := '"' :: contents s.toList ++ ['"']

/-! ### Reading -/

def scalar (n : ℕ) : Option Char := if n.isValidChar then some (Char.ofNat n) else none

/-- The second half of a surrogate pair. -/
def lowHalf (high : ℕ) : List Char → Option (Char × List Char)
  | '\\' :: 'u' :: cs => do
    let (low, rest) ← readHex4 cs
    if 0xdc00 ≤ low ∧ low < 0xe000 then
      (scalar (0x10000 + (high - 0xd800) * 0x400 + (low - 0xdc00))).map fun c => (c, rest)
    else none
  | _ => none

/-- The character a backslash introduces. -/
def readEscaped : List Char → Option (Char × List Char)
  | [] => none
  | c :: cs =>
    if c = 'u' then do
      let (n, rest) ← readHex4 cs
      if 0xd800 ≤ n ∧ n < 0xdc00 then lowHalf n rest else (scalar n).map fun c => (c, rest)
    else if c = '"' ∨ c = '\\' ∨ c = '/' then some (c, cs)
    else if c = 'n' then some ('\n', cs)
    else if c = 'r' then some ('\r', cs)
    else if c = 't' then some ('\t', cs)
    else if c = 'f' then some (Char.ofNat 12, cs)
    else if c = 'b' then some (Char.ofNat 8, cs)
    else none

/-- Up to the closing quote. The number bounds the characters of the string. -/
def readContents : ℕ → List Char → Option (List Char × List Char)
  | _, [] => none
  | n, c :: cs =>
    if c = '"' then some ([], cs)
    else match n with
      | 0 => none
      | n + 1 =>
        if c = '\\' then do
          let (c, cs) ← readEscaped cs
          let (text, rest) ← readContents n cs
          return (c :: text, rest)
        else if c < ' ' then none
        else do
          let (text, rest) ← readContents n cs
          return (c :: text, rest)

def readLiteral : List Char → Option (String × List Char)
  | '"' :: cs => (readContents cs.length cs).map fun r => (String.ofList r.1, r.2)
  | _ => none

/-! ### The round trip -/

theorem scalar_toNat (c : Char) : scalar c.toNat = some c := by
  have hvalid : c.toNat.isValidChar := c.valid
  unfold scalar
  rw [if_pos hvalid, Char.ofNat_toNat]

theorem readEscaped_unit {c : Char} {rest : List Char} (h : c.toNat < 0x10000) :
    readEscaped ('u' :: hex4 c.toNat ++ rest) = some (c, rest) := by
  have hvalid : c.toNat < 0xd800 ∨ 0xdfff < c.toNat ∧ c.toNat < 0x110000 := c.valid
  have hhigh : ¬(0xd800 ≤ c.toNat ∧ c.toNat < 0xdc00) := by omega
  have hhex := readHex4_hex4 h rest
  rw [List.cons_append, readEscaped, if_pos rfl, hhex]
  dsimp only [Option.bind_eq_bind, Option.bind_some]
  rw [if_neg hhigh, scalar_toNat, Option.map_some]

theorem lowHalf_hex4 {high low : ℕ} {rest : List Char} (h : 0xdc00 ≤ low ∧ low < 0xe000) :
    lowHalf high ('\\' :: 'u' :: hex4 low ++ rest) =
      (scalar (0x10000 + (high - 0xd800) * 0x400 + (low - 0xdc00))).map fun c => (c, rest) := by
  have hhex := readHex4_hex4 (n := low) (by omega) rest
  rw [List.cons_append, List.cons_append, lowHalf, hhex]
  dsimp only [Option.bind_eq_bind, Option.bind_some]
  rw [if_pos h]

theorem readEscaped_high {high : ℕ} {rest : List Char} (h : 0xd800 ≤ high ∧ high < 0xdc00) :
    readEscaped ('u' :: hex4 high ++ rest) = lowHalf high rest := by
  have hhex := readHex4_hex4 (n := high) (by omega) rest
  rw [List.cons_append, readEscaped, if_pos rfl, hhex]
  dsimp only [Option.bind_eq_bind, Option.bind_some]
  rw [if_pos h]

theorem readEscaped_pair {c : Char} {rest : List Char} (h : ¬c.toNat < 0x10000) :
    readEscaped ('u' :: hex4 (0xd800 + (c.toNat - 0x10000) / 0x400) ++
      '\\' :: 'u' :: hex4 (0xdc00 + (c.toNat - 0x10000) % 0x400) ++ rest) = some (c, rest) := by
  have hvalid : c.toNat < 0xd800 ∨ 0xdfff < c.toNat ∧ c.toNat < 0x110000 := c.valid
  generalize hn : c.toNat - 0x10000 = n
  have hlt : n < 0x100000 := by omega
  have hhigh : 0xd800 ≤ 0xd800 + n / 0x400 ∧ 0xd800 + n / 0x400 < 0xdc00 := by omega
  have hlow : 0xdc00 ≤ 0xdc00 + n % 0x400 ∧ 0xdc00 + n % 0x400 < 0xe000 := by omega
  have hsum : 0x10000 + (0xd800 + n / 0x400 - 0xd800) * 0x400 +
      (0xdc00 + n % 0x400 - 0xdc00) = c.toNat := by omega
  rw [List.append_assoc, readEscaped_high hhigh, lowHalf_hex4 hlow, hsum, scalar_toNat,
    Option.map_some]

theorem readEscaped_escaped (c : Char) (rest : List Char) :
    readEscaped (escaped c ++ rest) = some (c, rest) := by
  unfold escaped
  split
  next h =>
    rcases h with rfl | rfl
    · rfl
    · rfl
  split
  next h => rw [h]; rfl
  split
  next h => rw [h]; rfl
  split
  next h => rw [h]; rfl
  split
  next h => rw [h]; rfl
  split
  next h => rw [h]; rfl
  split
  next h => exact readEscaped_unit h
  next h => exact readEscaped_pair h

theorem readContents_contents {cs rest : List Char} {n : ℕ} (h : cs.length ≤ n) :
    readContents n (contents cs ++ '"' :: rest) = some (cs, rest) := by
  induction cs generalizing n with
  | nil =>
    cases n with
    | zero => rfl
    | succ n => rfl
  | cons c cs ih =>
    cases n with
    | zero => cases h
    | succ n =>
      have htail := ih (Nat.le_of_succ_le_succ h)
      have hcontents : contents (c :: cs) ++ '"' :: rest =
          character c ++ (contents cs ++ '"' :: rest) := by
        rw [contents, List.flatMap_cons, List.append_assoc]
        rfl
      rw [hcontents]
      unfold character
      split
      next hplain =>
        simp only [isPlain, Bool.and_eq_true, decide_eq_true_eq, bne_iff_ne] at hplain
        obtain ⟨⟨⟨hge, _⟩, hquote⟩, hslash⟩ := hplain
        rw [List.cons_append, List.nil_append, readContents, if_neg hquote]
        dsimp only
        rw [if_neg hslash, if_neg (Char.not_lt.mpr hge), htail]
        rfl
      next hplain =>
        rw [List.cons_append, readContents, if_neg (by decide)]
        dsimp only
        rw [if_pos rfl, readEscaped_escaped]
        dsimp only [Option.bind_eq_bind, Option.bind_some]
        rw [htail]
        rfl

theorem length_character_pos (c : Char) : 0 < (character c).length := by
  unfold character
  split
  · exact Nat.one_pos
  · exact Nat.succ_pos _

theorem length_le_contents (cs : List Char) : cs.length ≤ (contents cs).length := by
  induction cs with
  | nil => exact Nat.le_refl 0
  | cons c cs ih =>
    have hpos := length_character_pos c
    have hcontents : (contents (c :: cs)).length = (character c).length + (contents cs).length := by
      rw [contents, List.flatMap_cons, List.length_append]
      rfl
    rw [hcontents, List.length_cons]
    omega

theorem readLiteral_literal (s : String) (rest : List Char) :
    readLiteral (literal s ++ rest) = some (s, rest) := by
  have happ : literal s ++ rest = '"' :: (contents s.toList ++ '"' :: rest) := by
    unfold literal
    simp only [List.cons_append, List.append_assoc, List.nil_append]
  have hlen : s.toList.length ≤ (contents s.toList ++ '"' :: rest).length := by
    have hle := length_le_contents s.toList
    rw [List.length_append]
    omega
  rw [happ, readLiteral, readContents_contents hlen, Option.map_some, String.ofList_toList]

end JsonStrings
