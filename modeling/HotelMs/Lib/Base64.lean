import Mathlib.Data.Fin.Basic
import Mathlib.Data.List.GetD
import Mathlib.Data.List.Nodup
import Mathlib.Tactic.Common

/-!
# Base 64

Three bytes are four groups of six bits. The last one or two bytes of a text
give two or three groups, filled up with zero bits. The two alphabets differ in
the letters of the last two groups. `atob` is the decoder of the browsers: it
passes over white space, wants no padding and ignores the bits left over.
-/

namespace Base64

/-! ### Groups of six bits -/

abbrev Byte := Fin 256

abbrev Sextet := Fin 64

def first (a : Byte) : Sextet := ⟨a.val / 4, by omega⟩

def second (a b : Byte) : Sextet := ⟨a.val % 4 * 16 + b.val / 16, by omega⟩

def third (b c : Byte) : Sextet := ⟨b.val % 16 * 4 + c.val / 64, by omega⟩

def fourth (c : Byte) : Sextet := ⟨c.val % 64, by omega⟩

def sextets : List Byte → List Sextet
  | [] => []
  | [a] => [first a, second a 0]
  | [a, b] => [first a, second a b, third b 0]
  | a :: b :: c :: rest => first a :: second a b :: third b c :: fourth c :: sextets rest

def byte1 (s t : Sextet) : Byte := ⟨s.val * 4 + t.val / 16, by omega⟩

def byte2 (t u : Sextet) : Byte := ⟨t.val % 16 * 16 + u.val / 4, by omega⟩

def byte3 (u v : Sextet) : Byte := ⟨u.val % 4 * 64 + v.val, by omega⟩

def bytes : List Sextet → Option (List Byte)
  | [] => some []
  | [_] => none
  | [s, t] => some [byte1 s t]
  | [s, t, u] => some [byte1 s t, byte2 t u]
  | s :: t :: u :: v :: rest =>
    (bytes rest).map fun bs => byte1 s t :: byte2 t u :: byte3 u v :: bs

theorem byte1_first_second (a b : Byte) : byte1 (first a) (second a b) = a := by
  apply Fin.ext
  simp only [byte1, first, second]
  omega

theorem byte2_second_third (a b c : Byte) : byte2 (second a b) (third b c) = b := by
  apply Fin.ext
  simp only [byte2, second, third]
  omega

theorem byte3_third_fourth (b c : Byte) : byte3 (third b c) (fourth c) = c := by
  apply Fin.ext
  simp only [byte3, third, fourth]
  omega

theorem bytes_sextets (bs : List Byte) : bytes (sextets bs) = some bs := by
  induction bs using sextets.induct with
  | case1 => rfl
  | case2 a => rw [sextets, bytes, byte1_first_second]
  | case3 a b => rw [sextets, bytes, byte1_first_second, byte2_second_third]
  | case4 a b c rest ih =>
    rw [sextets, bytes, ih, Option.map_some, byte1_first_second, byte2_second_third,
      byte3_third_fourth]

/-! ### Letters -/

def alphabet : List Char :=
  "ABCDEFGHIJKLMNOPQRSTUVWXYZabcdefghijklmnopqrstuvwxyz0123456789+/".toList

def urlAlphabet : List Char :=
  "ABCDEFGHIJKLMNOPQRSTUVWXYZabcdefghijklmnopqrstuvwxyz0123456789-_".toList

def letter (table : List Char) (s : Sextet) : Char := table.getD s.val 'A'

def sextet (table : List Char) (c : Char) : Option Sextet :=
  (List.finRange 64).find? fun s => letter table s = c

theorem alphabet_eq : alphabet = ['A', 'B', 'C', 'D', 'E', 'F', 'G', 'H', 'I', 'J', 'K', 'L', 'M',
    'N', 'O', 'P', 'Q', 'R', 'S', 'T', 'U', 'V', 'W', 'X', 'Y', 'Z', 'a', 'b', 'c', 'd', 'e', 'f',
    'g', 'h', 'i', 'j', 'k', 'l', 'm', 'n', 'o', 'p', 'q', 'r', 's', 't', 'u', 'v', 'w', 'x', 'y',
    'z', '0', '1', '2', '3', '4', '5', '6', '7', '8', '9', '+', '/'] := String.toList_ofList

theorem urlAlphabet_eq : urlAlphabet = alphabet.take 62 ++ ['-', '_'] := by
  rw [alphabet_eq]
  exact String.toList_ofList

theorem nodup_alphabet : alphabet.Nodup := by
  refine List.Nodup.of_map Char.toNat ?_
  rw [alphabet_eq]
  decide

theorem letter_injective {s t : Sextet} (h : letter alphabet s = letter alphabet t) : s = t := by
  have hlength : ∀ i : Sextet, i.val < alphabet.length := by
    intro i
    rw [alphabet_eq]
    exact i.isLt
  rw [letter, letter, List.getD_eq_getElem _ _ (hlength s),
    List.getD_eq_getElem _ _ (hlength t)] at h
  exact Fin.ext (nodup_alphabet.getElem_inj_iff.mp h)

theorem sextet_letter (s : Sextet) : sextet alphabet (letter alphabet s) = some s := by
  unfold sextet
  cases hfind : (List.finRange 64).find? fun t => letter alphabet t = letter alphabet s with
  | none =>
    have hno := List.find?_eq_none.mp hfind s (List.mem_finRange s)
    exact absurd (decide_eq_true rfl) hno
  | some t =>
    have hsame := List.find?_some hfind
    rw [letter_injective (of_decide_eq_true hsame)]

/-- Only the last two groups have another letter. -/
theorem letter_url (s : Sextet) (h : s.val < 62) : letter urlAlphabet s = letter alphabet s := by
  have hlength : s.val < (alphabet.take 62).length := by
    rw [alphabet_eq]
    exact h
  rw [letter, letter, urlAlphabet_eq, List.getD_append _ _ _ _ hlength]
  conv_rhs => rw [← List.take_append_drop 62 alphabet, List.getD_append _ _ _ _ hlength]

theorem letter_ne_dot (s : Sextet) : letter urlAlphabet s ≠ '.' := by
  rw [urlAlphabet_eq, alphabet_eq]
  revert s
  decide

def isBlank (c : Char) : Bool := c == ' ' || c == '\t' || c == '\n' || c == '\x0c' || c == '\r'

theorem letter_plain (s : Sextet) :
    isBlank (letter alphabet s) = false ∧ letter alphabet s ≠ '=' := by
  rw [alphabet_eq]
  revert s
  decide

/-- The encoding without padding that tokens use. -/
def urlEncode (bs : List Byte) : List Char := (sextets bs).map (letter urlAlphabet)

/-- One or two `=` at the end of a text of full length are padding. -/
def unpad (cs : List Char) : List Char :=
  if cs.length % 4 = 0 then
    if cs.drop (cs.length - 2) = ['=', '='] then cs.take (cs.length - 2)
    else if cs.drop (cs.length - 1) = ['='] then cs.take (cs.length - 1)
    else cs
  else cs

/-- `atob`: `none` is the exception. -/
def atob (text : List Char) : Option (List Byte) := do
  let groups ← (unpad (text.filter fun c => !isBlank c)).mapM (sextet alphabet)
  bytes groups

/-- Every `-` becomes `+`, then every `_` becomes `/`. -/
def fromUrl (text : List Char) : List Char :=
  (text.map fun c => if c = '-' then '+' else c).map fun c => if c = '_' then '/' else c

theorem fromUrl_letter (s : Sextet) :
    (fun c => if c = '_' then '/' else c) ((fun c => if c = '-' then '+' else c)
      (letter urlAlphabet s)) = letter alphabet s := by
  rw [urlAlphabet_eq, alphabet_eq]
  revert s
  decide

theorem fromUrl_urlEncode (bs : List Byte) :
    fromUrl (urlEncode bs) = (sextets bs).map (letter alphabet) := by
  rw [fromUrl, urlEncode, List.map_map, List.map_map]
  exact List.map_congr_left fun s _ => fromUrl_letter s

/-! ### What `atob` makes of an encoding -/

theorem unpad_of_no_padding {cs : List Char} (h : '=' ∉ cs) : unpad cs = cs := by
  have hdrop : ∀ n cs', cs.drop n = cs' → '=' ∉ cs' := by
    rintro n _ rfl hmem
    exact h (List.mem_of_mem_drop hmem)
  unfold unpad
  split
  · split
    · rename_i htwo
      exact absurd (List.mem_cons_self ..) (hdrop _ _ htwo)
    · split
      · rename_i hone
        exact absurd (List.mem_cons_self ..) (hdrop _ _ hone)
      · rfl
  · rfl

theorem atob_letters (bs : List Byte) : atob ((sextets bs).map (letter alphabet)) = some bs := by
  have hfilter : ((sextets bs).map (letter alphabet)).filter (fun c => !isBlank c) =
      (sextets bs).map (letter alphabet) := by
    refine List.filter_eq_self.mpr fun c hc => ?_
    obtain ⟨s, -, rfl⟩ := List.mem_map.mp hc
    rw [(letter_plain s).1]
    rfl
  have hpad : '=' ∉ (sextets bs).map (letter alphabet) := by
    intro hc
    obtain ⟨s, -, hs⟩ := List.mem_map.mp hc
    exact (letter_plain s).2 hs
  have hread : ((sextets bs).map (letter alphabet)).mapM (sextet alphabet) =
      some (sextets bs) := by
    rw [List.mapM_map]
    have hself : sextet alphabet ∘ letter alphabet = fun s => pure s :=
      funext fun s => sextet_letter s
    rw [hself, List.mapM_pure, List.map_id']
    rfl
  rw [atob, hfilter, unpad_of_no_padding hpad, hread]
  exact bytes_sextets bs

/-- With the letters put back, `atob` reads what was encoded. -/
theorem atob_fromUrl (bs : List Byte) : atob (fromUrl (urlEncode bs)) = some bs := by
  rw [fromUrl_urlEncode, atob_letters]

/-! ### Texts without the last two letters -/

/-- ASCII, and not one of the four characters that end in five ones. -/
def Safe (b : Byte) : Prop := b.val < 128 ∧ b.val % 64 < 62

instance (b : Byte) : Decidable (Safe b) := inferInstanceAs (Decidable (_ ∧ _))

theorem sextets_of_safe {bs : List Byte} (h : ∀ b ∈ bs, Safe b) :
    ∀ s ∈ sextets bs, s.val < 62 := by
  induction bs using sextets.induct with
  | case1 => exact nofun
  | case2 a =>
    have ha := h a (by simp)
    simp only [sextets, List.mem_cons, List.not_mem_nil, or_false, first, second, Safe] at ha ⊢
    rintro s (rfl | rfl)
    · simp only
      omega
    · simp only [Fin.val_zero]
      omega
  | case3 a b =>
    have ha := h a (by simp)
    have hb := h b (by simp)
    simp only [sextets, List.mem_cons, List.not_mem_nil, or_false, first, second, third,
      Safe] at ha hb ⊢
    rintro s (rfl | rfl | rfl)
    · simp only
      omega
    · simp only
      omega
    · simp only [Fin.val_zero]
      omega
  | case4 a b c rest ih =>
    have ha := h a (by simp)
    have hb := h b (by simp)
    have hc := h c (by simp)
    have hrest := ih fun x hx => h x (by simp [hx])
    simp only [sextets, List.mem_cons, first, second, third, fourth, Safe] at ha hb hc ⊢
    rintro s (rfl | rfl | rfl | rfl | hs)
    · simp only
      omega
    · simp only
      omega
    · simp only
      omega
    · exact hc.2
    · exact hrest s hs

/-- Then the two alphabets write the same text, and `atob` reads it as it is. -/
theorem atob_urlEncode_of_safe {bs : List Byte} (h : ∀ b ∈ bs, Safe b) :
    atob (urlEncode bs) = some bs := by
  have hletters : urlEncode bs = (sextets bs).map (letter alphabet) :=
    List.map_congr_left fun s hs => letter_url s (sextets_of_safe h s hs)
  rw [hletters, atob_letters]

end Base64
