import HotelMs.Lib.JsonStrings
import HotelMs.Lib.Numerals
import HotelMs.Lib.PyText

/-!
# All of `json.loads`, and `int` of a text

Every text that `json.loads` takes, as it takes it: floats and `NaN`, halves of
surrogate pairs, repeated names, at most 4300 digits, nesting as deep as the stack
allows. What it raises on is `none`.
-/

namespace PyJson

open JsonStrings Numerals

/-- A character of a Python text; an escape may leave half of a surrogate pair. -/
inductive PyChar
  | scalar (c : Char)
  | half (unit : ℕ)
  deriving DecidableEq

abbrev PyStr := List PyChar

def ofText (text : List Char) : PyStr := text.map .scalar

inductive PyValue (α : Type) where
  | null
  | bool (b : Bool)
  | int (i : ℤ)
  | float (x : α)
  | str (s : PyStr)
  | list (vs : List (PyValue α))
  | dict (fields : List (PyStr × PyValue α))

variable {α : Type}

/-- `dict.get(name)` of the pairs in order; of equal names the last one counts. -/
def lookup (name : List Char) (fields : List (PyStr × PyValue α)) : Option (PyValue α) :=
  fields.reverse.lookup (ofText name)

/-! ### Strings -/

def pyChar (n : ℕ) : PyChar :=
  match JsonStrings.scalar n with
  | some c => .scalar c
  | none => .half n

def simpleEscape (c : Char) : Option Char :=
  if c = '"' ∨ c = '\\' ∨ c = '/' then some c
  else if c = 'n' then some '\n'
  else if c = 'r' then some '\r'
  else if c = 't' then some '\t'
  else if c = 'f' then some (Char.ofNat 12)
  else if c = 'b' then some (Char.ofNat 8)
  else none

/-- Up to the closing quote. -/
def stringUnits : List Char → Option (PyStr × List Char)
  | [] => none
  | '"' :: cs => some ([], cs)
  | '\\' :: 'u' :: a :: b :: c :: d :: cs => do
    let (n, _) ← readHex4 [a, b, c, d]
    let (s, rest) ← stringUnits cs
    return (pyChar n :: s, rest)
  | '\\' :: e :: cs => do
    let c ← simpleEscape e
    let (s, rest) ← stringUnits cs
    return (.scalar c :: s, rest)
  | c :: cs =>
    if c < ' ' then none
    else do
      let (s, rest) ← stringUnits cs
      return (.scalar c :: s, rest)

/-- Two halves that belong together are one character. -/
def pairHalves : PyStr → PyStr
  | .half high :: .half low :: s =>
    if high < 0xdc00 ∧ 0xdc00 ≤ low then
      pyChar (0x10000 + (high - 0xd800) * 0x400 + (low - 0xdc00)) :: pairHalves s
    else .half high :: pairHalves (.half low :: s)
  | c :: s => c :: pairHalves s
  | [] => []

def string (cs : List Char) : Option (PyStr × List Char) :=
  (stringUnits cs).map fun r => (pairHalves r.1, r.2)

/-! ### Numbers -/

def fraction : List Char → List Char × List Char
  | '.' :: cs =>
    let (ds, rest) := digits cs
    if ds = [] then ([], '.' :: cs) else ('.' :: ds, rest)
  | cs => ([], cs)

def sign : List Char → List Char × List Char
  | '+' :: cs => (['+'], cs)
  | '-' :: cs => (['-'], cs)
  | cs => ([], cs)

def exponent : List Char → List Char × List Char
  | [] => ([], [])
  | e :: cs =>
    if e = 'e' ∨ e = 'E' then
      let (mark, after) := sign cs
      let (ds, rest) := digits after
      if ds = [] then ([], e :: cs) else (e :: mark ++ ds, rest)
    else ([], e :: cs)

/-- The limit of `int` of a text. -/
def maxDigits : ℕ := 4300

section

-- `float` of a numeral, and of `NaN`, `Infinity` and `-Infinity`
variable (float : List Char → α)

def unsigned (minus : Bool) (cs : List Char) : Option (PyValue α × List Char) :=
  let (ds, rest) := match cs with
    | '0' :: rest => (['0'], rest)
    | _ => digits cs
  let (frac, rest) := fraction rest
  let (exp, rest) := exponent rest
  if ds = [] then none
  else if frac = [] ∧ exp = [] then
    if maxDigits < ds.length then none
    else some (.int (if minus then -(number ds : ℤ) else number ds), rest)
  else some (.float (float ((if minus then ['-'] else []) ++ ds ++ frac ++ exp)), rest)

/-! ### Values -/

def isSpace (c : Char) : Bool := c == ' ' || c == '\t' || c == '\n' || c == '\r'

def skip (cs : List Char) : List Char := cs.dropWhile isSpace

def constants : List (List Char × PyValue α) :=
  [("null".toList, .null), ("true".toList, .bool true), ("false".toList, .bool false),
    ("NaN".toList, .float (float "NaN".toList)),
    ("Infinity".toList, .float (float "Infinity".toList)),
    ("-Infinity".toList, .float (float "-Infinity".toList))]

/-- A constant or a number. -/
def atom (cs : List Char) : Option (PyValue α × List Char) :=
  match (constants float).find? fun c => c.1.isPrefixOf cs with
  | some c => some (c.2, cs.drop c.1.length)
  | none =>
    match cs with
    | '-' :: rest => unsigned float true rest
    | _ => unsigned float false cs

mutual

-- the first number is the levels of nesting left, the second bounds the recursion
def value : ℕ → ℕ → List Char → Option (PyValue α × List Char)
  | _, 0, _ => none
  | levels, n + 1, cs =>
    match cs with
    | [] => none
    | c :: rest =>
      if c = '"' then (string rest).map fun r => (.str r.1, r.2)
      else if c = '[' then
        if levels = 0 then none
        else match expect ']' (skip rest) with
          | some rest => some (.list [], rest)
          | none => (items (levels - 1) n (skip rest)).map fun r => (.list r.1, r.2)
      else if c = '\x7b' then
        if levels = 0 then none
        else match expect '\x7d' (skip rest) with
          | some rest => some (.dict [], rest)
          | none => (fields (levels - 1) n (skip rest)).map fun r => (.dict r.1, r.2)
      else atom float cs

def items : ℕ → ℕ → List Char → Option (List (PyValue α) × List Char)
  | _, 0, _ => none
  | levels, n + 1, cs => do
    let (v, cs) ← value levels n cs
    match expect ']' (skip cs) with
    | some rest => return ([v], rest)
    | none =>
      let cs ← expect ',' (skip cs)
      let (vs, rest) ← items levels n (skip cs)
      return (v :: vs, rest)

def fields : ℕ → ℕ → List Char → Option (List (PyStr × PyValue α) × List Char)
  | _, 0, _ => none
  | levels, n + 1, cs => do
    let cs ← expect '"' cs
    let (k, cs) ← string cs
    let cs ← expect ':' (skip cs)
    let (v, cs) ← value levels n (skip cs)
    match expect '\x7d' (skip cs) with
    | some rest => return ([(k, v)], rest)
    | none =>
      let cs ← expect ',' (skip cs)
      let (fs, rest) ← fields levels n (skip cs)
      return ((k, v) :: fs, rest)

end

/-- The whole text, with fuel. -/
def readText (levels n : ℕ) (text : List Char) : Option (PyValue α) := do
  let (v, rest) ← value float levels n (skip text)
  if skip rest = [] then some v else none

end

/-! ### `int` -/

def PyChar.decimal : PyChar → Option ℕ
  | .scalar c =>
    (PyText.decimalRuns.find? fun n => n ≤ c.toNat && c.toNat < n + 10).map fun n => c.toNat - n
  | .half _ => none

/-- What `int` strips: not the four separators that `str.strip` does. -/
def PyChar.isBlank : PyChar → Bool
  | .scalar c => PyText.isSpace c && !(0x1c ≤ c.toNat && c.toNat ≤ 0x1f)
  | .half _ => false

def signed : PyStr → Bool × PyStr
  | .scalar '-' :: s => (true, s)
  | .scalar '+' :: s => (false, s)
  | s => (false, s)

/-- `int(s)`: digits of any script, single underscores between them. -/
def intOf (s : PyStr) : Option ℤ := do
  let trimmed := (s.dropWhile PyChar.isBlank).rdropWhile PyChar.isBlank
  let (minus, body) := signed trimmed
  let groups := body.splitOn (.scalar '_')
  let ds ← groups.flatten.mapM PyChar.decimal
  if [] ∈ groups ∨ maxDigits < ds.length then none
  else
    let n : ℕ := ds.foldl (fun n d => 10 * n + d) 0
    some (if minus then -(n : ℤ) else n)

/-! ### How far a reader goes -/

theorem length_skip (cs : List Char) : (skip cs).length ≤ cs.length :=
  (List.dropWhile_sublist _).length_le

theorem length_of_expect {c : Char} {cs rest : List Char} (h : expect c cs = some rest) :
    cs.length = rest.length + 1 := by
  cases cs with
  | nil => cases h
  | cons d cs =>
    by_cases hd : d = c
    · rw [hd, expect_self] at h
      cases h
      rfl
    · rw [expect_of_ne hd] at h
      cases h

theorem length_stringUnits {cs rest : List Char} {s : PyStr}
    (h : stringUnits cs = some (s, rest)) : rest.length < cs.length := by
  induction cs using stringUnits.induct generalizing s rest with
  | case1 => cases h
  | case2 cs =>
    cases h
    exact Nat.lt_succ_self _
  | case3 a b c d cs ih =>
    rw [stringUnits] at h
    simp only [Option.bind_eq_bind, Option.bind_eq_some_iff, Option.pure_def, Option.some.injEq,
      Prod.mk.injEq, Prod.exists] at h
    obtain ⟨n, _, _, t, rest', ht, -, rfl⟩ := h
    have hlt := ih ht
    simp only [List.length_cons]
    omega
  | case4 e cs he ih =>
    rw [stringUnits.eq_4 _ _ he] at h
    simp only [Option.bind_eq_bind, Option.bind_eq_some_iff, Option.pure_def, Option.some.injEq,
      Prod.mk.injEq, Prod.exists] at h
    obtain ⟨c, _, t, rest', ht, -, rfl⟩ := h
    have hlt := ih ht
    simp only [List.length_cons]
    omega
  | case5 c cs hquote hunit hescape hcontrol =>
    rw [stringUnits.eq_5 _ _ hquote hunit hescape, if_pos hcontrol] at h
    cases h
  | case6 c cs hquote hunit hescape hcontrol ih =>
    rw [stringUnits.eq_5 _ _ hquote hunit hescape, if_neg hcontrol] at h
    simp only [Option.bind_eq_bind, Option.bind_eq_some_iff, Option.pure_def, Option.some.injEq,
      Prod.mk.injEq, Prod.exists] at h
    obtain ⟨t, rest', ht, -, rfl⟩ := h
    have hlt := ih ht
    simp only [List.length_cons]
    omega

theorem length_string {cs rest : List Char} {s : PyStr} (h : string cs = some (s, rest)) :
    rest.length < cs.length := by
  obtain ⟨⟨t, rest'⟩, ht, heq⟩ := Option.map_eq_some_iff.mp h
  cases heq
  exact length_stringUnits ht

theorem length_digits (cs : List Char) :
    (digits cs).1.length + (digits cs).2.length = cs.length := by
  rw [← List.length_append]
  exact congrArg List.length List.takeWhile_append_dropWhile

theorem length_fraction (cs : List Char) : (fraction cs).2.length ≤ cs.length := by
  unfold fraction
  split
  next cs =>
    have hdigits := length_digits cs
    dsimp only
    split
    next => exact Nat.le_refl _
    next =>
      show (digits cs).2.length ≤ cs.length + 1
      omega
  next => exact Nat.le_refl _

theorem length_sign (cs : List Char) : (sign cs).2.length ≤ cs.length := by
  unfold sign
  split
  next => exact Nat.le_succ _
  next => exact Nat.le_succ _
  next => exact Nat.le_refl _

theorem length_exponent (cs : List Char) : (exponent cs).2.length ≤ cs.length := by
  cases cs with
  | nil => exact Nat.le_refl _
  | cons e cs =>
    have hsign := length_sign cs
    have hdigits := length_digits (sign cs).2
    rw [exponent]
    split
    next =>
      dsimp only
      split
      next => exact Nat.le_refl _
      next =>
        show (digits (sign cs).2).2.length ≤ cs.length + 1
        omega
    next => exact Nat.le_refl _

section

variable {float : List Char → α} {cs rest : List Char} {v : PyValue α}

theorem length_unsigned {minus : Bool} (h : unsigned float minus cs = some (v, rest)) :
    rest.length < cs.length := by
  unfold unsigned at h
  split at h
  next ds after hlead =>
    have hlength : ds.length + after.length = cs.length := by
      split at hlead
      next =>
        cases hlead
        rw [List.length_singleton, List.length_cons, Nat.add_comm]
      next =>
        rw [← length_digits cs, hlead]
    have hfrac := length_fraction after
    have hexp := length_exponent (fraction after).2
    dsimp only at h
    split at h
    next => cases h
    next hds =>
      have hpos := List.length_pos_iff.mpr hds
      have hrest : rest = (exponent (fraction after).2).2 := by
        split at h
        next =>
          split at h
          next => cases h
          next =>
            cases h
            rfl
        next =>
          cases h
          rfl
      rw [hrest]
      omega

theorem length_atom (h : atom float cs = some (v, rest)) : rest.length < cs.length := by
  unfold atom at h
  split at h
  next c hc =>
    have hmem := List.mem_of_find?_eq_some hc
    have hprefix := List.find?_some hc
    have hpos : 0 < c.1.length := by
      unfold constants at hmem
      simp only [List.mem_cons, List.not_mem_nil, or_false] at hmem
      rcases hmem with rfl | rfl | rfl | rfl | rfl | rfl <;> exact Nat.succ_pos _
    have hle := (List.isPrefixOf_iff_prefix.mp hprefix).length_le
    cases h
    rw [List.length_drop]
    omega
  next =>
    split at h
    next =>
      have hlt := length_unsigned h
      rw [List.length_cons]
      omega
    next => exact length_unsigned h

variable (float)

/-- What the three readers with fuel `n` take is not empty. -/
structure Consumes (n : ℕ) : Prop where
  value : ∀ levels cs v rest, value float levels n cs = some (v, rest) → rest.length < cs.length
  items : ∀ levels cs vs rest, items float levels n cs = some (vs, rest) → rest.length < cs.length
  fields : ∀ levels cs fs rest,
    fields float levels n cs = some (fs, rest) → rest.length < cs.length

/-- What stands in brackets, empty or not. -/
theorem length_bracketed {β : Type} {close : Char} {inner : Option (β × List Char)}
    {empty v : PyValue α} {wrap : β → PyValue α} {cs rest : List Char}
    (h : (match expect close (skip cs) with
      | some after => some (empty, after)
      | none => inner.map fun r => (wrap r.1, r.2)) = some (v, rest))
    (hinner : ∀ b after, inner = some (b, after) → after.length < (skip cs).length) :
    rest.length < cs.length := by
  have hskip := length_skip cs
  split at h
  next after hafter =>
    have hlength := length_of_expect hafter
    cases h
    omega
  next =>
    obtain ⟨⟨b, after⟩, hb, heq⟩ := Option.map_eq_some_iff.mp h
    cases heq
    exact (hinner b after hb).trans_le hskip

/-- What stands behind an entry: the bracket, or a comma and the other entries. -/
theorem length_listed {β : Type} {close : Char} {x : β}
    {more : List Char → Option (List β × List Char)} {cs rest : List Char} {xs : List β}
    (h : (match expect close (skip cs) with
      | some after => some ([x], after)
      | none => do
        let cs ← expect ',' (skip cs)
        let (xs, rest) ← more (skip cs)
        return (x :: xs, rest)) = some (xs, rest))
    (hmore : ∀ cs xs rest, more cs = some (xs, rest) → rest.length < cs.length) :
    rest.length < cs.length := by
  have hskip := length_skip cs
  split at h
  next after hafter =>
    have hlength := length_of_expect hafter
    cases h
    omega
  next =>
    obtain ⟨next, hnext, h⟩ := Option.bind_eq_some_iff.mp h
    obtain ⟨⟨xs', rest'⟩, hxs, h⟩ := Option.bind_eq_some_iff.mp h
    have hlength := length_of_expect hnext
    have hlater := hmore _ _ _ hxs
    have hskip' := length_skip next
    cases h
    omega

theorem value_consumes {n : ℕ} (ih : Consumes float n) (levels : ℕ) (cs : List Char)
    (v : PyValue α) (rest : List Char) (h : value float levels (n + 1) cs = some (v, rest)) :
    rest.length < cs.length := by
  cases cs with
  | nil => cases h
  | cons c cs =>
    rw [List.length_cons]
    rw [value] at h
    split at h
    next =>
      obtain ⟨⟨t, rest'⟩, ht, heq⟩ := Option.map_eq_some_iff.mp h
      cases heq
      exact Nat.lt_succ_of_lt (length_string ht)
    next =>
      split at h
      next =>
        split at h
        next => cases h
        next =>
          exact Nat.lt_succ_of_lt (length_bracketed h fun _ _ hvs => ih.items _ _ _ _ hvs)
      next =>
        split at h
        next =>
          split at h
          next => cases h
          next =>
            exact Nat.lt_succ_of_lt (length_bracketed h fun _ _ hfs => ih.fields _ _ _ _ hfs)
        next => exact length_atom h

theorem items_consumes {n : ℕ} (ih : Consumes float n) (levels : ℕ) (cs : List Char)
    (vs : List (PyValue α)) (rest : List Char)
    (h : items float levels (n + 1) cs = some (vs, rest)) : rest.length < cs.length := by
  rw [items] at h
  obtain ⟨⟨v, after⟩, hv, h⟩ := Option.bind_eq_some_iff.mp h
  exact (length_listed h (ih.items levels)).trans (ih.value _ _ _ _ hv)

theorem fields_consumes {n : ℕ} (ih : Consumes float n) (levels : ℕ) (cs : List Char)
    (fs : List (PyStr × PyValue α)) (rest : List Char)
    (h : fields float levels (n + 1) cs = some (fs, rest)) : rest.length < cs.length := by
  rw [fields] at h
  obtain ⟨quoted, hquoted, h⟩ := Option.bind_eq_some_iff.mp h
  obtain ⟨⟨k, named⟩, hk, h⟩ := Option.bind_eq_some_iff.mp h
  obtain ⟨colon, hcolon, h⟩ := Option.bind_eq_some_iff.mp h
  obtain ⟨⟨v, after⟩, hv, h⟩ := Option.bind_eq_some_iff.mp h
  have hquote := length_of_expect hquoted
  have hname := length_string hk
  have hcolon' := length_of_expect hcolon
  have hfirst := ih.value _ _ _ _ hv
  have hskip := length_skip named
  have hskip' := length_skip colon
  have hlast := length_listed h (ih.fields levels)
  omega

theorem consumes (n : ℕ) : Consumes float n := by
  induction n with
  | zero =>
    refine ⟨fun levels cs v rest h => ?_, fun levels cs v rest h => ?_,
      fun levels cs v rest h => ?_⟩
    · rw [value] at h
      cases h
    · rw [items] at h
      cases h
    · rw [fields] at h
      cases h
  | succ n ih => exact ⟨value_consumes float ih, items_consumes float ih, fields_consumes float ih⟩

/-- Fuel beyond `n` makes no difference to the texts that `n` is enough for. -/
structure Settled (n : ℕ) : Prop where
  value : ∀ levels cs m, 2 * cs.length < n → 2 * cs.length < m →
    value float levels n cs = value float levels m cs
  items : ∀ levels cs m, 2 * cs.length + 1 < n → 2 * cs.length + 1 < m →
    items float levels n cs = items float levels m cs
  fields : ∀ levels cs m, 2 * cs.length + 1 < n → 2 * cs.length + 1 < m →
    fields float levels n cs = fields float levels m cs

theorem value_settled {n : ℕ} (ih : Settled float n) (levels : ℕ) (cs : List Char) (m : ℕ)
    (hn : 2 * cs.length < n + 1) (hm : 2 * cs.length < m + 1) :
    value float levels (n + 1) cs = value float levels (m + 1) cs := by
  cases cs with
  | nil => rfl
  | cons c cs =>
    have hskip := length_skip cs
    rw [List.length_cons] at hn hm
    rw [value, value, ih.items _ _ m (by omega) (by omega), ih.fields _ _ m (by omega) (by omega)]

theorem items_settled {n : ℕ} (ih : Settled float n) (levels : ℕ) (cs : List Char) (m : ℕ)
    (hn : 2 * cs.length + 1 < n + 1) (hm : 2 * cs.length + 1 < m + 1) :
    items float levels (n + 1) cs = items float levels (m + 1) cs := by
  rw [items, items, ih.value _ _ m (by omega) (by omega)]
  refine Option.bind_congr fun v hv => ?_
  have hfirst := (consumes float m).value _ _ _ _ hv
  have hskip := length_skip v.2
  dsimp only
  cases expect ']' (skip v.2) with
  | some last => rfl
  | none =>
    refine Option.bind_congr fun next hnext => ?_
    have hlength := length_of_expect hnext
    have hskip' := length_skip next
    rw [ih.items _ _ m (by omega) (by omega)]

theorem fields_settled {n : ℕ} (ih : Settled float n) (levels : ℕ) (cs : List Char) (m : ℕ)
    (hn : 2 * cs.length + 1 < n + 1) (hm : 2 * cs.length + 1 < m + 1) :
    fields float levels (n + 1) cs = fields float levels (m + 1) cs := by
  rw [fields, fields]
  refine Option.bind_congr fun quoted hquoted => ?_
  refine Option.bind_congr fun r hr => ?_
  refine Option.bind_congr fun colon hcolon => ?_
  have hquote := length_of_expect hquoted
  have hname := length_string hr
  have hcolon' := length_of_expect hcolon
  have hskip := length_skip r.2
  have hskip' := length_skip colon
  rw [ih.value _ _ m (by omega) (by omega)]
  refine Option.bind_congr fun v hv => ?_
  have hfirst := (consumes float m).value _ _ _ _ hv
  have hskip'' := length_skip v.2
  dsimp only
  cases expect '\x7d' (skip v.2) with
  | some last => rfl
  | none =>
    refine Option.bind_congr fun next hnext => ?_
    have hlength := length_of_expect hnext
    have hskip3 := length_skip next
    rw [ih.fields _ _ m (by omega) (by omega)]

theorem settled (n : ℕ) : Settled float n := by
  induction n with
  | zero =>
    exact ⟨fun _ _ _ h => absurd h (Nat.not_lt_zero _), fun _ _ _ h => absurd h (Nat.not_lt_zero _),
      fun _ _ _ h => absurd h (Nat.not_lt_zero _)⟩
  | succ n ih =>
    refine ⟨fun levels cs m hn hm => ?_, fun levels cs m hn hm => ?_, fun levels cs m hn hm => ?_⟩
    · obtain ⟨m, rfl⟩ := Nat.exists_eq_succ_of_ne_zero (Nat.ne_zero_of_lt hm)
      exact value_settled float ih levels cs m hn hm
    · obtain ⟨m, rfl⟩ := Nat.exists_eq_succ_of_ne_zero (Nat.ne_zero_of_lt hm)
      exact items_settled float ih levels cs m hn hm
    · obtain ⟨m, rfl⟩ := Nat.exists_eq_succ_of_ne_zero (Nat.ne_zero_of_lt hm)
      exact fields_settled float ih levels cs m hn hm

theorem readText_settled (levels n : ℕ) (text : List Char) (h : 2 * text.length < n) :
    readText float levels n text = readText float levels (2 * text.length + 2) text := by
  have hskip := length_skip text
  unfold readText
  rw [(settled float n).value _ _ (2 * text.length + 2) (by omega) (by omega)]

/-- A reader of texts for which twice their length is as good as more fuel. -/
structure FueledReader (β : Type) where
  read : ℕ → List Char → Option β
  settled : ∀ n text, 2 * text.length < n → read n text = read (2 * text.length + 2) text

def FueledReader.run {β : Type} (r : FueledReader β) (text : List Char) : Option β :=
  r.read (2 * text.length + 2) text

def jsonReader (levels : ℕ) : FueledReader (PyValue α) where
  read := readText float levels
  settled := readText_settled float levels

def loads (levels : ℕ) (text : List Char) : Option (PyValue α) := (jsonReader float levels).run text

end

end PyJson
