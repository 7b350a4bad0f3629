import HotelMs.Lib.JsonStrings
import HotelMs.Lib.Numerals

/-!
# `json.dumps` and `json.loads`

A value holds what JSON has and, at its leaves, what `default` turns into text.
The writer takes the separators of `json.dumps`. The reader skips white space as
`json.loads` does and keeps the pairs of an object in order; it has no floats.
-/

namespace Json

open JsonStrings Numerals

inductive Value (α : Type*) where
  | null
  | bool (b : Bool)
  | int (i : ℤ)
  | str (s : String)
  | other (a : α)
  | list (vs : List (Value α))
  | dict (fields : List (String × Value α))

/-- What `json.loads` returns. -/
abbrev Loaded := Value Empty

variable {α : Type*}

/-! ### Writing -/

def nullText : List Char := ['n', 'u', 'l', 'l']

def boolText : Bool → List Char
  | true => ['t', 'r', 'u', 'e']
  | false => ['f', 'a', 'l', 's', 'e']

mutual

@[grind =] def text (default : α → String) : Value α → List Char
  | .null => nullText
  | .bool b => boolText b
  | .int i => intText i
  | .str s => literal s
  | .other a => literal (default a)
  | .list vs => '[' :: itemsText default vs
  | .dict fields => '\x7b' :: fieldsText default fields

def itemsText (default : α → String) : List (Value α) → List Char
  | [] => [']']
  | v :: vs => text default v ++
      match vs with
      | [] => [']']
      | _ :: _ => ',' :: ' ' :: itemsText default vs

def fieldsText (default : α → String) : List (String × Value α) → List Char
  | [] => ['\x7d']
  | (k, v) :: fields => literal k ++ ':' :: ' ' :: text default v ++
      match fields with
      | [] => ['\x7d']
      | _ :: _ => ',' :: ' ' :: fieldsText default fields

end

def dumps (default : α → String) (v : Value α) : String := String.ofList (text default v)

mutual

/-- The value with its leaves turned into text. -/
@[grind =] def plain (default : α → String) : Value α → Loaded
  | .null => .null
  | .bool b => .bool b
  | .int i => .int i
  | .str s => .str s
  | .other a => .str (default a)
  | .list vs => .list (plainItems default vs)
  | .dict fields => .dict (plainFields default fields)

def plainItems (default : α → String) : List (Value α) → List Loaded
  | [] => []
  | v :: vs => plain default v :: plainItems default vs

def plainFields (default : α → String) : List (String × Value α) → List (String × Loaded)
  | [] => []
  | (k, v) :: fields => (k, plain default v) :: plainFields default fields

end

theorem text_list (default : α → String) (vs : List (Value α)) :
    text default (.list vs) = '[' :: itemsText default vs := by
  rw [text]

theorem text_dict (default : α → String) (fields : List (String × Value α)) :
    text default (.dict fields) = '\x7b' :: fieldsText default fields := by
  rw [text]

theorem plainItems_eq_map (default : α → String) (vs : List (Value α)) :
    plainItems default vs = vs.map (plain default) := by
  induction vs with
  | nil => rfl
  | cons v vs ih => rw [plainItems, ih, List.map_cons]

/-! ### Reading -/

def isSpace (c : Char) : Bool := c == ' ' || c == '\t' || c == '\n' || c == '\r'

def skip (cs : List Char) : List Char := cs.dropWhile isSpace

@[grind =] def keyword (word : List Char) (v : Loaded) (cs : List Char) :
    Option (Loaded × List Char) :=
  if word.isPrefixOf cs then some (v, cs.drop word.length) else none

mutual

@[grind =] def value : ℕ → List Char → Option (Loaded × List Char)
  | 0, _ => none
  | _ + 1, [] => none
  | n + 1, c :: cs =>
    if c = '"' then (readLiteral (c :: cs)).map fun r => (.str r.1, r.2)
    else if c = '[' then
      match expect ']' (skip cs) with
      | some rest => some (.list [], rest)
      | none => (items n (skip cs)).map fun r => (.list r.1, r.2)
    else if c = '\x7b' then
      match expect '\x7d' (skip cs) with
      | some rest => some (.dict [], rest)
      | none => (fields n (skip cs)).map fun r => (.dict r.1, r.2)
    else if c = 'n' then keyword nullText .null (c :: cs)
    else if c = 't' then keyword (boolText true) (.bool true) (c :: cs)
    else if c = 'f' then keyword (boolText false) (.bool false) (c :: cs)
    else (integer (c :: cs)).map fun r => (.int r.1, r.2)

@[grind =] def items : ℕ → List Char → Option (List Loaded × List Char)
  | 0, _ => none
  | n + 1, cs => do
    let (v, cs) ← value n cs
    match expect ']' (skip cs) with
    | some rest => return ([v], rest)
    | none =>
      let cs ← expect ',' (skip cs)
      let (vs, rest) ← items n (skip cs)
      return (v :: vs, rest)

@[grind =] def fields : ℕ → List Char → Option (List (String × Loaded) × List Char)
  | 0, _ => none
  | n + 1, cs => do
    let (k, cs) ← readLiteral cs
    let cs ← expect ':' (skip cs)
    let (v, cs) ← value n (skip cs)
    match expect '\x7d' (skip cs) with
    | some rest => return ([(k, v)], rest)
    | none =>
      let cs ← expect ',' (skip cs)
      let (fs, rest) ← fields n (skip cs)
      return ((k, v) :: fs, rest)

end

def loads (s : String) : Option Loaded := do
  let (v, rest) ← value (s.toList.length + 1) (skip s.toList)
  if skip rest = [] then some v else none

/-- The field of an object, the last one where a name occurs more than once. -/
def Value.field (name : String) : Value α → Option (Value α)
  | .dict fields => fields.reverse.lookup name
  | _ => none

/-! ### Where a text starts and ends -/

theorem skip_cons {c : Char} {cs : List Char} (h : isSpace c = false) :
    skip (c :: cs) = c :: cs := by
  unfold skip
  rw [List.dropWhile_cons, if_neg (ne_true_of_eq_false h)]

theorem skip_blank (cs : List Char) : skip (' ' :: cs) = skip cs := by
  unfold skip
  rw [List.dropWhile_cons, if_pos (by decide)]

theorem isSpace_of_isDigit {c : Char} (h : c.isDigit = true) : isSpace c = false := by
  have hne := fun d hd => beq_false_of_ne (ne_of_isDigit (d := d) h hd)
  unfold isSpace
  rw [hne ' ' rfl, hne '\t' rfl, hne '\n' rfl, hne '\r' rfl]
  rfl

theorem intText_start (i : ℤ) :
    ∃ c cs, intText i = c :: cs ∧ (c = '-' ∨ c.isDigit = true) := by
  unfold intText
  split
  · exact ⟨'-', _, rfl, Or.inl rfl⟩
  · obtain ⟨c, cs, htext, hc⟩ := head_natText i.natAbs
    exact ⟨c, cs, htext, Or.inr hc⟩

theorem text_start (default : α → String) (v : Value α) :
    ∃ c cs, text default v = c :: cs ∧ isSpace c = false ∧ c ≠ ']' := by
  cases v with
  | null => exact ⟨'n', _, rfl, rfl, by decide⟩
  | bool b =>
    cases b with
    | false => exact ⟨'f', _, rfl, rfl, by decide⟩
    | true => exact ⟨'t', _, rfl, rfl, by decide⟩
  | int i =>
    obtain ⟨c, cs, htext, hc⟩ := intText_start i
    refine ⟨c, cs, htext, ?_⟩
    rcases hc with rfl | hdigit
    · exact ⟨rfl, by decide⟩
    · exact ⟨isSpace_of_isDigit hdigit, ne_of_isDigit hdigit rfl⟩
  | str s => exact ⟨'"', _, rfl, rfl, by decide⟩
  | other a => exact ⟨'"', _, rfl, rfl, by decide⟩
  | list vs => exact ⟨'[', _, rfl, rfl, by decide⟩
  | dict fields => exact ⟨'\x7b', _, rfl, rfl, by decide⟩

theorem skip_text (default : α → String) (v : Value α) (rest : List Char) :
    skip (text default v ++ rest) = text default v ++ rest := by
  obtain ⟨c, cs, htext, hspace, _⟩ := text_start default v
  rw [htext, List.cons_append, skip_cons hspace]

theorem skip_literal (s : String) (rest : List Char) :
    skip (literal s ++ rest) = literal s ++ rest := skip_cons rfl

theorem itemsText_cons (default : α → String) (v : Value α) (vs : List (Value α)) :
    ∃ after, itemsText default (v :: vs) = text default v ++ after := by
  cases vs with
  | nil => exact ⟨_, by rw [itemsText]⟩
  | cons w ws => exact ⟨_, by rw [itemsText]⟩

theorem fieldsText_cons (default : α → String) (k : String) (v : Value α)
    (fs : List (String × Value α)) :
    ∃ after, fieldsText default ((k, v) :: fs) = literal k ++ after := by
  cases fs with
  | nil => exact ⟨_, by rw [fieldsText, List.append_assoc]⟩
  | cons g gs => exact ⟨_, by rw [fieldsText, List.append_assoc]⟩

theorem skip_itemsText (default : α → String) (vs : List (Value α)) (rest : List Char) :
    skip (itemsText default vs ++ rest) = itemsText default vs ++ rest := by
  cases vs with
  | nil => exact skip_cons rfl
  | cons v vs =>
    obtain ⟨after, htext⟩ := itemsText_cons default v vs
    rw [htext, List.append_assoc]
    exact skip_text default v _

theorem skip_fieldsText (default : α → String) (fs : List (String × Value α))
    (rest : List Char) : skip (fieldsText default fs ++ rest) = fieldsText default fs ++ rest := by
  cases fs with
  | nil => exact skip_cons rfl
  | cons f fs =>
    obtain ⟨k, v⟩ := f
    obtain ⟨after, htext⟩ := fieldsText_cons default k v fs
    rw [htext, List.append_assoc]
    exact skip_literal k _

theorem expect_itemsText (default : α → String) (v : Value α) (vs : List (Value α))
    (rest : List Char) : expect ']' (itemsText default (v :: vs) ++ rest) = none := by
  obtain ⟨c, cs, htext, _, hclose⟩ := text_start default v
  obtain ⟨after, hitems⟩ := itemsText_cons default v vs
  rw [hitems, htext]
  exact expect_of_ne hclose

theorem expect_fieldsText (default : α → String) (f : String × Value α)
    (fs : List (String × Value α)) (rest : List Char) :
    expect '\x7d' (fieldsText default (f :: fs) ++ rest) = none := by
  obtain ⟨k, v⟩ := f
  obtain ⟨after, htext⟩ := fieldsText_cons default k v fs
  rw [htext]
  exact expect_of_ne (by decide)

/-! ### The round trip -/

theorem keyword_append (word : List Char) (v : Loaded) (rest : List Char) :
    keyword word v (word ++ rest) = some (v, rest) := by
  have hprefix : word.isPrefixOf (word ++ rest) = true :=
    List.isPrefixOf_iff_prefix.mpr (List.prefix_append ..)
  unfold keyword
  rw [if_pos hprefix, List.drop_left]

theorem value_intText {n : ℕ} {i : ℤ} {rest : List Char} (h : Ends rest) :
    value (n + 1) (intText i ++ rest) = some (.int i, rest) := by
  obtain ⟨c, cs, htext, hc⟩ := intText_start i
  have hne : c ≠ '"' ∧ c ≠ '[' ∧ c ≠ '\x7b' ∧ c ≠ 'n' ∧ c ≠ 't' ∧ c ≠ 'f' := by
    rcases hc with rfl | hdigit
    · decide
    · have hd := fun d hd => ne_of_isDigit (d := d) hdigit hd
      exact ⟨hd _ rfl, hd _ rfl, hd _ rfl, hd _ rfl, hd _ rfl, hd _ rfl⟩
  have hint := integer_intText (i := i) h
  rw [htext] at hint ⊢
  rw [List.cons_append] at hint ⊢
  rw [value, if_neg hne.1, if_neg hne.2.1, if_neg hne.2.2.1, if_neg hne.2.2.2.1,
    if_neg hne.2.2.2.2.1, if_neg hne.2.2.2.2.2, hint, Option.map_some]

theorem value_literal (n : ℕ) (s : String) (rest : List Char) :
    value (n + 1) (literal s ++ rest) = some (.str s, rest) := by
  have hread := readLiteral_literal s rest
  have hcons : literal s ++ rest = '"' :: (contents s.toList ++ ['"'] ++ rest) := rfl
  rw [hcons] at hread ⊢
  rw [value, if_pos rfl, hread, Option.map_some]

/-- What the reader makes of the text of `v`, whatever follows it. -/
def Reads (default : α → String) (v : Value α) : Prop :=
  ∀ n rest, (text default v).length < n → Ends rest →
    value n (text default v ++ rest) = some (plain default v, rest)

def ReadsItems (default : α → String) (vs : List (Value α)) : Prop :=
  vs ≠ [] → ∀ n rest, (itemsText default vs).length < n →
    items n (itemsText default vs ++ rest) = some (plainItems default vs, rest)

def ReadsFields (default : α → String) (fs : List (String × Value α)) : Prop :=
  fs ≠ [] → ∀ n rest, (fieldsText default fs).length < n →
    fields n (fieldsText default fs ++ rest) = some (plainFields default fs, rest)

variable {default : α → String}

theorem reads_list {vs : List (Value α)} (ih : ReadsItems default vs) :
    Reads default (.list vs) := by
  intro n rest hn _
  obtain ⟨n, rfl⟩ := Nat.exists_eq_add_one_of_ne_zero (Nat.ne_zero_of_lt hn)
  rw [text_list, List.length_cons] at hn
  rw [text_list, List.cons_append, value, if_neg (by decide), if_pos rfl, skip_itemsText]
  cases vs with
  | nil => rfl
  | cons v vs =>
    have hitems := ih (List.cons_ne_nil v vs) n rest (by omega)
    rw [expect_itemsText, hitems, Option.map_some, plain]

theorem reads_dict {fs : List (String × Value α)} (ih : ReadsFields default fs) :
    Reads default (.dict fs) := by
  intro n rest hn _
  obtain ⟨n, rfl⟩ := Nat.exists_eq_add_one_of_ne_zero (Nat.ne_zero_of_lt hn)
  rw [text_dict, List.length_cons] at hn
  rw [text_dict, List.cons_append, value, if_neg (by decide), if_neg (by decide), if_pos rfl,
    skip_fieldsText]
  cases fs with
  | nil => rfl
  | cons f fs =>
    have hfields := ih (List.cons_ne_nil f fs) n rest (by omega)
    rw [expect_fieldsText, hfields, Option.map_some, plain]

theorem readsItems_cons {v : Value α} {vs : List (Value α)} (hv : Reads default v)
    (hvs : ReadsItems default vs) : ReadsItems default (v :: vs) := by
  intro _ n rest hn
  obtain ⟨n, rfl⟩ := Nat.exists_eq_add_one_of_ne_zero (Nat.ne_zero_of_lt hn)
  cases vs with
  | nil =>
    rw [itemsText, List.length_append, List.length_singleton] at hn
    have hvalue := hv n (']' :: rest) (by omega)
      (ends_cons rfl (by decide) (by decide) (by decide))
    rw [itemsText, List.append_assoc]
    rw [items, List.singleton_append, hvalue]
    dsimp only [Option.bind_eq_bind, Option.bind_some]
    rw [skip_cons rfl, expect_self]
    rfl
  | cons w ws =>
    rw [itemsText, List.length_append, List.length_cons, List.length_cons] at hn
    have hvalue := hv n (',' :: ' ' :: (itemsText default (w :: ws) ++ rest)) (by omega)
      (ends_cons rfl (by decide) (by decide) (by decide))
    have htail := hvs (List.cons_ne_nil w ws) n rest (by omega)
    rw [itemsText, List.append_assoc]
    rw [items, List.cons_append, List.cons_append, hvalue]
    dsimp only [Option.bind_eq_bind, Option.bind_some]
    rw [skip_cons rfl, expect_of_ne (by decide), expect_self]
    dsimp only [Option.bind_eq_bind, Option.bind_some]
    rw [skip_blank, skip_itemsText, htail]
    rfl

theorem readsFields_cons {k : String} {v : Value α} {fs : List (String × Value α)}
    (hv : Reads default v) (hfs : ReadsFields default fs) :
    ReadsFields default ((k, v) :: fs) := by
  intro _ n rest hn
  obtain ⟨n, rfl⟩ := Nat.exists_eq_add_one_of_ne_zero (Nat.ne_zero_of_lt hn)
  cases fs with
  | nil =>
    rw [fieldsText, List.length_append, List.length_append, List.length_cons, List.length_cons,
      List.length_singleton] at hn
    have hvalue := hv n ('\x7d' :: rest) (by omega)
      (ends_cons rfl (by decide) (by decide) (by decide))
    rw [fieldsText, List.append_assoc, List.append_assoc]
    rw [fields, readLiteral_literal]
    dsimp only [Option.bind_eq_bind, Option.bind_some]
    rw [List.cons_append, skip_cons rfl, expect_self]
    dsimp only [Option.bind_eq_bind, Option.bind_some]
    rw [List.cons_append, skip_blank, skip_text, List.singleton_append, hvalue]
    dsimp only [Option.bind_eq_bind, Option.bind_some]
    rw [skip_cons rfl, expect_self]
    rfl
  | cons g gs =>
    rw [fieldsText, List.length_append, List.length_append, List.length_cons, List.length_cons,
      List.length_cons, List.length_cons] at hn
    have hvalue := hv n (',' :: ' ' :: (fieldsText default (g :: gs) ++ rest)) (by omega)
      (ends_cons rfl (by decide) (by decide) (by decide))
    have htail := hfs (List.cons_ne_nil g gs) n rest (by omega)
    rw [fieldsText, List.append_assoc, List.append_assoc]
    rw [fields, readLiteral_literal]
    dsimp only [Option.bind_eq_bind, Option.bind_some]
    rw [List.cons_append, skip_cons rfl, expect_self]
    dsimp only [Option.bind_eq_bind, Option.bind_some]
    rw [List.cons_append, skip_blank, skip_text, List.cons_append, List.cons_append, hvalue]
    dsimp only [Option.bind_eq_bind, Option.bind_some]
    rw [skip_cons rfl, expect_of_ne (by decide), expect_self]
    dsimp only [Option.bind_eq_bind, Option.bind_some]
    rw [skip_blank, skip_fieldsText, htail]
    rfl

theorem reads (default : α → String) (v : Value α) : Reads default v := by
  refine @Value.rec α (Reads default) (ReadsItems default) (ReadsFields default)
    (fun f => Reads default f.2) ?null ?bool ?int ?str ?other ?list ?dict ?nil ?cons ?fnil ?fcons
    ?mk v
  case null =>
    intro n rest hn _
    obtain ⟨n, rfl⟩ := Nat.exists_eq_add_one_of_ne_zero (Nat.ne_zero_of_lt hn)
    exact keyword_append nullText .null rest
  case bool =>
    intro b n rest hn _
    obtain ⟨n, rfl⟩ := Nat.exists_eq_add_one_of_ne_zero (Nat.ne_zero_of_lt hn)
    cases b with
    | false => exact keyword_append (boolText false) (.bool false) rest
    | true => exact keyword_append (boolText true) (.bool true) rest
  case int =>
    intro i n rest hn hends
    obtain ⟨n, rfl⟩ := Nat.exists_eq_add_one_of_ne_zero (Nat.ne_zero_of_lt hn)
    exact value_intText hends
  case str =>
    intro s n rest hn _
    obtain ⟨n, rfl⟩ := Nat.exists_eq_add_one_of_ne_zero (Nat.ne_zero_of_lt hn)
    exact value_literal n s rest
  case other =>
    intro a n rest hn _
    obtain ⟨n, rfl⟩ := Nat.exists_eq_add_one_of_ne_zero (Nat.ne_zero_of_lt hn)
    exact value_literal n (default a) rest
  case list => exact fun vs ih => reads_list ih
  case dict => exact fun fs ih => reads_dict ih
  case nil => exact fun h => absurd rfl h
  case cons => exact fun v vs hv hvs => readsItems_cons hv hvs
  case fnil => exact fun h => absurd rfl h
  case fcons => exact fun f fs hv hfs => readsFields_cons hv hfs
  case mk => exact fun k v hv => hv

/-- What was dumped is loaded as the same value, its leaves as texts. -/
theorem loads_dumps (default : α → String) (v : Value α) :
    loads (dumps default v) = some (plain default v) := by
  have hread := reads default v ((text default v).length + 1) [] (Nat.lt_succ_self _) ends_nil
  have hskip := skip_text default v []
  rw [List.append_nil] at hread hskip
  unfold loads dumps
  rw [String.toList_ofList, hskip, hread]
  rfl

example : dumps id (.dict [("city", .str "Málaga"), ("stars", .list [.int 4, .null])]) =
    "\x7b\"city\": \"M\\u00e1laga\", \"stars\": [4, null]\x7d" := by decide +kernel

end Json
