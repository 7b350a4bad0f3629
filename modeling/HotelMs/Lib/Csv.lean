import Mathlib.Data.List.Induction
import Mathlib.Algebra.BigOperators.Group.List.Basic
import Mathlib.Algebra.Ring.Nat

/-!
# Reading CSV texts (RFC 4180)

A record ends at LF or CRLF. A double quote opens a quoted field only at its start,
ends it unless doubled, and has no place in any other field.
-/

namespace Csv

inductive Mode
  | start
  | plain
  | quoted
  | closing
  | cr
  deriving DecidableEq

structure Reader where
  records : List (List (List Char))
  fields : List (List Char)
  field : List Char
  mode : Mode

def Reader.push (r : Reader) (c : Char) (mode : Mode) : Reader :=
  { r with field := r.field ++ [c], mode := mode }

def Reader.endField (r : Reader) : Reader := ⟨r.records, r.fields ++ [r.field], [], .start⟩

def Reader.endRecord (r : Reader) (mode : Mode) : Reader :=
  ⟨r.records ++ [r.fields ++ [r.field]], [], [], mode⟩

/-- A character that may end a field. -/
def Reader.delimiter (r : Reader) (c : Char) : Option Reader :=
  if c = ',' then some r.endField
  else if c = '\n' then some (r.endRecord .start)
  else if c = '\r' then some (r.endRecord .cr)
  else none

def step (r : Reader) (c : Char) : Option Reader :=
  match r.mode with
  | .start =>
    if c = '"' then some { r with mode := .quoted }
    else (r.delimiter c).or (some (r.push c .plain))
  | .plain => if c = '"' then none else (r.delimiter c).or (some (r.push c .plain))
  | .quoted => some (if c = '"' then { r with mode := .closing } else r.push c .quoted)
  | .closing => if c = '"' then some (r.push c .quoted) else r.delimiter c
  | .cr => if c = '\n' then some { r with mode := .start } else none

def run (r : Reader) (text : List Char) : Option Reader := text.foldlM step r

/-- The last record need not be ended. -/
def Reader.finish (r : Reader) : Option (List (List (List Char))) :=
  match r.mode with
  | .start => some (if r.fields = [] then r.records else (r.endRecord .start).records)
  | .plain => some (r.endRecord .start).records
  | .closing => some (r.endRecord .start).records
  | .quoted => none
  | .cr => none

def readCsv (text : List Char) : Option (List (List (List Char))) :=
  (run ⟨[], [], [], .start⟩ text).bind Reader.finish

theorem run_append (r : Reader) (text rest : List Char) :
    run r (text ++ rest) = (run r text).bind fun r' => run r' rest := List.foldlM_append

theorem run_cons (r : Reader) (c : Char) (text : List Char) :
    run r (c :: text) = (step r c).bind fun r' => run r' text := rfl

theorem run_singleton (r : Reader) (c : Char) : run r [c] = step r c := by
  rw [run_cons]
  exact Option.bind_fun_some _

/-! ### Well-formed fields -/

def isPlain (c : Char) : Bool := c != '"' && c != '\n' && c != '\r'

def doubled (body : List Char) : List Char :=
  body.flatMap fun c => if c = '"' then ['"', '"'] else [c]

/-- One field of a record, if it holds no comma. -/
def WellFormed (text : List Char) : Prop :=
  (∀ c ∈ text, isPlain c = true) ∨ ∃ body, text = '"' :: doubled body ++ ['"']

theorem doubled_append (body rest : List Char) :
    doubled (body ++ rest) = doubled body ++ doubled rest := List.flatMap_append

/-- What a field has been so far in each mode. -/
def Shape (text : List Char) : Mode → Prop
  | .start => text = []
  | .plain => ∀ c ∈ text, isPlain c = true
  | .quoted => ∃ body, text = '"' :: doubled body
  | .closing => ∃ body, text = '"' :: doubled body ++ ['"']
  | .cr => False

theorem Shape.wellFormed {text : List Char} {mode : Mode} (h : Shape text mode)
    (hmode : mode ≠ .quoted) : WellFormed text := by
  cases mode with
  | start =>
    have hnil : text = [] := h
    rw [hnil]
    exact .inl fun c hc => by cases hc
  | plain => exact .inl h
  | quoted => exact absurd rfl hmode
  | closing => exact .inr h
  | cr => exact h.elim

/-! ### What one character does -/

theorem delimiter_cases {r r' : Reader} {c : Char} (h : r.delimiter c = some r') :
    (c = ',' ∧ r' = r.endField) ∨ ∃ mode, r' = r.endRecord mode ∧ c ≠ ',' := by
  unfold Reader.delimiter at h
  split at h
  next hcomma => exact .inl ⟨hcomma, (Option.some.inj h).symm⟩
  next hcomma =>
    split at h
    · exact .inr ⟨.start, (Option.some.inj h).symm, hcomma⟩
    · split at h
      · exact .inr ⟨.cr, (Option.some.inj h).symm, hcomma⟩
      · cases h

theorem delimiter_plain {r : Reader} {c : Char} (hplain : isPlain c = true) (hcomma : c ≠ ',') :
    r.delimiter c = none := by
  unfold isPlain at hplain
  simp only [Bool.and_eq_true, bne_iff_ne] at hplain
  unfold Reader.delimiter
  rw [if_neg hcomma, if_neg hplain.1.2, if_neg hplain.2]

theorem isPlain_of_delimiter {r : Reader} {c : Char} (hquote : c ≠ '"')
    (h : r.delimiter c = none) : isPlain c = true := by
  unfold Reader.delimiter at h
  split at h
  next => cases h
  next =>
    split at h
    next => cases h
    next hlf =>
      split at h
      next => cases h
      next hcr =>
        unfold isPlain
        simp only [Bool.and_eq_true, bne_iff_ne]
        exact ⟨⟨hquote, hlf⟩, hcr⟩

/-- An unquoted field. -/
theorem unquoted_cases {r r' : Reader} {c : Char}
    (h : (r.delimiter c).or (some (r.push c .plain)) = some r') :
    r.delimiter c = some r' ∨ (r.delimiter c = none ∧ r' = r.push c .plain) := by
  cases hdelimiter : r.delimiter c with
  | none =>
    rw [hdelimiter] at h
    exact .inr ⟨rfl, (Option.some.inj h).symm⟩
  | some ended =>
    rw [hdelimiter] at h
    exact .inl h

/-- The mode changes, the character is read, or the field ends. -/
theorem step_cases {r r' : Reader} {c : Char} (h : step r c = some r') :
    (c ≠ ',' ∧ ∃ mode, r' = { r with mode := mode }) ∨ (∃ mode, r' = r.push c mode) ∨
      r.delimiter c = some r' := by
  have hne : ∀ {d : Char}, d ≠ ',' → c = d → c ≠ ',' := fun hd hc => hc ▸ hd
  unfold step at h
  split at h
  next =>
    split at h
    next hquote => exact .inl ⟨hne (by decide) hquote, _, (Option.some.inj h).symm⟩
    next =>
      rcases unquoted_cases h with hended | ⟨_, hpushed⟩
      · exact .inr (.inr hended)
      · exact .inr (.inl ⟨_, hpushed⟩)
  next =>
    split at h
    next => cases h
    next =>
      rcases unquoted_cases h with hended | ⟨_, hpushed⟩
      · exact .inr (.inr hended)
      · exact .inr (.inl ⟨_, hpushed⟩)
  next =>
    split at h
    next hquote => exact .inl ⟨hne (by decide) hquote, _, (Option.some.inj h).symm⟩
    next => exact .inr (.inl ⟨_, (Option.some.inj h).symm⟩)
  next =>
    split at h
    next => exact .inr (.inl ⟨_, (Option.some.inj h).symm⟩)
    next => exact .inr (.inr h)
  next =>
    split at h
    next hlf => exact .inl ⟨hne (by decide) hlf, _, (Option.some.inj h).symm⟩
    next => cases h

/-! ### Commas -/

def commasIn (fields : List (List Char)) : ℕ := (fields.map (List.count ',')).sum

/-- The commas that were read as part of a field. -/
def inner (records : List (List (List Char))) : ℕ := (records.map commasIn).sum

/-- The commas that were read between two fields. -/
def separators (records : List (List (List Char))) : ℕ :=
  (records.map fun fields => fields.length - 1).sum

def Reader.inner (r : Reader) : ℕ := Csv.inner r.records + commasIn r.fields + r.field.count ','

def Reader.separators (r : Reader) : ℕ := Csv.separators r.records + r.fields.length

theorem commasIn_append_singleton (fields : List (List Char)) (field : List Char) :
    commasIn (fields ++ [field]) = commasIn fields + field.count ',' := by
  unfold commasIn
  rw [List.map_append, List.sum_append, List.map_singleton, List.sum_singleton]

theorem inner_append_singleton (records : List (List (List Char))) (fields : List (List Char)) :
    inner (records ++ [fields]) = inner records + commasIn fields := by
  unfold inner
  rw [List.map_append, List.sum_append, List.map_singleton, List.sum_singleton]

theorem separators_append_singleton (records : List (List (List Char)))
    (fields : List (List Char)) :
    separators (records ++ [fields]) = separators records + (fields.length - 1) := by
  unfold separators
  rw [List.map_append, List.sum_append, List.map_singleton, List.sum_singleton]

variable {r r' : Reader}

theorem inner_push (c : Char) (mode : Mode) :
    (r.push c mode).inner = r.inner + if c = ',' then 1 else 0 := by
  unfold Reader.inner Reader.push
  rw [List.count_append, List.count_singleton]
  simp only [beq_iff_eq]
  omega

theorem inner_endField : r.endField.inner = r.inner := by
  unfold Reader.inner Reader.endField
  rw [commasIn_append_singleton, List.count_nil, ← Nat.add_assoc, Nat.add_zero]

theorem inner_endRecord (mode : Mode) : (r.endRecord mode).inner = r.inner := by
  have hnone : commasIn [] = 0 := rfl
  unfold Reader.inner Reader.endRecord
  rw [inner_append_singleton, commasIn_append_singleton, List.count_nil, hnone]
  omega

theorem separators_endField : r.endField.separators = r.separators + 1 := by
  unfold Reader.separators Reader.endField
  rw [List.length_append, List.length_singleton, Nat.add_assoc]

theorem separators_endRecord (mode : Mode) : (r.endRecord mode).separators = r.separators := by
  unfold Reader.separators Reader.endRecord
  rw [separators_append_singleton, List.length_append, List.length_singleton, List.length_nil]
  omega

/-- Every comma is read, between fields or as part of one. -/
theorem step_commas {c : Char} (h : step r c = some r') :
    r'.inner + r'.separators = r.inner + r.separators + (if c = ',' then 1 else 0) ∧
      r.inner ≤ r'.inner ∧ r.records ⊆ r'.records := by
  rcases step_cases h with ⟨hcomma, mode, rfl⟩ | ⟨mode, rfl⟩ | hended
  · rw [if_neg hcomma]
    exact ⟨rfl, Nat.le_refl _, List.Subset.refl _⟩
  · have hsame : (r.push c mode).separators = r.separators := rfl
    rw [inner_push, hsame]
    exact ⟨by omega, by omega, List.Subset.refl _⟩
  · rcases delimiter_cases hended with ⟨hcomma, rfl⟩ | ⟨mode, rfl, hcomma⟩
    · rw [inner_endField, separators_endField, if_pos hcomma]
      exact ⟨by omega, by omega, List.Subset.refl _⟩
    · rw [inner_endRecord, separators_endRecord, if_neg hcomma]
      exact ⟨by omega, by omega, List.subset_append_left _ _⟩

theorem run_commas {text : List Char} (h : run r text = some r') :
    r'.inner + r'.separators = r.inner + r.separators + text.count ',' ∧
      r.inner ≤ r'.inner ∧ r.records ⊆ r'.records := by
  induction text generalizing r with
  | nil =>
    obtain rfl : r = r' := Option.some.inj h
    exact ⟨rfl, Nat.le_refl _, List.Subset.refl _⟩
  | cons c text ih =>
    obtain ⟨next, hstep, hrun⟩ := Option.bind_eq_some_iff.mp h
    obtain ⟨hcount, hinner, hrecords⟩ := step_commas hstep
    obtain ⟨hcount', hinner', hrecords'⟩ := ih hrun
    rw [List.count_cons]
    simp only [beq_iff_eq]
    exact ⟨by omega, by omega, List.Subset.trans hrecords hrecords'⟩

theorem finish_records {records : List (List (List Char))} (h : r.finish = some records) :
    separators records = r.separators ∧ r.records ⊆ records := by
  have hended : separators (r.endRecord .start).records = r.separators :=
    separators_endRecord (r := r) .start
  have hkept : r.records ⊆ (r.endRecord .start).records := List.subset_append_left _ _
  unfold Reader.finish at h
  split at h
  next =>
    rw [← Option.some.inj h]
    split
    next hnone =>
      unfold Reader.separators
      rw [hnone]
      exact ⟨rfl, List.Subset.refl _⟩
    next => exact ⟨hended, hkept⟩
  next => exact Option.some.inj h ▸ ⟨hended, hkept⟩
  next => exact Option.some.inj h ▸ ⟨hended, hkept⟩
  next => cases h
  next => cases h

/-! ### A text without commas -/

/-- The field begun by a reader is still being read. -/
def Within (r : Reader) (text : List Char) (r' : Reader) : Prop :=
  r'.records = r.records ∧ r'.fields = r.fields ∧ Shape text r'.mode

section

variable {now : Reader} {text : List Char} {c : Char}

theorem field_of_delimiter (hfields : now.fields = r.fields) (hcomma : c ≠ ',')
    (h : now.delimiter c = some r') : ∃ field, r.fields ++ [field] ∈ r'.records := by
  rcases delimiter_cases h with ⟨hc, _⟩ | ⟨mode, rfl, _⟩
  · exact absurd hc hcomma
  · refine ⟨now.field, ?_⟩
    rw [← hfields]
    exact List.mem_append_right _ (List.mem_singleton_self _)

theorem within_unquoted (hrecords : now.records = r.records) (hfields : now.fields = r.fields)
    (htext : ∀ x ∈ text, isPlain x = true) (hcomma : c ≠ ',') (hquote : c ≠ '"')
    (h : (now.delimiter c).or (some (now.push c .plain)) = some r') :
    Within r (text ++ [c]) r' ∨ ∃ field, r.fields ++ [field] ∈ r'.records := by
  rcases unquoted_cases h with hended | ⟨hnone, rfl⟩
  · exact .inr (field_of_delimiter hfields hcomma hended)
  · refine .inl ⟨hrecords, hfields, fun x hx => ?_⟩
    rcases List.mem_append.mp hx with hx | hx
    · exact htext x hx
    · rw [List.mem_singleton.mp hx]
      exact isPlain_of_delimiter hquote hnone

/-- It is, or the record ended with it. -/
theorem step_within (hin : Within r text now) (hcomma : c ≠ ',') (h : step now c = some r') :
    Within r (text ++ [c]) r' ∨ ∃ field, r.fields ++ [field] ∈ r'.records := by
  obtain ⟨hrecords, hfields, hshape⟩ := hin
  unfold step at h
  split at h
  next hmode =>
    rw [hmode] at hshape
    obtain rfl : text = [] := hshape
    split at h
    next hquote =>
      obtain rfl := Option.some.inj h
      exact .inl ⟨hrecords, hfields, [], by rw [hquote]; rfl⟩
    next hquote =>
      exact within_unquoted hrecords hfields (fun x hx => by cases hx) hcomma hquote h
  next hmode =>
    rw [hmode] at hshape
    split at h
    next => cases h
    next hquote => exact within_unquoted hrecords hfields hshape hcomma hquote h
  next hmode =>
    rw [hmode] at hshape
    obtain ⟨body, rfl⟩ := hshape
    obtain rfl := Option.some.inj h
    split
    next hquote => exact .inl ⟨hrecords, hfields, body, by rw [hquote]⟩
    next hquote =>
      refine .inl ⟨hrecords, hfields, body ++ [c], ?_⟩
      rw [doubled_append, List.cons_append]
      show _ = '"' :: (doubled body ++ ((if c = '"' then ['"', '"'] else [c]) ++ []))
      rw [if_neg hquote, List.append_nil]
  next hmode =>
    rw [hmode] at hshape
    obtain ⟨body, rfl⟩ := hshape
    split at h
    next hquote =>
      obtain rfl := Option.some.inj h
      refine .inl ⟨hrecords, hfields, body ++ ['"'], ?_⟩
      rw [doubled_append, hquote, List.append_assoc]
      rfl
    next => exact .inr (field_of_delimiter hfields hcomma h)
  next hmode =>
    rw [hmode] at hshape
    exact hshape.elim

end

theorem run_within (hstart : r.mode = .start) {text : List Char}
    (hcomma : ∀ c ∈ text, c ≠ ',') (h : run r text = some r') :
    Within r text r' ∨ ∃ field, r.fields ++ [field] ∈ r'.records := by
  induction text using List.reverseRecOn generalizing r' with
  | nil =>
    obtain rfl : r = r' := Option.some.inj h
    refine .inl ⟨rfl, rfl, ?_⟩
    rw [hstart]
    exact rfl
  | append_singleton text c ih =>
    rw [run_append] at h
    obtain ⟨now, hrun, hlast⟩ := Option.bind_eq_some_iff.mp h
    rw [run_singleton] at hlast
    have htext : ∀ x ∈ text, x ≠ ',' := fun x hx => hcomma x (List.mem_append_left _ hx)
    have hc : c ≠ ',' := hcomma c (List.mem_append_right _ (List.mem_singleton_self c))
    rcases ih htext hrun with hin | ⟨field, hfield⟩
    · exact step_within hin hc hlast
    · exact .inr ⟨field, (step_commas hlast).2.2 hfield⟩

/-! ### Fields -/

theorem step_of_delimiter {c : Char} (h : r.delimiter c = some r') (hquoted : r.mode ≠ .quoted)
    (hcr : r.mode ≠ .cr) : step r c = some r' := by
  have hquote : c ≠ '"' := by
    rintro rfl
    cases h
  unfold step
  split
  · rw [if_neg hquote, h, Option.some_or]
  · rw [if_neg hquote, h, Option.some_or]
  next hmode => exact absurd hmode hquoted
  · rw [if_neg hquote, h]
  next hmode => exact absurd hmode hcr

theorem step_comma (h : step r ',' = some r') (hcr : r.mode ≠ .cr) :
    (r.mode = .quoted ∧ r' = r.push ',' .quoted) ∨ (r.mode ≠ .quoted ∧ r' = r.endField) := by
  by_cases hquoted : r.mode = .quoted
  · unfold step at h
    rw [hquoted] at h
    exact .inl ⟨hquoted, (Option.some.inj h).symm⟩
  · have hended := step_of_delimiter (r := r) (c := ',') rfl hquoted hcr
    rw [h] at hended
    exact .inr ⟨hquoted, Option.some.inj hended⟩

section

variable {done : List (List (List Char))} {fields : List (List Char)} {text : List Char}

/-- Where a field begins. -/
def begun (done : List (List (List Char))) (fields : List (List Char)) : Reader :=
  ⟨done, fields, [], .start⟩

/-- A text between commas was one field if no comma became part of a field and
no record ended behind the field. -/
theorem field_of_run {rest : List Char} {last : Reader} (hcomma : ∀ c ∈ text, c ≠ ',')
    (hrun : run (begun done fields) (text ++ ',' :: rest) = some last) (hinner : last.inner = 0)
    (hopen : ∀ field, fields ++ [field] ∉ last.records) :
    WellFormed text ∧ ∃ field, run (begun done (fields ++ [field])) rest = some last := by
  rw [run_append] at hrun
  obtain ⟨now, htext, hrun⟩ := Option.bind_eq_some_iff.mp hrun
  obtain ⟨next, hstep, hrest⟩ := Option.bind_eq_some_iff.mp hrun
  have hafter := run_commas hrest
  rcases run_within rfl hcomma htext with ⟨hrecords, hfields, hshape⟩ | ⟨field, hfield⟩
  · have hcr : now.mode ≠ .cr := fun hmode => by
      rw [hmode] at hshape
      exact hshape
    rcases step_comma hstep hcr with ⟨_, rfl⟩ | ⟨hquoted, rfl⟩
    · have hone := inner_push (r := now) ',' .quoted
      rw [if_pos rfl] at hone
      omega
    · refine ⟨hshape.wellFormed hquoted, now.field, ?_⟩
      unfold Reader.endField at hrest
      rw [hrecords, hfields] at hrest
      exact hrest
  · have hkept := hafter.2.2 ((step_commas hstep).2.2 hfield)
    exact absurd hkept (hopen field)

variable (done fields) in
theorem run_plain (h : ∀ c ∈ text, isPlain c = true ∧ c ≠ ',') :
    ∃ mode, (mode = .start ∨ mode = .plain) ∧
      run (begun done fields) text = some ⟨done, fields, text, mode⟩ := by
  induction text using List.reverseRecOn with
  | nil => exact ⟨.start, .inl rfl, rfl⟩
  | append_singleton text c ih =>
    obtain ⟨mode, hmode, hrun⟩ := ih fun x hx => h x (List.mem_append_left _ hx)
    obtain ⟨hplain, hcomma⟩ := h c (List.mem_append_right _ (List.mem_singleton_self c))
    have hquote : c ≠ '"' := by
      rintro rfl
      cases hplain
    have hread : (⟨done, fields, text, mode⟩ : Reader).delimiter c = none :=
      delimiter_plain hplain hcomma
    refine ⟨.plain, .inr rfl, ?_⟩
    rw [run_append, hrun, Option.bind_some, run_singleton, step]
    rcases hmode with rfl | rfl
    · simp only [if_neg hquote, hread, Option.none_or]
      rfl
    · simp only [if_neg hquote, hread, Option.none_or]
      rfl

theorem run_doubled (field body : List Char) :
    run ⟨done, fields, field, .quoted⟩ (doubled body) =
      some ⟨done, fields, field ++ body, .quoted⟩ := by
  induction body generalizing field with
  | nil =>
    rw [List.append_nil]
    rfl
  | cons c body ih =>
    have hdoubled : doubled (c :: body) = (if c = '"' then ['"', '"'] else [c]) ++ doubled body :=
      rfl
    have hnext : run ⟨done, fields, field, .quoted⟩ (if c = '"' then ['"', '"'] else [c]) =
        some ⟨done, fields, field ++ [c], .quoted⟩ := by
      split
      next hquote =>
        rw [hquote]
        rfl
      next hquote =>
        rw [run_singleton, step]
        exact congrArg some (if_neg hquote)
    rw [hdoubled, run_append, hnext, Option.bind_some, ih, List.append_assoc, List.singleton_append]

variable (done fields) in
theorem run_wellFormed (h : WellFormed text) (hcomma : ∀ c ∈ text, c ≠ ',') :
    ∃ field mode, mode ≠ .quoted ∧ mode ≠ .cr ∧
      run (begun done fields) text = some ⟨done, fields, field, mode⟩ := by
  rcases h with hplain | ⟨body, rfl⟩
  · obtain ⟨mode, hmode, hrun⟩ := run_plain done fields
      fun c hc => ⟨hplain c hc, hcomma c hc⟩
    refine ⟨text, mode, ?_, ?_, hrun⟩
    · rcases hmode with rfl | rfl <;> decide
    · rcases hmode with rfl | rfl <;> decide
  · refine ⟨body, .closing, by decide, by decide, ?_⟩
    have hopened : run (begun done fields) ['"'] = some ⟨done, fields, [], .quoted⟩ := rfl
    have hsplit : '"' :: doubled body ++ ['"'] = ['"'] ++ (doubled body ++ ['"']) := rfl
    rw [hsplit, run_append, hopened, Option.bind_some, run_append, run_doubled, Option.bind_some]
    rfl

variable (rest : List Char)

variable (done fields) in
theorem run_field (h : WellFormed text) (hcomma : ∀ c ∈ text, c ≠ ',') :
    ∃ field, run (begun done fields) (text ++ ',' :: rest) =
      run (begun done (fields ++ [field])) rest := by
  obtain ⟨field, mode, hquoted, hcr, hrun⟩ := run_wellFormed done fields h hcomma
  have hended := step_of_delimiter (r := ⟨done, fields, field, mode⟩) (c := ',') rfl hquoted hcr
  refine ⟨field, ?_⟩
  rw [run_append, hrun, Option.bind_some, run_cons, hended, Option.bind_some]
  rfl

theorem run_plain_field (h : ∀ c ∈ text, isPlain c = true ∧ c ≠ ',') :
    run (begun done fields) (text ++ ',' :: rest) = run (begun done (fields ++ [text])) rest := by
  obtain ⟨mode, hmode, hrun⟩ := run_plain done fields h
  rw [run_append, hrun, Option.bind_some]
  rcases hmode with rfl | rfl <;> rfl

theorem run_plain_last (h : ∀ c ∈ text, isPlain c = true ∧ c ≠ ',') :
    run (begun done fields) (text ++ '\n' :: rest) =
      run (begun (done ++ [fields ++ [text]]) []) rest := by
  obtain ⟨mode, hmode, hrun⟩ := run_plain done fields h
  rw [run_append, hrun, Option.bind_some]
  rcases hmode with rfl | rfl <;> rfl

end

end Csv
