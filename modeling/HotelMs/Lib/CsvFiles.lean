import HotelMs.Lib.Csv
import Mathlib.Data.List.Induction

/-!
# Writing CSV files and reading them back

A writer that puts some fields in quotes and leaves others bare. Quoted fields
read back whatever they hold; the file reads back exactly if no bare field has a
comma, a quote or an end of line.
-/

namespace Csv

inductive Cell
  | bare (text : List Char)
  | quoted (text : List Char)

def Cell.text : Cell → List Char
  | .bare text => text
  | .quoted text => text

def Cell.source : Cell → List Char
  | .bare text => text
  | .quoted text => '"' :: doubled text ++ ['"']

def isBare (c : Char) : Bool := isPlain c && c != ','

def Cell.Readable : Cell → Prop
  | .bare text => ∀ c ∈ text, isBare c = true
  | .quoted _ => True

instance : ∀ c : Cell, Decidable c.Readable
  | .bare text => List.decidableBAll _ text
  | .quoted _ => isTrue trivial

def lineOf (cells : List Cell) : List Char := [','].intercalate (cells.map Cell.source)

/-- No line end follows the last line. -/
def fileOf (lines : List (List Cell)) : List Char := ['\n'].intercalate (lines.map lineOf)

variable {done : List (List (List Char))} {fields : List (List Char)}

/-! ### What is written -/

theorem lineOf_cons (c d : Cell) (cells : List Cell) :
    lineOf (c :: d :: cells) = c.source ++ ',' :: lineOf (d :: cells) := by
  simp [lineOf, List.intercalate]

theorem lineOf_singleton (c : Cell) : lineOf [c] = c.source := by
  simp [lineOf, List.intercalate]

theorem fileOf_cons (line next : List Cell) (lines : List (List Cell)) :
    fileOf (line :: next :: lines) = lineOf line ++ '\n' :: fileOf (next :: lines) := by
  simp [fileOf, List.intercalate]

theorem fileOf_singleton (line : List Cell) : fileOf [line] = lineOf line := by
  simp [fileOf, List.intercalate]

/-! ### Readable cells -/

theorem isBare_iff {c : Char} : isBare c = true ↔ isPlain c = true ∧ c ≠ ',' := by
  simp [isBare]

theorem run_source {c : Cell} (h : c.Readable) :
    ∃ mode, mode ≠ .quoted ∧ mode ≠ .cr ∧
      run (begun done fields) c.source = some ⟨done, fields, c.text, mode⟩ := by
  cases c with
  | bare text =>
    obtain ⟨mode, hmode, hrun⟩ := run_plain done fields fun c hc => isBare_iff.mp (h c hc)
    refine ⟨mode, ?_, ?_, hrun⟩
    · rcases hmode with rfl | rfl <;> decide
    · rcases hmode with rfl | rfl <;> decide
  | quoted text =>
    refine ⟨.closing, by decide, by decide, ?_⟩
    have hopened : run (begun done fields) ['"'] = some ⟨done, fields, [], .quoted⟩ := rfl
    have hsplit : Cell.source (.quoted text) = ['"'] ++ (doubled text ++ ['"']) := rfl
    rw [hsplit, run_append, hopened, Option.bind_some, run_append, run_doubled, Option.bind_some]
    rfl

section

variable {c : Cell} (h : c.Readable)

include h

theorem run_source_comma (rest : List Char) :
    run (begun done fields) (c.source ++ ',' :: rest) =
      run (begun done (fields ++ [c.text])) rest := by
  obtain ⟨mode, hquoted, hcr, hrun⟩ := @run_source done fields c h
  have hended := step_of_delimiter (r := ⟨done, fields, c.text, mode⟩) (c := ',') rfl hquoted hcr
  rw [run_append, hrun, Option.bind_some, run_cons, hended, Option.bind_some]
  rfl

theorem run_source_line (rest : List Char) :
    run (begun done fields) (c.source ++ '\n' :: rest) =
      run (begun (done ++ [fields ++ [c.text]]) []) rest := by
  obtain ⟨mode, hquoted, hcr, hrun⟩ := @run_source done fields c h
  have hended := step_of_delimiter (r := ⟨done, fields, c.text, mode⟩) (c := '\n') rfl hquoted hcr
  rw [run_append, hrun, Option.bind_some, run_cons, hended, Option.bind_some]
  rfl

/-- The end of the text ends a record that has a field already. -/
theorem finish_source (hfields : fields ≠ []) :
    (run (begun done fields) c.source).bind Reader.finish =
      some (done ++ [fields ++ [c.text]]) := by
  obtain ⟨mode, hquoted, hcr, hrun⟩ := @run_source done fields c h
  rw [hrun, Option.bind_some]
  cases mode with
  | start => exact congrArg some (if_neg hfields)
  | plain => rfl
  | quoted => exact absurd rfl hquoted
  | closing => rfl
  | cr => exact absurd rfl hcr

end

/-! ### What was read stays -/

def Reads (r : Reader) (text : List Char) (records : List (List (List Char))) : Prop :=
  (run r text).bind Reader.finish = some records

section

variable {r : Reader} {text : List Char} {records : List (List (List Char))}

theorem reads_nil : Reads r [] records ↔ r.finish = some records := Iff.rfl

theorem reads_cons {c : Char} :
    Reads r (c :: text) records ↔ ∃ next, step r c = some next ∧ Reads next text records := by
  unfold Reads
  rw [run_cons, Option.bind_assoc, Option.bind_eq_some_iff]

theorem reads_append {rest : List Char} {next : Reader} (h : run r text = some next) :
    Reads r (text ++ rest) records ↔ Reads next rest records := by
  unfold Reads
  rw [run_append, h, Option.bind_some]

theorem finish_cases (h : r.finish = some records) :
    (r.fields = [] ∧ r.mode = .start ∧ records = r.records) ∨
      (r.mode ≠ .quoted ∧ records = r.records ++ [r.fields ++ [r.field]]) := by
  unfold Reader.finish at h
  split at h
  next hmode =>
    obtain rfl := Option.some.inj h
    split
    next hfields => exact Or.inl ⟨hfields, hmode, rfl⟩
    next hfields => exact Or.inr ⟨by rw [hmode]; decide, rfl⟩
  next hmode => exact Or.inr ⟨by rw [hmode]; decide, (Option.some.inj h).symm⟩
  next hmode => exact Or.inr ⟨by rw [hmode]; decide, (Option.some.inj h).symm⟩
  next => cases h
  next => cases h

theorem reads_records (h : Reads r text records) : ∃ more, records = r.records ++ more := by
  induction text generalizing r with
  | nil =>
    rcases finish_cases h with ⟨_, _, rfl⟩ | ⟨_, rfl⟩
    · exact ⟨[], (List.append_nil _).symm⟩
    · exact ⟨_, rfl⟩
  | cons c text ih =>
    obtain ⟨next, hstep, hnext⟩ := reads_cons.mp h
    obtain ⟨more, rfl⟩ := ih hnext
    rcases step_cases hstep with ⟨_, mode, rfl⟩ | ⟨mode, rfl⟩ | hended
    · exact ⟨more, rfl⟩
    · exact ⟨more, rfl⟩
    · rcases delimiter_cases hended with ⟨_, rfl⟩ | ⟨mode, rfl, _⟩
      · exact ⟨more, rfl⟩
      · exact ⟨[r.fields ++ [r.field]] ++ more, List.append_assoc _ _ _⟩

/-- A record with a field is in the file, with these fields at its front. -/
theorem reads_fields (h : Reads r text records) (hfields : r.fields ≠ []) :
    ∃ last later, records = r.records ++ (r.fields ++ last) :: later := by
  induction text generalizing r with
  | nil =>
    rcases finish_cases h with ⟨hnone, _, _⟩ | ⟨_, rfl⟩
    · exact absurd hnone hfields
    · exact ⟨[r.field], [], rfl⟩
  | cons c text ih =>
    obtain ⟨next, hstep, hnext⟩ := reads_cons.mp h
    rcases step_cases hstep with ⟨_, mode, rfl⟩ | ⟨mode, rfl⟩ | hended
    · have hahead := ih hnext hfields
      exact hahead
    · have hahead := ih hnext hfields
      exact hahead
    · rcases delimiter_cases hended with ⟨_, rfl⟩ | ⟨mode, rfl, _⟩
      · obtain ⟨last, later, rfl⟩ := ih hnext (by simp [Reader.endField])
        refine ⟨[r.field] ++ last, later, ?_⟩
        simp [Reader.endField]
      · obtain ⟨more, rfl⟩ := reads_records hnext
        refine ⟨[r.field], more, ?_⟩
        simp [Reader.endRecord]

/-- The field that the reader is in the middle of. -/
def Mode.Inside (mode : Mode) : Prop := mode ≠ .start ∧ mode ≠ .cr

theorem inside_plain : Mode.Inside .plain := ⟨by decide, by decide⟩
theorem inside_quoted : Mode.Inside .quoted := ⟨by decide, by decide⟩
theorem inside_closing : Mode.Inside .closing := ⟨by decide, by decide⟩

theorem step_inside {c : Char} {next : Reader} (hin : r.mode.Inside) (h : step r c = some next) :
    (∃ more mode, mode.Inside ∧ next = ⟨r.records, r.fields, r.field ++ more, mode⟩) ∨
      r.delimiter c = some next := by
  have hnone : ∀ mode, ({ r with mode := mode } : Reader) =
      ⟨r.records, r.fields, r.field ++ [], mode⟩ := fun mode => by rw [List.append_nil]
  unfold step at h
  split at h
  next hmode => exact absurd hmode hin.1
  next =>
    split at h
    next => cases h
    next =>
      rcases unquoted_cases h with hended | ⟨_, rfl⟩
      · exact Or.inr hended
      · exact Or.inl ⟨[c], .plain, inside_plain, rfl⟩
  next =>
    obtain rfl := Option.some.inj h
    split
    next => exact Or.inl ⟨[], .closing, inside_closing, hnone _⟩
    next => exact Or.inl ⟨[c], .quoted, inside_quoted, rfl⟩
  next =>
    split at h
    next =>
      obtain rfl := Option.some.inj h
      exact Or.inl ⟨[c], .quoted, inside_quoted, rfl⟩
    next => exact Or.inr h
  next hmode => exact absurd hmode hin.2

/-- What was read of a field is at the front of the field that is in the file. -/
theorem reads_field (h : Reads r text records) (hin : r.mode.Inside) :
    ∃ more last later,
      records = r.records ++ (r.fields ++ (r.field ++ more) :: last) :: later := by
  induction text generalizing r with
  | nil =>
    rcases finish_cases h with ⟨_, hstart, _⟩ | ⟨_, rfl⟩
    · exact absurd hstart hin.1
    · exact ⟨[], [], [], by rw [List.append_nil]⟩
  | cons c text ih =>
    obtain ⟨next, hstep, hnext⟩ := reads_cons.mp h
    rcases step_inside hin hstep with ⟨more, mode, hmode, rfl⟩ | hended
    · obtain ⟨more', last, later, rfl⟩ := ih hnext hmode
      exact ⟨more ++ more', last, later, by rw [List.append_assoc]⟩
    · rcases delimiter_cases hended with ⟨_, rfl⟩ | ⟨mode', rfl, _⟩
      · obtain ⟨last, later, rfl⟩ := reads_fields hnext (by simp [Reader.endField])
        exact ⟨[], last, later, by simp [Reader.endField]⟩
      · obtain ⟨more, rfl⟩ := reads_records hnext
        exact ⟨[], [], more, by simp [Reader.endRecord]⟩

end

/-! ### A bare field that is not readable -/

/-- Where the first character of a text stands that a bare field cannot have. -/
theorem exists_first {text : List Char} (h : ¬(Cell.bare text).Readable) :
    ∃ front c back, text = front ++ c :: back ∧ (∀ x ∈ front, isBare x = true) ∧
      isBare c = false := by
  induction text with
  | nil => exact absurd (fun c (hc : c ∈ []) => nomatch hc) h
  | cons c text ih =>
    cases hc : isBare c with
    | false => exact ⟨[], c, text, rfl, fun x hx => (List.not_mem_nil hx).elim, hc⟩
    | true =>
      have htail : ¬(Cell.bare text).Readable := by
        intro htext
        refine h fun x hx => ?_
        rcases List.mem_cons.mp hx with rfl | hx
        · exact hc
        · exact htext x hx
      obtain ⟨front, d, back, rfl, hfront, hd⟩ := ih htail
      refine ⟨c :: front, d, back, rfl, fun x hx => ?_, hd⟩
      rcases List.mem_cons.mp hx with rfl | hx
      · exact hc
      · exact hfront x hx

theorem exists_delimiter (r : Reader) {c : Char} (hc : isBare c = false) (hquote : c ≠ '"') :
    ∃ ended, r.delimiter c = some ended := by
  unfold isBare isPlain at hc
  simp only [Bool.and_eq_false_iff, bne_eq_false_iff_eq] at hc
  rcases hc with ((hc | rfl) | rfl) | rfl
  · exact absurd hc hquote
  · exact ⟨_, rfl⟩
  · exact ⟨_, rfl⟩
  · exact ⟨_, rfl⟩

variable {text tail : List Char} {last : List (List Char)} {later : List (List (List Char))}

/-- Two values for one field. -/
theorem field_eq {value value' : List Char} {last' : List (List Char)}
    {later' : List (List (List Char))}
    (h : done ++ (fields ++ value :: last) :: later =
      done ++ (fields ++ value' :: last') :: later') : value = value' :=
  (List.cons.inj (List.append_cancel_left (List.cons.inj (List.append_cancel_left h)).1)).1

theorem length_front {front back : List Char} {c : Char} (h : front ++ c :: back = front) :
    False := by
  have hlength := congrArg List.length h
  rw [List.length_append, List.length_cons] at hlength
  omega

theorem step_quoted {field : List Char} {c : Char} (hc : c ≠ '"') :
    step ⟨done, fields, field, .quoted⟩ c = some ⟨done, fields, field ++ [c], .quoted⟩ :=
  congrArg some (if_neg hc)

theorem step_closing {field : List Char} {c : Char} (hc : c ≠ '"') :
    step ⟨done, fields, field, .closing⟩ c = Reader.delimiter ⟨done, fields, field, .closing⟩ c :=
  if_neg hc

/-- Behind a closing quote comes a quote, or the field is what it was. -/
theorem value_of_closing {field value : List Char} (htail : ∀ c ∈ tail.head?, c ≠ '"')
    (h : Reads ⟨done, fields, field, .closing⟩ tail
      (done ++ (fields ++ value :: last) :: later)) : value = field := by
  cases tail with
  | nil =>
    rcases finish_cases (reads_nil.mp h) with ⟨_, hstart, _⟩ | ⟨_, heq⟩
    · cases hstart
    · exact field_eq heq
  | cons c rest =>
    obtain ⟨next, hstep, hnext⟩ := reads_cons.mp h
    rw [step_closing (htail c rfl)] at hstep
    rcases delimiter_cases hstep with ⟨_, rfl⟩ | ⟨mode, rfl, _⟩
    · obtain ⟨last', later', heq⟩ := reads_fields hnext (by simp [Reader.endField])
      simp only [Reader.endField, List.append_assoc, List.singleton_append] at heq
      exact field_eq heq
    · obtain ⟨later', heq⟩ := reads_records hnext
      simp only [Reader.endRecord, List.append_assoc, List.singleton_append] at heq
      exact field_eq heq

theorem takeWhile_quotes {i : ℕ} {rest : List Char} (h : ∀ c ∈ rest.head?, c ≠ '"') :
    (List.replicate i '"' ++ rest).takeWhile (· = '"') = List.replicate i '"' := by
  induction i with
  | zero =>
    cases rest with
    | nil => rfl
    | cons c rest => exact List.takeWhile_cons_of_neg (by simpa using h c rfl)
  | succ i ih =>
    rw [List.replicate_succ, List.cons_append, List.takeWhile_cons_of_pos (by simp), ih]

/-- Of `2 * k` or `2 * k + 1` more quotes inside quotes, `k` are in the field. -/
theorem quotes_of_reads (k i : ℕ) {value : List Char} (odd : Bool)
    (htail : ∀ c ∈ tail.head?, c ≠ '"')
    (h : Reads ⟨done, fields, List.replicate i '"', .quoted⟩
      (List.replicate (2 * k + odd.toNat) '"' ++ tail)
      (done ++ (fields ++ value :: last) :: later)) :
    value.takeWhile (· = '"') = List.replicate (i + k) '"' := by
  induction k generalizing i with
  | zero =>
    cases odd with
    | false =>
      replace h : Reads ⟨done, fields, List.replicate i '"', .quoted⟩ tail _ := h
      cases tail with
      | nil => cases h
      | cons c rest =>
        obtain ⟨next, hstep, hnext⟩ := reads_cons.mp h
        rw [step_quoted (htail c rfl)] at hstep
        obtain rfl := Option.some.inj hstep
        obtain ⟨more, last', later', heq⟩ := reads_field hnext inside_quoted
        rw [field_eq heq, List.append_assoc]
        exact @takeWhile_quotes i (c :: more) htail
    | true =>
      obtain ⟨next, hstep, hnext⟩ := reads_cons.mp h
      obtain rfl : Reader.mk done fields (List.replicate i '"') .closing = next :=
        Option.some.inj hstep
      rw [value_of_closing htail hnext]
      exact (congrArg _ (List.append_nil _).symm).trans (takeWhile_quotes (by simp))
  | succ k ih =>
    have hcount : 2 * (k + 1) + odd.toNat = 2 * k + odd.toNat + 1 + 1 := by omega
    rw [hcount, List.replicate_succ, List.replicate_succ, List.cons_append,
      List.cons_append] at h
    obtain ⟨closing, hclosing, h⟩ := reads_cons.mp h
    obtain rfl : Reader.mk done fields (List.replicate i '"') .closing = closing :=
      Option.some.inj hclosing
    obtain ⟨next, hstep, hnext⟩ := reads_cons.mp h
    obtain rfl : Reader.mk done fields (List.replicate i '"' ++ ['"']) .quoted = next :=
      Option.some.inj hstep
    rw [← List.replicate_succ'] at hnext
    rw [ih (i + 1) hnext]
    congr 1
    omega

theorem exists_quotes (text : List Char) :
    ∃ m rest, text = List.replicate m '"' ++ rest ∧ ∀ c ∈ rest.head?, c ≠ '"' := by
  induction text with
  | nil => exact ⟨0, [], rfl, fun c hc => by cases hc⟩
  | cons c text ih =>
    by_cases hc : c = '"'
    · obtain ⟨m, rest, rfl, hrest⟩ := ih
      exact ⟨m + 1, rest, by rw [hc]; rfl, hrest⟩
    · refine ⟨0, c :: text, rfl, fun d hd => ?_⟩
      obtain rfl : c = d := Option.some.inj hd
      exact hc

/-- A bare field that begins with a quote does not read back: half of its quotes
are missing. -/
theorem not_reads_quote {back : List Char} (htail : ∀ c ∈ tail.head?, c ≠ '"') :
    ¬Reads ⟨done, fields, [], .quoted⟩ (back ++ tail)
      (done ++ (fields ++ ('"' :: back) :: last) :: later) := by
  intro h
  obtain ⟨m, rest, rfl, hrest⟩ := exists_quotes back
  have hbehind : ∀ c ∈ (rest ++ tail).head?, c ≠ '"' := by
    cases rest with
    | nil => exact htail
    | cons d rest => exact hrest
  have hhalf : 2 * (m / 2) + (decide (m % 2 = 1)).toNat = m := by
    rcases Nat.mod_two_eq_zero_or_one m with hm | hm
    · simp only [hm, Nat.zero_ne_one, decide_false, Bool.toNat_false]
      omega
    · simp only [hm, decide_true, Bool.toNat_true]
      omega
  have hread := quotes_of_reads (m / 2) 0 (decide (m % 2 = 1)) hbehind (by
    rw [hhalf, ← List.append_assoc]
    exact h)
  have hwritten := takeWhile_quotes (i := m + 1) hrest
  rw [List.replicate_succ, List.cons_append, hread] at hwritten
  have hlength := congrArg List.length hwritten
  simp only [List.length_replicate, List.length_cons] at hlength
  omega

theorem step_bare {field : List Char} {mode : Mode} {c : Char}
    (hmode : mode = .start ∨ mode = .plain) (hc : isBare c = true) :
    step ⟨done, fields, field, mode⟩ c = some ⟨done, fields, field ++ [c], .plain⟩ := by
  obtain ⟨hplain, hcomma⟩ := isBare_iff.mp hc
  have hquote : c ≠ '"' := by
    rintro rfl
    cases hplain
  have hread : Reader.delimiter ⟨done, fields, field, mode⟩ c = none :=
    delimiter_plain hplain hcomma
  unfold step
  rcases hmode with rfl | rfl
  · simp only [if_neg hquote, hread, Option.none_or]
    rfl
  · simp only [if_neg hquote, hread, Option.none_or]
    rfl

/-- Text behind the first character of a bare field is no start of a field. -/
theorem run_front {front : List Char} (hne : front ≠ []) (h : ∀ x ∈ front, isBare x = true) :
    run (begun done fields) front = some ⟨done, fields, front, .plain⟩ := by
  obtain hnil | ⟨first, c, rfl⟩ := List.eq_nil_or_concat' front
  · exact absurd hnil hne
  · have hfirst : ∀ x ∈ first, isBare x = true := fun x hx => h x (List.mem_append_left _ hx)
    obtain ⟨mode, hmode, hrun⟩ := run_plain done fields fun x hx => isBare_iff.mp (hfirst x hx)
    rw [run_append, hrun, Option.bind_some, run_singleton]
    exact step_bare hmode (h c (List.mem_append_right _ (List.mem_singleton_self c)))

/-- A bare field that reads back is readable: otherwise what the file has in its
place is the part before the first character it may not have, or too few quotes. -/
theorem readable_of_reads (htail : ∀ c ∈ tail.head?, c ≠ '"')
    (h : Reads (begun done fields) (text ++ tail) (done ++ (fields ++ text :: last) :: later)) :
    (Cell.bare text).Readable := by
  by_contra hbad
  obtain ⟨front, c, back, rfl, hfront, hc⟩ := exists_first hbad
  by_cases hquote : c = '"'
  · subst hquote
    cases front with
    | nil =>
      obtain ⟨next, hstep, hnext⟩ := reads_cons.mp h
      obtain rfl : Reader.mk done fields [] .quoted = next := Option.some.inj hstep
      exact not_reads_quote htail hnext
    | cons d front =>
      rw [List.append_assoc, reads_append (run_front (List.cons_ne_nil d front) hfront)] at h
      obtain ⟨next, hstep, _⟩ := reads_cons.mp h
      cases hstep
  · obtain ⟨mode, hmode, hrun⟩ := run_plain done fields fun x hx => isBare_iff.mp (hfront x hx)
    rw [List.append_assoc, reads_append hrun] at h
    obtain ⟨next, hstep, hnext⟩ := reads_cons.mp h
    obtain ⟨ended, hended⟩ := exists_delimiter ⟨done, fields, front, mode⟩ hc hquote
    have hopen : mode ≠ .quoted ∧ mode ≠ .cr := by rcases hmode with rfl | rfl <;> decide
    rw [step_of_delimiter hended hopen.1 hopen.2] at hstep
    obtain rfl := Option.some.inj hstep
    rcases delimiter_cases hended with ⟨_, rfl⟩ | ⟨mode', rfl, _⟩
    · obtain ⟨last', later', heq⟩ := reads_fields hnext (by simp [Reader.endField])
      simp only [Reader.endField, List.append_assoc, List.singleton_append] at heq
      exact length_front (field_eq heq)
    · obtain ⟨later', heq⟩ := reads_records hnext
      simp only [Reader.endRecord, List.append_assoc, List.singleton_append] at heq
      exact length_front (field_eq heq)

/-! ### The round trip -/

theorem readable_cell {c : Cell} (htail : ∀ d ∈ tail.head?, d ≠ '"')
    (h : Reads (begun done fields) (c.source ++ tail)
      (done ++ (fields ++ c.text :: last) :: later)) : c.Readable := by
  cases c with
  | bare text => exact readable_of_reads htail h
  | quoted text => exact trivial

theorem reads_comma_iff {c : Cell} {rest : List Char} :
    Reads (begun done fields) (c.source ++ ',' :: rest)
        (done ++ (fields ++ c.text :: last) :: later) ↔
      c.Readable ∧ Reads (begun done (fields ++ [c.text])) rest
        (done ++ (fields ++ c.text :: last) :: later) := by
  constructor
  · intro h
    have htail : ∀ d ∈ (',' :: rest).head?, d ≠ '"' := by simp
    have hreadable : c.Readable := readable_cell htail h
    unfold Reads at h ⊢
    rw [run_source_comma hreadable] at h
    exact ⟨hreadable, h⟩
  · intro h
    unfold Reads at h ⊢
    rw [run_source_comma h.1]
    exact h.2

theorem reads_newline_iff {c : Cell} {rest : List Char} :
    Reads (begun done fields) (c.source ++ '\n' :: rest)
        (done ++ (fields ++ [c.text]) :: later) ↔
      c.Readable ∧ Reads (begun (done ++ [fields ++ [c.text]]) []) rest
        (done ++ (fields ++ [c.text]) :: later) := by
  constructor
  · intro h
    have htail : ∀ d ∈ ('\n' :: rest).head?, d ≠ '"' := by simp
    have hreadable : c.Readable := readable_cell htail h
    unfold Reads at h ⊢
    rw [run_source_line hreadable] at h
    exact ⟨hreadable, h⟩
  · intro h
    unfold Reads at h ⊢
    rw [run_source_line h.1]
    exact h.2

theorem reads_end_iff {c : Cell} (hfields : fields ≠ []) :
    Reads (begun done fields) c.source (done ++ [fields ++ [c.text]]) ↔ c.Readable := by
  constructor
  · intro h
    rw [← List.append_nil c.source] at h
    exact readable_cell (by simp) h
  · exact fun h => finish_source h hfields

def texts (cells : List Cell) : List (List Char) := cells.map Cell.text

/-- A line that another follows. -/
theorem reads_line_iff {cells : List Cell} (hne : cells ≠ []) {rest : List Char} :
    Reads (begun done fields) (lineOf cells ++ '\n' :: rest)
        (done ++ (fields ++ texts cells) :: later) ↔
      (∀ c ∈ cells, c.Readable) ∧ Reads (begun (done ++ [fields ++ texts cells]) []) rest
        (done ++ (fields ++ texts cells) :: later) := by
  induction cells generalizing fields with
  | nil => exact absurd rfl hne
  | cons c cells ih =>
    cases cells with
    | nil =>
      rw [lineOf_singleton, List.forall_mem_singleton]
      exact reads_newline_iff
    | cons d cells =>
      have hshift : fields ++ texts (c :: d :: cells) =
          fields ++ [c.text] ++ texts (d :: cells) := by simp [texts]
      rw [lineOf_cons, List.append_assoc, List.cons_append, List.forall_mem_cons, and_assoc]
      refine Iff.trans reads_comma_iff (and_congr_right fun _ => ?_)
      have hnext := @ih (fields ++ [c.text]) (List.cons_ne_nil d cells)
      rw [← hshift] at hnext
      exact hnext

/-- The last line of a file. -/
theorem reads_last_iff {cells : List Cell} (hne : cells ≠ [])
    (hlong : fields ≠ [] ∨ 2 ≤ cells.length) :
    Reads (begun done fields) (lineOf cells) (done ++ [fields ++ texts cells]) ↔
      ∀ c ∈ cells, c.Readable := by
  induction cells generalizing fields with
  | nil => exact absurd rfl hne
  | cons c cells ih =>
    cases cells with
    | nil =>
      rw [lineOf_singleton, List.forall_mem_singleton]
      exact reads_end_iff (hlong.resolve_right (by simp))
    | cons d cells =>
      have hshift : fields ++ texts (c :: d :: cells) =
          fields ++ [c.text] ++ texts (d :: cells) := by simp [texts]
      rw [lineOf_cons, List.forall_mem_cons]
      refine Iff.trans reads_comma_iff (and_congr_right fun _ => ?_)
      have hnext := @ih (fields ++ [c.text]) (List.cons_ne_nil d cells)
        (Or.inl (by simp))
      rw [← hshift] at hnext
      exact hnext

/-- A file reads back as it was written exactly if its cells are readable. A line
has at least two cells, as the text of an only cell could be empty. -/
theorem readCsv_fileOf_iff {lines : List (List Cell)} (hne : lines ≠ [])
    (hlong : ∀ line ∈ lines, 2 ≤ line.length) :
    readCsv (fileOf lines) = some (lines.map texts) ↔ ∀ line ∈ lines, ∀ c ∈ line, c.Readable := by
  have hcells : ∀ line : List Cell, 2 ≤ line.length → line ≠ [] := by
    rintro line h rfl
    cases h
  have hreads : ∀ done : List (List (List Char)),
      Reads (begun done []) (fileOf lines) (done ++ lines.map texts) ↔
        ∀ line ∈ lines, ∀ c ∈ line, c.Readable := by
    induction lines with
    | nil => exact absurd rfl hne
    | cons line lines ih =>
      intro done
      have hline : 2 ≤ line.length := hlong line List.mem_cons_self
      cases lines with
      | nil =>
        rw [fileOf_singleton, List.forall_mem_singleton]
        exact reads_last_iff (hcells line hline) (Or.inr hline)
      | cons next lines =>
        rw [fileOf_cons, List.forall_mem_cons]
        refine Iff.trans (reads_line_iff (hcells line hline)) (and_congr_right fun _ => ?_)
        have hrest := ih (List.cons_ne_nil next lines)
          (fun l hl => hlong l (List.mem_cons_of_mem _ hl)) (done ++ [texts line])
        rw [List.append_assoc] at hrest
        exact hrest
  exact hreads []

end Csv
