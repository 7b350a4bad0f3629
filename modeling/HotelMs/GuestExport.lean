import HotelMs.Exports
import HotelMs.Lib.Csv

/-!
# The guest export as CSV

A comma in a name or an email becomes a blank. A double quote or an end of line is
written as it stands.
-/

namespace HotelMs

open Numerals Csv

section

variable {F : PyFloat} (fmt : ExportFormat F)

/-- Five fields, with what is not a text unchanged. -/
def GuestRecord (g : TopGuest F) (record : List (List Char)) : Prop :=
  ∃ name email,
    record = [intText g.userId, name, email, natText g.bookingCount, fmt.floatText g.totalSpent]

/-- A header and a record for each guest. -/
def GuestsRead (guests : List (TopGuest F)) : Prop :=
  ∃ records, readCsv (guestsCsv fmt guests) = some (guestHeader :: records) ∧
    List.Forall₂ (GuestRecord fmt) guests records

def TopGuest.Quotable (g : TopGuest F) : Prop :=
  WellFormed (noCommas g.name.toList) ∧ WellFormed (noCommas g.email.toList)

/-! ### The parts of a line -/

theorem ne_comma_noCommas {text : List Char} : ∀ c ∈ noCommas text, c ≠ ',' := by
  intro c hc
  obtain ⟨d, _, rfl⟩ := List.mem_map.mp hc
  split
  next => decide
  next hd => exact hd

theorem plain_of_isDigit {c : Char} (h : c.isDigit = true) : isPlain c = true ∧ c ≠ ',' := by
  have hquote : c ≠ '"' := ne_of_isDigit h rfl
  have hlf : c ≠ '\n' := ne_of_isDigit h rfl
  have hcr : c ≠ '\r' := ne_of_isDigit h rfl
  refine ⟨?_, ne_of_isDigit h rfl⟩
  unfold isPlain
  simp only [Bool.and_eq_true, bne_iff_ne]
  exact ⟨⟨hquote, hlf⟩, hcr⟩

theorem plain_natText {n : ℕ} : ∀ c ∈ natText n, isPlain c = true ∧ c ≠ ',' :=
  fun _ hc => plain_of_isDigit (isDigit_natText hc)

theorem plain_intText {i : ℤ} : ∀ c ∈ intText i, isPlain c = true ∧ c ≠ ',' := by
  intro c hc
  unfold intText at hc
  split at hc
  · rcases List.mem_cons.mp hc with rfl | hc
    · decide
    · exact plain_natText c hc
  · exact plain_natText c hc

theorem plain_floatText {x : F.Carrier} : ∀ c ∈ fmt.floatText x, isPlain c = true ∧ c ≠ ',' := by
  intro c hc
  obtain ⟨hcomma, hquote, hlf, hcr⟩ := fmt.float_plain x c hc
  refine ⟨?_, hcomma⟩
  unfold isPlain
  simp only [Bool.and_eq_true, bne_iff_ne]
  exact ⟨⟨hquote, hlf⟩, hcr⟩

theorem count_of_ne {text : List Char} (h : ∀ c ∈ text, c ≠ ',') : text.count ',' = 0 :=
  List.count_eq_zero.mpr fun hmem => h ',' hmem rfl

/-- The line of a guest, followed by others. -/
theorem guestLine_append (g : TopGuest F) (rest : List Char) :
    csvLine (guestFields fmt g) ++ rest =
      intText g.userId ++ ',' :: (noCommas g.name.toList ++ ',' :: (noCommas g.email.toList ++
        ',' :: (natText g.bookingCount ++ ',' ::
          (fmt.floatText g.totalSpent ++ '\n' :: rest)))) := by
  unfold csvLine guestFields
  simp only [List.intercalate_cons_cons, List.intercalate_singleton, List.append_assoc,
    List.cons_append, List.nil_append]

theorem count_guestLine (g : TopGuest F) : (csvLine (guestFields fmt g)).count ',' = 4 := by
  have hline := guestLine_append fmt g []
  rw [List.append_nil] at hline
  rw [hline]
  have hid := count_of_ne fun c hc => (plain_intText (i := g.userId) c hc).2
  have hname := count_of_ne (@ne_comma_noCommas g.name.toList)
  have hemail := count_of_ne (@ne_comma_noCommas g.email.toList)
  have hcount := count_of_ne fun c hc => (plain_natText (n := g.bookingCount) c hc).2
  have htotal := count_of_ne fun c hc => (plain_floatText fmt (x := g.totalSpent) c hc).2
  simp only [List.count_append, List.count_cons, List.count_nil, hid, hname, hemail, hcount,
    htotal]
  decide

theorem count_guestLines (guests : List (TopGuest F)) :
    (guests.flatMap fun g => csvLine (guestFields fmt g)).count ',' = 4 * guests.length := by
  induction guests with
  | nil => rfl
  | cons g guests ih =>
    rw [List.flatMap_cons, List.count_append, count_guestLine, ih, List.length_cons]
    omega

theorem run_header (rest : List Char) :
    run (begun [] []) (csvLine guestHeader ++ rest) = run (begun [guestHeader] []) rest := by
  have hheader : run (begun [] []) (csvLine guestHeader) = some (begun [guestHeader] []) := rfl
  rw [run_append, hheader, Option.bind_some]

/-! ### Reading the lines -/

/-- A quotable guest is one record. -/
theorem run_guestLine {g : TopGuest F} (h : g.Quotable) (done : List (List (List Char)))
    (rest : List Char) : ∃ name email,
      run (begun done []) (csvLine (guestFields fmt g) ++ rest) =
        run (begun (done ++ [[intText g.userId, name, email, natText g.bookingCount,
          fmt.floatText g.totalSpent]]) []) rest := by
  rw [guestLine_append, run_plain_field _ plain_intText]
  obtain ⟨name, hname⟩ := run_field done ([] ++ [intText g.userId])
    (noCommas g.email.toList ++ ',' :: (natText g.bookingCount ++ ',' ::
      (fmt.floatText g.totalSpent ++ '\n' :: rest))) h.1 ne_comma_noCommas
  obtain ⟨email, hemail⟩ := run_field done ([] ++ [intText g.userId] ++ [name])
    (natText g.bookingCount ++ ',' :: (fmt.floatText g.totalSpent ++ '\n' :: rest)) h.2
    ne_comma_noCommas
  refine ⟨name, email, ?_⟩
  rw [hname, hemail, run_plain_field _ plain_natText, run_plain_last _ (plain_floatText fmt)]
  rfl

theorem run_guestLines {guests : List (TopGuest F)} (h : ∀ g ∈ guests, g.Quotable)
    (done : List (List (List Char))) : ∃ records,
      run (begun done []) (guests.flatMap fun g => csvLine (guestFields fmt g)) =
        some (begun (done ++ records) []) ∧
      List.Forall₂ (GuestRecord fmt) guests records := by
  induction guests generalizing done with
  | nil =>
    refine ⟨[], ?_, .nil⟩
    rw [List.append_nil]
    rfl
  | cons g guests ih =>
    obtain ⟨name, email, hline⟩ := run_guestLine fmt (h g List.mem_cons_self) done
      (guests.flatMap fun g => csvLine (guestFields fmt g))
    obtain ⟨records, hrun, hrecords⟩ := ih (fun x hx => h x (List.mem_cons_of_mem _ hx))
      (done ++ [[intText g.userId, name, email, natText g.bookingCount,
        fmt.floatText g.totalSpent]])
    refine ⟨_ :: records, ?_, .cons ⟨name, email, rfl⟩ hrecords⟩
    rw [List.flatMap_cons, hline, hrun, List.append_assoc, List.singleton_append]

/-- Of lines that were read as records of five fields, with no comma inside a field. -/
theorem quotable_of_run {guests : List (TopGuest F)} {done : List (List (List Char))}
    {last : Reader}
    (hrun : run (begun done []) (guests.flatMap fun g => csvLine (guestFields fmt g)) = some last)
    (hinner : last.inner = 0) (hfive : ∀ record ∈ last.records, record.length = 5) :
    ∀ g ∈ guests, g.Quotable := by
  induction guests generalizing done with
  | nil => exact fun g hg => by cases hg
  | cons g guests ih =>
    have hopen : ∀ fields : List (List Char), fields.length < 4 →
        ∀ field, fields ++ [field] ∉ last.records := by
      intro fields hshort field hmem
      have hlength := hfive _ hmem
      rw [List.length_append, List.length_singleton] at hlength
      omega
    rw [List.flatMap_cons, guestLine_append, run_plain_field _ plain_intText] at hrun
    obtain ⟨hname, name, hrun⟩ := field_of_run ne_comma_noCommas hrun hinner
      (hopen _ (by decide : 1 < 4))
    obtain ⟨hemail, email, hrun⟩ := field_of_run ne_comma_noCommas hrun hinner
      (hopen _ (by decide : 2 < 4))
    rw [run_plain_field _ plain_natText, run_plain_last _ (plain_floatText fmt)] at hrun
    intro x hx
    rcases List.mem_cons.mp hx with rfl | hx
    · exact ⟨hname, hemail⟩
    · exact ih hrun x hx

theorem separators_of_five {records : List (List (List Char))}
    (h : ∀ record ∈ records, record.length = 5) : separators records = 4 * records.length := by
  induction records with
  | nil => rfl
  | cons record records ih =>
    have hrest := ih fun x hx => h x (List.mem_cons_of_mem _ hx)
    have hfive := h record List.mem_cons_self
    unfold separators at hrest ⊢
    rw [List.map_cons, List.sum_cons, hrest, hfive, List.length_cons]
    omega

theorem length_of_guests {guests : List (TopGuest F)} {records : List (List (List Char))}
    (h : List.Forall₂ (GuestRecord fmt) guests records) :
    ∀ record ∈ records, record.length = 5 := by
  induction h with
  | nil => exact fun record hrecord => by cases hrecord
  | cons hfirst _ ih =>
    obtain ⟨name, email, rfl⟩ := hfirst
    intro record hrecord
    rcases List.mem_cons.mp hrecord with rfl | hrecord
    · rfl
    · exact ih record hrecord

theorem quotable_of_guestsRead {guests : List (TopGuest F)} :
    GuestsRead fmt guests → ∀ g ∈ guests, g.Quotable := by
  rintro ⟨records, hread, hguests⟩
  obtain ⟨last, hrun, hfinish⟩ := Option.bind_eq_some_iff.mp hread
  obtain ⟨hseparators, hkept⟩ := finish_records hfinish
  have hfive : ∀ record ∈ guestHeader :: records, record.length = 5 := by
    intro record hrecord
    rcases List.mem_cons.mp hrecord with rfl | hrecord
    · rfl
    · exact length_of_guests fmt hguests record hrecord
  have hcommas := (run_commas hrun).1
  have hlines := count_guestLines fmt guests
  have hheader : (csvLine guestHeader).count ',' = 4 := by decide
  have hlength := hguests.length_eq
  have hfresh : (⟨[], [], [], .start⟩ : Reader).inner +
    (⟨[], [], [], .start⟩ : Reader).separators = 0 := rfl
  rw [hfresh, guestsCsv, List.count_append, hlines, hheader, ← hseparators,
    separators_of_five hfive, List.length_cons] at hcommas
  have hinner : last.inner = 0 := by omega
  have hguestLines : run (begun [guestHeader] [])
      (guests.flatMap fun g => csvLine (guestFields fmt g)) = some last := by
    rw [← run_header]
    exact hrun
  exact quotable_of_run fmt hguestLines hinner fun record hrecord => hfive _ (hkept hrecord)

theorem guestsRead_of_quotable {guests : List (TopGuest F)} :
    (∀ g ∈ guests, g.Quotable) → GuestsRead fmt guests := by
  intro h
  obtain ⟨records, hrun, hrecords⟩ := run_guestLines fmt h [guestHeader]
  refine ⟨records, ?_, hrecords⟩
  have hwhole : run ⟨[], [], [], .start⟩ (guestsCsv fmt guests) =
      some (begun ([guestHeader] ++ records) []) := (run_header _).trans hrun
  unfold readCsv
  rw [hwhole]
  rfl

theorem guests_read_iff (guests : List (TopGuest F)) :
    GuestsRead fmt guests ↔ ∀ g ∈ guests, g.Quotable :=
  ⟨quotable_of_guestsRead fmt, guestsRead_of_quotable fmt⟩

/-- The answer of the endpoint is read if all guests of its list can be. -/
theorem exportReport_read_iff {s : Store} {clock : ReportClock} {days : ReportDays} {user : User}
    (hstaff : requireStaffOrAdmin user = .ok ()) :
    (∃ text records, exportReport fmt s clock days user "guests" = .ok text ∧
      readCsv text = some (guestHeader :: records) ∧
      List.Forall₂ (GuestRecord fmt) (exportGuests F s (getOptionalHotel user)) records) ↔
    ∀ g ∈ exportGuests F s (getOptionalHotel user), g.Quotable := by
  have hrows : exportRows F s clock days user "guests" =
      .ok (.guests (exportGuests F s (getOptionalHotel user))) := by
    unfold exportRows
    rw [hstaff]
    rfl
  have htext := exportReport_ok fmt hrows
  constructor
  · rintro ⟨text, records, hanswer, hread⟩
    cases htext.symm.trans hanswer
    exact quotable_of_guestsRead fmt ⟨records, hread⟩
  · intro h
    obtain ⟨records, hread⟩ := guestsRead_of_quotable fmt h
    exact ⟨_, records, htext, hread⟩

end

/-! ### A name on two lines -/

def annLee : RegisterRequest where
  fullName := "Ann\nLee"
  email := "ann@x.org"
  password := "Sunrise#2041"
  hotelId := none
  full_name_not_empty := by decide
  password_strength := by decide

def paidTwoHundred (r : RegisterRequest) : TopGuest sampleFloat :=
  ⟨4, r.fullName, r.email, 1, sampleFloat.ofRat 200⟩

theorem ann_lee_is_two_records : ¬GuestsRead sampleFormat [paidTwoHundred annLee] := by
  rintro ⟨records, hread, hguests⟩
  have htwo : readCsv (guestsCsv sampleFormat [paidTwoHundred annLee]) = some [guestHeader,
      ["4".toList, "Ann".toList],
      ["Lee".toList, "ann@x.org".toList, "1".toList, "200.0".toList]] := by decide +kernel
  rw [htwo] at hread
  have hlength := hguests.length_eq
  rw [← (List.cons.inj (Option.some.inj hread)).2] at hlength
  cases hlength

end HotelMs
