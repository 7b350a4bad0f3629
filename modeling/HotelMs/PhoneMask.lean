import HotelMs.PhoneInput

/-!
# Digits under a mask (`components/PhoneInput.jsx`)

`applyMask` puts a digit in the place of each `X` of the mask; what stands
between is written only when a digit follows. So a text that is typed or deleted
at its end is displayed as it was up to there.
-/

namespace HotelMs

open Runs PrefixCodes

/-! ### The loop -/

/-- The variables of the loop in `applyMask`. -/
structure MaskLoop where
  di : ℕ
  result : List Char
  deriving DecidableEq

/-- One character of the mask; the loop ends with the digits. -/
def maskStep (digits : List Char) (st : MaskLoop) (m : Char) : MaskLoop :=
  match digits[st.di]? with
  | some d =>
    -- a digit follows, so the second test of `di` lets the separator through
    if m = 'X' then ⟨st.di + 1, st.result ++ [d]⟩ else ⟨st.di, st.result ++ [m]⟩
  | none => st

section

variable (digits : List Char) {mask : List Char}

theorem applyMask_nil : applyMask [] mask = [] := by
  cases mask with
  | nil => rfl
  | cons m mask => rfl

/-- What is written and what is still to come make one text. -/
theorem maskStep_result (st : MaskLoop) (m : Char) (mask : List Char) :
    (maskStep digits st m).result ++ applyMask (digits.drop (maskStep digits st m).di) mask =
      st.result ++ applyMask (digits.drop st.di) (m :: mask) := by
  unfold maskStep
  cases hd : digits[st.di]? with
  | none =>
    have hall : digits.drop st.di = [] :=
      List.drop_eq_nil_of_le (List.getElem?_eq_none_iff.mp hd)
    show st.result ++ applyMask (digits.drop st.di) mask = _
    rw [hall, applyMask_nil, applyMask_nil]
  | some d =>
    obtain ⟨hlt, hget⟩ := List.getElem?_eq_some_iff.mp hd
    have hdrop : digits.drop st.di = d :: digits.drop (st.di + 1) := by
      rw [List.drop_eq_getElem_cons hlt, hget]
    by_cases hx : m = 'X'
    · simp only [if_pos hx]
      rw [hdrop, applyMask, if_pos hx, List.append_assoc, List.singleton_append]
    · simp only [if_neg hx]
      rw [hdrop, applyMask, if_neg hx, List.append_assoc, List.singleton_append]

theorem run_maskStep (st : MaskLoop) :
    (run (maskStep digits) st mask).result =
      st.result ++ applyMask (digits.drop st.di) mask := by
  induction mask generalizing st with
  | nil =>
    have hnone : applyMask (digits.drop st.di) [] = [] := by
      cases digits.drop st.di with
      | nil => rfl
      | cons d ds => rfl
    rw [run_nil, hnone, List.append_nil]
  | cons m mask ih => rw [run_cons, ih, maskStep_result]

/-- The loop over the mask. -/
theorem applyMask_eq_run :
    applyMask digits mask = (run (maskStep digits) ⟨0, []⟩ mask).result := by
  rw [run_maskStep, List.nil_append, List.drop_zero]

end

/-! ### Digits one after the other -/

/-- The mask that is left when the digits are used up. -/
def restMask : List Char → List Char → List Char
  | [], mask => mask
  | _ :: _, [] => []
  | d :: digits, m :: mask =>
    if m = 'X' then restMask digits mask else restMask (d :: digits) mask

/-- Digits that follow are written behind those before them. -/
theorem applyMask_append (p q mask : List Char) :
    applyMask (p ++ q) mask = applyMask p mask ++ applyMask q (restMask p mask) := by
  induction mask generalizing p with
  | nil =>
    cases p with
    | nil => rw [List.nil_append, applyMask_nil, restMask, List.nil_append]
    | cons d p =>
      cases q with
      | nil => rfl
      | cons d' q => rfl
  | cons m mask ih =>
    cases p with
    | nil => rw [List.nil_append, applyMask_nil, restMask, List.nil_append]
    | cons d p =>
      by_cases hx : m = 'X'
      · rw [List.cons_append, applyMask, applyMask, restMask, if_pos hx, if_pos hx, if_pos hx,
          ih p, List.cons_append]
      · have hall := ih (d :: p)
        rw [List.cons_append] at hall
        rw [List.cons_append, applyMask, applyMask, restMask, if_neg hx, if_neg hx, if_neg hx,
          hall, List.cons_append]

theorem applyMask_prefix {p s : List Char} (mask : List Char) (h : p <+: s) :
    applyMask p mask <+: applyMask s mask := by
  obtain ⟨q, rfl⟩ := h
  rw [applyMask_append]
  exact List.prefix_append _ _

theorem applyMask_ne_nil {s mask : List Char} (hs : s ≠ []) (hmask : mask ≠ []) :
    applyMask s mask ≠ [] := by
  cases s with
  | nil => exact absurd rfl hs
  | cons d s =>
    cases mask with
    | nil => exact absurd rfl hmask
    | cons m mask =>
      rw [applyMask]
      split
      · exact List.cons_ne_nil _ _
      · exact List.cons_ne_nil _ _

/-- Both exits of the loop are behind a digit: the digits end there, or the mask
does. -/
theorem mem_of_getLast?_applyMask {s mask : List Char} (hlast : ∀ m ∈ mask.getLast?, m = 'X') :
    ∀ x ∈ (applyMask s mask).getLast?, x ∈ s := by
  induction mask generalizing s with
  | nil =>
    intro x hx
    cases s with
    | nil => cases hx
    | cons d s => cases hx
  | cons m mask ih =>
    have hrest : ∀ m' ∈ mask.getLast?, m' = 'X' := by
      intro m' hm'
      refine hlast m' ?_
      rw [List.getLast?_cons, Option.mem_def.mp hm']
      rfl
    cases s with
    | nil =>
      intro x hx
      cases hx
    | cons d s =>
      intro x hx
      by_cases hm : m = 'X'
      · rw [applyMask, if_pos hm, List.getLast?_cons] at hx
        obtain rfl := Option.some_inj.mp hx
        cases htail : (applyMask s mask).getLast? with
        | none => exact List.mem_cons_self
        | some y => exact List.mem_cons_of_mem d (ih hrest y htail)
      · have hmask : mask ≠ [] := by
          rintro rfl
          exact hm (hlast m rfl)
        obtain ⟨y, hy⟩ := Option.ne_none_iff_exists'.mp fun hnone =>
          applyMask_ne_nil (List.cons_ne_nil d s) hmask (List.getLast?_eq_none_iff.mp hnone)
        rw [applyMask, if_neg hm, List.getLast?_cons, hy] at hx
        obtain rfl := Option.some_inj.mp hx
        exact ih hrest _ hy

theorem isDigit_of_getLast?_applyMask {s mask : List Char} (hlast : mask.getLast? = some 'X')
    (hs : ∀ x ∈ s, x.isDigit = true) : ∀ x ∈ (applyMask s mask).getLast?, x.isDigit = true := by
  have hends : ∀ m ∈ mask.getLast?, m = 'X' :=
    fun m hm => Option.some_inj.mp (hm.symm.trans hlast)
  intro x hx
  exact hs x (mem_of_getLast?_applyMask hends x hx)

/-- A character of the mask that stands between the digits. -/
def Separator (mask : List Char) (m : Char) : Prop := m ∈ mask ∧ m ≠ 'X'

/-- No digit is lost, no separator hangs at the end, and digits that follow leave
what is written as it is. -/
structure Masked (s mask : List Char) : Prop where
  digits : digitsOf (applyMask s mask) = s.take (min s.length (mask.count 'X'))
  ends : ∀ x ∈ (applyMask s mask).getLast?, ¬Separator mask x
  stable : ∀ p, p <+: s → applyMask p mask <+: applyMask s mask

theorem applyMask_masked {s mask : List Char}
    (hmask : ∀ m, Separator mask m → m.isDigit = false) (hlast : mask.getLast? = some 'X')
    (hs : ∀ x ∈ s, x.isDigit = true) : Masked s mask := by
  refine ⟨?_, ?_, fun p hp => applyMask_prefix mask hp⟩
  · rw [digitsOf_applyMask hs fun m hm hx => hmask m ⟨hm, hx⟩, List.take_eq_take_min, min_comm]
  · intro x hx hseparator
    have hdigit := isDigit_of_getLast?_applyMask hlast hs x hx
    rw [hmask x hseparator] at hdigit
    cases hdigit

theorem applyMask_masked_default : Masked "901234567".toList defaultCountry.mask :=
  applyMask_masked (fun m h => mask_isDigit defaultCountry_mem m h.1 h.2)
    (countries_mask _ defaultCountry_mem).2.1 (List.all_eq_true.mp (by decide))

/-! ### Typing and deleting at the end -/

section

variable {st : PhoneInput}

/-- The digits belong to the country, and the value, where it can be read, to the
country's dial code. -/
structure PhoneInput.Fits (st : PhoneInput) : Prop where
  country : st.country ∈ countries
  digits : ∀ x ∈ st.localDigits, x.isDigit = true
  room : st.localDigits.length ≤ st.country.digits
  empty : st.value = [] → st.localDigits = []
  parsed : ∀ parsed ∈ parseE164 st.value, parsed.1.dial = st.country.dial

theorem mem_of_parseE164 {value : List Char} {parsed : Country × List Char}
    (h : parseE164 value = some parsed) :
    parsed.1 ∈ countries ∧ ∀ x ∈ parsed.2, x.isDigit = true := by
  unfold parseE164 at h
  split at h
  next =>
    obtain ⟨⟨c, rest⟩, hdecode, rfl⟩ := Option.map_eq_some_iff.mp h
    exact ⟨mem_of_decode hdecode, fun x hx => (List.mem_filter.mp hx).2⟩
  next => cases h

/-- The effect leaves the digits alone only when it can read nothing. -/
theorem parseValue_fits (hc : st.country ∈ countries)
    (hkept : st.value ≠ [] → parseE164 st.value = none →
      (∀ x ∈ st.localDigits, x.isDigit = true) ∧ st.localDigits.length ≤ st.country.digits) :
    (PhoneInput.parseValue st).Fits := by
  have hnothing : parseE164 [] = none := rfl
  unfold PhoneInput.parseValue
  by_cases hvalue : st.value = []
  · rw [if_pos hvalue]
    refine ⟨hc, fun x hx => ?_, Nat.zero_le _, fun _ => rfl, fun parsed hparsed => ?_⟩
    · cases hx
    · rw [hvalue, hnothing] at hparsed
      cases hparsed
  · rw [if_neg hvalue]
    cases hread : parseE164 st.value with
    | none =>
      obtain ⟨hdigits, hroom⟩ := hkept hvalue hread
      refine ⟨hc, hdigits, hroom, fun h => absurd h hvalue, fun parsed hparsed => ?_⟩
      rw [hread] at hparsed
      cases hparsed
    | some parsed =>
      obtain ⟨hmem, hdigits⟩ := mem_of_parseE164 hread
      refine ⟨hmem, fun x hx => hdigits x (List.mem_of_mem_take hx), ?_,
        fun h => absurd h hvalue, fun parsed' hparsed => ?_⟩
      · rw [List.length_take]
        exact min_le_left _ _
      · obtain rfl := Option.some_inj.mp (hread.symm.trans hparsed)
        rfl

/-- What is emitted can be read, and has the dial code of its country. -/
theorem parseE164_emit {c : Country} (hc : c ∈ countries) {ds : List Char}
    (h : emit c ds ≠ []) : ∃ parsed, parseE164 (emit c ds) = some parsed ∧
      parsed.1.dial = c.dial := by
  have hds : ds.take c.digits ≠ [] := fun hnil => h (emit_eq_nil.mpr hnil)
  obtain ⟨first, _, hfirst, hdial⟩ := leader_of_mem Country.dial hc
  rw [emit_of_ne_nil hds, parseE164_dial hc, hfirst]
  exact ⟨_, rfl, hdial⟩

theorem PhoneInput.Fits.given (h : st.Fits) (value : List Char) :
    (phoneStep st (.given value)).Fits := by
  show (st.feed value).Fits
  unfold PhoneInput.feed
  split
  next => exact h
  next => exact parseValue_fits h.country fun _ _ => ⟨h.digits, h.room⟩

theorem PhoneInput.Fits.input (h : st.Fits) (text : List Char) :
    (phoneStep st (.input text)).Fits := by
  have hdigits := isDigit_take_digitsOf text st.country.digits
  have hroom : ((digitsOf text).take st.country.digits).length ≤ st.country.digits := by
    rw [List.length_take]
    exact min_le_left _ _
  simp only [phoneStep]
  unfold PhoneInput.feed
  split
  next hsame =>
    refine ⟨h.country, hdigits, hroom, fun hnil => ?_, h.parsed⟩
    have htake := emit_eq_nil.mp (hsame.trans hnil)
    rwa [List.take_take, min_self] at htake
  next => exact parseValue_fits h.country fun _ _ => ⟨hdigits, hroom⟩

theorem PhoneInput.Fits.select (h : st.Fits) {c : Country} (hc : c ∈ countries) :
    (phoneStep st (.select c)).Fits := by
  simp only [phoneStep]
  unfold PhoneInput.feed
  split
  next hsame =>
    by_cases hnil : emit c st.localDigits = []
    · have hempty := h.empty (hsame.symm.trans hnil)
      have hroom : st.localDigits.length ≤ c.digits := by
        rw [hempty]
        exact Nat.zero_le _
      refine ⟨hc, h.digits, hroom, h.empty, fun parsed hparsed => ?_⟩
      have hnothing : parseE164 [] = none := rfl
      rw [← hsame, hnil, hnothing] at hparsed
      cases hparsed
    · -- the value is of both countries, so they have one dial code
      obtain ⟨parsed, hread, hdial⟩ := parseE164_emit hc hnil
      have hold : parsed.1.dial = st.country.dial := by
        refine h.parsed parsed ?_
        rw [← hsame]
        exact hread
      have hwide := (countries_agree _ hc _ h.country (hdial.symm.trans hold)).1
      refine ⟨hc, h.digits, h.room.trans hwide.ge, h.empty, fun parsed' hparsed => ?_⟩
      rw [← hsame, hread] at hparsed
      obtain rfl := Option.some_inj.mp hparsed
      exact hdial
  next =>
    refine parseValue_fits hc fun hvalue hread => ?_
    obtain ⟨parsed, hsome, _⟩ := parseE164_emit hc hvalue
    rw [hsome] at hread
    cases hread

/-- The dropdown lists the countries of the table. -/
def PhoneEvent.Listed : PhoneEvent → Prop
  | .select c => c ∈ countries
  | .input _ | .given _ => True

theorem PhoneInput.Fits.step (h : st.Fits) {e : PhoneEvent} (he : e.Listed) :
    (phoneStep st e).Fits := by
  cases e with
  | select c => exact h.select he
  | input text => exact h.input text
  | given value => exact h.given value

theorem mount_fits (value : List Char) : (PhoneInput.mount value).Fits :=
  parseValue_fits defaultCountry_mem fun _ _ => ⟨fun _ hx => (by cases hx), Nat.zero_le _⟩

theorem run_fits (value : List Char) {es : List PhoneEvent}
    (hes : Along phoneStep (fun _ e => e.Listed) (.mount value) es) :
    (run phoneStep (.mount value) es).Fits :=
  run_invariant (fun _ _ h he => h.step he) (mount_fits value) hes

theorem PhoneInput.Fits.digitsOf_displayValue (h : st.Fits) :
    digitsOf st.displayValue = st.localDigits := by
  unfold PhoneInput.displayValue
  rw [digitsOf_applyMask h.digits (mask_isDigit h.country)]
  exact List.take_of_length_le (h.room.trans (countries_mask _ h.country).1)

/-- Whatever country is shown then, it has the mask of the one before. -/
theorem PhoneInput.Fits.input_display (h : st.Fits) (text : List Char) :
    (phoneStep st (.input text)).localDigits = (digitsOf text).take st.country.digits ∧
      (phoneStep st (.input text)).displayValue =
        applyMask ((digitsOf text).take st.country.digits) st.country.mask := by
  obtain ⟨first, _, hfirst, _⟩ := leader_of_mem Country.dial h.country
  have hdials : st.Dials st.country := ⟨h.country, rfl⟩
  obtain ⟨_, hdigits, _⟩ := input_spec h.country hfirst hdials text
  obtain ⟨hmem, hdial⟩ := input_dials h.country hfirst hdials text
  have hmask := (countries_agree _ hmem _ h.country hdial).2
  refine ⟨hdigits, ?_⟩
  unfold PhoneInput.displayValue
  rw [hdigits, hmask]

/-- A digit typed at the end is shown behind what was shown. -/
theorem PhoneInput.Fits.type_digit (h : st.Fits) {d : Char} (hd : d.isDigit = true) :
    (phoneStep st (.input (st.displayValue ++ [d]))).localDigits =
        (st.localDigits ++ [d]).take st.country.digits ∧
      st.displayValue <+: (phoneStep st (.input (st.displayValue ++ [d]))).displayValue := by
  have htext : digitsOf (st.displayValue ++ [d]) = st.localDigits ++ [d] := by
    have hone : digitsOf [d] = [d] := List.filter_cons_of_pos hd
    unfold digitsOf at hone ⊢
    rw [List.filter_append, hone]
    exact congrArg (· ++ [d]) h.digitsOf_displayValue
  obtain ⟨hdigits, hdisplay⟩ := h.input_display (st.displayValue ++ [d])
  rw [htext] at hdigits hdisplay
  refine ⟨hdigits, ?_⟩
  rw [hdisplay]
  refine applyMask_prefix _ ?_
  have hkept := List.take_prefix_take_left (l := st.localDigits ++ [d]) h.room
  rwa [List.take_left] at hkept

theorem digitsOf_dropLast {text : List Char} (h : ∀ x ∈ text.getLast?, x.isDigit = true) :
    digitsOf text.dropLast = (digitsOf text).dropLast := by
  rcases List.eq_nil_or_concat text with rfl | ⟨init, x, rfl⟩
  · rfl
  · rw [List.concat_eq_append, List.getLast?_concat] at h
    have hone : [x].filter Char.isDigit = [x] := List.filter_cons_of_pos (h x rfl)
    unfold digitsOf
    rw [List.concat_eq_append, List.dropLast_concat, List.filter_append, hone,
      List.dropLast_concat]

/-- The last character is a digit, so deleting it deletes the last digit, and the
separators before it go too. -/
theorem PhoneInput.Fits.delete_last (h : st.Fits) :
    (phoneStep st (.input st.displayValue.dropLast)).localDigits = st.localDigits.dropLast ∧
      (phoneStep st (.input st.displayValue.dropLast)).displayValue <+: st.displayValue := by
  have hends : ∀ x ∈ st.displayValue.getLast?, x.isDigit = true :=
    isDigit_of_getLast?_applyMask (countries_mask _ h.country).2.1 h.digits
  have htext : digitsOf st.displayValue.dropLast = st.localDigits.dropLast := by
    rw [digitsOf_dropLast hends]
    exact congrArg List.dropLast h.digitsOf_displayValue
  obtain ⟨hdigits, hdisplay⟩ := h.input_display st.displayValue.dropLast
  have hroom : st.localDigits.dropLast.length ≤ st.country.digits := by
    rw [List.length_dropLast]
    exact (Nat.sub_le _ _).trans h.room
  rw [htext, List.take_of_length_le hroom] at hdigits hdisplay
  refine ⟨hdigits, ?_⟩
  rw [hdisplay]
  exact applyMask_prefix _ (List.dropLast_prefix _)

end

end HotelMs
