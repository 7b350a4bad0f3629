import HotelMs.Lib.PrefixCodes
import HotelMs.Lib.Runs

/-!
# Phone numbers (`components/PhoneInput.jsx`)

The parent keeps the number and passes it back as `value`. The effect that
parses it runs when `value` has changed, whoever changed it.
-/

namespace HotelMs

open Runs PrefixCodes

structure Country where
  code : String
  dial : List Char
  digits : ℕ
  mask : List Char
  deriving DecidableEq

def country (code dial : String) (digits : ℕ) (mask : String) : Country :=
  ⟨code, dial.toList, digits, mask.toList⟩

def countries : List Country := [
  country "UZ" "+998" 9 "(XX) XXX-XX-XX",
  country "US" "+1" 10 "(XXX) XXX-XXXX",
  country "CA" "+1" 10 "(XXX) XXX-XXXX",
  country "GB" "+44" 10 "XXXX XXXXXX",
  country "RU" "+7" 10 "(XXX) XXX-XX-XX",
  country "KZ" "+7" 10 "(XXX) XXX-XX-XX",
  country "TR" "+90" 10 "(XXX) XXX XX XX",
  country "DE" "+49" 10 "XXX XXXXXXX",
  country "FR" "+33" 9 "X XX XX XX XX",
  country "IT" "+39" 10 "XXX XXX XXXX",
  country "ES" "+34" 9 "XXX XXX XXX",
  country "CN" "+86" 11 "XXX XXXX XXXX",
  country "IN" "+91" 10 "XXXXX XXXXX",
  country "PK" "+92" 10 "(XXX) XXXXXXX",
  country "AE" "+971" 9 "XX XXX XXXX",
  country "SA" "+966" 9 "XX XXX XXXX",
  country "KG" "+996" 9 "(XXX) XXX-XXX",
  country "TJ" "+992" 9 "XX XXX XXXX",
  country "TM" "+993" 8 "XXXX XXXX",
  country "AZ" "+994" 9 "XX XXX XXXX",
  country "GE" "+995" 9 "XXX XXX XXX",
  country "AM" "+374" 8 "XX XXXXXX",
  country "UA" "+380" 9 "(XX) XXX-XX-XX",
  country "BY" "+375" 9 "(XX) XXX-XX-XX",
  country "PL" "+48" 9 "XXX XXX XXX",
  country "NL" "+31" 9 "X XX XX XX XX",
  country "SE" "+46" 9 "XX XXX XXXX",
  country "NO" "+47" 8 "XXXX XXXX",
  country "AU" "+61" 9 "XXX XXX XXX",
  country "JP" "+81" 10 "XX XXXX XXXX",
  country "KR" "+82" 10 "XX XXXX XXXX",
  country "BR" "+55" 11 "(XX) XXXXX-XXXX",
  country "MX" "+52" 10 "XXX XXX XXXX",
  country "AR" "+54" 10 "(XXX) XXX-XXXX",
  country "ZA" "+27" 9 "XX XXX XXXX",
  country "EG" "+20" 10 "XXX XXX XXXX",
  country "NG" "+234" 10 "XXX XXX XXXX",
  country "SG" "+65" 8 "XXXX XXXX",
  country "MY" "+60" 9 "XX XXXX XXXX",
  country "ID" "+62" 10 "XXX XXXX XXXX",
  country "PH" "+63" 10 "XXX XXX XXXX",
  country "TH" "+66" 9 "XX XXX XXXX",
  country "IL" "+972" 9 "XX XXX XXXX"]

def defaultCountry : Country := countries.head (List.cons_ne_nil _ _)

/-- `replace(/\D/g, "")`. -/
def digitsOf (text : List Char) : List Char := text.filter Char.isDigit

def applyMask : List Char → List Char → List Char
  | [], _ => []
  | _ :: _, [] => []
  | d :: digits, m :: mask =>
    if m = 'X' then d :: applyMask digits mask else m :: applyMask (d :: digits) mask

def parseE164 (e164 : List Char) : Option (Country × List Char) :=
  if ['+'].isPrefixOf e164 then
    (decode Country.dial countries e164).map fun parsed => (parsed.1, digitsOf parsed.2)
  else none

/-! ### The component and its parent -/

structure PhoneInput where
  country : Country
  localDigits : List Char
  value : List Char
  deriving DecidableEq

/-- The effect on `value`. -/
def PhoneInput.parseValue (st : PhoneInput) : PhoneInput :=
  if st.value = [] then { st with localDigits := [] }
  else match parseE164 st.value with
    | some parsed =>
      { st with country := parsed.1, localDigits := parsed.2.take parsed.1.digits }
    | none => st

def PhoneInput.mount (value : List Char) : PhoneInput :=
  PhoneInput.parseValue ⟨defaultCountry, [], value⟩

/-- The parent passes `value` down; the effect runs if it is another one. -/
def PhoneInput.feed (st : PhoneInput) (value : List Char) : PhoneInput :=
  if value = st.value then st else PhoneInput.parseValue { st with value }

def emit (newCountry : Country) (newDigits : List Char) : List Char :=
  let digits := newDigits.take newCountry.digits
  if 0 < digits.length then newCountry.dial ++ digits else []

inductive PhoneEvent
  | select (c : Country)
  | input (text : List Char)
  | given (value : List Char)

def phoneStep (st : PhoneInput) : PhoneEvent → PhoneInput
  | .select c => { st with country := c }.feed (emit c st.localDigits)
  | .input text =>
    let raw := (digitsOf text).take st.country.digits
    { st with localDigits := raw }.feed (emit st.country raw)
  | .given value => st.feed value

def PhoneInput.displayValue (st : PhoneInput) : List Char :=
  applyMask st.localDigits st.country.mask

/-! ### The table -/

theorem defaultCountry_mem : defaultCountry ∈ countries := List.head_mem _

theorem countries_prefixFree : PrefixFree Country.dial countries := by
  decide +kernel

theorem countries_agree : ∀ c ∈ countries, ∀ c' ∈ countries, c.dial = c'.dial →
    c.digits = c'.digits ∧ c.mask = c'.mask := by
  decide +kernel

theorem countries_dial : ∀ c ∈ countries, ['+'].isPrefixOf c.dial = true := by
  decide +kernel

/-- A mask has an `X` for each digit, ends in one, and has no digits of its own. -/
theorem countries_mask : ∀ c ∈ countries, c.digits ≤ c.mask.count 'X' ∧
    c.mask.getLast? = some 'X' ∧ c.mask.all (fun x => !x.isDigit) = true := by
  decide +kernel

theorem mask_isDigit {c : Country} (hc : c ∈ countries) :
    ∀ m ∈ c.mask, m ≠ 'X' → m.isDigit = false := by
  intro m hm _
  have hall := List.all_eq_true.mp (countries_mask c hc).2.2 m hm
  exact (Bool.not_eq_true' _).mp hall

theorem digitsOf_eq_self {s : List Char} (h : ∀ x ∈ s, x.isDigit = true) : digitsOf s = s :=
  List.filter_eq_self.mpr h

theorem isDigit_take_digitsOf (text : List Char) (n : ℕ) :
    ∀ x ∈ (digitsOf text).take n, x.isDigit = true := fun _ hx =>
  (List.mem_filter.mp (List.mem_of_mem_take hx)).2

/-- The mask hides no digit that it has room for. -/
theorem digitsOf_applyMask {s mask : List Char} (hs : ∀ x ∈ s, x.isDigit = true)
    (hmask : ∀ m ∈ mask, m ≠ 'X' → m.isDigit = false) :
    digitsOf (applyMask s mask) = s.take (mask.count 'X') := by
  induction mask generalizing s with
  | nil =>
    cases s with
    | nil => rfl
    | cons d s => rfl
  | cons m mask ih =>
    have hrest : ∀ m' ∈ mask, m' ≠ 'X' → m'.isDigit = false :=
      fun m' hm' => hmask m' (List.mem_cons_of_mem m hm')
    cases s with
    | nil => exact List.take_nil.symm
    | cons d s =>
      by_cases hx : m = 'X'
      · have hd : d.isDigit = true := hs d List.mem_cons_self
        have htail := ih (fun x h => hs x (List.mem_cons_of_mem d h)) hrest
        rw [applyMask, if_pos hx, hx, List.count_cons_self, List.take_succ_cons, ← htail]
        exact List.filter_cons_of_pos hd
      · have hm : ¬m.isDigit = true := by
          rw [hmask m List.mem_cons_self hx]
          exact Bool.false_ne_true
        rw [applyMask, if_neg hx, List.count_cons_of_ne hx, ← ih hs hrest]
        exact List.filter_cons_of_neg hm

/-! ### What is emitted, and what comes of it -/

section

variable {c k first : Country} {ds : List Char} {st : PhoneInput}

theorem emit_eq_nil : emit c ds = [] ↔ ds.take c.digits = [] := by
  unfold emit
  simp only [List.length_pos_iff]
  by_cases h : ds.take c.digits = []
  · simp only [h, ne_eq, not_true_eq_false, if_false]
  · simp only [h, ne_eq, not_false_eq_true, if_true, iff_false]
    exact fun hnil => h (List.append_eq_nil_iff.mp hnil).2

theorem emit_of_ne_nil (h : ds.take c.digits ≠ []) : emit c ds = c.dial ++ ds.take c.digits := by
  unfold emit
  simp only [List.length_pos_iff, ne_eq, h, not_false_eq_true, if_true]

theorem emit_eq_iff {s : List Char} (hs : s ≠ []) :
    emit c ds = c.dial ++ s ↔ ds.take c.digits = s := by
  by_cases h : ds.take c.digits = []
  · rw [emit_eq_nil.mpr h, h]
    refine iff_of_false (fun hnil => ?_) (fun hnil => hs hnil.symm)
    exact hs (List.append_eq_nil_iff.mp hnil.symm).2
  · rw [emit_of_ne_nil h, List.append_cancel_left_eq]

theorem emit_take : emit c (ds.take c.digits) = emit c ds := by
  unfold emit
  rw [List.take_take, min_self]

theorem emit_congr (hdial : k.dial = c.dial) (hdigits : k.digits = c.digits) :
    emit k ds = emit c ds := by
  unfold emit
  rw [hdial, hdigits]

theorem parseE164_dial (hc : c ∈ countries) :
    parseE164 (c.dial ++ ds) =
      (leader Country.dial countries c).map fun b => (b, digitsOf ds) := by
  have hplus : ['+'].isPrefixOf (c.dial ++ ds) = true := by
    have hdial := List.isPrefixOf_iff_prefix.mp (countries_dial c hc)
    exact List.isPrefixOf_iff_prefix.mpr (hdial.trans (List.prefix_append _ _))
  unfold parseE164
  rw [if_pos hplus, countries_prefixFree.decode_append hc, Option.map_map]
  rfl

@[simp] theorem feed_value (value : List Char) : (st.feed value).value = value := by
  unfold PhoneInput.feed PhoneInput.parseValue
  split
  next h => exact h.symm
  next h =>
    split
    · rfl
    · split <;> rfl

theorem feed_of_eq (h : ds = st.value) : st.feed ds = st := if_pos h

theorem feed_nil (h : st.value ≠ []) :
    st.feed [] = { st with localDigits := [], value := [] } := by
  unfold PhoneInput.feed
  rw [if_neg (Ne.symm h)]
  rfl

/-- A value that has changed is parsed, and the first country of its dial code wins. -/
theorem feed_parsed (hc : c ∈ countries) (hfirst : leader Country.dial countries c = some first)
    (hne : emit c ds ≠ st.value) (hnil : emit c ds ≠ []) :
    (st.feed (emit c ds)).country = first ∧
      (st.feed (emit c ds)).localDigits = (digitsOf (ds.take c.digits)).take first.digits := by
  have hds : ds.take c.digits ≠ [] := fun h => hnil (emit_eq_nil.mpr h)
  unfold PhoneInput.feed PhoneInput.parseValue
  rw [if_neg hne]
  simp only [if_neg hnil]
  rw [emit_of_ne_nil hds, parseE164_dial hc, hfirst]
  exact ⟨rfl, rfl⟩

theorem feed_country (hc : c ∈ countries)
    (hfirst : leader Country.dial countries c = some first) :
    (st.feed (emit c ds)).country =
      if emit c ds = st.value ∨ emit c ds = [] then st.country else first := by
  by_cases hsame : emit c ds = st.value
  · rw [feed_of_eq hsame, if_pos (Or.inl hsame)]
  · by_cases hnil : emit c ds = []
    · rw [if_pos (Or.inr hnil)]
      rw [hnil] at hsame ⊢
      rw [feed_nil (Ne.symm hsame)]
    · rw [if_neg (not_or.mpr ⟨hsame, hnil⟩)]
      exact (feed_parsed hc hfirst hsame hnil).1

/-! ### A country is selected, a number typed -/

def PhoneInput.Dials (st : PhoneInput) (c : Country) : Prop :=
  st.country ∈ countries ∧ st.country.dial = c.dial

variable (hc : c ∈ countries) (hfirst : leader Country.dial countries c = some first)

include hc hfirst

theorem first_dials : first ∈ countries ∧ first.dial = c.dial := by
  obtain ⟨b, hb, hlead, hdial⟩ := leader_of_mem Country.dial hc
  obtain rfl := Option.some_inj.mp (hlead.symm.trans hfirst)
  exact ⟨hb, hdial⟩

theorem input_spec (h : st.Dials c) (text : List Char) :
    (phoneStep st (.input text)).value = emit c (digitsOf text) ∧
      (phoneStep st (.input text)).localDigits = (digitsOf text).take c.digits ∧
      (phoneStep st (.input text)).country =
        if emit c (digitsOf text) = st.value ∨ emit c (digitsOf text) = [] then st.country
        else first := by
  have hdigits := (countries_agree _ h.1 _ hc h.2).1
  have hemit : emit st.country ((digitsOf text).take st.country.digits) =
      emit c (digitsOf text) := by
    rw [emit_take, emit_congr h.2 hdigits]
  have hraw : digitsOf ((digitsOf text).take c.digits) = (digitsOf text).take c.digits :=
    digitsOf_eq_self (isDigit_take_digitsOf text _)
  simp only [phoneStep, hemit, feed_value, feed_country hc hfirst, and_true, true_and]
  rw [hdigits]
  generalize hst : ({ st with localDigits := (digitsOf text).take c.digits } : PhoneInput) = st₁
  by_cases hsame : emit c (digitsOf text) = st₁.value
  · rw [feed_of_eq hsame, ← hst]
  · by_cases hnil : emit c (digitsOf text) = []
    · rw [hnil] at hsame ⊢
      rw [feed_nil (Ne.symm hsame), emit_eq_nil.mp hnil]
    · have hparsed := feed_parsed hc hfirst hsame hnil
      have hwide := (countries_agree _ (first_dials hc hfirst).1 _ hc (first_dials hc hfirst).2).1
      rw [hparsed.2, hraw, hwide, List.take_take, min_self]

theorem input_dials (h : st.Dials c) (text : List Char) :
    (phoneStep st (.input text)).Dials c := by
  have hcountry := (input_spec hc hfirst h text).2.2
  unfold PhoneInput.Dials
  rw [hcountry]
  split
  · exact h
  · exact first_dials hc hfirst

theorem inputs_dials (h : st.Dials c) (texts : List (List Char)) :
    (run phoneStep st (texts.map .input)).Dials c := by
  induction texts generalizing st with
  | nil => exact h
  | cons text texts ih => exact ih (input_dials hc hfirst h text)

/-- The first country of a dial code, once shown, stays. -/
theorem inputs_first (h : st.country = first) (texts : List (List Char)) :
    (run phoneStep st (texts.map .input)).country = first := by
  induction texts generalizing st with
  | nil => exact h
  | cons text texts ih =>
    have hdials : st.Dials c := by
      unfold PhoneInput.Dials
      rw [h]
      exact first_dials hc hfirst
    refine ih ?_
    rw [(input_spec hc hfirst hdials text).2.2, h, ite_self]

theorem input_changed (h : st.country = c) {text : List Char} (rest : List (List Char))
    (hne : emit c (digitsOf text) ≠ st.value) (hnil : emit c (digitsOf text) ≠ []) :
    (run phoneStep st ((text :: rest).map .input)).country = first := by
  have hdials : st.Dials c := ⟨by rw [h]; exact hc, by rw [h]⟩
  refine inputs_first hc hfirst ?_ rest
  rw [(input_spec hc hfirst hdials text).2.2, if_neg (not_or.mpr ⟨hne, hnil⟩)]

/-- Another one stays only while the value stays. -/
theorem inputs_country (hother : first ≠ c) (h : st.country = c) (texts : List (List Char))
    {last : List Char} (hlast : emit c (digitsOf last) ≠ []) :
    (run phoneStep st ((texts ++ [last]).map .input)).country = c ↔
      ∀ text ∈ texts ++ [last], emit c (digitsOf text) = st.value := by
  induction texts generalizing st with
  | nil =>
    have hdials : st.Dials c := ⟨by rw [h]; exact hc, by rw [h]⟩
    simp only [List.nil_append, List.mem_singleton, forall_eq]
    by_cases hsame : emit c (digitsOf last) = st.value
    · refine iff_of_true ?_ hsame
      rw [List.map_singleton, run_cons, run_nil, (input_spec hc hfirst hdials last).2.2,
        if_pos (Or.inl hsame), h]
    · refine iff_of_false (fun hcountry => ?_) hsame
      exact hother ((input_changed hc hfirst h [] hsame hlast).symm.trans hcountry)
  | cons text texts ih =>
    have hdials : st.Dials c := ⟨by rw [h]; exact hc, by rw [h]⟩
    obtain ⟨hvalue, _, hcountry⟩ := input_spec hc hfirst hdials text
    rw [List.cons_append, List.forall_mem_cons]
    by_cases hkept : emit c (digitsOf text) = st.value ∨ emit c (digitsOf text) = []
    · rw [if_pos hkept, h] at hcountry
      rw [List.map_cons, run_cons, ih hcountry, hvalue]
      rcases hkept with hsame | hnil
      · rw [hsame]
        exact ⟨fun hall => ⟨rfl, hall⟩, fun hall => hall.2⟩
      · have hmem : last ∈ texts ++ [last] := List.mem_append_right _ (List.mem_singleton_self _)
        constructor
        · intro hall
          exact absurd ((hall last hmem).trans hnil) hlast
        · intro hall
          exact fun t ht => (hall.2 t ht).trans hall.1.symm
    · obtain ⟨hne, hnil⟩ := not_or.mp hkept
      refine iff_of_false (fun hc' => ?_) (fun hall => hne hall.1)
      exact hother ((input_changed hc hfirst h (texts ++ [last]) hne hnil).symm.trans hc')

variable (st) in
theorem select_country :
    (phoneStep st (.select c)).country =
      if emit c st.localDigits = st.value ∨ emit c st.localDigits = [] then c else first := by
  simp only [phoneStep, feed_country hc hfirst]

end

/-! ### The echo -/

def FirstOfDial (c : Country) : Prop := leader Country.dial countries c = some c

instance (c : Country) : Decidable (FirstOfDial c) :=
  inferInstanceAs (Decidable (_ = _))

/-- The component had the number already, and no keystroke changed it. -/
structure Unchanged (st : PhoneInput) (c : Country) (s : List Char) (texts : List (List Char)) :
    Prop where
  value : st.value = c.dial ++ s
  localDigits : st.localDigits.take c.digits = s
  typed : ∀ text ∈ texts, (digitsOf text).take c.digits = s

structure Echoed (st : PhoneInput) (c : Country) (s : List Char) : Prop where
  value : st.value = c.dial ++ s
  country : st.country = c
  localDigits : st.localDigits = s
  display : digitsOf st.displayValue = s

def types (c : Country) (texts : List (List Char)) : List PhoneEvent :=
  .select c :: texts.map .input

/-- The number always survives; the country is the question. -/
theorem echoed_iff_country {st : PhoneInput} {c : Country} {s : List Char} (hc : c ∈ countries)
    (hs : s ≠ []) (hlen : s.length ≤ c.digits) (texts : List (List Char)) {last : List Char}
    (hlast : digitsOf last = s) :
    Echoed (run phoneStep st (types c (texts ++ [last]))) c s ↔
      (run phoneStep st (types c (texts ++ [last]))).country = c := by
  obtain ⟨first, hmem, hfirst, hdial⟩ := leader_of_mem Country.dial hc
  have hselected : (phoneStep st (.select c)).Dials c := by
    unfold PhoneInput.Dials
    rw [select_country st hc hfirst]
    split
    · exact ⟨hc, rfl⟩
    · exact ⟨hmem, hdial⟩
  have hrun : run phoneStep st (types c (texts ++ [last])) =
      phoneStep (run phoneStep (phoneStep st (.select c)) (texts.map .input)) (.input last) := by
    rw [types, run_cons, List.map_append, run_append]
    rfl
  have hspec := input_spec hc hfirst (inputs_dials hc hfirst hselected texts) last
  rw [← hrun] at hspec
  have htake : (digitsOf last).take c.digits = s := by rw [hlast, List.take_of_length_le hlen]
  have hdigits : ∀ x ∈ s, x.isDigit = true := htake ▸ isDigit_take_digitsOf last c.digits
  obtain ⟨hroom, _, _⟩ := countries_mask c hc
  refine ⟨fun h => h.country, fun hcountry => ⟨?_, hcountry, ?_, ?_⟩⟩
  · rw [hspec.1, (emit_eq_iff hs).mpr htake]
  · rw [hspec.2.1, htake]
  · unfold PhoneInput.displayValue
    rw [hspec.2.1, htake, hcountry]
    rw [digitsOf_applyMask hdigits (mask_isDigit hc),
      List.take_of_length_le (hlen.trans hroom)]

theorem echoed_iff (st : PhoneInput) {c : Country} (hc : c ∈ countries) {s : List Char}
    (hs : s ≠ []) (hlen : s.length ≤ c.digits) (texts : List (List Char)) {last : List Char}
    (hlast : digitsOf last = s) :
    Echoed (run phoneStep st (types c (texts ++ [last]))) c s ↔
      FirstOfDial c ∨ Unchanged st c s texts := by
  rw [echoed_iff_country hc hs hlen texts hlast]
  obtain ⟨first, hmem, hfirst, hdial⟩ := leader_of_mem Country.dial hc
  have htake : (digitsOf last).take c.digits = s := by rw [hlast, List.take_of_length_le hlen]
  have hemit : emit c (digitsOf last) = c.dial ++ s := (emit_eq_iff hs).mpr htake
  have hne : emit c (digitsOf last) ≠ [] := fun h => hs (htake.symm.trans (emit_eq_nil.mp h))
  have hcountry := select_country st hc hfirst
  have hvalue : (phoneStep st (.select c)).value = emit c st.localDigits := feed_value _
  rw [types, run_cons]
  by_cases hself : first = c
  · rw [hself, ite_self] at hcountry
    refine iff_of_true ?_ (Or.inl (hself ▸ hfirst))
    rw [hself] at hfirst
    exact inputs_first hc hfirst hcountry _
  have hnot : ¬FirstOfDial c := fun h => hself (Option.some_inj.mp (hfirst.symm.trans h))
  simp only [hnot, false_or]
  by_cases hkept : emit c st.localDigits = st.value ∨ emit c st.localDigits = []
  · rw [if_pos hkept] at hcountry
    rw [inputs_country hc hfirst hself hcountry texts hne, hvalue]
    constructor
    · intro hall
      have hshown : emit c st.localDigits = c.dial ++ s :=
        (hall last (List.mem_append_right _ (List.mem_singleton_self _))).symm.trans hemit
      have hsome : emit c st.localDigits ≠ [] := by
        rw [hshown, ← hemit]
        exact hne
      refine ⟨(hkept.resolve_right hsome).symm.trans hshown, (emit_eq_iff hs).mp hshown, ?_⟩
      intro text htext
      exact (emit_eq_iff hs).mp ((hall text (List.mem_append_left _ htext)).trans hshown)
    · intro h
      rw [(emit_eq_iff hs).mpr h.localDigits]
      intro text htext
      rcases List.mem_append.mp htext with hold | hnew
      · exact (emit_eq_iff hs).mpr (h.typed text hold)
      · rw [List.mem_singleton.mp hnew, hemit]
  · rw [if_neg hkept] at hcountry
    refine iff_of_false (fun h => ?_) (fun h => hkept (Or.inl ?_))
    · exact hself ((inputs_first hc hfirst hcountry (texts ++ [last])).symm.trans h)
    · rw [(emit_eq_iff hs).mpr h.localDigits, h.value]

/-- Every country but two can be selected for good. -/
theorem firstOfDial_iff : ∀ c ∈ countries, FirstOfDial c ↔ c.code ≠ "CA" ∧ c.code ≠ "KZ" := by
  decide +kernel

theorem echoed_default :
    Echoed (run phoneStep (.mount []) (types defaultCountry (["9".toList] ++ ["(9)0".toList])))
      defaultCountry "90".toList :=
  (echoed_iff (.mount []) defaultCountry_mem (by decide) (by decide) ["9".toList]
    (by decide)).mpr (Or.inl (by decide +kernel))

def canada : Country := country "CA" "+1" 10 "(XXX) XXX-XXXX"

/-- Canada is selected, one digit typed, and the United States are shown. -/
theorem canada_lost :
    canada ∈ countries ∧
      ¬Echoed (run phoneStep (.mount []) (types canada ["5".toList])) canada "5".toList := by
  have hc : canada ∈ countries := by decide +kernel
  have hfirst : leader Country.dial countries canada =
      some (country "US" "+1" 10 "(XXX) XXX-XXXX") := by decide +kernel
  have hselected : (phoneStep (.mount []) (.select canada)).country = canada :=
    (select_country _ hc hfirst).trans (if_pos (Or.inr rfl))
  have hne : emit canada (digitsOf "5".toList) ≠
      (phoneStep (.mount []) (.select canada)).value := by decide
  have hshown := input_changed hc hfirst hselected [] hne (by decide)
  refine ⟨hc, fun h => ?_⟩
  have hsame := hshown.symm.trans h.country
  exact absurd hsame (by decide)

end HotelMs
