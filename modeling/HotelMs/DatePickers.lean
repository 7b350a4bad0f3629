import HotelMs.Schemas
import HotelMs.Lib.Calendar
import HotelMs.Lib.Runs

/-!
# Date pickers (`DateRangePicker.jsx`, `SingleDatePicker.jsx`)

A day is decoded as local midnight and printed as a UTC day. `offset` is what
local time is ahead of UTC, in milliseconds; days are numbered as in the store.
`BookingSearchBar.jsx` has the same functions under other names.
-/

namespace HotelMs

open Calendar Runs

/-! ### `Date` -/

def msPerDay : ℤ := 86400000

/-- 1970-01-01 -/
def epochDay : ℤ := 719163

/-- The time value of a `Date`; `none` is `NaN`. -/
abbrev JsDate := Option ℤ

def timeClip (t : ℤ) : JsDate := if t.natAbs ≤ 8640000000000000 then some t else none

/-- A comparison with `NaN` is false. -/
def JsDate.lt : JsDate → JsDate → Bool
  | some t, some u => decide (t < u)
  | _, _ => false

section

variable (offset : ℤ)

def localDay (n : ℤ) : JsDate := timeClip ((n - epochDay) * msPerDay - offset)

/-- `setHours(0,0,0,0)` -/
def sod (d : JsDate) : JsDate :=
  d.bind fun t => timeClip ((t + offset) / msPerDay * msPerDay - offset)

/-- The outer `none` is `null`. -/
def toDate (str : List Char) : Option JsDate :=
  if str = [] then none
  else some (sod offset ((readDate str).bind fun c => localDay offset c.ordinal))

/-- `none`: `toISOString` of an invalid date throws. -/
def toStr : Option JsDate → Option (List Char)
  | none => some []
  | some none => none
  | some (some t) => some (isoText (t / msPerDay + epochDay))

def cellDate (n : ℤ) : JsDate := sod offset (localDay offset n)

end

/-! ### The component -/

structure StayDates where
  checkIn : List Char
  checkOut : List Char
  deriving DecidableEq

/-- `emitted` collects the arguments of `onChange`, which the parent feeds back. -/
structure Picker where
  stay : StayDates
  pickingEnd : Bool
  emitted : List StayDates

def Picker.onChange (p : Picker) (stay : StayDates) (pickingEnd : Bool) : Picker :=
  ⟨stay, pickingEnd, p.emitted ++ [stay]⟩

section

variable (offset : ℤ)

/-- An exception leaves the state as it was. -/
def handleDay (p : Picker) (date : JsDate) : Picker :=
  match toDate offset p.stay.checkIn, p.pickingEnd with
  | some ciDate, true =>
    if JsDate.lt date ciDate then
      match toStr (some date) with
      | some checkIn => p.onChange ⟨checkIn, []⟩ true
      | none => p
    else
      match toStr (some ciDate), toStr (some date) with
      | some checkIn, some checkOut => p.onChange ⟨checkIn, checkOut⟩ false
      | _, _ => p
  | _, _ =>
    match toStr (some date) with
    | some checkIn => p.onChange ⟨checkIn, []⟩ true
    | none => p

inductive PickerEvent
  | day (n : ℤ)
  | clear

/-- Past days are disabled, and ✕ is there when a date is set. -/
def pickerStep (today : ℤ) (p : Picker) : PickerEvent → Picker
  | .day n =>
    if JsDate.lt (cellDate offset n) (cellDate offset today) then p
    else handleDay offset p (cellDate offset n)
  | .clear =>
    if p.stay.checkIn ≠ [] ∨ p.stay.checkOut ≠ [] then p.onChange ⟨[], []⟩ false else p

end

def cleared : Picker := ⟨⟨[], []⟩, false, []⟩

/-! ### Days and their texts -/

/-- The local midnight is a time value. -/
def Representable (offset n : ℤ) : Prop :=
  ((n - epochDay) * msPerDay - offset).natAbs ≤ 8640000000000000

instance (offset n : ℤ) : Decidable (Representable offset n) := inferInstanceAs (Decidable (_ ≤ _))

def OffsetRange (offset : ℤ) : Prop := -(12 * 3600000) ≤ offset ∧ offset ≤ 14 * 3600000

instance (offset : ℤ) : Decidable (OffsetRange offset) := inferInstanceAs (Decidable (_ ∧ _))

theorem isoText_ne_nil (n : ℤ) : isoText n ≠ [] := by
  unfold isoText Date.text
  exact List.append_ne_nil_of_right_ne_nil _ (List.cons_ne_nil _ _)

section

variable {offset n : ℤ}

theorem Representable.natAbs_le (ho : OffsetRange offset) (h : Representable offset n) :
    n.natAbs ≤ 2 * 10 ^ 8 := by
  obtain ⟨hlow, hhigh⟩ := ho
  unfold Representable epochDay msPerDay at h
  omega

theorem localDay_eq (h : Representable offset n) :
    localDay offset n = some ((n - epochDay) * msPerDay - offset) := if_pos h

theorem cellDate_eq (h : Representable offset n) :
    cellDate offset n = some ((n - epochDay) * msPerDay - offset) := by
  have hmidnight : ((n - epochDay) * msPerDay - offset + offset) / msPerDay = n - epochDay := by
    rw [Int.sub_add_cancel]
    exact Int.mul_ediv_cancel _ (by decide)
  rw [cellDate, localDay_eq h, sod, Option.bind_some, hmidnight]
  exact if_pos h

theorem cellDate_eq_none (h : ¬Representable offset n) : cellDate offset n = none := by
  have hclip : localDay offset n = none := if_neg h
  rw [cellDate, hclip]
  rfl

theorem toDate_isoText (ho : OffsetRange offset) (h : Representable offset n) :
    toDate offset (isoText n) = some (cellDate offset n) := by
  have hbound := h.natAbs_le ho
  have hread := readDate_isoText (natAbs_year_lt (hbound.trans (by decide)))
  obtain ⟨c, hc, hn⟩ := Option.map_eq_some_iff.mp hread
  rw [toDate, if_neg (isoText_ne_nil n), hc, Option.bind_some, hn, cellDate]

/-- West of Greenwich and in UTC a local midnight has the same UTC day, east of
it the day before. -/
theorem toStr_cellDate (ho : OffsetRange offset) (h : Representable offset n) :
    toStr (some (cellDate offset n)) = some (isoText (if offset ≤ 0 then n else n - 1)) := by
  obtain ⟨hlow, hhigh⟩ := ho
  rw [cellDate_eq h, toStr]
  congr 2
  unfold msPerDay epochDay
  split <;> omega

theorem cellDate_lt {m : ℤ} (hm : Representable offset m) (hn : Representable offset n) :
    JsDate.lt (cellDate offset m) (cellDate offset n) = decide (m < n) := by
  rw [cellDate_eq hm, cellDate_eq hn, JsDate.lt, decide_eq_decide]
  unfold msPerDay
  omega

theorem toStr_toDate_iff (ho : OffsetRange offset) (h : Representable offset n) :
    toStr (toDate offset (isoText n)) = some (isoText n) ↔ offset ≤ 0 := by
  rw [toDate_isoText ho h, toStr_cellDate ho h, Option.some_inj]
  constructor
  · intro hsame
    by_contra hahead
    rw [if_neg hahead] at hsame
    have hbound := h.natAbs_le ho
    have hback := isoText_injective (by omega) (by omega) hsame
    omega
  · intro hle
    rw [if_pos hle]

/-! ### Clicks -/

theorem pickerStep_day {today : ℤ} (ht : Representable offset today)
    (hn : Representable offset n) (hle : today ≤ n) (p : Picker) :
    pickerStep offset today p (.day n) = handleDay offset p (cellDate offset n) := by
  have hopen : JsDate.lt (cellDate offset n) (cellDate offset today) = false := by
    rw [cellDate_lt hn ht, decide_eq_false_iff_not]
    omega
  rw [pickerStep, hopen]
  rfl

theorem handleDay_start (ho : OffsetRange offset) (hn : Representable offset n) {p : Picker}
    (h : p.stay.checkIn = [] ∨ p.pickingEnd = false) :
    handleDay offset p (cellDate offset n) =
      p.onChange ⟨isoText (if offset ≤ 0 then n else n - 1), []⟩ true := by
  unfold handleDay
  rw [toStr_cellDate ho hn]
  rcases h with h | h
  · rw [h]
    rfl
  · rw [h]
    cases toDate offset p.stay.checkIn <;> rfl

theorem handleDay_end (ho : OffsetRange offset) (hn : Representable offset n) {p : Picker} {a : ℤ}
    (ha : Representable offset a) (hstay : p.stay.checkIn = isoText a) (hp : p.pickingEnd = true) :
    handleDay offset p (cellDate offset n) =
      if n < a then p.onChange ⟨isoText (if offset ≤ 0 then n else n - 1), []⟩ true
      else p.onChange ⟨isoText (if offset ≤ 0 then a else a - 1),
        isoText (if offset ≤ 0 then n else n - 1)⟩ false := by
  unfold handleDay
  rw [hstay, toDate_isoText ho ha, hp]
  dsimp only
  rw [cellDate_lt hn ha, toStr_cellDate ho hn, toStr_cellDate ho ha]
  by_cases hlt : n < a
  · rw [if_pos (decide_eq_true hlt), if_pos hlt]
  · rw [if_neg (by rw [decide_eq_true_iff]; exact hlt), if_neg hlt]

/-- What a second click emits last has its own UTC day for a check-out, or none. -/
theorem checkOut_handleDay (ho : OffsetRange offset) (hn : Representable offset n) {p : Picker}
    (hlast : ∀ stay ∈ p.emitted.getLast?, stay.checkOut = []) {stay : StayDates}
    (h : stay ∈ (handleDay offset p (cellDate offset n)).emitted.getLast?) :
    stay.checkOut = [] ∨ stay.checkOut = isoText (if offset ≤ 0 then n else n - 1) := by
  have hemit : ∀ (s : StayDates) (b : Bool), stay ∈ (p.onChange s b).emitted.getLast? →
      s = stay := by
    intro s b hs
    rw [Picker.onChange, List.getLast?_concat] at hs
    exact Option.some_inj.mp hs
  unfold handleDay at h
  rw [toStr_cellDate ho hn] at h
  split at h
  · split at h
    · exact Or.inl (hemit _ _ h ▸ rfl)
    · split at h
      next heq =>
        cases heq
        exact Or.inr (hemit _ _ h ▸ rfl)
      next => exact Or.inl (hlast stay h)
  · exact Or.inl (hemit _ _ h ▸ rfl)

end

/-! ### The day that was clicked -/

/-- Two clicks on a cleared picker end with the two days. -/
def ReturnsClicked (offset today a b : ℤ) : Prop :=
  (run (pickerStep offset today) cleared [.day a, .day b]).emitted.getLast? =
    some ⟨isoText a, isoText b⟩

theorem returnsClicked_of_behind {offset today a b : ℤ} (ho : OffsetRange offset)
    (ht : Representable offset today) (ha : Representable offset a)
    (hb : Representable offset b) (hfrom : today ≤ a)
    (hlater : a < b) (hle : offset ≤ 0) : ReturnsClicked offset today a b := by
  unfold ReturnsClicked
  rw [run_cons, run_cons, run_nil, pickerStep_day ht ha hfrom,
    handleDay_start ho ha (Or.inl rfl), if_pos hle, pickerStep_day ht hb (by omega),
    handleDay_end ho hb ha rfl rfl, if_neg (by omega), if_pos hle, if_pos hle]
  rfl

theorem not_returnsClicked_of_ahead {offset today a b : ℤ} (ho : OffsetRange offset)
    (ht : Representable offset today) (ha : Representable offset a)
    (hb : Representable offset b) (hfrom : today ≤ a)
    (hlater : a < b) (hahead : ¬offset ≤ 0) : ¬ReturnsClicked offset today a b := by
  unfold ReturnsClicked
  intro hlast
  rw [run_cons, run_cons, run_nil, pickerStep_day ht ha hfrom,
    handleDay_start ho ha (Or.inl rfl), pickerStep_day ht hb (by omega)] at hlast
  have hopen : ∀ stay ∈ (cleared.onChange
      ⟨isoText (if offset ≤ 0 then a else a - 1), []⟩ true).emitted.getLast?,
      stay.checkOut = [] := by
    intro stay hstay
    cases hstay
    rfl
  rcases checkOut_handleDay ho hb hopen hlast with hnone | hday
  · exact isoText_ne_nil b hnone
  · rw [if_neg hahead] at hday
    have hbound := hb.natAbs_le ho
    have hback := isoText_injective (by omega) (by omega) hday
    omega

/-- Both parts hold at exactly the offsets that are not ahead of UTC. -/
theorem pickers_return_day_iff {offset today n a b : ℤ} (ho : OffsetRange offset)
    (ht : Representable offset today) (hn : Representable offset n) (ha : Representable offset a)
    (hb : Representable offset b) (hfrom : today ≤ a) (hlater : a < b) :
    (toStr (toDate offset (isoText n)) = some (isoText n) ↔ offset ≤ 0) ∧
    (ReturnsClicked offset today a b ↔ offset ≤ 0) := by
  refine ⟨toStr_toDate_iff ho hn, fun h => ?_, ?_⟩
  · by_contra hahead
    exact not_returnsClicked_of_ahead ho ht ha hb hfrom hlater hahead h
  · exact returnsClicked_of_behind ho ht ha hb hfrom hlater

theorem pickers_return_day_new_york :
    (toStr (toDate (-18000000) (isoText 738945)) = some (isoText 738945) ↔ (-18000000 : ℤ) ≤ 0) ∧
    (ReturnsClicked (-18000000) 738800 738885 738886 ↔ (-18000000 : ℤ) ≤ 0) :=
  pickers_return_day_iff (by decide) (by decide) (by decide) (by decide) (by decide) (by decide)
    (by decide)

/-- Two hours ahead of UTC, 1 June is printed as 31 May. -/
theorem clicks_return_days_before :
    toStr (toDate 7200000 (isoText 739038)) ≠ some (isoText 739038) ∧
    ¬ReturnsClicked 7200000 739038 739038 739040 := by
  unfold ReturnsClicked
  decide +kernel

example : (run (pickerStep 7200000 739038) cleared [.day 739038, .day 739040]).emitted =
    [⟨"2024-05-31".toList, []⟩, ⟨"2024-05-30".toList, "2024-06-02".toList⟩] := by
  decide +kernel

/-! ### What the picker emits in UTC -/

/-- A `date` field of the request. -/
def pyDate (text : List Char) : Option ℤ :=
  (readDate text).bind fun c =>
    if (1 ≤ c.year ∧ c.year ≤ 9999) ∧ c.text = text then some c.ordinal else none

def StayDates.Accepted (stay : StayDates) : Prop :=
  ∃ data : BookingCreate, pyDate stay.checkIn = some data.checkIn ∧
    pyDate stay.checkOut = some data.checkOut

/-- Every pair of two dates that was emitted makes a `BookingCreate`. -/
def EmitsAccepted (p : Picker) : Prop :=
  ∀ stay ∈ p.emitted, stay.checkIn ≠ [] → stay.checkOut ≠ [] → stay.Accepted

/-- The day that ends a stay is after its first day, and not after the year 9999. -/
def EndsLater (today : ℤ) (p : Picker) : PickerEvent → Prop
  | .day n => p.pickingEnd = true → today ≤ n → Representable 0 n →
      ∀ a, (readDate p.stay.checkIn).map Date.ordinal = some a → a ≤ n → a < n ∧ n ≤ 3652059
  | .clear => True

/-- While the end is picked, the check-in is a day that could be clicked. -/
def PickingFrom (today : ℤ) (p : Picker) : Prop :=
  p.pickingEnd = true → ∃ a, today ≤ a ∧ Representable 0 a ∧ p.stay.checkIn = isoText a

theorem pyDate_isoText {n : ℤ} (h : n.natAbs ≤ 3 * 10 ^ 8) :
    pyDate (isoText n) = if 1 ≤ n ∧ n ≤ 3652059 then some n else none := by
  have hread : readDate (isoText n) = some (dateOf n) :=
    readDate_text (dateOf_valid n) (natAbs_year_lt h)
  have hyears : (1 ≤ (dateOf n).year ∧ (dateOf n).year ≤ 9999) ↔ 1 ≤ n ∧ n ≤ 3652059 := by
    obtain ⟨hlow, hhigh⟩ := yearOf_spec n
    have hfirst : yearStart 1 = 0 := rfl
    have hlast : yearStart 10000 = 3652059 := rfl
    show 1 ≤ yearOf n ∧ yearOf n ≤ 9999 ↔ _
    constructor
    · rintro ⟨hy, hy'⟩
      have hbelow := yearStart_mono hy
      have habove := yearStart_mono (show yearOf n + 1 ≤ 10000 by omega)
      omega
    · rintro ⟨hn, hn'⟩
      constructor
      · by_contra hy
        have hbelow := yearStart_mono (show yearOf n + 1 ≤ 1 by omega)
        omega
      · by_contra hy
        have habove := yearStart_mono (show 10000 ≤ yearOf n by omega)
        omega
  rw [pyDate, hread, Option.bind_some, ordinal_dateOf]
  by_cases hn : 1 ≤ n ∧ n ≤ 3652059
  · rw [if_pos hn, if_pos ⟨hyears.mpr hn, rfl⟩]
  · rw [if_neg hn, if_neg fun hboth => hn (hyears.mp hboth.1)]

theorem accepted_iff {a n : ℤ} (ha : a.natAbs ≤ 3 * 10 ^ 8) (hn : n.natAbs ≤ 3 * 10 ^ 8)
    (hpos : 1 ≤ a) : StayDates.Accepted ⟨isoText a, isoText n⟩ ↔ a < n ∧ n ≤ 3652059 := by
  unfold StayDates.Accepted
  simp only [pyDate_isoText ha, pyDate_isoText hn]
  constructor
  · rintro ⟨data, hin, hout⟩
    have hrange := data.validate_date_range
    split at hin
    · split at hout
      next hbound =>
        cases hin
        cases hout
        exact ⟨hrange, hbound.2⟩
      next => cases hout
    · cases hin
  · rintro ⟨hlt, hle⟩
    refine ⟨⟨a, n, 0, hlt⟩, if_pos ⟨hpos, ?_⟩, if_pos ⟨?_, hle⟩⟩
    · omega
    · omega

section

variable {today : ℤ}

theorem utcRange : OffsetRange 0 := by decide

theorem emitsAccepted_onChange_open {p : Picker} {checkIn : List Char} {b : Bool}
    (h : EmitsAccepted p) : EmitsAccepted (p.onChange ⟨checkIn, []⟩ b) := by
  intro stay hstay hin hout
  rcases List.mem_append.mp hstay with hold | hnew
  · exact h stay hold hin hout
  · rw [List.mem_singleton.mp hnew] at hout
    exact absurd rfl hout

theorem emitsAccepted_onChange_pair {p : Picker} {a n : ℤ} {b : Bool} (h : EmitsAccepted p) :
    EmitsAccepted (p.onChange ⟨isoText a, isoText n⟩ b) ↔
      StayDates.Accepted ⟨isoText a, isoText n⟩ := by
  constructor
  · intro hall
    exact hall _ (List.mem_append_right _ (List.mem_singleton.mpr rfl)) (isoText_ne_nil a)
      (isoText_ne_nil n)
  · intro hpair stay hstay hin hout
    rcases List.mem_append.mp hstay with hold | hnew
    · exact h stay hold hin hout
    · rw [List.mem_singleton.mp hnew]
      exact hpair

/-- A past day, or one that no `Date` can hold, changes nothing. -/
theorem pickerStep_ignored (ht : Representable 0 today) {p : Picker} {n : ℤ}
    (h : Representable 0 n → n < today) : pickerStep 0 today p (.day n) = p := by
  by_cases hn : Representable 0 n
  · have hpast : JsDate.lt (cellDate 0 n) (cellDate 0 today) = true := by
      rw [cellDate_lt hn ht, decide_eq_true_iff]
      exact h hn
    rw [pickerStep, if_pos hpast]
  · rw [pickerStep, cellDate_eq_none hn]
    show handleDay 0 p none = p
    unfold handleDay
    split
    · show (match toStr (some _), (none : Option (List Char)) with
        | some checkIn, some checkOut => p.onChange ⟨checkIn, checkOut⟩ false
        | _, _ => p) = p
      split
      next heq => cases heq
      next => rfl
    · rfl

theorem pickerStep_open (ht : Representable 0 today) {p : Picker} {n : ℤ}
    (hn : Representable 0 n) (hle : today ≤ n) (hp : p.pickingEnd = false) :
    pickerStep 0 today p (.day n) = p.onChange ⟨isoText n, []⟩ true := by
  rw [pickerStep_day ht hn hle, handleDay_start utcRange hn (Or.inr hp), if_pos le_rfl]

theorem pickerStep_end (ht : Representable 0 today) {p : Picker} {a n : ℤ}
    (hn : Representable 0 n) (hle : today ≤ n) (ha : Representable 0 a)
    (hstay : p.stay.checkIn = isoText a) (hp : p.pickingEnd = true) :
    pickerStep 0 today p (.day n) = if n < a then p.onChange ⟨isoText n, []⟩ true
      else p.onChange ⟨isoText a, isoText n⟩ false := by
  rw [pickerStep_day ht hn hle, handleDay_end utcRange hn ha hstay hp, if_pos le_rfl,
    if_pos le_rfl]

theorem endsLater_day {p : Picker} {a n : ℤ} (hn : Representable 0 n) (hle : today ≤ n)
    (ha : Representable 0 a) (hstay : p.stay.checkIn = isoText a) (hp : p.pickingEnd = true) :
    EndsLater today p (.day n) ↔ (a ≤ n → a < n ∧ n ≤ 3652059) := by
  have habound := ha.natAbs_le utcRange
  have hread : (readDate p.stay.checkIn).map Date.ordinal = some a := by
    rw [hstay]
    exact readDate_isoText (natAbs_year_lt (by omega))
  constructor
  · exact fun hall => hall hp hle hn a hread
  · intro hall _ _ _ a' ha'
    rw [hread] at ha'
    cases ha'
    exact hall

/-- A click or a clear begins anew, ends the stay, or does nothing. -/
theorem pickerStep_cases (ht : Representable 0 today) {p : Picker} (hpick : PickingFrom today p)
    (e : PickerEvent) :
    (∃ checkIn picking, pickerStep 0 today p e = p.onChange ⟨checkIn, []⟩ picking ∧
      (picking = true → ∃ n, today ≤ n ∧ Representable 0 n ∧ checkIn = isoText n) ∧
      EndsLater today p e) ∨
    (∃ a n, today ≤ a ∧ Representable 0 a ∧ Representable 0 n ∧
      pickerStep 0 today p e = p.onChange ⟨isoText a, isoText n⟩ false ∧
      (EndsLater today p e ↔ a < n ∧ n ≤ 3652059)) ∨
    pickerStep 0 today p e = p ∧ EndsLater today p e := by
  cases e with
  | clear =>
    rw [pickerStep]
    split
    · exact Or.inl ⟨[], false, rfl, fun hp => Bool.noConfusion hp, trivial⟩
    · exact Or.inr (Or.inr ⟨rfl, trivial⟩)
  | day n =>
    by_cases hopen : Representable 0 n ∧ today ≤ n
    · obtain ⟨hn, hle⟩ := hopen
      cases hp : p.pickingEnd with
      | false =>
        refine Or.inl ⟨_, true, pickerStep_open ht hn hle hp, fun _ => ⟨n, hle, hn, rfl⟩, ?_⟩
        intro hpicking
        rw [hp] at hpicking
        cases hpicking
      | true =>
        obtain ⟨a, hfrom, ha, hstay⟩ := hpick hp
        have hstep := pickerStep_end ht hn hle ha hstay hp
        have hends := endsLater_day hn hle ha hstay hp
        by_cases hlt : n < a
        · rw [if_pos hlt] at hstep
          refine Or.inl ⟨_, true, hstep, fun _ => ⟨n, hle, hn, rfl⟩, ?_⟩
          exact hends.mpr fun hge => absurd hlt hge.not_gt
        · rw [if_neg hlt] at hstep
          refine Or.inr (Or.inl ⟨a, n, hfrom, ha, hn, hstep, hends.trans ?_⟩)
          exact ⟨fun hall => hall (not_lt.mp hlt), fun hboth _ => hboth⟩
    · have hignored : Representable 0 n → n < today :=
        fun hn => not_le.mp fun hle => hopen ⟨hn, hle⟩
      exact Or.inr (Or.inr ⟨pickerStep_ignored ht hignored,
        fun _ hle hn => absurd ⟨hn, hle⟩ hopen⟩)

theorem pickingFrom_step (ht : Representable 0 today) (p : Picker) (e : PickerEvent)
    (h : PickingFrom today p) : PickingFrom today (pickerStep 0 today p e) := by
  rcases pickerStep_cases ht h e with ⟨_, _, hstep, hpicks, _⟩ | ⟨_, _, _, _, _, hstep, _⟩ |
    ⟨hstep, _⟩
  · rw [hstep]
    exact hpicks
  · rw [hstep]
    exact fun hp => Bool.noConfusion hp
  · rw [hstep]
    exact h

theorem emitsAccepted_step (ht : Representable 0 today) (hpos : 1 ≤ today) (p : Picker)
    (e : PickerEvent) (hpick : PickingFrom today p) (h : EmitsAccepted p) :
    EmitsAccepted (pickerStep 0 today p e) ↔ EndsLater today p e := by
  rcases pickerStep_cases ht hpick e with ⟨_, _, hstep, _, hends⟩ |
    ⟨a, n, hfrom, ha, hn, hstep, hends⟩ | ⟨hstep, hends⟩
  · rw [hstep]
    exact iff_of_true (emitsAccepted_onChange_open h) hends
  · have habound := ha.natAbs_le utcRange
    have hnbound := hn.natAbs_le utcRange
    rw [hstep, hends, emitsAccepted_onChange_pair h]
    exact accepted_iff (by omega) (by omega) (by omega)
  · rw [hstep]
    exact iff_of_true h hends

/-- In UTC the picker emits stays only exactly when no stay is ended on its own
first day, or after the last day that the server can read. -/
theorem emitsAccepted_iff (ht : Representable 0 today) (hpos : 1 ≤ today) {p : Picker}
    (hp : p.pickingEnd = false) (h : EmitsAccepted p) (es : List PickerEvent) :
    Always (pickerStep 0 today) EmitsAccepted p es ↔
      Along (pickerStep 0 today) (EndsLater today) p es := by
  have hstart : PickingFrom today p := fun hpicking => by
    rw [hp] at hpicking
    cases hpicking
  exact always_iff_along (pickingFrom_step ht)
    (fun p e hpick _ hall => emitsAccepted_step ht hpos p e hpick hall)
    (along_of_forall fun _ _ _ => trivial) hstart h

theorem emitsAccepted_cleared : EmitsAccepted cleared := fun _ h => by cases h

theorem emitsAccepted_iff_june :
    Always (pickerStep 0 739038) EmitsAccepted cleared [.day 739040, .day 739043, .clear] ↔
      Along (pickerStep 0 739038) (EndsLater 739038) cleared [.day 739040, .day 739043, .clear] :=
  emitsAccepted_iff (by decide) (by decide) rfl emitsAccepted_cleared _

/-- The same day clicked twice is emitted as a stay without a night. -/
theorem emits_empty_stay :
    ¬Always (pickerStep 0 739038) EmitsAccepted cleared [.day 739040, .day 739040] := by
  intro h
  have hemit : (⟨isoText 739040, isoText 739040⟩ : StayDates) ∈
      (run (pickerStep 0 739038) cleared [.day 739040, .day 739040]).emitted := by
    decide +kernel
  have haccepted := h.last _ hemit (isoText_ne_nil _) (isoText_ne_nil _)
  have hboth := (accepted_iff (by decide) (by decide) (by decide)).mp haccepted
  omega

end

end HotelMs
